import Sel4cpVmm.Proofs.Access

/-!
# The targets of a software interrupt

The write to `SGIR` decodes the filter mode and the target list, and then injects the SGI into vCPU 0
whatever the list says.
-/

namespace Sel4cpVmm

open StopProgram

variable {φ : Type} {env : Env φ}

/-- The vCPUs in the target list that a value written to `SGIR` by `vcpu` defines. -/
def sgirTargets (vcpu : VcpuId) (data : U32) : List VcpuId :=
  (List.finRange numVcpus).filter fun v => (sgirTargetList vcpu data).any fun l => l.getLsbD v

/-- The calls of `vgic_inject_irq` that a write of the value makes. -/
def sgirCalls (vcpu : VcpuId) (data : U32) : List (VcpuId × Int) :=
  (sgirTargetList vcpu data).toList.map fun _ => (vcpuId, sgirVirq data)

def makeCalls (env : Env φ) (calls : List (VcpuId × Int)) : M φ Unit :=
  forM calls fun c => do
    let _ ← vgicInjectIrq env c.1 c.2

/-- The SGI is handed to `vgic_inject_irq` for its targets and no others, and without a target the list registers,
the queue and the bitmaps stay as they are. -/
structure ReachesTargets (env : Env φ) (s : Vmm φ) (vcpu : VcpuId) (data : U32) : Prop where
  handed : ∀ v, (v, sgirVirq data) ∈ sgirCalls vcpu data ↔ v ∈ sgirTargets vcpu data
  unchanged : sgirTargets vcpu data = [] →
    (outcome (writeSgir env vcpu data) s).vgic = s.vgic ∧ (outcome (writeSgir env vcpu data) s).dist = s.dist

lemma writeSgir_eq (vcpu : VcpuId) (data : U32) :
    writeSgir env vcpu data = makeCalls env (sgirCalls vcpu data) := by
  unfold writeSgir makeCalls sgirCalls
  cases sgirTargetList vcpu data with
  | none => rfl
  | some l => simp

lemma sgirMode_le (data : U32) : (sgirMode data).toNat ≤ 3 := by
  have hmask : (data &&& 0x3000000#32).toNat ≤ 0x3000000 := by
    rw [BitVec.toNat_and]
    exact Nat.and_le_right
  change ((data &&& 0x3000000#32) >>> 24).toNat ≤ 3
  rw [BitVec.toNat_ushiftRight, Nat.shiftRight_eq_div_pow]
  omega

lemma sgirTargetList_bit (vcpu v : VcpuId) {data : U32} (hmode : sgirMode data ≠ 3) :
    ∃ l, sgirTargetList vcpu data = some l ∧
      (l.getLsbD v = true ↔ sgirMode data = 2 ∨ (sgirMode data = 0 ∧ data.getLsbD 16 = true)) := by
  have hmodes : sgirMode data = 0 ∨ sgirMode data = 1 ∨ sgirMode data = 2 := by
    have hle := sgirMode_le data
    have hne : (sgirMode data).toNat ≠ 3 := fun h => hmode (BitVec.eq_of_toNat_eq h)
    have hcases : (sgirMode data).toNat = 0 ∨ (sgirMode data).toNat = 1 ∨ (sgirMode data).toNat = 2 := by omega
    exact hcases.imp BitVec.eq_of_toNat_eq (Or.imp BitVec.eq_of_toNat_eq BitVec.eq_of_toNat_eq)
  unfold sgirTargetList
  rw [vcpu_eq vcpu, vcpu_eq v]
  rcases hmodes with h | h | h
  · refine ⟨_, if_pos h, ?_⟩
    simp [h]
  · refine ⟨_, by rw [if_neg (by simp [h]), if_pos h], ?_⟩
    simp [h]
  · refine ⟨_, by rw [if_neg (by simp [h]), if_neg (by simp [h]), if_pos h], ?_⟩
    simp [h]

lemma handed_iff (vcpu : VcpuId) {data : U32} (hmode : sgirMode data ≠ 3) :
    (∀ v, (v, sgirVirq data) ∈ sgirCalls vcpu data ↔ v ∈ sgirTargets vcpu data) ↔
      sgirMode data = 2 ∨ (sgirMode data = 0 ∧ data.getLsbD 16 = true) := by
  obtain ⟨l, hl, hbit⟩ := sgirTargetList_bit vcpu vcpuId hmode
  have hcall : ∀ v, (v, sgirVirq data) ∈ sgirCalls vcpu data := by
    intro v
    simp [sgirCalls, hl, vcpu_eq v]
  have htarget : ∀ v, v ∈ sgirTargets vcpu data ↔ l.getLsbD vcpuId = true := by
    intro v
    simp [sgirTargets, hl, vcpu_eq v]
  rw [← hbit]
  exact ⟨fun h => (htarget vcpuId).mp ((h vcpuId).mp (hcall vcpuId)),
    fun h v => iff_of_true (hcall v) ((htarget v).mpr h)⟩

/-- A write to `SGIR` makes the calls of `sgirCalls`, and for a value with a defined filter mode these reach its
targets and no others, in any state, exactly when the value names the writing vCPU itself or lists vCPU 0. -/
theorem sgir_reachesTargets_iff {vcpu : VcpuId} {offset : U64} (hoffset : distWrite env.board.gic vcpu offset.toNat = .sgir) :
    (∀ fsr regs mask, distWriteEffect env vcpu offset fsr regs mask = do
      let data ← faultGetData env regs fsr
      makeCalls env (sgirCalls vcpu (data.setWidth 32))) ∧
    ∀ s data, sgirMode data ≠ 3 → (ReachesTargets env s vcpu data ↔
      sgirMode data = 2 ∨ (sgirMode data = 0 ∧ data.getLsbD 16 = true)) := by
  refine ⟨fun fsr regs mask => ?_, fun s data hmode => ⟨fun h => (handed_iff vcpu hmode).mp h.handed, fun h => ?_⟩⟩
  · unfold distWriteEffect
    simp only [hoffset, writeSgir_eq]
  · have hhanded := (handed_iff vcpu hmode).mpr h
    refine ⟨hhanded, fun hnil => ?_⟩
    -- the vCPU that is handed the interrupt is a target
    obtain ⟨l, hl, -⟩ := sgirTargetList_bit vcpu vcpuId hmode
    have hmem := (hhanded vcpuId).mp (by simp [sgirCalls, hl])
    rw [hnil] at hmem
    exact absurd hmem (by simp)

/-- An SGI 1 that the guest sends to itself. -/
theorem sgir_reachesTargets_iff_self :
    ReachesTargets (vmmEnv .qemuArmVirtHyp) (vgicInit (vmmEnv .qemuArmVirtHyp) (.filled 0)) vcpuId 0x2000001 :=
  ((@sgir_reachesTargets_iff _ (vmmEnv .qemuArmVirtHyp) vcpuId 0xf00 (by decide)).2 _ _ (by decide)).mpr (.inl (by decide))

/-- An SGI 1 for all vCPUs but the writer, of which there is none, ends up pending and in a list register. -/
theorem sgi_for_others_delivered : ∃ s : Vmm VmmAckFn, Reachable (vmmEnv .qemuArmVirtHyp) (fun _ _ => True) s ∧
    sgirTargets vcpuId 0x1000001 = [] ∧ isPending s.dist 1 vcpuId = false ∧
    isPending (outcome (writeSgir (vmmEnv .qemuArmVirtHyp) vcpuId 0x1000001) s).dist 1 vcpuId = true ∧
    ¬ReachesTargets (vmmEnv .qemuArmVirtHyp) s vcpuId 0x1000001 := by
  obtain ⟨s, hs, hp⟩ := exists_reachable (vmmEnv .qemuArmVirtHyp) (fun _ _ => True)
    (fun s => !isPending s.dist 1 vcpuId &&
      isPending (outcome (writeSgir (vmmEnv .qemuArmVirtHyp) vcpuId 0x1000001) s).dist 1 vcpuId)
    (.registerIrq 1 (some .sgiAck) null :: guestStore (vmmEnv .qemuArmVirtHyp) 0x000 1) (by decide +kernel)
    (by decide +kernel)
  rw [Bool.and_eq_true, Bool.not_eq_true'] at hp
  refine ⟨s, hs, by decide, hp.1, hp.2, fun h => ?_⟩
  have hsame := (h.unchanged (by decide)).2
  rw [hsame, hp.1] at hp
  exact absurd hp.2 (by simp)

end Sel4cpVmm
