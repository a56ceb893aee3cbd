import Sel4cpVmm.Proofs.Residents

/-!
# Pending is in flight

As long as the guest does not clear pending bits itself, an interrupt is pending exactly when it is in
a list register or in the queue, and it is there once.
-/

namespace Sel4cpVmm

variable {φ : Type} {env : Env φ}

def WritesIcpendr (env : Env φ) : Op φ → Prop
  | .fault (.vmFault addr fsr) => WritesDist env (fun w => w = .icpendr) addr fsr
  | _ => False

instance (env : Env φ) (op : Op φ) : Decidable (WritesIcpendr env op) :=
  match op with
  | .fault (.vmFault addr fsr) => inferInstanceAs (Decidable (WritesDist env (fun w => w = .icpendr) addr fsr))
  | .fault (.unknownSyscall _) | .fault .userException | .fault (.vgicMaintenance _ _) => .isFalse id
  | .fault (.vcpuFault _) | .fault (.vppiEvent _) => .isFalse id
  | .registerIrq _ _ _ | .injectIrq _ | .notification _ | .guest _ | .retire _ => .isFalse id

lemma not_clrPending {s : Vmm φ} {op : Op φ} (h : ¬WritesIcpendr env op) {irq : Int} :
    .clrPending irq ∉ opActions env s op := by
  cases op with
  | fault f =>
    cases f with
    | vmFault addr fsr => exact fun hmem => h (writesIcpendr_of_clrPending hmem)
    | _ => simp [opActions]
  | _ => simp [opActions]

/-- Each interrupt in flight has a pending bit of its own, and no other pending bit is set. -/
structure PendingResident (s : Vmm φ) : Prop where
  range : ∀ h ∈ s.vgic.view.residents, 0 ≤ h.virq ∧ h.virq < irqLimit
  nodup : (s.vgic.view.residents.map VirqHandle.virq).Nodup
  pending : ∀ i, 0 ≤ i ∧ i < irqLimit →
    (isPending s.dist i vcpuId = true ↔ i ∈ s.vgic.view.residents.map VirqHandle.virq)

lemma pendingResident_init (tcb : UserContext) : PendingResident (vgicInit env tcb) := by
  have hview : (vgicInit env tcb).vgic.view.residents = 0 := residents_init
  refine ⟨by simp [hview], by simp [hview], fun i hi => ?_⟩
  rw [isPending_init tcb hi]
  simp [hview]

lemma PendingResident.effect {s s' : Vmm φ} {a : Action φ} (hI : PendingResident s) (hb : a.Below irqLimit)
    (he : Effect (fun i => 0 ≤ i ∧ i < irqLimit) s.vgic s.dist a s'.vgic s'.dist)
    (ha : ∀ irq, a ≠ .clrPending irq) : PendingResident s' := by
  have hrange := he.residents (R := fun h => 0 ≤ h.virq ∧ h.virq < irqLimit) hI.range
    fun h h0 hlt _ => ⟨h0, hlt hb⟩
  cases he with
  | same hv hp => exact ⟨hrange, hv ▸ hI.nodup, fun i hi => by rw [hp i hi, hv]; exact hI.pending i hi⟩
  | offered h h0 hlt _ hfree hv hd =>
    have hnew : h.virq ∉ s.vgic.view.residents.map VirqHandle.virq := by
      rw [← hI.pending h.virq ⟨h0, hlt hb⟩, hfree]
      simp
    have hres : s'.vgic.view.residents = h ::ₘ s.vgic.view.residents := by rw [hv, SlotQueue.residents_offer]
    refine ⟨hrange, ?_, fun i hi => ?_⟩
    · rw [hres, Multiset.map_cons]
      exact Multiset.nodup_cons.mpr ⟨hnew, hI.nodup⟩
    · rw [hd, isPending_setPending hi h0, hres, Multiset.map_cons, Multiset.mem_cons]
      by_cases hih : i = h.virq
      · simp [hih]
      · rw [if_neg hih, hI.pending i hi]
        simp [hih]
  | retired k h hslot hv hd =>
    have hres : s.vgic.view.residents = h ::ₘ s'.vgic.view.residents := by
      rw [hv]
      exact SlotQueue.residents_retire hslot
    have hr : 0 ≤ h.virq ∧ h.virq < irqLimit := hI.range h (by rw [hres]; simp)
    have hnd := hI.nodup
    rw [hres, Multiset.map_cons, Multiset.nodup_cons] at hnd
    refine ⟨hrange, hnd.2, fun i hi => ?_⟩
    rw [hd, isPending_setPending hi hr.1]
    by_cases hih : i = h.virq
    · simpa [hih] using hnd.1
    · rw [if_neg hih, hI.pending i hi, hres, Multiset.map_cons, Multiset.mem_cons]
      simp [hih]
  | cleared irq hclr => exact absurd hclr (ha irq)

lemma pendingResident_reachable (hstop : env.assertStops = true) (hinert : InertAcks env)
    {s : Vmm φ} (hs : Reachable env (fun s op => BelowLimit env s op ∧ ¬WritesIcpendr env op) s) :
    s.vgic.Wf ∧ PendingResident s :=
  reachable_does hstop hinert (I := PendingResident) pendingResident_init
    (fun s t hf hI => ⟨hf.vgic ▸ hI.range, hf.vgic ▸ hI.nodup, hf.vgic ▸ hf.dist ▸ hI.pending⟩)
    (fun s op a hop ha t t' hw hI hd => by
      have hb := below_opActions hop.1 ha
      exact hI.effect hb (hd.effect hw (fun _ => id) hb.bits.quiet) fun irq h => not_clrPending hop.2 (h ▸ ha)) hs

/-- In every state reached without a write to `ICPENDR`, over interrupt numbers below the limit, no
interrupt is in flight twice, and those in flight are those that are pending. -/
theorem pending_iff_inFlight (hstop : env.assertStops = true) (hinert : InertAcks env)
    {s : Vmm φ} (hs : Reachable env (fun s op => BelowLimit env s op ∧ ¬WritesIcpendr env op) s) :
    s.vgic.inFlight.Nodup ∧
      ∀ i, 0 ≤ i ∧ i < irqLimit → (isPending s.dist i vcpuId = true ↔ i ∈ s.vgic.inFlight) := by
  obtain ⟨-, hI⟩ := pendingResident_reachable hstop hinert hs
  refine ⟨Vgic.nodup_inFlight.mpr hI.nodup, fun i hi => ?_⟩
  rw [hI.pending i hi, Vgic.mem_inFlight]

/-- Five interrupts are outstanding and the second has been retired. -/
theorem pending_iff_inFlight_retired : ∃ s : Vmm VmmAckFn, s.vgic.inFlight = [33, 37, 35, 36] ∧
    ∀ i, 0 ≤ i ∧ i < irqLimit → (isPending s.dist i vcpuId = true ↔ i ∈ s.vgic.inFlight) := by
  obtain ⟨s, hs, hp⟩ := exists_reachable (vmmEnv .qemuArmVirtHyp)
    (fun s op => BelowLimit (vmmEnv .qemuArmVirtHyp) s op ∧ ¬WritesIcpendr (vmmEnv .qemuArmVirtHyp) op)
    (fun s => decide (s.vgic.inFlight = [33, 37, 35, 36]))
    (fiveOutstanding (vmmEnv .qemuArmVirtHyp) ++ [.retire 1]) (by decide +kernel) (by decide +kernel)
  exact ⟨s, of_decide_eq_true hp,
    (pending_iff_inFlight rfl (vmmEnv_inert _ (by decide)) hs).2⟩

end Sel4cpVmm
