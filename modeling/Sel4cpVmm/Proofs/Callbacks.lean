import Sel4cpVmm.Proofs.Residents

/-!
# The moments of a callback

When a program calls ack callbacks only while their interrupt is outstanding nowhere, it does not depend on what
they would do at another moment. The only calls are those of an enable write and of maintenance.
-/

namespace Sel4cpVmm

open StopProgram

variable {φ α β : Type} {env : Env φ}

/-- The environment with other callbacks. -/
def Env.withAcks (env : Env φ) (f : φ → VcpuId → Int → VoidPtr → Vmm φ → List AckCall) : Env φ := { env with ackFn := f }

/-- `f` and the callbacks of `env` differ at most where they are called while their interrupt is in a list register
or in the queue. -/
def AgreesAbsent (env : Env φ) (f : φ → VcpuId → Int → VoidPtr → Vmm φ → List AckCall) : Prop :=
  ∀ fn vcpu irq cookie t, irq ∉ t.vgic.inFlight → f fn vcpu irq cookie t = env.ackFn fn vcpu irq cookie t

/-- Run from `s`, the program calls a callback only while its interrupt is in no list register and not in the
queue: what the callbacks do at any other moment makes no difference. -/
def AcksAbsent (env : Env φ) (x : Env φ → M φ α) (s : Vmm φ) : Prop :=
  ∀ f, AgreesAbsent env f → x (env.withAcks f) s = x env s

/-! ### One call -/

section Call

variable {f : φ → VcpuId → Int → VoidPtr → Vmm φ → List AckCall} {s : Vmm φ} {h : VirqHandle φ}

lemma runAckCall_withAcks : runAckCall (env.withAcks f) = runAckCall env := by
  funext c
  cases c <;> rfl

lemma virqAck_eq {fn : φ} (hfn : h.ackFn = some fn) : virqAck env vcpuId h s =
    forM (env.ackFn fn vcpuId h.virq null { s with log := s.log ++ [.ack fn vcpuId h.virq null] }) (runAckCall env)
      { s with log := s.log ++ [.ack fn vcpuId h.virq null] } := by
  unfold virqAck
  rw [hfn]
  rfl

/-- `virq_ack` is such a program exactly when the interrupt is nowhere, or has no callback. -/
lemma acksAbsent_virqAck : AcksAbsent env (fun env => virqAck env vcpuId h) s ↔ (h.ackFn.isSome → h.virq ∉ s.vgic.inFlight) := by
  constructor
  · intro hall hsome hmem
    obtain ⟨fn, hfn⟩ := Option.isSome_iff_exists.mp hsome
    have hcalls : ∀ l : List AckCall, virqAck env vcpuId h s =
        forM l (runAckCall env) { s with log := s.log ++ [.ack fn vcpuId h.virq null] } := by
      intro l
      have hreplaced : virqAck (env.withAcks _) vcpuId h s = virqAck env vcpuId h s :=
        hall (fun fn vcpu irq cookie t => if irq ∈ t.vgic.inFlight then l else env.ackFn fn vcpu irq cookie t)
          fun fn vcpu irq cookie t hno => if_neg hno
      rw [← hreplaced, virqAck_eq hfn, runAckCall_withAcks]
      exact congrFun (congrArg (forM · (runAckCall env)) (if_pos hmem)) _
    -- a callback that does nothing and one that calls the kernel leave different logs
    have hsame := (hcalls []).symm.trans (hcalls [.irqAck 0])
    have hlog := congrArg List.length (congrArg Vmm.log (EStateM.Result.ok.inj hsame).2)
    simp at hlog
  · intro habsent f hf
    cases hfn : h.ackFn with
    | none =>
      unfold virqAck
      rw [hfn]
      rfl
    | some fn =>
      change virqAck (env.withAcks f) vcpuId h s = virqAck env vcpuId h s
      rw [virqAck_eq hfn, virqAck_eq hfn, runAckCall_withAcks]
      have hcall := hf fn vcpuId h.virq null { s with log := s.log ++ [.ack fn vcpuId h.virq null] }
        (habsent (by rw [hfn]; rfl))
      exact congrFun (congrArg (forM · (runAckCall env)) hcall) _

end Call

/-! ### The functions that call -/

section Callers

variable {s : Vmm φ} {irq : Int} (hstop : env.assertStops = true)

include hstop

lemma acksAbsent_enable (habsent : ∀ h, s.vgic.handle irq = some h →
    isPending (enabled s irq).dist h.virq vcpuId = false → h.virq ∉ s.vgic.inFlight) :
    AcksAbsent env (fun env => vgicDistEnableIrq env vcpuId irq) s := by
  intro f hf
  change vgicDistEnableIrq (env.withAcks f) vcpuId irq s = vgicDistEnableIrq env vcpuId irq s
  unfold vgicDistEnableIrq
  refine bind_congr_right fun _ t ht => ?_
  obtain rfl : t = enabled s irq := (EStateM.Result.ok.inj ht).2.symm
  refine bind_congr_right fun p u hu => ?_
  have hfind := wp_ok ((wp_virqFindIrqData (Q := fun p u => u = enabled s irq ∧ p = s.vgic.find irq)
    (E := fun _ _ => True) hstop irq).mpr ⟨fun _ => ⟨rfl, rfl⟩, fun _ => trivial⟩) hu
  obtain ⟨rfl, rfl⟩ := hfind
  cases hp : s.vgic.find irq with
  | none => rfl
  | some q =>
    refine ite_congr_at rfl (fun hv => ite_congr_at rfl (fun hpend => ?_) fun _ => rfl) fun _ => rfl
    have hhandle : s.vgic.handle irq = some (s.vgic.deref q) := by
      rw [Vgic.handle, hp]
      exact present_eq_some.mpr ⟨rfl, hv⟩
    have habsent' : (s.vgic.deref q).virq ∉ s.vgic.inFlight := habsent _ hhandle (Bool.eq_false_iff.mpr hpend)
    exact (acksAbsent_virqAck (s := enabled s irq)).mpr (fun _ => habsent') f hf

lemma acksAbsent_maintenance {idx err : Int} (habsent : ∀ (k : Fin numListRegs) h, s.vgic.view.slot k = some h →
    h.virq ∉ (freed s k h).vgic.inFlight) : AcksAbsent env (fun env => vgicMaintenanceBody env idx err) s := by
  intro f hf
  change vgicMaintenanceBody (env.withAcks f) idx err s = vgicMaintenanceBody env idx err s
  have hstop' : (env.withAcks f).assertStops = true := hstop
  refine eq_of_wp ?_
  by_cases hidx : 0 ≤ idx ∧ idx < numListRegs
  · obtain ⟨n, rfl⟩ := Int.eq_ofNat_of_zero_le hidx.1
    have hn : n < numListRegs := by omega
    have hself := wp_self (vgicMaintenanceBody env ((⟨n, hn⟩ : Fin numListRegs) : Int) err) s
    rw [wp_vgicMaintenanceBody hstop] at hself
    change wp (vgicMaintenanceBody (env.withAcks f) ((⟨n, hn⟩ : Fin numListRegs) : Int) err) _ _ s
    rw [wp_vgicMaintenanceBody hstop']
    refine ⟨hself.1, fun h hslot => ?_⟩
    rw [wp_congr (acksAbsent_virqAck.mpr (fun _ => habsent _ h hslot) f hf)]
    exact hself.2 h hslot
  · have hrefused : wp (vgicMaintenanceBody env idx err) (fun _ _ => False) (fun e t => e = .assertFailed ∧ t = s) s :=
      wp_vgicMaintenanceBody_range hstop hidx ⟨rfl, rfl⟩
    obtain ⟨e, t, hrun, rfl, rfl⟩ := error_of_wp hrefused
    exact wp_vgicMaintenanceBody_range hstop' hidx hrun

/-! ### Trapped accesses -/

section Decoded

variable {fsr : U64} {t : Vmm φ}

lemma eq_of_cAssert {c : Bool} {a : Unit} (h : cAssert env c s = .ok a t) : t = s := by
  have hwp : wp (cAssert env c) (fun _ u => u = s) (fun _ _ => True) s :=
    (wp_cAssert_stops hstop c).mpr ⟨fun _ => rfl, fun _ => trivial⟩
  have hafter := wp_ok hwp h
  exact hafter

lemma eq_of_faultGetDataMask {addr m : U64} (h : faultGetDataMask env addr fsr s = .ok m t) :
    m = dataMask addr fsr ∧ t = s := by
  have hwp : wp (faultGetDataMask env addr fsr) (fun m u => m = dataMask addr fsr ∧ u = s) (fun _ _ => True) s :=
    (wp_faultGetDataMask hstop).mpr ⟨fun _ => ⟨rfl, rfl⟩, fun _ => trivial⟩
  have hafter := wp_ok hwp h
  exact hafter

lemma eq_of_faultGetData {regs : UserContext} {v : U64} (h : faultGetData env regs fsr s = .ok v t) :
    v = rtValue regs fsr s.wzr ∧ t = s := by
  have hwp : wp (faultGetData env regs fsr) (fun v u => v = rtValue regs fsr s.wzr ∧ u = s) (fun _ _ => True) s :=
    (wp_faultGetData hstop).mpr ⟨fun _ => ⟨rfl, rfl⟩, fun _ => trivial⟩
  have hafter := wp_ok hwp h
  exact hafter

end Decoded

section Writes

variable {offset fsr : U64} {regs : UserContext} (hloop : ∀ irqs : List Int, (∀ i ∈ irqs, 0 ≤ i ∧ i < irqLimit) →
  AcksAbsent env (fun env => forM irqs (vgicDistEnableIrq env vcpuId)) s)

include hloop

/-- The loop over the enabled interrupts is the only place where a write calls callbacks. -/
lemma acksAbsent_distWriteEffect {mask : U32}
    (hbelow : ∀ i ∈ writeIrqs env.board.gic offset.toNat ((rtValue regs fsr s.wzr).setWidth 32 &&& mask), i < irqLimit) :
    AcksAbsent env (fun env => distWriteEffect env vcpuId offset fsr regs mask) s := by
  intro f hf
  change distWriteEffect (env.withAcks f) vcpuId offset fsr regs mask s = distWriteEffect env vcpuId offset fsr regs mask s
  unfold distWriteEffect
  have hgic : (env.withAcks f).board.gic = env.board.gic := rfl
  rw [hgic]
  cases hk : distWrite env.board.gic vcpuId offset.toNat with
  | isenabler =>
    refine bind_congr_right fun data t ht => ?_
    obtain ⟨rfl, rfl⟩ := eq_of_faultGetData hstop ht
    rw [writeOneBits_eq, writeOneBits_eq]
    refine hloop _ (fun i hi => ?_) f hf
    have hmem : i ∈ writeIrqs env.board.gic offset.toNat ((rtValue regs fsr t.wzr).setWidth 32 &&& mask) := by
      rw [writeIrqs, hk]
      exact hi
    exact ⟨nonneg_of_mem_writeIrqs hmem, hbelow i hmem⟩
  | _ => rfl

lemma acksAbsent_redistWriteEffect {mask : U32} :
    AcksAbsent env (fun env => redistWriteEffect env vcpuId offset fsr regs mask) s := by
  intro f hf
  change redistWriteEffect (env.withAcks f) vcpuId offset fsr regs mask s = redistWriteEffect env vcpuId offset fsr regs mask s
  unfold redistWriteEffect
  cases hk : redistWrite vcpuId offset.toNat with
  | isenabler0 =>
    refine bind_congr_right fun data t ht => ?_
    obtain ⟨rfl, rfl⟩ := eq_of_faultGetData hstop ht
    rw [whileBits_eq _ WordBits.length_bits_le, whileBits_eq _ WordBits.length_bits_le]
    have hrange : ∀ i ∈ (WordBits.bits ((rtValue regs fsr t.wzr).setWidth 32 &&& mask)).map Int.ofNat,
        0 ≤ i ∧ i < irqLimit := by
      intro i hi
      obtain ⟨k, hk, rfl⟩ := List.mem_map.mp hi
      have hlt := BitVec.lt_of_getLsbD (WordBits.mem_bits.mp hk)
      simp only [Int.ofNat_eq_natCast, irqLimit]
      omega
    have hall := hloop _ hrange f hf
    simp only [List.forM_map] at hall
    exact hall
  | _ => rfl

end Writes

lemma acksAbsent_vmFault {addr fsr : U64} (hbelow : ∀ i ∈ accessIrqs env s addr fsr, i < irqLimit)
    (hloop : ∀ irqs : List Int, (∀ i ∈ irqs, 0 ≤ i ∧ i < irqLimit) →
      AcksAbsent env (fun env => forM irqs (vgicDistEnableIrq env vcpuId)) s) :
    AcksAbsent env (fun env => handleVmFault env addr fsr) s := by
  intro f hf
  change handleVmFault (env.withAcks f) addr fsr s = handleVmFault env addr fsr s
  unfold handleVmFault
  refine bind_congr_right fun r t ht => ?_
  obtain ⟨rfl, rfl⟩ := EStateM.Result.ok.inj ht
  refine bind_congr_right fun _ t ht => ?_
  obtain rfl := eq_of_cAssert hstop ht
  refine ite_congr_at rfl (fun hin => ?_) fun hout => ite_congr_at rfl (fun hin => ?_) fun _ => rfl
  · unfold handleVgicDistFault
    refine bind_congr_right fun _ u hu => ?_
    obtain rfl := eq_of_cAssert hstop hu
    refine ite_congr_at rfl (fun _ => rfl) fun hread => ?_
    have hwrite := faultIsWrite_of_not_read hread
    unfold vgicDistRegWrite
    refine bind_congr_right fun mask v hv => ?_
    obtain ⟨rfl, rfl⟩ := eq_of_faultGetDataMask hstop hv
    refine bind_congr_left (acksAbsent_distWriteEffect hstop hloop (fun i hi => hbelow i ?_) f hf)
    rw [accessIrqs, if_pos hwrite]
    rwa [BitVec.add_comm, BitVec.sub_add_cancel] at hi
  · unfold handleVgicRedistFault
    refine bind_congr_right fun _ u hu => ?_
    obtain rfl := eq_of_cAssert hstop hu
    refine bind_congr_right fun _ v hv => ?_
    obtain rfl := eq_of_cAssert hstop hv
    refine ite_congr_at rfl (fun _ => rfl) fun _ => ?_
    unfold handleVgicRedistWriteFault
    refine bind_congr_right fun mask w hw => ?_
    obtain ⟨rfl, rfl⟩ := eq_of_faultGetDataMask hstop hw
    exact bind_congr_left (acksAbsent_redistWriteEffect hstop hloop f hf)

end Callers

end Sel4cpVmm
