import Sel4cpVmm.Properties.PendingResident
import Sel4cpVmm.Proofs.Callbacks

/-!
# When an interrupt is acknowledged

Without writes to `ICPENDR` a callback is called only while its interrupt is in no list register and not in the
queue, and maintenance has acknowledged every copy that was loaded and is no longer in a list register.
-/

namespace Sel4cpVmm

open StopProgram

variable {φ : Type} {env : Env φ}

def ackedIrqs (log : List (Event φ)) : List Int :=
  log.filterMap fun e => match e with
    | .ack _ _ irq _ => some irq
    | _ => none

/-- Adds what a step of maintenance acknowledges to what was acknowledged by maintenance before. -/
def addAcks (acked : List Int) (s : Vmm φ) (op : Op φ) (s' : Vmm φ) : List Int :=
  if op.isMaintenance then acked ++ ackedIrqs (newEvents s s') else acked

/-- The states reached from `vgic_init` by allowed steps, with the interrupts that maintenance has acknowledged. -/
abbrev MaintenanceAcks (env : Env φ) (allowed : Vmm φ → Op φ → Prop) : Vmm φ → List Int → Prop :=
  ReachWith (fun s => ∃ tcb, s = vgicInit env tcb) allowed (step env) addAcks []

/-! ### The moment of a callback -/

section Moments

variable (hstop : env.assertStops = true) {s : Vmm φ}

/-- An interrupt is acknowledged by an enable write only when it is not pending, so in flight nowhere. -/
lemma PendingResident.absent_of_enable (hI : PendingResident s) (hw : s.vgic.Wf) {irq : Int} (hirq : 0 ≤ irq ∧ irq < irqLimit)
    {h : VirqHandle φ} (hhandle : s.vgic.handle irq = some h)
    (hpend : isPending (enabled s irq).dist h.virq vcpuId = false) : h.virq ∉ s.vgic.inFlight := by
  have hvirq := (hw.virq_of_handle hhandle).1
  rw [hvirq] at hpend ⊢
  have hfree : isPending s.dist irq vcpuId = false := isPending_setEnable_self.symm.trans hpend
  rw [Vgic.mem_inFlight, ← hI.pending irq hirq, hfree]
  simp

lemma PendingResident.absent_of_retire (hI : PendingResident s) {k : Fin numListRegs} {h : VirqHandle φ}
    (hslot : s.vgic.view.slot k = some h) : h.virq ∉ (freed s k h).vgic.inFlight := by
  have hnd := hI.nodup
  rw [SlotQueue.residents_free hslot, Multiset.map_cons, Multiset.nodup_cons] at hnd
  rw [Vgic.mem_inFlight, view_freed]
  exact hnd.1

include hstop

lemma acksAbsent_enables (hinert : InertAcks env) (hw : s.vgic.Wf) (hI : PendingResident s) {irqs : List Int}
    (hirqs : ∀ i ∈ irqs, 0 ≤ i ∧ i < irqLimit) :
    AcksAbsent env (fun env => forM irqs (vgicDistEnableIrq env vcpuId)) s := by
  intro f hf
  refine forM_congr (I := fun t => t.vgic.Wf ∧ PendingResident t) (fun i hi t ht => ?_) (fun i hi t ht => ?_) ⟨hw, hI⟩
  · exact acksAbsent_enable hstop (fun h hh hp => ht.2.absent_of_enable ht.1 (hirqs i hi) hh hp) f hf
  · have hb : (Action.enable i : Action φ).Below irqLimit := hirqs i hi
    refine wp_mono (wp_does hstop hinert ht.1 (.enable i)) (fun _ u hd => ⟨hd.wf ht.1, ?_⟩) (fun _ _ _ => trivial)
    exact ht.2.effect hb (hd.effect ht.1 (fun _ => id) hb.bits.quiet) (by simp)

/-- A step calls callbacks only while their interrupt is nowhere. -/
lemma acksAbsent_step (hinert : InertAcks env) (hw : s.vgic.Wf) (hI : PendingResident s) {op : Op φ}
    (hop : BelowLimit env s op) : AcksAbsent env (fun env => step env op) s := by
  have hretire : ∀ idx err, AcksAbsent env (fun env => vgicMaintenanceBody env idx err) s := fun idx err =>
    acksAbsent_maintenance hstop fun k h hslot => hI.absent_of_retire hslot
  intro f hf
  cases op with
  | retire idx => exact bind_congr_left (hretire idx 0 f hf)
  | fault f' =>
    cases f' with
    | vmFault addr fsr =>
      have hfault := acksAbsent_vmFault hstop hop (fun irqs hirqs => acksAbsent_enables hstop hinert hw hI hirqs) f hf
      change (handleVmFault (env.withAcks f) addr fsr >>= fun _ => pure ()) s = (handleVmFault env addr fsr >>= fun _ => pure ()) s
      exact bind_congr_left hfault
    | vgicMaintenance idx err =>
      have hbody : handleVgicMaintenance (env.withAcks f) (cInt idx) err s = handleVgicMaintenance env (cInt idx) err s :=
        bind_congr_left (hretire (cInt idx) err f hf)
      change (handleVgicMaintenance (env.withAcks f) (cInt idx) err >>= fun _ => pure ()) s =
        (handleVgicMaintenance env (cInt idx) err >>= fun _ => pure ()) s
      exact bind_congr_left hbody
    | unknownSyscall syscall =>
      have hsame : fault (env.withAcks f) (some (.unknownSyscall syscall)) = fault env (some (.unknownSyscall syscall)) := rfl
      exact congrFun hsame s
    | userException =>
      have hsame : fault (env.withAcks f) (some .userException) = fault env (some .userException) := rfl
      exact congrFun hsame s
    | vcpuFault hsr =>
      have hsame : fault (env.withAcks f) (some (.vcpuFault hsr)) = fault env (some (.vcpuFault hsr)) := rfl
      exact congrFun hsame s
    | vppiEvent irq =>
      have hsame : fault (env.withAcks f) (some (.vppiEvent irq)) = fault env (some (.vppiEvent irq)) := rfl
      exact bind_congr_right fun _ t _ => congrFun hsame t
  | _ => rfl

end Moments

/-! ### Acknowledged and loaded -/

/-- The interrupts that maintenance has acknowledged and those in list registers are the loaded ones. -/
def Accounted (acked : List Int) (s : Vmm φ) : Prop :=
  (acked : Multiset Int) + s.vgic.view.held.map VirqHandle.virq = (loadedIrqs s.log : Multiset Int)

section Accounted

variable {acked : List Int} {s s' : Vmm φ}

lemma Accounted.other (hI : Accounted acked s) (hv : s'.vgic.view = s.vgic.view) {l : List (Event φ)}
    (hlog : s'.log = s.log ++ l) (hl : ∀ e ∈ l, e.isOther = true) : Accounted acked s' := by
  rw [Accounted, hv, hlog, loadedIrqs_append, loadedIrqs_other hl, List.append_nil]
  exact hI

lemma Accounted.same (hI : Accounted acked s) (hv : s'.vgic.view = s.vgic.view) (hlog : s'.log = s.log) :
    Accounted acked s' :=
  hI.other hv (l := []) (by simpa using hlog) (by simp)

lemma Accounted.logged (hI : Accounted acked s) {e : Event φ} (he : e.isOther = true) :
    Accounted acked { s with log := s.log ++ [e] } :=
  hI.other rfl rfl (by simpa using he)

lemma Accounted.injected (hI : Accounted acked s) {irq : Int} {b : Bool} (hi : Injected env s irq b s') :
    Accounted acked s' := by
  cases hi with
  | refused => exact hI
  | pending => exact hI
  | @accepted h _ _ _ ha =>
    have hload : (s.vgic.view.offer h).held.map VirqHandle.virq =
        (loadedIrqs (offerEvents env s.vgic h) : Multiset Int) + s.vgic.view.held.map VirqHandle.virq := by
      rw [loadedIrqs_offerEvents]
      cases hf : s.vgic.view.firstFree with
      | none =>
        rw [SlotQueue.offer_of_none hf]
        simp [SlotQueue.enqueue, SlotQueue.held]
      | some k =>
        have hslot : (s.vgic.view.enqueue h).slot k = none := SlotQueue.slot_of_firstFree hf
        rw [SlotQueue.offer_of_some hf, SlotQueue.held_load hslot, Multiset.map_add, Multiset.map_coe]
        rfl
    rw [Accounted, ha.view, ha.log, loadedIrqs_append, hload, ← Multiset.coe_add, ← hI, add_left_comm, add_comm]
    rfl

lemma Accounted.does {a : Action φ} (hI : Accounted acked s) (hw : s.vgic.Wf) (hd : Does env s a s')
    (ha : ∀ idx err, a ≠ .retire idx err) : Accounted acked s' := by
  cases hd with
  | register hr => exact hI.same (hr.view hw) rfl
  | inject hi => exact hI.injected hi
  | notification hi => exact (hI.logged rfl).injected hi
  | vppiEvent hi =>
    have ht := (hI.logged rfl).injected hi
    exact ht.other rfl rfl (other_vppiReturn _ _)
  | retire => exact absurd rfl (ha _ _)
  | enableAck => exact hI.other rfl rfl (other_ackEvents _ _)
  | _ => exact hI.same rfl rfl

/-- The interrupt retired is acknowledged, and the next one that waits is loaded. -/
lemma Accounted.retires (hI : Accounted acked s) {k : Fin numListRegs} {h : VirqHandle φ} (hr : Retires env s k h s') :
    Accounted (acked ++ [h.virq]) s' := by
  have hfree : (s.vgic.view.free k).slot k = none := by simp [SlotQueue.free]
  have hheld := SlotQueue.held_free hr.slot
  rw [Accounted, hheld, Multiset.map_cons] at hI
  rw [Accounted, hr.view, hr.log, List.append_assoc, loadedIrqs_append, loadedIrqs_retire,
    SlotQueue.retire, SlotQueue.held_load hfree, Multiset.map_add, Multiset.map_coe,
    ← Multiset.coe_add, ← Multiset.coe_add, ← hI, ← Multiset.singleton_add, Multiset.coe_singleton]
  change _ + (((s.vgic.view.waiting.head?.toList.map VirqHandle.virq : List Int) : Multiset Int) + _) = _
  abel

lemma ackedIrqs_append (log l : List (Event φ)) : ackedIrqs (log ++ l) = ackedIrqs log ++ ackedIrqs l :=
  List.filterMap_append

lemma ackedIrqs_none {l : List (Event φ)} (h : ∀ e ∈ l, e.isAck = false) : ackedIrqs l = [] := by
  refine List.filterMap_eq_nil_iff.mpr fun e he => ?_
  have hack := h e he
  cases e <;> simp_all [Event.isAck]

lemma ackedIrqs_ackEvents {h : VirqHandle φ} (hfn : h.ackFn.isSome) : ackedIrqs (ackEvents env s h) = [h.virq] := by
  obtain ⟨fn, hfn⟩ := Option.isSome_iff_exists.mp hfn
  have hcalls : ∀ l : List AckCall, ∀ e ∈ (l.filterMap AckCall.event : List (Event φ)), e.isAck = false := by
    intro l e he
    rcases mem_callEvents he with ⟨ch, rfl⟩ | ⟨irq, rfl⟩ <;> rfl
  unfold ackEvents
  rw [hfn]
  exact congrArg (h.virq :: ·) (ackedIrqs_none (hcalls _))

lemma ackedIrqs_of_retires {k : Fin numListRegs} {h : VirqHandle φ} (hr : Retires env s k h s') {u : Vmm φ}
    (hu : Frame s' u) : ackedIrqs (newEvents s u) = [h.virq] := by
  obtain ⟨l, hl, hret⟩ := hu.log
  have hlog : u.log = s.log ++ (ackEvents env (freed s k h) h ++ refillEvents env (freed s k h) k ++ l) := by
    rw [hl, hr.log]
    simp
  have hrefill : ∀ e ∈ refillEvents env (freed s k h) k, e.isAck = false := by
    intro e he
    obtain ⟨a, -, rfl⟩ := mem_refillEvents he
    rfl
  have hreturn : ∀ e ∈ l, e.isAck = false := by
    intro e he
    have := hret e he
    cases e <;> simp_all [Event.isReturn, Event.isAck]
  rw [newEvents_eq hlog, ackedIrqs_append, ackedIrqs_append, ackedIrqs_ackEvents hr.ackFn, ackedIrqs_none hrefill,
    ackedIrqs_none hreturn, List.append_nil, List.append_nil]

variable (hstop : env.assertStops = true) (hinert : InertAcks env)

include hstop hinert

lemma Accounted.step (hI : Accounted acked s) (hw : s.vgic.Wf) {op : Op φ} (hrun : step env op s = .ok ⟨⟩ s') :
    Accounted (addAcks acked s op s') s' := by
  have hwp : wp (Sel4cpVmm.step env op) (fun _ t => Accounted (addAcks acked s op t) t) (fun _ _ => True) s := by
    refine step_wp (Q := fun t => Accounted (addAcks acked s op t) t) (E := fun _ => True) hstop (fun _ _ => trivial) ?_
    by_cases hop : op.isMaintenance = true
    · obtain ⟨idx, err, hactions⟩ := @opActions_of_isMaintenance _ env s _ hop
      rw [hactions, List.forM_cons, wp_bind]
      refine wp_mono (wp_does hstop hinert hw _) (fun _ t hd u hu => ⟨?_, trivial⟩) (fun _ _ _ => trivial)
      cases hd with
      | retire hr =>
        obtain ⟨l, hl, hret⟩ := hu.log
        rw [addAcks, if_pos hop, ackedIrqs_of_retires hr hu]
        exact (hI.retires hr).other (by rw [hu.vgic]) hl fun e he => other_of_isReturn (hret e he)
    · refine wp_mono (wp_actions (I := Accounted acked) (E := fun _ _ => True) hstop hinert
        (fun a ha t t' hw hI hd => hI.does hw hd ?_) (fun _ _ _ _ _ _ _ _ => trivial) hw hI)
        (fun _ t ht u hu => ⟨?_, trivial⟩) (fun _ _ _ => trivial)
      · rintro idx err rfl
        exact hop (isMaintenance_of_retire ha)
      · obtain ⟨l, hl, hret⟩ := hu.log
        rw [addAcks, if_neg hop]
        exact ht.2.other (by rw [hu.vgic]) hl fun e he => other_of_isReturn (hret e he)
  have hafter := wp_ok hwp hrun
  exact hafter

end Accounted

/-- In every state reached without a write to `ICPENDR`, over interrupt numbers below the limit, the next step calls
callbacks only while their interrupt is in no list register and not in the queue; and the interrupts that
maintenance has acknowledged and those in list registers are, counted, the loaded ones. -/
theorem acked_after_delivery (hstop : env.assertStops = true) (hinert : InertAcks env) {s : Vmm φ} {acked : List Int}
    (hs : MaintenanceAcks env (fun s op => BelowLimit env s op ∧ ¬WritesIcpendr env op) s acked) :
    (∀ op, BelowLimit env s op ∧ ¬WritesIcpendr env op → AcksAbsent env (fun env => step env op) s) ∧
      ∀ i, acked.count i + s.vgic.lrVirqs.count i = (loadedIrqs s.log).count i := by
  obtain ⟨hw, hI⟩ := pendingResident_reachable hstop hinert hs.reach
  refine ⟨fun op hop => acksAbsent_step hstop hinert hw hI hop.1, fun i => ?_⟩
  have hacc : Accounted acked s := by
    refine ReachWith.invariant (I := fun s acked => Accounted acked s) ?_ (fun t x op t' ht hI _ hrun => ?_) hs
    · rintro t ⟨tcb, rfl⟩
      change (_ : Multiset Int) + (Vgic.init : Vgic φ).view.held.map _ = _
      rw [view_init]
      simp [SlotQueue.held, loadedIrqs, vgicInit]
    · exact hI.step hstop hinert (reachable_wf hstop hinert ht) hrun
  have hcount := congrArg (Multiset.count i) hacc
  rwa [Multiset.count_add, ← Vgic.coe_lrVirqs, Multiset.coe_count, Multiset.coe_count, Multiset.coe_count] at hcount

/-- Five interrupts are outstanding and the second has been retired. -/
theorem acked_after_delivery_retired : ∃ (s : Vmm VmmAckFn) (acked : List Int), s.vgic.inFlight = [33, 37, 35, 36] ∧
    AcksAbsent (vmmEnv .qemuArmVirtHyp) (fun env => step env (.retire 0)) s ∧
    ∀ i, acked.count i + s.vgic.lrVirqs.count i = (loadedIrqs s.log).count i := by
  obtain ⟨s, hs, hp⟩ := exists_reachable (vmmEnv .qemuArmVirtHyp)
    (fun s op => BelowLimit (vmmEnv .qemuArmVirtHyp) s op ∧ ¬WritesIcpendr (vmmEnv .qemuArmVirtHyp) op)
    (fun s => decide (s.vgic.inFlight = [33, 37, 35, 36]))
    (fiveOutstanding (vmmEnv .qemuArmVirtHyp) ++ [.retire 1]) (by decide +kernel) (by decide +kernel)
  obtain ⟨acked, hacked⟩ := hs.exists_with (g := addAcks) (c := [])
  have hall := acked_after_delivery rfl (vmmEnv_inert _ (by decide)) hacked
  exact ⟨s, acked, of_decide_eq_true hp, hall.1 (.retire 0) ⟨trivial, id⟩, hall.2⟩

end Sel4cpVmm
