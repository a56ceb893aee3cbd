import Sel4cpVmm.Proofs.Residents

/-!
# Order of delivery

The interrupts loaded into list registers, followed by those in the queue, are the accepted ones in the
order of their acceptance; a load never overwrites a list register, and none is free while the queue
holds an interrupt.
-/

namespace Sel4cpVmm

variable {φ : Type} {env : Env φ}

/-! ### The invariant -/

/-- Nothing waits while a list register is free, the loads and the queue account for every accepted
interrupt in order, and no load overwrote a list register. -/
structure Conserved (s : Vmm φ) : Prop where
  workConserving : s.vgic.view.WorkConserving
  order : loadedIrqs s.log ++ s.vgic.view.waiting.map VirqHandle.virq = acceptedIrqs s.log
  empty : LoadsIntoEmpty s.log

lemma Conserved.other {s s' : Vmm φ} (hI : Conserved s) (hv : s'.vgic.view = s.vgic.view) {l : List (Event φ)}
    (hlog : s'.log = s.log ++ l) (hl : ∀ e ∈ l, e.isOther = true) : Conserved s' := by
  refine ⟨hv ▸ hI.workConserving, ?_, ?_⟩
  · rw [hv, hlog, loadedIrqs_append, acceptedIrqs_append, loadedIrqs_other hl, acceptedIrqs_other hl,
      List.append_nil, List.append_nil, hI.order]
  · rw [hlog, loadsIntoEmpty_append]
    exact ⟨hI.empty, loadsIntoEmpty_other hl⟩

lemma Conserved.same {s s' : Vmm φ} (hI : Conserved s) (hv : s'.vgic.view = s.vgic.view) (hlog : s'.log = s.log) :
    Conserved s' :=
  hI.other hv (l := []) (by simpa using hlog) (by simp)

lemma Conserved.logged {s : Vmm φ} (hI : Conserved s) {e : Event φ} (he : e.isOther = true) :
    Conserved { s with log := s.log ++ [e] } :=
  hI.other rfl rfl (by simpa using he)

lemma Conserved.accepts {s s' : Vmm φ} {h : VirqHandle φ} (hI : Conserved s) (ha : Accepts env s h s') :
    Conserved s' := by
  have hoffer : loadedIrqs (offerEvents env s.vgic h) ++ (s.vgic.view.offer h).waiting.map VirqHandle.virq =
      s.vgic.view.waiting.map VirqHandle.virq ++ [h.virq] := by
    rw [loadedIrqs_offerEvents]
    cases hf : s.vgic.view.firstFree with
    | none => simp [SlotQueue.offer_of_none hf, SlotQueue.enqueue]
    | some k =>
      have hload := (s.vgic.view.enqueue h).load_waiting k
      rw [SlotQueue.offer_of_some hf, Option.bind_some, ← List.map_append, hload]
      simp [SlotQueue.enqueue]
  refine ⟨?_, ?_, ?_⟩
  · rw [ha.view]
    exact SlotQueue.workConserving_offer hI.workConserving h
  · rw [ha.view, ha.log, loadedIrqs_append, acceptedIrqs_append, ← hI.order, List.append_assoc, List.append_assoc]
    congr 1
    change loadedIrqs (offerEvents env s.vgic h) ++ _ = _ ++ h.virq :: acceptedIrqs (offerEvents env s.vgic h)
    rw [acceptedIrqs_offerEvents, hoffer]
  · rw [ha.log, loadsIntoEmpty_append]
    exact ⟨hI.empty, loadsIntoEmpty_offerEvents _ _⟩

lemma Conserved.injected {s s' : Vmm φ} {irq : Int} {b : Bool} (hI : Conserved s) (hi : Injected env s irq b s') :
    Conserved s' := by
  cases hi with
  | refused => exact hI
  | pending => exact hI
  | accepted _ _ ha => exact hI.accepts ha

lemma Conserved.retires {s s' : Vmm φ} {k : Fin numListRegs} {h : VirqHandle φ} (hI : Conserved s)
    (hr : Retires env s k h s') : Conserved s' := by
  have hload := (s.vgic.view.free k).load_waiting k
  have hmap := congrArg (List.map VirqHandle.virq) hload
  simp only [SlotQueue.free, List.map_append] at hmap
  refine ⟨?_, ?_, ?_⟩
  · rw [hr.view]
    exact SlotQueue.workConserving_retire hI.workConserving k
  · rw [hr.view, hr.log, List.append_assoc, loadedIrqs_append, acceptedIrqs_append, loadedIrqs_retire,
      acceptedIrqs_retire, List.append_nil, List.append_assoc, ← hI.order]
    exact congrArg _ hmap
  · rw [hr.log, loadsIntoEmpty_append, loadsIntoEmpty_append]
    refine ⟨⟨hI.empty, loadsIntoEmpty_other (other_ackEvents _ _)⟩, fun v g i sh hm => ?_⟩
    have hlr : ((freed s k h).vgic.lr k).virq = virqInvalid := by
      simp [freed, VirqHandle.invalid]
    obtain ⟨a, -, he⟩ := mem_refillEvents hm
    exact (Event.vcpuInjectIrq.inj he).2.2.2.trans hlr

lemma Conserved.does {s s' : Vmm φ} {a : Action φ} (hI : Conserved s) (hw : s.vgic.Wf) (hd : Does env s a s') :
    Conserved s' := by
  cases hd with
  | register hr => exact hI.same (hr.view hw) rfl
  | inject hi => exact hI.injected hi
  | notification hi => exact (hI.logged rfl).injected hi
  | vppiEvent hi =>
    have ht := (hI.logged rfl).injected hi
    exact ht.other rfl rfl (other_vppiReturn _ _)
  | retire hr => exact hI.retires hr
  | enableAck => exact hI.other rfl rfl (other_ackEvents _ _)
  | _ => exact hI.same rfl rfl

lemma conserved_init (tcb : UserContext) : Conserved (vgicInit env tcb) := by
  have hwait : (vgicInit env tcb).vgic.view.waiting = [] := by
    change (Vgic.init : Vgic φ).view.waiting = []
    rw [view_init]
  refine ⟨fun h => absurd hwait h, ?_, fun _ _ _ _ hm => absurd hm (by simp [vgicInit])⟩
  rw [hwait]
  rfl

lemma Conserved.frame {s s' : Vmm φ} (hI : Conserved s) (hf : Frame s s') : Conserved s' := by
  obtain ⟨l, hl, hret⟩ := hf.log
  exact hI.other (by rw [hf.vgic]) hl fun e he => other_of_isReturn (hret e he)

lemma conserved_reachable (hstop : env.assertStops = true) (hinert : InertAcks env) {allowed : Vmm φ → Op φ → Prop}
    {s : Vmm φ} (hs : Reachable env allowed s) : s.vgic.Wf ∧ Conserved s :=
  reachable_does hstop hinert conserved_init (fun _ _ hf hI => hI.frame hf)
    (fun _ _ _ _ _ _ _ hw hI hd => hI.does hw hd) hs

/-- In every reachable state the loads followed by the queue are the accepted interrupts in order, every
load was into an empty list register, and all of them are occupied while the queue is not empty. -/
theorem deliveries_conserved (hstop : env.assertStops = true) (hinert : InertAcks env)
    {s : Vmm φ} (hs : Reachable env (fun _ _ => True) s) :
    loadedIrqs s.log ++ s.vgic.queueVirqs = acceptedIrqs s.log ∧ LoadsIntoEmpty s.log ∧
      (s.vgic.queue.live ≠ [] → ∀ k, (s.vgic.lr k).virq ≠ virqInvalid) := by
  obtain ⟨hw, hI⟩ := conserved_reachable hstop hinert hs
  refine ⟨by rw [Vgic.queueVirqs_eq]; exact hI.order, hI.empty, fun hne k hv => ?_⟩
  have hwait : s.vgic.view.waiting ≠ [] := by
    intro h
    exact hne ((IrqQueue.live_eq_nil hw.queue).mpr (hw.waiting_eq_nil.mp h))
  have hsome := hI.workConserving hwait k
  simp [Vgic.view, VirqHandle.present, hv] at hsome

/-- The second of five interrupts is retired and raised again. -/
theorem deliveries_conserved_again : ∃ s : Vmm VmmAckFn, s.vgic.queueVirqs = [34] ∧
    acceptedIrqs s.log = [33, 34, 35, 36, 37, 34] ∧ loadedIrqs s.log ++ s.vgic.queueVirqs = acceptedIrqs s.log := by
  obtain ⟨s, hs, hp⟩ := exists_reachable (vmmEnv .qemuArmVirtHyp) (fun _ _ => True)
    (fun s => decide (s.vgic.queueVirqs = [34] ∧ acceptedIrqs s.log = [33, 34, 35, 36, 37, 34]))
    (fiveOutstanding (vmmEnv .qemuArmVirtHyp) ++ [.retire 1, .injectIrq 34]) (by decide +kernel) (by decide +kernel)
  obtain ⟨hqueue, haccepted⟩ := of_decide_eq_true hp
  exact ⟨s, hqueue, haccepted, (deliveries_conserved rfl (vmmEnv_inert _ (by decide)) hs).1⟩

end Sel4cpVmm
