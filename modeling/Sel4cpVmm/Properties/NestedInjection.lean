import Sel4cpVmm.Proofs.Reentrant
import Sel4cpVmm.Proofs.Residents

/-!
# An ack callback that injects

`handle_vgic_maintenance` calls the ack callback between freeing a list register and reloading it. An
interrupt the callback injects can take that register, which the handler then overwrites.
-/

namespace Sel4cpVmm

open StopProgram

variable {φ : Type} {env : Env φ}

/-- Between `s` and `s'` no load overwrote a list register, and every interrupt in the queue, in a list
register other than `k` or accepted on the way is in flight at the end. -/
structure NothingLost (s : Vmm φ) (k : Fin numListRegs) (s' : Vmm φ) : Prop where
  empty : LoadsIntoEmpty (newEvents s s')
  queued : ∀ i ∈ s.vgic.queueVirqs, i ∈ s'.vgic.inFlight
  loaded : ∀ j ≠ k, (s.vgic.lr j).virq ≠ virqInvalid → (s.vgic.lr j).virq ∈ s'.vgic.inFlight
  accepted : ∀ i ∈ acceptedIrqs (newEvents s s'), i ∈ s'.vgic.inFlight

def Vgic.freeListRegs (v : Vgic φ) : Nat := (Finset.univ.filter fun k => (v.lr k).virq = virqInvalid).card

/-- The interrupts that the callback of the handle `h` of list register `k` has accepted when the register
is retired in `s`. -/
def nestedAccepted (env : Env φ) (s : Vmm φ) (k : Fin numListRegs) (h : VirqHandle φ) : List Int :=
  acceptable env s.vgic (freed s k h).dist (nestedIrqs env (freed s k h) h)

lemma freeListRegs_eq (v : Vgic φ) : v.freeListRegs = v.view.freeSlots.card := by
  simp [Vgic.freeListRegs, SlotQueue.freeSlots, Vgic.view]

lemma loadsIntoEmpty_refillEvents {t : Vmm φ} {k : Fin numListRegs} :
    LoadsIntoEmpty (refillEvents env t k) ↔ t.vgic.view.waiting = [] ∨ t.vgic.view.slot k = none := by
  have hslot : t.vgic.view.slot k = none ↔ (t.vgic.lr k).virq = virqInvalid := by
    rw [← Option.isNone_iff_eq_none]
    change (t.vgic.lr k).present.isNone = true ↔ _
    simp
  rw [hslot]
  unfold refillEvents loadEvent LoadsIntoEmpty
  cases t.vgic.view.waiting with
  | nil => simp
  | cons a w =>
    simp only [List.head?_cons, Option.map_some, Option.toList_some, List.mem_singleton, Event.vcpuInjectIrq.injEq,
      reduceCtorEq, false_or]
    exact ⟨fun h => h _ _ _ _ ⟨rfl, rfl, rfl, rfl⟩, fun h _ _ _ _ he => he.2.2.2.trans h⟩

section Main

variable (hstop : env.assertStops = true) {s : Vmm φ} {k : Fin numListRegs}
  {h : VirqHandle φ}

include hstop

/-- The handler frees the list register, runs the injections of the callback and reloads the register. -/
lemma wp_maintenance_nested (hw : s.vgic.Wf) (hslot : s.vgic.view.slot k = some h) (err : Int) :
    wp (vgicMaintenanceBody env k err)
      (fun _ s' => ∃ t, Nested env (freed s k h) (nestedIrqs env (freed s k h) h) t ∧ Refills env t k s')
      (fun _ _ => True) s := by
  rw [wp_vgicMaintenanceBody hstop]
  refine ⟨fun _ => trivial, fun h' hslot' => ?_⟩
  obtain rfl : h = h' := Option.some.inj (hslot ▸ hslot')
  refine wp_mono (wp_virqAck_nested hstop (wf_freed hw k h) h) (fun _ t ht => ?_) (fun _ _ => id)
  exact wp_mono (wp_refill hstop ht.wf fun _ _ => trivial) (fun _ s' hr => ⟨t, ht, hr.1⟩) (fun _ _ => id)

omit hstop in
/-- The reload overwrites nothing exactly under the condition on the queue and the list registers. -/
lemma Nested.reload_iff (hwc : s.vgic.view.WorkConserving) (hslot : s.vgic.view.slot k = some h)
    {t : Vmm φ} (ht : Nested env (freed s k h) (nestedIrqs env (freed s k h) h) t) :
    t.vgic.view.waiting = [] ∨ t.vgic.view.slot k = none ↔
      nestedAccepted env s k h = [] ∨
        (s.vgic.queueVirqs = [] ∧ (nestedAccepted env s k h).length ≤ s.vgic.freeListRegs + 1) := by
  obtain ⟨l, hl, hview⟩ := ht.offers
  have hnested : l.map VirqHandle.virq = nestedAccepted env s k h := by
    rw [hl, nestedAccepted]
    exact acceptable_congr Vgic.deref_setLr _ _
  rw [view_freed] at hview
  rw [hview, SlotQueue.reload_iff hwc (by simp [hslot]) l, ← hnested, freeListRegs_eq, Vgic.queueVirqs_eq]
  simp

omit hstop in
lemma residents_of_reload {t s' : Vmm φ} (ht : Nested env (freed s k h) (nestedIrqs env (freed s k h) h) t)
    (hr : Refills env t k s') (hempty : t.vgic.view.waiting = [] ∨ t.vgic.view.slot k = none) {i : Int} :
    i ∈ s'.vgic.inFlight ↔ i ∈ acceptable env (freed s k h).vgic (freed s k h).dist (nestedIrqs env (freed s k h) h) ∨
      i ∈ (s.vgic.view.free k).residents.map VirqHandle.virq := by
  obtain ⟨l, hl, hview⟩ := ht.offers
  have hload : (t.vgic.view.load k).residents = t.vgic.view.residents := by
    rcases hempty with hnil | hnone
    · simp [SlotQueue.load, hnil]
    · exact SlotQueue.residents_load hnone
  rw [Vgic.mem_inFlight, hr.view, hload, hview, SlotQueue.residents_offers, view_freed, ← hl]
  simp

/-- In every reachable state, whatever the callbacks do, the handling of a maintenance event loses nothing
exactly when the callback has nothing accepted, or when the queue is empty and the accepted interrupts fit
into the free list registers and the one retired. -/
theorem nothingLost_iff {allowed : Vmm φ → Op φ → Prop} (hs : Reachable env allowed s)
    (hslot : s.vgic.view.slot k = some h) {err r : Int} {s' : Vmm φ}
    (hrun : vgicMaintenanceBody env k err s = .ok r s') :
    NothingLost s k s' ↔ nestedAccepted env s k h = [] ∨
      (s.vgic.queueVirqs = [] ∧ (nestedAccepted env s k h).length ≤ s.vgic.freeListRegs + 1) := by
  obtain ⟨hw, hwc⟩ := reachable_workConserving hstop hs
  have hafter := wp_ok (wp_maintenance_nested hstop hw hslot err) hrun
  obtain ⟨t, ht, hr⟩ := hafter
  obtain ⟨l, hl, hempty, hacc⟩ := ht.log
  have hnew : newEvents s s' = l ++ refillEvents env t k := by
    refine newEvents_eq ?_
    rw [hr.log, hl, List.append_assoc]
    rfl
  have hloads : LoadsIntoEmpty (newEvents s s') ↔ t.vgic.view.waiting = [] ∨ t.vgic.view.slot k = none := by
    rw [hnew, loadsIntoEmpty_append, loadsIntoEmpty_refillEvents]
    exact and_iff_right hempty
  rw [← ht.reload_iff hwc hslot, ← hloads]
  refine ⟨fun hlost => hlost.empty, fun hloaded => ?_⟩
  have hmem := fun i => residents_of_reload (i := i) ht hr (hloads.mp hloaded)
  have hkept : ∀ {b : VirqHandle φ}, b ∈ (s.vgic.view.free k).residents → b.virq ∈ s'.vgic.inFlight :=
    fun hb => (hmem _).mpr (.inr (Multiset.mem_map_of_mem _ hb))
  refine ⟨hloaded, fun i hi => ?_, fun j hj hv => ?_, fun i hi => ?_⟩
  · rw [Vgic.queueVirqs_eq] at hi
    obtain ⟨b, hb, rfl⟩ := List.mem_map.mp hi
    exact hkept (SlotQueue.mem_residents.mpr (.inr hb))
  · refine hkept (SlotQueue.mem_residents.mpr (.inl ⟨j, ?_⟩))
    change Function.update s.vgic.view.slot k none j = _
    rw [Function.update_of_ne hj]
    exact present_eq_some.mpr ⟨rfl, hv⟩
  · rw [hnew, acceptedIrqs_append, acceptedIrqs_refillEvents, List.append_nil, hacc] at hi
    exact (hmem i).mpr (.inl hi)

end Main

/-! ### The serial callback of `odroidc2` -/

/-- The serial interrupt, an SGI and four SPIs are registered and enabled. -/
def serialReady (env : Env VmmAckFn) : List (Op VmmAckFn) :=
  .registerIrq 225 (some .serialAck) null ::
    [1, 33, 34, 35, 36].map (fun irq => .registerIrq irq (some .sgiAck) null) ++
    guestStore env 0x11c 2 ++ guestStore env 0x104 0x1e ++ guestStore env 0x000 1

/-- The serial interrupt alone is retired, and its callback has SGI 1 accepted. -/
theorem nothingLost_iff_serial : ∃ (s s' : Vmm VmmAckFn) (h : VirqHandle VmmAckFn),
    nestedAccepted (vmmEnv .odroidc2) s 0 h = [1] ∧ NothingLost s 0 s' := by
  obtain ⟨s, hs, hp⟩ := exists_reachable (vmmEnv .odroidc2) (fun _ _ => True)
    (fun s => match s.vgic.view.slot 0, vgicMaintenanceBody (vmmEnv .odroidc2) 0 0 s with
      | some h, .ok _ _ => decide (nestedAccepted (vmmEnv .odroidc2) s 0 h = [1]) &&
          decide (s.vgic.queueVirqs = [])
      | _, _ => false)
    (serialReady (vmmEnv .odroidc2) ++ [.injectIrq 225]) (by decide +kernel) (by decide +kernel)
  cases hslot : s.vgic.view.slot 0 with
  | none => simp [hslot] at hp
  | some h =>
    cases hrun : vgicMaintenanceBody (vmmEnv .odroidc2) 0 0 s with
    | error e s' => simp [hslot, hrun] at hp
    | ok r s' =>
      simp only [hslot, hrun, Bool.and_eq_true, decide_eq_true_eq] at hp
      refine ⟨s, s', h, hp.1, (nothingLost_iff rfl hs hslot hrun).mpr (.inr ⟨hp.2, ?_⟩)⟩
      rw [hp.1]
      simp

/-- With an interrupt in the queue, the serial callback costs it. -/
theorem serial_callback_loses : ∃ (s s' : Vmm VmmAckFn) (r : Int),
    Reachable (vmmEnv .odroidc2) (fun _ _ => True) s ∧ vgicMaintenanceBody (vmmEnv .odroidc2) 0 0 s = .ok r s' ∧
      36 ∈ s.vgic.queueVirqs ∧ 36 ∉ s'.vgic.inFlight ∧ ¬NothingLost s 0 s' := by
  obtain ⟨s, hs, hp⟩ := exists_reachable (vmmEnv .odroidc2) (fun _ _ => True)
    (fun s => match vgicMaintenanceBody (vmmEnv .odroidc2) 0 0 s with
      | .ok _ s' => decide (36 ∈ s.vgic.queueVirqs) && decide (36 ∉ s'.vgic.inFlight)
      | .error _ _ => false)
    (serialReady (vmmEnv .odroidc2) ++ [225, 33, 34, 35, 36].map .injectIrq) (by decide +kernel) (by decide +kernel)
  cases hrun : vgicMaintenanceBody (vmmEnv .odroidc2) 0 0 s with
  | error e s' => simp [hrun] at hp
  | ok r s' =>
    simp only [hrun, Bool.and_eq_true, decide_eq_true_eq] at hp
    exact ⟨s, s', r, hs, hrun, hp.1, hp.2, fun h => hp.2 (h.queued 36 hp.1)⟩

end Sel4cpVmm
