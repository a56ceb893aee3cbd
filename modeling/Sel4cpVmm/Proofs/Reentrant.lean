import Sel4cpVmm.Proofs.Trace

/-!
# Callbacks that inject

What holds of the list registers and the queue whatever the ack callbacks do, and what the injections
made by a callback do to a well-formed vGIC.
-/

namespace Sel4cpVmm

open StopProgram

variable {φ : Type} {env : Env φ}

/-! ### What every operation keeps -/

section Keeps

variable (hstop : env.assertStops = true)

include hstop

/-- A property of the list registers and the queue that offers keep is kept by injections. -/
lemma keeps_vgicInjectIrq {P : SlotQueue numListRegs (VirqHandle φ) → Prop} (hP : ∀ q a, P q → P (q.offer a))
    (irq : Int) : Keeps (fun s => s.vgic.Wf ∧ P s.vgic.view) (vgicInjectIrq env vcpuId irq) := by
  refine keeps_of_wp fun s hI => ?_
  refine wp_mono (wp_vgicInjectIrq hstop hI.1 irq) (fun b t h => ?_) (fun _ _ => id)
  refine ⟨h.wf hI.1, ?_⟩
  cases h with
  | refused => exact hI.2
  | pending => exact hI.2
  | accepted _ _ ha =>
    rw [ha.view]
    exact hP _ _ hI.2

lemma keeps_virqAck {P : SlotQueue numListRegs (VirqHandle φ) → Prop} (hP : ∀ q a, P q → P (q.offer a))
    (h : VirqHandle φ) : Keeps (fun s => s.vgic.Wf ∧ P s.vgic.view) (virqAck env vcpuId h) :=
  within_virqAck (fun _ _ => within_modify fun _ => id) (fun _ => within_modify fun _ => id)
    (fun _ => within_modify fun _ => id) (fun _ _ _ i _ => keeps_vgicInjectIrq hstop hP i)

/-- Maintenance keeps `I` if freeing the list register gives `J`, the callback keeps `J` and the refill
gives `I` back. -/
lemma keeps_vgicMaintenanceBody {I : Vmm φ → Prop} {J : Fin numListRegs → Vmm φ → Prop}
    (hfree : ∀ k h s, I s → s.vgic.view.slot k = some h → J k (freed s k h))
    (hack : ∀ k h, Keeps (J k) (virqAck env vcpuId h))
    (hwf : ∀ k t, J k t → t.vgic.Wf) (hrefill : ∀ k t u, J k t → Refills env t k u → I u)
    (idx err : Int) : Keeps I (vgicMaintenanceBody env idx err) := by
  refine keeps_of_wp fun s hI => ?_
  by_cases hidx : 0 ≤ idx ∧ idx < numListRegs
  · obtain ⟨n, rfl⟩ := Int.eq_ofNat_of_zero_le hidx.1
    have hn : n < numListRegs := by omega
    change wp (vgicMaintenanceBody env ((⟨n, hn⟩ : Fin numListRegs) : Int) err) _ _ s
    rw [wp_vgicMaintenanceBody hstop]
    refine ⟨fun _ => trivial, fun h hslot => ?_⟩
    refine wp_mono (hack ⟨n, hn⟩ h (freed s ⟨n, hn⟩ h)) (fun _ t ht => ?_) (fun _ _ => id)
    have hJ := ht (hfree _ h s hI hslot)
    exact wp_mono (wp_refill hstop (hwf _ t hJ) fun _ _ => trivial) (fun r u hr => hrefill _ t u hJ hr.1)
      (fun _ _ => id)
  · exact wp_vgicMaintenanceBody_range hstop hidx trivial

/-- A well-formed vGIC that keeps no list register free while an interrupt waits stays one. -/
lemma keeps_workConserving (a : Action φ) :
    Keeps (fun s => s.vgic.Wf ∧ s.vgic.view.WorkConserving) (a.run env) := by
  have hinject := keeps_vgicInjectIrq (P := SlotQueue.WorkConserving) hstop
    fun _ a h => SlotQueue.workConserving_offer h a
  cases a with
  | register irq ackFn ackData =>
    intro s
    rw [Action.run, wp_bind]
    refine wp_mono (wp_vgicRegisterIrq hstop) (fun b s' h hI => ?_) (fun _ _ _ => trivial)
    rcases h with ⟨-, rfl⟩ | ⟨-, p, v, hr, rfl⟩
    · exact hI
    · exact ⟨hr.wf hI.1, hr.view hI.1 ▸ hI.2⟩
  | inject irq => exact within_bind (hinject irq) fun _ => within_pure _
  | notification irq =>
    exact within_bind (within_modify fun _ => id) fun _ => within_bind (hinject irq) fun _ => within_pure _
  | vppiEvent irq =>
    refine within_bind (within_modify fun _ => id) fun _ => within_bind ?_ fun _ => within_pure _
    exact within_handleVppiEvent hinject (fun _ => within_modify fun _ => id) irq
  | retire idx err =>
    refine within_bind ?_ fun _ => within_pure _
    refine keeps_vgicMaintenanceBody (J := fun k s => s.vgic.Wf ∧ s.vgic.view.WorkConservingBut k) hstop
      (fun k h s hI _ => ⟨wf_freed hI.1 k h, ?_⟩) (fun k h => ?_) (fun _ _ hJ => hJ.1) (fun k t u hJ hr => ?_) idx err
    · rw [view_freed]
      exact SlotQueue.workConservingBut_free hI.2 k
    · exact keeps_virqAck (P := fun q => q.WorkConservingBut k) hstop (fun _ a h => SlotQueue.workConservingBut_offer h a) h
    · exact ⟨hr.wf, hr.view ▸ SlotQueue.workConserving_load hJ.2⟩
  | enable irq =>
    intro s
    refine wp_vgicDistEnableIrq hstop (fun _ => trivial) (fun _ => id) (fun h _ _ => ?_)
    exact keeps_virqAck (P := SlotQueue.WorkConserving) hstop (fun _ a h => SlotQueue.workConserving_offer h a) h
      (enabled s irq)
  | disable irq => exact within_ite (within_modify fun _ => id) (within_pure _)
  | clearEnable irq => exact within_modify fun _ => id
  | clrPending irq => exact within_modify fun _ => id
  | store w mask bits => exact within_modify fun _ => id
  | ctlr data => exact within_ite (within_modify fun _ => id) (within_ite (within_modify fun _ => id) (within_pure _))
  | fail => exact within_cAssert _

theorem reachable_workConserving {allowed : Vmm φ → Op φ → Prop} {s : Vmm φ} (hs : Reachable env allowed s) :
    s.vgic.Wf ∧ s.vgic.view.WorkConserving := by
  refine reachable_invariant (I := fun s => s.vgic.Wf ∧ s.vgic.view.WorkConserving) hstop
    (fun tcb => ⟨wf_init, ?_⟩) (fun s t hf h => hf.vgic ▸ h) (fun s op hI _ => ?_) hs
  · change (Vgic.init : Vgic φ).view.WorkConserving
    rw [view_init]
    exact fun h => absurd rfl h
  · exact wp_mono (within_forM (fun a _ => keeps_workConserving hstop a) s) (fun _ _ ht => ht hI) (fun _ _ => id)

end Keeps

/-! ### The injections of a callback -/

/-- The interrupts a callback injects. -/
def injectedIrqs (l : List AckCall) : List Int :=
  l.filterMap fun c => match c with
    | .injectIrq irq => some irq
    | _ => none

/-- The interrupts of the list that are accepted when they are injected one after the other. -/
def acceptable (env : Env φ) (v : Vgic φ) : GicDistMap → List Int → List Int
  | _, [] => []
  | d, irq :: l =>
    if (v.handle irq).isSome && vgicDistIsEnabled env.board.gic d && isEnabled d irq vcpuId &&
        !isPending d irq vcpuId then
      irq :: acceptable env v (setPending d irq true vcpuId) l
    else acceptable env v d l

lemma acceptable_congr {v v' : Vgic φ} (h : v'.deref = v.deref) (d : GicDistMap) (l : List Int) :
    acceptable env v' d l = acceptable env v d l := by
  induction l generalizing d with
  | nil => rfl
  | cons irq l ih => simp only [acceptable, Vgic.handle_congr h, ih]

/-- The accepted interrupts are offered in order, into free list registers only. -/
structure Nested (env : Env φ) (t : Vmm φ) (irqs : List Int) (t' : Vmm φ) : Prop where
  wf : t'.vgic.Wf
  deref : t'.vgic.deref = t.vgic.deref
  offers : ∃ l : List (VirqHandle φ), l.map VirqHandle.virq = acceptable env t.vgic t.dist irqs ∧
    t'.vgic.view = l.foldl SlotQueue.offer t.vgic.view
  log : ∃ l, t'.log = t.log ++ l ∧ LoadsIntoEmpty l ∧ acceptedIrqs l = acceptable env t.vgic t.dist irqs

section Nested

variable {t u v : Vmm φ} {irq : Int} {irqs : List Int}

lemma Nested.nil (hw : t.vgic.Wf) : Nested env t [] t :=
  ⟨hw, rfl, ⟨[], rfl, rfl⟩, [], by simp, fun _ _ _ _ h => absurd h (by simp), rfl⟩

lemma Nested.logged {e : Event φ} (he : e.isOther = true)
    (h : Nested env { t with log := t.log ++ [e] } irqs u) : Nested env t irqs u := by
  obtain ⟨l, hl, hempty, hacc⟩ := h.log
  refine ⟨h.wf, h.deref, h.offers, e :: l, by simp [hl], ?_, ?_⟩
  · rw [← List.singleton_append]
    exact loadsIntoEmpty_append.mpr ⟨loadsIntoEmpty_other (by simpa using he), hempty⟩
  · rw [← List.singleton_append, acceptedIrqs_append, acceptedIrqs_other (by simpa using he), hacc]
    rfl

lemma Nested.cons {b : Bool} (hw : t.vgic.Wf) (hi : Injected env t irq b u) (h : Nested env u irqs v) :
    Nested env t (irq :: irqs) v := by
  have hcond : ∀ {c : Bool}, ((t.vgic.handle irq).isSome && vgicDistIsEnabled env.board.gic t.dist &&
      isEnabled t.dist irq vcpuId && !isPending t.dist irq vcpuId) = c → acceptable env t.vgic t.dist (irq :: irqs) =
      if c then irq :: acceptable env t.vgic (setPending t.dist irq true vcpuId) irqs
      else acceptable env t.vgic t.dist irqs := fun hc => by rw [acceptable, hc]
  cases hi with
  | refused hfind hno =>
    have hfalse : ((t.vgic.handle irq).isSome && vgicDistIsEnabled env.board.gic t.dist &&
        isEnabled t.dist irq vcpuId && !isPending t.dist irq vcpuId) = false := by
      by_contra htrue
      simp only [Bool.not_eq_false, Bool.and_eq_true] at htrue
      obtain ⟨a, ha⟩ := Option.isSome_iff_exists.mp htrue.1.1.1
      exact hno a ⟨ha, htrue.1.1.2, htrue.1.2⟩
    have heq := hcond hfalse
    exact ⟨h.wf, h.deref, heq ▸ h.offers, heq ▸ h.log⟩
  | pending _ hpend =>
    have heq := hcond (c := false) (by simp [hpend])
    exact ⟨h.wf, h.deref, heq ▸ h.offers, heq ▸ h.log⟩
  | @accepted a u hcan hpend ha =>
    have hvirq := (hw.virq_of_handle hcan.handle).1
    have heq := hcond (c := true) (by simp [hcan.handle, hcan.dist, hcan.irq, hpend])
    have hrest : acceptable env u.vgic u.dist irqs =
        acceptable env t.vgic (setPending t.dist irq true vcpuId) irqs := by
      rw [acceptable_congr ha.deref, ha.dist, hvirq]
    obtain ⟨l, hl, hview⟩ := h.offers
    obtain ⟨ev, hev, hempty, hacc⟩ := h.log
    refine ⟨h.wf, h.deref.trans ha.deref, ⟨a :: l, ?_, ?_⟩, (.accepted a.virq :: offerEvents env t.vgic a) ++ ev, ?_, ?_, ?_⟩
    · rw [heq, List.map_cons, hl, hrest, hvirq]
      rfl
    · rw [hview, ha.view, List.foldl_cons]
    · rw [hev, ha.log, List.append_assoc]
    · exact loadsIntoEmpty_append.mpr ⟨loadsIntoEmpty_offerEvents _ _, hempty⟩
    · have hone : acceptedIrqs (.accepted a.virq :: offerEvents env t.vgic a) = [irq] := by
        change a.virq :: acceptedIrqs (offerEvents env t.vgic a) = [irq]
        rw [acceptedIrqs_offerEvents, hvirq]
      rw [acceptedIrqs_append, hone, hacc, heq, hrest]
      rfl

variable (hstop : env.assertStops = true)

include hstop

lemma wp_ackCalls_nested {l : List AckCall} (hw : t.vgic.Wf) :
    wp (forM l (runAckCall env)) (fun _ t' => Nested env t (injectedIrqs l) t') (fun _ _ => True) t := by
  induction l generalizing t with
  | nil => exact .nil hw
  | cons c l ih =>
    rw [List.forM_cons, wp_bind]
    cases c with
    | irqAck ch =>
      rw [runAckCall, wp_logEvent]
      exact wp_mono (ih (t := { t with log := t.log ++ [.irqAck ch] }) hw) (fun _ _ h => h.logged rfl) (fun _ _ => id)
    | vcpuAckVppi irq =>
      simp only [runAckCall, vcpuAckVppi, wp_bind, wp_get, wp_logEvent, wp_pure, wp_cAssert_stops hstop]
      refine ⟨fun _ => ?_, fun _ => trivial⟩
      exact wp_mono (ih (t := { t with log := t.log ++ [.vcpuAckVppi irq] }) hw) (fun _ _ h => h.logged rfl)
        (fun _ _ => id)
    | injectIrq irq =>
      rw [runAckCall, wp_bind]
      refine wp_mono (wp_vgicInjectIrq hstop hw irq) (fun b u hi => ?_) (fun _ _ => id)
      rw [wp_pure]
      exact wp_mono (ih (hi.wf hw)) (fun _ _ h => h.cons hw hi) (fun _ _ => id)

/-- The interrupts the callback of `h` injects when it is called in `t`. -/
def nestedIrqs (env : Env φ) (t : Vmm φ) (h : VirqHandle φ) : List Int :=
  match h.ackFn with
  | none => []
  | some fn => injectedIrqs (env.ackFn fn vcpuId h.virq null { t with log := t.log ++ [.ack fn vcpuId h.virq null] })

lemma wp_virqAck_nested (hw : t.vgic.Wf) (h : VirqHandle φ) :
    wp (virqAck env vcpuId h) (fun _ t' => Nested env t (nestedIrqs env t h) t') (fun _ _ => True) t := by
  unfold virqAck nestedIrqs
  rw [wp_bind, wp_cAssert_stops hstop]
  refine ⟨fun _ => ?_, fun _ => trivial⟩
  cases h.ackFn with
  | none => trivial
  | some fn =>
    rw [wp_bind, wp_logEvent, wp_bind, wp_get]
    exact wp_mono (wp_ackCalls_nested (t := { t with log := t.log ++ [.ack fn vcpuId h.virq null] }) hstop hw)
      (fun _ _ hn => hn.logged rfl) (fun _ _ => id)

end Nested

end Sel4cpVmm
