import Sel4cpVmm.Proofs.Access
import Sel4cpVmm.Proofs.Injection

/-!
# Acknowledgement, maintenance and the other operations

What `virq_ack`, the freeing and the refilling of a list register, a VPPI event, an enable write and a
registration do to a well-formed vGIC.
-/

namespace Sel4cpVmm

open StopProgram

variable {φ : Type} {env : Env φ}

/-! ### Ack callbacks -/

section Ack

def AckCall.event : AckCall → Option (Event φ)
  | .irqAck ch => some (.irqAck ch)
  | .vcpuAckVppi irq => some (.vcpuAckVppi irq)
  | .injectIrq _ => none

def ackEvents (env : Env φ) (s : Vmm φ) (h : VirqHandle φ) : List (Event φ) :=
  match h.ackFn with
  | none => []
  | some fn =>
    let e := Event.ack fn vcpuId h.virq null
    e :: (env.ackFn fn vcpuId h.virq null { s with log := s.log ++ [e] }).filterMap AckCall.event

variable {s : Vmm φ} {h : VirqHandle φ} {vcpu : VcpuId}

section Inert

variable (hstop : env.assertStops = true) {Q : Unit → Vmm φ → Prop} {E : Stop → Vmm φ → Prop}
  (hrejected : ¬KernelAccepts env → ∀ t, E .assertFailed t)

include hstop hrejected

lemma wp_ackCalls {l : List AckCall} (hl : ∀ i, AckCall.injectIrq i ∉ l)
    (hQ : Q () { s with log := s.log ++ l.filterMap AckCall.event }) : wp (forM l (runAckCall env)) Q E s := by
  induction l generalizing s with
  | nil => simpa using hQ
  | cons c l ih =>
    rw [List.forM_cons, wp_bind]
    have ih' := fun t => ih (s := t) (fun i hi => hl i (by simp [hi]))
    cases c with
    | irqAck ch =>
      rw [runAckCall, wp_logEvent]
      refine ih' _ ?_
      rw [List.append_assoc]
      exact hQ
    | vcpuAckVppi irq =>
      rw [runAckCall, vcpuAckVppi]
      simp only [wp_bind, wp_get, wp_logEvent, wp_pure, wp_cAssert_stops hstop, decide_eq_false_iff_not]
      refine ⟨fun _ => ih' _ ?_, fun herr => hrejected (fun hk => herr (hk.vcpuAckVppi _ _)) _⟩
      rw [List.append_assoc]
      exact hQ
    | injectIrq i => exact absurd (by simp) (hl i)

lemma wp_virqAck (hinert : InertAcks env) (hQ : h.ackFn.isSome → Q () { s with log := s.log ++ ackEvents env s h })
    (hnone : h.ackFn = none → E .assertFailed s) : wp (virqAck env vcpu h) Q E s := by
  rw [vcpu_eq vcpu]
  unfold virqAck
  unfold ackEvents at hQ
  rw [wp_bind, wp_cAssert_stops hstop]
  cases hfn : h.ackFn with
  | none => exact ⟨fun hsome => absurd hsome (by simp), fun _ => hnone hfn⟩
  | some fn =>
    refine ⟨fun _ => ?_, fun h => absurd h (by simp)⟩
    rw [wp_bind, wp_logEvent, wp_bind, wp_get]
    refine wp_ackCalls hstop hrejected (fun i => hinert fn vcpuId h.virq null _ i) ?_
    simp only [hfn] at hQ
    rw [List.append_assoc]
    exact hQ rfl

end Inert

section Bounded

variable {R S : Vmm φ → Vmm φ → Prop} [Std.Refl R] [IsTrans (Vmm φ) R] [Std.Refl S] [Absorbs R S]

omit [Std.Refl S] in
lemma within_vcpuAckVppi {irq : Int} (hvppi : Bounded R S (logEvent (.vcpuAckVppi irq))) :
    Bounded R S (vcpuAckVppi env irq) := by
  unfold vcpuAckVppi
  exact within_bind within_get fun _ => within_bind hvppi fun _ => within_pure _

/-- Whatever callbacks do, it is logging and injecting. -/
lemma within_virqAck (hack : ∀ fn irq, Bounded R S (logEvent (.ack fn vcpuId irq null)))
    (hch : ∀ ch, Bounded R S (logEvent (.irqAck ch))) (hvppi : ∀ irq, Bounded R S (logEvent (.vcpuAckVppi irq)))
    (hinj : ∀ fn irq t i, AckCall.injectIrq i ∈ env.ackFn fn vcpuId irq null t →
      Bounded R S (vgicInjectIrq env vcpuId i)) :
    Bounded R S (virqAck env vcpu h) := by
  rw [vcpu_eq vcpu]
  unfold virqAck
  refine within_bind (within_cAssert _) fun _ => ?_
  cases h.ackFn with
  | none => exact within_throw _
  | some fn =>
    refine within_bind (hack _ _) fun _ => within_bind within_get fun t => within_forM fun c hc => ?_
    cases c with
    | irqAck ch => exact hch ch
    | vcpuAckVppi irq => exact within_bind (within_vcpuAckVppi (hvppi _)) fun _ => within_cAssert _
    | injectIrq i => exact within_bind (hinj _ _ _ _ hc) fun _ => within_pure _

/-- Apart from the injection a VPPI event acknowledges the interrupt and replies. -/
lemma within_handleVppiEvent_events (hinj : ∀ irq, Bounded R S (vgicInjectIrq env vcpuId irq)) (irq : U64)
    (hvppi : Bounded R S (logEvent (.vcpuAckVppi irq.toNat))) (hreply : Bounded R S (logEvent .reply)) :
    Bounded R S (handleVppiEvent env irq) := by
  unfold handleVppiEvent
  refine within_bind (hinj _) fun _ => within_ite ?_ (within_bind hreply fun _ => within_pure _)
  refine within_bind (within_vcpuAckVppi hvppi) fun _ => within_bind (within_cAssert _) fun _ =>
    within_ite (within_pure _) ?_
  exact within_bind hreply fun _ => within_pure _

lemma within_handleVppiEvent (hinj : ∀ irq, Bounded R S (vgicInjectIrq env vcpuId irq))
    (hlog : ∀ e : Event φ, Bounded R S (logEvent e)) (irq : U64) : Bounded R S (handleVppiEvent env irq) :=
  within_handleVppiEvent_events hinj irq (hlog _) (hlog _)

end Bounded

end Ack

/-! ### Maintenance -/

section Maintenance

variable {s : Vmm φ} {k : Fin numListRegs} {h : VirqHandle φ} {err : Int}

/-- The kernel call of a refill, if anything waits. -/
def refillEvents (env : Env φ) (s : Vmm φ) (k : Fin numListRegs) : List (Event φ) :=
  (s.vgic.view.waiting.head?.map fun a => loadEvent s env.board.gic.group k a).toList

/-- The head of the queue is loaded into list register `k`, whatever it holds. -/
structure Refills (env : Env φ) (s : Vmm φ) (k : Fin numListRegs) (s' : Vmm φ) : Prop where
  view : s'.vgic.view = s.vgic.view.load k
  wf : s'.vgic.Wf
  deref : s'.vgic.deref = s.vgic.deref
  dist : s'.dist = s.dist
  log : s'.log = s.log ++ refillEvents env s k
  redist : s'.redist = s.redist
  wzr : s'.wzr = s.wzr
  tcb : s'.tcb = s.tcb

/-- What `handle_vgic_maintenance` does after the ack. -/
def refill (env : Env φ) (idx err : Int) : M φ Int := do
  let virq ← vgicIrqDequeue vcpuId
  match virq with
  | some p =>
    let ok ← vgicVcpuLoadListReg env vcpuId idx env.board.gic.group p
    return if ok then 1 else 0
  | none => return err

/-- The value of `err` after a refill: the `bool` of the load, or what it held before. -/
def refillResult (s : Vmm φ) (err : Int) : Int := if s.vgic.view.waiting = [] then err else 1

lemma wp_refill (hstop : env.assertStops = true) (hw : s.vgic.Wf) {E : Stop → Vmm φ → Prop}
    (hE : ¬KernelAccepts env → ∀ t, E .assertFailed t) :
    wp (refill env k err) (fun r s' => Refills env s k s' ∧ r = refillResult s err) E s := by
  unfold refill
  rw [wp_bind, wp_vgicIrqDequeue hw.queue]
  refine ⟨fun hne => ?_, fun heq => ?_⟩
  · obtain ⟨p, hp, hv, hwait⟩ := hw.head hne
    have hview := hw.view_load hne hp k
    rw [hp]
    rw [wp_bind]
    refine wp_vgicVcpuLoadListReg hstop k _ _ ?_ fun hk => hE hk _
    rw [wp_pure]
    refine ⟨⟨?_, (hw.pop hne).setLr, by simp, rfl, ?_, rfl, rfl, rfl⟩, by simp [refillResult, hwait]⟩
    · simpa using hview
    · simp [refillEvents, hwait, loadEvent]
  · have hnil := hw.waiting_eq_nil.mpr heq
    refine ⟨⟨?_, hw, rfl, rfl, by simp [refillEvents, hnil], rfl, rfl, rfl⟩, by simp [refillResult, hnil]⟩
    simp [SlotQueue.load, hnil]

/-- List register `k`, which held `h`, is freed and the pending bit of `h` cleared. -/
def freed (s : Vmm φ) (k : Fin numListRegs) (h : VirqHandle φ) : Vmm φ :=
  { s with vgic := s.vgic.setLr k .invalid, dist := setPending s.dist h.virq false vcpuId }

lemma view_freed : (freed s k h).vgic.view = s.vgic.view.free k := by
  rw [freed, Vgic.view_setLr, present_invalid]
  rfl

@[simp] lemma waiting_freed : (freed s k h).vgic.view.waiting = s.vgic.view.waiting := by
  rw [view_freed]
  rfl

lemma wf_freed (hw : s.vgic.Wf) (k : Fin numListRegs) (h : VirqHandle φ) : (freed s k h).vgic.Wf := hw.setLr

lemma wp_vgicMaintenanceBody (hstop : env.assertStops = true) {Q : Int → Vmm φ → Prop}
    {E : Stop → Vmm φ → Prop} :
    wp (vgicMaintenanceBody env k err) Q E s ↔
      (s.vgic.view.slot k = none → E .assertFailed s) ∧
      (∀ h, s.vgic.view.slot k = some h →
        wp (virqAck env vcpuId h) (fun _ s' => wp (refill env k err) Q E s') E (freed s k h)) := by
  have hk0 : (0 : Int) ≤ k := by omega
  have hkn : (k : Int) < (numListRegs : Int) := by have := k.isLt; omega
  have hin : 0 ≤ (k : Int) ∧ (k : Int).toNat < numListRegs := ⟨hk0, by simp⟩
  have hslot : s.vgic.view.slot k = (s.vgic.lr k).present := rfl
  unfold vgicMaintenanceBody
  rw [decide_eq_true hk0, decide_eq_true hkn, wp_bind, wp_cAssert_true, wp_bind, Bool.and_self, wp_cAssert_true,
    dif_pos hin, wp_bind, wp_get, wp_bind, wp_cAssert_stops hstop]
  change (decide ((s.vgic.lr k).virq ≠ virqInvalid) = true → _) ∧
    (decide ((s.vgic.lr k).virq ≠ virqInvalid) = false → _) ↔ _
  rw [hslot]
  by_cases hv : (s.vgic.lr k).virq = virqInvalid
  · have hnone : (s.vgic.lr k).present = none := by simp [VirqHandle.present, hv]
    simp [hv, hnone]
  · have hsome : (s.vgic.lr k).present = some (s.vgic.lr k) := by simp [VirqHandle.present, hv]
    simp only [hv, hsome, ne_eq, not_false_eq_true, decide_true, true_imp_iff, Bool.true_eq_false, false_imp_iff,
      and_true, reduceCtorEq, true_and, Option.some.injEq, forall_eq']
    rw [wp_bind, wp_modifyVgic, wp_bind, wp_modifyDist, wp_bind]
    rfl

lemma wp_vgicMaintenanceBody_range (hstop : env.assertStops = true) {idx : Int}
    (hidx : ¬(0 ≤ idx ∧ idx < numListRegs)) {Q : Int → Vmm φ → Prop} {E : Stop → Vmm φ → Prop}
    (hE : E .assertFailed s) : wp (vgicMaintenanceBody env idx err) Q E s := by
  unfold vgicMaintenanceBody
  rw [wp_bind, wp_cAssert_stops hstop]
  refine ⟨fun _ => ?_, fun _ => hE⟩
  rw [wp_bind, wp_cAssert_stops hstop]
  refine ⟨fun h => absurd ?_ hidx, fun _ => hE⟩
  simpa using h

/-- The interrupt in list register `k` is retired: freed, acknowledged and replaced. -/
structure Retires (env : Env φ) (s : Vmm φ) (k : Fin numListRegs) (h : VirqHandle φ) (s' : Vmm φ) : Prop where
  slot : s.vgic.view.slot k = some h
  ackFn : h.ackFn.isSome
  view : s'.vgic.view = s.vgic.view.retire k
  wf : s'.vgic.Wf
  deref : s'.vgic.deref = s.vgic.deref
  dist : s'.dist = setPending s.dist h.virq false vcpuId
  log : s'.log = s.log ++ ackEvents env (freed s k h) h ++ refillEvents env (freed s k h) k
  redist : s'.redist = s.redist
  wzr : s'.wzr = s.wzr
  tcb : s'.tcb = s.tcb

lemma wp_retire (hstop : env.assertStops = true) (hinert : InertAcks env) (hw : s.vgic.Wf)
    (hslot : s.vgic.view.slot k = some h) {Q : Int → Vmm φ → Prop} {E : Stop → Vmm φ → Prop}
    (hQ : ∀ s', Retires env s k h s' → Q (refillResult s err) s')
    (hnone : h.ackFn = none → E .assertFailed (freed s k h))
    (hrejected : ¬KernelAccepts env → ∀ t, E .assertFailed t) : wp (vgicMaintenanceBody env k err) Q E s := by
  rw [wp_vgicMaintenanceBody hstop]
  refine ⟨fun hnone => absurd (hslot ▸ hnone) (by simp), fun h' hslot' => ?_⟩
  obtain rfl : h = h' := Option.some.inj (hslot ▸ hslot')
  refine wp_virqAck hstop hrejected hinert (fun hfn => ?_) hnone
  have hrefill := fun (t : Vmm φ) (ht : t.vgic.Wf) => @wp_refill φ env t k err hstop ht E hrejected
  refine wp_mono (hrefill _ (wf_freed hw k h)) (fun r s' hr => ?_) (fun _ _ => id)
  obtain ⟨hr, rfl⟩ := hr
  have hresult : refillResult { freed s k h with log := (freed s k h).log ++ ackEvents env (freed s k h) h } err =
      refillResult s err := by
    unfold refillResult
    rw [waiting_freed]
  rw [hresult]
  refine hQ s' ⟨hslot, hfn, ?_, hr.wf, ?_, hr.dist, ?_, hr.redist, hr.wzr, hr.tcb⟩
  · rw [hr.view, SlotQueue.retire, ← view_freed (h := h)]
  · exact hr.deref.trans Vgic.deref_setLr
  · exact hr.log

end Maintenance

/-! ### Enabling an interrupt -/

section Enable

variable {s : Vmm φ} {irq : Int}

def enabled (s : Vmm φ) (irq : Int) : Vmm φ := { s with dist := setEnable s.dist irq true vcpuId }

/-- The interrupt enabled is acknowledged when it is registered and not pending. -/
lemma wp_vgicDistEnableIrq (hstop : env.assertStops = true) {Q : Unit → Vmm φ → Prop}
    {E : Stop → Vmm φ → Prop} (hE : irq < 0 → E .assertFailed (enabled s irq))
    (hskip : (∀ h, s.vgic.handle irq = some h → isPending (enabled s irq).dist h.virq vcpuId = true) →
      Q () (enabled s irq))
    (hack : ∀ h, s.vgic.handle irq = some h → isPending (enabled s irq).dist h.virq vcpuId = false →
      wp (virqAck env vcpuId h) Q E (enabled s irq)) :
    wp (vgicDistEnableIrq env vcpuId irq) Q E s := by
  unfold vgicDistEnableIrq
  rw [wp_bind, wp_modifyDist, wp_bind]
  change wp (virqFindIrqData env vcpuId irq) _ E (enabled s irq)
  rw [wp_virqFindIrqData hstop, show (enabled s irq).vgic = s.vgic from rfl]
  refine ⟨fun _ => ?_, hE⟩
  cases hf : s.vgic.find irq with
  | none => exact hskip (by simp [Vgic.handle, hf])
  | some p =>
    have hhandle : s.vgic.handle irq = (s.vgic.deref p).present := by simp [Vgic.handle, hf]
    rw [wp_bind, wp_get, wp_ite]
    change ((s.vgic.deref p).virq ≠ virqInvalid → _) ∧ (¬(s.vgic.deref p).virq ≠ virqInvalid → _)
    refine ⟨fun hv => ?_, fun hv => hskip fun h hh => ?_⟩
    · have hsome : s.vgic.handle irq = some (s.vgic.deref p) := by
        rw [hhandle]
        exact present_eq_some.mpr ⟨rfl, hv⟩
      rw [wp_ite]
      refine ⟨fun hp => hack _ hsome (by simpa using hp), fun hp => hskip fun h hh => ?_⟩
      obtain rfl : s.vgic.deref p = h := Option.some.inj (hsome ▸ hh)
      exact not_not.mp hp
    · exact absurd (present_eq_some.mp (hhandle ▸ hh)).2 (by
        obtain ⟨rfl, -⟩ := present_eq_some.mp (hhandle ▸ hh)
        exact hv)

end Enable

/-! ### Registration -/

section Register

variable {s : Vmm φ} {v v' : Vgic φ} {h : VirqHandle φ} {p : VirqPtr}

/-- The slot that `vgic_register_irq` takes for an interrupt number that is not negative. -/
def Vgic.freeSlot (v : Vgic φ) (irq : Int) : Option VirqPtr :=
  if irq < (numVcpuLocalVirqs : Int) then
    (v.find irq).bind fun p => if (v.deref p).virq = virqInvalid then some p else none
  else ((List.finRange numSlotsSpiVirq).find? fun i => decide ((getElem v.vspis i.val i.isLt).virq = virqInvalid)).map .spi

def Vgic.place (v : Vgic φ) (h : VirqHandle φ) : VirqPtr → Vgic φ
  | .sgiPpi vcpu i =>
    v.setVgicVcpu vcpu { v.getVgicVcpu vcpu with localVirqs := (v.getVgicVcpu vcpu).localVirqs.set i h i.isLt }
  | .spi i => { v with vspis := v.vspis.set i h i.isLt }

/-- `v'` is `v` with `h` in the slot at `p`, which was free. -/
structure Registers (v : Vgic φ) (h : VirqHandle φ) (p : VirqPtr) (v' : Vgic φ) : Prop where
  free : (v.deref p).virq = virqInvalid
  place : (∃ i : Fin numVcpuLocalVirqs, p = .sgiPpi vcpuId i ∧ h.virq = i) ∨ (∃ i, p = .spi i ∧ 32 ≤ h.virq)
  deref : v'.deref = Function.update v.deref p h
  queue : v'.queue = v.queue
  lr : v'.lr = v.lr

lemma Vgic.deref_place : (v.place h p).deref = Function.update v.deref p h := by
  funext q
  cases p with
  | sgiPpi a i =>
    cases q with
    | sgiPpi b j =>
      obtain rfl := (vcpu_eq a).trans (vcpu_eq b).symm
      by_cases hij : j = i
      · simp [place, deref, hij]
      · have hne : (i : Nat) ≠ j := fun h => hij (Fin.ext h.symm)
        simp [place, deref, hij, hne]
    | spi j => simp [place, deref]
  | spi i =>
    cases q with
    | sgiPpi b j => simp [place, deref, getVgicVcpu]
    | spi j =>
      by_cases hij : j = i
      · simp [place, deref, hij]
      · have hne : (i : Nat) ≠ j := fun h => hij (Fin.ext h.symm)
        simp [place, deref, hij, hne]

lemma registers_place {irq : Int} {ackFn : Option φ} {ackData : VoidPtr} (h0 : 0 ≤ irq) (hp : v.freeSlot irq = some p) :
    Registers v ⟨irq, ackFn, ackData⟩ p (v.place ⟨irq, ackFn, ackData⟩ p) := by
  have hother : ∀ q : VirqPtr, (v.place ⟨irq, ackFn, ackData⟩ q).queue = v.queue ∧
      (v.place ⟨irq, ackFn, ackData⟩ q).lr = v.lr := by
    intro q
    cases q with
    | sgiPpi a i =>
      obtain rfl := vcpu_eq a
      exact ⟨by simp [Vgic.place, Vgic.queue], by funext k; simp [Vgic.place, Vgic.lr]⟩
    | spi i => exact ⟨rfl, rfl⟩
  unfold Vgic.freeSlot at hp
  split_ifs at hp with hlt
  · obtain ⟨q, hq, hfree⟩ := Option.bind_eq_some_iff.mp hp
    split_ifs at hfree with hv
    obtain rfl := Option.some.inj hfree
    have hin : 0 ≤ irq ∧ irq.toNat < numVcpuLocalVirqs := ⟨h0, by omega⟩
    rw [Vgic.find, if_pos hlt, dif_pos hin] at hq
    have hvirq : irq = ((⟨irq.toNat, hin.2⟩ : Fin numVcpuLocalVirqs) : Nat) := by simp [Int.toNat_of_nonneg h0]
    exact ⟨hv, .inl ⟨_, (Option.some.inj hq).symm, hvirq⟩, Vgic.deref_place, (hother q).1, (hother q).2⟩
  · obtain ⟨i, hi, rfl⟩ := Option.map_eq_some_iff.mp hp
    have hfree : v.vspis[i].virq = virqInvalid := by simpa using List.find?_some hi
    exact ⟨hfree, .inr ⟨i, rfl, Int.not_lt.mp hlt⟩, Vgic.deref_place, rfl, rfl⟩

lemma wp_vgicRegisterIrq_slot {irq : Int} {ackFn : Option φ} {ackData : VoidPtr} {Q : Bool → Vmm φ → Prop}
    {E : Stop → Vmm φ → Prop} (h0 : 0 ≤ irq) :
    wp (vgicRegisterIrq env vcpuId irq ackFn ackData) Q E s ↔ (s.vgic.freeSlot irq = none → Q false s) ∧
      ∀ p, s.vgic.freeSlot irq = some p → Q true { s with vgic := s.vgic.place ⟨irq, ackFn, ackData⟩ p } := by
  have hvalid : irq ≠ virqInvalid := by simp only [virqInvalid]; omega
  unfold vgicRegisterIrq virqAdd Vgic.freeSlot
  rw [wp_bind, decide_eq_true h0, decide_eq_true hvalid, Bool.and_self, wp_cAssert_true]
  by_cases hlt : irq < (numVcpuLocalVirqs : Int)
  · have hin : 0 ≤ irq ∧ irq.toNat < numVcpuLocalVirqs := ⟨h0, by omega⟩
    rw [if_pos hlt, if_pos hlt, Vgic.find, if_pos hlt, dif_pos hin, Option.bind_some]
    unfold virqSgiPpiAdd
    rw [wp_bind, decide_eq_true h0, decide_eq_true hlt, Bool.and_self, wp_cAssert_true, wp_bind, wp_get,
      dif_pos hin, wp_ite]
    change ((s.vgic.deref (.sgiPpi vcpuId ⟨irq.toNat, hin.2⟩)).virq ≠ _ → _) ∧
      (¬(s.vgic.deref (.sgiPpi vcpuId ⟨irq.toNat, hin.2⟩)).virq ≠ _ → _) ↔ _
    by_cases hv : (s.vgic.deref (.sgiPpi vcpuId ⟨irq.toNat, hin.2⟩)).virq = virqInvalid <;>
      simp [hv, Vgic.place]
  · rw [if_neg hlt, if_neg hlt]
    unfold virqSpiAdd
    rw [wp_bind, wp_get]
    cases (List.finRange numSlotsSpiVirq).find? fun i => decide (s.vgic.vspis[i].virq = virqInvalid) <;>
      simp [Vgic.place]

lemma wp_vgicRegisterIrq (hstop : env.assertStops = true) {irq : Int} {ackFn : Option φ} {ackData : VoidPtr} :
    wp (vgicRegisterIrq env vcpuId irq ackFn ackData)
      (fun b s' => (b = false ∧ s' = s) ∨
        (b = true ∧ ∃ p v', Registers s.vgic ⟨irq, ackFn, ackData⟩ p v' ∧ s' = { s with vgic := v' }))
      (fun e s' => e = .assertFailed ∧ s' = s) s := by
  by_cases h0 : 0 ≤ irq
  · rw [wp_vgicRegisterIrq_slot h0]
    exact ⟨fun _ => .inl ⟨rfl, rfl⟩, fun p hp => .inr ⟨rfl, p, _, registers_place h0 hp, rfl⟩⟩
  · unfold vgicRegisterIrq
    rw [wp_bind, wp_cAssert_stops hstop, decide_eq_false h0, Bool.false_and]
    exact ⟨fun h => absurd h (by simp), fun _ => ⟨rfl, rfl⟩⟩

lemma Registers.deref_live (hr : Registers v h p v') (hw : v.Wf) {o : Option VirqPtr} (ho : o ∈ v.queue.live) :
    o.map v'.deref = o.map v.deref := by
  obtain ⟨q, rfl, hv⟩ := hw.live o ho
  have hne : q ≠ p := fun h => hv (h ▸ hr.free)
  rw [Option.map_some, Option.map_some, hr.deref, Function.update_of_ne hne]

lemma Registers.view (hr : Registers v h p v') (hw : v.Wf) : v'.view = v.view := by
  unfold Vgic.view
  rw [hr.lr, hr.queue]
  congr 1
  exact List.filterMap_congr fun o ho => hr.deref_live hw ho

lemma Registers.wf (hr : Registers v h p v') (hw : v.Wf) : v'.Wf where
  queue := hr.queue ▸ hw.queue
  live := by
    rw [hr.queue]
    intro o ho
    obtain ⟨q, rfl, hv⟩ := hw.live o ho
    have hd := Option.some.inj (hr.deref_live hw ho)
    exact ⟨q, rfl, by rwa [hd]⟩
  sgiPpi := by
    intro i
    rw [hr.deref]
    by_cases hp : VirqPtr.sgiPpi vcpuId i = p
    · rw [hp, Function.update_self]
      rcases hr.place with ⟨j, hj, hv⟩ | ⟨j, hj, -⟩
      · obtain ⟨-, rfl⟩ := VirqPtr.sgiPpi.inj (hp.trans hj)
        exact .inr hv
      · exact absurd (hp.trans hj) (by simp)
    · rw [Function.update_of_ne hp]
      exact hw.sgiPpi i
  spi := by
    intro i
    rw [hr.deref]
    by_cases hp : VirqPtr.spi i = p
    · rw [hp, Function.update_self]
      rcases hr.place with ⟨j, hj, -⟩ | ⟨j, -, hv⟩
      · exact absurd (hp.trans hj) (by simp)
      · exact .inr hv
    · rw [Function.update_of_ne hp]
      exact hw.spi i

end Register

end Sel4cpVmm
