import Sel4cpVmm.Proofs.Limits

/-!
# What each operation can do

`Does` lists the outcomes of every operation on a well-formed vGIC, for callbacks that leave the vGIC alone. The invariants of the other files are proved by cases on it.
-/

namespace Sel4cpVmm

open StopProgram

variable {φ : Type} {env : Env φ}

/-- The events with which a VPPI event ends, given the result of the injection. -/
def vppiReturn (irq : U64) (injected : Bool) : List (Event φ) :=
  (if injected then [] else [.vcpuAckVppi irq.toNat]) ++ [.reply]

/-- `Does env s a s'`: operation `a` can lead from `s` to `s'`. -/
inductive Does (env : Env φ) (s : Vmm φ) : Action φ → Vmm φ → Prop
  | registerRefused (irq : Int) (ackFn : Option φ) (ackData : VoidPtr) : Does env s (.register irq ackFn ackData) s
  | register {irq : Int} {ackFn : Option φ} {ackData : VoidPtr} {p : VirqPtr} {v : Vgic φ} :
      Registers s.vgic ⟨irq, ackFn, ackData⟩ p v → Does env s (.register irq ackFn ackData) { s with vgic := v }
  | inject {irq : Int} {b : Bool} {s' : Vmm φ} : Injected env s irq b s' → Does env s (.inject irq) s'
  | notification {irq : Int} {b : Bool} {s' : Vmm φ} :
      Injected env { s with log := s.log ++ [.notification irq] } irq b s' → Does env s (.notification irq) s'
  | vppiEvent {irq : U64} {b : Bool} {s' : Vmm φ} :
      Injected env { s with log := s.log ++ [.vppiEvent irq.toNat] } (cInt irq) b s' →
      Does env s (.vppiEvent irq) { s' with log := s'.log ++ vppiReturn irq b }
  | retire {k : Fin numListRegs} {err : Int} {h : VirqHandle φ} {s' : Vmm φ} :
      Retires env s k h s' → Does env s (.retire k err) s'
  | enableOnly {irq : Int} : (∀ h, s.vgic.handle irq = some h → isPending (enabled s irq).dist h.virq vcpuId = true) →
      Does env s (.enable irq) (enabled s irq)
  | enableAck {irq : Int} {h : VirqHandle φ} : s.vgic.handle irq = some h →
      isPending (enabled s irq).dist h.virq vcpuId = false → h.ackFn.isSome →
      Does env s (.enable irq) { enabled s irq with log := s.log ++ ackEvents env (enabled s irq) h }
  | disableSgi {irq : Int} : irq < numSgiVirqs → Does env s (.disable irq) s
  | disable {irq : Int} : numSgiVirqs ≤ irq →
      Does env s (.disable irq) { s with dist := setEnable s.dist irq false vcpuId }
  | clearEnable (irq : Int) : Does env s (.clearEnable irq) { s with dist := setEnable s.dist irq false vcpuId }
  | clrPending (irq : Int) : Does env s (.clrPending irq) { s with dist := setPending s.dist irq false vcpuId }
  | store (w : Nat) (mask bits : U32) :
      Does env s (.store w mask bits) { s with dist := s.dist.set w (s.dist.word w &&& ~~~mask ||| bits) }
  | ctlrEnable {data : U32} : data = gicEnabled env.board.gic →
      Does env s (.ctlr data) { s with dist := vgicDistEnable env.board.gic s.dist }
  | ctlrDisable {data : U32} : data ≠ gicEnabled env.board.gic → data = 0 →
      Does env s (.ctlr data) { s with dist := vgicDistDisable env.board.gic s.dist }
  | ctlrOther {data : U32} : data ≠ gicEnabled env.board.gic → data ≠ 0 → Does env s (.ctlr data) s

/-- `Halts env s a e t`: operation `a`, begun in `s`, can stop in `t` for the reason `e`. -/
inductive Halts (env : Env φ) (s : Vmm φ) : Action φ → Stop → Vmm φ → Prop
  | register (irq : Int) (ackFn : Option φ) (ackData : VoidPtr) : Halts env s (.register irq ackFn ackData) .assertFailed s
  | inject {irq : Int} {e : Stop} {t : Vmm φ} : InjectStops env s irq e t → Halts env s (.inject irq) e t
  | notification {irq : Int} {e : Stop} {t : Vmm φ} :
      InjectStops env { s with log := s.log ++ [.notification irq] } irq e t → Halts env s (.notification irq) e t
  | vppiEvent {irq : U64} {e : Stop} {t : Vmm φ} :
      InjectStops env { s with log := s.log ++ [.vppiEvent irq.toNat] } (cInt irq) e t → Halts env s (.vppiEvent irq) e t
  | retireRefused (idx err : Int) : Halts env s (.retire idx err) .assertFailed s
  | retireNoCallback {k : Fin numListRegs} {err : Int} {h : VirqHandle φ} : s.vgic.view.slot k = some h →
      h.ackFn = none → Halts env s (.retire k err) .assertFailed (freed s k h)
  | enableNegative {irq : Int} : irq < 0 → Halts env s (.enable irq) .assertFailed (enabled s irq)
  | enableNoCallback {irq : Int} {h : VirqHandle φ} : s.vgic.handle irq = some h → h.ackFn = none →
      Halts env s (.enable irq) .assertFailed (enabled s irq)
  | fail : Halts env s .fail .assertFailed s
  | rejected {a : Action φ} {t : Vmm φ} : ¬KernelAccepts env → Halts env s a .assertFailed t

section Outcomes

variable (hstop : env.assertStops = true) (hinert : InertAcks env)

include hstop

lemma wp_vgicInjectIrq {s : Vmm φ} (hw : s.vgic.Wf) (irq : Int) :
    wp (vgicInjectIrq env vcpuId irq) (Injected env s irq) (fun _ _ => True) s :=
  wp_mono (wp_inject hstop hw) (fun _ _ => id) (fun _ _ _ => trivial)

lemma wp_vppiEvent {s : Vmm φ} (hw : s.vgic.Wf) (irq : U64) :
    wp (handleVppiEvent env irq) (fun _ s' => ∃ b t, Injected env s (cInt irq) b t ∧
      s' = { t with log := t.log ++ vppiReturn irq b })
      (fun e t => InjectStops env s (cInt irq) e t ∨ (e = .assertFailed ∧ ¬KernelAccepts env)) s := by
  unfold handleVppiEvent
  rw [wp_bind]
  refine wp_mono (wp_inject hstop hw) (fun b t ht => ?_) (fun _ _ => .inl)
  cases b with
  | true => exact ⟨true, t, ht, rfl⟩
  | false =>
    simp only [Bool.false_eq_true, not_false_eq_true, if_true, vcpuAckVppi, wp_bind, wp_get, wp_logEvent, wp_pure,
      wp_cAssert_stops hstop, wp_ite, wp_replyToFault, decide_eq_true_eq, decide_eq_false_iff_not]
    refine ⟨fun herr => ⟨fun hne => absurd herr hne, fun _ => ?_⟩, fun herr => ?_⟩
    · exact ⟨false, t, ht, by simp [vppiReturn]⟩
    · exact .inr ⟨trivial, fun hk => herr (hk.vcpuAckVppi _ _)⟩

include hinert

/-- Every run of an operation has one of the outcomes. -/
theorem wp_does {s : Vmm φ} (hw : s.vgic.Wf) (a : Action φ) :
    wp (a.run env) (fun _ s' => Does env s a s') (Halts env s a) s := by
  cases a with
  | register irq ackFn ackData =>
    rw [Action.run, wp_bind]
    refine wp_mono (wp_vgicRegisterIrq hstop) (fun b s' h => ?_) (fun e t h => ?_)
    · rcases h with ⟨-, rfl⟩ | ⟨-, p, v, hr, rfl⟩
      · exact .registerRefused _ _ _
      · exact .register hr
    · obtain ⟨rfl, rfl⟩ := h
      exact .register _ _ _
  | inject irq =>
    rw [Action.run, wp_bind]
    exact wp_mono (wp_inject hstop hw) (fun _ _ h => .inject h) (fun _ _ h => .inject h)
  | notification irq =>
    have hinj := @wp_inject φ env { s with log := s.log ++ [.notification irq] } vcpuId irq hstop hw
    rw [Action.run, wp_bind, wp_logEvent, wp_bind]
    exact wp_mono hinj (fun _ _ h => .notification h) (fun _ _ h => .notification h)
  | vppiEvent irq =>
    have hvppi := wp_vppiEvent (s := { s with log := s.log ++ [.vppiEvent irq.toNat] }) hstop hw irq
    rw [Action.run, wp_bind, wp_logEvent, wp_bind]
    refine wp_mono hvppi (fun _ _ h => ?_) (fun e t h => ?_)
    · obtain ⟨b, t, ht, rfl⟩ := h
      exact .vppiEvent ht
    · rcases h with h | ⟨rfl, hk⟩
      · exact .vppiEvent h
      · exact .rejected hk
  | retire idx err =>
    rw [Action.run, wp_bind]
    by_cases hidx : 0 ≤ idx ∧ idx < numListRegs
    · obtain ⟨n, rfl⟩ := Int.eq_ofNat_of_zero_le hidx.1
      have hn : n < numListRegs := by omega
      change wp (vgicMaintenanceBody env ((⟨n, hn⟩ : Fin numListRegs) : Int) err) _ _ s
      cases hslot : s.vgic.view.slot ⟨n, hn⟩ with
      | none =>
        rw [wp_vgicMaintenanceBody hstop]
        exact ⟨fun _ => .retireRefused _ _, fun h hh => absurd (hslot ▸ hh) (by simp)⟩
      | some h =>
        exact wp_retire hstop hinert hw hslot (fun s' hs' => .retire (k := ⟨n, hn⟩) hs')
          (fun hfn => .retireNoCallback (k := ⟨n, hn⟩) hslot hfn) (fun hk _ => .rejected hk)
    · exact wp_vgicMaintenanceBody_range hstop hidx (.retireRefused _ _)
  | enable irq =>
    refine wp_vgicDistEnableIrq hstop .enableNegative .enableOnly (fun h hh hp => ?_)
    exact wp_virqAck hstop (fun hk _ => .rejected hk) hinert (fun hfn => .enableAck hh hp hfn)
      (fun hfn => .enableNoCallback hh hfn)
  | disable irq =>
    rw [Action.run, vgicDistDisableIrq, wp_ite, wp_modifyDist, wp_pure]
    exact ⟨fun h => .disable h, fun h => .disableSgi (Int.not_le.mp h)⟩
  | clearEnable irq => exact .clearEnable irq
  | clrPending irq => exact .clrPending irq
  | store w mask bits => exact .store w mask bits
  | ctlr data =>
    rw [Action.run, writeCtlr, wp_ite, wp_ite, wp_modifyDist, wp_modifyDist, wp_pure]
    exact ⟨.ctlrEnable, fun h => ⟨.ctlrDisable h, .ctlrOther h⟩⟩
  | fail =>
    rw [Action.run, wp_cAssert_stops hstop]
    exact ⟨fun h => absurd h (by simp), fun _ => .fail⟩

omit hstop hinert

lemma Injected.wf {s s' : Vmm φ} {irq : Int} {b : Bool} (h : Injected env s irq b s') (hw : s.vgic.Wf) :
    s'.vgic.Wf := by
  cases h with
  | refused => exact hw
  | pending => exact hw
  | accepted _ _ ha => exact ha.wf

lemma Does.wf {s s' : Vmm φ} {a : Action φ} (h : Does env s a s') (hw : s.vgic.Wf) : s'.vgic.Wf := by
  cases h with
  | register hr => exact hr.wf hw
  | inject hi => exact hi.wf hw
  | notification hi => exact hi.wf hw
  | vppiEvent hi =>
    have ht := hi.wf hw
    exact ht
  | retire hr => exact hr.wf
  | _ => exact hw

include hstop hinert

/-- What every outcome of the operations of a list keeps, running the list keeps. -/
lemma wp_actions {I : Vmm φ → Prop} {E : Stop → Vmm φ → Prop} {l : List (Action φ)}
    (hdoes : ∀ a ∈ l, ∀ t t', t.vgic.Wf → I t → Does env t a t' → I t')
    (hhalts : ∀ a ∈ l, ∀ t e t', t.vgic.Wf → I t → Halts env t a e t' → E e t') {s : Vmm φ} (hw : s.vgic.Wf) (hI : I s) :
    wp (forM l (Action.run env)) (fun _ t => t.vgic.Wf ∧ I t) E s := by
  refine wp_forM_keeps (I := fun t => t.vgic.Wf ∧ I t) (fun a ha t ht => ?_) ⟨hw, hI⟩
  refine wp_mono (wp_does hstop hinert ht.1 a) (fun _ t' hd => ?_) (fun e t' hh => ?_)
  · exact ⟨hd.wf ht.1, hdoes a ha t t' ht.1 ht.2 hd⟩
  · exact hhalts a ha t e t' ht.1 ht.2 hh

/-- What holds initially of a well-formed vGIC, survives a return to the guest and is kept by every outcome of
the operations of an allowed step holds of every state reached; with what holds where an operation stops,
something holds wherever a step ends or stops. -/
theorem reach_halts {init : Vmm φ → Prop} {allowed : Vmm φ → Op φ → Prop} {I E : Vmm φ → Prop}
    (hinit : ∀ s, init s → s.vgic.Wf ∧ I s) (hframe : ∀ s t, Frame s t → I s → I t) (hE : ∀ s, s.vgic.Wf → I s → E s)
    (hdoes : ∀ s op a, allowed s op → a ∈ opActions env s op →
      ∀ t t', t.vgic.Wf → I t → Does env t a t' → I t')
    (hhalts : ∀ s op a, allowed s op → a ∈ opActions env s op →
      ∀ t e t', t.vgic.Wf → I t → Halts env t a e t' → E t')
    {s : Vmm φ} (hs : Reach init allowed (step env) s) :
    (s.vgic.Wf ∧ I s) ∧ ∀ op, allowed s op → E (outcome (step env op) s) := by
  refine reach_outcome (I := fun s => s.vgic.Wf ∧ I s) hstop hinit ?_ (fun s h => hE s h.1 h.2) ?_ hs
  · intro s t hf h
    exact ⟨hf.vgic ▸ h.1, hframe s t hf h.2⟩
  · intro s op h ha
    exact wp_actions hstop hinert (fun a hmem => hdoes s op a ha hmem) (fun a hmem => hhalts s op a ha hmem) h.1 h.2

theorem reachable_halts {allowed : Vmm φ → Op φ → Prop} {I E : Vmm φ → Prop} (hinit : ∀ tcb, I (vgicInit env tcb))
    (hframe : ∀ s t, Frame s t → I s → I t) (hE : ∀ s, s.vgic.Wf → I s → E s)
    (hdoes : ∀ s op a, allowed s op → a ∈ opActions env s op →
      ∀ t t', t.vgic.Wf → I t → Does env t a t' → I t')
    (hhalts : ∀ s op a, allowed s op → a ∈ opActions env s op →
      ∀ t e t', t.vgic.Wf → I t → Halts env t a e t' → E t')
    {s : Vmm φ} (hs : Reachable env allowed s) :
    (s.vgic.Wf ∧ I s) ∧ ∀ op, allowed s op → E (outcome (step env op) s) := by
  refine reach_halts hstop hinert ?_ hframe hE hdoes hhalts hs
  rintro s ⟨tcb, rfl⟩
  exact ⟨wf_init, hinit tcb⟩

theorem reachable_does {allowed : Vmm φ → Op φ → Prop} {I : Vmm φ → Prop} (hinit : ∀ tcb, I (vgicInit env tcb))
    (hframe : ∀ s t, Frame s t → I s → I t)
    (hdoes : ∀ s op a, allowed s op → a ∈ opActions env s op →
      ∀ t t', t.vgic.Wf → I t → Does env t a t' → I t')
    {s : Vmm φ} (hs : Reachable env allowed s) : s.vgic.Wf ∧ I s :=
  (reachable_halts (E := fun _ => True) hstop hinert hinit hframe (fun _ _ _ => trivial) hdoes
    (fun _ _ _ _ _ _ _ _ _ _ _ => trivial) hs).1

theorem reachable_wf {allowed : Vmm φ → Op φ → Prop} {s : Vmm φ} (hs : Reachable env allowed s) : s.vgic.Wf :=
  (reachable_does hstop hinert (I := fun _ => True) (fun _ => trivial) (fun _ _ _ _ => trivial)
    (fun _ _ _ _ _ _ _ _ _ _ => trivial) hs).1

end Outcomes

end Sel4cpVmm
