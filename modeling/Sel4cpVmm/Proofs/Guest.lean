import Sel4cpVmm.Proofs.Trace

/-!
# The guest during and after an operation

No operation on the vGIC touches the guest's registers or resumes it, whatever the kernel and the callbacks
do. A trapped access that ends has resumed the guest once, behind the instruction that trapped.
-/

namespace Sel4cpVmm

open StopProgram

variable {φ : Type} {env : Env φ}

/-! ### Operations leave the guest alone -/

/-- The guest's registers and the redistributor are as before, and the guest has not been resumed. -/
structure GuestKept (s s' : Vmm φ) : Prop where
  tcb : s'.tcb = s.tcb
  wzr : s'.wzr = s.wzr
  redist : s'.redist = s.redist
  log : ∃ l, s'.log = s.log ++ l ∧ ∀ e ∈ l, e.isReturn = false

instance : Std.Refl (GuestKept (φ := φ)) := ⟨fun s => ⟨rfl, rfl, rfl, [], by simp, by simp⟩⟩

instance : IsTrans (Vmm φ) GuestKept where
  trans s t u h h' := by
    obtain ⟨l, hl, hret⟩ := h.log
    obtain ⟨l', hl', hret'⟩ := h'.log
    refine ⟨h'.tcb.trans h.tcb, h'.wzr.trans h.wzr, h'.redist.trans h.redist, l ++ l', ?_, ?_⟩
    · rw [hl', hl, List.append_assoc]
    · intro e he
      rcases List.mem_append.mp he with he | he
      · exact hret e he
      · exact hret' e he

section Operations

variable {R S : Vmm φ → Vmm φ → Prop} [Std.Refl R] [IsTrans (Vmm φ) R] [Std.Refl S] [Absorbs R S]

lemma within_virqFindIrqData (vcpu : VcpuId) (irq : Int) : Bounded R S (virqFindIrqData env vcpu irq) := by
  unfold virqFindIrqData virqGetSgiPpi
  refine within_ite (within_bind ?_ fun _ => within_pure _) (within_bind within_get fun _ => within_pure _)
  exact within_bind (within_cAssert _) fun _ => within_dite (fun _ => within_pure _) fun _ => within_throw _

omit [IsTrans (Vmm φ) R] [Std.Refl S] [Absorbs R S] in
lemma within_vgicFindEmptyListReg (vcpu : VcpuId) : Bounded R S (vgicFindEmptyListReg vcpu : M φ Int) := by
  intro s
  rw [wp_vgicFindEmptyListReg]
  exact ⟨fun _ _ => refl_of R s, fun _ => refl_of R s⟩

variable (hvgic : ∀ f, Bounded R S (modifyVgic f : M φ Unit))

include hvgic

lemma within_vgicIrqEnqueue (vcpu : VcpuId) (p : VirqPtr) : Bounded R S (vgicIrqEnqueue vcpu p : M φ Int) := by
  unfold vgicIrqEnqueue
  refine within_bind within_get fun s => within_ite (within_pure _) (within_dite (fun _ => ?_) fun _ => within_throw _)
  exact within_bind (hvgic _) fun _ => within_pure _

lemma within_vgicIrqDequeue (vcpu : VcpuId) : Bounded R S (vgicIrqDequeue vcpu : M φ (Option VirqPtr)) := by
  unfold vgicIrqDequeue
  refine within_bind within_get fun s => within_ite (within_dite (fun _ => ?_) fun _ => within_throw _) (within_pure _)
  exact within_bind (hvgic _) fun _ => within_pure _

variable (hlog : ∀ e : Event φ, e.isReturn = false → e.isAck = false → Bounded R S (logEvent e))

include hlog

lemma within_vgicVcpuLoadListReg (vcpu : VcpuId) (idx : Int) (group : Nat) (p : VirqPtr) :
    Bounded R S (vgicVcpuLoadListReg env vcpu idx group p) := by
  unfold vgicVcpuLoadListReg vcpuInjectIrq
  refine within_bind (within_cAssert _) fun _ => within_bind within_get fun s => within_bind
    (within_bind within_get fun _ => within_bind (hlog _ rfl rfl) fun _ => within_pure _) fun err =>
    within_bind (within_cAssert _) fun _ => within_ite (within_pure _) (within_dite (fun _ => ?_) fun _ => within_throw _)
  exact within_bind (hvgic _) fun _ => within_pure _

variable (hpend : ∀ irq b vcpu, Bounded R S (modifyDist fun d => setPending d irq b vcpu : M φ Unit))

include hpend

/-- What writes of the list registers and the queue, pending bits and events respect, an injection respects. -/
lemma within_vgicInjectIrq (vcpu : VcpuId) (irq : Int) : Bounded R S (vgicInjectIrq env vcpu irq) := by
  unfold vgicInjectIrq vgicDistSetPendingIrq
  refine within_bind (within_virqFindIrqData _ _) fun p => ?_
  cases p with
  | none => exact within_throw _
  | some p =>
    refine within_bind within_get fun s => within_ite (within_pure _) (within_ite (within_pure _) ?_)
    refine within_bind (hlog _ rfl rfl) fun _ => within_bind (hpend _ _ _) fun _ =>
      within_bind (within_vgicIrqEnqueue hvgic _ _) fun err => within_ite
        (within_bind (hlog _ rfl rfl) fun _ => within_bind (within_cAssert _) fun _ => within_pure _) ?_
    refine within_bind (within_vgicFindEmptyListReg _) fun idx => within_ite (within_pure _) ?_
    refine within_bind (within_vgicIrqDequeue hvgic _) fun q => ?_
    cases q with
    | none => exact within_throw _
    | some q =>
      exact within_bind within_get fun s => within_bind (within_cAssert _) fun _ =>
        within_vgicVcpuLoadListReg hvgic hlog _ _ _ _

variable (hack : ∀ fn irq, Bounded R S (logEvent (.ack fn vcpuId irq null)))

include hack

lemma within_virqAck_injecting (vcpu : VcpuId) (h : VirqHandle φ) : Bounded R S (virqAck env vcpu h) :=
  within_virqAck hack (fun _ => hlog _ rfl rfl) (fun _ => hlog _ rfl rfl)
    fun _ _ _ i _ => within_vgicInjectIrq hvgic hlog hpend _ i

lemma within_vgicMaintenanceBody (idx err : Int) : Bounded R S (vgicMaintenanceBody env idx err) := by
  unfold vgicMaintenanceBody
  refine within_bind (within_cAssert _) fun _ => within_bind (within_cAssert _) fun _ =>
    within_dite (fun _ => ?_) fun _ => within_throw _
  refine within_bind within_get fun s => within_bind (within_cAssert _) fun _ =>
    within_bind (hvgic _) fun _ => within_bind (hpend _ _ _) fun _ =>
    within_bind (within_virqAck_injecting hvgic hlog hpend hack _ _) fun _ =>
    within_bind (within_vgicIrqDequeue hvgic _) fun p => ?_
  cases p with
  | none => exact within_pure _
  | some p => exact within_bind (within_vgicVcpuLoadListReg hvgic hlog _ _ _ _) fun _ => within_pure _

variable (henable : ∀ irq vcpu, Bounded R S (modifyDist fun d => setEnable d irq true vcpu : M φ Unit))

include henable

lemma within_vgicDistEnableIrq (vcpu : VcpuId) (irq : Int) : Bounded R S (vgicDistEnableIrq env vcpu irq) := by
  unfold vgicDistEnableIrq
  refine within_bind (henable _ _) fun _ => within_bind (within_virqFindIrqData _ _) fun p => ?_
  cases p with
  | none => exact within_pure _
  | some p =>
    refine within_bind within_get fun s => within_ite ?_ (within_pure _)
    exact within_ite (within_virqAck_injecting hvgic hlog hpend hack _ _) (within_pure _)

end Operations

section Kept

lemma kept_logEvent (e : Event φ) (he : e.isReturn = false) : Always GuestKept (logEvent e) :=
  within_modify fun s => ⟨rfl, rfl, rfl, [e], rfl, by simpa using he⟩

lemma kept_modifyDist (f : GicDistMap → GicDistMap) : Always GuestKept (modifyDist f : M φ Unit) :=
  within_modify fun s => ⟨rfl, rfl, rfl, [], by simp, by simp⟩

lemma kept_modifyVgic (f : Vgic φ → Vgic φ) : Always GuestKept (modifyVgic f : M φ Unit) :=
  within_modify fun s => ⟨rfl, rfl, rfl, [], by simp, by simp⟩

lemma kept_vgicInjectIrq (vcpu : VcpuId) (irq : Int) : Always GuestKept (vgicInjectIrq env vcpu irq) :=
  within_vgicInjectIrq kept_modifyVgic (fun e he _ => kept_logEvent e he) (fun _ _ _ => kept_modifyDist _) vcpu irq

lemma kept_vgicMaintenanceBody (idx err : Int) : Always GuestKept (vgicMaintenanceBody env idx err) :=
  within_vgicMaintenanceBody kept_modifyVgic (fun e he _ => kept_logEvent e he) (fun _ _ _ => kept_modifyDist _)
    (fun _ _ => kept_logEvent _ rfl) idx err

lemma kept_action {a : Action φ} (ha : a.IsAccess) : Always GuestKept (a.run env) := by
  cases a with
  | register irq ackFn ackData => exact ha.elim
  | notification irq => exact ha.elim
  | vppiEvent irq => exact ha.elim
  | retire idx err => exact ha.elim
  | inject irq => exact within_bind (kept_vgicInjectIrq _ _) fun _ => within_pure _
  | enable irq =>
    exact within_vgicDistEnableIrq kept_modifyVgic (fun e he _ => kept_logEvent e he) (fun _ _ _ => kept_modifyDist _)
      (fun _ _ => kept_logEvent _ rfl) (fun _ _ => kept_modifyDist _) _ _
  | disable irq => exact within_ite (kept_modifyDist _) (within_pure _)
  | clearEnable irq => exact kept_modifyDist fun d => setEnable d irq false vcpuId
  | clrPending irq => exact kept_modifyDist fun d => setPending d irq false vcpuId
  | store w mask bits => exact kept_modifyDist fun d => d.set w (d.word w &&& ~~~mask ||| bits)
  | ctlr data => exact within_ite (kept_modifyDist _) (within_ite (kept_modifyDist _) (within_pure _))
  | fail => exact within_cAssert _

lemma kept_accessActions {s : Vmm φ} {addr fsr : U64} :
    Always GuestKept (forM (accessActions env s addr fsr) (Action.run env)) :=
  within_forM fun _ ha => kept_action (isAccess_of_mem ha)

end Kept

/-- A return to the guest behind operations that do not resume it. -/
lemma newEvents_resumed {s t : Vmm φ} (h : GuestKept s t) (regs : UserContext) :
    ∃ l, newEvents s (resumed t regs) = l ++ [.writeRegisters true regs.advanced, .reply] ∧
      ∀ e ∈ l, e.isReturn = false := by
  obtain ⟨l, hl, hret⟩ := h.log
  refine ⟨l, newEvents_eq ?_, hret⟩
  change t.log ++ _ = _
  rw [hl, List.append_assoc]

/-! ### The log only grows -/

/-- The events of `s` are the first of `s'`. -/
abbrev LogGrows (s s' : Vmm φ) : Prop := s.log <+: s'.log

instance : Std.Refl (LogGrows (φ := φ)) := ⟨fun s => List.prefix_refl s.log⟩

instance : IsTrans (Vmm φ) LogGrows := ⟨fun _ _ _ h h' => h.trans h'⟩

lemma logGrows_logEvent (e : Event φ) : Always LogGrows (logEvent e) := within_modify fun _ => List.prefix_append _ _

lemma logGrows_vgicInjectIrq (vcpu : VcpuId) (irq : Int) : Always LogGrows (vgicInjectIrq env vcpu irq) :=
  within_vgicInjectIrq (fun _ => within_modify fun _ => List.prefix_refl _) (fun e _ _ => logGrows_logEvent e)
    (fun _ _ _ => within_modify fun _ => List.prefix_refl _) vcpu irq

lemma logGrows_runAckCall (c : AckCall) : Always LogGrows (runAckCall env c) := by
  cases c with
  | irqAck ch => exact logGrows_logEvent _
  | vcpuAckVppi irq => exact within_bind (within_vcpuAckVppi (logGrows_logEvent _)) fun _ => within_cAssert _
  | injectIrq irq => exact within_bind (logGrows_vgicInjectIrq _ _) fun _ => within_pure _

lemma wp_virqAck_logged (hstop : env.assertStops = true) {s : Vmm φ} {h : VirqHandle φ} {fn : φ} (hfn : h.ackFn = some fn) :
    wp (virqAck env vcpuId h) (fun _ t => s.log ++ [.ack fn vcpuId h.virq null] <+: t.log)
      (fun _ t => s.log ++ [.ack fn vcpuId h.virq null] <+: t.log) s := by
  unfold virqAck
  rw [wp_bind, wp_cAssert_stops hstop, hfn]
  refine ⟨fun _ => ?_, fun h => absurd h (by simp)⟩
  dsimp only
  rw [wp_bind, wp_logEvent, wp_bind, wp_get]
  exact within_forM (fun c _ => logGrows_runAckCall c) { s with log := s.log ++ [.ack fn vcpuId h.virq null] }

end Sel4cpVmm
