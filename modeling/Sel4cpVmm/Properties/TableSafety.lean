import Sel4cpVmm.Properties.SingleStep

/-!
# Accesses of the tables

The tables of handles, the list registers and the queue are never accessed out of bounds. A null pointer is read only
for an SPI that is not registered, when it is set pending by the step or by a callback the step calls.
-/

namespace Sel4cpVmm

open StopProgram

variable {φ : Type} {env : Env φ}

/-- A step that begins in `s` and stops in `t` sets `irq` pending itself or through a callback that it calls. -/
inductive AsksFor (env : Env φ) (s t : Vmm φ) (irq : Int) : Op φ → Prop
  | inject : AsksFor env s t irq (.injectIrq irq)
  | notification : AsksFor env s t irq (.notification irq)
  | vppiEvent {i : U64} : cInt i = irq → AsksFor env s t irq (.fault (.vppiEvent i))
  | ispendr {addr fsr : U64} : WritesDist env (fun w => w = .ispendr) addr fsr → irq ∈ accessIrqs env s addr fsr →
      AsksFor env s t irq (.fault (.vmFault addr fsr))
  | callback {op : Op φ} {fn : φ} {virq : Int} {u : Vmm φ} : .ack fn vcpuId virq null ∈ newEvents s u → u.log <+: t.log →
      AckCall.injectIrq irq ∈ env.ackFn fn vcpuId virq null u → AsksFor env s t irq op

/-- The step stops in an assertion, or at an SPI without a handle. -/
def StopsInTables (env : Env φ) (s : Vmm φ) (op : Op φ) (e : Stop) (t : Vmm φ) : Prop :=
  e = .assertFailed ∨
    e = .nullDeref ∧ ∃ irq, (numVcpuLocalVirqs : Int) ≤ irq ∧ s.vgic.handle irq = none ∧ AsksFor env s t irq op

section Stops

variable (hstop : env.assertStops = true) {s t : Vmm φ} {op : Op φ}

include hstop

lemma wp_inject_stops (hw : t.vgic.Wf) (hv : t.vgic = s.vgic) (irq : Int) (hask : ∀ u, AsksFor env s u irq op) :
    wp (vgicInjectIrq env vcpuId irq) (fun _ _ => True) (StopsInTables env s op) t := by
  refine wp_mono (@wp_inject φ env t vcpuId irq hstop hw) (fun _ _ _ => trivial) fun e u hu => ?_
  cases hu with
  | noHandle h0 hnone =>
    rw [hv] at hnone
    refine .inr ⟨rfl, irq, ?_, ?_, hask _⟩
    · by_contra hlt
      have hsome := Vgic.find_isSome_of_local (v := s.vgic) ⟨h0, Int.not_le.mp hlt⟩
      exact absurd hsome (by simp [hnone])
    · rw [Vgic.handle, hnone]
      rfl
  | _ => exact .inl rfl

omit hstop in
lemma StopsEarly.inTables {addr fsr : U64} {e : Stop} (h : StopsEarly env s addr fsr e t)
    (hop : WritesDist env (fun w => w = .ispendr) addr fsr → op = .fault (.vmFault addr fsr)) :
    StopsInTables env s op e t := by
  refine h.imp_right fun ⟨he, irq, hspi, hnone, hsets⟩ => ⟨he, irq, hspi, hnone, ?_⟩
  cases hsets with
  | ispendr hw hmem =>
    rw [hop hw]
    exact .ispendr hw hmem
  | callback hack hlog hcall => exact .callback hack hlog hcall

omit hstop in
lemma stopsInTables_assert : StopsInTables env s op .assertFailed t := .inl rfl

/-- The callback of the interrupt retired is called in maintenance. -/
lemma wp_maintenance_stops (hw : s.vgic.Wf) (idx err : Int) :
    wp (vgicMaintenanceBody env idx err) (fun _ _ => True) (StopsInTables env s op) s := by
  by_cases hidx : 0 ≤ idx ∧ idx < numListRegs
  · obtain ⟨n, rfl⟩ := Int.eq_ofNat_of_zero_le hidx.1
    have hn : n < numListRegs := by omega
    change wp (vgicMaintenanceBody env ((⟨n, hn⟩ : Fin numListRegs) : Int) err) _ _ s
    rw [wp_vgicMaintenanceBody hstop]
    refine ⟨fun _ => stopsInTables_assert, fun h hslot => ?_⟩
    have hfreed : Running s (freed s ⟨n, hn⟩ h) := ⟨wf_freed hw _ h, Vgic.deref_setLr, List.prefix_refl _⟩
    -- a load with no syndrome writes nothing
    have hack := @Running.ack _ _ hstop _ _ 0 0 hfreed h
    refine wp_mono hack (fun _ t ht => ?_) (fun e t ht => ht.inTables fun hwrites => absurd hwrites.1 (by decide))
    exact wp_mono (wp_refill hstop ht.wf fun _ _ => stopsInTables_assert) (fun _ _ _ => trivial) (fun _ _ => id)
  · exact wp_vgicMaintenanceBody_range hstop hidx stopsInTables_assert

lemma wp_vppiEvent_stops {i : U64} (hw : t.vgic.Wf) (hv : t.vgic = s.vgic) :
    wp (handleVppiEvent env i) (fun _ _ => True) (StopsInTables env s (.fault (.vppiEvent i))) t := by
  unfold handleVppiEvent
  rw [wp_bind]
  refine wp_mono (wp_inject_stops hstop hw hv _ fun _ => .vppiEvent rfl) (fun b u _ => ?_) (fun _ _ => id)
  simp only [wp_ite, wp_bind, wp_replyToFault, wp_pure, vcpuAckVppi, wp_get, wp_logEvent, wp_cAssert_stops hstop,
    implies_true, and_true]
  exact fun _ => ⟨trivial, fun _ => stopsInTables_assert⟩

lemma wp_vmFault_stops (hw : s.vgic.Wf) (addr fsr : U64) :
    wp (handleVmFault env addr fsr) (fun _ _ => True) (StopsInTables env s (.fault (.vmFault addr fsr))) s := by
  have hactions : wp (forM (accessActions env s addr fsr) (Action.run env)) (fun _ u => Running s u)
      (StopsEarly env s addr fsr) s :=
    wp_forM_keeps (fun a ha u hu => hu.action hstop ha) ⟨hw, rfl, refl_of LogGrows s⟩
  refine wp_vmFault hstop (fun _ _ _ => stopsInTables_assert) (fun _ => ⟨fun _ _ _ => trivial, fun _ => trivial⟩) fun _ => ?_
  exact wp_mono hactions (fun _ _ _ => ⟨trivial, fun _ _ _ => stopsInTables_assert⟩) fun e t ht => ht.inTables fun _ => rfl

lemma wp_vcpuFault_stops (hsr : U64) :
    wp (handleVcpuFault env hsr) (fun _ _ => True) (StopsInTables env s op) s := by
  have hpsci : ∀ regs n t, wp (handlePsci env regs n) (fun _ _ => True) (StopsInTables env s op) t := by
    intro regs n t
    unfold handlePsci
    cases psciReturnValue regs n with
    | none => trivial
    | some val =>
      rw [wp_bind]
      refine wp_faultAdvanceVcpu hstop (fun _ _ _ => stopsInTables_assert) ?_
      rw [wp_bind, Bool.not_false, wp_cAssert_true]
      trivial
  have hsmc : wp (handleSmc env) (fun _ _ => True) (StopsInTables env s op) s := by
    unfold handleSmc
    simp only [tcbReadRegisters, wp_bind, wp_get, wp_pure, wp_cAssert_stops hstop]
    refine ⟨fun _ => ?_, fun _ => stopsInTables_assert⟩
    cases smcGetCall s.tcb.x[0] with
    | stdService => exact (wp_ite _ _ _ _ _ _).mpr ⟨fun _ => hpsci _ _ _, fun _ => trivial⟩
    | _ => trivial
  unfold handleVcpuFault
  simp only [wp_ite, wp_bind, wp_replyToFault, wp_pure, implies_true, and_true]
  exact fun _ => hsmc

lemma wp_unknownSyscall_stops (syscall : U64) :
    wp (handleUnknownSyscall env syscall) (fun _ _ => True) (StopsInTables env s op) s := by
  unfold handleUnknownSyscall
  simp only [tcbReadRegisters, tcbWriteRegisters, wp_bind, wp_get, wp_pure, wp_ite, wp_modify, wp_logEvent,
    wp_cAssert_stops hstop]
  exact ⟨fun _ => ⟨fun _ => ⟨fun _ => ⟨fun _ => trivial, fun _ => stopsInTables_assert⟩,
    fun _ => ⟨fun _ => trivial, fun _ => stopsInTables_assert⟩⟩, fun _ => trivial⟩, fun _ => stopsInTables_assert⟩

lemma wp_step_stops (hw : s.vgic.Wf) (op : Op φ) :
    wp (step env op) (fun _ _ => True) (StopsInTables env s op) s := by
  cases op with
  | registerIrq irq ackFn ackData =>
    exact (wp_bind _ _ _ _ _).mpr (wp_mono (wp_vgicRegisterIrq hstop) (fun _ _ _ => trivial) fun _ _ h => .inl h.1)
  | injectIrq irq => exact (wp_bind _ _ _ _ _).mpr (wp_inject_stops hstop hw rfl irq fun _ => .inject)
  | notification irq =>
    rw [step, wp_bind, wp_logEvent, wp_bind]
    exact wp_inject_stops (s := s) (t := { s with log := s.log ++ [.notification irq] }) hstop hw rfl irq
      fun _ => .notification
  | guest regs => trivial
  | retire idx => exact (wp_bind _ _ _ _ _).mpr (wp_maintenance_stops hstop hw idx 0)
  | fault f =>
    have hfault : ∀ {f : Fault} {t : Vmm φ}, wp (handleFault env f) (fun _ _ => True) (StopsInTables env s (.fault f)) t →
        wp (fault env (some f)) (fun _ _ => True) (StopsInTables env s (.fault f)) t := fun h => (wp_bind _ _ _ _ _).mpr h
    cases f with
    | vmFault addr fsr => exact hfault (wp_vmFault_stops hstop hw addr fsr)
    | unknownSyscall syscall => exact hfault (wp_unknownSyscall_stops hstop syscall)
    | userException => exact hfault (f := .userException) (t := s) trivial
    | vcpuFault hsr => exact hfault (wp_vcpuFault_stops hstop hsr)
    | vgicMaintenance idx err =>
      refine hfault ((wp_bind _ _ _ _ _).mpr (wp_mono (wp_maintenance_stops hstop hw (cInt idx) err) (fun r t _ => ?_)
        (fun _ _ => id)))
      rw [wp_ite, wp_bind, wp_replyToFault, wp_bind, wp_cAssert_stops hstop]
      exact ⟨fun _ => trivial, fun _ => ⟨fun _ => trivial, fun _ => stopsInTables_assert⟩⟩
    | vppiEvent i =>
      rw [step, wp_bind]
      exact hfault (wp_vppiEvent_stops (s := s) hstop hw rfl)

/-- In every state reached, a step that stops the VMM does so in an assertion, or it sets an SPI pending that is not
registered and reads a null pointer. -/
theorem stops_in_tables {allowed : Vmm φ → Op φ → Prop} (hs : Reachable env allowed s) {op : Op φ} {e : Stop}
    (hrun : step env op s = .error e t) : StopsInTables env s op e t := by
  have hw := (reachable_workConserving hstop hs).1
  have hstopped := wp_error (wp_step_stops hstop hw op) hrun
  exact hstopped

end Stops

/-- The guest sets SPI 33 pending before it is registered. -/
theorem stops_in_tables_ispendr : ∃ (s t : Vmm VmmAckFn) (e : Stop),
    step (vmmEnv .qemuArmVirtHyp) (.fault (.vmFault 0x8000204 storeWord)) s = .error e t ∧
      StopsInTables (vmmEnv .qemuArmVirtHyp) s (.fault (.vmFault 0x8000204 storeWord)) e t := by
  have hs : Reachable (vmmEnv .qemuArmVirtHyp) (fun _ _ => True) (vgicInit (vmmEnv .qemuArmVirtHyp) (.filled 2)) :=
    .init ⟨_, rfl⟩
  have hends : endsIn (step (vmmEnv .qemuArmVirtHyp) (.fault (.vmFault 0x8000204 storeWord)))
      (vgicInit (vmmEnv .qemuArmVirtHyp) (.filled 2)) (fun _ => true) = false := by decide +kernel
  unfold endsIn at hends
  cases hrun : step (vmmEnv .qemuArmVirtHyp) (.fault (.vmFault 0x8000204 storeWord))
      (vgicInit (vmmEnv .qemuArmVirtHyp) (.filled 2)) with
  | ok a t =>
    rw [hrun] at hends
    exact absurd hends (by simp)
  | error e t => exact ⟨_, t, e, hrun, stops_in_tables rfl hs hrun⟩

end Sel4cpVmm
