import Sel4cpVmm.Properties.BootImages
import Sel4cpVmm.Properties.FewInterrupts

/-!
# The system `init` starts

`init` starts the guest once, at the entry point of its kernel, with four interrupts registered.
-/

namespace Sel4cpVmm

open StopProgram AddressRange

variable {env : Env VmmAckFn} {imgs : GuestImages} {ram initrd : U64} {m m' : Machine}

/-- The interrupts `init` registers. -/
def bootHandles (board : Board) : List (VirqHandle VmmAckFn) :=
  [⟨ppiVtimerIrq, some .vppiEventAck, null⟩, ⟨sgiRescheduleIrq, some .sgiAck, null⟩,
   ⟨sgiFuncCall, some .sgiAck, null⟩, ⟨board.serialIrq, some .serialAck, null⟩]

/-- The guest has been started: its registers are those of the entry, the interrupts are registered, nothing is in
flight, and the serial interrupt has been acknowledged. -/
structure Booted (env : Env VmmAckFn) (ram : U64) (m m' : Machine) : Prop where
  handles : Holds (bootHandles env.board) m'.vmm.vgic
  wf : m'.vmm.vgic.Wf
  view : m'.vmm.vgic.view = (Vgic.init : Vgic VmmAckFn).view
  dist : m'.vmm.dist = (vgicInit env m.vmm.tcb).dist
  redist : m'.vmm.redist = (vgicInit env m.vmm.tcb).redist
  wzr : m'.vmm.wzr = 0
  tcb : m'.vmm.tcb = entryRegisters env ram
  log : m'.vmm.log = [.irqAck serialIrqCh, .writeRegisters false (entryRegisters env ram)]
  restarts : m'.restarts = m.restarts ++ [ram + 0x80000]

section Boot

variable {m₀ : Machine} {done : List (VirqHandle VmmAckFn)} {E : Stop → Machine → Prop}

/-- `vgic_init` has been called and the handles of `done` are registered. -/
structure Registering (env : Env VmmAckFn) (m₀ : Machine) (done : List (VirqHandle VmmAckFn)) (m : Machine) : Prop where
  handles : Holds done m.vmm.vgic
  wf : m.vmm.vgic.Wf
  view : m.vmm.vgic.view = (Vgic.init : Vgic VmmAckFn).view
  rest : ∃ v, m = { m₀ with vmm := { vgicInit env m₀.vmm.tcb with vgic := v } }

lemma registering_init : Registering env m₀ [] { m₀ with vmm := vgicInit env m₀.vmm.tcb } :=
  ⟨holds_init, wf_init, rfl, _, rfl⟩

/-- A registration that is accepted, with what follows it. -/
lemma Registering.next (hR : Registering env m₀ done m) {h : VirqHandle VmmAckFn} (h0 : 0 ≤ h.virq)
    (hacc : accepts done h = true) {Q : Bool → Machine → Prop}
    (hQ : ∀ m', Registering env m₀ (done ++ [h]) m' → Q true m') :
    wp (onVmm (vgicRegisterIrq env vcpuId h.virq h.ackFn h.ackData)) Q E m := by
  obtain ⟨v', rfl⟩ := hR.rest
  obtain ⟨v, hrun, hv, hwf, hview, -⟩ := @run_vgicRegisterIrq _ env _ _ _ hR.handles hR.wf h0
  rw [wp_onVmm, wp_of_ok hrun, hacc]
  rw [accept, if_pos hacc] at hv
  exact hQ _ ⟨hv, hwf, hview.trans hR.view, v, rfl⟩

/-- The kernel does not take the guest's registers. -/
def RejectsEntry (env : Env VmmAckFn) (ram : U64) : Prop :=
  ∃ s, env.tcbWriteRegisters s (entryRegisters env ram) ≠ 0

lemma Registering.enter (hstop : env.assertStops = true) (hR : Registering env m₀ (bootHandles env.board) m) :
    wp (do
        onVmm (logEvent (.irqAck serialIrqCh))
        let regs := entryRegisters env ram
        let err ← onVmm (tcbWriteRegisters env false regs)
        onVmm (cAssert env (decide (err = 0)))
        vmRestart regs.pc)
      (fun _ m' => Booted env ram m₀ m')
      (fun e m' => e = .assertFailed ∧ RejectsEntry env ram ∧ m'.restarts = m₀.restarts) m := by
  obtain ⟨v, rfl⟩ := hR.rest
  simp only [wp_bind, wp_onVmm, wp_logEvent, tcbWriteRegisters, wp_get, wp_ite, wp_modify, wp_pure, vmRestart,
    wp_cAssert_stops hstop]
  refine ⟨fun hok => ⟨fun _ => ?_, fun hno => absurd hok (of_decide_eq_false hno)⟩,
    fun hno => ⟨fun hok => absurd (of_decide_eq_true hok) hno, fun _ => ⟨trivial, ⟨_, hno⟩, trivial⟩⟩⟩
  exact ⟨hR.handles, hR.wf, hR.view, rfl, rfl, rfl, rfl, rfl, rfl⟩

lemma wp_startGuest (hstop : env.assertStops = true) :
    wp (startGuest env ram) (fun _ m' => Booted env ram m m')
      (fun e m' => e = .assertFailed ∧ RejectsEntry env ram ∧ m'.restarts = m.restarts) m := by
  have hserial : accepts [⟨ppiVtimerIrq, some .vppiEventAck, null⟩, ⟨sgiRescheduleIrq, some .sgiAck, null⟩,
      ⟨sgiFuncCall, some .sgiAck, null⟩] (⟨env.board.serialIrq, some .serialAck, null⟩ : VirqHandle VmmAckFn) = true := by
    cases env.board <;> decide
  have hserial0 : 0 ≤ env.board.serialIrq := by cases env.board <;> decide
  unfold startGuest
  rw [wp_bind, wp_modify, wp_bind]
  refine registering_init.next (h := ⟨ppiVtimerIrq, some .vppiEventAck, null⟩) (by decide) (by decide) fun m₁ h₁ => ?_
  rw [if_pos rfl, wp_bind]
  refine h₁.next (h := ⟨sgiRescheduleIrq, some .sgiAck, null⟩) (by decide) (by decide) fun m₂ h₂ => ?_
  rw [if_pos rfl, wp_bind]
  refine h₂.next (h := ⟨sgiFuncCall, some .sgiAck, null⟩) (by decide) (by decide) fun m₃ h₃ => ?_
  rw [if_pos rfl, wp_bind]
  refine h₃.next (h := ⟨env.board.serialIrq, some .serialAck, null⟩) hserial0 hserial fun m₄ h₄ => ?_
  exact h₄.enter hstop

lemma wp_init (hstop : env.assertStops = true) :
    wp (init env imgs ram initrd) (fun _ m' => Booted env ram m m')
      (fun e m' => e = .assertFailed ∧ RejectsEntry env ram ∧ m'.restarts = m.restarts) m := by
  have hwp : wp (startGuest env ram) _ _ { m with mem := Copy.all (bootCopies env imgs ram initrd) m.mem } :=
    wp_startGuest hstop
  unfold wp at hwp ⊢
  rw [init_eq]
  split at hwp
  · exact ⟨hwp.handles, hwp.wf, hwp.view, hwp.dist, hwp.redist, hwp.wzr, hwp.tcb, hwp.log, hwp.restarts⟩
  · exact hwp

/-- On every board and whatever the images are, `init` starts the guest once, at the entry point of its kernel and with
its four interrupts registered and no other. It fails to do so only if the kernel does not take the guest's registers,
and then stops without having started it. -/
theorem init_boots (hstop : env.assertStops = true) (m : Machine) :
    (∃ m', init env imgs ram initrd m = .ok ⟨⟩ m' ∧ Booted env ram m m') ∨
      (RejectsEntry env ram ∧ ∃ m', init env imgs ram initrd m = .error .assertFailed m' ∧ m'.restarts = m.restarts) := by
  have hwp := @wp_init env imgs ram initrd m hstop
  unfold wp at hwp
  split at hwp
  · exact .inl ⟨_, ‹_›, hwp⟩
  · obtain ⟨rfl, hrej, hrestarts⟩ := hwp
    exact .inr ⟨hrej, _, ‹_›, hrestarts⟩

end Boot

theorem init_boots_qemu : ∃ m', init (vmmEnv .qemuArmVirtHyp) smallImages qemuGuestRam.base Board.guestInitRamDiskVaddr
      (blankMachine .qemuArmVirtHyp) = .ok ⟨⟩ m' ∧ m'.restarts = [0x40080000] := by
  have hstop : (vmmEnv .qemuArmVirtHyp).assertStops = true := rfl
  rcases init_boots hstop (blankMachine .qemuArmVirtHyp) with
    ⟨m', hrun, hB⟩ | ⟨⟨s, hne⟩, -⟩
  · exact ⟨m', hrun, hB.restarts⟩
  · exact absurd rfl hne

end Sel4cpVmm
