import Sel4cpVmm.Properties.StopConditions

/-!
# The runs of the booted system

What holds from `init` on: in every state of the system that `init` starts, a step stops the VMM only under its
condition.
-/

namespace Sel4cpVmm

open StopProgram

section Keeps

variable {φ : Type} {env : Env φ} {hs : List (VirqHandle φ)} {s s₀ t : Vmm φ} {op : Op φ} {a : Action φ}
  (hE : Serves env hs)

lemma Attached.frame (hA : Attached hs s) (hf : Frame s t) : Attached hs t :=
  ⟨hA.settled.frame hf, hf.vgic ▸ hA.tables, hf.vgic ▸ hA.held⟩

include hE

lemma attached_action (ha : a ∈ opActions env t op) (hop : Regular env t op) : Keeps (Attached hs) (a.run env) := by
  have hlog : ∀ e : Event φ, (∀ i, .enqueueFailed i ≠ e) → e.isOther = true → Keeps (Attached hs) (logEvent e) :=
    fun e hfail hother => within_modify fun _ hA => hA.logged e hfail hother
  have hinject : ∀ irq, Keeps (Attached hs) (vgicInjectIrq env vcpuId irq) :=
    fun irq => keeps_of_wp fun _ hA => (hA.inject hE irq).wp
  have hstill : a.NeverStops → Keeps (Attached hs) (a.run env) := fun hnever => keeps_of_wp fun s hA => by
    refine wp_mono (wp_and (settled_action hE.range hE.few hE.asserts ha hop s) hnever.wp) (fun _ u hu => ?_)
      (fun _ _ _ => trivial)
    exact ⟨hu.1 hA.settled, hu.2 ▸ hA.tables, hu.2 ▸ hA.held⟩
  cases a with
  | register irq ackFn ackData =>
    obtain rfl := op_of_register ha
    exact hop.1.1.elim
  | inject irq => exact within_bind (hinject irq) fun _ => within_pure _
  | notification irq =>
    exact within_bind (hlog _ (by simp) rfl) fun _ => within_bind (hinject irq) fun _ => within_pure _
  | vppiEvent irq =>
    refine within_bind (hlog _ (by simp) rfl) fun _ => within_bind ?_ fun _ => within_pure _
    exact within_handleVppiEvent_events hinject irq (hlog _ (by simp) rfl) (hlog _ (by simp) rfl)
  | retire idx err =>
    refine within_bind (keeps_of_wp fun _ hA => ?_) fun _ => within_pure _
    exact ((hA.maintenance hE idx err).mono fun _ _ h => h.1).wp
  | enable irq => exact keeps_of_wp fun _ hA => (hA.enable hE (bits_opActions ha).1).wp
  | fail => exact within_cAssert _
  | _ => exact hstill trivial

lemma attached_reach {init : Vmm φ → Prop} (hinit : ∀ t, init t → Attached hs t)
    (hs' : Reach init (Regular env) (step env) s) : Attached hs s := by
  refine (reach_outcome (I := Attached hs) (E := fun _ => True) hE.asserts hinit (fun s t hf hA => hA.frame hf)
    (fun _ _ => trivial) (fun s op hA hop => ?_) hs').1
  exact wp_mono (within_forM (fun a ha => attached_action hE ha hop) s) (fun _ _ ht => ht hA) (fun _ _ => id)

end Keeps

/-! ### The boards -/

section Boards

variable {board : Board} {imgs : GuestImages} {ram initrd : U64} {m m' : Machine} {s : Vmm VmmAckFn}

lemma serves_bootHandles (board : Board) : Serves (vmmEnv board) (bootHandles board) where
  asserts := rfl
  kernel := vmmEnv_accepts board
  tcb := vmmEnv_tcb board
  range := by cases board <;> decide
  few := by cases board <;> decide
  acked := by simp [bootHandles]
  injects := by
    intro fn vcpu irq cookie u i hi
    cases fn <;> cases board <;> simp_all [vmmEnv, vmmAckFn]
    decide

lemma Booted.attached (hB : Booted (vmmEnv board) ram m m') : Attached (bootHandles board) m'.vmm := by
  have hview : m'.vmm.vgic.view = ⟨fun _ => none, []⟩ := hB.view.trans view_init
  have hres : m'.vmm.vgic.view.residents = 0 := by rw [hB.view, residents_init]
  have hwait : m'.vmm.vgic.view.waiting = [] := by rw [hview]
  have htables : ∀ irq h, m'.vmm.vgic.handle irq = some h → h.virq ∈ (bootHandles board).map VirqHandle.virq := by
    intro irq h hh
    rw [hB.handles.handle (Vgic.nonneg_of_handle hh)] at hh
    exact List.mem_map_of_mem (List.mem_of_find?_eq_some hh)
  refine ⟨⟨hB.wf, ⟨fun hne => absurd hwait hne, htables, ?_, ?_, ?_, ?_⟩, ⟨fun hne => absurd hwait hne, ?_, ?_⟩, hwait⟩,
    hB.handles, ?_⟩
  · simp [hres]
  · simp [hres]
  · simp [hres]
  · simp [hB.log, NoFailure]
  · simp [hB.log, hwait, loadedIrqs, acceptedIrqs]
  · simp [hB.log, LoadsIntoEmpty]
  · simp [hres]

/-- `init` has started the guest, and nothing has happened since. -/
def Started (board : Board) (imgs : GuestImages) (ram initrd : U64) (s : Vmm VmmAckFn) : Prop :=
  ∃ m m', init (vmmEnv board) imgs ram initrd m = .ok ⟨⟩ m' ∧ s = m'.vmm

/-- The states of the system that `init` starts, in runs in which the guest neither writes to `ICPENDR` nor disables a
number that has no bit of its own. -/
abbrev BootReach (board : Board) (imgs : GuestImages) (ram initrd : U64) : Vmm VmmAckFn → Prop :=
  Reach (Started board imgs ram initrd) (Regular (vmmEnv board)) (step (vmmEnv board))

lemma Started.booted (hs : Started board imgs ram initrd s) :
    ∃ m m', Booted (vmmEnv board) ram m m' ∧ s = m'.vmm := by
  obtain ⟨m, m', hrun, rfl⟩ := hs
  have hB := wp_ok (wp_init rfl) hrun
  exact ⟨m, m', hB, rfl⟩

lemma attached_bootReach (hs : BootReach board imgs ram initrd s) : Attached (bootHandles board) s := by
  refine attached_reach (serves_bootHandles board) ?_ hs
  intro t ht
  obtain ⟨m, m', hB, rfl⟩ := ht.booted
  exact hB.attached

/-- From every such state, the next step stops the VMM exactly under its condition. -/
theorem boot_stops_iff (hs : BootReach board imgs ram initrd s) (op : Op VmmAckFn) :
    (∃ e t, step (vmmEnv board) op s = .error e t) ↔ StepStops (vmmEnv board) (bootHandles board) s op :=
  (stopsIff_step (attached_bootReach hs) (serves_bootHandles board) op).iff

lemma exists_booted (board : Board) (imgs : GuestImages) (ram initrd : U64) (m : Machine) :
    ∃ m', init (vmmEnv board) imgs ram initrd m = .ok ⟨⟩ m' ∧ Booted (vmmEnv board) ram m m' := by
  obtain ⟨u, m', hrun, hB⟩ := ok_of_wp (wp_mono (@wp_init (vmmEnv board) imgs ram initrd m rfl) (fun _ _ => id)
    fun _ _ ⟨_, ⟨_, hne⟩, _⟩ => hne rfl)
  exact ⟨m', hrun, hB⟩

lemma exists_bootReach (board : Board) (imgs : GuestImages) (ram initrd : U64) :
    ∃ s, BootReach board imgs ram initrd s := by
  obtain ⟨m', hrun, -⟩ := exists_booted board imgs ram initrd (blankMachine board)
  exact ⟨_, .init ⟨_, m', hrun, rfl⟩⟩

/-- The guest stops the VMM when it writes to `SPENDSGIR`. -/
theorem boot_stops_iff_spendsgir : ∃ s, BootReach .qemuArmVirtHyp smallImages qemuGuestRam.base
      Board.guestInitRamDiskVaddr s ∧
    ∃ e t, step (vmmEnv .qemuArmVirtHyp) (.fault (.vmFault 0x8000f20 storeWord)) s = .error e t := by
  obtain ⟨s, hs⟩ := exists_bootReach .qemuArmVirtHyp smallImages qemuGuestRam.base Board.guestInitRamDiskVaddr
  have hwrites : WritesDist (vmmEnv .qemuArmVirtHyp) (fun w => w = .sgiPending) 0x8000f20 storeWord := by decide
  have hread : ¬faultIsRead storeWord = true := by decide
  have hstops : AccessStops (vmmEnv .qemuArmVirtHyp) (bootHandles .qemuArmVirtHyp) s 0x8000f20 storeWord .dist := by
    rw [AccessStops, if_neg hread]
    exact .inr (.inl hwrites)
  exact ⟨s, hs, (boot_stops_iff hs _).mpr hstops⟩

end Boards

end Sel4cpVmm
