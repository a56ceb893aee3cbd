import Sel4cpVmm.Proofs.Guest

/-!
# The zero register

`decode_rt` hands out the same pointer to `wzr` for the source of a store and the destination of a load, so
a load into register 31 changes what later stores from it write.
-/

namespace Sel4cpVmm

open StopProgram

variable {φ : Type} {env : Env φ}

/-- The lane of the emulated register that an access addresses. -/
def laneValue (addr fsr : U64) (reg : U32) : U64 :=
  ((reg &&& (dataMask addr fsr).setWidth 32).setWidth 64 &&& dataMask addr fsr) >>> laneShift addr

/-- `fault_get_data` returns 0 for every valid syndrome that names register 31. -/
def ReadsZero (env : Env φ) (s : Vmm φ) : Prop :=
  ∀ regs fsr, hsrIsSyndromeValid fsr = true → (hsrSyndromeRt fsr).toNat = 31 → faultGetData env regs fsr s = .ok 0 s

/-- The operation is an emulated load into register 31 that finds a lane other than 0. -/
def LoadsNonzero (env : Env φ) (s : Vmm φ) : Op φ → Prop
  | .fault (.vmFault addr fsr) => faultIsRead fsr = true ∧ AccessOk addr fsr ∧ (hsrSyndromeRt fsr).toNat = 31 ∧
      ∃ reg, accessValue env s addr = some reg ∧ laneValue addr fsr reg ≠ 0
  | _ => False

/-! ### What a step does to `wzr` -/

/-- `wzr` is as before. -/
abbrev WzrKept (s s' : Vmm φ) : Prop := s'.wzr = s.wzr

instance : Std.Refl (WzrKept (φ := φ)) := ⟨fun _ => rfl⟩

instance : IsTrans (Vmm φ) WzrKept := ⟨fun _ _ _ h h' => h'.trans h⟩

lemma wzrKept_logEvent (e : Event φ) : Within WzrKept (logEvent e) := within_modify fun _ => rfl

lemma wzrKept_of_guestKept {α : Type} {x : M φ α} (h : Always GuestKept x) : Within WzrKept x :=
  Bounded.mono h (fun _ _ hk => hk.wzr) (fun _ _ _ => trivial)

section Step

variable (hstop : env.assertStops = true)

include hstop

lemma wzrKept_step {op : Op φ} (hop : ∀ addr fsr, op ≠ .fault (.vmFault addr fsr)) : Within WzrKept (step env op) := by
  have hlog : ∀ e : Event φ, e.isReturn = true → Within WzrKept (logEvent e) := fun e _ => wzrKept_logEvent e
  have htcb : ∀ regs, Within WzrKept (modify fun s => { s with tcb := regs } : M φ Unit) :=
    fun _ => within_modify fun _ => rfl
  have hinject : ∀ irq, Within WzrKept (vgicInjectIrq env vcpuId irq) :=
    fun _ => wzrKept_of_guestKept (kept_vgicInjectIrq _ _)
  have hbody : ∀ idx err, Within WzrKept (vgicMaintenanceBody env idx err) :=
    fun _ _ => wzrKept_of_guestKept (kept_vgicMaintenanceBody _ _)
  cases op with
  | registerIrq irq ackFn ackData =>
    refine within_bind (fun s => wp_mono (wp_vgicRegisterIrq hstop) (fun b t h => ?_) fun _ _ _ => trivial)
      fun _ => within_pure _
    rcases h with ⟨-, rfl⟩ | ⟨-, p, v, -, rfl⟩ <;> rfl
  | injectIrq irq => exact within_bind (hinject irq) fun _ => within_pure _
  | notification irq =>
    exact within_bind (wzrKept_logEvent _) fun _ => within_bind (hinject irq) fun _ => within_pure _
  | guest regs => exact within_modify fun _ => rfl
  | retire idx => exact within_bind (hbody _ _) fun _ => within_pure _
  | fault f =>
    refine within_bind ?_ fun _ => within_bind ?_ fun _ => within_pure _
    · cases f with
      | vppiEvent irq => exact wzrKept_logEvent _
      | _ => exact within_pure _
    · cases f with
      | vmFault addr fsr => exact absurd rfl (hop addr fsr)
      | unknownSyscall syscall => exact within_handleUnknownSyscall hlog htcb syscall
      | userException => exact within_handleUserException
      | vcpuFault hsr => exact within_handleVcpuFault hlog htcb hsr
      | vgicMaintenance idx err =>
        refine within_bind (hbody _ _) fun _ => within_ite ?_ (within_bind (within_cAssert _) fun _ => within_pure _)
        exact within_bind (wzrKept_logEvent _) fun _ => within_pure _
      | vppiEvent irq => exact within_handleVppiEvent hinject wzrKept_logEvent irq

omit hstop in
lemma wzr_readBack {s : Vmm φ} {addr fsr : U64} {reg : U32} (hs : s.wzr = 0) :
    (readBack s s.tcb addr fsr reg).wzr = 0 ↔
      ¬((hsrSyndromeRt fsr).toNat = 31 ∧ laneValue addr fsr reg ≠ 0) := by
  have hle := hsrSyndromeRt_le fsr
  unfold readBack loaded rtPtr
  by_cases hrt : (hsrSyndromeRt fsr).toNat < 31
  · have hne : (hsrSyndromeRt fsr).toNat ≠ 31 := by omega
    rw [dif_pos hrt]
    exact iff_of_true hs fun h => hne h.1
  · have h31 : (hsrSyndromeRt fsr).toNat = 31 := by omega
    have hval : rtValue s.tcb fsr s.wzr = 0 := by rw [rtValue, dif_neg hrt, hs]
    rw [dif_neg hrt, hval]
    change emulatedRead addr fsr 0 _ = 0 ↔ _
    have hmerge : ∀ m x : U64, 0 &&& m ||| x = x := fun m x => by simp
    rw [emulatedRead, hmerge]
    simp [h31, laneValue]

lemma wzr_vmFault {s : Vmm φ} {addr fsr : U64} (hs : s.wzr = 0) :
    wp (step env (.fault (.vmFault addr fsr))) (fun _ s' => s'.wzr = 0 ↔ ¬LoadsNonzero env s (.fault (.vmFault addr fsr)))
      (fun _ _ => True) s := by
  change wp (handleVmFault env addr fsr >>= fun _ => pure ()) _ _ s
  rw [wp_bind]
  refine wp_vmFault hstop (fun _ _ _ => trivial) (fun hread => ⟨fun reg hreg hok => ?_, fun hnone => ?_⟩) fun hwrite => ?_
  · rw [wp_pure, wzr_readBack hs]
    refine not_congr ⟨fun h => ⟨hread, hok, h.1, reg, hreg, h.2⟩, fun h => ?_⟩
    obtain ⟨-, -, h31, reg', hreg', hne⟩ := h
    obtain rfl : reg = reg' := Option.some.inj (hreg ▸ hreg')
    exact ⟨h31, hne⟩
  · refine iff_of_true hs fun h => ?_
    obtain ⟨-, -, -, reg, hreg, -⟩ := h
    exact absurd (hnone ▸ hreg) (by simp)
  · refine wp_mono (kept_accessActions s) (fun _ t ht => ⟨?_, fun _ _ _ => trivial⟩) (fun _ _ _ => trivial)
    refine iff_of_true (ht.wzr.trans hs) fun h => ?_
    exact absurd h.1 (by simp [faultIsRead, hwrite])

def rtZero : U64 := (1 <<< 24) ||| (31 <<< 16)

lemma readsZero_iff {s : Vmm φ} : ReadsZero env s ↔ s.wzr = 0 := by
  have hread : ∀ regs fsr, (hsrSyndromeRt fsr).toNat = 31 → rtValue regs fsr s.wzr = s.wzr :=
    fun regs fsr h => dif_neg (by omega)
  refine ⟨fun h => ?_, fun h regs fsr hvalid hrt => ?_⟩
  · have h0 := h s.tcb rtZero (by decide) (by decide)
    rw [faultGetData_eq hstop (by decide), hread _ _ (by decide)] at h0
    exact (EStateM.Result.ok.inj h0).1
  · rw [faultGetData_eq hstop hvalid, hread _ _ hrt, h]

/-- As long as no load into register 31 finds a lane other than 0, register 31 reads as 0, and each further step
keeps it so exactly when it is not such a load. -/
theorem readsZero_iff_not_loadsNonzero {s : Vmm φ} (hs : Reachable env (fun s op => ¬LoadsNonzero env s op) s) :
    ReadsZero env s ∧ ∀ op s', step env op s = .ok ⟨⟩ s' → (ReadsZero env s' ↔ ¬LoadsNonzero env s op) := by
  have hstep : ∀ (s : Vmm φ) op s', s.wzr = 0 → step env op s = .ok ⟨⟩ s' → (s'.wzr = 0 ↔ ¬LoadsNonzero env s op) := by
    intro s op s' h0 hrun
    by_cases hop : ∃ addr fsr, op = .fault (.vmFault addr fsr)
    · obtain ⟨addr, fsr, rfl⟩ := hop
      have hafter := wp_ok (wzr_vmFault hstop h0) hrun
      exact hafter
    · have hne : ∀ addr fsr, op ≠ .fault (.vmFault addr fsr) := fun addr fsr h => hop ⟨addr, fsr, h⟩
      have hsame : s'.wzr = s.wzr := (wzrKept_step hstop hne).ok hrun
      refine iff_of_true (hsame.trans h0) fun h => ?_
      unfold LoadsNonzero at h
      split at h
      · exact hne _ _ rfl
      · exact h
  have h0 : s.wzr = 0 := by
    refine Reach.invariant (I := fun s => s.wzr = 0) ?_ (fun s op s' hI ha hrun => (hstep s op s' hI hrun).mpr ha) hs
    rintro s ⟨tcb, rfl⟩
    rfl
  refine ⟨(readsZero_iff hstop).mpr h0, fun op s' hrun => ?_⟩
  rw [readsZero_iff hstop]
  exact hstep s op s' h0 hrun

end Step

def loadWordZero : U64 := (1 <<< 24) ||| (2 <<< 22) ||| (31 <<< 16)

/-- A load of `ISPENDR0`, which holds 0, into register 31. -/
theorem readsZero_iff_not_loadsNonzero_ispendr : ∃ s s' : Vmm VmmAckFn,
    step (vmmEnv .qemuArmVirtHyp) (.fault (.vmFault (0x8000000 + 0x200) loadWordZero)) s = .ok ⟨⟩ s' ∧
      ReadsZero (vmmEnv .qemuArmVirtHyp) s' := by
  have hs : Reachable (vmmEnv .qemuArmVirtHyp) (fun s op => ¬LoadsNonzero (vmmEnv .qemuArmVirtHyp) s op)
    (vgicInit (vmmEnv .qemuArmVirtHyp) (.filled 0)) := .init ⟨_, rfl⟩
  obtain ⟨_, s', hrun, -⟩ := ok_of_endsIn (x := step (vmmEnv .qemuArmVirtHyp)
      (.fault (.vmFault (0x8000000 + 0x200) loadWordZero)))
    (s := vgicInit (vmmEnv .qemuArmVirtHyp) (.filled 0)) (p := fun _ => true) (by decide +kernel)
  refine ⟨_, s', hrun, ((readsZero_iff_not_loadsNonzero rfl hs).2 _ s' hrun).mpr ?_⟩
  rintro ⟨-, -, -, reg, hreg, hne⟩
  have hzero : accessValue (vmmEnv .qemuArmVirtHyp) (vgicInit (vmmEnv .qemuArmVirtHyp) (.filled 0))
    (0x8000000 + 0x200) = some 0 := by decide +kernel
  obtain rfl := Option.some.inj (hzero ▸ hreg)
  exact hne (by decide)

/-- A load of `TYPER` into register 31 makes the next store from it write the value of `TYPER`. -/
theorem wzr_overwritten : ∃ s : Vmm VmmAckFn, Reachable (vmmEnv .qemuArmVirtHyp) (fun _ _ => True) s ∧
    ¬ReadsZero (vmmEnv .qemuArmVirtHyp) s ∧
    faultGetData (vmmEnv .qemuArmVirtHyp) s.tcb rtZero s = .ok 0xfce7 s := by
  obtain ⟨s, hs, hp⟩ := exists_reachable (vmmEnv .qemuArmVirtHyp) (fun _ _ => True) (fun s => decide (s.wzr = 0xfce7))
    [.fault (.vmFault (0x8000000 + 0x004) loadWordZero)] (by decide +kernel) (by decide +kernel)
  have hwzr := of_decide_eq_true hp
  refine ⟨s, hs, fun h => ?_, ?_⟩
  · have h0 := (readsZero_iff rfl).mp h
    rw [hwzr] at h0
    exact absurd h0 (by decide)
  · rw [faultGetData_eq rfl (by decide), rtValue, dif_neg (by decide), hwzr]

end Sel4cpVmm
