import Sel4cpVmm.Proofs.Guest

/-!
# What the result of a handler tells

A handler replies to a fault at most once. Its result says whether it did, except for two groups of
messages: a PSCI call that is handled, whose success is returned as failure, and the two system calls the
handler knows, for which it never replies.
-/

namespace Sel4cpVmm

open StopProgram

variable {φ : Type} {env : Env φ}

def replies (log : List (Event φ)) : Nat := log.countP Event.isReply

/-- From `s` to `s'` there is at most one reply, and `b` tells whether there is one. -/
def TellsResumption (s : Vmm φ) (b : Bool) (s' : Vmm φ) : Prop :=
  replies (newEvents s s') ≤ 1 ∧ (b = true ↔ replies (newEvents s s') = 1)

/-- The system call or SMC is one of those whose handler returns the wrong result. -/
def Misreported (s : Vmm φ) : Fault → Prop
  | .unknownSyscall syscall => syscall = syscallPaToIpa ∨ syscall = syscallNop
  | .vcpuFault hsr => hsrExceptionClass hsr = hsrSmc64Exception ∧ smcGetCall (s.tcb.x.get 0) = .stdService ∧
      (smcGetFunctionNumber s.tcb).toNat ∈ [psciVersion, psciCpuOn, psciMigrateInfoType, psciSystemReset, psciFeatures]
  | _ => False

/-! ### Counting replies -/

section Count

variable {s s' : Vmm φ} {b : Bool}

lemma replies_kept {l : List (Event φ)} (h : ∀ e ∈ l, e.isReturn = false) : replies l = 0 := by
  refine List.countP_eq_zero.mpr fun e he hr => ?_
  have hret := h e he
  cases e <;> simp_all [Event.isReturn, Event.isReply]

lemma replies_append (l l' : List (Event φ)) : replies (l ++ l') = replies l + replies l' := List.countP_append

lemma replies_resumed {t : Vmm φ} (h : GuestKept s t) (regs : UserContext) :
    replies (newEvents s (resumed t regs)) = 1 := by
  obtain ⟨l, hl, hret⟩ := newEvents_resumed h regs
  rw [hl, replies_append, replies_kept hret]
  rfl

lemma replies_readBack (regs : UserContext) (addr fsr : U64) (reg : U32) :
    replies (newEvents s (readBack s regs addr fsr reg)) = 1 := by
  unfold readBack loaded
  cases rtPtr fsr with
  | reg n => exact replies_resumed (refl_of GuestKept s) _
  | wzr => exact replies_resumed (t := { s with wzr := _ }) (s := { s with wzr := _ }) (refl_of GuestKept _) _

lemma tells_reply {l : List (Event φ)} (hl : s'.log = s.log ++ (l ++ [.reply])) (h : ∀ e ∈ l, e.isReturn = false) :
    TellsResumption s true s' := by
  have hone : replies (newEvents s s') = 1 := by
    rw [newEvents_eq hl, replies_append, replies_kept h]
    rfl
  exact ⟨Nat.le_of_eq hone, by simp [hone]⟩

lemma tells_one (h : replies (newEvents s s') = 1) : TellsResumption s b s' ↔ b = true := by
  simp [TellsResumption, h]

lemma tells_none (h : replies (newEvents s s') = 0) : TellsResumption s b s' ↔ b = false := by
  simp [TellsResumption, h]

lemma tells_self : TellsResumption s false s := (tells_none (by simp [newEvents, replies])).mpr rfl

end Count

/-! ### The handlers -/

section Handlers

lemma psciReturnValue_eq_none {regs : UserContext} {n : Nat} : psciReturnValue regs n = none ↔
    n ∉ [psciVersion, psciCpuOn, psciMigrateInfoType, psciSystemReset, psciFeatures] := by
  unfold psciReturnValue
  split_ifs <;> simp_all

variable (hstop : env.assertStops = true) {s : Vmm φ}

include hstop

lemma wp_handleVmFault_tells (addr fsr : U64) :
    wp (handleVmFault env addr fsr) (fun b s' => TellsResumption s b s') (fun _ _ => True) s := by
  refine wp_vmFault hstop (fun _ _ _ => trivial) (fun _ => ⟨fun reg _ _ => ?_, fun _ => ?_⟩) fun _ => ?_
  · exact (tells_one (replies_readBack _ _ _ _)).mpr rfl
  · exact (tells_one (replies_resumed (refl_of GuestKept s) _)).mpr rfl
  · refine wp_mono (kept_accessActions s) (fun _ t ht => ⟨?_, fun _ _ _ => trivial⟩) (fun _ _ _ => trivial)
    exact (tells_one (replies_resumed ht _)).mpr rfl

lemma wp_handleVppiEvent_tells (irq : U64) :
    wp (handleVppiEvent env irq) (fun b s' => TellsResumption s b s') (fun _ _ => True) s := by
  unfold handleVppiEvent vcpuAckVppi
  rw [wp_bind]
  refine wp_mono (kept_vgicInjectIrq _ _ s) (fun b t ht => ?_) (fun _ _ _ => trivial)
  obtain ⟨l, hl, hret⟩ := ht.log
  simp only [wp_ite, wp_bind, wp_get, wp_logEvent, wp_pure, wp_replyToFault, wp_cAssert_stops hstop]
  refine ⟨fun _ => ⟨fun hok => ⟨fun hne => absurd (of_decide_eq_true hok) hne, fun _ => ?_⟩, fun _ => trivial⟩,
    fun _ => ?_⟩
  · refine tells_reply (l := l ++ [.vcpuAckVppi irq.toNat]) (by simp [hl]) fun e he => ?_
    rcases List.mem_append.mp he with he | he
    · exact hret e he
    · obtain rfl := List.mem_singleton.mp he
      rfl
  · exact tells_reply (by simp [hl]) hret

lemma wp_handleVgicMaintenance_tells (idx err : Int) :
    wp (handleVgicMaintenance env idx err) (fun b s' => TellsResumption s b s') (fun _ _ => True) s := by
  unfold handleVgicMaintenance
  rw [wp_bind]
  refine wp_mono (kept_vgicMaintenanceBody _ _ s) (fun r t ht => ?_) (fun _ _ _ => trivial)
  obtain ⟨l, hl, hret⟩ := ht.log
  rw [wp_ite, wp_bind, wp_replyToFault, wp_bind, wp_cAssert_stops hstop]
  exact ⟨fun _ => tells_reply (by simp [hl]) hret, fun _ => ⟨by simp, fun _ => trivial⟩⟩

lemma wp_handleVcpuFault_tells (hsr : U64) : wp (handleVcpuFault env hsr)
    (fun b s' => TellsResumption s b s' ↔ ¬Misreported s (.vcpuFault hsr)) (fun _ _ => True) s := by
  unfold handleVcpuFault handleSmc tcbReadRegisters Misreported
  simp only [wp_ite, wp_bind, wp_get, wp_pure, wp_replyToFault, wp_cAssert_stops hstop]
  refine ⟨fun hsmc => ⟨fun _ => ?_, fun _ => trivial⟩, fun hsmc => ⟨fun _ => ?_, fun _ => ?_⟩⟩
  · cases hcall : smcGetCall s.tcb.x[0] with
    | stdService =>
      rw [wp_ite]
      refine ⟨fun _ => ?_, fun hmax => ?_⟩
      · unfold handlePsci
        cases hval : psciReturnValue s.tcb (smcGetFunctionNumber s.tcb).toNat with
        | none =>
          exact iff_of_true tells_self fun h => psciReturnValue_eq_none.mp hval h.2.2
        | some val =>
          have hmem := not_not.mp (mt psciReturnValue_eq_none.mpr (Option.ne_none_iff_exists'.mpr ⟨val, hval⟩))
          refine (wp_bind _ _ _ _ _).mpr (wp_faultAdvanceVcpu hstop (fun _ _ _ => trivial) ?_)
          rw [wp_bind, Bool.not_false, wp_cAssert_true, wp_pure, tells_one (replies_resumed (refl_of GuestKept s) _)]
          exact iff_of_false (by simp) fun h => h ⟨hsmc, hcall, hmem⟩
      · refine iff_of_true tells_self fun h => hmax ?_
        have hmem := h.2.2
        simp only [List.mem_cons, List.not_mem_nil, or_false, psciVersion, psciCpuOn, psciMigrateInfoType,
          psciSystemReset, psciFeatures] at hmem
        simp only [psciMax]
        omega
    | _ => exact iff_of_true tells_self fun h => absurd (hcall.symm.trans h.2.1) (by simp)
  · exact iff_of_true (tells_reply (l := []) rfl (by simp)) fun h => hsmc h.1
  · exact iff_of_true tells_self fun h => hsmc h.1

lemma wp_handleUnknownSyscall_tells (syscall : U64) : wp (handleUnknownSyscall env syscall)
    (fun b s' => TellsResumption s b s' ↔ ¬Misreported s (.unknownSyscall syscall)) (fun _ _ => True) s := by
  unfold handleUnknownSyscall tcbReadRegisters tcbWriteRegisters
  simp only [wp_ite, wp_bind, wp_get, wp_pure, wp_logEvent, wp_modify, wp_cAssert_stops hstop]
  have hnone : ∀ {t : Vmm φ} {regs : UserContext}, t.log = s.log ++ [.writeRegisters false regs] →
      replies (newEvents s t) = 0 := fun h => by rw [newEvents_eq h]; rfl
  refine ⟨fun _ => ⟨fun hknown => ⟨fun hok => ⟨fun _ => ?_, fun _ => trivial⟩,
    fun _ => ⟨fun _ => ?_, fun _ => trivial⟩⟩, fun hunknown => ?_⟩, fun _ => trivial⟩
  · rw [tells_none (hnone rfl)]
    exact iff_of_false (by simp) fun h => h hknown
  · rw [tells_none (hnone rfl)]
    exact iff_of_false (by simp) fun h => h hknown
  · exact iff_of_true tells_self hunknown

end Handlers

/-- For every message but a user exception, a handler that ends replies at most once and returns whether it
did, exactly when the message is not one of the misreported. -/
theorem tellsResumption_iff (hstop : env.assertStops = true) {f : Fault} (hf : f ≠ .userException) {s s' : Vmm φ}
    {b : Bool} (hrun : handleFault env f s = .ok b s') : TellsResumption s b s' ↔ ¬Misreported s f := by
  cases f with
  | userException => exact absurd rfl hf
  | vmFault addr fsr => exact iff_of_true (wp_ok (wp_handleVmFault_tells hstop addr fsr) hrun) id
  | vppiEvent irq => exact iff_of_true (wp_ok (wp_handleVppiEvent_tells hstop irq) hrun) id
  | vgicMaintenance idx err => exact iff_of_true (wp_ok (wp_handleVgicMaintenance_tells hstop _ err) hrun) id
  | vcpuFault hsr =>
    have htells := wp_ok (wp_handleVcpuFault_tells hstop hsr) hrun
    exact htells
  | unknownSyscall syscall =>
    have htells := wp_ok (wp_handleUnknownSyscall_tells hstop syscall) hrun
    exact htells

/-- A WFI is reported as it is. -/
theorem tellsResumption_iff_wfi : ∃ s', handleFault (vmmEnv .qemuArmVirtHyp) (.vcpuFault (0x1 <<< 26))
    (vgicInit (vmmEnv .qemuArmVirtHyp) (.filled 0)) = .ok true s' ∧
      TellsResumption (vgicInit (vmmEnv .qemuArmVirtHyp) (.filled 0)) true s' :=
  ⟨_, rfl, (@tellsResumption_iff VmmAckFn (vmmEnv .qemuArmVirtHyp) rfl (.vcpuFault (0x1 <<< 26)) (by simp)
    _ _ _ rfl).mpr fun h => absurd h.1 (by decide)⟩

/-- `PSCI_VERSION` resumes the guest and reports that it did not, the NOP system call the other way round. -/
theorem psci_and_nop_misreported :
    (∃ s : Vmm VmmAckFn, Reachable (vmmEnv .qemuArmVirtHyp) (fun _ _ => True) s ∧
      ∃ s', handleFault (vmmEnv .qemuArmVirtHyp) (.vcpuFault (0x17 <<< 26)) s = .ok false s' ∧
        replies (newEvents s s') = 1) ∧
    ∃ s : Vmm VmmAckFn, Reachable (vmmEnv .qemuArmVirtHyp) (fun _ _ => True) s ∧
      ∃ s', handleFault (vmmEnv .qemuArmVirtHyp) (.unknownSyscall 67) s = .ok true s' ∧
        replies (newEvents s s') = 0 :=
  ⟨⟨vgicInit (vmmEnv .qemuArmVirtHyp) (.filled 0x84000000), .init ⟨_, rfl⟩, _, rfl, rfl⟩,
    ⟨vgicInit (vmmEnv .qemuArmVirtHyp) (.filled 0), .init ⟨_, rfl⟩, _, rfl, rfl⟩⟩

end Sel4cpVmm
