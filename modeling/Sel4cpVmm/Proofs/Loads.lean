import Sel4cpVmm.Proofs.Access

/-!
# Loads from the distributor

What a trapped load puts into its destination: the addressed lane of the register read, merged into the
old content.
-/

namespace Sel4cpVmm

open StopProgram

variable {φ : Type} {env : Env φ}

/-- The lane of a register that an access addresses, zero-extended. -/
def zeroExtendedLane (addr fsr : U64) (reg : U32) : U64 :=
  (reg >>> laneShift addr).setWidth 64 &&& (accessWidth fsr).mask

section Lane

variable {addr fsr : U64} {reg : U32} {j : Nat}

lemma laneShift_eq (addr : U64) : laneShift addr = 8 * (addr.toNat % 4) := by
  have hlow : (addr &&& 0x3).toNat = addr.toNat % 4 := by
    rw [BitVec.toNat_and]
    exact Nat.and_two_pow_sub_one_eq_mod addr.toNat 2
  rw [laneShift, BitVec.toNat_mul, hlow]
  change addr.toNat % 4 * 8 % 2 ^ 64 = _
  omega

lemma getLsbD_mask (w : FaultWidth) : w.mask.getLsbD j = decide (j < 8 * w.bytes) := by
  have hmask : w.mask = BitVec.ofNat 64 (2 ^ (8 * w.bytes) - 1) := by cases w <;> rfl
  have hle : 8 * w.bytes ≤ 64 := by cases w <;> decide
  rw [hmask, BitVec.getLsbD_ofNat, Nat.testBit_two_pow_sub_one]
  simp only [Bool.and_eq_decide, decide_eq_true_eq, decide_eq_decide]
  omega

lemma getLsbD_dataMask (hj : j < 64) : (dataMask addr fsr).getLsbD j =
    decide (8 * (addr.toNat % 4) ≤ j ∧ j < 8 * (addr.toNat % 4 + (accessWidth fsr).bytes)) := by
  rw [dataMask, BitVec.getLsbD_shiftLeft, laneShift_eq, getLsbD_mask]
  simp only [Bool.and_eq_decide, decide_eq_true_eq, decide_eq_decide, Bool.not_eq_true', decide_eq_false_iff_not]
  omega

lemma lane_aligned (hok : AccessOk addr fsr) (hwidth : accessWidth fsr ≠ .doubleword) :
    addr.toNat % (accessWidth fsr).bytes = 0 := by
  have hal := hok.2
  cases hw : accessWidth fsr with
  | doubleword => exact absurd hw hwidth
  | word =>
    rw [hw] at hal
    exact aligned_iff.mp hal
  | halfword =>
    rw [hw] at hal
    have hand := congrArg BitVec.toNat hal
    rw [FaultWidth.misaligned, BitVec.toNat_and] at hand
    exact (Nat.and_two_pow_sub_one_eq_mod addr.toNat 1).symm.trans hand
  | byte => exact Nat.mod_one _

lemma lane_le (hok : AccessOk addr fsr) (hwidth : accessWidth fsr ≠ .doubleword) :
    addr.toNat % 4 + (accessWidth fsr).bytes ≤ 4 := by
  have hal := lane_aligned hok hwidth
  cases hw : accessWidth fsr with
  | doubleword => exact absurd hw hwidth
  | _ =>
    rw [hw] at hal
    simp only [FaultWidth.bytes] at hal ⊢
    omega

lemma bytes_le_lane (hok : AccessOk addr fsr) (hwidth : accessWidth fsr ≠ .doubleword) (hlane : addr.toNat % 4 ≠ 0) :
    (accessWidth fsr).bytes ≤ addr.toNat % 4 := by
  have hal := lane_aligned hok hwidth
  cases hw : accessWidth fsr with
  | doubleword => exact absurd hw hwidth
  | _ =>
    rw [hw] at hal
    simp only [FaultWidth.bytes] at hal ⊢
    omega

lemma dataMask_shift (hok : AccessOk addr fsr) (hwidth : accessWidth fsr ≠ .doubleword) :
    dataMask addr fsr >>> laneShift addr = (accessWidth fsr).mask := by
  have hle := lane_le hok hwidth
  apply BitVec.eq_of_getLsbD_eq
  intro j hj
  rw [BitVec.getLsbD_ushiftRight, laneShift_eq, getLsbD_mask]
  by_cases h64 : 8 * (addr.toNat % 4) + j < 64
  · rw [getLsbD_dataMask h64]
    simp only [decide_eq_decide]
    omega
  · rw [BitVec.getLsbD_of_ge _ _ (Nat.le_of_not_lt h64), eq_comm, decide_eq_false_iff_not]
    omega

/-- The masked register that `fault_emulate` shifts down is the lane addressed. -/
lemma shifted_eq (hok : AccessOk addr fsr) (hwidth : accessWidth fsr ≠ .doubleword) :
    ((reg &&& (dataMask addr fsr).setWidth 32).setWidth 64 &&& dataMask addr fsr) >>> laneShift addr =
      zeroExtendedLane addr fsr reg := by
  have hle := lane_le hok hwidth
  apply BitVec.eq_of_getLsbD_eq
  intro j hj
  simp only [zeroExtendedLane, BitVec.getLsbD_ushiftRight, BitVec.getLsbD_and, BitVec.getLsbD_setWidth, laneShift_eq,
    getLsbD_mask]
  by_cases hjb : j < 8 * (accessWidth fsr).bytes
  · have h32 : 8 * (addr.toNat % 4) + j < 32 := by omega
    have h64 : 8 * (addr.toNat % 4) + j < 64 := by omega
    have hmask : (dataMask addr fsr).getLsbD (8 * (addr.toNat % 4) + j) = true := by
      rw [getLsbD_dataMask h64]
      exact decide_eq_true ⟨by omega, by omega⟩
    simp [hjb, h32, h64, hj, hmask]
  · by_cases h64 : 8 * (addr.toNat % 4) + j < 64
    · have hmask : (dataMask addr fsr).getLsbD (8 * (addr.toNat % 4) + j) = false := by
        rw [getLsbD_dataMask h64]
        exact decide_eq_false (by omega)
      simp [hjb, hmask]
    · simp [hjb, h64]

lemma getLsbD_zeroExtendedLane {reg : U32} {j : Nat} (hj : j < 64) : (zeroExtendedLane addr fsr reg).getLsbD j =
    (decide (j < 8 * (accessWidth fsr).bytes) && reg.getLsbD (8 * (addr.toNat % 4) + j)) := by
  rw [zeroExtendedLane, BitVec.getLsbD_and, BitVec.getLsbD_setWidth, BitVec.getLsbD_ushiftRight, laneShift_eq,
    getLsbD_mask, decide_eq_true hj, Bool.true_and, Bool.and_comm]

lemma emulatedRead_eq (hok : AccessOk addr fsr) (hwidth : accessWidth fsr ≠ .doubleword) (x : U64) (reg : U32) :
    emulatedRead addr fsr x ((reg &&& (dataMask addr fsr).setWidth 32).setWidth 64) =
      (x &&& ~~~(accessWidth fsr).mask) ||| zeroExtendedLane addr fsr reg := by
  rw [emulatedRead, dataMask_shift hok hwidth, shifted_eq hok hwidth]

end Lane

section Load

lemma lane_offset {addr : U64} (hin : InDist env addr) :
    (addr - env.board.gicDistPaddr).toNat % 4 = addr.toNat % 4 := by
  have hbase : env.board.gicDistPaddr.toNat % 4 = 0 := by cases env.board <;> rfl
  rw [BitVec.toNat_sub_of_le hin.le]
  have hle := BitVec.le_def.mp hin.le
  omega

variable (hstop : env.assertStops = true) (htcb : TcbAccepts env) {s : Vmm φ} {addr fsr : U64} {n : Fin 31}
  (hin : InDist env addr) (hread : faultIsRead fsr = true) (hok : AccessOk addr fsr)

include hstop htcb hin hread hok

/-- The load of a register that is recognised merges the value read into the destination. -/
lemma handleFault_load (hrt : (hsrSyndromeRt fsr).toNat = n) {reg : U32}
    (hreg : distValue env.board.gic s.dist (addr - env.board.gicDistPaddr).toNat = some reg) :
    ∃ s', handleFault env (.vmFault addr fsr) s = .ok true s' ∧ s'.tcb.x.get n = emulatedRead addr fsr (s.tcb.x.get n)
      ((reg &&& (dataMask addr fsr).setWidth 32).setWidth 64) := by
  have hvalue : accessValue env s addr = some reg := by rw [accessValue, if_pos hin, hreg]
  have hlt : (hsrSyndromeRt fsr).toNat < 31 := hrt ▸ n.isLt
  have hrun : wp (handleVmFault env addr fsr) (fun b s' => b = true ∧ s'.tcb.x.get n = emulatedRead addr fsr (s.tcb.x.get n)
      ((reg &&& (dataMask addr fsr).setWidth 32).setWidth 64)) (fun _ _ => False) s := by
    refine wp_vmFault hstop (fun h => absurd ⟨htcb, hok, hin⟩ h) (fun _ => ⟨fun reg' hreg' _ => ⟨rfl, ?_⟩, fun hnone => ?_⟩)
      fun hwrite => ?_
    · obtain rfl : reg = reg' := Option.some.inj (hvalue ▸ hreg')
      have hptr : rtPtr fsr = .reg n := by
        rw [rtPtr, dif_pos hlt]
        exact congrArg RtPtr.reg (Fin.ext hrt)
      have hval : rtValue s.tcb fsr s.wzr = s.tcb.x.get n := by
        rw [rtValue, dif_pos hlt]
        simp only [hrt]
        rfl
      rw [readBack, loaded, hptr, hval]
      exact Vector.getElem_set_self n.isLt
    · exact absurd (hvalue ▸ hnone) (by simp)
    · exact absurd hwrite (by simpa [faultIsRead] using hread)
  obtain ⟨b, s', hs', rfl, hx⟩ := ok_of_wp hrun
  exact ⟨s', hs', hx⟩

end Load

/-! ### Word loads -/

/-- An aligned word load from an offset delivers `v`, whatever its destination. -/
def WordReads (env : Env φ) (s : Vmm φ) (offset : Nat) (v : U32) : Prop :=
  ∀ fsr (n : Fin 31), IsWordAccess fsr → faultIsRead fsr = true → (hsrSyndromeRt fsr).toNat = n →
    ∃ s', handleFault env (.vmFault (env.board.gicDistPaddr + BitVec.ofNat 64 offset) fsr) s = .ok true s' ∧
      (s'.tcb.x.get n).setWidth 32 = v

lemma wordReads_word (hstop : env.assertStops = true) (htcb : TcbAccepts env) {s : Vmm φ} {offset w : Nat}
    (hlt : offset < 0x1000) (h4 : offset % 4 = 0) (hfound : distRead env.board.gic vcpuId offset = .word w) {v : U32} :
    WordReads env s offset v ↔ v = s.dist.word w := by
  have hvalue : distValue env.board.gic s.dist
      (env.board.gicDistPaddr + BitVec.ofNat 64 offset - env.board.gicDistPaddr).toNat = some (s.dist.word w) := by
    rw [sub_firstPage hlt, distValue, hfound]
  have haligned := aligned_firstPage hlt env.board h4
  have hload : ∀ fsr (m : Fin 31), IsWordAccess fsr → faultIsRead fsr = true → (hsrSyndromeRt fsr).toNat = m →
      ∃ s', handleFault env (.vmFault (env.board.gicDistPaddr + BitVec.ofNat 64 offset) fsr) s = .ok true s' ∧
        (s'.tcb.x.get m).setWidth 32 = s.dist.word w := by
    intro fsr m hword hread hrt
    have hok := hword.ok haligned
    obtain ⟨s', hrun, hx⟩ := handleFault_load hstop htcb (inDist_of_lt hlt) hread hok hrt hvalue
    refine ⟨s', hrun, ?_⟩
    rw [hx, emulatedRead_eq hok (by simp [hword.width]), zeroExtendedLane, hword.width, laneShift_of_aligned haligned]
    apply BitVec.eq_of_getLsbD_eq
    intro j hj
    have hmask : FaultWidth.word.mask.getLsbD j = true := by
      rw [getLsbD_mask]
      exact decide_eq_true (Nat.lt_of_lt_of_le hj (by decide))
    simp only [BitVec.getLsbD_setWidth, BitVec.getLsbD_or, BitVec.getLsbD_and, BitVec.getLsbD_not,
      BitVec.ushiftRight_zero, hmask, hj, decide_true, Bool.not_true, Bool.and_false, Bool.false_or, Bool.and_true,
      Bool.true_and]
    simp [Nat.lt_of_lt_of_le hj]
  constructor
  · intro h
    obtain ⟨s', hrun, hx⟩ := h loadWord 0 ⟨by decide, by decide⟩ (by decide) (by decide)
    obtain ⟨t, hrun', hx'⟩ := hload loadWord 0 ⟨by decide, by decide⟩ (by decide) (by decide)
    obtain ⟨-, rfl⟩ := EStateM.Result.ok.inj (hrun.symm.trans hrun')
    exact hx.symm.trans hx'
  · rintro rfl
    exact hload

end Sel4cpVmm
