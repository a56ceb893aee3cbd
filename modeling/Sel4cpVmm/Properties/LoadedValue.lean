import Sel4cpVmm.Proofs.Loads

/-!
# What a load delivers

`fault_emulate` merges the addressed lane into the old content of the destination, where a load clears
what is above it. The registers read through `base_reg` have their lane counted twice.
-/

namespace Sel4cpVmm

open StopProgram GicDistMap

variable {φ : Type} {env : Env φ}

/-- The 32-bit register of the distributor that contains an offset. -/
def distRegister (g : GicVersion) (d : GicDistMap) (offset : Nat) : Option U32 := distValue g d (offset / 4 * 4)

/-! ### The register an offset lies in -/

section Align

/-- `r'` is what is read `k` bytes below `r`, in the same register. -/
inductive SameRegister (k : Nat) : DistRead → DistRead → Prop
  | zero : SameRegister k .zero .zero
  | word (w : Nat) : SameRegister k (.word w) (.word w)
  | raw (a : Nat) : SameRegister k (.raw (a + k)) (.raw a)
  | unknown (r : DistRead) : SameRegister k .unknown r

lemma sameRegister_ite {k : Nat} {c c' : Prop} [Decidable c] [Decidable c'] {x x' y y' : DistRead} (h : c' ↔ c)
    (hx : c → SameRegister k x x') (hy : SameRegister k y y') :
    SameRegister k (if c then x else y) (if c' then x' else y') := by
  by_cases hc : c
  · rw [if_pos hc, if_pos (h.mpr hc)]
    exact hx hc
  · rw [if_neg hc, if_neg fun hc' => hc (h.mp hc')]
    exact hy

variable {g : GicVersion} {offset a b : Nat}

lemma range32_align (ha : a % 4 = 0) (hb : b % 4 = 0) : range32 (offset / 4 * 4) a b = range32 offset a b := by
  simp only [range32, Bool.and_eq_decide, decide_eq_true_eq, decide_eq_decide]
  omega

/-- The range of the identification registers ends one byte before its last register does. -/
lemma range32_align_id (h : offset ≠ 0xFFF) : range32 (offset / 4 * 4) 0xFC0 0xFFB = range32 offset 0xFC0 0xFFB := by
  simp only [range32, Bool.and_eq_decide, decide_eq_true_eq, decide_eq_decide]
  omega

lemma gicDistRegn_align (ha : a % 4 = 0) : gicDistRegn (offset / 4 * 4) a = gicDistRegn offset a := by
  unfold gicDistRegn
  omega

lemma sameRegister_word {w : Nat} (ha : a % 4 = 0) : SameRegister (offset % 4) (.word (w + gicDistRegn offset a))
    (.word (w + gicDistRegn (offset / 4 * 4) a)) := by
  rw [gicDistRegn_align ha]
  exact .word _

lemma sameRegister_raw {w : Nat} (ha : a % 4 = 0) (h : range32 offset a b = true) :
    SameRegister (offset % 4) (.raw (w + (offset - a))) (.raw (w + (offset / 4 * 4 - a))) := by
  simp only [range32, Bool.and_eq_true, decide_eq_true_eq] at h
  have heq : w + (offset - a) = w + (offset / 4 * 4 - a) + offset % 4 := by omega
  rw [heq]
  exact .raw _

lemma sameRegister_distRead : SameRegister (offset % 4) (distRead g vcpuId offset) (distRead g vcpuId (offset / 4 * 4)) := by
  unfold distRead
  by_cases hlast : offset = 0xFFF
  · subst hlast
    cases g <;> exact .unknown _
  repeat'
    first
      | exact sameRegister_word (by decide)
      | apply SameRegister.zero
      | apply SameRegister.word
      | apply SameRegister.unknown
      | (refine sameRegister_ite ?_ (fun hr => ?_) ?_)
      | rw [range32_align_id hlast]
      | rw [range32_align (by decide) (by decide)]
  all_goals exact sameRegister_raw (by decide) hr.2

end Align

/-! ### The value loaded -/

/-- Where a register is read through `base_reg`, the addressed bytes equal those as far again from its first byte. -/
def SameLanes (g : GicVersion) (d : GicDistMap) (offset bytes : Nat) : Prop :=
  ∀ a, distRead g vcpuId offset = .raw a → ∀ k < bytes, d.byte (a + offset % 4 + k) = d.byte (a + k)

section Load

variable {d : GicDistMap} {addr fsr : U64} {a : Nat}

lemma getLsbD_load32 {j : Nat} (hj : j < 32) : (d.load32 a).getLsbD j = (d.byte (a + j / 8)).getLsbD (j % 8) := by
  unfold load32
  simp only [BitVec.getLsbD_append]
  split_ifs with h0 h1 h2
  · rw [Nat.div_eq_of_lt h0, Nat.mod_eq_of_lt h0, Nat.add_zero]
  · rw [show j / 8 = 1 by omega, show j % 8 = j - 8 by omega]
  · rw [show j / 8 = 2 by omega, show j % 8 = j - 8 - 8 by omega]
  · rw [show j / 8 = 3 by omega, show j % 8 = j - 8 - 8 - 8 by omega]

variable (hok : AccessOk addr fsr) (hwidth : accessWidth fsr ≠ .doubleword)

include hok hwidth

lemma zeroExtendedLane_load32_iff {b : Nat} :
    zeroExtendedLane addr fsr (d.load32 a) = zeroExtendedLane addr fsr (d.load32 b) ↔
      ∀ k < (accessWidth fsr).bytes, d.byte (a + addr.toNat % 4 + k) = d.byte (b + addr.toNat % 4 + k) := by
  have hle := lane_le hok hwidth
  have hbit : ∀ c j, j < 8 * (accessWidth fsr).bytes → (d.load32 c).getLsbD (8 * (addr.toNat % 4) + j) =
      (d.byte (c + addr.toNat % 4 + j / 8)).getLsbD (j % 8) := by
    intro c j hj
    rw [getLsbD_load32 (by omega), show (8 * (addr.toNat % 4) + j) / 8 = addr.toNat % 4 + j / 8 by omega,
      show (8 * (addr.toNat % 4) + j) % 8 = j % 8 by omega, Nat.add_assoc]
  constructor
  · intro h k hk
    apply BitVec.eq_of_getLsbD_eq
    intro i hi
    have hj : 8 * k + i < 8 * (accessWidth fsr).bytes := by omega
    have hlane := congrArg (fun v => v.getLsbD (8 * k + i)) h
    rw [getLsbD_zeroExtendedLane (by omega), getLsbD_zeroExtendedLane (by omega), decide_eq_true hj, Bool.true_and,
      Bool.true_and, hbit _ _ hj, hbit _ _ hj] at hlane
    rwa [show (8 * k + i) / 8 = k by omega, show (8 * k + i) % 8 = i by omega] at hlane
  · intro h
    apply BitVec.eq_of_getLsbD_eq
    intro j hj
    rw [getLsbD_zeroExtendedLane hj, getLsbD_zeroExtendedLane hj]
    by_cases hjb : j < 8 * (accessWidth fsr).bytes
    · rw [hbit _ _ hjb, hbit _ _ hjb, h (j / 8) (by omega)]
    · rw [decide_eq_false hjb, Bool.false_and, Bool.false_and]

/-- A read of a part of a register finds its lane, if the bytes read through `base_reg` are the same. -/
lemma lane_of_distValue {g : GicVersion} {offset : Nat} (hlane : offset % 4 = addr.toNat % 4) {reg : U32}
    (hreg : distValue g d offset = some reg) : ∃ register, distRegister g d offset = some register ∧
      (zeroExtendedLane addr fsr reg = zeroExtendedLane addr fsr register ↔
        SameLanes g d offset (accessWidth fsr).bytes) := by
  have hsame := @sameRegister_distRead g offset
  unfold distRegister
  unfold distValue at hreg ⊢
  unfold SameLanes
  cases hr : distRead g vcpuId offset with
  | unknown =>
    rw [hr] at hreg
    exact absurd hreg (by simp)
  | zero =>
    rw [hr] at hreg hsame
    obtain rfl := Option.some.inj hreg
    generalize distRead g vcpuId (offset / 4 * 4) = r at hsame ⊢
    cases hsame
    exact ⟨_, rfl, by simp⟩
  | word w =>
    rw [hr] at hreg hsame
    obtain rfl := Option.some.inj hreg
    generalize distRead g vcpuId (offset / 4 * 4) = r at hsame ⊢
    cases hsame
    exact ⟨_, rfl, by simp⟩
  | raw b =>
    rw [hr] at hreg hsame
    obtain rfl := Option.some.inj hreg
    generalize distRead g vcpuId (offset / 4 * 4) = r at hsame ⊢
    cases hsame with
    | raw a =>
      refine ⟨_, rfl, ?_⟩
      rw [zeroExtendedLane_load32_iff hok hwidth]
      simp only [DistRead.raw.injEq, forall_eq', hlane]

end Load

/-- The load ends with the lane it addresses, zero-extended, in the destination. -/
def Delivers (env : Env φ) (s : Vmm φ) (addr fsr : U64) (n : Fin 31) : Prop :=
  ∃ register s', distRegister env.board.gic s.dist (addr - env.board.gicDistPaddr).toNat = some register ∧
    handleFault env (.vmFault addr fsr) s = .ok true s' ∧ s'.tcb.x.get n = zeroExtendedLane addr fsr register

section Delivers

variable (hstop : env.assertStops = true) (htcb : TcbAccepts env) {s : Vmm φ} {addr fsr : U64} {n : Fin 31}
  (hin : InDist env addr) (hread : faultIsRead fsr = true) (hok : AccessOk addr fsr)

include hstop htcb hin hread hok

/-- A load narrower than a doubleword from a register that `vgic_dist_reg_read` recognises delivers its lane
exactly when the destination held nothing above the access and, for a register read through `base_reg`, the bytes
counted twice are the same. -/
theorem delivers_iff (hwidth : accessWidth fsr ≠ .doubleword) (hrt : (hsrSyndromeRt fsr).toNat = n)
    (hknown : (distValue env.board.gic s.dist (addr - env.board.gicDistPaddr).toNat).isSome) :
    Delivers env s addr fsr n ↔ s.tcb.x.get n &&& ~~~(accessWidth fsr).mask = 0 ∧
      SameLanes env.board.gic s.dist (addr - env.board.gicDistPaddr).toNat (accessWidth fsr).bytes := by
  obtain ⟨reg, hreg⟩ := Option.isSome_iff_exists.mp hknown
  obtain ⟨register, hregister, hlanes⟩ := lane_of_distValue hok hwidth (lane_offset hin) hreg
  obtain ⟨s', hrun, hx⟩ := handleFault_load hstop htcb hin hread hok hrt hreg
  rw [emulatedRead_eq hok hwidth] at hx
  have hdelivers : Delivers env s addr fsr n ↔ s'.tcb.x.get n = zeroExtendedLane addr fsr register := by
    constructor
    · rintro ⟨register', t, hregister', hrun', hx'⟩
      obtain rfl := Option.some.inj (hregister.symm.trans hregister')
      obtain ⟨-, rfl⟩ := EStateM.Result.ok.inj (hrun.symm.trans hrun')
      exact hx'
    · exact fun h => ⟨register, s', hregister, hrun, h⟩
  rw [hdelivers, hx, ← hlanes]
  exact WordBits.merge_eq_iff

end Delivers

/-- The syndrome of a byte load into `x0`. -/
def loadByte : U64 := 1 <<< 24

lemma accessOk_loadByte (addr : U64) : AccessOk addr loadByte := ⟨by decide, BitVec.and_zero⟩

/-- A byte of `TYPER` loaded into a register that held 0. -/
theorem delivers_iff_clear :
    Delivers (vmmEnv .qemuArmVirtHyp) (vgicInit (vmmEnv .qemuArmVirtHyp) (.filled 0)) (0x8000000 + 0x005) loadByte 0 := by
  refine (delivers_iff rfl (vmmEnv_tcb _) (by decide) (by decide) (accessOk_loadByte _) (by decide) (by decide)
    (by decide)).mpr ⟨by decide, fun a ha => ?_⟩
  change DistRead.word typer = .raw a at ha
  exact absurd ha (by simp)

/-- The same load leaves the upper bits of a register that held ones. -/
theorem byte_load_keeps_upper_bits : ∃ s : Vmm VmmAckFn, Reachable (vmmEnv .qemuArmVirtHyp) (fun _ _ => True) s ∧
    ¬Delivers (vmmEnv .qemuArmVirtHyp) s (0x8000000 + 0x005) loadByte 0 := by
  have hs : Reachable (vmmEnv .qemuArmVirtHyp) (fun _ _ => True)
    (vgicInit (vmmEnv .qemuArmVirtHyp) (.filled (BitVec.allOnes 64))) := .init ⟨_, rfl⟩
  have hreg : distValue (vmmEnv .qemuArmVirtHyp).board.gic
      (vgicInit (vmmEnv .qemuArmVirtHyp) (.filled (BitVec.allOnes 64))).dist
      (0x8000000 + 0x005 - (vmmEnv .qemuArmVirtHyp).board.gicDistPaddr : U64).toNat = some 0xfce7 := by decide +kernel
  obtain ⟨t, hload, hx⟩ := handleFault_load (n := 0) rfl (vmmEnv_tcb _) (by decide) (by decide)
    (accessOk_loadByte _) (by decide) hreg
  refine ⟨_, hs, ?_⟩
  rintro ⟨register, s', hregister, hrun, hlane⟩
  obtain ⟨-, rfl⟩ := EStateM.Result.ok.inj (hload.symm.trans hrun)
  change distValue _ _ _ = _ at hregister
  obtain rfl : (0xfce7 : U32) = register := Option.some.inj (hreg.symm.trans hregister)
  rw [hx] at hlane
  exact absurd hlane (by decide +kernel)

end Sel4cpVmm
