import Sel4cpVmm.Properties.LoadedValue
import Sel4cpVmm.Proofs.DistRuns

/-!
# Loads of a part of a register

A byte or halfword is cut out of the word that a load of the whole register finds, except where the register is read
through `base_reg`: there the word begins at the byte addressed, and the lane is cut out of it once more.
-/

namespace Sel4cpVmm

open StopProgram GicDistMap

variable {φ : Type} {env : Env φ}

/-- `sizeof(struct gic_dist_map)` -/
def distMapSize : GicVersion → Nat
  | .v2 => 0x1010
  | .v3 => 0x10000

/-- The read stays inside `struct gic_dist_map`. -/
def DistRead.InBounds (g : GicVersion) : DistRead → Prop
  | .word w => 4 * w + 4 ≤ distMapSize g
  | .raw a => a + 4 ≤ distMapSize g
  | .zero | .unknown => True

/-- The load reads inside the map, and ends with the bytes it addresses, as a load of the whole register finds them, in
the low bits of its destination. -/
structure SliceRead (env : Env φ) (s : Vmm φ) (addr fsr : U64) (n : Fin 31) : Prop where
  inBounds : (distRead env.board.gic vcpuId (addr - env.board.gicDistPaddr).toNat).InBounds env.board.gic
  slice : ∃ register, distRegister env.board.gic s.dist (addr - env.board.gicDistPaddr).toNat = some register ∧
    ∀ regs, ∃ s', handleFault env (.vmFault addr fsr) { s with tcb := regs } = .ok true s' ∧
      s'.tcb.x.get n &&& (accessWidth fsr).mask = zeroExtendedLane addr fsr register

/-- The read finds its register, and where it does so through `base_reg`, the word read is in the map and the bytes that
are counted twice are the same. -/
def DistRead.Sliced (g : GicVersion) (d : GicDistMap) (lane bytes : Nat) : DistRead → Prop
  | .unknown => False
  | .raw a => a + 4 ≤ distMapSize g ∧ ∀ k < bytes, d.byte (a + lane + k) = d.byte (a + k)
  | .zero | .word _ => True

instance (g : GicVersion) (d : GicDistMap) (lane bytes : Nat) (r : DistRead) : Decidable (r.Sliced g d lane bytes) :=
  match r with
  | .unknown => .isFalse id
  | .raw _ => inferInstanceAs (Decidable (_ ∧ _))
  | .zero => .isTrue trivial
  | .word _ => .isTrue trivial

/-! ### Which offsets are recognised, and where their words are -/

section Offsets

variable {g : GicVersion} {offset : Nat}

lemma unknown_ite {c c' : Prop} [Decidable c] [Decidable c'] {x x' y y' : DistRead} (h : c' ↔ c) (hx : x ≠ .unknown)
    (hx' : x' ≠ .unknown) (hy : y' = .unknown ↔ y = .unknown) :
    (if c' then x' else y') = .unknown ↔ (if c then x else y) = .unknown := by
  by_cases hc : c
  · rw [if_pos hc, if_pos (h.mpr hc)]
    exact iff_of_false hx' hx
  · rwa [if_neg hc, if_neg fun hc' => hc (h.mp hc')]

/-- Only the last byte of the map of GICv2 is not found although its register is. -/
lemma distRead_unknown_align (h : offset ≠ 0xFFF) :
    distRead g vcpuId (offset / 4 * 4) = .unknown ↔ distRead g vcpuId offset = .unknown := by
  unfold distRead
  repeat'
    first
      | exact Iff.rfl
      | (refine unknown_ite ?_ (by simp) (by simp) ?_)
      | rw [range32_align_id h]
      | rw [range32_align (by decide) (by decide)]

lemma word_le {w0 r e : Nat} (hr : range32 offset r e = true) (hle : 4 * (w0 + (e + 3 - r) / 4) + 4 ≤ 0x1000) :
    4 * (w0 + gicDistRegn offset r) + 4 ≤ 0x1000 := by
  simp only [range32, Bool.and_eq_true, decide_eq_true_eq] at hr
  have hregn : gicDistRegn offset r ≤ (e + 3 - r) / 4 := Nat.div_le_div_right (by omega)
  omega

lemma inBounds_word {w : Nat} (h : distRead g vcpuId offset = .word w) : 4 * w + 4 ≤ distMapSize g := by
  have hsize : 0x1000 ≤ distMapSize g := by cases g <;> decide
  refine Nat.le_trans ?_ hsize
  unfold distRead at h
  repeat' (replace h := ite_eq_iff.mp h; rcases h with ⟨hr, h⟩ | ⟨-, h⟩)
  all_goals try contradiction
  all_goals
    obtain rfl := DistRead.word.inj h
    first
      | exact word_le hr (by decide)
      | decide

end Offsets

/-! ### When a slice is read -/

section Slice

lemma distValue_eq_none {g : GicVersion} {d : GicDistMap} {offset : Nat} :
    distValue g d offset = none ↔ distRead g vcpuId offset = .unknown := by
  unfold distValue
  cases distRead g vcpuId offset <;> simp

/-- A register that is found is sliced when it is read in the map and its lanes are the same. -/
lemma sliced_iff {g : GicVersion} {d : GicDistMap} {offset lane bytes : Nat} (hlane : offset % 4 = lane)
    (hfound : distRead g vcpuId offset ≠ .unknown) : (distRead g vcpuId offset).Sliced g d lane bytes ↔
      (distRead g vcpuId offset).InBounds g ∧ SameLanes g d offset bytes := by
  unfold SameLanes
  cases hr : distRead g vcpuId offset with
  | unknown => exact absurd hr hfound
  | zero => simp [DistRead.Sliced, DistRead.InBounds]
  | word w => simp [DistRead.Sliced, DistRead.InBounds, inBounds_word hr]
  | raw a => simp [DistRead.Sliced, DistRead.InBounds, hlane]

variable {s : Vmm φ} {addr fsr : U64} {n : Fin 31} (hok : AccessOk addr fsr) (hwidth : accessWidth fsr ≠ .doubleword)

lemma lane_merged (x : U64) (reg : U32) : ((x &&& ~~~(accessWidth fsr).mask) ||| zeroExtendedLane addr fsr reg) &&&
    (accessWidth fsr).mask = zeroExtendedLane addr fsr reg := by
  apply BitVec.eq_of_getLsbD_eq
  intro j hj
  simp only [BitVec.getLsbD_and, BitVec.getLsbD_or, BitVec.getLsbD_not, hj, decide_true, Bool.true_and,
    getLsbD_zeroExtendedLane hj, getLsbD_mask]
  by_cases hjb : j < 8 * (accessWidth fsr).bytes <;> simp [hjb]

variable (hstop : env.assertStops = true) (htcb : TcbAccepts env) (hin : InDist env addr) (hread : faultIsRead fsr = true)

include hok hstop htcb hin hread

lemma not_sliceRead_of_none (hnone : distValue env.board.gic s.dist (addr - env.board.gicDistPaddr).toNat = none) :
    ¬SliceRead env s addr fsr n := by
  intro h
  obtain ⟨register, -, hslice⟩ := h.slice
  have hkept : ∀ x : U64, x &&& (accessWidth fsr).mask = zeroExtendedLane addr fsr register := by
    intro x
    have hvalue : accessValue env { s with tcb := .filled x } addr = none := by rw [accessValue, if_pos hin, hnone]
    have hwp : wp (handleVmFault env addr fsr) (fun _ t => t.tcb.x.get n = x) (fun _ _ => False) { s with tcb := .filled x } := by
      refine wp_vmFault hstop (fun h => absurd ⟨htcb, hok, hin⟩ h) (fun _ => ⟨fun reg hreg _ => ?_, fun _ => ?_⟩)
        fun hwrite => absurd hread (by simp [faultIsRead, hwrite])
      · exact absurd (hvalue.symm.trans hreg) (by simp)
      · exact Vector.getElem_replicate _
    obtain ⟨s', hrun, hx⟩ := hslice (.filled x)
    have hsame := wp_ok hwp hrun
    rwa [hsame] at hx
  have hzero := (hkept 0).trans (hkept (BitVec.allOnes 64)).symm
  rw [BitVec.allOnes_and] at hzero
  cases hw : accessWidth fsr <;> rw [hw] at hzero <;> exact absurd hzero (by decide)

variable (hrt : (hsrSyndromeRt fsr).toNat = n)
  (hknown : (distRegister env.board.gic s.dist (addr - env.board.gicDistPaddr).toNat).isSome)

include hwidth hrt hknown

/-- A slice is read exactly when its register is found and read in the map, with its lane counted once or in vain. -/
lemma sliceRead_iff : SliceRead env s addr fsr n ↔
    (distRead env.board.gic vcpuId (addr - env.board.gicDistPaddr).toNat).Sliced env.board.gic s.dist
      (addr.toNat % 4) (accessWidth fsr).bytes := by
  have hlane := lane_offset hin
  obtain ⟨register, hregister⟩ := Option.isSome_iff_exists.mp hknown
  cases hvalue : distValue env.board.gic s.dist (addr - env.board.gicDistPaddr).toNat with
  | none =>
    rw [distValue_eq_none.mp hvalue]
    exact iff_of_false (fun h => not_sliceRead_of_none hok hstop htcb hin hread hvalue h) id
  | some reg =>
    obtain ⟨register', hregister', hlanes⟩ := lane_of_distValue hok hwidth hlane hvalue
    obtain rfl := Option.some.inj (hregister.symm.trans hregister')
    have hload : ∀ regs, ∃ s', handleFault env (.vmFault addr fsr) { s with tcb := regs } = .ok true s' ∧
        s'.tcb.x.get n &&& (accessWidth fsr).mask = zeroExtendedLane addr fsr reg := by
      intro regs
      obtain ⟨s', hrun, hx⟩ := handleFault_load (s := { s with tcb := regs }) hstop htcb hin hread hok hrt hvalue
      refine ⟨s', hrun, ?_⟩
      rw [hx, emulatedRead_eq hok hwidth, lane_merged]
    rw [sliced_iff hlane fun h => by rw [distValue_eq_none.mpr h] at hvalue; exact absurd hvalue (by simp), ← hlanes]
    constructor
    · rintro ⟨hbounds, register', hregister', hslice⟩
      obtain rfl := Option.some.inj (hregister.symm.trans hregister')
      obtain ⟨s', hrun, hx⟩ := hload s.tcb
      obtain ⟨t, hrun', hx'⟩ := hslice s.tcb
      obtain ⟨-, rfl⟩ := EStateM.Result.ok.inj (hrun.symm.trans hrun')
      exact ⟨hbounds, hx.symm.trans hx'⟩
    · rintro ⟨hbounds, heq⟩
      exact ⟨hbounds, register, hregister, heq ▸ hload⟩

end Slice

/-! ### The registers read through `base_reg` over a run -/

/-- The offsets of the bytes and halfwords that are not the slice of their register: those whose register is followed by
one that is not 0, and the last of the map. -/
def misreadOffsets : GicVersion → List Nat
  | .v2 => [0xFCE, 0xFDE, 0xFE2, 0xFE6, 0xFEE, 0xFF2, 0xFF6, 0xFFA, 0xFFD, 0xFFE, 0xFFF]
  | .v3 => [0xFFDE, 0xFFE2, 0xFFE6, 0xFFEE, 0xFFF2, 0xFFF6, 0xFFFA, 0xFFFD, 0xFFFE, 0xFFFF]

/-- The words behind the configuration registers are as the reset left them. -/
def TailReset (g : GicVersion) (d : GicDistMap) : Prop := ∀ w, spi ≤ w → d.word w = (vgicDistReset g ⟨fun _ => 0⟩).word w

section Runs

variable {g : GicVersion} {d : GicDistMap} {offset a : Nat}

lemma tailReset_setMirrored {w0 w w0' w' : Nat} {i : Int} {b : Bool} (hi : i < irqLimit) (hw : w0 ≤ w) (hw' : w0' ≤ w')
    (hlt : w + 30 < spi) (hlt' : w' + 30 < spi) (h : TailReset g d) :
    TailReset g (setMirrored (bankWord w0 w i) (bankWord w0' w' i) d i b) := by
  intro k hk
  rw [word_setMirrored (Nat.ne_of_gt (Nat.lt_of_lt_of_le (bankWord_lt hi hw hlt) hk))
    (Nat.ne_of_gt (Nat.lt_of_lt_of_le (bankWord_lt hi hw' hlt') hk))]
  exact h k hk

lemma tailReset_set {w : Nat} (hw : w < spi) (x : U32) (h : TailReset g d) : TailReset g (d.set w x) := by
  intro k hk
  rw [word_set, if_neg (Nat.ne_of_gt (Nat.lt_of_lt_of_le hw hk))]
  exact h k hk

lemma tailReset_kept (g : GicVersion) : KeptByDist (fun i => i < irqLimit) g (TailReset g) where
  setPending d i b hi h := by
    rw [setPending_eq]
    exact tailReset_setMirrored hi (by decide) (by decide) (by decide) (by decide) h
  enable d i hi h := by
    rw [setEnable_eq]
    exact tailReset_setMirrored hi.2 (by decide) (by decide) (by decide) (by decide) h
  disable d i hi h := by
    rw [setEnable_eq]
    exact tailReset_setMirrored hi.2 (by decide) (by decide) (by decide) (by decide) h
  clearEnable _ d i hi h := by
    rw [setEnable_eq]
    exact tailReset_setMirrored (Int.lt_trans hi.2 (by decide)) (by decide) (by decide) (by decide) (by decide) h
  store d w x hw h := tailReset_set (Nat.lt_trans hw.lt (by decide)) x h
  ctlr d x h := tailReset_set (by decide) x h

lemma raw_cases (h : distRead g vcpuId offset = .raw a) :
    (g = .v2 ∧ 0xD00 ≤ offset ∧ offset ≤ 0xDE7 ∧ a = offset) ∨ (g = .v2 ∧ 0xFC0 ≤ offset ∧ offset ≤ 0xFFE ∧ a = offset + 0x10) ∨
      (g = .v3 ∧ 0x6100 ≤ offset ∧ offset ≤ 0x7F03 ∧ a = offset) ∨ (g = .v3 ∧ 0xFFD0 ≤ offset ∧ offset ≤ 0xFFFF ∧ a = offset) := by
  unfold distRead at h
  repeat' (replace h := ite_eq_iff.mp h; rcases h with ⟨hr, h⟩ | ⟨-, h⟩)
  all_goals try contradiction
  all_goals
    obtain rfl := DistRead.raw.inj h
    simp only [range32, Bool.and_eq_true, decide_eq_true_eq] at hr
    obtain ⟨hg, hlo, hhi⟩ := hr
  · exact .inl ⟨hg, hlo, hhi, by simp only [spi]; omega⟩
  · exact .inr (.inl ⟨hg, hlo, hhi, by simp only [periphId]; omega⟩)
  · exact .inr (.inr (.inl ⟨hg, hlo, hhi, by simp only [irouter]; omega⟩))
  · exact .inr (.inr (.inr ⟨hg, hlo, hhi, by simp only [pidrn]; omega⟩))

lemma raw_ge (h : distRead g vcpuId offset = .raw a) : 4 * spi ≤ a := by
  have hcases := raw_cases h
  simp only [spi]
  omega

lemma byte_tailReset (h : TailReset g d) (ha : 4 * spi ≤ a) : d.byte a = (vgicDistReset g ⟨fun _ => 0⟩).byte a := by
  have hw : spi ≤ a / 4 := by omega
  rw [byte, byte, h _ hw]

lemma sliced_tailReset (h : TailReset g d) {lane bytes : Nat} :
    (distRead g vcpuId offset).Sliced g d lane bytes ↔
      (distRead g vcpuId offset).Sliced g (vgicDistReset g ⟨fun _ => 0⟩) lane bytes := by
  cases hr : distRead g vcpuId offset with
  | raw a =>
    have ha := raw_ge hr
    refine and_congr_right fun _ => forall₂_congr fun k _ => ?_
    rw [byte_tailReset h (by omega), byte_tailReset h (by omega)]
  | _ => exact Iff.rfl

lemma byte_reset {a : Nat} (h : match g with
    | .v2 => spi ≤ a / 4 ∧ a / 4 < periphId
    | .v3 => irouter ≤ a / 4 ∧ a / 4 < pidrn) : (vgicDistReset g ⟨fun _ => 0⟩).byte a = 0 := by
  rw [byte, word_vgicDistReset_tail g _ h]
  simp

lemma sliced_id : (∀ k : Fin 63, ∀ bytes ∈ [1, 2], (0xFC0 + k.val) % 4 + bytes ≤ 4 → 0xFC0 + k.val ∉ misreadOffsets .v2 →
      (DistRead.raw (0xFC0 + k.val + 0x10)).Sliced .v2 (vgicDistReset .v2 ⟨fun _ => 0⟩) ((0xFC0 + k.val) % 4) bytes) ∧
    ∀ k : Fin 48, ∀ bytes ∈ [1, 2], (0xFFD0 + k.val) % 4 + bytes ≤ 4 → 0xFFD0 + k.val ∉ misreadOffsets .v3 →
      (DistRead.raw (0xFFD0 + k.val)).Sliced .v3 (vgicDistReset .v3 ⟨fun _ => 0⟩) ((0xFFD0 + k.val) % 4) bytes := by
  constructor <;> decide +kernel

lemma not_sliced_misread (g : GicVersion) : ∀ offset ∈ misreadOffsets g, ∀ bytes ∈ [1, 2], offset % 4 + bytes ≤ 4 →
    ¬(distRead g vcpuId offset).Sliced g (vgicDistReset g ⟨fun _ => 0⟩) (offset % 4) bytes := by
  cases g <;> decide +kernel

/-- After the reset every part of a register is its slice, but for the offsets listed. -/
lemma sliced_reset_iff {bytes : Nat} (hbytes : bytes ∈ [1, 2]) (hle : offset % 4 + bytes ≤ 4)
    (hknown : distRead g vcpuId (offset / 4 * 4) ≠ .unknown) :
    (distRead g vcpuId offset).Sliced g (vgicDistReset g ⟨fun _ => 0⟩) (offset % 4) bytes ↔ offset ∉ misreadOffsets g := by
  refine ⟨fun h hmem => not_sliced_misread g offset hmem bytes hbytes hle h, fun hout => ?_⟩
  have htwo : bytes ≤ 2 := by
    simp only [List.mem_cons, List.not_mem_nil, or_false] at hbytes
    omega
  cases hr : distRead g vcpuId offset with
  | zero => trivial
  | word w => trivial
  | unknown =>
    by_cases hlast : offset = 0xFFF
    · subst hlast
      cases g with
      | v2 => exact absurd (by decide) hout
      | v3 => exact absurd (by decide) hknown
    · exact absurd ((distRead_unknown_align hlast).mpr hr) hknown
  | raw a =>
    rcases raw_cases hr with ⟨rfl, hlo, hhi, rfl⟩ | ⟨rfl, hlo, hhi, rfl⟩ | ⟨rfl, hlo, hhi, rfl⟩ | ⟨rfl, hlo, hhi, rfl⟩
    · refine ⟨by simp only [distMapSize]; omega, fun k hk => ?_⟩
      rw [byte_reset (g := .v2) (by simp only [spi, periphId]; omega),
        byte_reset (g := .v2) (by simp only [spi, periphId]; omega)]
    · obtain ⟨k, rfl⟩ := Nat.exists_eq_add_of_le hlo
      exact sliced_id.1 ⟨k, by omega⟩ bytes hbytes hle hout
    · refine ⟨by simp only [distMapSize]; omega, fun k hk => ?_⟩
      rw [byte_reset (g := .v3) (by simp only [irouter, pidrn]; omega),
        byte_reset (g := .v3) (by simp only [irouter, pidrn]; omega)]
    · obtain ⟨k, rfl⟩ := Nat.exists_eq_add_of_le hlo
      exact sliced_id.2 ⟨k, by omega⟩ bytes hbytes hle hout

lemma tailReset_reachable (hstop : env.assertStops = true) {s : Vmm φ}
    (hs : Reachable env (fun s op => RegistersOnly (fun i => i < irqLimit) op ∧ AccessBelow env s op) s) :
    TailReset env.board.gic s.dist :=
  (reachable_dist hstop (tailReset_kept _) (fun _ hi => hi.2) (fun _ _ => rfl) hs).2

end Runs

section Main

variable (hstop : env.assertStops = true) (htcb : TcbAccepts env) {addr fsr : U64} {n : Fin 31} (hin : InDist env addr)
  (hread : faultIsRead fsr = true) (hok : AccessOk addr fsr)
  (hwidth : accessWidth fsr = .byte ∨ accessWidth fsr = .halfword) (hrt : (hsrSyndromeRt fsr).toNat = n)
  (hknown : distRead env.board.gic vcpuId ((addr - env.board.gicDistPaddr).toNat / 4 * 4) ≠ .unknown)

include hstop htcb hin hread hok hwidth hrt hknown

/-- A byte or halfword load from a register that a word load recognises is the slice of that register exactly when it
is found itself and, where it is read through `base_reg`, the word read is in the map and the bytes counted twice are the
same. In a run that registers and accesses interrupts below the limit these are all offsets but those listed. -/
theorem sub_word_reads_iff : (∀ s : Vmm φ, SliceRead env s addr fsr n ↔
      (distRead env.board.gic vcpuId (addr - env.board.gicDistPaddr).toNat).Sliced env.board.gic s.dist
        (addr.toNat % 4) (accessWidth fsr).bytes) ∧
    ∀ s, Reachable env (fun s op => RegistersOnly (fun i => i < irqLimit) op ∧ AccessBelow env s op) s →
      (SliceRead env s addr fsr n ↔ (addr - env.board.gicDistPaddr).toNat ∉ misreadOffsets env.board.gic) := by
  have hnarrow : accessWidth fsr ≠ .doubleword := by
    rcases hwidth with hw | hw <;> simp [hw]
  have hsliced : ∀ s : Vmm φ, SliceRead env s addr fsr n ↔
      (distRead env.board.gic vcpuId (addr - env.board.gicDistPaddr).toNat).Sliced env.board.gic s.dist
        (addr.toNat % 4) (accessWidth fsr).bytes := by
    intro s
    refine sliceRead_iff hok hnarrow hstop htcb hin hread hrt ?_
    rw [Option.isSome_iff_ne_none]
    exact fun hnone => hknown (distValue_eq_none.mp hnone)
  refine ⟨hsliced, fun s hs => ?_⟩
  have hbytes : (accessWidth fsr).bytes ∈ [1, 2] := by
    rcases hwidth with hw | hw <;> rw [hw] <;> decide
  have hle := lane_le hok hnarrow
  rw [← lane_offset hin] at hle
  rw [hsliced, ← lane_offset hin, sliced_tailReset (tailReset_reachable hstop hs), sliced_reset_iff hbytes hle hknown]

end Main

/-- A byte of `TYPER`. -/
theorem sub_word_reads_iff_typer :
    SliceRead (vmmEnv .qemuArmVirtHyp) (vgicInit (vmmEnv .qemuArmVirtHyp) (.filled 0)) (0x8000000 + 0x005) loadByte 0 :=
  ((sub_word_reads_iff rfl (vmmEnv_tcb _) (by decide) (by decide) (accessOk_loadByte _) (.inl (by decide)) (by decide)
    (by decide)).2 _ (.init ⟨_, rfl⟩)).mpr (by decide)

/-- Byte 2 of the register at `0xFCC` is 0 and is read as `0x04`, byte 0 of the register behind it; the word that byte 1
of the last register is cut out of ends behind the map. -/
theorem id_byte_misread : ∃ s : Vmm VmmAckFn, Reachable (vmmEnv .qemuArmVirtHyp) (fun _ _ => True) s ∧
    ¬SliceRead (vmmEnv .qemuArmVirtHyp) s (0x8000000 + 0xFCE) loadByte 0 ∧
    ¬SliceRead (vmmEnv .qemuArmVirtHyp) s (0x8000000 + 0xFFD) loadByte 0 := by
  refine ⟨vgicInit (vmmEnv .qemuArmVirtHyp) (.filled 0), .init ⟨_, rfl⟩, fun h => ?_, fun h => ?_⟩
  · have hsliced := (sliceRead_iff (accessOk_loadByte _) (by decide) rfl (vmmEnv_tcb _) (by decide) (by decide) (by decide)
      (by decide)).mp h
    exact absurd hsliced (by decide +kernel)
  · have hbounds : 0xFFD + 0x10 + 4 ≤ 0x1010 := h.inBounds
    exact absurd hbounds (by decide)

end Sel4cpVmm
