import Sel4cpVmm.Properties.BitmapAccess
import Sel4cpVmm.Proofs.Loads

/-!
# The lanes of a write-one access

A store to a part of a write-one register is masked to its lane, and its data is not shifted there: the bits looked at
are those of the lane of the register stored, not the ones stored.
-/

namespace Sel4cpVmm

open StopProgram

variable {φ : Type} {env : Env φ}

/-- What a range of write-one registers does for an interrupt. -/
def DistWrite.writeOneOp (env : Env φ) : DistWrite → Option (Int → M φ Unit)
  | .isenabler => some (vgicDistEnableIrq env vcpuId)
  | .icenabler => some (vgicDistDisableIrq vcpuId)
  | .ispendr => some fun irq => do let _ ← vgicDistSetPendingIrq env vcpuId irq
  | .icpendr => some (vgicDistClrPendingIrq vcpuId)
  | _ => none

/-- A store of the low `bytes` bytes of `x` to `offset` holds the bit of interrupt `i`. -/
def StoredBit (base offset bytes : Nat) (x : U64) (i : Int) : Prop :=
  ∃ k < 8 * bytes, x.getLsbD k = true ∧ ((8 * (offset - base) + k : Nat) : Int) = i

/-- Whatever the operation is, the loop over `data` performs it once for each bit stored, in increasing order, and for
no other number. -/
def DecodedByLane (φ : Type) (base offset bytes : Nat) (x : U64) (data : U32) : Prop :=
  ∃ irqs : List Int, irqs.Pairwise (· < ·) ∧ (∀ i, i ∈ irqs ↔ StoredBit base offset bytes x i) ∧
    ∀ op : Int → M φ Unit, writeOneBits op base offset data = forM irqs op

/-! ### What the loop performs -/

section Loop

lemma forM_logEvent (f : Int → Event φ) (l : List Int) (s : Vmm φ) :
    forM l (fun i => logEvent (f i)) s = .ok () { s with log := s.log ++ l.map f } := by
  induction l generalizing s with
  | nil => simp [pure, EStateM.pure]
  | cons i l ih =>
    rw [List.forM_cons]
    change forM l (fun i => logEvent (f i)) { s with log := s.log ++ [f i] } = _
    rw [ih, List.map_cons, List.append_assoc]
    rfl

/-- A loop that performs every operation on the same numbers as another has the same numbers. -/
lemma eq_of_forM_eq {l l' : List Int} (s : Vmm φ) (h : ∀ op : Int → M φ Unit, forM l op = forM l' op) : l = l' := by
  have hrun := congrFun (h fun i => logEvent (.accepted i)) s
  rw [forM_logEvent, forM_logEvent] at hrun
  have hlog := congrArg Vmm.log (EStateM.Result.ok.inj hrun).2
  exact List.map_injective_iff.mpr (fun _ _ he => Event.accepted.inj he) (List.append_cancel_left hlog)

variable {base offset : Nat} {data : U32}

/-- The numbers of the bits of `data`. -/
def laneIrqs (base offset : Nat) (data : U32) : List Int :=
  (WordBits.bits data).map fun k => ((k + (offset - base) * 8 : Nat) : Int)

lemma mem_laneIrqs {i : Int} :
    i ∈ laneIrqs base offset data ↔ ∃ k, data.getLsbD k = true ∧ ((8 * (offset - base) + k : Nat) : Int) = i := by
  simp only [laneIrqs, List.mem_map, WordBits.mem_bits, Nat.mul_comm 8, Nat.add_comm _ (_ * 8)]

lemma pairwise_laneIrqs : (laneIrqs base offset data).Pairwise (· < ·) := by
  refine List.pairwise_map.mpr (List.Pairwise.imp (fun h => ?_) (List.pairwise_lt_range.filter _))
  exact Int.ofNat_lt.mpr (Nat.add_lt_add_right h _)

/-- The loop decodes its data by lane exactly when the bits of the data are those stored. -/
lemma decodedByLane_iff {bytes : Nat} {x : U64} (s : Vmm φ) : DecodedByLane φ base offset bytes x data ↔
    ∀ k, data.getLsbD k = true ↔ k < 8 * bytes ∧ x.getLsbD k = true := by
  have hloop : ∀ op : Int → M φ Unit, writeOneBits op base offset data = forM (laneIrqs base offset data) op :=
    fun op => writeOneBits_eq op base offset data
  have hstored : (∀ i, i ∈ laneIrqs base offset data ↔ StoredBit base offset bytes x i) ↔
      ∀ k, data.getLsbD k = true ↔ k < 8 * bytes ∧ x.getLsbD k = true := by
    constructor
    · intro h k
      have hk := h ((8 * (offset - base) + k : Nat) : Int)
      rw [mem_laneIrqs] at hk
      constructor
      · intro hbit
        obtain ⟨j, hj, hx, heq⟩ := hk.mp ⟨k, hbit, rfl⟩
        obtain rfl : j = k := by omega
        exact ⟨hj, hx⟩
      · rintro ⟨hlt, hx⟩
        obtain ⟨j, hbit, heq⟩ := hk.mpr ⟨k, hlt, hx, rfl⟩
        obtain rfl : j = k := by omega
        exact hbit
    · intro h i
      rw [mem_laneIrqs]
      constructor
      · rintro ⟨k, hbit, rfl⟩
        obtain ⟨hlt, hx⟩ := (h k).mp hbit
        exact ⟨k, hlt, hx, rfl⟩
      · rintro ⟨k, hlt, hx, rfl⟩
        exact ⟨k, (h k).mpr ⟨hlt, hx⟩, rfl⟩
  rw [← hstored]
  constructor
  · rintro ⟨irqs, -, hmem, hirqs⟩
    have heq : laneIrqs base offset data = irqs := eq_of_forM_eq s fun op => (hloop op).symm.trans (hirqs op)
    rwa [heq]
  · exact fun h => ⟨laneIrqs base offset data, pairwise_laneIrqs, h, hloop⟩

end Loop

/-! ### What is left by the mask -/

section Mask

variable {offset fsr x : U64} {k : Nat}

lemma lane_dist (env : Env φ) (offset : U64) : (env.board.gicDistPaddr + offset).toNat % 4 = offset.toNat % 4 := by
  have hbase : env.board.gicDistPaddr.toNat % 4 = 0 := by cases env.board <;> rfl
  rw [BitVec.toNat_add]
  omega

variable (hok : AccessOk (env.board.gicDistPaddr + offset) fsr) (hwidth : accessWidth fsr ≠ .doubleword)

include hok hwidth

lemma getLsbD_maskedData : (maskedData env offset fsr x).getLsbD k = true ↔
    8 * (offset.toNat % 4) ≤ k ∧ k < 8 * (offset.toNat % 4 + (accessWidth fsr).bytes) ∧ x.getLsbD k = true := by
  have hle := lane_le hok hwidth
  rw [lane_dist] at hle
  rw [maskedData, BitVec.getLsbD_and, BitVec.getLsbD_setWidth, BitVec.getLsbD_setWidth]
  by_cases hk : k < 32
  · rw [getLsbD_dataMask (Nat.lt_trans hk (by decide)), lane_dist]
    simp only [hk, decide_true, Bool.true_and, Bool.and_eq_true, decide_eq_true_eq]
    rw [and_comm, and_assoc]
  · simp only [hk, decide_false, Bool.false_and, Bool.false_eq_true, false_iff]
    omega

/-- The bits left are those stored in the first lane, or where neither has any. -/
lemma maskedData_stored_iff :
    (∀ k, (maskedData env offset fsr x).getLsbD k = true ↔ k < 8 * (accessWidth fsr).bytes ∧ x.getLsbD k = true) ↔
      offset.toNat % 4 = 0 ∨
        ∀ k < 8 * (accessWidth fsr).bytes, x.getLsbD k = false ∧ x.getLsbD (8 * (offset.toNat % 4) + k) = false := by
  by_cases hlane : offset.toNat % 4 = 0
  · refine iff_of_true (fun k => ?_) (.inl hlane)
    rw [getLsbD_maskedData hok hwidth, hlane]
    simp
  · have hbytes : (accessWidth fsr).bytes ≤ offset.toNat % 4 := by
      have hle := bytes_le_lane hok hwidth (by rwa [lane_dist])
      rwa [lane_dist] at hle
    simp only [getLsbD_maskedData hok hwidth, hlane, false_or]
    constructor
    · intro h k hk
      constructor
      · by_contra hx
        have hlow := ((h k).mpr ⟨hk, by simpa using hx⟩).1
        omega
      · by_contra hx
        have hhigh := ((h (8 * (offset.toNat % 4) + k)).mp ⟨by omega, by omega, by simpa using hx⟩).1
        omega
    · intro h k
      constructor
      · rintro ⟨hlo, hhi, hx⟩
        obtain ⟨j, rfl⟩ := Nat.exists_eq_add_of_le hlo
        exact absurd hx (by simp [(h j (by omega)).2])
      · rintro ⟨hk, hx⟩
        exact absurd hx (by simp [(h k hk).1])

end Mask

section Main

variable (hstop : env.assertStops = true) {offset fsr : U64} {base : Nat}
  (hok : AccessOk (env.board.gicDistPaddr + offset) fsr)
  (hbase : (distWrite env.board.gic vcpuId offset.toNat).writeOneBase = some base)

include hstop hok hbase

lemma vgicDistRegWrite_writeOne {op : Int → M φ Unit}
    (hop : (distWrite env.board.gic vcpuId offset.toNat).writeOneOp env = some op) (regs : UserContext) (s : Vmm φ) :
    vgicDistRegWrite env vcpuId offset fsr regs s = (do
      writeOneBits op base offset.toNat (maskedData env offset fsr (rtValue regs fsr s.wzr))
      let err ← faultAdvanceVcpu env regs
      return !err) s := by
  unfold vgicDistRegWrite
  rw [bind_of_ok (faultGetDataMask_eq hstop hok)]
  have hdata : faultGetData env regs fsr s = .ok (rtValue regs fsr s.wzr) s := faultGetData_eq hstop hok.1
  have heffect : distWriteEffect env vcpuId offset fsr regs ((dataMask (env.board.gicDistPaddr + offset) fsr).setWidth 32) s =
      writeOneBits op base offset.toNat (maskedData env offset fsr (rtValue regs fsr s.wzr)) s := by
    unfold distWriteEffect
    cases hk : distWrite env.board.gic vcpuId offset.toNat <;> rw [hk] at hbase hop <;>
      simp only [DistWrite.writeOneBase, DistWrite.writeOneOp, Option.some.injEq, reduceCtorEq] at hbase hop <;>
    · subst hbase
      subst hop
      dsimp only
      rw [bind_of_ok hdata]
      rfl
  simp only [bind, EStateM.bind, heffect]

/-- A naturally aligned store of up to 32 bits to a write-one register runs the loop of its range, and this performs the
operation for the bits stored, once each and in order, exactly when the store is to the first lane or neither the bits
stored nor those of the lane addressed are set in the register stored. -/
theorem write_one_decoded_iff (hwidth : accessWidth fsr ≠ .doubleword) :
    (∀ op, (distWrite env.board.gic vcpuId offset.toNat).writeOneOp env = some op → ∀ regs s,
      vgicDistRegWrite env vcpuId offset fsr regs s = (do
        writeOneBits op base offset.toNat (maskedData env offset fsr (rtValue regs fsr s.wzr))
        let err ← faultAdvanceVcpu env regs
        return !err) s) ∧
    ∀ x, DecodedByLane φ base offset.toNat (accessWidth fsr).bytes x (maskedData env offset fsr x) ↔
      offset.toNat % 4 = 0 ∨
        ∀ k < 8 * (accessWidth fsr).bytes, x.getLsbD k = false ∧ x.getLsbD (8 * (offset.toNat % 4) + k) = false := by
  refine ⟨fun op hop regs s => vgicDistRegWrite_writeOne hstop hok hbase hop regs s, fun x => ?_⟩
  rw [decodedByLane_iff (vgicInit env (.filled 0)), maskedData_stored_iff hok hwidth]

end Main

def storeByte : U64 := (1 <<< 24) ||| (1 <<< 6)

lemma accessOk_storeByte (addr : U64) : AccessOk addr storeByte := ⟨by decide, BitVec.and_zero⟩

/-- A byte store of 2 to the first byte of `ISENABLER1`. -/
theorem write_one_decoded_iff_spi : DecodedByLane VmmAckFn gicDistIsenabler0 0x104 1 2
    (maskedData (vmmEnv .qemuArmVirtHyp) 0x104 storeByte 2) := by
  have hbase : (distWrite (vmmEnv .qemuArmVirtHyp).board.gic vcpuId (0x104 : U64).toNat).writeOneBase =
      some gicDistIsenabler0 := by decide
  exact ((write_one_decoded_iff rfl (accessOk_storeByte _) hbase (by decide)).2 2).mpr (.inl (by decide))

/-- A byte store of 1 to the second byte of `ISENABLER0` enables nothing, and one of `0x100`, whose byte is 0, enables
interrupt 16. -/
theorem byte_store_misdecoded : ¬DecodedByLane VmmAckFn gicDistIsenabler0 0x101 1 1
      (maskedData (vmmEnv .qemuArmVirtHyp) 0x101 storeByte 1) ∧
    ¬DecodedByLane VmmAckFn gicDistIsenabler0 0x101 1 0x100 (maskedData (vmmEnv .qemuArmVirtHyp) 0x101 storeByte 0x100) := by
  constructor
  · intro h
    have hbit := (decodedByLane_iff (vgicInit (vmmEnv .qemuArmVirtHyp) (.filled 0))).mp h 0
    exact absurd (hbit.mpr (by decide)) (by decide)
  · intro h
    have hbit := (decodedByLane_iff (vgicInit (vmmEnv .qemuArmVirtHyp) (.filled 0))).mp h 8
    exact absurd (hbit.mp (by decide)).1 (by decide)

end Sel4cpVmm
