import Sel4cpVmm.Proofs.Limits

/-!
# The bits a write-one access reaches

`vgic_dist_reg_write` decodes a write to `ISENABLER`, `ICENABLER`, `ISPENDR` or `ICPENDR` into interrupt
numbers. A number below the limit has bits of its own in every bitmap. The number counts the byte offset of
a lane a second time, and the ranges have one register more than the bitmaps have words.
-/

namespace Sel4cpVmm

open GicDistMap

variable {φ : Type} {env : Env φ}

/-- The bitmaps have a word for the interrupt: bank 0 for the local ones, else an element of the arrays. -/
def HasElement (i : Int) : Prop := 0 ≤ i ∧ (i < numVcpuLocalVirqs ∨ irqIdx i < bitmapLen)

/-- The helpers of `vdist.h` index existing elements for `i`, and change its bit and nothing else. -/
structure OwnBits (i : Int) : Prop where
  element : HasElement i
  enable_self : ∀ d v, isEnabled (setEnable d i v vcpuId) i vcpuId = v
  pending_self : ∀ d v, isPending (setPending d i v vcpuId) i vcpuId = v
  enable_other : ∀ d v j, HasElement j → j ≠ i →
    isEnabled (setEnable d i v vcpuId) j vcpuId = isEnabled d j vcpuId
  pending_other : ∀ d v j, HasElement j → j ≠ i →
    isPending (setPending d i v vcpuId) j vcpuId = isPending d j vcpuId
  enable_frame : ∀ d v j, HasElement j →
    isPending (setEnable d i v vcpuId) j vcpuId = isPending d j vcpuId ∧
      isActive (setEnable d i v vcpuId) j vcpuId = isActive d j vcpuId
  pending_frame : ∀ d v j, HasElement j →
    isEnabled (setPending d i v vcpuId) j vcpuId = isEnabled d j vcpuId ∧
      isActive (setPending d i v vcpuId) j vcpuId = isActive d j vcpuId

/-- The data of a write after masking, `val` being the content of its register. -/
def maskedData (env : Env φ) (offset fsr val : U64) : U32 :=
  val.setWidth 32 &&& (dataMask (env.board.gicDistPaddr + offset) fsr).setWidth 32

lemma hasElement_iff {i : Int} : HasElement i ↔ 0 ≤ i ∧ i < irqLimit := by
  simp only [HasElement, numVcpuLocalVirqs, irqIdx, bitmapLen, irqLimit]
  omega

lemma ownBits_iff {i : Int} : OwnBits i ↔ 0 ≤ i ∧ i < irqLimit := by
  refine ⟨fun h => hasElement_iff.mp h.element, fun hi => ?_⟩
  refine ⟨hasElement_iff.mpr hi, fun d v => ?_, fun d v => ?_, fun d v j hj hne => ?_, fun d v j hj hne => ?_,
    fun d v j hj => ?_, fun d v j hj => ?_⟩
  · rw [isEnabled_setEnable hi hi.1, if_pos rfl]
  · rw [isPending_setPending hi hi.1, if_pos rfl]
  · rw [isEnabled_setEnable (hasElement_iff.mp hj) hi.1, if_neg hne]
  · rw [isPending_setPending (hasElement_iff.mp hj) hi.1, if_neg hne]
  · exact ⟨isPending_setEnable hi (hasElement_iff.mp hj), isActive_setEnable hi (hasElement_iff.mp hj)⟩
  · exact ⟨isEnabled_setPending (hasElement_iff.mp hj), isActive_setPending hi (hasElement_iff.mp hj)⟩

lemma mem_writeIrqs {g : GicVersion} {offset base : Nat} (hbase : (distWrite g vcpuId offset).writeOneBase = some base)
    {data : U32} {i : Int} :
    i ∈ writeIrqs g offset data ↔ ∃ k, data.getLsbD k = true ∧ ((k + (offset - base) * 8 : Nat) : Int) = i := by
  rw [writeIrqs, hbase, List.mem_map]
  simp only [WordBits.mem_bits]

/-- A write to one of the four ranges runs its operation on the numbers of `writeIrqs`, and all of these have
bits of their own exactly when every bit `k` left by the mask has `k + 8 * (offset - base)` below 992. -/
theorem writeIrqs_ownBits_iff {offset : U64} {base : Nat}
    (hbase : (distWrite env.board.gic vcpuId offset.toNat).writeOneBase = some base) (fsr val : U64) :
    (∀ op : Int → M φ Unit, writeOneBits op base offset.toNat (maskedData env offset fsr val) =
        forM (writeIrqs env.board.gic offset.toNat (maskedData env offset fsr val)) op) ∧
      ((∀ i ∈ writeIrqs env.board.gic offset.toNat (maskedData env offset fsr val), OwnBits i) ↔
        ∀ k, (maskedData env offset fsr val).getLsbD k = true → k + 8 * (offset.toNat - base) < 992) := by
  refine ⟨fun op => ?_, fun h k hk => ?_, fun h i hi => ?_⟩
  · rw [writeOneBits_eq, writeIrqs, hbase]
  · have hlt := (ownBits_iff.mp (h _ ((mem_writeIrqs hbase).mpr ⟨k, hk, rfl⟩))).2
    simp only [irqLimit] at hlt
    omega
  · obtain ⟨k, hk, rfl⟩ := (mem_writeIrqs hbase).mp hi
    have hlt := h k hk
    refine ownBits_iff.mpr ⟨by omega, ?_⟩
    simp only [irqLimit]
    omega

/-- A word store of 2 to `ISENABLER1` reaches SPI 33. -/
theorem writeIrqs_ownBits_iff_spi : writeIrqs .v2 0x104 (maskedData (vmmEnv .qemuArmVirtHyp) 0x104 storeWord 2) = [33] ∧
    ∀ i ∈ writeIrqs .v2 0x104 (maskedData (vmmEnv .qemuArmVirtHyp) 0x104 storeWord 2), OwnBits i := by
  have hbase : (distWrite (vmmEnv .qemuArmVirtHyp).board.gic vcpuId (0x104 : U64).toNat).writeOneBase =
      some gicDistIsenabler0 := by decide
  refine ⟨by decide, (writeIrqs_ownBits_iff hbase storeWord 2).2.mpr fun k hk => ?_⟩
  have hlt := BitVec.lt_of_getLsbD hk
  have hregister : (0x104 : U64).toNat - gicDistIsenabler0 = 4 := rfl
  omega

/-- A word store of 1 to the last `ISENABLER` reaches 992, for which no bitmap has a word: enabling it sets a
bit of the clear-enable word of the local interrupts. -/
theorem writeIrqs_out_of_bounds : 992 ∈ writeIrqs .v2 0x17c (maskedData (vmmEnv .qemuArmVirtHyp) 0x17c storeWord 1) ∧
    ¬OwnBits 992 ∧ (setEnable ⟨fun _ => 0⟩ 992 true vcpuId).word enableClr0 = 1 := by
  refine ⟨by decide, fun h => ?_, by decide⟩
  exact absurd (ownBits_iff.mp h).2 (by decide)

end Sel4cpVmm
