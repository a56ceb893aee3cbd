import Sel4cpVmm.Lib.Bits
import Sel4cpVmm.Model.System

/-!
# The distributor bitmaps

What the bitmap helpers of `vdist.h` read and write, in terms of interrupt numbers. Numbers below
`irqLimit` have words of their own; the words of the larger ones belong to other fields.
-/

namespace Sel4cpVmm

open GicDistMap

variable {d : GicDistMap} {i j : Int} {v vcpu : VcpuId} {b : Bool}

lemma vcpu_eq (v : VcpuId) : v = vcpuId := Subsingleton.elim _ _

@[simp] lemma word_set (w w' : Nat) (x : U32) : (d.set w x).word w' = if w' = w then x else d.word w' := by
  simp [GicDistMap.set, Function.update_apply]

/-! ### One word -/

lemma irqBit_lt (i : Int) : (i % 32).toNat < 32 := by omega

lemma testIrq_eq (w : Nat) (d : GicDistMap) (i : Int) : testIrq w d i = (d.word w).getLsbD (i % 32).toNat :=
  WordBits.test_eq_getLsbD _ (irqBit_lt i)

lemma testIrq_congr {w : Nat} {d d' : GicDistMap} (h : d.word w = d'.word w) : testIrq w d i = testIrq w d' i := by
  simp only [testIrq, h]

lemma word_setMirrored {sw cw w : Nat} (hs : w ≠ sw) (hc : w ≠ cw) :
    (setMirrored sw cw d i b).word w = d.word w := by
  cases b <;> simp [setMirrored, orWord, andNotWord, hs, hc]

lemma getLsbD_setMirrored {sw cw w : Nat} (hne : sw ≠ cw) (hw : w = sw ∨ w = cw) (k : Nat) :
    ((setMirrored sw cw d i b).word w).getLsbD k =
      if k = (i % 32).toNat then b else (d.word w).getLsbD k := by
  have hlt := irqBit_lt i
  have hne' := hne.symm
  rcases hw with rfl | rfl <;> cases b <;>
    simp only [setMirrored, orWord, andNotWord, word_set, irqBit, hne, hne', if_true, if_false,
      Bool.false_eq_true, WordBits.getLsbD_set _ hlt, WordBits.getLsbD_clear _ hlt] <;>
    by_cases hk : k = (i % 32).toNat <;> simp [hk]

lemma testIrq_setMirrored_true {sw cw w : Nat} (hne : sw ≠ cw) (h : testIrq w d j = true) :
    testIrq w (setMirrored sw cw d i true) j = true := by
  rw [testIrq_eq] at h ⊢
  by_cases hw : w = sw ∨ w = cw
  · rw [getLsbD_setMirrored hne hw, h]
    simp
  · obtain ⟨hs, hc⟩ := not_or.mp hw
    rw [word_setMirrored hs hc, h]

/-! ### The words of an interrupt number -/

/-- The word of the set register that holds the bit of `i`, for a bank of local interrupts that
begins at `w0` and an array that begins at `w`. -/
def bankWord (w0 w : Nat) (i : Int) : Nat := if i < 32 then w0 else w + irqIdx i

lemma setPending_eq :
    setPending d i b v = setMirrored (bankWord pendingSet0 pendingSet i) (bankWord pendingClr0 pendingClr i) d i b := by
  unfold setPending setSgiPpiPending setSpiPending bankWord
  split_ifs <;> simp_all

lemma setEnable_eq :
    setEnable d i b v = setMirrored (bankWord enableSet0 enableSet i) (bankWord enableClr0 enableClr i) d i b := by
  unfold setEnable setSgiPpiEnable setSpiEnable bankWord
  split_ifs <;> simp_all

lemma isPending_eq : isPending d i v = testIrq (bankWord pendingSet0 pendingSet i) d i := by
  unfold isPending isSgiPpiPending isSpiPending bankWord
  split_ifs <;> simp_all

lemma isEnabled_eq : isEnabled d i v = testIrq (bankWord enableSet0 enableSet i) d i := by
  unfold isEnabled isSgiPpiEnabled isSpiEnabled bankWord
  split_ifs <;> simp_all

lemma isActive_eq : isActive d i v = testIrq (bankWord active0 active i) d i := by
  unfold isActive isSgiPpiActive isSpiActive bankWord
  split_ifs <;> simp_all

lemma testIrq_setMirrored_of_ne {sw cw w : Nat} (hs : w ≠ sw) (hc : w ≠ cw) :
    testIrq w (setMirrored sw cw d i b) j = testIrq w d j :=
  testIrq_congr (word_setMirrored hs hc)

/-- A number below the limit has its own bit: same word and same position only for the same number. -/
lemma bankWord_inj {w0 w : Nat} (hw : w0 < w) (hi : 0 ≤ i) (hj : 0 ≤ j ∧ j < irqLimit)
    (hword : bankWord w0 w j = bankWord w0 w i) (hbit : (j % 32).toNat = (i % 32).toNat) : j = i := by
  simp only [bankWord, irqIdx, irqLimit] at *
  split_ifs at hword <;> omega

lemma bankWord_ne_mirror {w0 w w0' w' : Nat} (h0 : w0 ≠ w0') (h : w ≠ w') : bankWord w0 w i ≠ bankWord w0' w' i := by
  unfold bankWord
  split_ifs
  · exact h0
  · exact fun heq => h (Nat.add_right_cancel heq)

lemma bankWord_ge {w0 w : Nat} (hw : w0 ≤ w) (i : Int) : w0 ≤ bankWord w0 w i := by
  unfold bankWord
  split_ifs <;> omega

lemma bankWord_mem {w0 w : Nat} (hw : w0 ≤ w) (hi : 0 ≤ i ∧ i < irqLimit) :
    w0 ≤ bankWord w0 w i ∧ bankWord w0 w i ≤ w + 30 := by
  refine ⟨bankWord_ge hw i, ?_⟩
  simp only [bankWord, irqIdx, irqLimit] at *
  split_ifs <;> omega

lemma bankWord_lt {w0 w m : Nat} (hi : i < irqLimit) (hw : w0 ≤ w) (hlt : w + 30 < m) : bankWord w0 w i < m := by
  simp only [bankWord, irqIdx, irqLimit] at *
  split_ifs <;> omega

lemma bankWord_ne_above {w0 w w0' w' : Nat} (hw : w0 ≤ w) (hw' : w0' ≤ w') (h : w + 30 < w0')
    (hj : 0 ≤ j ∧ j < irqLimit) : bankWord w0 w j ≠ bankWord w0' w' i := by
  have hwi := bankWord_ge hw' i
  have hwj := bankWord_mem hw hj
  omega

lemma bankWord_ne {w0 w w0' w' : Nat} (hw : w0 ≤ w) (hw' : w0' ≤ w') (h : w + 30 < w0' ∨ w' + 30 < w0)
    (hi : 0 ≤ i ∧ i < irqLimit) (hj : 0 ≤ j ∧ j < irqLimit) : bankWord w0 w j ≠ bankWord w0' w' i := by
  have hwi := bankWord_mem hw' hi
  have hwj := bankWord_mem hw hj
  omega

/-- Setting the bit of `i` in a bank changes the bit of `i` and of no other number below the limit. -/
lemma testIrq_setMirrored {w0 w w0' w' : Nat} (hw : w0 < w) (hw' : w0' ≤ w') (h : w + 30 < w0')
    (hi : 0 ≤ i) (hj : 0 ≤ j ∧ j < irqLimit) :
    testIrq (bankWord w0 w j) (setMirrored (bankWord w0 w i) (bankWord w0' w' i) d i b) j =
      if j = i then b else testIrq (bankWord w0 w j) d j := by
  have hne : bankWord w0 w j ≠ bankWord w0' w' i := bankWord_ne_above (Nat.le_of_lt hw) hw' h hj
  by_cases hword : bankWord w0 w j = bankWord w0 w i
  · rw [testIrq_eq, testIrq_eq, getLsbD_setMirrored (hword ▸ hne) (.inl hword)]
    by_cases hji : j = i
    · simp [hji]
    · have hbit : (j % 32).toNat ≠ (i % 32).toNat := fun h => hji (bankWord_inj hw hi hj hword h)
      rw [if_neg hji, if_neg hbit]
  · have hji : j ≠ i := fun h => hword (by rw [h])
    rw [if_neg hji, testIrq_setMirrored_of_ne hword hne]

lemma testIrq_setMirrored_of_disjoint {r0 r w0 w w0' w' : Nat} (hr : r0 ≤ r) (hw : w0 ≤ w) (hw' : w0' ≤ w')
    (h : r + 30 < w0 ∨ w + 30 < r0) (h' : r + 30 < w0' ∨ w' + 30 < r0)
    (hi : 0 ≤ i ∧ i < irqLimit) (hj : 0 ≤ j ∧ j < irqLimit) :
    testIrq (bankWord r0 r j) (setMirrored (bankWord w0 w i) (bankWord w0' w' i) d i b) j =
      testIrq (bankWord r0 r j) d j :=
  testIrq_setMirrored_of_ne (bankWord_ne hr hw h hi hj) (bankWord_ne hr hw' h' hi hj)

lemma testIrq_setMirrored_above {r0 r w0 w w0' w' : Nat} (hr : r0 ≤ r) (hw : w0 ≤ w) (hw' : w0' ≤ w')
    (h : r + 30 < w0) (h' : r + 30 < w0') (hj : 0 ≤ j ∧ j < irqLimit) :
    testIrq (bankWord r0 r j) (setMirrored (bankWord w0 w i) (bankWord w0' w' i) d i b) j =
      testIrq (bankWord r0 r j) d j :=
  testIrq_setMirrored_of_ne (bankWord_ne_above hr hw h hj) (bankWord_ne_above hr hw' h' hj)

lemma testIrq_set_of_outside {w0 w k : Nat} (hw : w0 ≤ w) (hk : k < w0 ∨ w + 30 < k) (hj : 0 ≤ j ∧ j < irqLimit)
    (x : U32) : testIrq (bankWord w0 w j) (d.set k x) j = testIrq (bankWord w0 w j) d j := by
  have hmem := bankWord_mem hw hj
  have hne : bankWord w0 w j ≠ k := by omega
  exact testIrq_congr (by rw [word_set, if_neg hne])

/-- The word of an SPI in a bank is above the word that the next number after the bank is written to. -/
lemma bankWord_spi_ne {w0 w w0' w' : Nat} (hi : 0 ≤ i ∧ i < 1056) (hj : 32 ≤ j ∧ j < irqLimit)
    (h0 : w0' ≤ w) (h : w' + 32 ≤ w) : bankWord w0 w j ≠ bankWord w0' w' i := by
  simp only [bankWord, irqIdx, irqLimit] at *
  split_ifs <;> omega

lemma sgi_lt_irqLimit {i : Int} (hi : 0 ≤ i ∧ i < numSgiVirqs) : 0 ≤ i ∧ i < irqLimit :=
  ⟨hi.1, Int.lt_trans hi.2 (by decide)⟩

/-! ### Pending, enabled and active bits -/

section OneAnyNumber

variable (hj : 0 ≤ j ∧ j < irqLimit)

include hj

lemma isPending_setPending (hi : 0 ≤ i) :
    isPending (setPending d i b v) j vcpu = if j = i then b else isPending d j vcpu := by
  rw [isPending_eq, isPending_eq, setPending_eq]
  exact testIrq_setMirrored (by decide) (by decide) (by decide) hi hj

lemma isEnabled_setEnable (hi : 0 ≤ i) :
    isEnabled (setEnable d i b v) j vcpu = if j = i then b else isEnabled d j vcpu := by
  rw [isEnabled_eq, isEnabled_eq, setEnable_eq]
  exact testIrq_setMirrored (by decide) (by decide) (by decide) hi hj

lemma isEnabled_setPending : isEnabled (setPending d i b v) j vcpu = isEnabled d j vcpu := by
  rw [isEnabled_eq, isEnabled_eq, setPending_eq]
  exact testIrq_setMirrored_above (by decide) (by decide) (by decide) (by decide) (by decide) hj

lemma isPending_set {k : Nat} (hk : k < pendingSet0 ∨ pendingSet + 30 < k) (x : U32) :
    isPending (d.set k x) j vcpu = isPending d j vcpu := by
  rw [isPending_eq, isPending_eq]
  exact testIrq_set_of_outside (by decide) hk hj x

lemma isEnabled_set {k : Nat} (hk : k < enableSet0 ∨ enableSet + 30 < k) (x : U32) :
    isEnabled (d.set k x) j vcpu = isEnabled d j vcpu := by
  rw [isEnabled_eq, isEnabled_eq]
  exact testIrq_set_of_outside (by decide) hk hj x

end OneAnyNumber

/-- No write-one access reaches the pending bit of an SPI through the enable bits. -/
lemma isPending_setEnable_spi (hi : 0 ≤ i ∧ i < 1056) (hj : 32 ≤ j ∧ j < irqLimit) :
    isPending (setEnable d i b v) j vcpu = isPending d j vcpu := by
  rw [isPending_eq, isPending_eq, setEnable_eq]
  exact testIrq_setMirrored_of_ne (bankWord_spi_ne hi hj (by decide) (by decide))
    (bankWord_spi_ne hi hj (by decide) (by decide))

/-- The enable bit of an interrupt, of whatever number, is not in the word of its own pending bit. -/
lemma isPending_setEnable_self : isPending (setEnable d i b v) i vcpu = isPending d i vcpu := by
  rw [isPending_eq, isPending_eq, setEnable_eq]
  refine testIrq_setMirrored_of_ne ?_ ?_ <;>
  · unfold bankWord
    split_ifs <;> simp only [pendingSet0, pendingSet, enableSet0, enableSet, enableClr0, enableClr] <;> omega

lemma isEnabled_setEnable_true (h : isEnabled d j vcpu = true) : isEnabled (setEnable d i true v) j vcpu = true := by
  rw [isEnabled_eq] at h ⊢
  rw [setEnable_eq]
  exact testIrq_setMirrored_true (bankWord_ne_mirror (by decide) (by decide)) h

lemma isPending_setEnable_true (h : isPending d j vcpu = true) : isPending (setEnable d i true v) j vcpu = true := by
  rw [isPending_eq] at h ⊢
  rw [setEnable_eq]
  exact testIrq_setMirrored_true (bankWord_ne_mirror (by decide) (by decide)) h

section BelowLimit

variable (hi : 0 ≤ i ∧ i < irqLimit) (hj : 0 ≤ j ∧ j < irqLimit)

include hi hj

lemma isPending_setEnable : isPending (setEnable d i b v) j vcpu = isPending d j vcpu := by
  rw [isPending_eq, isPending_eq, setEnable_eq]
  exact testIrq_setMirrored_of_disjoint (by decide) (by decide) (by decide) (by decide) (by decide) hi hj

lemma isActive_setPending : isActive (setPending d i b v) j vcpu = isActive d j vcpu := by
  rw [isActive_eq, isActive_eq, setPending_eq]
  exact testIrq_setMirrored_of_disjoint (by decide) (by decide) (by decide) (by decide) (by decide) hi hj

lemma isActive_setEnable : isActive (setEnable d i b v) j vcpu = isActive d j vcpu := by
  rw [isActive_eq, isActive_eq, setEnable_eq]
  exact testIrq_setMirrored_of_disjoint (by decide) (by decide) (by decide) (by decide) (by decide) hi hj

end BelowLimit

/-- Of the numbers that a write-one access can name only those of the word right behind the enable bits share
a word with pending bits. -/
lemma isPending_setEnable_out (hi : 0 ≤ i ∧ i < 1056) (hout : ¬(irqLimit ≤ i ∧ i < 1024)) (hj : 0 ≤ j ∧ j < irqLimit) :
    isPending (setEnable d i b v) j vcpu = isPending d j vcpu := by
  by_cases hlt : i < irqLimit
  · exact isPending_setEnable ⟨hi.1, hlt⟩ hj
  · rw [isPending_eq, isPending_eq, setEnable_eq]
    refine testIrq_setMirrored_of_ne ?_ ?_ <;>
    · simp only [bankWord, irqIdx, irqLimit, pendingSet0, pendingSet, enableSet0, enableSet, enableClr0, enableClr] at *
      split_ifs <;> omega

lemma isPending_setPending_self : isPending (setPending d i b v) i vcpu = b := by
  have hne : bankWord pendingSet0 pendingSet i ≠ bankWord pendingClr0 pendingClr i :=
    bankWord_ne_mirror (by decide) (by decide)
  rw [isPending_eq, setPending_eq, testIrq_eq, getLsbD_setMirrored hne (.inl rfl), if_pos rfl]

/-! ### The enable of the distributor -/

lemma vgicDistIsEnabled_congr {d' : GicDistMap} (g : GicVersion) (h : d'.word ctlr = d.word ctlr) :
    vgicDistIsEnabled g d' = vgicDistIsEnabled g d := by
  cases g <;> simp only [vgicDistIsEnabled, h]

lemma ctlr_ne_bankWord {w0 w : Nat} (h0 : ctlr < w0) (hw : w0 ≤ w) : ctlr ≠ bankWord w0 w i :=
  Nat.ne_of_lt (Nat.lt_of_lt_of_le h0 (bankWord_ge hw i))

lemma word_ctlr_setPending : (setPending d i b v).word ctlr = d.word ctlr := by
  rw [setPending_eq]
  exact word_setMirrored (ctlr_ne_bankWord (by decide) (by decide)) (ctlr_ne_bankWord (by decide) (by decide))

lemma word_ctlr_setEnable : (setEnable d i b v).word ctlr = d.word ctlr := by
  rw [setEnable_eq]
  exact word_setMirrored (ctlr_ne_bankWord (by decide) (by decide)) (ctlr_ne_bankWord (by decide) (by decide))

end Sel4cpVmm
