import Mathlib.Data.List.Nodup
import Mathlib.Tactic.Common

/-!
# Bits of a machine word

Testing, setting and clearing one bit by a shifted mask, and the list of the set bits of a word
peeled off from the lowest.
-/

namespace WordBits

variable {w : Nat} (x : BitVec w) {k j : Nat}

lemma getLsbD_one_shl (hk : k < w) : (1#w <<< k).getLsbD j = decide (j = k) := by
  rw [BitVec.getLsbD_shiftLeft, BitVec.getLsbD_one]
  by_cases h : j = k
  · subst h
    simp [hk]
    omega
  · have h' : ¬(k ≤ j ∧ j - k = 0) := by omega
    simp only [h, decide_false]
    by_cases hj : j < k
    · simp [hj]
    · simp [hj]
      omega

lemma test_eq_getLsbD (hk : k < w) : (x &&& 1#w <<< k != 0) = x.getLsbD k := by
  rw [Bool.eq_iff_iff, bne_iff_ne, ne_eq]
  constructor
  · intro h
    by_contra hx
    apply h
    apply BitVec.eq_of_getLsbD_eq
    intro j _
    rw [BitVec.getLsbD_and, getLsbD_one_shl hk]
    by_cases hj : j = k
    · subst hj
      simpa using hx
    · simp [hj]
  · intro hx h
    have h' := congrArg (fun y => y.getLsbD k) h
    simp [BitVec.getLsbD_and, getLsbD_one_shl hk, hx] at h'

lemma getLsbD_set (hk : k < w) : (x ||| 1#w <<< k).getLsbD j = (x.getLsbD j || decide (j = k)) := by
  rw [BitVec.getLsbD_or, getLsbD_one_shl hk]

lemma getLsbD_clear (hk : k < w) : (x &&& ~~~(1#w <<< k)).getLsbD j = (x.getLsbD j && !decide (j = k)) := by
  rw [BitVec.getLsbD_and, BitVec.getLsbD_not, getLsbD_one_shl hk]
  by_cases hj : j < w
  · simp [hj]
  · simp [BitVec.getLsbD_of_ge x j (by omega)]

/-- The positions of the set bits, in increasing order. -/
def bits : List Nat := (List.range w).filter fun k => x.getLsbD k

/-- The position of the lowest set bit, or the width of the word. -/
def lowest : Nat := ((List.range w).find? fun k => x.getLsbD k).getD w

variable {x}

lemma mem_bits : k ∈ bits x ↔ x.getLsbD k := by
  simp only [bits, List.mem_filter, List.mem_range, and_iff_right_iff_imp]
  exact BitVec.lt_of_getLsbD

lemma bits_eq_nil : bits x = [] ↔ x = 0 := by
  constructor
  · intro h
    apply BitVec.eq_of_getLsbD_eq
    intro j _
    have hj : j ∉ bits x := by rw [h]; simp
    rw [mem_bits] at hj
    simpa using hj
  · rintro rfl
    simp [bits]

lemma bits_one_shl (hk : k < w) : bits (1#w <<< k) = [k] := by
  have hfilter : bits (1#w <<< k) = (List.range w).filter fun j => decide (j = k) := by
    refine List.filter_congr fun j _ => ?_
    rw [getLsbD_one_shl hk]
  rw [hfilter, List.filter_eq, List.count_eq_one_of_mem List.nodup_range (List.mem_range.mpr hk)]
  rfl

lemma length_bits_le : (bits x).length ≤ w := by
  simpa [bits] using List.length_filter_le (fun k => x.getLsbD k) (List.range w)

lemma filter_eq_cons {l : List Nat} (hl : l.Nodup) {p : Nat → Bool} {a : Nat} (h : l.find? p = some a) :
    l.filter p = a :: l.filter fun b => p b && !decide (b = a) := by
  induction l with
  | nil => simp at h
  | cons b l ih =>
    obtain ⟨hb, hl⟩ := List.nodup_cons.mp hl
    by_cases hp : p b
    · rw [List.find?_cons_of_pos hp] at h
      obtain rfl := Option.some.inj h
      have hrest : l.filter p = l.filter fun c => p c && !decide (c = b) := by
        apply List.filter_congr
        intro c hc
        have hcb : c ≠ b := fun h => hb (h ▸ hc)
        simp [hcb]
      simp [hp, hrest]
    · rw [List.find?_cons_of_neg hp] at h
      simp [hp, ih hl h]

lemma bits_eq_cons (h : x ≠ 0) : bits x = lowest x :: bits (x &&& ~~~(1#w <<< lowest x)) := by
  cases hf : (List.range w).find? fun k => x.getLsbD k with
  | none =>
    rw [List.find?_eq_none] at hf
    have hnil : bits x = [] := List.filter_eq_nil_iff.mpr hf
    exact absurd (bits_eq_nil.mp hnil) h
  | some a =>
    have hlow : lowest x = a := by simp [lowest, hf]
    have ha : a < w := List.mem_range.mp (List.mem_of_find?_eq_some hf)
    rw [hlow]
    unfold bits
    rw [filter_eq_cons List.nodup_range hf]
    congr 1
    apply List.filter_congr
    intro b _
    rw [getLsbD_clear _ ha]

/-- What is merged under a mask is the part of `z` there and nothing else exactly when nothing is left outside. -/
lemma merge_eq_iff {x y z m : BitVec w} :
    (x &&& ~~~m) ||| (y &&& m) = z &&& m ↔ x &&& ~~~m = 0 ∧ y &&& m = z &&& m := by
  constructor
  · intro h
    have hbit : ∀ j < w, ((x.getLsbD j && !m.getLsbD j) || (y.getLsbD j && m.getLsbD j)) =
        (z.getLsbD j && m.getLsbD j) := by
      intro j hj
      have hj' := congrArg (fun v => v.getLsbD j) h
      simpa [hj] using hj'
    refine ⟨BitVec.eq_of_getLsbD_eq fun j hj => ?_, BitVec.eq_of_getLsbD_eq fun j hj => ?_⟩
    · have hb := hbit j hj
      simp only [BitVec.getLsbD_and, BitVec.getLsbD_not, hj, decide_true, Bool.true_and]
      cases hm : m.getLsbD j
      · rw [hm] at hb
        simpa using hb
      · simp
    · have hb := hbit j hj
      simp only [BitVec.getLsbD_and]
      cases hm : m.getLsbD j
      · simp
      · rw [hm] at hb
        simpa using hb
  · rintro ⟨h0, h⟩
    rw [h0, h]
    simp

/-- Sparing the bits of `m` makes no difference to what is cleared exactly when none of them is to be cleared. -/
lemma clear_spared_iff {x y m : BitVec w} : x &&& ~~~y = x &&& ~~~(y &&& ~~~m) ↔ y &&& m &&& x = 0 := by
  constructor
  · intro h
    apply BitVec.eq_of_getLsbD_eq
    intro j hj
    have hbit := congrArg (fun v => v.getLsbD j) h
    simp only [BitVec.getLsbD_and, BitVec.getLsbD_not, hj, decide_true, Bool.true_and] at hbit ⊢
    cases hx : x.getLsbD j <;> cases hy : y.getLsbD j <;> cases hm : m.getLsbD j <;> simp_all
  · intro h
    apply BitVec.eq_of_getLsbD_eq
    intro j hj
    have hbit := congrArg (fun v => v.getLsbD j) h
    simp only [BitVec.getLsbD_and, BitVec.getLsbD_not, hj, decide_true, Bool.true_and] at hbit ⊢
    cases hx : x.getLsbD j <;> cases hy : y.getLsbD j <;> cases hm : m.getLsbD j <;> simp_all

end WordBits
