import Mathlib.Logic.Function.Basic
import Mathlib.Tactic.Common

/-!
# Little-endian byte memory

A memory maps addresses to bytes. An array of 32-bit words is such a memory, and replacing a lane of one word
is a store into it.
-/

namespace ByteMemory

/-- A byte for every address. -/
abbrev Memory : Type := Nat → BitVec 8

/-- Stores the `n` low bytes of `v` at `a`. -/
def Memory.store {w : Nat} (m : Memory) (a n : Nat) (v : BitVec w) : Memory :=
  fun b => if a ≤ b ∧ b < a + n then v.extractLsb' (8 * (b - a)) 8 else m b

/-- The bytes of an array of words. -/
def ofWords (word : Nat → BitVec 32) : Memory := fun a => (word (a / 4)).extractLsb' (8 * (a % 4)) 8

variable {m : Memory} {word word' : Nat → BitVec 32} {w a b n j k : Nat} {v : BitVec w}

lemma store_of_mem (h : a ≤ b ∧ b < a + n) : m.store a n v b = v.extractLsb' (8 * (b - a)) 8 := if_pos h

lemma store_of_not_mem (h : ¬(a ≤ b ∧ b < a + n)) : m.store a n v b = m b := if_neg h

lemma getLsbD_ofWords (h : j < 8) : (ofWords word a).getLsbD j = (word (a / 4)).getLsbD (8 * (a % 4) + j) := by
  rw [ofWords, BitVec.getLsbD_extractLsb', decide_eq_true h, Bool.true_and]

lemma ofWords_congr (h : word (a / 4) = word' (a / 4)) : ofWords word a = ofWords word' a := by
  rw [ofWords, ofWords, h]

/-- The word `x` is `old` with the `n` bytes from byte `i` on replaced by the low bytes of `v`. -/
def LaneReplaced (old x : BitVec 32) (i n : Nat) (v : BitVec w) : Prop :=
  ∀ j < 32, x.getLsbD j = if 8 * i ≤ j ∧ j < 8 * (i + n) then v.getLsbD (j - 8 * i) else old.getLsbD j

lemma ofWords_update {x : BitVec 32} (hle : a % 4 + n ≤ 4) (hx : LaneReplaced (word (a / 4)) x (a % 4) n v) :
    ofWords (Function.update word (a / 4) x) = (ofWords word).store a n v := by
  funext b
  by_cases hb : b / 4 = a / 4
  · apply BitVec.eq_of_getLsbD_eq
    intro j hj
    rw [getLsbD_ofWords hj, hb, Function.update_self, hx _ (by omega)]
    by_cases hin : a ≤ b ∧ b < a + n
    · rw [store_of_mem hin, BitVec.getLsbD_extractLsb', decide_eq_true hj, Bool.true_and, if_pos (by omega)]
      congr 1
      omega
    · rw [store_of_not_mem hin, getLsbD_ofWords hj, hb, if_neg (by omega)]
  · rw [store_of_not_mem (by omega)]
    exact ofWords_congr (Function.update_of_ne hb _ _)

lemma extractLsb'_lane (hle : a % 4 + n ≤ 4) (hk : k < n)
    (hv : ∀ j < 8 * n, v.getLsbD j = (word (a / 4)).getLsbD (8 * (a % 4) + j)) :
    v.extractLsb' (8 * k) 8 = ofWords word (a + k) := by
  have hword : (a + k) / 4 = a / 4 := by omega
  apply BitVec.eq_of_getLsbD_eq
  intro j hj
  rw [BitVec.getLsbD_extractLsb', decide_eq_true hj, Bool.true_and, hv _ (by omega), getLsbD_ofWords hj, hword]
  congr 1
  omega

end ByteMemory
