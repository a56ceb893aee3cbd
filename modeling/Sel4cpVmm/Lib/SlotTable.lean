import Mathlib.Data.List.FinRange
import Mathlib.Logic.Function.Basic
import Mathlib.Tactic.Common

/-!
# Tables filled from the first slot on

A table of `n` slots of which the first hold the items of a list, in order, and the others a default item. The
first slot in the default state is the one behind the list, and a search through the slots is one through the
list.
-/

namespace SlotTable

variable {α : Type} {n : Nat} {d : α} {l : List α}

/-- The items of the list in the first slots, `d` in those that are left. -/
def fill (d : α) (l : List α) (i : Fin n) : α := l[(i : Nat)]?.getD d

lemma fill_of_lt {i : Fin n} (h : i < l.length) : fill d l i = l[(i : Nat)] := by simp [fill, h]

lemma fill_of_ge {i : Fin n} (h : l.length ≤ i) : fill d l i = d := by simp [fill, h]

lemma fill_append (h : l.length < n) (a : α) :
    (fill d (l ++ [a]) : Fin n → α) = Function.update (fill d l) ⟨l.length, h⟩ a := by
  funext i
  by_cases hi : i = ⟨l.length, h⟩
  · subst hi
    simp [fill]
  · have hne : (i : Nat) ≠ l.length := fun h' => hi (Fin.ext h')
    rw [Function.update_of_ne hi]
    by_cases hlt : (i : Nat) < l.length
    · simp [fill, List.getElem?_append_left hlt]
    · have hgt : l.length < i := by omega
      rw [fill_of_ge hgt.le, fill_of_ge (by simpa [Nat.succ_le_iff] using hgt)]

variable {p : α → Bool}

lemma find?_free (hd : p d = true) (hl : ∀ a ∈ l, p a = false) :
    (List.finRange n).find? (fun i => p (fill d l i)) = if h : l.length < n then some ⟨l.length, h⟩ else none := by
  split_ifs with h
  · refine List.find?_eq_some_iff_getElem.mpr ⟨by simpa [fill] using hd, l.length, by simpa using h, by simp, ?_⟩
    intro j hj
    have hj' : p (l[j]) = false := hl _ (List.getElem_mem hj)
    simp [fill, hj, hj']
  · refine List.find?_eq_none.mpr fun i _ => ?_
    have hi : (i : Nat) < l.length := by omega
    rw [fill_of_lt hi, hl _ (List.getElem_mem hi)]
    simp

lemma find?_fill (hd : p d = false) (hn : l.length ≤ n) :
    ((List.finRange n).find? fun i => p (fill d l i)).map (fill d l) = l.find? p := by
  have hall : (List.finRange n).map (fill d l) = l ++ List.replicate (n - l.length) d := by
    refine List.ext_getElem (by simp; omega) fun i hi hi' => ?_
    simp only [List.getElem_map, List.getElem_finRange]
    by_cases hlt : i < l.length
    · simp [fill, hlt]
    · simp [fill, List.getElem_append_right (Nat.not_lt.mp hlt), Nat.not_lt.mp hlt]
  have hfind := congrArg (List.find? p) hall
  rw [List.find?_map, List.find?_append, List.find?_replicate] at hfind
  simp only [hd, Bool.false_eq_true, if_false, ite_self, Option.or_none] at hfind
  exact hfind

end SlotTable
