import Mathlib.Data.List.Basic
import Mathlib.Tactic.Common

/-!
# Latches over a trace

A bit that some events of a trace set and others clear, with what appending events does to it.
-/

namespace Latch

variable {α : Type} (set clear : α → Bool)

def step (b : Bool) (e : α) : Bool := (b || set e) && !clear e

/-- The bit after the events of a trace, oldest first. -/
def value (l : List α) : Bool := l.foldl (step set clear) false

variable {set clear} {l l' : List α} {e : α} {b : Bool}

lemma value_append : value set clear (l ++ l') = l'.foldl (step set clear) (value set clear l) := List.foldl_append

lemma foldl_of_not_set (h : ∀ e ∈ l, set e = false) (hb : l.foldl (step set clear) b = true) : b = true := by
  induction l generalizing b with
  | nil => exact hb
  | cons e l ih =>
    have hstep := ih (fun e' he' => h e' (by simp [he'])) hb
    simp only [step, h e (by simp), Bool.or_false, Bool.and_eq_true] at hstep
    exact hstep.1

lemma of_value_append (h : ∀ e ∈ l', set e = false) (hb : value set clear (l ++ l') = true) :
    value set clear l = true := by
  rw [value_append] at hb
  exact foldl_of_not_set h hb

lemma value_append_cleared (he : clear e = true) (h : ∀ e ∈ l', set e = false) :
    value set clear (l ++ e :: l') = false := by
  rw [value_append, List.foldl_cons]
  by_contra hb
  have hstep := foldl_of_not_set h (Bool.of_not_eq_false hb)
  simp [step, he] at hstep

lemma foldl_of_quiet (h : ∀ e ∈ l, set e = false ∧ clear e = false) : l.foldl (step set clear) b = b := by
  induction l generalizing b with
  | nil => rfl
  | cons e l ih =>
    obtain ⟨hset, hclear⟩ := h e (by simp)
    rw [List.foldl_cons, ih fun e' he' => h e' (by simp [he'])]
    simp [step, hset, hclear]

lemma value_append_quiet (h : ∀ e ∈ l', set e = false ∧ clear e = false) :
    value set clear (l ++ l') = value set clear l := by
  rw [value_append, foldl_of_quiet h]

end Latch
