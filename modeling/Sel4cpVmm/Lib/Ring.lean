import Mathlib.Logic.Function.Basic
import Mathlib.Data.List.Basic
import Mathlib.Tactic.Common

/-!
# Circular buffers

The list a circular buffer of `n` cells holds between two indices, one cell being given up to tell
a full buffer from an empty one.
-/

namespace RingBuffer

variable {α : Type} {n head tail : Nat} {cell : Nat → α}

/-- The index after `i`. -/
def next (n i : Nat) : Nat := if i + 1 < n then i + 1 else 0

/-- The index `i` places after `head`. -/
def index (n head i : Nat) : Nat := if head + i < n then head + i else head + i - n

/-- The number of entries between two indices. -/
def count (n head tail : Nat) : Nat := if head ≤ tail then tail - head else tail + n - head

/-- The entries from `head` up to but excluding `tail`. -/
def content (n : Nat) (cell : Nat → α) (head tail : Nat) : List α :=
  (List.range (count n head tail)).map fun i => cell (index n head i)

lemma next_lt (hn : 0 < n) (i : Nat) : next n i < n := by
  unfold next
  split_ifs <;> omega

lemma next_eq_mod (hi : head < n) : next n head = (head + 1) % n := by
  unfold next
  split_ifs with h
  · exact (Nat.mod_eq_of_lt h).symm
  · rw [show head + 1 = n by omega, Nat.mod_self]

@[simp] lemma length_content : (content n cell head tail).length = count n head tail := by
  simp [content]

lemma count_lt (hh : head < n) (ht : tail < n) : count n head tail < n := by
  unfold count
  split_ifs <;> omega

lemma count_le (hh : head < n) (ht : tail < n) : count n head tail ≤ n - 1 := by
  have hlt := count_lt hh ht
  omega

lemma count_eq_zero (hh : head < n) : count n head tail = 0 ↔ head = tail := by
  unfold count
  split_ifs <;> omega

lemma content_eq_nil (hh : head < n) : content n cell head tail = [] ↔ head = tail := by
  rw [← List.length_eq_zero_iff, length_content, count_eq_zero hh]

lemma next_eq_iff_full (hh : head < n) (ht : tail < n) :
    next n tail = head ↔ count n head tail = n - 1 := by
  unfold next count
  split_ifs <;> omega

/-- Two cells at most `n - 1` places after `head` are the same only at the same place. -/
lemma index_count_ne (hh : head < n) {i : Nat} (hi : i < count n head tail) :
    index n head i ≠ tail := by
  unfold count at hi
  unfold index
  split_ifs at * <;> omega

lemma content_push (hh : head < n) (ht : tail < n) (hfull : next n tail ≠ head) (a : α) :
    content n (Function.update cell tail a) head (next n tail) = content n cell head tail ++ [a] := by
  have hcount : count n head (next n tail) = count n head tail + 1 := by
    unfold count next at *
    split_ifs at * <;> omega
  have hlast : index n head (count n head tail) = tail := by
    unfold index count
    split_ifs <;> omega
  unfold content
  rw [hcount, List.range_succ, List.map_append]
  congr 1
  · apply List.map_congr_left
    intro i hi
    rw [List.mem_range] at hi
    exact Function.update_of_ne (index_count_ne hh hi) _ _
  · simp [hlast]

lemma content_pop (hh : head < n) (ht : tail < n) (hne : head ≠ tail) :
    content n cell head tail = cell head :: content n cell (next n head) tail := by
  have hcount : count n head tail = count n (next n head) tail + 1 := by
    unfold count next at *
    split_ifs at * <;> omega
  have hfirst : index n head 0 = head := by
    unfold index
    split_ifs <;> omega
  unfold content
  rw [hcount, List.range_succ_eq_map, List.map_cons, hfirst, List.map_map]
  congr 1
  apply List.map_congr_left
  intro i hi
  rw [List.mem_range] at hi
  have hstep : index n head (i + 1) = index n (next n head) i := by
    unfold index next count at *
    split_ifs at * <;> omega
  simp [hstep]

end RingBuffer

/-! ### Bounded lists

A list that takes items at the end while it holds fewer than `cap`, and gives them back from the front.
-/

namespace BoundedFifo

variable {α : Type}

inductive Call (α : Type)
  | enqueue (a : α)
  | dequeue

inductive Result (α : Type)
  | enqueued (accepted : Bool)
  | dequeued (item : Option α)

/-- The result of a call, and the list it leaves. -/
def Call.apply (cap : Nat) : Call α → List α → Result α × List α
  | .enqueue a, l => if l.length < cap then (.enqueued true, l ++ [a]) else (.enqueued false, l)
  | .dequeue, [] => (.dequeued none, [])
  | .dequeue, a :: l => (.dequeued (some a), l)

end BoundedFifo
