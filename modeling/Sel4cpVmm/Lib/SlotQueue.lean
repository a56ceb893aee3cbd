import Mathlib.Algebra.BigOperators.Group.Finset.Basic
import Mathlib.Algebra.BigOperators.Fin
import Mathlib.Algebra.Order.BigOperators.Group.Finset
import Mathlib.Data.Multiset.AddSub
import Mathlib.Data.Fintype.Basic
import Mathlib.Data.Finset.Card
import Mathlib.Tactic.Abel

/-!
# Slots with an overflow queue

A fixed number of slots, each empty or holding one item, and a queue of the items for which no slot
was free. An item is offered at the back of the queue and the head of the queue moves into the
first free slot; a slot is freed, and refilled from the head of the queue.
-/

/-- `n` slots and the items waiting for one. -/
@[ext] structure SlotQueue (n : Nat) (α : Type) where
  slot : Fin n → Option α
  waiting : List α

namespace SlotQueue

variable {n : Nat} {α : Type} (q : SlotQueue n α)

/-- No item waits while a slot is free. -/
def WorkConserving : Prop := q.waiting ≠ [] → ∀ k, (q.slot k).isSome

/-- The items in a slot or waiting. -/
def residents : Multiset α := (∑ k, Multiset.ofList (q.slot k).toList) + Multiset.ofList q.waiting

def held : Multiset α := ∑ k, Multiset.ofList (q.slot k).toList

def firstFree : Option (Fin n) := (List.finRange n).find? fun k => (q.slot k).isNone

def enqueue (a : α) : SlotQueue n α := { q with waiting := q.waiting ++ [a] }

/-- Moves the head of the queue into slot `k`. -/
def load (k : Fin n) : SlotQueue n α :=
  match q.waiting with
  | [] => q
  | a :: w => ⟨Function.update q.slot k (some a), w⟩

def offer (a : α) : SlotQueue n α :=
  match q.firstFree with
  | none => q.enqueue a
  | some k => (q.enqueue a).load k

def free (k : Fin n) : SlotQueue n α := { q with slot := Function.update q.slot k none }

def retire (k : Fin n) : SlotQueue n α := (q.free k).load k

variable {q}

lemma firstFree_eq_none : q.firstFree = none ↔ ∀ k, (q.slot k).isSome := by
  simp [firstFree, Option.isSome_iff_ne_none]

lemma slot_of_firstFree {k : Fin n} (h : q.firstFree = some k) : q.slot k = none := by
  simpa using List.find?_some h

lemma load_waiting (k : Fin n) : q.waiting.head?.toList ++ (q.load k).waiting = q.waiting := by
  unfold load
  cases hw : q.waiting <;> simp [hw]

lemma load_of_nil {k : Fin n} (h : q.waiting.head? = none) : q.load k = q := by
  unfold load
  rw [List.head?_eq_none_iff.mp h]

lemma slot_load {k : Fin n} {a : α} (h : q.waiting.head? = some a) :
    (q.load k).slot = Function.update q.slot k (some a) := by
  obtain ⟨w, hw⟩ := List.head?_eq_some_iff.mp h
  unfold load
  rw [hw]

/-! ### Residents -/

lemma mem_residents {a : α} : a ∈ q.residents ↔ (∃ k, q.slot k = some a) ∨ a ∈ q.waiting := by
  simp [residents, Multiset.mem_sum, Option.mem_toList]

lemma residents_held : q.residents = q.held + Multiset.ofList q.waiting := rfl

lemma held_eq : q.held = Multiset.ofList ((List.finRange n).flatMap fun k => (q.slot k).toList) := by
  have hsum : ∀ l : List (Fin n), (l.map fun k => Multiset.ofList (q.slot k).toList).sum =
      Multiset.ofList (l.flatMap fun k => (q.slot k).toList) := by
    intro l
    induction l with
    | nil => rfl
    | cons k l ih => rw [List.map_cons, List.sum_cons, ih, List.flatMap_cons, Multiset.coe_add]
  rw [held, Fin.sum_univ_def, hsum]

lemma residents_eq :
    q.residents = Multiset.ofList (((List.finRange n).flatMap fun k => (q.slot k).toList) ++ q.waiting) := by
  rw [residents_held, held_eq, Multiset.coe_add]

lemma card_residents : q.residents.card = (∑ k, (q.slot k).toList.length) + q.waiting.length := by
  simp [residents]

lemma card_residents_le : q.residents.card ≤ n + q.waiting.length := by
  have hone : ∀ k ∈ (Finset.univ : Finset (Fin n)), (q.slot k).toList.length ≤ 1 := fun k _ => by
    cases q.slot k <;> simp
  have hsum := Finset.sum_le_card_nsmul Finset.univ _ 1 hone
  simp only [Finset.card_univ, Fintype.card_fin, smul_eq_mul, mul_one] at hsum
  rw [card_residents]
  omega

lemma card_residents_full (h : ∀ k, (q.slot k).isSome) : q.residents.card = n + q.waiting.length := by
  have hone : ∀ k, (q.slot k).toList.length = 1 := fun k => by
    obtain ⟨a, ha⟩ := Option.isSome_iff_exists.mp (h k)
    simp [ha]
  simp [card_residents, hone]

lemma sum_update (f : Fin n → Option α) (k : Fin n) (o : Option α) :
    (∑ j, Multiset.ofList (Function.update f k o j).toList) + Multiset.ofList (f k).toList =
      (∑ j, Multiset.ofList (f j).toList) + Multiset.ofList o.toList := by
  have hrest : ∀ g : Fin n → Option α, ∑ j, Multiset.ofList (g j).toList =
      Multiset.ofList (g k).toList + ∑ j ∈ Finset.univ.erase k, Multiset.ofList (g j).toList :=
    fun g => (Finset.add_sum_erase _ _ (Finset.mem_univ k)).symm
  have hsame : ∑ j ∈ Finset.univ.erase k, Multiset.ofList (Function.update f k o j).toList =
      ∑ j ∈ Finset.univ.erase k, Multiset.ofList (f j).toList := by
    apply Finset.sum_congr rfl
    intro j hj
    rw [Function.update_of_ne (Finset.ne_of_mem_erase hj)]
  rw [hrest f, hrest (Function.update f k o), hsame, Function.update_self]
  abel

lemma held_load {k : Fin n} (h : q.slot k = none) :
    (q.load k).held = Multiset.ofList q.waiting.head?.toList + q.held := by
  unfold load
  split
  · rename_i hw
    simp [hw]
  · rename_i a w hw
    have hsum := sum_update q.slot k (some a)
    rw [h] at hsum
    simp only [Option.toList_none, Multiset.coe_nil, add_zero] at hsum
    simp only [held, hsum, hw, List.head?_cons]
    exact add_comm _ _

lemma held_free {k : Fin n} {a : α} (h : q.slot k = some a) : q.held = a ::ₘ (q.free k).held := by
  have hsum := sum_update q.slot k none
  rw [h] at hsum
  simp only [Option.toList_none, Multiset.coe_nil, add_zero, Option.toList_some] at hsum
  simp only [held, free, ← hsum]
  rw [← Multiset.singleton_add, Multiset.coe_singleton]
  exact add_comm _ _

@[simp] lemma residents_enqueue (a : α) : (q.enqueue a).residents = a ::ₘ q.residents := by
  rw [residents, enqueue, ← Multiset.coe_add, ← add_assoc, Multiset.coe_singleton, ← Multiset.singleton_add,
    add_comm, residents]

lemma residents_load {k : Fin n} (h : q.slot k = none) : (q.load k).residents = q.residents := by
  rw [residents_held, residents_held, held_load h, add_right_comm, Multiset.coe_add, load_waiting, add_comm]

lemma residents_free {k : Fin n} {a : α} (h : q.slot k = some a) : q.residents = a ::ₘ (q.free k).residents := by
  rw [residents_held, held_free h, Multiset.cons_add]
  rfl

@[simp] lemma residents_offer (a : α) : (q.offer a).residents = a ::ₘ q.residents := by
  unfold offer
  split
  · exact residents_enqueue a
  · rename_i k hk
    have hfree : (q.enqueue a).slot k = none := slot_of_firstFree hk
    rw [residents_load hfree, residents_enqueue]

lemma residents_retire {k : Fin n} {a : α} (h : q.slot k = some a) :
    q.residents = a ::ₘ (q.retire k).residents := by
  rw [residents_free h, retire, residents_load]
  simp [free]

lemma mem_of_mem_load {k : Fin n} {a : α} (h : a ∈ (q.load k).residents) : a ∈ q.residents := by
  unfold load at h
  split at h
  · exact h
  · rename_i b w hw
    rw [mem_residents] at h ⊢
    rcases h with ⟨j, hj⟩ | h
    · by_cases hjk : j = k
      · subst hjk
        obtain rfl : b = a := by simpa using hj
        exact .inr (by simp [hw])
      · exact .inl ⟨j, by simpa [hjk] using hj⟩
    · exact .inr (by simp [hw, h])

/-! ### Full slots -/

lemma mem_held {a : α} : a ∈ q.held ↔ ∃ k, q.slot k = some a := by
  simp [held, Multiset.mem_sum, Option.mem_toList]

lemma card_held_full (h : ∀ k, (q.slot k).isSome) : q.held.card = n := by
  have hcard := card_residents_full h
  rw [residents_held, Multiset.card_add, Multiset.coe_card] at hcard
  omega

/-- Where fewer than all of the items held satisfy `p`, some slot holds one that does not. -/
lemma exists_slot_of_countP_lt (h : ∀ k, (q.slot k).isSome) {p : α → Prop} [DecidablePred p] (hlt : q.held.countP p < n) :
    ∃ k a, q.slot k = some a ∧ ¬p a := by
  by_contra hnone
  have hall : ∀ a ∈ q.held, p a := fun a ha => by
    obtain ⟨k, hk⟩ := mem_held.mp ha
    by_contra hp
    exact hnone ⟨k, a, hk, hp⟩
  rw [Multiset.countP_eq_card.mpr hall, card_held_full h] at hlt
  exact Nat.lt_irrefl _ hlt

lemma held_retire {k : Fin n} {a : α} (h : q.slot k = some a) :
    a ::ₘ (q.retire k).held = Multiset.ofList q.waiting.head?.toList + q.held := by
  have hfree : (q.free k).slot k = none := by simp [free]
  rw [retire, held_load hfree, ← Multiset.add_cons, ← held_free h]
  rfl

lemma waiting_retire (k : Fin n) : (q.retire k).waiting = q.waiting.tail := by
  unfold retire load
  cases hw : q.waiting <;> simp [free, hw]

/-! ### No waiting while a slot is free -/

/-- No item waits while a slot other than `k` is free. -/
def WorkConservingBut (k : Fin n) : Prop := q.waiting ≠ [] → ∀ j ≠ k, (q.slot j).isSome

lemma workConservingBut_free (h : q.WorkConserving) (k : Fin n) : (q.free k).WorkConservingBut k := by
  intro hne j hj
  simpa [free, hj] using h hne j

lemma workConserving_load {k : Fin n} (h : q.WorkConservingBut k) : (q.load k).WorkConserving := by
  unfold load
  split
  · rename_i hw
    exact fun hne => absurd hw hne
  · rename_i a w hw
    intro _ j
    by_cases hj : j = k
    · simp [hj]
    · simpa [hj] using h (by simp [hw]) j hj

lemma workConserving_retire (h : q.WorkConserving) (k : Fin n) : (q.retire k).WorkConserving :=
  workConserving_load (workConservingBut_free h k)

lemma offer_of_none (h : q.firstFree = none) (a : α) : q.offer a = q.enqueue a := by rw [offer, h]

lemma offer_of_some {i : Fin n} (h : q.firstFree = some i) (a : α) : q.offer a = (q.enqueue a).load i := by
  rw [offer, h]

lemma workConservingBut_offer {k : Fin n} (h : q.WorkConservingBut k) (a : α) : (q.offer a).WorkConservingBut k := by
  cases hf : q.firstFree with
  | none =>
    rw [offer_of_none hf]
    exact fun _ j _ => firstFree_eq_none.mp hf j
  | some i =>
    rw [offer_of_some hf]
    cases hw : q.waiting with
    | nil => simp [WorkConservingBut, load, enqueue, hw]
    | cons b w =>
      intro _ j hj
      have hsome := h (by simp [hw]) j hj
      by_cases hji : j = i <;> simp [load, enqueue, hw, hji, hsome]

lemma workConserving_offer (h : q.WorkConserving) (a : α) : (q.offer a).WorkConserving := by
  cases hf : q.firstFree with
  | none =>
    rw [offer_of_none hf]
    exact fun _ => firstFree_eq_none.mp hf
  | some i =>
    have hw : q.waiting = [] := by
      by_contra hne
      have hsome := h hne i
      rw [slot_of_firstFree hf] at hsome
      exact absurd hsome (by simp)
    rw [offer_of_some hf]
    simp [WorkConserving, load, enqueue, hw]

/-! ### Several offers -/

def freeSlots : Finset (Fin n) := Finset.univ.filter fun k => (q.slot k).isNone

lemma firstFree_eq_none_iff : q.firstFree = none ↔ q.freeSlots.card = 0 := by
  rw [firstFree_eq_none, Finset.card_eq_zero, freeSlots, Finset.filter_eq_empty_iff]
  simp [Option.isSome_iff_ne_none]

lemma offer_counts (a : α) : (q.offer a).freeSlots.card = q.freeSlots.card - 1 ∧
    (q.offer a).waiting.length = q.waiting.length + (1 - q.freeSlots.card) := by
  cases hf : q.firstFree with
  | none =>
    have hcard := firstFree_eq_none_iff.mp hf
    rw [offer_of_none hf, hcard]
    exact ⟨hcard, by simp [enqueue]⟩
  | some k =>
    have hmem : k ∈ q.freeSlots := by simp [freeSlots, slot_of_firstFree hf]
    have hpos := Finset.card_pos.mpr ⟨k, hmem⟩
    have herase : ((q.enqueue a).load k).freeSlots = q.freeSlots.erase k := by
      ext j
      by_cases hj : j = k <;> cases hw : q.waiting <;> simp [freeSlots, load, enqueue, hw, hj]
    rw [offer_of_some hf]
    refine ⟨by rw [herase, Finset.card_erase_of_mem hmem], ?_⟩
    have hlen : ((q.enqueue a).load k).waiting.length = q.waiting.length := by
      cases hw : q.waiting <;> simp [load, enqueue, hw]
    omega

lemma offers_counts (l : List α) : (l.foldl offer q).freeSlots.card = q.freeSlots.card - l.length ∧
    (l.foldl offer q).waiting.length = q.waiting.length + (l.length - q.freeSlots.card) := by
  induction l generalizing q with
  | nil => simp
  | cons a l ih =>
    obtain ⟨hcard, hlen⟩ := ih (q := q.offer a)
    obtain ⟨hcard', hlen'⟩ := q.offer_counts a
    rw [List.foldl_cons, List.length_cons]
    omega

lemma residents_offers (l : List α) : (l.foldl offer q).residents = Multiset.ofList l + q.residents := by
  induction l generalizing q with
  | nil => simp
  | cons a l ih =>
    rw [List.foldl_cons, ih, residents_offer, ← Multiset.cons_coe, Multiset.add_cons, Multiset.cons_add]

lemma card_freeSlots_free {k : Fin n} (h : (q.slot k).isSome) : (q.free k).freeSlots.card = q.freeSlots.card + 1 := by
  have hnot : k ∉ q.freeSlots := by simp [freeSlots, Option.isSome_iff_ne_none.mp h]
  have hinsert : (q.free k).freeSlots = insert k q.freeSlots := by
    ext j
    by_cases hj : j = k <;> simp [freeSlots, free, hj]
  rw [hinsert, Finset.card_insert_of_notMem hnot]

/-- After a slot is freed and items are offered, reloading that slot from the queue overwrites nothing
exactly when nothing was offered, or when nothing waited and every item found a free slot. -/
theorem reload_iff (h : q.WorkConserving) {k : Fin n} (hk : (q.slot k).isSome) (l : List α) :
    ((l.foldl offer (q.free k)).waiting = [] ∨ (l.foldl offer (q.free k)).slot k = none) ↔
      l = [] ∨ (q.waiting = [] ∧ l.length ≤ q.freeSlots.card + 1) := by
  obtain ⟨hcard, hlen⟩ := (q.free k).offers_counts l
  rw [card_freeSlots_free hk] at hcard hlen
  have hwait : (q.free k).waiting = q.waiting := rfl
  rw [hwait] at hlen
  by_cases hl : l = []
  · subst hl
    simp [free]
  · have hpos := List.length_pos_iff.mpr hl
    simp only [← List.length_eq_zero_iff, hlen]
    constructor
    · rintro (hzero | hnone)
      · exact .inr (by omega)
      · -- a slot is left, so not all of them were taken before
        have hmem : k ∈ (l.foldl offer (q.free k)).freeSlots := by simp [freeSlots, hnone]
        have hleft := Finset.card_pos.mpr ⟨k, hmem⟩
        refine .inr ⟨?_, by omega⟩
        by_contra hne
        have hfull : q.freeSlots.card = 0 :=
          firstFree_eq_none_iff.mp (firstFree_eq_none.mpr (h (by simpa using hne)))
        omega
    · rintro (hnil | ⟨hzero, hle⟩)
      · exact absurd (List.length_eq_zero_iff.mp hnil) hl
      · exact .inl (by omega)

/-! ### Items with other names -/

section Map

variable {β : Type} (f : α → β)

def map (q : SlotQueue n α) : SlotQueue n β := ⟨fun k => (q.slot k).map f, q.waiting.map f⟩

@[simp] lemma slot_map (k : Fin n) : (q.map f).slot k = (q.slot k).map f := rfl

@[simp] lemma waiting_map : (q.map f).waiting = q.waiting.map f := rfl

@[simp] lemma firstFree_map : (q.map f).firstFree = q.firstFree := by
  simp [firstFree]

lemma enqueue_map (a : α) : (q.enqueue a).map f = (q.map f).enqueue (f a) := by
  simp [enqueue, map]

lemma load_map (k : Fin n) : (q.load k).map f = (q.map f).load k := by
  cases hw : q.waiting with
  | nil => simp [load, map, hw]
  | cons a w =>
    ext1
    · funext j
      by_cases hj : j = k
      · simp [load, map, hw, hj]
      · simp [load, map, hw, hj]
    · simp [load, map, hw]

lemma free_map (k : Fin n) : (q.free k).map f = (q.map f).free k := by
  ext1
  · funext j
    by_cases hj : j = k
    · simp [free, map, hj]
    · simp [free, map, hj]
  · rfl

lemma offer_map (a : α) : (q.offer a).map f = (q.map f).offer (f a) := by
  cases hfree : q.firstFree with
  | none => rw [offer_of_none hfree, offer_of_none ((firstFree_map f).trans hfree), enqueue_map]
  | some k => rw [offer_of_some hfree, offer_of_some ((firstFree_map f).trans hfree), load_map, enqueue_map]

lemma retire_map (k : Fin n) : (q.retire k).map f = (q.map f).retire k := by
  rw [retire, retire, load_map, free_map]

lemma residents_map : (q.map f).residents = q.residents.map f := by
  rw [residents_eq, residents_eq, Multiset.map_coe]
  simp [List.map_flatMap, Option.toList_map]

lemma workConserving_map : (q.map f).WorkConserving ↔ q.WorkConserving := by
  simp [WorkConserving]

end Map

end SlotQueue
