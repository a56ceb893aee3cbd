import Sel4cpVmm.Lib.SlotQueue

/-!
# Interrupt controllers

A controller presents the interrupts of its sources in slots, each source at most once, and queues those for which
no slot is free. It reacts to an input by emitting outputs; a run emits them one input after the other.
-/

/-- A controller with `n` slots over the sources `ι`. -/
@[ext] structure Controller (n : Nat) (ι : Type) where
  on : Bool
  known : ι → Bool
  enabled : ι → Bool
  lines : SlotQueue n ι

namespace Controller

variable {n : Nat} {ι : Type}

inductive Input (n : Nat) (ι : Type)
  | raise (i : ι)
  | retire (k : Fin n)
  | enable (i : ι)
  | disable (i : ι)
  | switch (on : Bool)

/-- What a controller with slots named by `κ` can be seen doing. -/
inductive Output (κ ι : Type)
  | load (k : κ) (i : ι)
  | ack (i : ι)
  deriving DecidableEq

def Output.rename {κ κ' : Type} (f : κ → κ') : Output κ ι → Output κ' ι
  | .load k i => .load (f k) i
  | .ack i => .ack i

def Input.isRetire : Input n ι → Bool
  | .retire _ => true
  | _ => false

section Step

variable [DecidableEq ι]

/-- The controller takes an interrupt of `i`. -/
def Takes (c : Controller n ι) (i : ι) : Prop :=
  c.on = true ∧ c.known i = true ∧ c.enabled i = true ∧ i ∉ c.lines.residents

instance (c : Controller n ι) (i : ι) : Decidable (c.Takes i) := inferInstanceAs (Decidable (_ ∧ _ ∧ _ ∧ _))

def step (c : Controller n ι) : Input n ι → Controller n ι × List (Output (Fin n) ι)
  | .raise i =>
    if c.Takes i then
      ({ c with lines := c.lines.offer i },
        (c.lines.firstFree.bind fun k => (c.lines.enqueue i).waiting.head?.map (.load k)).toList)
    else (c, [])
  | .retire k =>
    match c.lines.slot k with
    | some i => ({ c with lines := c.lines.retire k }, .ack i :: (c.lines.waiting.head?.map (.load k)).toList)
    | none => (c, [])
  | .enable i =>
    ({ c with enabled := Function.update c.enabled i true },
      if c.known i = true ∧ i ∉ c.lines.residents then [.ack i] else [])
  | .disable i => ({ c with enabled := Function.update c.enabled i false }, [])
  | .switch on => ({ c with on := on }, [])

def run (c : Controller n ι) : List (Input n ι) → Controller n ι × List (Output (Fin n) ι)
  | [] => (c, [])
  | a :: l => (((c.step a).1.run l).1, (c.step a).2 ++ ((c.step a).1.run l).2)

variable {c : Controller n ι} {i : ι}

lemma run_append (l l' : List (Input n ι)) :
    c.run (l ++ l') = (((c.run l).1.run l').1, (c.run l).2 ++ ((c.run l).1.run l').2) := by
  induction l generalizing c with
  | nil => rfl
  | cons a l ih => simp [run, ih]

lemma run_one (a : Input n ι) : c.run [a] = c.step a := by simp [run]

/-- What every input keeps, a run keeps. -/
theorem run_invariant {I : Controller n ι → Prop} {l : List (Input n ι)} (h : ∀ c, ∀ a ∈ l, I c → I (c.step a).1)
    (hc : I c) : I (c.run l).1 := by
  induction l generalizing c with
  | nil => exact hc
  | cons a l ih =>
    exact ih (fun c b hb => h c b (List.mem_cons_of_mem a hb)) (h c a List.mem_cons_self hc)

/-- If no input emits an output in states of an invariant that all inputs keep, a run from one does not. -/
theorem run_never {I : Controller n ι → Prop} {o : Output (Fin n) ι} {l : List (Input n ι)}
    (h : ∀ c, ∀ a ∈ l, I c → I (c.step a).1 ∧ o ∉ (c.step a).2) (hc : I c) : o ∉ (c.run l).2 := by
  induction l generalizing c with
  | nil => simp [run]
  | cons a l ih =>
    have hstep := h c a List.mem_cons_self hc
    rw [run, List.mem_append, not_or]
    exact ⟨hstep.2, ih (fun c b hb => h c b (List.mem_cons_of_mem a hb)) hstep.1⟩

/-! ### No slot is free while an interrupt waits -/

lemma workConserving_step (h : c.lines.WorkConserving) (a : Input n ι) : (c.step a).1.lines.WorkConserving := by
  cases a with
  | raise i =>
    rw [step]
    split_ifs
    · exact SlotQueue.workConserving_offer h i
    · exact h
  | retire k =>
    rw [step]
    split
    · exact SlotQueue.workConserving_retire h k
    · exact h
  | _ => exact h

/-! ### Waiting is bounded -/

/-- An input leaves the queue in its order: a retirement loads the head, any other input may add an item. -/
lemma waiting_step (h : c.lines.WorkConserving) (hne : c.lines.waiting ≠ []) (a : Input n ι) :
    (∃ k i, a = .retire k ∧ c.lines.waiting.head? = some i ∧ .load k i ∈ (c.step a).2 ∧
      (c.step a).1.lines.waiting = c.lines.waiting.tail) ∨
    (a.isRetire = false ∧ c.lines.waiting <+: (c.step a).1.lines.waiting) := by
  have hfull := h hne
  cases a with
  | retire k =>
    obtain ⟨j, hj⟩ := Option.isSome_iff_exists.mp (hfull k)
    obtain ⟨i, hi⟩ := Option.isSome_iff_exists.mp (List.isSome_head?.mpr hne)
    refine .inl ⟨k, i, rfl, hi, ?_, ?_⟩
    · simp [step, hj, hi]
    · simp [step, hj, SlotQueue.waiting_retire]
  | raise i =>
    refine .inr ⟨rfl, ?_⟩
    rw [step]
    split_ifs
    · rw [SlotQueue.offer_of_none (SlotQueue.firstFree_eq_none.mpr hfull)]
      exact List.prefix_append _ _
    · exact List.prefix_refl _
  | _ => exact .inr ⟨rfl, List.prefix_refl _⟩

/-- An interrupt that waits behind `p` others is loaded after at most `p + 1` retirements, whatever else happens. -/
theorem loaded_of_waiting (h : c.lines.WorkConserving) {l₁ l₂ : List ι} (hwait : c.lines.waiting = l₁ ++ i :: l₂)
    {l : List (Input n ι)} (hlen : l₁.length < l.countP Input.isRetire) : ∃ k, .load k i ∈ (c.run l).2 := by
  induction l generalizing c l₁ l₂ with
  | nil => simp at hlen
  | cons a l ih =>
    have hne : c.lines.waiting ≠ [] := by simp [hwait]
    have hrest : ∀ {l₁ l₂}, (c.step a).1.lines.waiting = l₁ ++ i :: l₂ → l₁.length < l.countP Input.isRetire →
        ∃ k, .load k i ∈ (c.run (a :: l)).2 := by
      intro l₁ l₂ hw hl
      obtain ⟨k, hk⟩ := ih (workConserving_step h a) hw hl
      exact ⟨k, List.mem_append_right _ hk⟩
    rcases waiting_step h hne a with ⟨k, j, rfl, hhead, hload, htail⟩ | ⟨hother, hprefix⟩
    · rw [List.countP_cons_of_pos rfl] at hlen
      cases l₁ with
      | nil =>
        rw [hwait] at hhead
        obtain rfl := Option.some.inj hhead
        exact ⟨k, List.mem_append_left _ hload⟩
      | cons b l₁ =>
        rw [hwait] at htail
        exact hrest htail (by simpa using hlen)
    · rw [List.countP_cons_of_neg (by simp [hother])] at hlen
      obtain ⟨l₃, hl₃⟩ := hprefix
      rw [hwait, List.append_assoc, List.cons_append] at hl₃
      exact hrest hl₃.symm hlen

/-! ### Masked sources -/

/-- Nothing is presented of `i`, and nothing of it is taken before it is enabled. -/
def Silent (i : ι) (c : Controller n ι) : Prop := c.enabled i = false ∧ i ∉ c.lines.residents

lemma silent_step (h : Silent i c) {a : Input n ι} (ha : a ≠ .enable i) : Silent i (c.step a).1 := by
  obtain ⟨hoff, hout⟩ := h
  cases a with
  | raise j =>
    rw [step]
    split_ifs with htakes
    · have hji : i ≠ j := fun hij => by simp [← hij, Takes, hoff] at htakes
      exact ⟨hoff, by simpa [hji] using hout⟩
    · exact ⟨hoff, hout⟩
  | retire k =>
    rw [step]
    split
    · rename_i j hj
      refine ⟨hoff, fun hmem => hout ?_⟩
      rw [SlotQueue.residents_retire hj]
      exact Multiset.mem_cons_of_mem hmem
    · exact ⟨hoff, hout⟩
  | enable j =>
    have hji : i ≠ j := fun hij => ha (by rw [hij])
    exact ⟨by simp [step, hji, hoff], hout⟩
  | disable j =>
    refine ⟨?_, hout⟩
    by_cases hji : i = j
    · simp [step, hji]
    · simp [step, hji, hoff]
  | switch on => exact ⟨hoff, hout⟩

lemma not_load_step (h : Silent i c) (a : Input n ι) (k : Fin n) : .load k i ∉ (c.step a).2 := by
  obtain ⟨hoff, hout⟩ := h
  have hwait : i ∉ c.lines.waiting := fun hmem => hout (SlotQueue.mem_residents.mpr (.inr hmem))
  cases a with
  | raise j =>
    rw [step]
    split_ifs with htakes
    · have hji : i ≠ j := fun hij => by simp [← hij, Takes, hoff] at htakes
      intro hmem
      obtain ⟨k', -, hload⟩ := Option.bind_eq_some_iff.mp (Option.mem_toList.mp hmem)
      obtain ⟨b, hb, heq⟩ := Option.map_eq_some_iff.mp hload
      have hb' : b ∈ c.lines.waiting ++ [j] := List.mem_of_mem_head? hb
      simp only [Output.load.injEq] at heq
      rw [heq.2] at hb'
      simp [hwait, hji] at hb'
    · simp
  | retire k' =>
    rw [step]
    split
    · intro hmem
      obtain ⟨b, hb, heq⟩ := Option.map_eq_some_iff.mp (Option.mem_toList.mp ((List.mem_cons.mp hmem).resolve_left (by simp)))
      simp only [Output.load.injEq] at heq
      exact hwait (heq.2 ▸ List.mem_of_mem_head? hb)
    · simp
  | enable j =>
    rw [step]
    split_ifs <;> simp
  | _ => simp [step]

/-- A source that is masked and not presented stays so, and nothing of it is loaded, until it is enabled. -/
theorem run_silent (h : Silent i c) {l : List (Input n ι)} (hl : .enable i ∉ l) :
    Silent i (c.run l).1 ∧ ∀ k, .load k i ∉ (c.run l).2 :=
  ⟨run_invariant (fun _ _ ha hI => silent_step hI fun h => hl (h ▸ ha)) h,
    fun k => run_never (fun _ a ha hI => ⟨silent_step hI fun h => hl (h ▸ ha), not_load_step hI a k⟩) h⟩

end Step

end Controller
