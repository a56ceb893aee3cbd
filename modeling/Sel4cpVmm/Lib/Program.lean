import Mathlib.Logic.Relation
import Mathlib.Tactic.Common

/-!
# Programs over a state that may stop

`EStateM ε σ α` read as an imperative program: it ends with a value or stops with a reason,
and keeps the state it has reached either way. `wp` is its weakest precondition and `Within`
says that every run of it stays inside a preorder on states, which is how a property of whole
programs is assembled from the same property of the few operations they are made of.
-/

namespace StopProgram

variable {ε σ α β ι : Type}

/-- `Q` holds of the value and the state `x` ends with, `E` of the reason and the state it stops with. -/
def wp (x : EStateM ε σ α) (Q : α → σ → Prop) (E : ε → σ → Prop) (s : σ) : Prop :=
  match x s with
  | .ok a s' => Q a s'
  | .error e s' => E e s'

section Rules

variable (Q : α → σ → Prop) (E : ε → σ → Prop) (s : σ)

@[simp] lemma wp_pure (a : α) : wp (pure a : EStateM ε σ α) Q E s ↔ Q a s := Iff.rfl

@[simp] lemma wp_bind (x : EStateM ε σ β) (f : β → EStateM ε σ α) :
    wp (x >>= f) Q E s ↔ wp x (fun b s' => wp (f b) Q E s') E s := by
  change wp (EStateM.bind x f) Q E s ↔ _
  unfold wp EStateM.bind
  cases x s <;> rfl

@[simp] lemma wp_map (x : EStateM ε σ β) (f : β → α) :
    wp (f <$> x) Q E s ↔ wp x (fun b s' => Q (f b) s') E s := by
  change wp (EStateM.map f x) Q E s ↔ _
  unfold wp EStateM.map
  cases x s <;> rfl

@[simp] lemma wp_get (Q : σ → σ → Prop) : wp (get : EStateM ε σ σ) Q E s ↔ Q s s := Iff.rfl

@[simp] lemma wp_set (Q : PUnit → σ → Prop) (t : σ) :
    wp (set t : EStateM ε σ PUnit) Q E s ↔ Q ⟨⟩ t := Iff.rfl

@[simp] lemma wp_modify (Q : PUnit → σ → Prop) (f : σ → σ) :
    wp (modify f : EStateM ε σ PUnit) Q E s ↔ Q ⟨⟩ (f s) := Iff.rfl

@[simp] lemma wp_throw (e : ε) : wp (throw e : EStateM ε σ α) Q E s ↔ E e s := Iff.rfl

@[simp] lemma wp_ite (c : Prop) [Decidable c] (x y : EStateM ε σ α) :
    wp (if c then x else y) Q E s ↔ (c → wp x Q E s) ∧ (¬c → wp y Q E s) := by
  by_cases h : c <;> simp [h]

@[simp] lemma wp_dite (c : Prop) [Decidable c] (x : c → EStateM ε σ α) (y : ¬c → EStateM ε σ α) :
    wp (if h : c then x h else y h) Q E s ↔ (∀ h, wp (x h) Q E s) ∧ (∀ h, wp (y h) Q E s) := by
  by_cases h : c <;> simp [h]

lemma wp_mono {x : EStateM ε σ α} {Q Q' : α → σ → Prop} {E E' : ε → σ → Prop} {s : σ}
    (h : wp x Q E s) (hQ : ∀ a s', Q a s' → Q' a s') (hE : ∀ e s', E e s' → E' e s') :
    wp x Q' E' s := by
  unfold wp at h ⊢
  cases hx : x s with
  | ok a s' => rw [hx] at h; exact hQ a s' h
  | error e s' => rw [hx] at h; exact hE e s' h

lemma wp_and {x : EStateM ε σ α} {Q Q' : α → σ → Prop} {E E' : ε → σ → Prop} {s : σ}
    (h : wp x Q E s) (h' : wp x Q' E' s) :
    wp x (fun a s' => Q a s' ∧ Q' a s') (fun e s' => E e s' ∧ E' e s') s := by
  unfold wp at h h' ⊢
  cases hx : x s with
  | ok a s' => rw [hx] at h h'; exact ⟨h, h'⟩
  | error e s' => rw [hx] at h h'; exact ⟨h, h'⟩

lemma wp_ok {x : EStateM ε σ α} {Q : α → σ → Prop} {E : ε → σ → Prop} {s s' : σ} {a : α}
    (h : wp x Q E s) (hx : x s = .ok a s') : Q a s' := by
  unfold wp at h
  rwa [hx] at h

lemma wp_error {x : EStateM ε σ α} {Q : α → σ → Prop} {E : ε → σ → Prop} {s s' : σ} {e : ε}
    (h : wp x Q E s) (hx : x s = .error e s') : E e s' := by
  unfold wp at h
  rwa [hx] at h

lemma wp_of_ok {x : EStateM ε σ α} {Q : α → σ → Prop} {E : ε → σ → Prop} {s s' : σ} {a : α} (hx : x s = .ok a s') :
    wp x Q E s ↔ Q a s' := by
  unfold wp
  rw [hx]

lemma wp_congr {x y : EStateM ε σ α} {Q : α → σ → Prop} {E : ε → σ → Prop} {s : σ} (h : x s = y s) :
    wp x Q E s ↔ wp y Q E s := by
  unfold wp
  rw [h]

/-- Two programs behave alike when one meets the strongest postcondition of the other. -/
lemma eq_of_wp {x y : EStateM ε σ α} {s t : σ}
    (h : wp x (fun a s' => y t = .ok a s') (fun e s' => y t = .error e s') s) : x s = y t := by
  unfold wp at h
  cases hx : x s with
  | ok a s' => rw [hx] at h; exact h.symm
  | error e s' => rw [hx] at h; exact h.symm

lemma wp_self (x : EStateM ε σ α) (s : σ) :
    wp x (fun a s' => x s = .ok a s') (fun e s' => x s = .error e s') s := by
  unfold wp
  cases x s <;> rfl

lemma bind_congr_left {x y : EStateM ε σ β} {f : β → EStateM ε σ α} {s : σ} (h : x s = y s) :
    (x >>= f) s = (y >>= f) s := by
  change EStateM.bind x f s = EStateM.bind y f s
  unfold EStateM.bind
  rw [h]

end Rules

/-- The state a program ends or stops in. -/
def outcome (x : EStateM ε σ α) (s : σ) : σ :=
  match x s with
  | .ok _ s' => s'
  | .error _ s' => s'

lemma wp_outcome {x : EStateM ε σ α} {P : σ → Prop} {s : σ} :
    wp x (fun _ s' => P s') (fun _ s' => P s') s ↔ P (outcome x s) := by
  unfold wp outcome
  cases x s <;> exact Iff.rfl

lemma ok_or_stops {x : EStateM ε σ α} {Q : α → σ → Prop} {P : σ → Prop} {s : σ} (h : wp x Q (fun _ s' => P s') s) :
    (∃ a s', x s = .ok a s' ∧ Q a s') ∨ P (outcome x s) := by
  unfold wp at h
  unfold outcome
  cases hx : x s with
  | ok a s' => exact .inl ⟨a, s', rfl, by rwa [hx] at h⟩
  | error e s' => exact .inr (by rwa [hx] at h)

lemma bind_of_ok {x : EStateM ε σ β} {f : β → EStateM ε σ α} {s t : σ} {b : β} (h : x s = .ok b t) :
    (x >>= f) s = f b t := by
  change EStateM.bind x f s = _
  unfold EStateM.bind
  rw [h]

lemma outcome_bind_of_ok {x : EStateM ε σ β} {f : β → EStateM ε σ α} {s t : σ} {b : β} (h : x s = .ok b t) :
    outcome (x >>= f) s = outcome (f b) t := by
  have hrun := bind_of_ok (f := f) h
  unfold outcome
  rw [hrun]

lemma outcome_congr {x y : EStateM ε σ α} {s : σ} (h : x s = y s) : outcome x s = outcome y s := by
  unfold outcome
  rw [h]

lemma outcome_bind_congr {α' : Type} {x : EStateM ε σ β} {f : β → EStateM ε σ α} {g : β → EStateM ε σ α'}
    (h : ∀ b t, outcome (f b) t = outcome (g b) t) (s : σ) : outcome (x >>= f) s = outcome (x >>= g) s := by
  cases hx : x s with
  | ok b t => rw [outcome_bind_of_ok hx, outcome_bind_of_ok hx, h]
  | error e t =>
    change outcome (EStateM.bind x f) s = outcome (EStateM.bind x g) s
    unfold outcome EStateM.bind
    rw [hx]

lemma outcome_bind_of_still {x : EStateM ε σ β} {f : β → EStateM ε σ α} (h : ∀ b t, outcome (f b) t = t) (s : σ) :
    outcome (x >>= f) s = outcome x s := by
  have hpure : x >>= pure = x := bind_pure x
  rw [outcome_bind_congr (g := pure) h, hpure]

lemma forM_still {l : List ι} {f : ι → EStateM ε σ PUnit} {s : σ} (h : ∀ i ∈ l, f i s = .ok ⟨⟩ s) :
    forM l f s = .ok ⟨⟩ s := by
  induction l with
  | nil => rfl
  | cons i l ih =>
    rw [List.forM_cons, bind_of_ok (h i (by simp))]
    exact ih fun j hj => h j (by simp [hj])

lemma ok_of_wp {x : EStateM ε σ α} {Q : α → σ → Prop} {s : σ} (h : wp x Q (fun _ _ => False) s) :
    ∃ a s', x s = .ok a s' ∧ Q a s' := by
  unfold wp at h
  cases hx : x s with
  | ok a s' => exact ⟨a, s', rfl, by rwa [hx] at h⟩
  | error e s' => rw [hx] at h; exact h.elim

lemma error_of_wp {x : EStateM ε σ α} {E : ε → σ → Prop} {s : σ} (h : wp x (fun _ _ => False) E s) :
    ∃ e s', x s = .error e s' ∧ E e s' := by
  unfold wp at h
  cases hx : x s with
  | ok a s' => rw [hx] at h; exact h.elim
  | error e s' => exact ⟨e, s', rfl, by rwa [hx] at h⟩

/-- `x` ends from `s`, in a state that passes the test `p`. -/
def endsIn (x : EStateM ε σ α) (s : σ) (p : σ → Bool) : Bool :=
  match x s with
  | .ok _ s' => p s'
  | .error _ _ => false

lemma ok_of_endsIn {x : EStateM ε σ α} {s : σ} {p : σ → Bool} (h : endsIn x s p = true) :
    ∃ a s', x s = .ok a s' ∧ p s' = true := by
  unfold endsIn at h
  cases hx : x s with
  | ok a s' => exact ⟨a, s', rfl, by rwa [hx] at h⟩
  | error e s' => rw [hx] at h; exact absurd h (by simp)

lemma bind_congr_right {x : EStateM ε σ β} {f g : β → EStateM ε σ α} {s : σ}
    (h : ∀ b t, x s = .ok b t → f b t = g b t) : (x >>= f) s = (x >>= g) s := by
  change EStateM.bind x f s = EStateM.bind x g s
  unfold EStateM.bind
  cases hx : x s with
  | ok b t => exact h b t hx
  | error e t => rfl

lemma ite_congr_at {b c : Prop} [Decidable b] [Decidable c] {x y x' y' : EStateM ε σ α} {s : σ} (hbc : b = c)
    (hpos : c → x s = x' s) (hneg : ¬c → y s = y' s) : (if b then x else y) s = (if c then x' else y') s := by
  subst hbc
  split_ifs with h
  · exact hpos h
  · exact hneg h

/-- Loops agree when their bodies do wherever an invariant holds that the second one keeps. -/
lemma forM_congr {I : σ → Prop} {l : List ι} {f g : ι → EStateM ε σ PUnit} (h : ∀ i ∈ l, ∀ s, I s → f i s = g i s)
    (hkeep : ∀ i ∈ l, ∀ s, I s → wp (g i) (fun _ s' => I s') (fun _ _ => True) s) {s : σ} (hs : I s) :
    forM l f s = forM l g s := by
  induction l generalizing s with
  | nil => rfl
  | cons i l ih =>
    rw [List.forM_cons, List.forM_cons, bind_congr_left (h i (by simp) s hs)]
    refine bind_congr_right fun _ t ht => ?_
    exact ih (fun j hj => h j (by simp [hj])) (fun j hj => hkeep j (by simp [hj])) (wp_ok (hkeep i (by simp) s hs) ht)

/-! ### Staying inside a preorder -/

/-- Every run of `x` that ends leads to a state related by `R` to the one it began in, and every run that
stops to one related by `S`. -/
def Bounded (R S : σ → σ → Prop) (x : EStateM ε σ α) : Prop :=
  ∀ s, wp x (fun _ s' => R s s') (fun _ s' => S s s') s

/-- Every run of `x` that ends leads to a state related by `R` to the one it began in. -/
abbrev Within (R : σ → σ → Prop) (x : EStateM ε σ α) : Prop := Bounded R (fun _ _ => True) x

/-- Every run of `x`, whether it ends or stops, leads to a state related by `R` to the one it began in. -/
abbrev Always (R : σ → σ → Prop) (x : EStateM ε σ α) : Prop := Bounded R R x

/-- What is related by `S` stays so when a step of `R` is put before it. -/
class Absorbs (R S : σ → σ → Prop) : Prop where
  absorb : ∀ {s t u}, R s t → S t u → S s u

instance absorbs_true (R : σ → σ → Prop) : Absorbs R (fun _ _ => True) := ⟨fun _ _ => trivial⟩

instance absorbs_self (R : σ → σ → Prop) [IsTrans σ R] : Absorbs R R := ⟨fun h h' => trans_of R h h'⟩

instance refl_true : Std.Refl (fun _ _ : σ => True) := ⟨fun _ => trivial⟩

section Within

variable {R S : σ → σ → Prop}

lemma Bounded.ok {x : EStateM ε σ α} (h : Bounded R S x) {s s' : σ} {a : α} (hx : x s = .ok a s') : R s s' :=
  wp_ok (Q := fun _ t => R s t) (h s) hx

lemma Bounded.mono {R' S' : σ → σ → Prop} {x : EStateM ε σ α} (h : Bounded R S x)
    (hR : ∀ s s', R s s' → R' s s') (hS : ∀ s s', S s s' → S' s s') : Bounded R' S' x :=
  fun s => wp_mono (h s) (fun _ _ => hR s _) (fun _ _ => hS s _)

lemma Always.outcome {x : EStateM ε σ α} (h : Always R x) (s : σ) : R s (outcome x s) := wp_outcome.mp (h s)

lemma within_throw [Std.Refl S] (e : ε) : Bounded R S (throw e : EStateM ε σ α) := fun s => refl_of S s

lemma within_ite {c : Prop} [Decidable c] {x y : EStateM ε σ α} (hx : Bounded R S x) (hy : Bounded R S y) :
    Bounded R S (if c then x else y) := by
  by_cases h : c <;> simpa [h]

lemma within_dite {c : Prop} [Decidable c] {x : c → EStateM ε σ α} {y : ¬c → EStateM ε σ α}
    (hx : ∀ h, Bounded R S (x h)) (hy : ∀ h, Bounded R S (y h)) : Bounded R S (if h : c then x h else y h) := by
  by_cases h : c
  · rw [dif_pos h]
    exact hx h
  · rw [dif_neg h]
    exact hy h

lemma within_modify {f : σ → σ} (h : ∀ s, R s (f s)) : Bounded R S (modify f : EStateM ε σ PUnit) := h

section Refl

variable [Std.Refl R]

lemma within_pure (a : α) : Bounded R S (pure a : EStateM ε σ α) := fun s => refl_of R s

lemma within_get : Bounded R S (get : EStateM ε σ σ) := fun s => refl_of R s

end Refl

variable [IsTrans σ R] [Absorbs R S]

lemma within_bind {x : EStateM ε σ β} {f : β → EStateM ε σ α} (hx : Bounded R S x)
    (hf : ∀ b, Bounded R S (f b)) : Bounded R S (x >>= f) := by
  intro s
  rw [wp_bind]
  refine wp_mono (hx s) (fun b s' h => ?_) (fun _ _ => id)
  exact wp_mono (hf b s') (fun _ s'' h' => trans_of R h h') (fun _ _ h' => Absorbs.absorb h h')

lemma within_forM [Std.Refl R] {l : List ι} {f : ι → EStateM ε σ PUnit}
    (hf : ∀ i ∈ l, Bounded R S (f i)) : Bounded R S (forM l f) := by
  induction l with
  | nil => exact within_pure _
  | cons i l ih =>
    rw [List.forM_cons]
    exact within_bind (hf i (by simp)) (fun _ => ih (fun j hj => hf j (by simp [hj])))

end Within

/-- `I` is kept by every run of `x` that ends. -/
abbrev Keeps (I : σ → Prop) (x : EStateM ε σ α) : Prop := Within (fun s s' => I s → I s') x

instance keeps_refl (I : σ → Prop) : Std.Refl (fun s s' : σ => I s → I s') := ⟨fun _ h => h⟩

instance keeps_trans (I : σ → Prop) : IsTrans σ (fun s s' : σ => I s → I s') :=
  ⟨fun _ _ _ h h' hs => h' (h hs)⟩

lemma keeps_of_wp {I : σ → Prop} {x : EStateM ε σ α} (h : ∀ s, I s → wp x (fun _ s' => I s') (fun _ _ => True) s) :
    Keeps I x := by
  intro s
  by_cases hs : I s
  · exact wp_mono (h s hs) (fun _ _ h' _ => h') (fun _ _ => id)
  · exact wp_mono (wp_self x s) (fun _ _ _ hI => absurd hI hs) (fun _ _ _ => trivial)

/-- A loop carries an invariant with a parameter that every turn updates. -/
lemma wp_forM {τ : Type} {g : τ → ι → τ} {I : τ → σ → Prop} {E : ε → σ → Prop} {l : List ι} {f : ι → EStateM ε σ PUnit}
    (h : ∀ i ∈ l, ∀ x s, I x s → wp (f i) (fun _ s' => I (g x i) s') E s) {x : τ} {s : σ} (hs : I x s) :
    wp (forM l f) (fun _ s' => I (l.foldl g x) s') E s := by
  induction l generalizing x s with
  | nil => exact hs
  | cons i l ih =>
    rw [List.forM_cons, wp_bind]
    refine wp_mono (h i (by simp) x s hs) (fun _ s' hs' => ?_) (fun _ _ => id)
    exact ih (fun j hj => h j (by simp [hj])) hs'

lemma wp_forM_keeps {I : σ → Prop} {E : ε → σ → Prop} {l : List ι} {f : ι → EStateM ε σ PUnit}
    (h : ∀ i ∈ l, ∀ s, I s → wp (f i) (fun _ s' => I s') E s) {s : σ} (hs : I s) :
    wp (forM l f) (fun _ s' => I s') E s :=
  wp_forM (g := fun _ _ => ()) (I := fun _ => I) (x := ()) (fun i hi _ => h i hi) hs

/-! ### Calls with results -/

section Calls

variable {τ : Type}

/-- The results of calls on an abstract state, and the state they leave. -/
def results (g : ι → τ → α × τ) : List ι → τ → List α × τ
  | [], x => ([], x)
  | i :: l, x => ((g i x).1 :: (results g l (g i x).2).1, (results g l (g i x).2).2)

/-- Calls that simulate abstract ones return their results. -/
theorem mapM_simulates {R : σ → τ → Prop} {f : ι → EStateM ε σ α} {g : ι → τ → α × τ}
    (h : ∀ i s x, R s x → ∃ s', f i s = .ok (g i x).1 s' ∧ R s' (g i x).2) (l : List ι) {s : σ} {x : τ} (hs : R s x) :
    ∃ s', l.mapM f s = .ok (results g l x).1 s' ∧ R s' (results g l x).2 := by
  induction l generalizing s x with
  | nil => exact ⟨s, rfl, hs⟩
  | cons i l ih =>
    obtain ⟨t, hi, ht⟩ := h i s x hs
    obtain ⟨s', hl, hs'⟩ := ih ht
    refine ⟨s', ?_, hs'⟩
    rw [List.mapM_cons]
    change EStateM.bind _ _ s = _
    unfold EStateM.bind
    rw [hi]
    change EStateM.bind _ _ t = _
    unfold EStateM.bind
    rw [hl]
    rfl

end Calls

/-! ### Runs -/

section Runs

variable (init : σ → Prop) (allowed : σ → ι → Prop) (step : ι → EStateM ε σ PUnit)

/-- The states reached from `init` by completed steps, each allowed where it is taken. -/
inductive Reach : σ → Prop
  | init {s : σ} : init s → Reach s
  | step {s s' : σ} (i : ι) : Reach s → allowed s i → step i s = .ok ⟨⟩ s' → Reach s'

variable {init allowed step}

/-- What holds initially and is kept by every allowed step holds of every reached state. -/
theorem Reach.invariant {I : σ → Prop} (h0 : ∀ s, init s → I s)
    (hstep : ∀ s i s', I s → allowed s i → step i s = .ok ⟨⟩ s' → I s') {s : σ}
    (h : Reach init allowed step s) : I s := by
  induction h with
  | init hs => exact h0 _ hs
  | step i _ ha hs ih => exact hstep _ i _ ih ha hs

lemma Reach.mono {allowed' : σ → ι → Prop} (ha : ∀ s i, allowed s i → allowed' s i) {s : σ}
    (h : Reach init allowed step s) : Reach init allowed' step s := by
  induction h with
  | init hs => exact .init hs
  | step i _ hi hs ih => exact .step i ih (ha _ _ hi) hs

lemma Reach.trans {s t : σ} (h : Reach init allowed step s) (ht : Reach (fun u => u = s) allowed step t) :
    Reach init allowed step t := by
  induction ht with
  | init hs => exact hs ▸ h
  | step i _ ha hs ih => exact .step i ih ha hs

variable (init allowed step) in
/-- The states reached, with a quantity that begins with `c` and that `g` updates in every step. -/
inductive ReachWith {γ : Type} (g : γ → σ → ι → σ → γ) (c : γ) : σ → γ → Prop
  | init {s : σ} : init s → ReachWith g c s c
  | step {s s' : σ} {x : γ} (i : ι) : ReachWith g c s x → allowed s i → step i s = .ok ⟨⟩ s' →
      ReachWith g c s' (g x s i s')

section ReachWith

variable {γ : Type} {g : γ → σ → ι → σ → γ} {c : γ} {s : σ}

lemma ReachWith.reach {x : γ} (h : ReachWith init allowed step g c s x) : Reach init allowed step s := by
  induction h with
  | init hs => exact .init hs
  | step i _ ha hs ih => exact .step i ih ha hs

lemma Reach.exists_with (h : Reach init allowed step s) : ∃ x, ReachWith init allowed step g c s x := by
  induction h with
  | init hs => exact ⟨c, .init hs⟩
  | step i _ ha hs ih =>
    obtain ⟨x, hx⟩ := ih
    exact ⟨_, .step i hx ha hs⟩

/-- What holds initially and is kept by every allowed step, with what is known of the states reached. -/
theorem ReachWith.invariant {I : σ → γ → Prop} (h0 : ∀ s, init s → I s c)
    (hstep : ∀ s x i s', Reach init allowed step s → I s x → allowed s i → step i s = .ok ⟨⟩ s' → I s' (g x s i s'))
    {x : γ} (h : ReachWith init allowed step g c s x) : I s x := by
  induction h with
  | init hs => exact h0 _ hs
  | step i hr ha hs ih => exact hstep _ _ i _ hr.reach ih ha hs

end ReachWith

variable (step) in
/-- Takes steps one after the other. -/
def exec : List ι → EStateM ε σ PUnit
  | [] => pure ⟨⟩
  | i :: l => step i >>= fun _ => exec l

variable (allowed step) in
/-- Every step of the list is allowed where it is taken. -/
def AllowedRun : List ι → σ → Prop
  | [], _ => True
  | i :: l, s => allowed s i ∧ match step i s with
    | .ok _ s' => AllowedRun l s'
    | .error _ _ => True

instance decidableAllowedRun [∀ s i, Decidable (allowed s i)] :
    (l : List ι) → (s : σ) → Decidable (AllowedRun allowed step l s)
  | [], _ => .isTrue trivial
  | i :: l, s =>
    haveI : Decidable (match step i s with
        | .ok _ s' => AllowedRun allowed step l s'
        | .error _ _ => True) :=
      match step i s with
      | .ok _ s' => decidableAllowedRun l s'
      | .error _ _ => .isTrue trivial
    inferInstanceAs (Decidable (_ ∧ _))

lemma AllowedRun.and {allowed' : σ → ι → Prop} {l : List ι} {s : σ} (h : AllowedRun allowed step l s)
    (h' : ∀ i ∈ l, ∀ s, allowed' s i) : AllowedRun (fun s i => allowed s i ∧ allowed' s i) step l s := by
  induction l generalizing s with
  | nil => trivial
  | cons i l ih =>
    obtain ⟨ha, hl⟩ := h
    refine ⟨⟨ha, h' i (by simp) s⟩, ?_⟩
    cases hi : step i s with
    | ok a t =>
      rw [hi] at hl
      exact ih hl fun j hj => h' j (by simp [hj])
    | error e t => trivial

theorem Reach.exec {l : List ι} {s s' : σ} (h : Reach init allowed step s)
    (hl : AllowedRun allowed step l s) (hs : StopProgram.exec step l s = .ok ⟨⟩ s') :
    Reach init allowed step s' := by
  induction l generalizing s with
  | nil =>
    cases hs
    exact h
  | cons i l ih =>
    obtain ⟨ha, hl⟩ := hl
    change EStateM.bind (step i) (fun _ => StopProgram.exec step l) s = _ at hs
    unfold EStateM.bind at hs
    cases hi : step i s with
    | ok a t =>
      rw [hi] at hl hs
      exact ih (.step i h ha hi) hl hs
    | error e t =>
      rw [hi] at hs
      exact absurd hs (by simp)

variable (step) in
/-- The state a run ends in, unless it is stopped. -/
def final (l : List ι) (s : σ) : Option σ :=
  match StopProgram.exec step l s with
  | .ok _ s' => some s'
  | .error _ _ => none

theorem Reach.exists_final {l : List ι} {s : σ} {p : σ → Bool} (h : Reach init allowed step s)
    (hl : AllowedRun allowed step l s) (hp : (final step l s).any p = true) :
    ∃ s', Reach init allowed step s' ∧ p s' = true := by
  unfold final at hp
  cases hs : StopProgram.exec step l s with
  | ok a s' =>
    rw [hs] at hp
    exact ⟨s', h.exec hl hs, hp⟩
  | error e s' =>
    rw [hs] at hp
    exact absurd hp (by simp)

end Runs

end StopProgram
