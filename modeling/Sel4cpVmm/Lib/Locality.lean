import Sel4cpVmm.Lib.Program

/-!
# Programs that do not see a part of their state

With a family of maps that overwrite a part of the state, a program neither reads nor writes that part if running it
and overwriting commute. This is put together from the parts of the program, and from the steps of a run.
-/

namespace StopProgram

variable {ε σ α β ι κ : Type} {m : κ → σ → σ} {s : σ}

/-- The same result in another state. -/
def mapOutcome (f : σ → σ) : EStateM.Result ε σ α → EStateM.Result ε σ α
  | .ok a s => .ok a (f s)
  | .error e s => .error e (f s)

/-- Run from `s`, the program commutes with the maps. -/
def LocalAt (m : κ → σ → σ) (x : EStateM ε σ α) (s : σ) : Prop := ∀ k, x (m k s) = mapOutcome (m k) (x s)

abbrev Local (m : κ → σ → σ) (x : EStateM ε σ α) : Prop := ∀ s, LocalAt m x s

section Rules

lemma local_pure (a : α) : Local m (pure a : EStateM ε σ α) := fun _ _ => rfl

lemma local_throw (e : ε) : Local m (throw e : EStateM ε σ α) := fun _ _ => rfl

lemma localAt_modify {f : σ → σ} (h : ∀ k, f (m k s) = m k (f s)) : LocalAt m (modify f : EStateM ε σ PUnit) s := by
  intro k
  change EStateM.Result.ok _ (f (m k s)) = .ok _ (m k (f s))
  rw [h]

lemma localAt_bind {x : EStateM ε σ β} {f : β → EStateM ε σ α} (hx : LocalAt m x s)
    (hf : ∀ b t, x s = .ok b t → LocalAt m (f b) t) : LocalAt m (x >>= f) s := by
  intro k
  change EStateM.bind x f (m k s) = mapOutcome (m k) (EStateM.bind x f s)
  unfold EStateM.bind
  rw [hx k]
  cases hxs : x s with
  | ok b t => exact hf b t hxs k
  | error e t => rfl

lemma local_bind {x : EStateM ε σ β} {f : β → EStateM ε σ α} (hx : Local m x) (hf : ∀ b, Local m (f b)) :
    Local m (x >>= f) :=
  fun s => localAt_bind (hx s) fun b t _ => hf b t

/-- The rest of the program gets the state, and looks only at what the maps leave. -/
lemma localAt_get {f : σ → EStateM ε σ α} (hf : ∀ k, f (m k s) = f s) (h : LocalAt m (f s) s) :
    LocalAt m (get >>= f) s := by
  intro k
  change f (m k s) (m k s) = mapOutcome (m k) (f s s)
  rw [hf]
  exact h k

lemma local_get {f : σ → EStateM ε σ α} (hf : ∀ k s, f (m k s) = f s) (h : ∀ s, Local m (f s)) : Local m (get >>= f) :=
  fun s => localAt_get (fun k => hf k s) (h s s)

lemma localAt_ite {c : Prop} [Decidable c] {x y : EStateM ε σ α} (hx : c → LocalAt m x s) (hy : ¬c → LocalAt m y s) :
    LocalAt m (if c then x else y) s := by
  by_cases h : c
  · rw [if_pos h]
    exact hx h
  · rw [if_neg h]
    exact hy h

lemma local_ite {c : Prop} [Decidable c] {x y : EStateM ε σ α} (hx : Local m x) (hy : Local m y) :
    Local m (if c then x else y) :=
  fun s => localAt_ite (fun _ => hx s) fun _ => hy s

lemma local_dite {c : Prop} [Decidable c] {x : c → EStateM ε σ α} {y : ¬c → EStateM ε σ α} (hx : ∀ h, Local m (x h))
    (hy : ∀ h, Local m (y h)) : Local m (if h : c then x h else y h) := by
  by_cases h : c
  · rw [dif_pos h]
    exact hx h
  · rw [dif_neg h]
    exact hy h

/-- A loop is local in the states of an invariant of its turns. -/
lemma localAt_forM {I : σ → Prop} {l : List ι} {f : ι → EStateM ε σ PUnit} (h : ∀ i ∈ l, ∀ t, I t → LocalAt m (f i) t)
    (hkeep : ∀ i ∈ l, Keeps I (f i)) (hs : I s) : LocalAt m (forM l f) s := by
  induction l generalizing s with
  | nil => exact local_pure _ s
  | cons i l ih =>
    rw [List.forM_cons]
    refine localAt_bind (h i List.mem_cons_self s hs) fun _ t ht => ?_
    have ht' : I t := (hkeep i List.mem_cons_self).ok ht hs
    exact ih (fun j hj => h j (List.mem_cons_of_mem i hj)) (fun j hj => hkeep j (List.mem_cons_of_mem i hj)) ht'

/-- Programs that do the same on the state and its images. -/
lemma LocalAt.congr {x y : EStateM ε σ α} (h : LocalAt m y s) (hs : x s = y s) (hm : ∀ k, x (m k s) = y (m k s)) :
    LocalAt m x s := by
  intro k
  rw [hm, hs]
  exact h k

end Rules

/-- Steps that are local in the reachable states are local one after the other. -/
theorem localAt_run {init : σ → Prop} {allowed : σ → ι → Prop} {step : ι → EStateM ε σ PUnit} {l : List ι}
    (hlocal : ∀ i ∈ l, ∀ t, Reach init allowed step t → LocalAt m (step i) t) (hallowed : ∀ i ∈ l, ∀ t, allowed t i)
    (hs : Reach init allowed step s) : LocalAt m (forM l step) s := by
  refine localAt_forM hlocal (fun i hi => keeps_of_wp fun t ht => ?_) hs
  exact wp_mono (wp_self (step i) t) (fun _ _ hrun => ht.step i (hallowed i hi t) hrun) fun _ _ _ => trivial

end StopProgram
