import Sel4cpVmm.Lib.Program

/-!
# When a program stops

The exact condition under which a program stops is put together from those of its parts, as long as none of them
depends on what the parts before it have done.
-/

namespace StopProgram

variable {ε σ α β ι : Type}

/-- Run from `s`, the program stops exactly if `p` holds, and else ends with `Q`. -/
structure StopsIff (p : Prop) (Q : α → σ → Prop) (x : EStateM ε σ α) (s : σ) : Prop where
  ends : ¬p → wp x Q (fun _ _ => False) s
  stops : p → wp x (fun _ _ => False) (fun _ _ => True) s

section Rules

variable {p q : Prop} {Q R : α → σ → Prop} {x : EStateM ε σ α} {s : σ}

theorem StopsIff.iff (h : StopsIff p Q x s) : (∃ e t, x s = .error e t) ↔ p := by
  constructor
  · rintro ⟨e, t, hx⟩
    by_contra hp
    exact wp_error (h.ends hp) hx
  · intro hp
    obtain ⟨e, t, hx, -⟩ := error_of_wp (h.stops hp)
    exact ⟨e, t, hx⟩

lemma StopsIff.wp (h : StopsIff p Q x s) : StopProgram.wp x Q (fun _ _ => True) s := by
  by_cases hp : p
  · exact wp_mono (h.stops hp) (fun _ _ => False.elim) (fun _ _ => id)
  · exact wp_mono (h.ends hp) (fun _ _ => id) (fun _ _ => False.elim)

lemma stopsIff_of_wp (h : wp x Q (fun _ _ => False) s) : StopsIff False Q x s := ⟨fun _ => h, False.elim⟩

lemma stopsIff_of_stop (h : wp x (fun _ _ => False) (fun _ _ => True) s) : StopsIff True Q x s :=
  ⟨fun hno => absurd trivial hno, fun _ => h⟩

lemma StopsIff.congr (h : StopsIff p Q x s) (hpq : q ↔ p) : StopsIff q Q x s :=
  ⟨fun hq => h.ends fun hp => hq (hpq.mpr hp), fun hq => h.stops (hpq.mp hq)⟩

lemma StopsIff.mono (h : StopsIff p Q x s) (hQ : ∀ a t, Q a t → R a t) : StopsIff p R x s :=
  ⟨fun hp => wp_mono (h.ends hp) hQ (fun _ _ => id), h.stops⟩

/-- A program whose run stops only under `p`, and always then. -/
lemma stopsIff_of_error {E : ε → σ → Prop} (h : wp x Q E s) (hE : ∀ e t, E e t → p) (hQ : ∀ a t, Q a t → ¬p) :
    StopsIff p Q x s :=
  ⟨fun hp => wp_mono h (fun _ _ => id) fun e t he => hp (hE e t he),
    fun hp => wp_mono h (fun a t ha => hQ a t ha hp) fun _ _ _ => trivial⟩

lemma stopsIff_pure {a : α} (h : Q a s) : StopsIff False Q (pure a : EStateM ε σ α) s :=
  stopsIff_of_wp ((wp_pure Q _ s a).mpr h)

lemma stopsIff_modify {Q : PUnit → σ → Prop} {f : σ → σ} (h : Q ⟨⟩ (f s)) :
    StopsIff False Q (modify f : EStateM ε σ PUnit) s :=
  stopsIff_of_wp ((wp_modify _ s Q f).mpr h)

lemma stopsIff_bind {y : EStateM ε σ β} {f : β → EStateM ε σ α} {R : β → σ → Prop} (hy : StopsIff p R y s)
    (hf : ∀ b t, R b t → StopsIff q Q (f b) t) : StopsIff (p ∨ q) Q (y >>= f) s := by
  constructor
  · intro hpq
    obtain ⟨hp, hq⟩ := not_or.mp hpq
    rw [wp_bind]
    exact wp_mono (hy.ends hp) (fun b t hb => (hf b t hb).ends hq) (fun _ _ => id)
  · intro hpq
    rw [wp_bind]
    by_cases hp : p
    · exact wp_mono (hy.stops hp) (fun _ _ => False.elim) (fun _ _ => id)
    · exact wp_mono (hy.ends hp) (fun b t hb => (hf b t hb).stops (hpq.resolve_left hp)) (fun _ _ => False.elim)

/-- A first part that does not stop. -/
lemma stopsIff_bind_right {y : EStateM ε σ β} {f : β → EStateM ε σ α} {R : β → σ → Prop} (hy : StopsIff False R y s)
    (hf : ∀ b t, R b t → StopsIff q Q (f b) t) : StopsIff q Q (y >>= f) s :=
  (stopsIff_bind hy hf).congr (iff_of_eq (false_or q).symm)

/-- A second part that does not stop. -/
lemma stopsIff_bind_left {y : EStateM ε σ β} {f : β → EStateM ε σ α} {R : β → σ → Prop} (hy : StopsIff p R y s)
    (hf : ∀ b t, R b t → StopsIff False Q (f b) t) : StopsIff p Q (y >>= f) s :=
  (stopsIff_bind hy hf).congr (iff_of_eq (or_false p).symm)

/-- A loop stops at the first turn that does. -/
lemma stopsIff_forM {l : List ι} {f : ι → EStateM ε σ PUnit} {P : ι → Prop} {I : σ → Prop}
    (h : ∀ i ∈ l, ∀ t, I t → StopsIff (P i) (fun _ u => I u) (f i) t) (hs : I s) :
    StopsIff (∃ i ∈ l, P i) (fun _ t => I t) (forM l f) s := by
  induction l generalizing s with
  | nil => exact (stopsIff_pure hs).congr (by simp)
  | cons i l ih =>
    have hrest : ∀ t, I t → StopsIff (∃ j ∈ l, P j) (fun _ u => I u) (forM l f) t :=
      fun t ht => ih (fun j hj => h j (List.mem_cons_of_mem i hj)) ht
    rw [List.forM_cons]
    exact (stopsIff_bind (h i List.mem_cons_self s hs) fun _ t ht => hrest t ht).congr (by simp)

end Rules

end StopProgram
