import Sel4cpVmm.Proofs.Does

/-!
# What the log tells

The interrupts accepted and loaded, the arrivals of physical interrupts, and which events an
acknowledgement, a refill and an offer leave in the log.
-/

namespace Sel4cpVmm

variable {φ : Type} {env : Env φ}

def newEvents (s s' : Vmm φ) : List (Event φ) := s'.log.drop s.log.length

lemma newEvents_eq {s s' : Vmm φ} {l : List (Event φ)} (h : s'.log = s.log ++ l) : newEvents s s' = l := by
  rw [newEvents, h, List.drop_left]

/-! ### Acceptances and loads -/

/-- The interrupts whose pending bit was newly set, in order. -/
def acceptedIrqs (log : List (Event φ)) : List Int :=
  log.filterMap fun e => match e with
    | .accepted irq => some irq
    | _ => none

def loadedIrqs (log : List (Event φ)) : List Int :=
  log.filterMap fun e => match e with
    | .vcpuInjectIrq virq _ _ _ => some virq
    | _ => none

/-- Every load found the shadow of its list register empty. -/
def LoadsIntoEmpty (log : List (Event φ)) : Prop :=
  ∀ virq group idx shadow, .vcpuInjectIrq virq group idx shadow ∈ log → shadow = virqInvalid

/-- The event answers the guest's fault. -/
def Event.isReply : Event φ → Bool
  | .reply => true
  | _ => false

def Event.isAck : Event φ → Bool
  | .ack _ _ _ _ => true
  | _ => false

/-- The event is neither a load nor an acceptance. -/
def Event.isOther : Event φ → Bool
  | .accepted _ => false
  | .vcpuInjectIrq _ _ _ _ => false
  | _ => true

/-! ### Events -/

section Members

variable {s : Vmm φ} {h : VirqHandle φ} {e : Event φ}

lemma mem_callEvents {l : List AckCall} (he : e ∈ l.filterMap AckCall.event) :
    (∃ ch, e = .irqAck ch) ∨ ∃ irq, e = .vcpuAckVppi irq := by
  obtain ⟨c, -, hc⟩ := List.mem_filterMap.mp he
  cases c with
  | irqAck ch => exact .inl ⟨ch, (Option.some.inj hc).symm⟩
  | vcpuAckVppi irq => exact .inr ⟨irq, (Option.some.inj hc).symm⟩
  | injectIrq i => exact absurd hc (by simp [AckCall.event])

lemma mem_ackEvents (he : e ∈ ackEvents env s h) :
    (∃ fn, h.ackFn = some fn ∧ e = .ack fn vcpuId h.virq null) ∨ (∃ ch, e = .irqAck ch) ∨ ∃ irq, e = .vcpuAckVppi irq := by
  unfold ackEvents at he
  cases hfn : h.ackFn with
  | none => simp [hfn] at he
  | some fn =>
    simp only [hfn] at he
    rcases List.mem_cons.mp he with rfl | he
    · exact .inl ⟨fn, rfl, rfl⟩
    · exact .inr (mem_callEvents he)

lemma mem_refillEvents {k : Fin numListRegs} (he : e ∈ refillEvents env s k) :
    ∃ a ∈ s.vgic.view.waiting.head?, e = loadEvent s env.board.gic.group k a := by
  unfold refillEvents at he
  obtain ⟨a, ha, rfl⟩ := Option.map_eq_some_iff.mp (Option.mem_toList.mp he)
  exact ⟨a, ha, rfl⟩

lemma mem_offerEvents {v : Vgic φ} (he : e ∈ offerEvents env v h) :
    ∃ k a, v.view.firstFree = some k ∧ a ∈ (v.view.enqueue h).waiting.head? ∧
      e = .vcpuInjectIrq a.virq env.board.gic.group k virqInvalid := by
  unfold offerEvents at he
  obtain ⟨k, hk, hload⟩ := Option.bind_eq_some_iff.mp (Option.mem_toList.mp he)
  obtain ⟨a, ha, rfl⟩ := Option.map_eq_some_iff.mp hload
  exact ⟨k, a, hk, ha, rfl⟩

end Members

section Events

variable {log l : List (Event φ)}

lemma loadedIrqs_append : loadedIrqs (log ++ l) = loadedIrqs log ++ loadedIrqs l := List.filterMap_append

lemma acceptedIrqs_append : acceptedIrqs (log ++ l) = acceptedIrqs log ++ acceptedIrqs l := List.filterMap_append

lemma loadsIntoEmpty_append : LoadsIntoEmpty (log ++ l) ↔ LoadsIntoEmpty log ∧ LoadsIntoEmpty l := by
  simp only [LoadsIntoEmpty, List.mem_append]
  exact ⟨fun h => ⟨fun v g i sh hm => h v g i sh (.inl hm), fun v g i sh hm => h v g i sh (.inr hm)⟩,
    fun h v g i sh hm => hm.elim (h.1 v g i sh) (h.2 v g i sh)⟩

lemma loadedIrqs_other (h : ∀ e ∈ l, e.isOther = true) : loadedIrqs l = [] := by
  refine List.filterMap_eq_nil_iff.mpr fun e he => ?_
  have := h e he
  cases e <;> simp_all [Event.isOther]

lemma acceptedIrqs_other (h : ∀ e ∈ l, e.isOther = true) : acceptedIrqs l = [] := by
  refine List.filterMap_eq_nil_iff.mpr fun e he => ?_
  have := h e he
  cases e <;> simp_all [Event.isOther]

lemma loadsIntoEmpty_other (h : ∀ e ∈ l, e.isOther = true) : LoadsIntoEmpty l :=
  fun _ _ _ _ hm => absurd (h _ hm) (by simp [Event.isOther])

lemma other_ackEvents (s : Vmm φ) (h : VirqHandle φ) : ∀ e ∈ ackEvents env s h, e.isOther = true := by
  intro e he
  rcases mem_ackEvents he with ⟨fn, -, rfl⟩ | ⟨ch, rfl⟩ | ⟨irq, rfl⟩ <;> rfl

lemma other_of_isReturn {e : Event φ} (h : e.isReturn = true) : e.isOther = true := by
  cases e <;> simp_all [Event.isReturn, Event.isOther]

lemma other_vppiReturn (irq : U64) (b : Bool) : ∀ e ∈ (vppiReturn irq b : List (Event φ)), e.isOther = true := by
  cases b <;> simp [vppiReturn, Event.isOther]

lemma acceptedIrqs_offerEvents (v : Vgic φ) (h : VirqHandle φ) : acceptedIrqs (offerEvents env v h) = [] := by
  unfold offerEvents
  cases v.view.firstFree with
  | none => rfl
  | some k => cases (v.view.enqueue h).waiting.head? <;> simp [acceptedIrqs]

lemma loadedIrqs_offerEvents (v : Vgic φ) (h : VirqHandle φ) : loadedIrqs (offerEvents env v h) =
    (v.view.firstFree.bind fun _ => (v.view.enqueue h).waiting.head?).toList.map VirqHandle.virq := by
  unfold offerEvents
  cases v.view.firstFree with
  | none => rfl
  | some k => cases (v.view.enqueue h).waiting.head? <;> simp [loadedIrqs]

lemma loadedIrqs_refillEvents (s : Vmm φ) (k : Fin numListRegs) :
    loadedIrqs (refillEvents env s k) = s.vgic.view.waiting.head?.toList.map VirqHandle.virq := by
  unfold refillEvents
  cases s.vgic.view.waiting.head? <;> simp [loadedIrqs, loadEvent]

lemma acceptedIrqs_refillEvents (s : Vmm φ) (k : Fin numListRegs) : acceptedIrqs (refillEvents env s k) = [] := by
  unfold refillEvents
  cases s.vgic.view.waiting.head? <;> simp [acceptedIrqs, loadEvent]

section Retirement

variable (s : Vmm φ) (k : Fin numListRegs) (h : VirqHandle φ)

lemma loadedIrqs_retire : loadedIrqs (ackEvents env (freed s k h) h ++ refillEvents env (freed s k h) k) =
    s.vgic.view.waiting.head?.toList.map VirqHandle.virq := by
  rw [loadedIrqs_append, loadedIrqs_other (other_ackEvents _ _), loadedIrqs_refillEvents, waiting_freed,
    List.nil_append]

lemma acceptedIrqs_retire : acceptedIrqs (ackEvents env (freed s k h) h ++ refillEvents env (freed s k h) k) = [] := by
  rw [acceptedIrqs_append, acceptedIrqs_other (other_ackEvents _ _), acceptedIrqs_refillEvents, List.append_nil]

end Retirement

lemma loadsIntoEmpty_offerEvents (v : Vgic φ) (h : VirqHandle φ) :
    LoadsIntoEmpty (.accepted h.virq :: offerEvents env v h) := by
  intro virq group idx shadow hm
  rcases List.mem_cons.mp hm with hm | hm
  · exact absurd hm (by simp)
  · obtain ⟨k, a, -, -, he⟩ := mem_offerEvents hm
    exact (Event.vcpuInjectIrq.inj he).2.2.2

end Events

/-! ### Arrivals -/

/-- The kernel delivers an interrupt and masks it. -/
def Event.isArrival : Event φ → Bool
  | .vppiEvent _ => true
  | .notification _ => true
  | _ => false

lemma isReturn_quiet {e : Event φ} (h : e.isReturn = true) : e.isArrival = false := by
  cases e <;> simp_all [Event.isReturn, Event.isArrival]

lemma ackEvents_quiet (env : Env φ) (s : Vmm φ) (h : VirqHandle φ) : ∀ e ∈ ackEvents env s h, e.isArrival = false := by
  intro e he
  rcases mem_ackEvents he with ⟨fn, -, rfl⟩ | ⟨ch, rfl⟩ | ⟨irq, rfl⟩ <;> rfl

lemma refillEvents_quiet (env : Env φ) (s : Vmm φ) (k : Fin numListRegs) : ∀ e ∈ refillEvents env s k, e.isArrival = false := by
  intro e he
  obtain ⟨a, -, rfl⟩ := mem_refillEvents he
  rfl

lemma offerEvents_quiet (env : Env φ) (v : Vgic φ) (h : VirqHandle φ) : ∀ e ∈ offerEvents env v h, e.isArrival = false := by
  intro e he
  obtain ⟨k, a, -, -, rfl⟩ := mem_offerEvents he
  rfl

end Sel4cpVmm
