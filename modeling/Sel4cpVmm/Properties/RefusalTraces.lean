import Sel4cpVmm.Proofs.Limits

/-!
# What a refused injection leaves behind

With assertions that do not stop the VMM, `vgic_dist_set_pending_irq` can also return false after it has set the
pending bit.
-/

namespace Sel4cpVmm

open StopProgram GicDistMap

variable {φ : Type} {env : Env φ}

/-- The pending bits, the list register shadows and the live entries of the queue are as before. -/
structure NoTrace (s s' : Vmm φ) : Prop where
  pending : ∀ irq, isPending s'.dist irq vcpuId = isPending s.dist irq vcpuId
  lr : s'.vgic.lr = s.vgic.lr
  queue : s'.vgic.queue.live = s.vgic.queue.live

/-- An injection that is refused in `s` leaves no trace. -/
def RefusedTraceless (env : Env φ) (s : Vmm φ) (irq : Int) : Prop :=
  ∀ s', vgicDistSetPendingIrq env vcpuId irq s = .ok false s' → NoTrace s s'

/-- The interrupt, registered at `p`, is enabled and not pending, so its pending bit gets set. -/
structure MarksPending (env : Env φ) (s : Vmm φ) (irq : Int) (p : VirqPtr) : Prop where
  found : s.vgic.find irq = some p
  valid : (s.vgic.deref p).virq ≠ virqInvalid
  dist : vgicDistIsEnabled env.board.gic s.dist = true
  irq : isEnabled s.dist irq vcpuId = true
  idle : isPending s.dist (s.vgic.deref p).virq vcpuId = false

def QueueFull (v : Vgic φ) : Prop := irqQueueNext v.queue.tail = v.queue.head

/-- The state in which the kernel is asked to load the head of the queue, which the handle at `p` has been put
into. -/
def atLoad (s : Vmm φ) (p : VirqPtr) : Vmm φ :=
  { s with
    vgic := (s.vgic.setQueue (s.vgic.queue.push p)).setQueue (s.vgic.queue.push p).pop
    dist := setPending s.dist (s.vgic.deref p).virq true vcpuId
    log := s.log ++ [.accepted (s.vgic.deref p).virq] }

/-- A list register is free, and the kernel does not load the head of the queue into it. -/
def LoadRefused (env : Env φ) (s : Vmm φ) (p : VirqPtr) : Prop :=
  s.vgic.queue.tail < maxIrqQueueLen ∧ ∃ k q, s.vgic.view.firstFree = some k ∧
    (s.vgic.queue.push p).cell s.vgic.queue.head = some q ∧
    env.vcpuInjectIrq (atLoad s p) (s.vgic.deref q).virq env.board.gic.group k ≠ 0

/-- The call fails after it has set the pending bit: the queue is full or the kernel refuses the load. -/
def FailsLate (env : Env φ) (s : Vmm φ) (irq : Int) : Prop :=
  ∃ p, MarksPending env s irq p ∧ (QueueFull s.vgic ∨ LoadRefused env s p)

/-- The pending bit of the handle at `p` has been set, the tables are as they were. -/
structure LeftPending (s : Vmm φ) (p : VirqPtr) (s' : Vmm φ) : Prop where
  dist : s'.dist = setPending s.dist (s.vgic.deref p).virq true vcpuId
  deref : s'.vgic.deref = s.vgic.deref

lemma MarksPending.canInject {s : Vmm φ} {irq : Int} {p : VirqPtr} (h : MarksPending env s irq p) :
    CanInject env s irq (s.vgic.deref p) where
  handle := by
    rw [Vgic.handle, h.found]
    exact present_eq_some.mpr ⟨rfl, h.valid⟩
  dist := h.dist
  irq := h.irq

section Lenient

variable (hpass : env.assertStops = false) {s : Vmm φ} {irq : Int} {E : Stop → Vmm φ → Prop}

include hpass

lemma wp_cAssert_passes (c : Bool) {Q : Unit → Vmm φ → Prop} : wp (cAssert env c) Q E s ↔ Q () s := by
  simp [wp_cAssert, hpass]

lemma wp_virqFindIrqData_negative (hneg : irq < 0) {Q : Option VirqPtr → Vmm φ → Prop} (hE : E .outOfBounds s) :
    wp (virqFindIrqData env vcpuId irq) Q E s := by
  unfold virqFindIrqData virqGetSgiPpi
  rw [if_pos (Int.lt_trans hneg (by decide)), wp_bind, wp_bind, wp_cAssert_passes hpass,
    dif_neg fun hin => Int.not_le.mpr hneg hin.1]
  exact hE

lemma wp_vgicVcpuLoadListReg_lenient (k : Fin numListRegs) (group : Nat) (q : VirqPtr) {Q : Bool → Vmm φ → Prop}
    (hrefused : env.vcpuInjectIrq s (s.vgic.deref q).virq group k ≠ 0 →
      Q false { s with log := s.log ++ [loadEvent s group k (s.vgic.deref q)] })
    (hloaded : env.vcpuInjectIrq s (s.vgic.deref q).virq group k = 0 → ∀ t, Q true t) :
    wp (vgicVcpuLoadListReg env vcpuId k group q) Q E s := by
  have hin : 0 ≤ (k : Int) ∧ (k : Int).toNat < numListRegs := ⟨by omega, by simp⟩
  unfold vgicVcpuLoadListReg vcpuInjectIrq
  simp only [wp_bind, wp_get, wp_logEvent, wp_pure, wp_cAssert_passes hpass, wp_ite, wp_dite, wp_modifyVgic, lrVirq_eq]
  exact ⟨hrefused, fun herr => ⟨fun _ => hloaded (not_not.mp herr) _, fun h => absurd hin h⟩⟩

lemma wp_offerHead_lenient {p : VirqPtr} (hroom : irqQueueNext s.vgic.queue.tail ≠ s.vgic.queue.head)
    (htail : s.vgic.queue.tail < maxIrqQueueLen) {Q : Bool → Vmm φ → Prop}
    (hother : ¬LoadRefused env s p → (∀ t, Q true t) ∧ ∀ e t, E e t)
    (hfails : LoadRefused env s p → ∀ t, LeftPending s p t → Q false t) :
    wp (offerHead env) Q E (queued s p) := by
  have hfree : (queued s p).vgic.view.firstFree = s.vgic.view.firstFree := by
    rw [queued, Vgic.view_setQueue]
    rfl
  unfold offerHead
  rw [wp_bind, wp_vgicFindEmptyListReg, hfree]
  refine ⟨fun k hk => ?_, fun hnone => ?_⟩
  · have hknn : ¬((k.val : Int) < 0) := by omega
    rw [if_neg hknn, wp_bind, wp_vgicIrqDequeue_cases]
    simp only [queue_queued]
    refine ⟨fun _ => ⟨fun _ => ?_, fun hhead => (hother fun hload => ?_).2 _ _⟩, fun hempty => ?_⟩
    · cases hcell : (s.vgic.queue.push p).cell (s.vgic.queue.push p).head with
      | none =>
        refine (hother fun hload => ?_).2 _ _
        obtain ⟨-, -, q, -, hq, -⟩ := hload
        exact absurd (hcell.symm.trans hq) (by simp)
      | some q =>
        dsimp only
        rw [wp_bind, wp_get, wp_bind, wp_cAssert_passes hpass]
        refine wp_vgicVcpuLoadListReg_lenient hpass k _ q (fun herr => hfails ?_ _ ⟨rfl, by simp⟩) fun hok => (hother ?_).1
        · refine ⟨htail, k, q, hk, hcell, ?_⟩
          simpa [atLoad, queued] using herr
        · rintro ⟨-, k', q', hk', hq', herr⟩
          obtain rfl := Option.some.inj (hk.symm.trans hk')
          obtain rfl : q = q' := Option.some.inj (hcell.symm.trans hq')
          refine herr ?_
          simpa [atLoad, queued] using hok
    · obtain ⟨-, -, q, -, hq, -⟩ := hload
      have hnone : (s.vgic.queue.push p).cell s.vgic.queue.head = none := dif_neg hhead
      exact absurd (hnone.symm.trans hq) (by simp)
    · exact absurd hempty.symm hroom
  · refine (hother fun hload => ?_).1 _
    obtain ⟨-, k, -, hk, -⟩ := hload
    exact absurd (hnone.symm.trans hk) (by simp)

/-- The call returns false at once, fails late, or neither returns false nor ends otherwise. -/
lemma wp_setPending_lenient {Q : Bool → Vmm φ → Prop} (hrefused : (∀ p, ¬MarksPending env s irq p) → Q false s)
    (hother : ¬FailsLate env s irq → (∀ t, Q true t) ∧ ∀ e t, E e t)
    (hfails : ∀ p, MarksPending env s irq p → QueueFull s.vgic ∨ LoadRefused env s p →
      ∀ t, LeftPending s p t → Q false t) :
    wp (vgicDistSetPendingIrq env vcpuId irq) Q E s := by
  have hunset : (∀ p, ¬MarksPending env s irq p) → ¬FailsLate env s irq := fun h hf => hf.elim fun p hp => h p hp.1
  cases hf : s.vgic.find irq with
  | none =>
    have hother' := hother (hunset fun p hp => absurd (hf.symm.trans hp.found) (by simp))
    unfold vgicDistSetPendingIrq
    rw [wp_bind]
    by_cases hneg : irq < 0
    · exact wp_virqFindIrqData_negative hpass hneg (hother'.2 _ _)
    · rw [wp_virqFindIrqData_of_nonneg (Int.not_lt.mp hneg), hf]
      exact hother'.2 _ _
  | some p =>
    have hfound : ∀ p', MarksPending env s irq p' → p = p' := fun p' hp' => Option.some.inj (hf.symm.trans hp'.found)
    refine wp_setPending_of_find hf (fun hno => hrefused fun p' hp' => hno _ hp'.canInject)
      (fun _ hpend => (hother (hunset fun p' hp' => ?_)).1 _) fun hcan hidle => ?_
    · obtain rfl := hfound p' hp'
      exact absurd (hpend.symm.trans hp'.idle) (by simp)
    · have hvalid : (s.vgic.deref p).virq ≠ virqInvalid := by
        have hhandle := hcan.handle
        rw [Vgic.handle, hf] at hhandle
        exact (present_eq_some.mp hhandle).2
      have hsets : MarksPending env s irq p := ⟨hf, hvalid, hcan.dist, hcan.irq, hidle⟩
      -- what is not full and not refused does not fail late
      have hother' : ¬QueueFull s.vgic → ¬LoadRefused env s p → (∀ t, Q true t) ∧ ∀ e t, E e t := by
        intro hroom hload
        refine hother ?_
        rintro ⟨p', hp', h⟩
        obtain rfl := hfound p' hp'
        exact h.elim hroom hload
      unfold acceptIrq
      simp only [wp_bind, wp_logEvent, wp_modifyDist]
      rw [wp_vgicIrqEnqueue_cases]
      refine ⟨fun hfull => ?_, fun hroom => ⟨fun htail => ?_, fun htail => ?_⟩⟩
      · rw [wp_ite]
        refine ⟨fun _ => ?_, fun h => absurd h (by decide)⟩
        rw [wp_bind, wp_logEvent, wp_bind, wp_cAssert_passes hpass]
        exact hfails p hsets (.inl hfull) _ ⟨rfl, rfl⟩
      · rw [wp_ite]
        refine ⟨fun h => absurd rfl h, fun _ => ?_⟩
        change wp (offerHead env) Q E (queued s p)
        exact wp_offerHead_lenient (s := s) (p := p) hpass hroom htail (hother' hroom) fun hload => hfails p hsets (.inr hload)
      · exact (hother' hroom fun hload => htail hload.1).2 _ _

lemma failsLate_leaves (h : FailsLate env s irq) : ∃ p s', MarksPending env s irq p ∧
    vgicDistSetPendingIrq env vcpuId irq s = .ok false s' ∧ LeftPending s p s' := by
  obtain ⟨p, hp, hlate⟩ := h
  have hwp : wp (vgicDistSetPendingIrq env vcpuId irq) (fun b t => b = false ∧ LeftPending s p t) (fun _ _ => False) s := by
    refine wp_setPending_lenient hpass (fun h => absurd hp (h p)) (fun h => absurd ⟨p, hp, hlate⟩ h) fun p' hp' _ t ht => ?_
    obtain rfl := Option.some.inj (hp.found.symm.trans hp'.found)
    exact ⟨rfl, ht⟩
  obtain ⟨b, s', hrun, rfl, hleft⟩ := ok_of_wp hwp
  exact ⟨p, s', hp, hrun, hleft⟩

/-- A call that returns false without failing late has changed nothing. -/
lemma unchanged_of_refused (h : ¬FailsLate env s irq) {s' : Vmm φ}
    (hrun : vgicDistSetPendingIrq env vcpuId irq s = .ok false s') : s' = s := by
  have hwp : wp (vgicDistSetPendingIrq env vcpuId irq) (fun b t => b = false → t = s) (fun _ _ => True) s :=
    wp_setPending_lenient hpass (fun _ _ => rfl) (fun _ => ⟨fun _ h => absurd h (by simp), fun _ _ => trivial⟩)
      fun p hp hlate => absurd ⟨p, hp, hlate⟩ h
  exact wp_ok hwp hrun rfl

omit hpass in
/-- Once the pending bit is left behind, the interrupt counts as injected although nothing is delivered. -/
lemma MarksPending.swallowed {p : VirqPtr} (hp : MarksPending env s irq p) {s' : Vmm φ} (h : LeftPending s p s') :
    vgicDistSetPendingIrq env vcpuId irq s' = .ok true s' := by
  have hfound : s'.vgic.find irq = some p := (Vgic.find_congr h.deref).trans hp.found
  have hdist : vgicDistIsEnabled env.board.gic s'.dist = true := by
    rw [h.dist, vgicDistIsEnabled_congr _ word_ctlr_setPending, hp.dist]
  have hirq : isEnabled s'.dist irq vcpuId = true := by
    have hset := hp.irq
    rw [isEnabled_eq] at hset
    rw [h.dist, isEnabled_eq, setPending_eq]
    exact testIrq_setMirrored_true (bankWord_ne_mirror (by decide) (by decide)) hset
  have hpend : isPending s'.dist (s'.vgic.deref p).virq vcpuId = true := by
    rw [h.dist, h.deref, isPending_setPending_self]
  have hhandle : s'.vgic.handle irq = some (s'.vgic.deref p) := by
    rw [Vgic.handle_congr h.deref, hp.canInject.handle, h.deref]
  have hwp : wp (vgicDistSetPendingIrq env vcpuId irq) (fun b t => b = true ∧ t = s') (fun _ _ => False) s' := by
    refine wp_setPending_of_find hfound (fun hno => absurd ⟨hhandle, hdist, hirq⟩ (hno _)) (fun _ _ => ⟨rfl, rfl⟩)
      fun _ hidle => ?_
    exact absurd (hpend.symm.trans hidle) (by simp)
  obtain ⟨b, t, hrun, rfl, rfl⟩ := ok_of_wp hwp
  exact hrun

end Lenient

/-- The environment of `vmm.c` without assertions, with a kernel that refuses every load. -/
def refusingEnv (board : Board) : Env VmmAckFn :=
  { vmmEnv board with assertStops := false, vcpuInjectIrq := fun _ _ _ _ => 1 }

end Sel4cpVmm
