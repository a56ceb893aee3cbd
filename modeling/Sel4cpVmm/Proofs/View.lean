import Sel4cpVmm.Lib.Ring
import Sel4cpVmm.Lib.SlotQueue
import Sel4cpVmm.Proofs.Bitmap

/-!
# List registers and queue as slots with overflow

`Vgic.view` reads the list register shadows and the ring buffer of the vCPU as a `SlotQueue` of
handles. The functions of `virq.h` are shown to act on it as enqueue, first free slot and load.
-/

namespace Sel4cpVmm

open StopProgram

variable {φ : Type} {env : Env φ}

/-! ### Weakest preconditions of the basic operations -/

section Basic

variable {Q : Unit → Vmm φ → Prop} {E : Stop → Vmm φ → Prop} {s : Vmm φ}

@[simp] lemma wp_logEvent (e : Event φ) :
    wp (logEvent e) Q E s ↔ Q () { s with log := s.log ++ [e] } := Iff.rfl

@[simp] lemma wp_replyToFault : wp (replyToFault : M φ Unit) Q E s ↔ Q () { s with log := s.log ++ [.reply] } :=
  Iff.rfl

@[simp] lemma wp_modifyDist (f : GicDistMap → GicDistMap) :
    wp (modifyDist f : M φ Unit) Q E s ↔ Q () { s with dist := f s.dist } := Iff.rfl

@[simp] lemma wp_modifyVgic (f : Vgic φ → Vgic φ) :
    wp (modifyVgic f) Q E s ↔ Q () { s with vgic := f s.vgic } := Iff.rfl

lemma wp_cAssert (c : Bool) : wp (cAssert env c) Q E s ↔
    ((c = true ∨ env.assertStops = false) → Q () s) ∧
      (c = false ∧ env.assertStops = true → E .assertFailed s) := by
  unfold cAssert
  cases c <;> cases env.assertStops <;> simp

@[simp] lemma wp_cAssert_true : wp (cAssert env true) Q E s ↔ Q () s := by simp [wp_cAssert]

lemma wp_cAssert_stops (hstop : env.assertStops = true) (c : Bool) :
    wp (cAssert env c) Q E s ↔ (c = true → Q () s) ∧ (c = false → E .assertFailed s) := by
  simp [wp_cAssert, hstop]

end Basic

/-! ### The queue as a list -/

namespace IrqQueue

variable (q : IrqQueue)

def cell (i : Nat) : Option VirqPtr := if h : i < maxIrqQueueLen then q.irqs[i] else none

/-- The live entries, oldest first. -/
def live : List (Option VirqPtr) := RingBuffer.content maxIrqQueueLen q.cell q.head q.tail

def push (p : VirqPtr) : IrqQueue :=
  { q with irqs := q.irqs.setIfInBounds q.tail (some p), tail := irqQueueNext q.tail }

def pop : IrqQueue := { q with head := irqQueueNext q.head }

/-- Both indices are inside the buffer. -/
structure Wf : Prop where
  head_lt : q.head < maxIrqQueueLen
  tail_lt : q.tail < maxIrqQueueLen

variable {q}

lemma irqQueueNext_eq {i : Nat} (hi : i < maxIrqQueueLen) : irqQueueNext i = RingBuffer.next maxIrqQueueLen i := by
  rw [RingBuffer.next_eq_mod hi]
  exact Nat.and_two_pow_sub_one_eq_mod (i + 1) 6

lemma Wf.push (h : q.Wf) (p : VirqPtr) : (q.push p).Wf where
  head_lt := h.head_lt
  tail_lt := by
    change irqQueueNext q.tail < _
    rw [irqQueueNext_eq h.tail_lt]
    exact RingBuffer.next_lt (by decide) _

lemma Wf.pop (h : q.Wf) : q.pop.Wf where
  head_lt := by
    change irqQueueNext q.head < _
    rw [irqQueueNext_eq h.head_lt]
    exact RingBuffer.next_lt (by decide) _
  tail_lt := h.tail_lt

lemma cell_push (h : q.Wf) (p : VirqPtr) : (q.push p).cell = Function.update q.cell q.tail (some p) := by
  funext i
  by_cases hi : i < maxIrqQueueLen
  · by_cases hit : i = q.tail
    · subst hit
      simp [cell, IrqQueue.push, hi]
    · simp [cell, IrqQueue.push, hi, hit, Ne.symm hit]
  · have hit : i ≠ q.tail := fun h' => hi (h' ▸ h.tail_lt)
    simp [cell, hi, hit]

lemma live_push (h : q.Wf) (hfull : irqQueueNext q.tail ≠ q.head) (p : VirqPtr) :
    (q.push p).live = q.live ++ [some p] := by
  unfold live
  rw [cell_push h]
  change RingBuffer.content _ _ q.head (irqQueueNext q.tail) = _
  rw [irqQueueNext_eq h.tail_lt] at hfull ⊢
  exact RingBuffer.content_push h.head_lt h.tail_lt hfull _

lemma live_pop (h : q.Wf) (hne : q.head ≠ q.tail) : q.live = q.cell q.head :: q.pop.live := by
  unfold live
  rw [RingBuffer.content_pop h.head_lt h.tail_lt hne, ← irqQueueNext_eq h.head_lt]
  rfl

lemma live_eq_nil (h : q.Wf) : q.live = [] ↔ q.head = q.tail := RingBuffer.content_eq_nil h.head_lt

/-- The queue refuses an entry exactly when it holds 63. -/
lemma full_iff (h : q.Wf) : irqQueueNext q.tail = q.head ↔ q.live.length = maxIrqQueueLen - 1 := by
  rw [irqQueueNext_eq h.tail_lt, live, RingBuffer.length_content]
  exact RingBuffer.next_eq_iff_full h.head_lt h.tail_lt

end IrqQueue

/-! ### The parts of the vGIC -/

namespace Vgic

variable (v : Vgic φ)

def queue : IrqQueue := (v.getVgicVcpu vcpuId).irqQueue

def lr (k : Fin numListRegs) : VirqHandle φ := getElem (v.getVgicVcpu vcpuId).lrShadow k.val k.isLt

def setQueue (q : IrqQueue) : Vgic φ := v.setVgicVcpu vcpuId { v.getVgicVcpu vcpuId with irqQueue := q }

def setLr (k : Fin numListRegs) (h : VirqHandle φ) : Vgic φ :=
  v.setVgicVcpu vcpuId { v.getVgicVcpu vcpuId with lrShadow := (v.getVgicVcpu vcpuId).lrShadow.set k h k.isLt }

variable {v} {q : IrqQueue} {k j : Fin numListRegs} {h : VirqHandle φ}

@[simp] lemma getVgicVcpu_set (a b : VcpuId) (c : VgicVcpu φ) : (v.setVgicVcpu a c).getVgicVcpu b = c := by
  rw [vcpu_eq a, vcpu_eq b]
  simp [getVgicVcpu, setVgicVcpu]

@[simp] lemma vspis_set (a : VcpuId) (c : VgicVcpu φ) : (v.setVgicVcpu a c).vspis = v.vspis := rfl

@[simp] lemma queue_setQueue : (v.setQueue q).queue = q := by simp [queue, setQueue]
@[simp] lemma queue_setLr : (v.setLr k h).queue = v.queue := by simp [queue, setLr]
@[simp] lemma lr_setQueue : (v.setQueue q).lr k = v.lr k := by simp [lr, setQueue]
@[simp] lemma lr_setLr : (v.setLr k h).lr j = if j = k then h else v.lr j := by
  simp only [lr, setLr, getVgicVcpu_set, Vector.getElem_set, Fin.ext_iff, eq_comm]

@[simp] lemma localVirqs_setQueue (a : VcpuId) :
    ((v.setQueue q).getVgicVcpu a).localVirqs = (v.getVgicVcpu a).localVirqs := by
  simp [setQueue, vcpu_eq a]

@[simp] lemma localVirqs_setLr (a : VcpuId) :
    ((v.setLr k h).getVgicVcpu a).localVirqs = (v.getVgicVcpu a).localVirqs := by
  simp [setLr, vcpu_eq a]

@[simp] lemma vspis_setQueue : (v.setQueue q).vspis = v.vspis := rfl
@[simp] lemma vspis_setLr : (v.setLr k h).vspis = v.vspis := rfl

lemma deref_congr {v' : Vgic φ} (hl : ∀ a, (v'.getVgicVcpu a).localVirqs = (v.getVgicVcpu a).localVirqs)
    (hs : v'.vspis = v.vspis) : v'.deref = v.deref := by
  funext p
  cases p <;> simp [deref, hl, hs]

@[simp] lemma deref_setQueue : (v.setQueue q).deref = v.deref := deref_congr (by simp) rfl
@[simp] lemma deref_setLr : (v.setLr k h).deref = v.deref := deref_congr (by simp) rfl

end Vgic

/-! ### The view -/

/-- The handle, if its slot is in use. -/
def VirqHandle.present (h : VirqHandle φ) : Option (VirqHandle φ) := if h.virq = virqInvalid then none else some h

@[simp] lemma present_isNone {h : VirqHandle φ} : h.present.isNone = decide (h.virq = virqInvalid) := by
  by_cases hv : h.virq = virqInvalid <;> simp [VirqHandle.present, hv]

lemma present_eq_some {h h' : VirqHandle φ} : h.present = some h' ↔ h = h' ∧ h.virq ≠ virqInvalid := by
  unfold VirqHandle.present
  split_ifs with hv <;> simp [hv]

@[simp] lemma present_invalid : (VirqHandle.invalid : VirqHandle φ).present = none := rfl

namespace Vgic

variable (v : Vgic φ)

/-- The list registers as slots and the queue as what waits for them. -/
def view : SlotQueue numListRegs (VirqHandle φ) where
  slot k := (v.lr k).present
  waiting := v.queue.live.filterMap fun o => o.map v.deref

/-- The registration tables and the queue are as the functions of `virq.h` leave them. -/
structure Wf : Prop where
  queue : v.queue.Wf
  live : ∀ o ∈ v.queue.live, ∃ p, o = some p ∧ (v.deref p).virq ≠ virqInvalid
  sgiPpi : ∀ i : Fin numVcpuLocalVirqs,
    (v.deref (.sgiPpi vcpuId i)).virq = virqInvalid ∨ (v.deref (.sgiPpi vcpuId i)).virq = i
  spi : ∀ i, (v.deref (.spi i)).virq = virqInvalid ∨ 32 ≤ (v.deref (.spi i)).virq

variable {v} {q : IrqQueue} {k : Fin numListRegs} {h : VirqHandle φ}

lemma view_setQueue :
    (v.setQueue q).view = { v.view with waiting := q.live.filterMap fun o => o.map v.deref } := by
  simp [view]

lemma view_setLr : (v.setLr k h).view = { v.view with slot := Function.update v.view.slot k h.present } := by
  simp only [view, queue_setLr, deref_setLr, SlotQueue.mk.injEq, and_true]
  funext j
  by_cases hj : j = k <;> simp [hj]

lemma view_push (hw : v.queue.Wf) (hfull : irqQueueNext v.queue.tail ≠ v.queue.head) (p : VirqPtr) :
    (v.setQueue (v.queue.push p)).view = v.view.enqueue (v.deref p) := by
  rw [view_setQueue, IrqQueue.live_push hw hfull]
  simp [SlotQueue.enqueue, view]

lemma Wf.head (hw : v.Wf) (hne : v.queue.head ≠ v.queue.tail) :
    ∃ p, v.queue.cell v.queue.head = some p ∧ (v.deref p).virq ≠ virqInvalid ∧
      v.view.waiting = v.deref p :: (v.setQueue v.queue.pop).view.waiting := by
  have hlive := IrqQueue.live_pop hw.queue hne
  obtain ⟨p, hp, hv⟩ := hw.live (v.queue.cell v.queue.head) (by rw [hlive]; simp)
  refine ⟨p, hp, hv, ?_⟩
  rw [view_setQueue]
  simp [view, hlive, hp]

lemma Wf.view_load (hw : v.Wf) (hne : v.queue.head ≠ v.queue.tail) {p : VirqPtr}
    (hp : v.queue.cell v.queue.head = some p) (k : Fin numListRegs) :
    ((v.setQueue v.queue.pop).setLr k (v.deref p)).view = v.view.load k := by
  obtain ⟨p', hp', hv, hwait⟩ := hw.head hne
  obtain rfl : p' = p := Option.some.inj (hp' ▸ hp)
  rw [view_setLr, present_eq_some.mpr ⟨rfl, hv⟩, SlotQueue.load, hwait]
  simp [view_setQueue]

lemma Wf.waiting_eq_nil (hw : v.Wf) : v.view.waiting = [] ↔ v.queue.head = v.queue.tail := by
  constructor
  · intro h
    by_contra hne
    obtain ⟨p, -, -, hp⟩ := hw.head hne
    rw [h] at hp
    exact absurd hp (by simp)
  · intro h
    simp [view, (IrqQueue.live_eq_nil hw.queue).mpr h]

lemma Wf.length_waiting (hw : v.Wf) : v.view.waiting.length = v.queue.live.length := by
  have hall : ∀ o ∈ v.queue.live, (o.map v.deref).isSome := by
    intro o ho
    obtain ⟨p, rfl, -⟩ := hw.live o ho
    rfl
  exact List.filterMap_length_eq_length.mpr hall

/-- One cell of the ring is always free. -/
lemma Wf.length_waiting_le (hw : v.Wf) : v.view.waiting.length ≤ maxIrqQueueLen - 1 := by
  have hlt := RingBuffer.count_lt hw.queue.head_lt hw.queue.tail_lt
  have hcontent : v.queue.live.length = _ := RingBuffer.length_content
  rw [← hcontent] at hlt
  rw [hw.length_waiting]
  exact Nat.le_sub_one_of_lt hlt

lemma Wf.congr {v' : Vgic φ} (hw : v.Wf) (hd : v'.deref = v.deref) (hq : v'.queue.Wf)
    (hlive : ∀ o ∈ v'.queue.live, o ∈ v.queue.live ∨ ∃ p, o = some p ∧ (v.deref p).virq ≠ virqInvalid) :
    v'.Wf where
  queue := hq
  live := by
    intro o ho
    rw [hd]
    rcases hlive o ho with h | h
    · exact hw.live o h
    · exact h
  sgiPpi := by rw [hd]; exact hw.sgiPpi
  spi := by rw [hd]; exact hw.spi

lemma Wf.setLr (hw : v.Wf) : (v.setLr k h).Wf :=
  hw.congr deref_setLr (by simpa using hw.queue) (by simp +contextual)

lemma Wf.push (hw : v.Wf) (hfull : irqQueueNext v.queue.tail ≠ v.queue.head) {p : VirqPtr}
    (hp : (v.deref p).virq ≠ virqInvalid) : (v.setQueue (v.queue.push p)).Wf := by
  refine hw.congr deref_setQueue (by simpa using hw.queue.push p) ?_
  intro o ho
  rw [queue_setQueue, IrqQueue.live_push hw.queue hfull, List.mem_append, List.mem_singleton] at ho
  rcases ho with ho | rfl
  · exact .inl ho
  · exact .inr ⟨p, rfl, hp⟩

lemma Wf.pop (hw : v.Wf) (hne : v.queue.head ≠ v.queue.tail) : (v.setQueue v.queue.pop).Wf := by
  refine hw.congr deref_setQueue (by simpa using hw.queue.pop) ?_
  intro o ho
  rw [queue_setQueue] at ho
  exact .inl (by rw [IrqQueue.live_pop hw.queue hne]; simp [ho])

end Vgic

end Sel4cpVmm
