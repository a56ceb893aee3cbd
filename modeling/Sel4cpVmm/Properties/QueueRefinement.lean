import Sel4cpVmm.Model.Vmm
import Sel4cpVmm.Proofs.Injection

/-!
# The ring as a bounded list

The functions of `virq.h` on the ring of a vCPU, called in any order and number, do what the same calls do on a
list that holds at most 63 entries.
-/

namespace Sel4cpVmm

open StopProgram BoundedFifo

variable {φ : Type}

/-! ### Calls on the ring -/

/-- What the result code of `vgic_irq_enqueue` says. -/
def enqueueCode (accepted : Bool) : Int := if accepted then 0 else -1

/-- A result of the ring, as the source returns it. -/
inductive QueueResult
  | code (err : Int)
  | entry (irq : Option VirqPtr)

/-- A call on the ring. -/
def queueCall (vcpu : VcpuId) : Call VirqPtr → M φ QueueResult
  | .enqueue irq => do
    let err ← vgicIrqEnqueue vcpu irq
    return .code err
  | .dequeue => do
    let irq ← vgicIrqDequeue vcpu
    return .entry irq

/-- The number of entries the ring can hold. -/
abbrev queueCap : Nat := maxIrqQueueLen - 1

/-- A call on the list, with its result as the source returns it. -/
def listCall (c : Call VirqPtr) (l : List VirqPtr) : QueueResult × List VirqPtr :=
  match c.apply queueCap l with
  | (.enqueued accepted, l') => (.code (enqueueCode accepted), l')
  | (.dequeued irq, l') => (.entry irq, l')

/-- The indices are inside the ring, and the entries from head up to but excluding tail are the list. -/
structure Represents (s : Vmm φ) (l : List VirqPtr) : Prop where
  wf : s.vgic.queue.Wf
  live : s.vgic.queue.live = l.map some

/-! ### The simulation -/

section Simulation

variable {s : Vmm φ} {l : List VirqPtr} (vcpu : VcpuId)

lemma Represents.length_le (h : Represents s l) : l.length ≤ queueCap := by
  have hle := RingBuffer.count_le h.wf.head_lt h.wf.tail_lt
  rwa [← @RingBuffer.length_content _ maxIrqQueueLen _ _ s.vgic.queue.cell, ← IrqQueue.live, h.live, List.length_map] at hle

lemma Represents.full_iff (h : Represents s l) : irqQueueNext s.vgic.queue.tail = s.vgic.queue.head ↔ ¬l.length < queueCap := by
  have hle := h.length_le
  rw [IrqQueue.full_iff h.wf, h.live, List.length_map, Nat.not_lt, queueCap]
  exact ⟨fun heq => heq.ge, fun hge => Nat.le_antisymm hle hge⟩

lemma Represents.empty_iff (h : Represents s l) : s.vgic.queue.head = s.vgic.queue.tail ↔ l = [] := by
  rw [← IrqQueue.live_eq_nil h.wf, h.live, List.map_eq_nil_iff]

lemma Represents.push (h : Represents s l) (hroom : l.length < queueCap) (p : VirqPtr) :
    Represents { s with vgic := s.vgic.setQueue (s.vgic.queue.push p) } (l ++ [p]) := by
  have hfull : irqQueueNext s.vgic.queue.tail ≠ s.vgic.queue.head := fun heq => h.full_iff.mp heq hroom
  refine ⟨?_, ?_⟩
  · rw [Vgic.queue_setQueue]
    exact h.wf.push p
  · rw [Vgic.queue_setQueue, IrqQueue.live_push h.wf hfull, h.live]
    simp

lemma Represents.pop {p : VirqPtr} (h : Represents s (p :: l)) : s.vgic.queue.cell s.vgic.queue.head = some p ∧
    Represents { s with vgic := s.vgic.setQueue s.vgic.queue.pop } l := by
  have hne : s.vgic.queue.head ≠ s.vgic.queue.tail := fun heq => absurd (h.empty_iff.mp heq) (by simp)
  have hlive := h.live
  rw [IrqQueue.live_pop h.wf hne, List.map_cons, List.cons.injEq] at hlive
  refine ⟨hlive.1, ?_, ?_⟩
  · rw [Vgic.queue_setQueue]
    exact h.wf.pop
  · rw [Vgic.queue_setQueue]
    exact hlive.2

/-- A call on the ring returns what the call on the list does, and changes the ring only if the list changes. -/
lemma Represents.call (h : Represents s l) (c : Call VirqPtr) :
    ∃ s', queueCall vcpu c s = .ok (listCall c l).1 s' ∧ Represents s' (listCall c l).2 ∧ ((listCall c l).2 = l → s' = s) := by
  have hwp : wp (queueCall vcpu c) (fun r s' => r = (listCall c l).1 ∧ Represents s' (listCall c l).2 ∧
      ((listCall c l).2 = l → s' = s)) (fun _ _ => False) s := by
    cases c with
    | enqueue p =>
      rw [queueCall, wp_bind, wp_vgicIrqEnqueue h.wf, h.full_iff, Ne, h.full_iff, not_not]
      refine ⟨fun hfull => ?_, fun hroom => ?_⟩
      · have hcall : listCall (.enqueue p) l = (.code (-1), l) := by
          rw [listCall, Call.apply, if_neg hfull]
          rfl
        rw [hcall]
        exact ⟨rfl, h, fun _ => rfl⟩
      · have hcall : listCall (.enqueue p) l = (.code 0, l ++ [p]) := by
          rw [listCall, Call.apply, if_pos hroom]
          rfl
        rw [hcall]
        exact ⟨rfl, h.push hroom p, fun heq => absurd heq (by simp)⟩
    | dequeue =>
      rw [queueCall, wp_bind, wp_vgicIrqDequeue h.wf, Ne, h.empty_iff]
      refine ⟨fun hne => ?_, fun hnil => ?_⟩
      · obtain ⟨p, l, rfl⟩ := List.exists_cons_of_ne_nil hne
        obtain ⟨hhead, hpop⟩ := h.pop
        rw [hhead]
        exact ⟨rfl, hpop, fun heq => absurd heq (List.cons_ne_self p l).symm⟩
      · subst hnil
        exact ⟨rfl, h, fun _ => rfl⟩
  obtain ⟨r, s', hrun, rfl, hrep, hsame⟩ := ok_of_wp hwp
  exact ⟨s', hrun, hrep, hsame⟩

end Simulation

/-- Any sequence of calls, begun with both indices 0, returns what the same calls on an empty list return. The ring
then represents the list they leave, and the next call changes nothing unless it changes the list. -/
theorem ring_refines_fifo (vcpu : VcpuId) {s₀ : Vmm φ} (hhead : s₀.vgic.queue.head = 0) (htail : s₀.vgic.queue.tail = 0)
    (calls : List (Call VirqPtr)) :
    ∃ s, calls.mapM (queueCall vcpu) s₀ = .ok (results listCall calls []).1 s ∧
      Represents s (results listCall calls []).2 ∧
      ∀ c, ∃ s', queueCall vcpu c s = .ok (listCall c (results listCall calls []).2).1 s' ∧
        ((listCall c (results listCall calls []).2).2 = (results listCall calls []).2 → s' = s) := by
  have hinit : Represents s₀ [] := by
    have hwf : s₀.vgic.queue.Wf := ⟨by rw [hhead]; decide, by rw [htail]; decide⟩
    exact ⟨hwf, (IrqQueue.live_eq_nil hwf).mpr (hhead.trans htail.symm)⟩
  have hsim : ∀ (c : Call VirqPtr) (s : Vmm φ) l, Represents s l →
      ∃ s', queueCall vcpu c s = .ok (listCall c l).1 s' ∧ Represents s' (listCall c l).2 := by
    intro c s l h
    obtain ⟨s', hrun, hrep, -⟩ := h.call vcpu c
    exact ⟨s', hrun, hrep⟩
  obtain ⟨s, hrun, hrep⟩ := mapM_simulates hsim calls hinit
  refine ⟨s, hrun, hrep, fun c => ?_⟩
  obtain ⟨s', hcall, -, hsame⟩ := hrep.call vcpu c
  exact ⟨s', hcall, hsame⟩

/-- Two entries come back in order, and then null. -/
theorem ring_refines_fifo_three : ∃ s : Vmm VmmAckFn,
    [.enqueue (.spi 1), .enqueue (.spi 2), .dequeue, .dequeue, .dequeue].mapM (queueCall vcpuId)
      (vgicInit (vmmEnv .qemuArmVirtHyp) (.filled 0)) =
        .ok [.code 0, .code 0, .entry (some (.spi 1)), .entry (some (.spi 2)), .entry none] s ∧ Represents s [] := by
  obtain ⟨s, hrun, hrep, -⟩ := @ring_refines_fifo _ vcpuId (vgicInit (vmmEnv .qemuArmVirtHyp) (.filled 0)) rfl rfl
    [.enqueue (.spi 1), .enqueue (.spi 2), .dequeue, .dequeue, .dequeue]
  exact ⟨s, hrun, hrep⟩

end Sel4cpVmm
