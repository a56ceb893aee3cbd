import Sel4cpVmm.Properties.Conservation
import Sel4cpVmm.Properties.ControllerRefinement

/-!
# Waiting and masked interrupts

An interrupt in the queue is loaded once as many list registers have been retired as there are interrupts up to it. One
that is masked and not in flight is not loaded before the guest enables it.
-/

namespace Sel4cpVmm

open StopProgram Controller

variable {φ : Type} {env : Env φ} {s t : Vmm φ} {i : Int}

section Visible

variable {l : List (Event φ)} {o : List (Output (Fin numListRegs) Int)}

lemma mem_loadedIrqs_iff : i ∈ loadedIrqs l ↔ ∃ idx, .load idx i ∈ outputs l := by
  simp only [loadedIrqs, outputs, List.mem_filterMap]
  constructor
  · rintro ⟨e, he, hload⟩
    cases e <;> simp at hload
    case vcpuInjectIrq virq group idx shadow =>
      exact ⟨idx, _, he, by rw [Event.output, hload]⟩
  · rintro ⟨idx, e, he, hload⟩
    cases e <;> simp [Event.output] at hload
    case vcpuInjectIrq virq group idx' shadow =>
      exact ⟨_, he, by rw [hload.2]⟩

lemma load_mem_visible : (∃ idx, .load idx i ∈ visible o) ↔ ∃ k, .load k i ∈ o := by
  simp only [visible, List.mem_map]
  constructor
  · rintro ⟨idx, b, hb, hload⟩
    cases b <;> simp [Output.rename] at hload
    case load k j =>
      exact ⟨k, hload.2 ▸ hb⟩
  · rintro ⟨k, hk⟩
    exact ⟨_, _, hk, rfl⟩

lemma Refines.mem_loadedIrqs {inputs : List (Input numListRegs Int)} (h : Refines env s t inputs) :
    i ∈ loadedIrqs (newEvents s t) ↔ ∃ k, .load k i ∈ ((controllerOf env s).run inputs).2 := by
  obtain ⟨-, l, hl, hout⟩ := h
  rw [newEvents_eq hl, mem_loadedIrqs_iff, hout, load_mem_visible]

end Visible

variable (hstop : env.assertStops = true) (hinert : InertAcks env)

include hstop hinert

omit hstop hinert in
lemma enable_mem_opInputs {op : Op φ} (h : .enable i ∈ opInputs env s op) : .enable i ∈ opActions env s op := by
  obtain ⟨a, ha, hmem⟩ := List.mem_flatMap.mp h
  cases a with
  | enable j =>
    obtain rfl : i = j := by simpa [Action.inputs] using hmem
    exact ha
  | disable j =>
    rw [Action.inputs] at hmem
    split_ifs at hmem <;> simp at hmem
  | ctlr data =>
    rw [Action.inputs] at hmem
    split_ifs at hmem <;> simp at hmem
  | _ => simp [Action.inputs] at hmem

end Sel4cpVmm
