import Sel4cpVmm.Proofs.Reentrant
import Sel4cpVmm.Proofs.Residents

/-!
# Injecting an unregistered interrupt

The slot of a local interrupt tells by its content that nothing is registered, the lookup of an SPI by a
null pointer. `vgic_dist_set_pending_irq` tests for the first and reads through the second.
-/

namespace Sel4cpVmm

open StopProgram

variable {φ : Type} {env : Env φ}

/-- `vgic_dist_set_pending_irq` refuses the interrupt and changes nothing. -/
def RefusesCleanly (env : Env φ) (s : Vmm φ) (irq : Int) : Prop :=
  vgicDistSetPendingIrq env vcpuId irq s = .ok false s

/-- The loop of a write to `ISPENDR` over the given interrupts. -/
def setPendingIrqs (env : Env φ) (l : List Int) : M φ Unit :=
  forM l fun irq => do
    let _ ← vgicDistSetPendingIrq env vcpuId irq

/-- `irq` is requested in `t`: by an injection in `s`, or by its bit of a write to `ISPENDR` that begins in `s`
and has handled the bits below. -/
inductive Requested (env : Env φ) (s : Vmm φ) (irq : Int) : Vmm φ → Prop
  | injectIrq : Requested env s irq s
  | ispendr {addr fsr : U64} {l l' : List Int} {t : Vmm φ} : WritesDist env (fun w => w = .ispendr) addr fsr →
      accessIrqs env s addr fsr = l ++ irq :: l' →
      setPendingIrqs env l s = .ok ⟨⟩ t → Requested env s irq t

section

variable (hstop : env.assertStops = true) {s t : Vmm φ} {irq : Int}

include hstop

lemma Requested.tables (h : Requested env s irq t) (hw : s.vgic.Wf) :
    t.vgic.Wf ∧ t.vgic.deref = s.vgic.deref := by
  cases h with
  | injectIrq => exact ⟨hw, rfl⟩
  | @ispendr _ _ l _ _ _ _ hrun =>
    have hloop : wp (setPendingIrqs env l) (fun _ u => u.vgic.Wf ∧ u.vgic.deref = s.vgic.deref) (fun _ _ => True) s := by
      refine wp_forM_keeps (fun i _ u hu => ?_) ⟨hw, rfl⟩
      rw [wp_bind]
      refine wp_mono (wp_inject hstop hu.1) (fun b u' hi => ?_) (fun _ _ _ => trivial)
      exact ⟨hi.wf hu.1, hi.deref.trans hu.2⟩
    have hafter := wp_ok hloop hrun
    exact hafter

lemma refusesCleanly_of_local (hw : t.vgic.Wf) (hlocal : 0 ≤ irq ∧ irq < (numVcpuLocalVirqs : Int))
    (hnone : t.vgic.handle irq = none) : RefusesCleanly env t irq := by
  have hinject := @wp_inject φ env t vcpuId irq hstop hw
  have hcannot : ∀ h, ¬CanInject env t irq h := fun h hcan => absurd (hnone ▸ hcan.handle) (by simp)
  cases hrun : vgicDistSetPendingIrq env vcpuId irq t with
  | ok b u =>
    cases wp_ok hinject hrun with
    | refused => exact hrun
    | pending hcan => exact absurd hcan (hcannot _)
    | accepted hcan => exact absurd hcan (hcannot _)
  | error e u =>
    cases wp_error hinject hrun with
    | negative hneg => exact absurd hlocal.1 (Int.not_le.mpr hneg)
    | noHandle _ hfind =>
      have hsome : (t.vgic.find irq).isSome := Vgic.find_isSome_of_local hlocal
      exact absurd hsome (by simp [hfind])
    | full hcan => exact absurd hcan (hcannot _)
    | rejected hcan => exact absurd hcan (hcannot _)

lemma not_refusesCleanly_of_spi (hw : t.vgic.Wf) (hspi : (numVcpuLocalVirqs : Int) ≤ irq)
    (hnone : t.vgic.handle irq = none) : ¬RefusesCleanly env t irq := by
  intro hrun
  cases wp_ok (wp_inject hstop hw) hrun with
  | refused hfind =>
    have hsome : (t.vgic.handle irq).isSome := Vgic.handle_isSome_of_find hspi hfind
    exact absurd hsome (by simp [hnone])

/-- In every reachable state the request of an unregistered interrupt, by an injection or by a bit of a write to
`ISPENDR`, is refused cleanly exactly when the interrupt is a local one. -/
theorem refusesCleanly_iff_local {allowed : Vmm φ → Op φ → Prop} (hs : Reachable env allowed s) (hirq : 0 ≤ irq)
    (hnone : s.vgic.handle irq = none) (hreq : Requested env s irq t) :
    RefusesCleanly env t irq ↔ irq < (numVcpuLocalVirqs : Int) := by
  obtain ⟨hw, hderef⟩ := hreq.tables hstop (reachable_workConserving hstop hs).1
  have hnone' : t.vgic.handle irq = none := by rw [Vgic.handle_congr hderef, hnone]
  refine ⟨fun hclean => ?_, fun hlt => refusesCleanly_of_local hstop hw ⟨hirq, hlt⟩ hnone'⟩
  by_contra hge
  exact not_refusesCleanly_of_spi hstop hw (Int.not_lt.mp hge) hnone' hclean

end

/-- PPI 27 is not registered after `vgic_init`. -/
theorem refusesCleanly_iff_local_timer :
    RefusesCleanly (vmmEnv .qemuArmVirtHyp) (vgicInit (vmmEnv .qemuArmVirtHyp) (.filled 0)) 27 :=
  (@refusesCleanly_iff_local _ (vmmEnv .qemuArmVirtHyp) rfl _ _ _ (fun _ _ => True) (.init ⟨.filled 0, rfl⟩) (by decide)
    (by decide) .injectIrq).mpr (by decide)

/-- A guest that sets the unregistered SPI 34 pending makes the VMM read through a null pointer, and so does
its injection. -/
theorem unregistered_spi_faults : ∃ s : Vmm VmmAckFn, Reachable (vmmEnv .qemuArmVirtHyp) (fun _ _ => True) s ∧
    s.vgic.handle 34 = none ∧ ¬RefusesCleanly (vmmEnv .qemuArmVirtHyp) s 34 ∧
    (∃ t, step (vmmEnv .qemuArmVirtHyp) (.injectIrq 34) s = .error .nullDeref t) ∧
    ∃ t, step (vmmEnv .qemuArmVirtHyp) (.fault (.vmFault (0x8000000 + 0x204) storeWord)) s = .error .nullDeref t := by
  obtain ⟨s, hs, hp⟩ := exists_reachable (vmmEnv .qemuArmVirtHyp) (fun _ _ => True)
    (fun s => decide (s.vgic.find 34 = none) && match step (vmmEnv .qemuArmVirtHyp) (.injectIrq 34) s,
        step (vmmEnv .qemuArmVirtHyp) (.fault (.vmFault (0x8000000 + 0x204) storeWord)) s with
      | .error .nullDeref _, .error .nullDeref _ => true
      | _, _ => false)
    [.guest (.filled 4)] (by decide +kernel) (by decide +kernel)
  rw [Bool.and_eq_true, decide_eq_true_eq] at hp
  have hnone : s.vgic.handle 34 = none := by rw [Vgic.handle, hp.1]; rfl
  refine ⟨s, hs, hnone, not_refusesCleanly_of_spi rfl (reachable_workConserving rfl hs).1 (by decide) hnone, ?_⟩
  have hruns := hp.2
  split at hruns
  · rename_i hinject hstore
    exact ⟨⟨_, hinject⟩, ⟨_, hstore⟩⟩
  · exact absurd hruns (by simp)

end Sel4cpVmm
