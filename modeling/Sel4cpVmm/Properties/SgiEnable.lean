import Sel4cpVmm.Proofs.DistRuns

/-!
# SGIs stay enabled

`vgic_dist_disable_irq` spares the SGIs, which the reset of GICv2 enables. The reset of GICv3 enables the
first sixteen SPIs of the array instead, and its redistributor clears enable bits without that helper.
-/

namespace Sel4cpVmm

open GicDistMap

variable {φ : Type} {env : Env φ}

def SgisEnabled (d : GicDistMap) : Prop := ∀ i, 0 ≤ i ∧ i < numSgiVirqs → isEnabled d i vcpuId = true

lemma sgisEnabled_kept : KeptByDist (fun _ => True) .v2 SgisEnabled where
  setPending d i b hi h j hj := by
    rw [isEnabled_setPending (sgi_lt_irqLimit hj)]
    exact h j hj
  enable d i hi h j hj := by
    rw [isEnabled_setEnable (sgi_lt_irqLimit hj) hi.1]
    split_ifs
    · rfl
    · exact h j hj
  disable d i hi h j hj := by
    have hne : j ≠ i := fun he => absurd hi.1 (Int.not_le.mpr (he ▸ hj.2))
    rw [isEnabled_setEnable (sgi_lt_irqLimit hj) (Int.le_trans (by decide) hi.1), if_neg hne]
    exact h j hj
  clearEnable hg := absurd hg (by decide)
  store d w x hw h j hj := by
    rw [isEnabled_set (sgi_lt_irqLimit hj) hw.out.2.1]
    exact h j hj
  ctlr d x h j hj := by
    rw [isEnabled_set (sgi_lt_irqLimit hj) (.inl (by decide))]
    exact h j hj

lemma sgisEnabled_reset : SgisEnabled (vgicDistReset .v2 ⟨fun _ => 0⟩) := by
  intro i hi
  obtain ⟨n, rfl⟩ := Int.eq_ofNat_of_zero_le hi.1
  have hn : n < 16 := by
    have hlt := hi.2
    simp only [numSgiVirqs] at hlt
    omega
  have hall : ∀ n : Fin 16, isEnabled (vgicDistReset .v2 ⟨fun _ => 0⟩) (n : Int) vcpuId = true := by decide +kernel
  exact hall ⟨n, hn⟩

/-- Every SGI is enabled in every state reached by accesses that resolve to numbers below the limit exactly on
GICv2. -/
theorem sgisEnabled_iff_gicV2 (hstop : env.assertStops = true) :
    (∀ s, Reachable env (AccessBelow env) s → SgisEnabled s.dist) ↔ env.board.gic = .v2 := by
  refine ⟨fun h => ?_, fun hg s hs => ?_⟩
  · cases hg : env.board.gic with
    | v2 => rfl
    | v3 =>
      -- the reset leaves SGI 0 disabled
      have h0 := h (vgicInit env (.filled 0)) (.init ⟨_, rfl⟩) 0 (by decide)
      change isEnabled (vgicDistReset env.board.gic ⟨fun _ => 0⟩) 0 vcpuId = true at h0
      rw [hg] at h0
      exact absurd h0 (by decide)
  · have hregs : ∀ op : Op φ, RegistersOnly (fun _ => True) op := by
      intro op
      cases op <;> simp [RegistersOnly]
    exact (reachable_dist hstop (hg ▸ sgisEnabled_kept) (fun _ _ => trivial) (hg ▸ sgisEnabled_reset)
      (hs.mono fun s op h => ⟨hregs op, h⟩)).2

/-- The guest enables all local interrupts and disables them again: PPI 27 is disabled, the SGIs are not. -/
theorem sgisEnabled_iff_gicV2_disabled : ∃ s : Vmm VmmAckFn, isEnabled s.dist 27 vcpuId = false ∧ SgisEnabled s.dist := by
  obtain ⟨s, hs, hp⟩ := exists_reachable (vmmEnv .qemuArmVirtHyp) (AccessBelow (vmmEnv .qemuArmVirtHyp))
    (fun s => !isEnabled s.dist 27 vcpuId)
    (guestStore (vmmEnv .qemuArmVirtHyp) 0x100 0xffffffff ++ guestStore (vmmEnv .qemuArmVirtHyp) 0x180 0xffffffff)
    (by decide +kernel) (by decide +kernel)
  exact ⟨s, by simpa using hp, (sgisEnabled_iff_gicV2 rfl).mpr rfl s hs⟩

def storeIcenabler0 : Op VmmAckFn := .fault (.vmFault (Board.gicRedistPaddr + 0x10180) storeWord)

/-- On GICv3 SGI 0 is disabled after `vgic_init`, and the redistributor disables it again once the guest has
enabled it. -/
theorem gicV3_sgi_disabled :
    ¬SgisEnabled (vgicInit (vmmEnv .imx8mmEvk) (.filled 0)).dist ∧
    ∃ s s' : Vmm VmmAckFn, Reachable (vmmEnv .imx8mmEvk) (AccessBelow (vmmEnv .imx8mmEvk)) s ∧
      isEnabled s.dist 0 vcpuId = true ∧ step (vmmEnv .imx8mmEvk) storeIcenabler0 s = .ok ⟨⟩ s' ∧
      isEnabled s'.dist 0 vcpuId = false := by
  refine ⟨fun h => absurd (h 0 (by decide)) (by decide), ?_⟩
  obtain ⟨s, hs, hp⟩ := exists_reachable (vmmEnv .imx8mmEvk) (AccessBelow (vmmEnv .imx8mmEvk))
    (fun s => isEnabled s.dist 0 vcpuId && match step (vmmEnv .imx8mmEvk) storeIcenabler0 s with
      | .ok _ s' => !isEnabled s'.dist 0 vcpuId
      | .error _ _ => false)
    (guestStore (vmmEnv .imx8mmEvk) 0x100 1) (by decide +kernel) (by decide +kernel)
  cases hrun : step (vmmEnv .imx8mmEvk) storeIcenabler0 s with
  | error e s' => simp [hrun] at hp
  | ok a s' =>
    simp only [hrun, Bool.and_eq_true, Bool.not_eq_true'] at hp
    exact ⟨s, s', hs, hp.1, hrun, hp.2⟩

end Sel4cpVmm
