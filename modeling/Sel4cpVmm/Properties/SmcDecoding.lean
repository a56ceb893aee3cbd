import Sel4cpVmm.Proofs.Access

/-!
# Which SMC calls are served as PSCI

`smc_get_call` reads the service number and `smc_get_function_number` the function number. The calling convention
(bits 31 and 30), the bits between the two numbers and the upper half of `x0` are never looked at.
-/

namespace Sel4cpVmm

open StopProgram

variable {φ : Type} {env : Env φ}

/-! ### Function identifiers -/

/-- The functions `handle_psci` has a `case` for. -/
def psciHandled : List Nat := [psciVersion, psciCpuOn, psciMigrateInfoType, psciFeatures, psciSystemReset]

/-- The low word of `x0` identifies a fast call of the Standard Service, to a function that is handled. -/
structure IsPsciIdentifier (x0 : U64) : Prop where
  fast : (x0.setWidth 32).getLsbD 31 = true
  service : (x0.setWidth 32).extractLsb' 24 6 = 4
  zero : (x0.setWidth 32).extractLsb' 16 8 = 0
  function : ((x0.setWidth 32).extractLsb' 0 16).toNat ∈ psciHandled

/-- What the two masks of `smc.c` keep of `x0` names the Standard Service and a function that is handled. -/
structure TakenForPsci (x0 : U64) : Prop where
  service : x0.extractLsb' 24 6 = 4
  function : (x0.extractLsb' 0 16).toNat ∈ psciHandled

/-- The value a PSCI call returns, from its identifier and its first argument. -/
def psciResult (x0 x1 : U64) : U64 :=
  match (x0.extractLsb' 0 16).toNat with
  | 0x0 => 0x00010000
  | 0x3 => if x1 = 0 then BitVec.ofInt 64 psciAlreadyOn else BitVec.ofInt 64 psciInternalFailure
  | 0x6 => 2
  | 0x9 => BitVec.ofInt 64 psciSuccess
  | _ => BitVec.ofInt 64 psciNotSupported

/-- `handle_smc` serves the call: the guest runs on behind it with some value in `x0`. -/
def ServedAsPsci (env : Env φ) (s : Vmm φ) : Prop :=
  ∃ val, handleSmc env s = .ok false (resumed s (smcSetReturnValue s.tcb val))

/-! ### The masks of `smc.c` -/

section Masks

variable {x0 : U64}

lemma smcGetCall_eq_std : smcGetCall x0 = .stdService ↔ x0.extractLsb' 24 6 = 4 := by
  have hservice : ((x0 >>> 24) &&& 0x3F).toNat = (x0.extractLsb' 24 6).toNat := by
    rw [BitVec.toNat_and, BitVec.extractLsb'_toNat, BitVec.toNat_ushiftRight]
    exact Nat.and_two_pow_sub_one_eq_mod _ 6
  rw [← BitVec.toNat_inj, ← hservice]
  unfold smcGetCall
  dsimp only
  generalize ((x0 >>> 24) &&& 0x3F).toNat = n
  change _ ↔ n = 4
  split_ifs with h6 h48 h50 h64
  · split <;> simp_all
  all_goals simp only [false_iff]; omega

lemma toNat_functionNumber (regs : UserContext) :
    (smcGetFunctionNumber regs).toNat = ((regs.x.get 0).extractLsb' 0 16).toNat := by
  rw [smcGetFunctionNumber, BitVec.toNat_and, BitVec.extractLsb'_toNat]
  exact Nat.and_two_pow_sub_one_eq_mod _ 16

lemma IsPsciIdentifier.taken (h : IsPsciIdentifier x0) : TakenForPsci x0 := by
  have hlow : ∀ start len, start + len ≤ 32 → (x0.setWidth 32).extractLsb' start len = x0.extractLsb' start len := by
    intro start len hle
    ext i hi
    simp only [BitVec.getElem_extractLsb', BitVec.getLsbD_setWidth]
    simp [show start + i < 32 by omega]
  have hservice := h.service
  have hfunction := h.function
  rw [hlow _ _ (by omega)] at hservice hfunction
  exact ⟨hservice, hfunction⟩

end Masks

/-! ### PSCI -/

section Psci

lemma lt_psciMax {n : Nat} (h : n ∈ psciHandled) : n < psciMax := by
  simp only [psciHandled, List.mem_cons, List.not_mem_nil, or_false] at h
  rcases h with rfl | rfl | rfl | rfl | rfl <;> decide

lemma psciReturnValue_unhandled {regs : UserContext} {n : Nat} (h : n ∉ psciHandled) :
    psciReturnValue regs n = none := by
  simp only [psciHandled, List.mem_cons, List.not_mem_nil, or_false, not_or] at h
  obtain ⟨hversion, hcpuOn, hmigrate, hfeatures, hreset⟩ := h
  rw [psciReturnValue, if_neg hversion, if_neg hcpuOn, if_neg hmigrate, if_neg hfeatures, if_neg hreset]

lemma psciReturnValue_handled {regs : UserContext} (h : ((regs.x.get 0).extractLsb' 0 16).toNat ∈ psciHandled) :
    psciReturnValue regs ((regs.x.get 0).extractLsb' 0 16).toNat = some (psciResult (regs.x.get 0) (regs.x.get 1)) := by
  unfold psciResult
  generalize ((regs.x.get 0).extractLsb' 0 16).toNat = n at h
  simp only [psciHandled, List.mem_cons, List.not_mem_nil, or_false] at h
  rcases h with rfl | rfl | rfl | rfl | rfl
  · rfl
  · change (if regs.x.get 1 = 0 then _ else _) = some (if regs.x.get 1 = 0 then _ else _)
    split_ifs <;> rfl
  · rfl
  · rfl
  · rfl

variable (htcb : TcbAccepts env)

include htcb

lemma faultAdvanceVcpu_eq (s : Vmm φ) (regs : UserContext) :
    faultAdvanceVcpu env regs s = .ok false (resumed s regs) := by
  have hwp : wp (faultAdvanceVcpu env regs) (fun b t => b = false ∧ t = resumed s regs) (fun _ _ => False) s := by
    unfold faultAdvanceVcpu tcbWriteRegisters
    simp [htcb.writeRegisters, resumed, UserContext.advanced]
  obtain ⟨b, t, hrun, rfl, rfl⟩ := ok_of_wp hwp
  exact hrun

lemma handleSmc_eq (s : Vmm φ) : handleSmc env s =
    (if (s.tcb.x.get 0).extractLsb' 24 6 = 4 then
      if ((s.tcb.x.get 0).extractLsb' 0 16).toNat < psciMax then handlePsci env s.tcb ((s.tcb.x.get 0).extractLsb' 0 16).toNat
      else pure false
    else pure false : M φ Bool) s := by
  have hread : tcbReadRegisters env s = .ok (0, s.tcb) s := by
    unfold tcbReadRegisters
    rw [← htcb.readRegisters s]
    rfl
  have hassert : cAssert env (decide ((0 : Int) = 0)) s = .ok () s := rfl
  unfold handleSmc
  refine (bind_of_ok hread).trans ((bind_of_ok hassert).trans ?_)
  rw [← toNat_functionNumber]
  by_cases hservice : (s.tcb.x.get 0).extractLsb' 24 6 = 4
  · rw [if_pos hservice]
    have hcall : smcGetCall s.tcb.x[0] = .stdService := smcGetCall_eq_std.mpr hservice
    rw [hcall]
  · rw [if_neg hservice]
    cases hcall : smcGetCall s.tcb.x[0] with
    | stdService => exact absurd (smcGetCall_eq_std.mp hcall) hservice
    | _ => rfl

lemma handleSmc_taken {s : Vmm φ} (h : TakenForPsci (s.tcb.x.get 0)) : handleSmc env s =
    .ok false (resumed s (smcSetReturnValue s.tcb (psciResult (s.tcb.x.get 0) (s.tcb.x.get 1)))) := by
  have hadvance := faultAdvanceVcpu_eq htcb s (smcSetReturnValue s.tcb (psciResult (s.tcb.x.get 0) (s.tcb.x.get 1)))
  rw [handleSmc_eq htcb, if_pos h.service, if_pos (lt_psciMax h.function)]
  unfold handlePsci
  rw [psciReturnValue_handled h.function]
  exact (bind_of_ok hadvance).trans rfl

lemma handleSmc_not_taken {s : Vmm φ} (h : ¬TakenForPsci (s.tcb.x.get 0)) : handleSmc env s = .ok false s := by
  rw [handleSmc_eq htcb]
  split_ifs with hservice hmax
  · have hunhandled : ((s.tcb.x.get 0).extractLsb' 0 16).toNat ∉ psciHandled := fun hf => h ⟨hservice, hf⟩
    unfold handlePsci
    rw [psciReturnValue_unhandled hunhandled]
    rfl
  · rfl
  · rfl

end Psci

/-- `handle_smc` takes a call for PSCI by bits 29:24 and 15:0 of `x0`, whatever the other bits are. A call taken gets
its result in `x0` and is stepped over, any other call changes nothing. -/
theorem handleSmc_decodes (htcb : TcbAccepts env) (s : Vmm φ) :
    (ServedAsPsci env s ↔ TakenForPsci (s.tcb.x.get 0)) ∧
    (TakenForPsci (s.tcb.x.get 0) → handleSmc env s =
      .ok false (resumed s (smcSetReturnValue s.tcb (psciResult (s.tcb.x.get 0) (s.tcb.x.get 1))))) ∧
    (¬TakenForPsci (s.tcb.x.get 0) → handleSmc env s = .ok false s) ∧
    (IsPsciIdentifier (s.tcb.x.get 0) → TakenForPsci (s.tcb.x.get 0)) := by
  refine ⟨⟨?_, fun h => ⟨_, handleSmc_taken htcb h⟩⟩, handleSmc_taken htcb, handleSmc_not_taken htcb,
    IsPsciIdentifier.taken⟩
  rintro ⟨val, hserved⟩
  by_contra h
  rw [handleSmc_not_taken htcb h, EStateM.Result.ok.injEq] at hserved
  have hlog := congrArg (fun t : Vmm φ => t.log.length) hserved.2
  simp [resumed] at hlog

/-- `PSCI_VERSION` -/
theorem handleSmc_decodes_version :
    ServedAsPsci (vmmEnv .qemuArmVirtHyp) (vgicInit (vmmEnv .qemuArmVirtHyp) (.filled 0x84000000)) :=
  (handleSmc_decodes (vmmEnv_tcb .qemuArmVirtHyp) _).1.mpr ⟨by decide, by decide⟩

/-- A yielding call to function 0 of the Standard Service is answered with the version of PSCI. -/
theorem yielding_call_served : ¬(∀ s : Vmm VmmAckFn, ServedAsPsci (vmmEnv .qemuArmVirtHyp) s ↔
      IsPsciIdentifier (s.tcb.x.get 0)) ∧
    ¬IsPsciIdentifier 0x04000000 ∧
    ServedAsPsci (vmmEnv .qemuArmVirtHyp) (vgicInit (vmmEnv .qemuArmVirtHyp) (.filled 0x04000000)) := by
  have hnot : ¬IsPsciIdentifier 0x04000000 := fun h => absurd h.fast (by decide)
  have hserved : ServedAsPsci (vmmEnv .qemuArmVirtHyp)
      (vgicInit (vmmEnv .qemuArmVirtHyp) (.filled 0x04000000)) :=
    ⟨_, handleSmc_taken (vmmEnv_tcb .qemuArmVirtHyp) ⟨by decide, by decide⟩⟩
  exact ⟨fun h => hnot ((h _).mp hserved), hnot, hserved⟩

end Sel4cpVmm
