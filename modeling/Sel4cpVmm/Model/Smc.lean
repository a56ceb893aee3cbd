import Sel4cpVmm.Model.Fault

/-!
# SMC and PSCI calls

`smc.c` and `psci.c`.
-/

namespace Sel4cpVmm

variable {φ : Type} (env : Env φ)

/-- `smc_call_id_t` -/
inductive SmcCall
  | armArch
  | cpuService
  | sipService
  | oemService
  | stdService
  | stdHypService
  | vendorHypService
  | trustedApp
  | trustedOs
  | reserved
  deriving DecidableEq

def smcGetCall (funcId : U64) : SmcCall :=
  let service := ((funcId >>> 24) &&& 0x3F).toNat
  if service ≤ 6 then
    match service with
    | 0 => .armArch
    | 1 => .cpuService
    | 2 => .sipService
    | 3 => .oemService
    | 4 => .stdService
    | 5 => .stdHypService
    | _ => .vendorHypService
  else if service < 48 then .reserved
  else if service < 50 then .trustedApp
  else if service < 64 then .trustedOs
  else .reserved

def smcGetFunctionNumber (regs : UserContext) : U64 := regs.x[0] &&& 0xFFFF

def smcSetReturnValue (u : UserContext) (val : U64) : UserContext := { u with x := u.x.set 0 val }

def smcGetArg (u : UserContext) (arg : Nat) : U64 :=
  if h : 1 ≤ arg ∧ arg ≤ 6 then u.x[arg] else 0

/-! ### PSCI -/

abbrev psciVersion : Nat := 0x0
abbrev psciCpuOn : Nat := 0x3
abbrev psciMigrateInfoType : Nat := 0x6
abbrev psciSystemReset : Nat := 0x9
abbrev psciFeatures : Nat := 0xa
abbrev psciMax : Nat := 0x1f

def psciSuccess : Int := 0
def psciNotSupported : Int := -1
def psciAlreadyOn : Int := -4
def psciInternalFailure : Int := -6

/-- The value `handle_psci` returns to the guest, or `none` for a function it does not handle. -/
def psciReturnValue (regs : UserContext) (fnNumber : Nat) : Option U64 :=
  if fnNumber = psciVersion then some 0x00010000
  else if fnNumber = psciCpuOn then
    if smcGetArg regs 1 = BitVec.ofNat 64 vcpuId.val then some (BitVec.ofInt 64 psciAlreadyOn)
    else some (BitVec.ofInt 64 psciInternalFailure)
  else if fnNumber = psciMigrateInfoType then some 2
  else if fnNumber = psciFeatures then some (BitVec.ofInt 64 psciNotSupported)
  else if fnNumber = psciSystemReset then some (BitVec.ofInt 64 psciSuccess)
  else none

/-- Returns `err`, the failure flag of `fault_advance_vcpu`, as its `bool`. -/
def handlePsci (regs : UserContext) (fnNumber : Nat) : M φ Bool := do
  match psciReturnValue regs fnNumber with
  | none => return false
  | some val =>
    let err ← faultAdvanceVcpu env (smcSetReturnValue regs val)
    cAssert env !err
    return err

def handleSmc : M φ Bool := do
  let (err, regs) ← tcbReadRegisters env
  cAssert env (decide (err = 0))
  let fnNumber := (smcGetFunctionNumber regs).toNat
  match smcGetCall regs.x[0] with
  | .stdService => if fnNumber < psciMax then handlePsci env regs fnNumber else return false
  | _ => return false

end Sel4cpVmm
