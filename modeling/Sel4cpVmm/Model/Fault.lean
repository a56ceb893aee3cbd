import Sel4cpVmm.Model.Types

/-!
# Decoding and finishing a data abort

`fault.c`: the syndrome of a trapped access, the lane mask of its data, the register it names, and
the step past the trapped instruction. `decode_rt` hands out a pointer, which is an `RtPtr` here.
-/

namespace Sel4cpVmm

variable {φ : Type} (env : Env φ)

/-! ### The syndrome -/

def hsrIsSyndromeValid (hsr : U64) : Bool := hsr &&& (1 <<< 24) != 0
def hsrSyndromeWidth (hsr : U64) : U64 := (hsr >>> 22) &&& 0x3
def hsrSyndromeRt (hsr : U64) : U64 := (hsr >>> 16) &&& 0x1f

def faultIsWrite (fsr : U64) : Bool := fsr &&& (1 <<< 6) != 0
def faultIsRead (fsr : U64) : Bool := !faultIsWrite fsr

inductive FaultWidth
  | doubleword
  | word
  | halfword
  | byte
  deriving DecidableEq

/-- The access width a valid syndrome encodes. -/
def syndromeWidth (fsr : U64) : FaultWidth :=
  if hsrSyndromeWidth fsr = 0 then .byte
  else if hsrSyndromeWidth fsr = 1 then .halfword
  else if hsrSyndromeWidth fsr = 2 then .word
  else .doubleword

def FaultWidth.bytes : FaultWidth → Nat
  | .doubleword => 8
  | .word => 4
  | .halfword => 2
  | .byte => 1

/-- The data mask of a width in lane 0. -/
def FaultWidth.mask : FaultWidth → U64
  | .doubleword => BitVec.allOnes 64
  | .word => 0xffffffff
  | .halfword => 0x0000ffff
  | .byte => 0x000000ff

/-- The alignment bits `fault_get_data_mask` asserts to be clear; it has no check for a doubleword. -/
def FaultWidth.misaligned (addr : U64) : FaultWidth → U64
  | .doubleword => 0
  | .word => addr &&& 0x3
  | .halfword => addr &&& 0x1
  | .byte => addr &&& 0x0

/-- The number of bits an access to `addr` is shifted by inside its word. -/
def laneShift (addr : U64) : Nat := ((addr &&& 0x3) * 8).toNat

def faultGetWidth (fsr : U64) : M φ FaultWidth := do
  if hsrIsSyndromeValid fsr then
    return syndromeWidth fsr
  else
    cAssert env false
    return .doubleword

def faultGetDataMask (addr fsr : U64) : M φ U64 := do
  let width ← faultGetWidth env fsr
  cAssert env (decide (width.misaligned addr = 0))
  return width.mask <<< laneShift addr

/-! ### The register operand -/

inductive RtPtr
  | reg (n : Fin 31)
  | wzr

def decodeRt (reg : U64) : M φ (Option RtPtr) := do
  if h : reg.toNat < 31 then
    return some (.reg ⟨reg.toNat, h⟩)
  else if reg.toNat = 31 then
    return some .wzr
  else
    cAssert env false
    return none

def getRt (fsr : U64) : M φ Int := do
  let rt : Int := if hsrIsSyndromeValid fsr then ((hsrSyndromeRt fsr).toNat : Int) else -1
  cAssert env (decide (0 ≤ rt))
  return rt

/-- `*ptr` -/
def RtPtr.read (p : RtPtr) (regs : UserContext) (wzr : U64) : U64 :=
  match p with
  | .reg n => regs.x[n]
  | .wzr => wzr

def faultGetData (regs : UserContext) (fsr : U64) : M φ U64 := do
  let rt ← getRt env fsr
  let p ← decodeRt env (BitVec.ofInt 64 rt)
  let s ← get
  match p with
  | none => throw .nullDeref
  | some p => return p.read regs s.wzr

/-- `*ptr = val`; the write goes to the context or to the hidden `wzr`. -/
def RtPtr.write (p : RtPtr) (regs : UserContext) (val : U64) : M φ UserContext := do
  match p with
  | .reg n => return { regs with x := regs.x.set n val }
  | .wzr =>
    modify fun s => { s with wzr := val }
    return regs

/-! ### Emulating the access -/

def faultEmulate (reg addr fsr regVal : U64) : M φ U64 := do
  let s := laneShift addr
  let m ← faultGetDataMask env addr fsr
  if faultIsRead fsr then
    return (reg &&& ~~~(m >>> s)) ||| ((regVal &&& m) >>> s)
  else
    return (reg &&& ~~~m) ||| ((regVal <<< s) &&& m)

/-- Returns whether `seL4_TCB_WriteRegisters` failed. -/
def faultAdvanceVcpu (regs : UserContext) : M φ Bool := do
  let regs := { regs with pc := regs.pc + 4 }
  let err ← tcbWriteRegisters env true regs
  cAssert env (decide (err = 0))
  replyToFault
  return decide (err ≠ 0)

def faultAdvance (regs : UserContext) (addr fsr regVal : U64) : M φ Bool := do
  let rt ← getRt env fsr
  let p ← decodeRt env (BitVec.ofInt 64 rt)
  let s ← get
  match p with
  | none => throw .nullDeref
  | some p =>
    let val ← faultEmulate env (p.read regs s.wzr) addr fsr regVal
    let regs ← p.write regs val
    faultAdvanceVcpu env regs

end Sel4cpVmm
