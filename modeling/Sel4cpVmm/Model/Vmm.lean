import Sel4cpVmm.Model.VGic
import Sel4cpVmm.Model.Smc

/-!
# The VMM's entry points

`vmm.c`: the handlers `fault` dispatches to, `notified`, and the ack callbacks it registers.
-/

namespace Sel4cpVmm

variable {φ : Type} (env : Env φ)

/-! ### Fault handlers -/

def syscallPaToIpa : U64 := 65
def syscallNop : U64 := 67

def handleUnknownSyscall (syscall : U64) : M φ Bool := do
  let (err, regs) ← tcbReadRegisters env
  cAssert env (decide (err = 0))
  let regs := { regs with pc := regs.pc + 4 }
  if syscall = syscallPaToIpa ∨ syscall = syscallNop then
    let err ← tcbWriteRegisters env false regs
    cAssert env (decide (err = 0))
    return true
  else
    return false

def handleVppiEvent (ppiIrq : U64) : M φ Bool := do
  let success ← vgicInjectIrq env vcpuId (cInt ppiIrq)
  if ¬ success then
    let ackErr ← vcpuAckVppi env ppiIrq.toNat
    cAssert env (decide (ackErr = 0))
    if ackErr ≠ 0 then
      return false
    else
      replyToFault
      return true
  else
    replyToFault
    return true

/-- `HSR_EXCEPTION_CLASS`; the mask is a negative `int`, so it keeps the upper half of `hsr`. -/
def hsrExceptionClass (hsr : U64) : U64 := (hsr &&& 0xfffffffffc000000) >>> 26

def hsrSmc64Exception : U64 := 0x17
def hsrWfxException : U64 := 0x1

def handleVcpuFault (hsr : U64) : M φ Bool := do
  if hsrExceptionClass hsr = hsrSmc64Exception then
    handleSmc env
  else if hsrExceptionClass hsr = hsrWfxException then
    replyToFault
    return true
  else
    return false

def handleUserException : M φ Bool := do
  let (ret, _) ← tcbReadRegisters env
  return decide (ret = 0)

/-- `case a ... b` on the page of a fault address. -/
def pageInRange (page a b : U64) : Bool := decide (a ≤ page) && decide (page ≤ b)

def handleVmFault (addr fsr : U64) : M φ Bool := do
  let (err, regs) ← tcbReadRegisters env
  cAssert env (decide (err = 0))
  let page := addr &&& ~~~(0x1000 - 1)
  if pageInRange page env.board.gicDistPaddr (env.board.gicDistPaddr + env.board.gicDistSize) then
    handleVgicDistFault env vcpuId addr fsr regs
  else if env.board.gic = .v3 ∧
      pageInRange page Board.gicRedistPaddr (Board.gicRedistPaddr + Board.gicRedistSize) then
    handleVgicRedistFault env vcpuId addr fsr regs
  else
    cAssert env false
    return false

/-- A fault message, with the message registers its handler reads. `err` of a maintenance event is
what the uninitialised local of `handle_vgic_maintenance` happens to hold. -/
inductive Fault
  | vmFault (addr fsr : U64)
  | unknownSyscall (syscall : U64)
  | userException
  | vgicMaintenance (idx : U64) (err : Int)
  | vcpuFault (hsr : U64)
  | vppiEvent (irq : U64)

/-- The handler `fault` calls; it ignores the result. -/
def handleFault : Fault → M φ Bool
  | .vmFault addr fsr => handleVmFault env addr fsr
  | .unknownSyscall syscall => handleUnknownSyscall env syscall
  | .userException => handleUserException env
  | .vgicMaintenance idx err => handleVgicMaintenance env (cInt idx) err
  | .vcpuFault hsr => handleVcpuFault env hsr
  | .vppiEvent irq => handleVppiEvent env irq

/-- `fault`: `none` is a label it does not know. -/
def fault : Option Fault → M φ Unit
  | some f => do
    let _ ← handleFault env f
  | none => logEvent .vmStop

/-! ### Notifications and ack callbacks -/

def serialIrqCh : Nat := 1

def notified (ch : Nat) : M φ Unit :=
  if ch = serialIrqCh then do
    let _ ← vgicInjectIrq env vcpuId env.board.serialIrq
  else pure ()

/-- The ack callbacks of `vmm.c`. -/
inductive VmmAckFn
  | vppiEventAck
  | sgiAck
  | serialAck
  deriving DecidableEq

/-- The calls these make. -/
def vmmAckFn (board : Board) : VmmAckFn → VcpuId → Int → VoidPtr → Vmm VmmAckFn → List AckCall
  | .vppiEventAck, _, irq, _, _ => [.vcpuAckVppi irq]
  | .sgiAck, _, _, _, _ => []
  | .serialAck, _, _, _, _ =>
    match board with
    | .qemuArmVirtHyp => [.irqAck serialIrqCh]
    | .odroidc2 => [.irqAck serialIrqCh, .injectIrq serialIrqCh]
    | .imx8mmEvk => []

/-- The VMM of `vmm.c` on a board, with a kernel that accepts every call. -/
def vmmEnv (board : Board) : Env VmmAckFn where
  board := board
  assertStops := true
  ackFn := vmmAckFn board
  vcpuInjectIrq _ _ _ _ := 0
  vcpuAckVppi _ _ := 0
  tcbReadRegisters _ := 0
  tcbWriteRegisters _ _ := 0

end Sel4cpVmm
