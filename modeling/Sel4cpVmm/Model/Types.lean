import Mathlib.Logic.Function.Basic
import Sel4cpVmm.Lib.Program

/-!
# Boards, guest context and VMM state

The constants of `util.h`, `vgic.h` and `virq.h`, the data the VMM keeps (`vgic_t`, the two
register maps, the hidden `wzr`) and what it can be seen doing to the kernel, as a log of events.
-/

namespace Sel4cpVmm

abbrev U16 := BitVec 16
abbrev U32 := BitVec 32
abbrev U64 := BitVec 64

/-- A `void *`; only the null pointer is named. -/
abbrev VoidPtr := U64

def null : VoidPtr := 0

/-- The C conversion of a 64-bit message register to `int`. -/
def cInt (x : U64) : Int := (x.setWidth 32).toInt

/-- The index of an array of `n` entries, once the `int` is known to be one. -/
lemma toNat_lt {i : Int} {n : Nat} (h : 0 ≤ i ∧ i.toNat < n) : i.toNat < n := h.2

/-! ### Build configuration -/

inductive Board
  | qemuArmVirtHyp
  | odroidc2
  | imx8mmEvk
  deriving DecidableEq

inductive GicVersion
  | v2
  | v3
  deriving DecidableEq

namespace Board

def gic : Board → GicVersion
  | imx8mmEvk => .v3
  | _ => .v2

def gicDistPaddr : Board → U64
  | qemuArmVirtHyp => 0x8000000
  | odroidc2 => 0xc4301000
  | imx8mmEvk => 0x38800000

def gicDistSize : Board → U64
  | imx8mmEvk => 0x10000
  | _ => 0x1000

def gicRedistPaddr : U64 := 0x38880000
def gicRedistSize : U64 := 0xc0000

def serialIrq : Board → Int
  | qemuArmVirtHyp => 33
  | odroidc2 => 225
  | imx8mmEvk => 79

end Board

def GicVersion.group : GicVersion → Nat
  | .v2 => 0
  | .v3 => 1

abbrev numVcpus : Nat := 1
abbrev numSgiVirqs : Int := 16
abbrev numVcpuLocalVirqs : Nat := 32
abbrev numSlotsSpiVirq : Nat := 200
abbrev virqInvalid : Int := -1
abbrev numListRegs : Nat := 4
abbrev maxIrqQueueLen : Nat := 64

/-- A vCPU number that passes the range assertion of `get_vgic_vcpu`. -/
abbrev VcpuId := Fin numVcpus

def vcpuId : VcpuId := 0

/-! ### Guest registers -/

/-- `seL4_UserContext`; `x[n]` is the general register of that number. -/
structure UserContext where
  pc : U64
  sp : U64
  spsr : U64
  x : Vector U64 31
  tpidrEl0 : U64
  tpidrroEl0 : U64
  deriving DecidableEq

/-! ### Interrupt handles, list registers and the overflow queue -/

section State

variable (φ : Type)

/-- `struct virq_handle`, with `φ` the callbacks an `irq_ack_fn_t` can point to. -/
structure VirqHandle where
  virq : Int
  ackFn : Option φ
  ackData : VoidPtr

/-- A `struct virq_handle *` into the registration tables. -/
inductive VirqPtr
  | sgiPpi (vcpu : VcpuId) (i : Fin numVcpuLocalVirqs)
  | spi (i : Fin numSlotsSpiVirq)
  deriving DecidableEq

/-- `struct irq_queue`: a circular buffer of pointers, null where nothing was ever stored. -/
structure IrqQueue where
  irqs : Vector (Option VirqPtr) maxIrqQueueLen
  head : Nat
  tail : Nat

structure VgicVcpu where
  lrShadow : Vector (VirqHandle φ) numListRegs
  irqQueue : IrqQueue
  localVirqs : Vector (VirqHandle φ) numVcpuLocalVirqs

structure Vgic where
  vspis : Vector (VirqHandle φ) numSlotsSpiVirq
  vgicVcpu : Vector (VgicVcpu φ) numVcpus

end State

/-! ### Register maps -/

/-- `struct gic_dist_map` as the 32-bit words from its first byte on. An array index past its
array reads and writes the words of the next field, and past the struct those that follow it. -/
structure GicDistMap where
  word : Nat → U32

/-- `struct gic_redist_map`, likewise. -/
structure GicRedistMap where
  word : Nat → U32

/-! ### Events -/

/-- What the VMM and the kernel exchange, and the two points of the vGIC the proofs refer to:
`accepted` where `vgic_dist_set_pending_irq` sets a pending bit, `ack` where a callback is called. -/
inductive Event (φ : Type)
  /-- the kernel delivers a VPPI event and masks the PPI -/
  | vppiEvent (irq : Int)
  /-- the kernel delivers the notification of an SPI and masks it -/
  | notification (irq : Int)
  | accepted (irq : Int)
  /-- the error message of `vgic_dist_set_pending_irq` for a full queue -/
  | enqueueFailed (irq : Int)
  /-- `shadow` is what `lr_shadow[idx]` holds when the kernel is called -/
  | vcpuInjectIrq (virq : Int) (group : Nat) (idx : Int) (shadow : Int)
  | ack (fn : φ) (vcpu : VcpuId) (irq : Int) (cookie : VoidPtr)
  | vcpuAckVppi (irq : Int)
  | irqAck (ch : Nat)
  | writeRegisters (resume : Bool) (regs : UserContext)
  | reply
  | vmStop
  deriving DecidableEq

/-- The VMM, the guest context the kernel holds, and the log, oldest event first. -/
structure Vmm (φ : Type) where
  vgic : Vgic φ
  dist : GicDistMap
  redist : GicRedistMap
  wzr : U64
  tcb : UserContext
  log : List (Event φ)

/-- Why the VMM makes no further progress: a failed `assert` loops for ever, the others are
a read through a null pointer and an access outside every object. -/
inductive Stop
  | assertFailed
  | nullDeref
  | outOfBounds
  deriving DecidableEq

/-- A call an ack callback can make into the kernel or back into the vGIC. -/
inductive AckCall
  | irqAck (ch : Nat)
  | vcpuAckVppi (irq : Int)
  | injectIrq (irq : Int)
  deriving DecidableEq

/-- What surrounds the code: the board, whether a failed `assert` stops the VMM, the calls each
callback makes in a given state, and the result codes of the kernel. -/
structure Env (φ : Type) where
  board : Board
  assertStops : Bool
  ackFn : φ → VcpuId → Int → VoidPtr → Vmm φ → List AckCall
  vcpuInjectIrq : Vmm φ → Int → Nat → Int → U64
  vcpuAckVppi : Vmm φ → Int → U64
  tcbReadRegisters : Vmm φ → Int
  tcbWriteRegisters : Vmm φ → UserContext → Int

abbrev M (φ : Type) := EStateM Stop (Vmm φ)

section Basic

variable {φ : Type} (env : Env φ)

/-- `assert` of `util.h`. -/
def cAssert (c : Bool) : M φ Unit :=
  if c || !env.assertStops then pure () else throw .assertFailed

def logEvent (e : Event φ) : M φ Unit := modify fun s => { s with log := s.log ++ [e] }

def replyToFault : M φ Unit := logEvent .reply

def modifyDist (f : GicDistMap → GicDistMap) : M φ Unit := modify fun s => { s with dist := f s.dist }

def modifyVgic (f : Vgic φ → Vgic φ) : M φ Unit := modify fun s => { s with vgic := f s.vgic }

/-- `seL4_TCB_ReadRegisters`: the result code and the context read. -/
def tcbReadRegisters : M φ (Int × UserContext) := do
  let s ← get
  return (env.tcbReadRegisters s, s.tcb)

/-- `seL4_TCB_WriteRegisters` -/
def tcbWriteRegisters (resume : Bool) (regs : UserContext) : M φ Int := do
  let s ← get
  let err := env.tcbWriteRegisters s regs
  logEvent (.writeRegisters resume regs)
  if err = 0 then
    modify fun s => { s with tcb := regs }
  return err

end Basic

end Sel4cpVmm
