import Sel4cpVmm.Model.Inject
import Sel4cpVmm.Model.Fault

/-!
# Distributor register accesses

`vgic_dist_reg_read` and `vgic_dist_reg_write` of `vdist.h`. The `switch` over the offset is split
from what its cases do: `distRead` and `distWrite` decode the offset in the order of the source.
-/

namespace Sel4cpVmm

open GicDistMap

variable {φ : Type} (env : Env φ)

/-! ### Offsets -/

abbrev gicDistCtlr : Nat := 0x000
abbrev gicDistTyper : Nat := 0x004
abbrev gicDistIidr : Nat := 0x008
abbrev gicDistIgroupr0 : Nat := 0x080
abbrev gicDistIgroupr1 : Nat := 0x084
abbrev gicDistIgrouprN : Nat := 0x0FC
abbrev gicDistIsenabler0 : Nat := 0x100
abbrev gicDistIsenabler1 : Nat := 0x104
abbrev gicDistIsenablerN : Nat := 0x17C
abbrev gicDistIcenabler0 : Nat := 0x180
abbrev gicDistIcenabler1 : Nat := 0x184
abbrev gicDistIcenablerN : Nat := 0x1FC
abbrev gicDistIspendr0 : Nat := 0x200
abbrev gicDistIspendr1 : Nat := 0x204
abbrev gicDistIspendrN : Nat := 0x27C
abbrev gicDistIcpendr0 : Nat := 0x280
abbrev gicDistIcpendr1 : Nat := 0x284
abbrev gicDistIcpendrN : Nat := 0x2FC
abbrev gicDistIsactiver0 : Nat := 0x300
abbrev gicDistIsactiver1 : Nat := 0x304
abbrev gicDistIsactiverN : Nat := 0x37C
abbrev gicDistIcactiver0 : Nat := 0x380
abbrev gicDistIcactiver1 : Nat := 0x384
abbrev gicDistIcactiverN : Nat := 0x3FC
abbrev gicDistIpriorityr0 : Nat := 0x400
abbrev gicDistIpriorityr7 : Nat := 0x41C
abbrev gicDistIpriorityr8 : Nat := 0x420
abbrev gicDistIpriorityrN : Nat := 0x7F8
abbrev gicDistItargetsr0 : Nat := 0x800
abbrev gicDistItargetsr7 : Nat := 0x81C
abbrev gicDistItargetsr8 : Nat := 0x820
abbrev gicDistItargetsrN : Nat := 0xBF8
abbrev gicDistIcfgr0 : Nat := 0xC00
abbrev gicDistIcfgrN : Nat := 0xCFC
abbrev gicDistSgir : Nat := 0xF00
abbrev gicDistCpendsgir0 : Nat := 0xF10
abbrev gicDistCpendsgirN : Nat := 0xF1C
abbrev gicDistSpendsgir0 : Nat := 0xF20
abbrev gicDistSpendsgirN : Nat := 0xF2C

/-- `GIC_DIST_REGN` -/
def gicDistRegn (offset reg : Nat) : Nat := (offset - reg) / 4

/-- `case RANGE32(a, b)` -/
def range32 (offset a b : Nat) : Bool := decide (a ≤ offset) && decide (offset ≤ b + 3)

/-! ### Reads -/

/-- Where the value of a read comes from. -/
inductive DistRead
  /-- `reg` keeps its initial 0 -/
  | zero
  | word (w : Nat)
  /-- `*(uint32_t *)(base_reg + ..)` at a byte offset into the struct -/
  | raw (a : Nat)
  | unknown
  deriving DecidableEq

def distRead (g : GicVersion) (vcpu : VcpuId) (offset : Nat) : DistRead :=
  if range32 offset gicDistCtlr gicDistCtlr then .word ctlr
  else if range32 offset gicDistTyper gicDistTyper then .word typer
  else if range32 offset gicDistIidr gicDistIidr then .word iidr
  else if range32 offset 0x00C 0x01C then .zero
  else if range32 offset 0x020 0x03C then .zero
  else if range32 offset 0x040 0x07C then .zero
  else if range32 offset gicDistIgroupr0 gicDistIgroupr0 then .word (irqGroup0 + vcpu)
  else if range32 offset gicDistIgroupr1 gicDistIgrouprN then
    .word (irqGroup + gicDistRegn offset gicDistIgroupr1)
  else if range32 offset gicDistIsenabler0 gicDistIsenabler0 then .word (enableSet0 + vcpu)
  else if range32 offset gicDistIsenabler1 gicDistIsenablerN then
    .word (enableSet + gicDistRegn offset gicDistIsenabler1)
  else if range32 offset gicDistIcenabler0 gicDistIcenabler0 then .word (enableClr0 + vcpu)
  else if range32 offset gicDistIcenabler1 gicDistIcenablerN then
    .word (enableClr + gicDistRegn offset gicDistIcenabler1)
  else if range32 offset gicDistIspendr0 gicDistIspendr0 then .word (pendingSet0 + vcpu)
  else if range32 offset gicDistIspendr1 gicDistIspendrN then
    .word (pendingSet + gicDistRegn offset gicDistIspendr1)
  else if range32 offset gicDistIcpendr0 gicDistIcpendr0 then .word (pendingClr0 + vcpu)
  else if range32 offset gicDistIcpendr1 gicDistIcpendrN then
    .word (pendingClr + gicDistRegn offset gicDistIcpendr1)
  else if range32 offset gicDistIsactiver0 gicDistIsactiver0 then .word (active0 + vcpu)
  else if range32 offset gicDistIsactiver1 gicDistIsactiverN then
    .word (active + gicDistRegn offset gicDistIsactiver1)
  else if range32 offset gicDistIcactiver0 gicDistIcactiver0 then .word (activeClr0 + vcpu)
  else if range32 offset gicDistIcactiver1 gicDistIcactiverN then
    .word (activeClr + gicDistRegn offset gicDistIcactiver1)
  else if range32 offset gicDistIpriorityr0 gicDistIpriorityr7 then
    .word (priority0 + 8 * vcpu + gicDistRegn offset gicDistIpriorityr0)
  else if range32 offset gicDistIpriorityr8 gicDistIpriorityrN then
    .word (priority + gicDistRegn offset gicDistIpriorityr8)
  else if range32 offset 0x7FC 0x7FC then .zero
  else if range32 offset gicDistItargetsr0 gicDistItargetsr7 then
    .word (targets0 + 8 * vcpu + gicDistRegn offset gicDistItargetsr0)
  else if range32 offset gicDistItargetsr8 gicDistItargetsrN then
    .word (targets + gicDistRegn offset gicDistItargetsr8)
  else if range32 offset 0xBFC 0xBFC then .zero
  else if range32 offset gicDistIcfgr0 gicDistIcfgrN then .word (config + gicDistRegn offset gicDistIcfgr0)
  else if g = .v2 ∧ range32 offset 0xD00 0xDE4 then .raw (4 * spi + (offset - 0xD00))
  else if range32 offset 0xDE8 0xEFC then .zero
  else if range32 offset gicDistSgir gicDistSgir then .word sgir
  else if range32 offset 0xF04 0xF0C then .zero
  else if range32 offset gicDistCpendsgir0 gicDistCpendsgirN then
    .word (sgiPendingClr + 4 * vcpu + gicDistRegn offset gicDistCpendsgir0)
  else if range32 offset gicDistSpendsgir0 gicDistSpendsgirN then
    .word (sgiPendingSet + 4 * vcpu + gicDistRegn offset gicDistSpendsgir0)
  else if range32 offset 0xF30 0xFBC then .zero
  else if g = .v2 ∧ range32 offset 0xFC0 0xFFB then .raw (4 * periphId + (offset - 0xFC0))
  else if g = .v3 ∧ range32 offset 0x6100 0x7F00 then .raw (4 * irouter + (offset - 0x6100))
  else if g = .v3 ∧ range32 offset 0xFFD0 0xFFFC then .raw (4 * pidrn + (offset - 0xFFD0))
  else .unknown

/-- Finishes a read of the 32-bit register `reg`. -/
def finishRead (regs : UserContext) (addr fsr : U64) (reg : U32) : M φ Bool := do
  let mask ← faultGetDataMask env addr fsr
  let err ← faultAdvance env regs addr fsr ((reg &&& mask.setWidth 32).setWidth 64)
  return !err

def vgicDistRegRead (vcpu : VcpuId) (offset fsr : U64) (regs : UserContext) : M φ Bool := do
  let s ← get
  let addr := env.board.gicDistPaddr + offset
  match distRead env.board.gic vcpu offset.toNat with
  | .unknown =>
    let err ← faultAdvanceVcpu env regs
    return !err
  | .zero => finishRead env regs addr fsr 0
  | .word w => finishRead env regs addr fsr (s.dist.word w)
  | .raw a => finishRead env regs addr fsr (s.dist.load32 a)

/-! ### Writes -/

/-- `CTZ` -/
def ctz (x : U32) : Nat := ((List.range 32).find? fun k => x.getLsbD k).getD 32

/-- `while (data) { irq = CTZ(data); data &= ~(1U << irq); body }`. Every turn clears a bit, so
32 turns are enough. -/
def whileBits (body : Nat → M φ Unit) : Nat → U32 → M φ Unit
  | 0, _ => pure ()
  | fuel + 1, data =>
    if data = 0 then pure ()
    else do
      let irq := ctz data
      body irq
      whileBits body fuel (data &&& ~~~(1#32 <<< irq))

/-- The loop of a write-one register range that begins at `base`. -/
def writeOneBits (op : Int → M φ Unit) (base offset : Nat) (data : U32) : M φ Unit :=
  whileBits (fun irq => op ((irq + (offset - base) * 8 : Nat) : Int)) 32 data

def emulateRegWriteAccess (regs : UserContext) (addr fsr : U64) (w : Nat) : M φ Unit := do
  let s ← get
  let data ← faultGetData env regs fsr
  let reg ← faultEmulate env ((s.dist.word w).setWidth 64) addr fsr data
  modifyDist fun d => d.set w (reg.setWidth 32)

/-- What a write does, by its `case`. -/
inductive DistWrite
  | ctlr
  | ignored
  | store (w : Nat)
  | isenabler
  | icenabler
  | ispendr
  | icpendr
  | sgir
  | sgiPending
  | unknown
  deriving DecidableEq

def distWrite (g : GicVersion) (vcpu : VcpuId) (offset : Nat) : DistWrite :=
  if range32 offset gicDistCtlr gicDistCtlr then .ctlr
  else if range32 offset gicDistTyper gicDistTyper then .ignored
  else if range32 offset gicDistIidr gicDistIidr then .ignored
  else if range32 offset 0x00C 0x01C then .ignored
  else if range32 offset 0x020 0x03C then .ignored
  else if range32 offset 0x040 0x07C then .ignored
  else if range32 offset gicDistIgroupr0 gicDistIgroupr0 then .store (irqGroup0 + vcpu)
  else if range32 offset gicDistIgroupr1 gicDistIgrouprN then
    .store (irqGroup + gicDistRegn offset gicDistIgroupr1)
  else if range32 offset gicDistIsenabler0 gicDistIsenablerN then .isenabler
  else if range32 offset gicDistIcenabler0 gicDistIcenablerN then .icenabler
  else if range32 offset gicDistIspendr0 gicDistIspendrN then .ispendr
  else if range32 offset gicDistIcpendr0 gicDistIcpendrN then .icpendr
  else if range32 offset gicDistIsactiver0 gicDistIsactiver0 then .store (active0 + vcpu)
  else if range32 offset gicDistIsactiver1 gicDistIsactiverN then
    .store (active + gicDistRegn offset gicDistIsactiver1)
  else if range32 offset gicDistIcactiver0 gicDistIcactiver0 then .store (activeClr0 + vcpu)
  else if range32 offset gicDistIcactiver1 gicDistIcactiverN then
    .store (activeClr + gicDistRegn offset gicDistIcactiver1)
  else if range32 offset gicDistIpriorityr0 gicDistIpriorityrN then .ignored
  else if range32 offset 0x7FC 0x7FC then .ignored
  else if range32 offset gicDistItargetsr0 gicDistItargetsrN then .ignored
  else if range32 offset 0xBFC 0xBFC then .ignored
  else if range32 offset gicDistIcfgr0 gicDistIcfgrN then .ignored
  else if range32 offset 0xD00 0xDE4 then .ignored
  else if range32 offset 0xDE8 0xEFC then .ignored
  else if range32 offset gicDistSgir gicDistSgir then .sgir
  else if range32 offset 0xF04 0xF0C then .ignored
  else if range32 offset gicDistCpendsgir0 gicDistSpendsgirN then .sgiPending
  else if range32 offset 0xF30 0xFBC then .ignored
  else if range32 offset 0xFC0 0xFFB then .ignored
  else if g = .v3 ∧ range32 offset 0x6100 0x7F00 then .ignored
  else .unknown

/-! ### Software generated interrupts -/

/-- `mode` and `virq` of a value written to `SGIR`. -/
def sgirMode (data : U32) : U32 := (data &&& (0x3 <<< 24)) >>> 24
def sgirVirq (data : U32) : Int := ((data &&& 0xF).toNat : Int)

/-- `target_list`, or `none` for the reserved filter mode. The source does not use it further. -/
def sgirTargetList (vcpu : VcpuId) (data : U32) : Option U16 :=
  if sgirMode data = 0 then some (((data &&& (0xFF <<< 16)) >>> 16).setWidth 16)
  else if sgirMode data = 1 then some (((1#16 <<< numVcpus) - 1) &&& ~~~(1#16 <<< vcpu.val))
  else if sgirMode data = 2 then some (1#16 <<< vcpu.val)
  else none

def writeSgir (vcpu : VcpuId) (data : U32) : M φ Unit := do
  match sgirTargetList vcpu data with
  | none => pure ()
  | some _ =>
    let _ ← vgicInjectIrq env vcpuId (sgirVirq data)

def writeCtlr (data : U32) : M φ Unit :=
  if data = gicEnabled env.board.gic then modifyDist (vgicDistEnable env.board.gic)
  else if data = 0 then modifyDist (vgicDistDisable env.board.gic)
  else pure ()

/-- The `switch` of `vgic_dist_reg_write`. -/
def distWriteEffect (vcpu : VcpuId) (offset fsr : U64) (regs : UserContext) (mask : U32) : M φ Unit := do
  let addr := env.board.gicDistPaddr + offset
  match distWrite env.board.gic vcpu offset.toNat with
  | .ctlr =>
    let data ← faultGetData env regs fsr
    writeCtlr env (data.setWidth 32)
  | .ignored => pure ()
  | .store w => emulateRegWriteAccess env regs addr fsr w
  | .isenabler =>
    let data ← faultGetData env regs fsr
    writeOneBits (vgicDistEnableIrq env vcpu) gicDistIsenabler0 offset.toNat (data.setWidth 32 &&& mask)
  | .icenabler =>
    let data ← faultGetData env regs fsr
    writeOneBits (vgicDistDisableIrq vcpu) gicDistIcenabler0 offset.toNat (data.setWidth 32 &&& mask)
  | .ispendr =>
    let data ← faultGetData env regs fsr
    writeOneBits (fun irq => do let _ ← vgicDistSetPendingIrq env vcpu irq) gicDistIspendr0 offset.toNat
      (data.setWidth 32 &&& mask)
  | .icpendr =>
    let data ← faultGetData env regs fsr
    writeOneBits (vgicDistClrPendingIrq vcpu) gicDistIcpendr0 offset.toNat (data.setWidth 32 &&& mask)
  | .sgir =>
    let data ← faultGetData env regs fsr
    writeSgir env vcpu (data.setWidth 32)
  | .sgiPending => cAssert env false
  | .unknown => pure ()

def vgicDistRegWrite (vcpu : VcpuId) (offset fsr : U64) (regs : UserContext) : M φ Bool := do
  let mask ← faultGetDataMask env (env.board.gicDistPaddr + offset) fsr
  distWriteEffect env vcpu offset fsr regs (mask.setWidth 32)
  let err ← faultAdvanceVcpu env regs
  return !err

end Sel4cpVmm
