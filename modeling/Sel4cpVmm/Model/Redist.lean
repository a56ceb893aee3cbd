import Sel4cpVmm.Model.VDist

/-!
# The GICv3 redistributor

`struct gic_redist_map` of `vgic_v3.h` and its accesses in `vgic_v3.c`. The frame has no storage of
its own for SGIs and PPIs: those registers are the distributor's bank 0.
-/

namespace Sel4cpVmm

open GicDistMap

variable {φ : Type} (env : Env φ)

namespace GicRedistMap

abbrev ctlr : Nat := 0x0000 / 4
abbrev iidr : Nat := 0x0004 / 4
/-- A 64-bit register; reads keep the low word. -/
abbrev typer : Nat := 0x0008 / 4
abbrev waker : Nat := 0x0014 / 4
abbrev pidr4 : Nat := 0xFFD0 / 4

def load32 (r : GicRedistMap) (a : Nat) : U32 := GicDistMap.load32 ⟨r.word⟩ a

/-- `vgic_redist_reset` -/
def reset (r : GicRedistMap) : GicRedistMap :=
  ⟨(GicDistMap.setAll ⟨r.word⟩ [(typer, 0x11), (typer + 1, 0), (iidr, 0x1143B), (0xFFE0 / 4, 0x93),
    (0xFFE4 / 4, 0xB4), (0xFFE8 / 4, 0x3B), (pidr4, 0x44), (0xFFF0 / 4, 0x0D), (0xFFF4 / 4, 0xF0),
    (0xFFF8 / 4, 0x05), (0xFFFC / 4, 0xB1)]).word⟩

end GicRedistMap

abbrev gicrCtlr : Nat := 0x000
abbrev gicrIidr : Nat := 0x004
abbrev gicrTyper : Nat := 0x008
abbrev gicrWaker : Nat := 0x014
abbrev gicrIgroupr0 : Nat := 0x10080
abbrev gicrIsenabler0 : Nat := 0x10100
abbrev gicrIcenabler0 : Nat := 0x10180
abbrev gicrIcactiver0 : Nat := 0x10380
abbrev gicrIpriorityr0 : Nat := 0x10400
abbrev gicrIpriorityrN : Nat := 0x1041C
abbrev gicrIcfgr1 : Nat := 0x10c04

/-- Where the value of a redistributor read comes from. -/
inductive RedistRead
  | redistWord (w : Nat)
  | redistRaw (a : Nat)
  | distRaw (a : Nat)
  | unknown

def redistRead (vcpu : VcpuId) (offset : Nat) : RedistRead :=
  if range32 offset gicrCtlr gicrCtlr then .redistWord GicRedistMap.ctlr
  else if range32 offset gicrIidr gicrIidr then .redistWord GicRedistMap.iidr
  else if range32 offset gicrTyper gicrTyper then .redistWord GicRedistMap.typer
  else if range32 offset gicrWaker gicrWaker then .redistWord GicRedistMap.waker
  else if range32 offset 0xFFD0 0xFFFC then .redistRaw (4 * GicRedistMap.pidr4 + (offset - 0xFFD0))
  else if range32 offset gicrIgroupr0 gicrIgroupr0 then
    .distRaw (4 * (irqGroup0 + vcpu) + (offset - gicrIgroupr0))
  else if range32 offset gicrIcfgr1 gicrIcfgr1 then .distRaw (4 * (config + 1) + (offset - gicrIcfgr1))
  else .unknown

def handleVgicRedistReadFault (vcpu : VcpuId) (offset fsr : U64) (regs : UserContext) : M φ Bool := do
  let s ← get
  let faultAddr := Board.gicRedistPaddr + offset
  match redistRead vcpu offset.toNat with
  | .unknown =>
    let err ← faultAdvanceVcpu env regs
    return !err
  | .redistWord w => finishRead env regs faultAddr fsr (s.redist.word w)
  | .redistRaw a => finishRead env regs faultAddr fsr (s.redist.load32 a)
  | .distRaw a => finishRead env regs faultAddr fsr (s.dist.load32 a)

/-- What a redistributor write does, by its `case`. -/
inductive RedistWrite
  | ignored
  | store (w : Nat)
  | isenabler0
  | icenabler0
  | unknown

def redistWrite (vcpu : VcpuId) (offset : Nat) : RedistWrite :=
  if range32 offset gicrWaker gicrWaker then .ignored
  else if range32 offset gicrIgroupr0 gicrIgroupr0 then .store (irqGroup0 + vcpu)
  else if range32 offset gicrIsenabler0 gicrIsenabler0 then .isenabler0
  else if range32 offset gicrIcenabler0 gicrIcenabler0 then .icenabler0
  else if range32 offset gicrIcactiver0 gicrIcactiver0 then .store (active0 + vcpu)
  else if range32 offset gicrIpriorityr0 gicrIpriorityrN then .ignored
  else .unknown

/-- The `switch` of `handle_vgic_redist_write_fault`. -/
def redistWriteEffect (vcpu : VcpuId) (offset fsr : U64) (regs : UserContext) (mask : U32) : M φ Unit := do
  let faultAddr := Board.gicRedistPaddr + offset
  match redistWrite vcpu offset.toNat with
  | .ignored => pure ()
  | .store w => emulateRegWriteAccess env regs faultAddr fsr w
  | .isenabler0 =>
    let data ← faultGetData env regs fsr
    whileBits (fun irq => vgicDistEnableIrq env vcpu irq) 32 (data.setWidth 32 &&& mask)
  | .icenabler0 =>
    let data ← faultGetData env regs fsr
    whileBits (fun irq => modifyDist fun d => setEnable d irq false vcpu) 32 (data.setWidth 32 &&& mask)
  | .unknown =>
    -- the error message prints the data
    let _ ← faultGetData env regs fsr

def handleVgicRedistWriteFault (vcpu : VcpuId) (offset fsr : U64) (regs : UserContext) : M φ Bool := do
  let mask ← faultGetDataMask env (Board.gicRedistPaddr + offset) fsr
  redistWriteEffect env vcpu offset fsr regs (mask.setWidth 32)
  let err ← faultAdvanceVcpu env regs
  cAssert env !err
  return !err

def handleVgicRedistFault (vcpu : VcpuId) (faultAddr fsr : U64) (regs : UserContext) : M φ Bool := do
  cAssert env (decide (Board.gicRedistPaddr ≤ faultAddr))
  let offset := faultAddr - Board.gicRedistPaddr
  cAssert env (decide (offset < Board.gicRedistSize))
  if faultIsRead fsr then
    handleVgicRedistReadFault env vcpu offset fsr regs
  else
    handleVgicRedistWriteFault env vcpu offset fsr regs

end Sel4cpVmm
