import Sel4cpVmm.Model.Types

/-!
# The distributor register map

`struct gic_dist_map` of `vgic_v2.h` and `vgic_v3.h`, the bitmap helpers at the head of `vdist.h`,
and the two reset routines. A field is the number of its first word, so `enableSet + i` is
`enable_set[i]` whatever `i` is.
-/

namespace Sel4cpVmm

namespace GicDistMap

/-! ### Fields, by the word they begin at -/

abbrev ctlr : Nat := 0x000 / 4
abbrev typer : Nat := 0x004 / 4
abbrev iidr : Nat := 0x008 / 4
abbrev irqGroup0 : Nat := 0x080 / 4
abbrev irqGroup : Nat := 0x084 / 4
abbrev enableSet0 : Nat := 0x100 / 4
abbrev enableSet : Nat := 0x104 / 4
abbrev enableClr0 : Nat := 0x180 / 4
abbrev enableClr : Nat := 0x184 / 4
abbrev pendingSet0 : Nat := 0x200 / 4
abbrev pendingSet : Nat := 0x204 / 4
abbrev pendingClr0 : Nat := 0x280 / 4
abbrev pendingClr : Nat := 0x284 / 4
abbrev active0 : Nat := 0x300 / 4
abbrev active : Nat := 0x304 / 4
abbrev activeClr0 : Nat := 0x380 / 4
abbrev activeClr : Nat := 0x384 / 4
abbrev priority0 : Nat := 0x400 / 4
abbrev priority : Nat := 0x420 / 4
abbrev targets0 : Nat := 0x800 / 4
abbrev targets : Nat := 0x820 / 4
abbrev config : Nat := 0xC00 / 4
/-- GICv2 only -/
abbrev spi : Nat := 0xD00 / 4
abbrev sgir : Nat := 0xF00 / 4
abbrev sgiPendingClr : Nat := 0xF10 / 4
abbrev sgiPendingSet : Nat := 0xF20 / 4
/-- GICv2 only; `res10[40]` before it ends at `0xFD0`. -/
abbrev periphId : Nat := 0xFD0 / 4
/-- GICv2 only -/
abbrev componentId : Nat := 0x1000 / 4
/-- GICv3 only -/
abbrev irouter : Nat := 0x6100 / 4
/-- GICv3 only -/
abbrev pidrn : Nat := 0xFFD0 / 4
/-- GICv3 only -/
abbrev cidrn : Nat := 0xFFF0 / 4

/-- The number of elements of `enable_set`, `enable_clr`, `pending_set` and `pending_clr`. -/
abbrev bitmapLen : Nat := 31

def set (d : GicDistMap) (w : Nat) (x : U32) : GicDistMap := ⟨Function.update d.word w x⟩

def orWord (d : GicDistMap) (w : Nat) (bits : U32) : GicDistMap := d.set w (d.word w ||| bits)

def andNotWord (d : GicDistMap) (w : Nat) (bits : U32) : GicDistMap := d.set w (d.word w &&& ~~~bits)

/-- The byte at byte offset `a`; the words are little-endian. -/
def byte (d : GicDistMap) (a : Nat) : BitVec 8 := (d.word (a / 4) >>> (8 * (a % 4))).setWidth 8

/-- A 32-bit load from byte offset `a`, aligned or not. -/
def load32 (d : GicDistMap) (a : Nat) : U32 :=
  d.byte (a + 3) ++ d.byte (a + 2) ++ d.byte (a + 1) ++ d.byte a

end GicDistMap

open GicDistMap

/-! ### Bitmap helpers of `vdist.h` -/

def irqIdx (irq : Int) : Nat := (irq / 32).toNat

def irqBit (irq : Int) : U32 := 1#32 <<< (irq % 32).toNat

/-- Sets or clears the bit of `irq` in a word of a set register and in its mirror of the clear
register, as each of the four `set_*` helpers does. -/
def setMirrored (setWord clrWord : Nat) (d : GicDistMap) (irq : Int) (v : Bool) : GicDistMap :=
  if v then (d.orWord setWord (irqBit irq)).orWord clrWord (irqBit irq)
  else (d.andNotWord setWord (irqBit irq)).andNotWord clrWord (irqBit irq)

def testIrq (w : Nat) (d : GicDistMap) (irq : Int) : Bool := d.word w &&& irqBit irq != 0

def setSgiPpiPending (d : GicDistMap) (irq : Int) (v : Bool) (vcpu : VcpuId) : GicDistMap :=
  setMirrored (pendingSet0 + vcpu) (pendingClr0 + vcpu) d irq v

def setSpiPending (d : GicDistMap) (irq : Int) (v : Bool) : GicDistMap :=
  setMirrored (pendingSet + irqIdx irq) (pendingClr + irqIdx irq) d irq v

def setPending (d : GicDistMap) (irq : Int) (v : Bool) (vcpu : VcpuId) : GicDistMap :=
  if irq < numVcpuLocalVirqs then setSgiPpiPending d irq v vcpu else setSpiPending d irq v

def isSgiPpiPending (d : GicDistMap) (irq : Int) (vcpu : VcpuId) : Bool := testIrq (pendingSet0 + vcpu) d irq

def isSpiPending (d : GicDistMap) (irq : Int) : Bool := testIrq (pendingSet + irqIdx irq) d irq

def isPending (d : GicDistMap) (irq : Int) (vcpu : VcpuId) : Bool :=
  if irq < numVcpuLocalVirqs then isSgiPpiPending d irq vcpu else isSpiPending d irq

def setSgiPpiEnable (d : GicDistMap) (irq : Int) (v : Bool) (vcpu : VcpuId) : GicDistMap :=
  setMirrored (enableSet0 + vcpu) (enableClr0 + vcpu) d irq v

def setSpiEnable (d : GicDistMap) (irq : Int) (v : Bool) : GicDistMap :=
  setMirrored (enableSet + irqIdx irq) (enableClr + irqIdx irq) d irq v

def setEnable (d : GicDistMap) (irq : Int) (v : Bool) (vcpu : VcpuId) : GicDistMap :=
  if irq < numVcpuLocalVirqs then setSgiPpiEnable d irq v vcpu else setSpiEnable d irq v

def isSgiPpiEnabled (d : GicDistMap) (irq : Int) (vcpu : VcpuId) : Bool := testIrq (enableSet0 + vcpu) d irq

def isSpiEnabled (d : GicDistMap) (irq : Int) : Bool := testIrq (enableSet + irqIdx irq) d irq

def isEnabled (d : GicDistMap) (irq : Int) (vcpu : VcpuId) : Bool :=
  if irq < numVcpuLocalVirqs then isSgiPpiEnabled d irq vcpu else isSpiEnabled d irq

def isSgiPpiActive (d : GicDistMap) (irq : Int) (vcpu : VcpuId) : Bool := testIrq (active0 + vcpu) d irq

def isSpiActive (d : GicDistMap) (irq : Int) : Bool := testIrq (active + irqIdx irq) d irq

def isActive (d : GicDistMap) (irq : Int) (vcpu : VcpuId) : Bool :=
  if irq < numVcpuLocalVirqs then isSgiPpiActive d irq vcpu else isSpiActive d irq

/-! ### The distributor's own enable, `vgic_v2.h` and `vgic_v3.h` -/

def gic500Grp0 : U32 := 1 <<< 0
def gic500Grp1Ns : U32 := 1 <<< 1
def gic500AreS : U32 := 1 <<< 4

def gicEnabled : GicVersion → U32
  | .v2 => 1
  | .v3 => gic500AreS ||| gic500Grp1Ns ||| gic500Grp0

def vgicDistIsEnabled (g : GicVersion) (d : GicDistMap) : Bool :=
  match g with
  | .v2 => d.word ctlr == gicEnabled .v2
  | .v3 => d.word ctlr &&& gic500Grp1Ns != 0

def vgicDistEnable (g : GicVersion) (d : GicDistMap) : GicDistMap :=
  match g with
  | .v2 => d.set ctlr (gicEnabled .v2)
  | .v3 => d.orWord ctlr (gic500Grp1Ns ||| gic500AreS)

def vgicDistDisable (g : GicVersion) (d : GicDistMap) : GicDistMap :=
  match g with
  | .v2 => d.set ctlr 0
  | .v3 => d.andNotWord ctlr (gic500Grp1Ns ||| gic500AreS)

/-! ### Reset -/

def GicDistMap.setAll (d : GicDistMap) (l : List (Nat × U32)) : GicDistMap :=
  l.foldl (fun d p => d.set p.1 p.2) d

/-- `vgic_dist_reset` of `vgic_v2.c`; `CONFIG_MAX_NUM_NODES` is 1. -/
def vgicDistResetV2 (d : GicDistMap) : GicDistMap :=
  let d := d.setAll [(typer, 0x0000fce7), (iidr, 0x0200043b), (enableSet0, 0x0000ffff),
    (enableClr0, 0x0000ffff), (config, 0xaaaaaaaa), (config + 1, 0x55540000)]
  let d := d.setAll ((List.range' 2 14).map fun i => (config + i, 0x55555555))
  -- every byte of the local target registers gets the bit of its vCPU
  let d := (List.range 8).foldl (fun d j =>
    (List.range 4).foldl (fun d irq => d.orWord (targets0 + j) ((1 <<< 0) <<< (irq * 8))) d) d
  let d := d.setAll ((List.range 247).map fun i => (targets + i, 0x1010101))
  d.setAll [(periphId + 4, 0x04), (periphId + 8, 0x90), (periphId + 9, 0xb4), (periphId + 10, 0x2b),
    (componentId, 0x0d), (componentId + 1, 0xf0), (componentId + 2, 0x05), (componentId + 3, 0xb1)]

/-- `vgic_dist_reset` of `vgic_v3.c` -/
def vgicDistResetV3 (d : GicDistMap) : GicDistMap :=
  d.setAll [(typer, 0x7B04B0), (iidr, 0x1043B), (enableSet, 0x0000ffff), (enableClr, 0x0000ffff),
    (config, 0xaaaaaaaa), (pidrn, 0x44), (pidrn + 4, 0x92), (pidrn + 5, 0xB4), (pidrn + 6, 0x3B),
    (cidrn, 0x0D), (cidrn + 1, 0xF0), (cidrn + 2, 0x05), (cidrn + 3, 0xB1)]

def vgicDistReset : GicVersion → GicDistMap → GicDistMap
  | .v2 => vgicDistResetV2
  | .v3 => vgicDistResetV3

end Sel4cpVmm
