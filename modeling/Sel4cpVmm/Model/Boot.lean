import Sel4cpVmm.Model.Vmm

/-!
# Booting the guest

`init` of `vmm.c`: the guest's images are copied into its memory, the vGIC is initialised, the interrupts the VMM
serves are registered, and the guest is started at the kernel's entry point.
-/

namespace Sel4cpVmm

open StopProgram

/-- The memory of the VMM's address space, apart from its own variables. -/
abbrev AddressSpace := U64 → BitVec 8

/-- The symbols of `global_data.S` around the images linked into the VMM. -/
structure GuestImages where
  guestKernelImage : U64
  guestKernelImageEnd : U64
  guestDtbImage : U64
  guestDtbImageEnd : U64
  guestInitrdImage : U64
  guestInitrdImageEnd : U64

namespace Board

def guestDtbVaddr : Board → U64
  | qemuArmVirtHyp => 0x4f000000
  | odroidc2 => 0x2f000000
  | imx8mmEvk => 0x4f000000

/-- `GUEST_INIT_RAM_DISK_VADDR` of `qemu_arm_virt_hyp`; the source defines it for no other board. -/
def guestInitRamDiskVaddr : U64 := 0x4d700000

end Board

def sgiRescheduleIrq : Int := 0
def sgiFuncCall : Int := 1
def ppiVtimerIrq : Int := 27

/-- The VMM with the memory it writes the images to, and the entry points at which it has started the guest. -/
structure Machine where
  vmm : Vmm VmmAckFn
  mem : AddressSpace
  restarts : List U64

abbrev Boot := EStateM Stop Machine

def memcpy (dest src : U64) : Nat → AddressSpace → AddressSpace
  | 0, m => m
  | n + 1, m => memcpy (dest + 1) (src + 1) n (Function.update m dest (m src))

def onVmm {α : Type} (x : M VmmAckFn α) : Boot α := fun m =>
  match x m.vmm with
  | .ok a s => .ok a { m with vmm := s }
  | .error e s => .error e { m with vmm := s }

variable (env : Env VmmAckFn)

/-- `sel4cp_vm_restart` -/
def vmRestart (entry : U64) : Boot Unit := modify fun m => { m with restarts := m.restarts ++ [entry] }

/-- The register file `init` hands to the kernel. -/
def entryRegisters (guestRamVaddr : U64) : UserContext where
  pc := guestRamVaddr + 0x80000
  sp := 0
  spsr := 5
  x := (Vector.replicate 31 0).setIfInBounds 0 env.board.guestDtbVaddr
  tpidrEl0 := 0
  tpidrroEl0 := 0

/-- The part of `init` behind the copying of the images. Without the first three interrupts the guest is not
started; the result of the registration of the serial interrupt is not looked at. -/
def startGuest (guestRamVaddr : U64) : Boot Unit := do
  modify fun m => { m with vmm := vgicInit env m.vmm.tcb }
  let ok ← onVmm (vgicRegisterIrq env vcpuId ppiVtimerIrq (some .vppiEventAck) null)
  if ok then
    let ok ← onVmm (vgicRegisterIrq env vcpuId sgiRescheduleIrq (some .sgiAck) null)
    if ok then
      let ok ← onVmm (vgicRegisterIrq env vcpuId sgiFuncCall (some .sgiAck) null)
      if ok then
        let _ ← onVmm (vgicRegisterIrq env vcpuId env.board.serialIrq (some .serialAck) null)
        onVmm (logEvent (.irqAck serialIrqCh))
        let regs := entryRegisters env guestRamVaddr
        let err ← onVmm (tcbWriteRegisters env false regs)
        onVmm (cAssert env (decide (err = 0)))
        vmRestart regs.pc

/-- `init`; `initRamDiskVaddr` stands for `GUEST_INIT_RAM_DISK_VADDR`. -/
def init (imgs : GuestImages) (guestRamVaddr initRamDiskVaddr : U64) : Boot Unit := do
  let copy (dest src srcEnd : U64) : Boot Unit :=
    modify fun m => { m with mem := memcpy dest src (srcEnd - src).toNat m.mem }
  copy (guestRamVaddr + 0x80000) imgs.guestKernelImage imgs.guestKernelImageEnd
  copy env.board.guestDtbVaddr imgs.guestDtbImage imgs.guestDtbImageEnd
  copy initRamDiskVaddr imgs.guestInitrdImage imgs.guestInitrdImageEnd
  startGuest env guestRamVaddr

end Sel4cpVmm
