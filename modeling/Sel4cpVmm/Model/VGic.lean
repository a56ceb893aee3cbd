import Sel4cpVmm.Model.Redist

/-!
# The virtual GIC

`vgic.c` and `vgic_init`: initialisation, registration, injection, maintenance, and the entry point
of distributor faults.
-/

namespace Sel4cpVmm

variable {φ : Type} (env : Env φ)

/-! ### Initialisation -/

/-- A handle of zeroed memory with `virq = VIRQ_INVALID`, as `vgic_init` leaves every slot. -/
def VirqHandle.invalid : VirqHandle φ := ⟨virqInvalid, none, null⟩

def IrqQueue.zeroed : IrqQueue := ⟨Vector.replicate maxIrqQueueLen none, 0, 0⟩

def VgicVcpu.init : VgicVcpu φ :=
  ⟨Vector.replicate numListRegs .invalid, .zeroed, Vector.replicate numVcpuLocalVirqs .invalid⟩

def Vgic.init : Vgic φ := ⟨Vector.replicate numSlotsSpiVirq .invalid, Vector.replicate numVcpus .init⟩

/-- The state `vgic_init` leaves, from zeroed globals and with the guest context `tcb`. -/
def vgicInit (tcb : UserContext) : Vmm φ where
  vgic := .init
  dist := vgicDistReset env.board.gic ⟨fun _ => 0⟩
  redist :=
    match env.board.gic with
    | .v2 => ⟨fun _ => 0⟩
    | .v3 => GicRedistMap.reset ⟨fun _ => 0⟩
  wzr := 0
  tcb := tcb
  log := []

/-! ### Registration -/

def vgicRegisterIrq (vcpu : VcpuId) (virqNum : Int) (ackFn : Option φ) (ackData : VoidPtr) : M φ Bool := do
  cAssert env (decide (0 ≤ virqNum) && decide (virqNum ≠ virqInvalid))
  virqAdd env vcpu ⟨virqNum, ackFn, ackData⟩

/-! ### Maintenance -/

/-- `handle_vgic_maintenance` up to its status test; the result is the final value of the local
`err`, whose uninitialised content is `err`. -/
def vgicMaintenanceBody (idx err : Int) : M φ Int := do
  cAssert env (decide (0 ≤ idx))
  cAssert env (decide (0 ≤ idx) && decide (idx < numListRegs))
  if h : 0 ≤ idx ∧ idx.toNat < numListRegs then
    let s ← get
    let c := s.vgic.getVgicVcpu vcpuId
    let lrVirq := c.lrShadow.get ⟨idx.toNat, toNat_lt h⟩
    cAssert env (decide (lrVirq.virq ≠ virqInvalid))
    modifyVgic fun v => v.setVgicVcpu vcpuId { c with lrShadow := c.lrShadow.set idx.toNat .invalid (toNat_lt h) }
    modifyDist fun d => setPending d lrVirq.virq false vcpuId
    virqAck env vcpuId lrVirq
    let virq ← vgicIrqDequeue vcpuId
    match virq with
    | some p =>
      let ok ← vgicVcpuLoadListReg env vcpuId idx env.board.gic.group p
      return if ok then 1 else 0
    | none => return err
  else throw .outOfBounds

def handleVgicMaintenance (idx err : Int) : M φ Bool := do
  let err ← vgicMaintenanceBody env idx err
  if err = 0 then
    replyToFault
    return true
  else
    cAssert env false
    return false

/-! ### Distributor faults -/

def handleVgicDistFault (vcpu : VcpuId) (faultAddr fsr : U64) (regs : UserContext) : M φ Bool := do
  cAssert env (decide (env.board.gicDistPaddr ≤ faultAddr))
  let offset := faultAddr - env.board.gicDistPaddr
  if faultIsRead fsr then
    vgicDistRegRead env vcpu offset fsr regs
  else
    vgicDistRegWrite env vcpu offset fsr regs

end Sel4cpVmm
