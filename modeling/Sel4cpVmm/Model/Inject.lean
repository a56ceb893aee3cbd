import Sel4cpVmm.Model.Virq

/-!
# Injecting, acknowledging, enabling and disabling an interrupt

The per-interrupt operations of `vdist.h`, and `virq_ack` of `virq.h` together with what the
callback it calls does.
-/

namespace Sel4cpVmm

variable {φ : Type} (env : Env φ)

def vgicDistSetPendingIrq (vcpu : VcpuId) (irq : Int) : M φ Bool := do
  let virqData ← virqFindIrqData env vcpu irq
  match virqData with
  -- `virq_data->virq` of an SPI that has no slot
  | none => throw .nullDeref
  | some ptr =>
    let s ← get
    let data := s.vgic.deref ptr
    if data.virq = virqInvalid ∨ ¬ vgicDistIsEnabled env.board.gic s.dist ∨ ¬ isEnabled s.dist irq vcpu then
      return false
    else if isPending s.dist data.virq vcpu then
      return true
    else
      logEvent (.accepted data.virq)
      modifyDist fun d => setPending d data.virq true vcpu
      let err ← vgicIrqEnqueue vcpu ptr
      if err ≠ 0 then
        logEvent (.enqueueFailed data.virq)
        cAssert env false
        return false
      else
        let idx ← vgicFindEmptyListReg vcpu
        if idx < 0 then
          return true
        else
          let virq ← vgicIrqDequeue vcpu
          match virq with
          | none => throw .nullDeref
          | some p =>
            let s ← get
            cAssert env (decide ((s.vgic.deref p).virq ≠ virqInvalid))
            vgicVcpuLoadListReg env vcpu idx env.board.gic.group p

def vgicInjectIrq (vcpu : VcpuId) (irq : Int) : M φ Bool := vgicDistSetPendingIrq env vcpu irq

/-- `sel4cp_arm_vcpu_ack_vppi` -/
def vcpuAckVppi (irq : Int) : M φ U64 := do
  let s ← get
  logEvent (.vcpuAckVppi irq)
  return env.vcpuAckVppi s irq

/-- One call of an ack callback; `vppi_event_ack` asserts that its call succeeds. -/
def runAckCall : AckCall → M φ Unit
  | .irqAck ch => logEvent (.irqAck ch)
  | .vcpuAckVppi irq => do
    let err ← vcpuAckVppi env irq
    cAssert env (decide (err = 0))
  | .injectIrq irq => do
    let _ ← vgicInjectIrq env vcpuId irq

def virqAck (vcpu : VcpuId) (irq : VirqHandle φ) : M φ Unit := do
  cAssert env irq.ackFn.isSome
  match irq.ackFn with
  | none => throw .nullDeref
  | some fn =>
    logEvent (.ack fn vcpu irq.virq null)
    let s ← get
    forM (env.ackFn fn vcpu irq.virq null s) (runAckCall env)

def vgicDistEnableIrq (vcpu : VcpuId) (irq : Int) : M φ Unit := do
  modifyDist fun d => setEnable d irq true vcpu
  let virqData ← virqFindIrqData env vcpu irq
  match virqData with
  | none => pure ()
  | some ptr =>
    let s ← get
    let data := s.vgic.deref ptr
    if data.virq ≠ virqInvalid then
      if ¬ isPending s.dist data.virq vcpu then
        virqAck env vcpu data

def vgicDistDisableIrq (vcpu : VcpuId) (irq : Int) : M φ Unit :=
  if irq ≥ numSgiVirqs then modifyDist fun d => setEnable d irq false vcpu else pure ()

def vgicDistClrPendingIrq (vcpu : VcpuId) (irq : Int) : M φ Unit :=
  modifyDist fun d => setPending d irq false vcpu

end Sel4cpVmm
