import Sel4cpVmm.Model.Dist

/-!
# Interrupt registration, list registers and the overflow queue

The functions of `virq.h`. A pointer returned by a lookup is a `VirqPtr`, and null is `none`.
-/

namespace Sel4cpVmm

variable {φ : Type}

section Tables

variable (v : Vgic φ)

def Vgic.getVgicVcpu (vcpu : VcpuId) : VgicVcpu φ := v.vgicVcpu[vcpu]

def Vgic.setVgicVcpu (vcpu : VcpuId) (c : VgicVcpu φ) : Vgic φ := { v with vgicVcpu := v.vgicVcpu.set vcpu c }

/-- `*ptr` -/
def Vgic.deref : VirqPtr → VirqHandle φ
  | .sgiPpi vcpu i => (v.getVgicVcpu vcpu).localVirqs[i]
  | .spi i => v.vspis[i]

/-- The loop of `virq_find_spi_irq_data`. -/
def virqFindSpiIrqData (virq : Int) : Option VirqPtr :=
  ((List.finRange numSlotsSpiVirq).find? fun i =>
    decide (v.vspis[i].virq ≠ virqInvalid) && decide (v.vspis[i].virq = virq)).map .spi

/-- `lr_shadow[idx].virq`, for any index. -/
def Vgic.lrVirq (vcpu : VcpuId) (idx : Int) : Int :=
  if h : 0 ≤ idx ∧ idx.toNat < numListRegs then ((v.getVgicVcpu vcpu).lrShadow[idx.toNat]).virq
  else virqInvalid

end Tables

/-! ### Registration -/

section Registration

variable (env : Env φ)

def virqGetSgiPpi (vcpu : VcpuId) (virq : Int) : M φ VirqPtr := do
  cAssert env (decide (0 ≤ virq) && decide (virq < numVcpuLocalVirqs))
  if h : 0 ≤ virq ∧ virq.toNat < numVcpuLocalVirqs then return .sgiPpi vcpu ⟨virq.toNat, toNat_lt h⟩
  else throw .outOfBounds

def virqFindIrqData (vcpu : VcpuId) (virq : Int) : M φ (Option VirqPtr) := do
  if virq < numVcpuLocalVirqs then
    let p ← virqGetSgiPpi env vcpu virq
    return some p
  else
    let s ← get
    return virqFindSpiIrqData s.vgic virq

def virqSpiAdd (virqData : VirqHandle φ) : M φ Bool := do
  let s ← get
  match (List.finRange numSlotsSpiVirq).find? fun i => decide (s.vgic.vspis[i].virq = virqInvalid) with
  | some i =>
    modifyVgic fun v => { v with vspis := v.vspis.set i virqData }
    return true
  | none => return false

def virqSgiPpiAdd (vcpu : VcpuId) (virqData : VirqHandle φ) : M φ Bool := do
  let irq := virqData.virq
  cAssert env (decide (0 ≤ irq) && decide (irq < numVcpuLocalVirqs))
  let s ← get
  let c := s.vgic.getVgicVcpu vcpu
  if h : 0 ≤ irq ∧ irq.toNat < numVcpuLocalVirqs then
    if (c.localVirqs[irq.toNat]).virq ≠ virqInvalid then
      return false
    else
      modifyVgic fun v => v.setVgicVcpu vcpu { c with localVirqs := c.localVirqs.set irq.toNat virqData (toNat_lt h) }
      return true
  else throw .outOfBounds

def virqAdd (vcpu : VcpuId) (virqHandle : VirqHandle φ) : M φ Bool :=
  if virqHandle.virq < numVcpuLocalVirqs then virqSgiPpiAdd env vcpu virqHandle else virqSpiAdd virqHandle

end Registration

/-! ### The overflow queue -/

/-- `IRQ_QUEUE_NEXT` -/
def irqQueueNext (i : Nat) : Nat := (i + 1) &&& (maxIrqQueueLen - 1)

section Queue

/-- Writes the queue of a vCPU back. -/
def setIrqQueue (vcpu : VcpuId) (q : IrqQueue) : M φ Unit :=
  modifyVgic fun v => v.setVgicVcpu vcpu { v.getVgicVcpu vcpu with irqQueue := q }

def vgicIrqEnqueue (vcpu : VcpuId) (irq : VirqPtr) : M φ Int := do
  let s ← get
  let q := (s.vgic.getVgicVcpu vcpu).irqQueue
  if irqQueueNext q.tail = q.head then
    return -1
  else if h : q.tail < maxIrqQueueLen then
    setIrqQueue vcpu { q with irqs := q.irqs.set q.tail (some irq), tail := irqQueueNext q.tail }
    return 0
  else throw .outOfBounds

def vgicIrqDequeue (vcpu : VcpuId) : M φ (Option VirqPtr) := do
  let s ← get
  let q := (s.vgic.getVgicVcpu vcpu).irqQueue
  if q.head ≠ q.tail then
    if h : q.head < maxIrqQueueLen then
      setIrqQueue vcpu { q with head := irqQueueNext q.head }
      return q.irqs[q.head]
    else throw .outOfBounds
  else return none

end Queue

/-! ### List registers -/

def vgicFindEmptyListReg (vcpu : VcpuId) : M φ Int := do
  let s ← get
  let lr := (s.vgic.getVgicVcpu vcpu).lrShadow
  match (List.finRange numListRegs).find? fun i => decide (lr[i].virq = virqInvalid) with
  | some i => return (i.val : Int)
  | none => return -1

/-- `sel4cp_arm_vcpu_inject_irq` -/
def vcpuInjectIrq (env : Env φ) (vcpu : VcpuId) (virq : Int) (group : Nat) (idx : Int) : M φ U64 := do
  let s ← get
  logEvent (.vcpuInjectIrq virq group idx (s.vgic.lrVirq vcpu idx))
  return env.vcpuInjectIrq s virq group idx

def vgicVcpuLoadListReg (env : Env φ) (vcpu : VcpuId) (idx : Int) (group : Nat) (virq : VirqPtr) :
    M φ Bool := do
  cAssert env (decide (0 ≤ idx) && decide (idx < numListRegs))
  let s ← get
  let data := s.vgic.deref virq
  let err ← vcpuInjectIrq env vcpu data.virq group idx
  cAssert env (decide (err = 0))
  if err ≠ 0 then
    return false
  else if h : 0 ≤ idx ∧ idx.toNat < numListRegs then
    modifyVgic fun v =>
      let c := v.getVgicVcpu vcpu
      v.setVgicVcpu vcpu { c with lrShadow := c.lrShadow.set idx.toNat data (toNat_lt h) }
    return true
  else throw .outOfBounds

end Sel4cpVmm
