import Sel4cpVmm.Lib.Bits
import Sel4cpVmm.Model.Vmm

/-!
# The VMM as a transition system

What can happen to the VMM between two idle points: a registration, an injection by the VMM
itself, the notification of a physical SPI, guest execution up to its next trap, and a fault.
-/

namespace Sel4cpVmm

open StopProgram

variable {φ : Type} (env : Env φ)

inductive Op (φ : Type)
  | registerIrq (irq : Int) (ackFn : Option φ) (ackData : VoidPtr)
  | injectIrq (irq : Int)
  /-- `notified` for the channel of the SPI `irq` -/
  | notification (irq : Int)
  /-- the guest runs until its registers are `regs` -/
  | guest (regs : UserContext)
  | fault (f : Fault)
  /-- maintenance without its final status test, so the state it produces is always the next one -/
  | retire (idx : Int)

/-- What the kernel does when it delivers a fault. -/
def deliver : Fault → M φ Unit
  | .vppiEvent irq => logEvent (.vppiEvent irq.toNat)
  | _ => pure ()

def step : Op φ → M φ Unit
  | .registerIrq irq ackFn ackData => do
    let _ ← vgicRegisterIrq env vcpuId irq ackFn ackData
  | .injectIrq irq => do
    let _ ← vgicInjectIrq env vcpuId irq
  | .notification irq => do
    logEvent (.notification irq)
    let _ ← vgicInjectIrq env vcpuId irq
  | .guest regs => modify fun s => { s with tcb := regs }
  | .fault f => do
    deliver f
    fault env (some f)
  | .retire idx => do
    let _ ← vgicMaintenanceBody env idx 0

/-- The states reached from `vgic_init` by allowed steps. -/
abbrev Reachable (allowed : Vmm φ → Op φ → Prop) : Vmm φ → Prop :=
  Reach (fun s => ∃ tcb, s = vgicInit env tcb) allowed (step env)

/-! ### Assumptions -/

/-- The kernel accepts every list register load and every VPPI acknowledgement. -/
structure KernelAccepts (env : Env φ) : Prop where
  vcpuInjectIrq : ∀ s virq group idx, env.vcpuInjectIrq s virq group idx = 0
  vcpuAckVppi : ∀ s irq, env.vcpuAckVppi s irq = 0

/-- The kernel reads and writes the guest's registers. -/
structure TcbAccepts (env : Env φ) : Prop where
  readRegisters : ∀ s, env.tcbReadRegisters s = 0
  writeRegisters : ∀ s regs, env.tcbWriteRegisters s regs = 0

/-- No ack callback touches vGIC state. -/
def InertAcks (env : Env φ) : Prop :=
  ∀ fn vcpu irq cookie s i, AckCall.injectIrq i ∉ env.ackFn fn vcpu irq cookie s

lemma vmmEnv_accepts (board : Board) : KernelAccepts (vmmEnv board) := ⟨fun _ _ _ _ => rfl, fun _ _ => rfl⟩

lemma vmmEnv_tcb (board : Board) : TcbAccepts (vmmEnv board) := ⟨fun _ => rfl, fun _ _ => rfl⟩

lemma vmmEnv_inert (board : Board) (h : board ≠ .odroidc2) : InertAcks (vmmEnv board) := by
  intro fn vcpu irq cookie s i
  cases fn <;> cases board <;> simp_all [vmmEnv, vmmAckFn]

/-! ### The interrupt numbers an access resolves to -/

def accessWidth (fsr : U64) : FaultWidth :=
  if hsrIsSyndromeValid fsr then syndromeWidth fsr else .doubleword

def dataMask (addr fsr : U64) : U64 := (accessWidth fsr).mask <<< laneShift addr

/-- The content of the register a valid syndrome names. -/
def rtValue (regs : UserContext) (fsr wzr : U64) : U64 :=
  if h : (hsrSyndromeRt fsr).toNat < 31 then regs.x[(hsrSyndromeRt fsr).toNat] else wzr

/-- The first offset of a write-one register range. -/
def DistWrite.writeOneBase : DistWrite → Option Nat
  | .isenabler => some gicDistIsenabler0
  | .icenabler => some gicDistIcenabler0
  | .ispendr => some gicDistIspendr0
  | .icpendr => some gicDistIcpendr0
  | _ => none

/-- The interrupt numbers a distributor write of `data` at `offset` is decoded to. -/
def writeIrqs (g : GicVersion) (offset : Nat) (data : U32) : List Int :=
  match (distWrite g vcpuId offset).writeOneBase with
  | some base => (WordBits.bits data).map fun k => ((k + (offset - base) * 8 : Nat) : Int)
  | none => []

/-- The interrupt numbers a fault at `addr` sets, clears, enables or disables. -/
def accessIrqs (s : Vmm φ) (addr fsr : U64) : List Int :=
  if faultIsWrite fsr then
    writeIrqs env.board.gic (addr - env.board.gicDistPaddr).toNat
      ((rtValue s.tcb fsr s.wzr).setWidth 32 &&& (dataMask addr fsr).setWidth 32)
  else []

/-- The interrupt numbers below `32 * bitmapLen = 992` have a bit in every bitmap. -/
abbrev irqLimit : Int := 992

/-- Every interrupt number the operation names is below `irqLimit`. -/
def BelowLimit (s : Vmm φ) : Op φ → Prop
  | .registerIrq irq _ _ => irq < irqLimit
  | .injectIrq irq => irq < irqLimit
  | .notification irq => irq < irqLimit
  | .fault (.vmFault addr fsr) => ∀ i ∈ accessIrqs env s addr fsr, i < irqLimit
  | .fault (.vppiEvent irq) => cInt irq < irqLimit
  | _ => True

/-- The access is a write to a distributor register that satisfies `p`. -/
def WritesDist (p : DistWrite → Prop) (addr fsr : U64) : Prop :=
  faultIsWrite fsr = true ∧ p (distWrite env.board.gic vcpuId (addr - env.board.gicDistPaddr).toNat)

instance (p : DistWrite → Prop) [DecidablePred p] (addr fsr : U64) : Decidable (WritesDist env p addr fsr) :=
  inferInstanceAs (Decidable (_ ∧ _))

instance (s : Vmm φ) (op : Op φ) : Decidable (BelowLimit env s op) :=
  match op with
  | .registerIrq _ _ _ => inferInstanceAs (Decidable (_ < _))
  | .injectIrq _ => inferInstanceAs (Decidable (_ < _))
  | .notification _ => inferInstanceAs (Decidable (_ < _))
  | .guest _ => .isTrue trivial
  | .retire _ => .isTrue trivial
  | .fault (.vmFault _ _) => inferInstanceAs (Decidable (∀ i ∈ accessIrqs _ _ _ _, i < irqLimit))
  | .fault (.vppiEvent _) => inferInstanceAs (Decidable (_ < _))
  | .fault (.unknownSyscall _) => .isTrue trivial
  | .fault .userException => .isTrue trivial
  | .fault (.vgicMaintenance _ _) => .isTrue trivial
  | .fault (.vcpuFault _) => .isTrue trivial

/-- Every interrupt number that a guest access resolves to is below `irqLimit`. -/
def AccessBelow (s : Vmm φ) : Op φ → Prop
  | .fault (.vmFault addr fsr) => ∀ i ∈ accessIrqs env s addr fsr, i < irqLimit
  | _ => True

instance (s : Vmm φ) (op : Op φ) : Decidable (AccessBelow env s op) :=
  match op with
  | .fault (.vmFault _ _) => inferInstanceAs (Decidable (∀ i ∈ accessIrqs _ _ _ _, i < irqLimit))
  | .fault (.unknownSyscall _) | .fault .userException | .fault (.vgicMaintenance _ _) => .isTrue trivial
  | .fault (.vcpuFault _) | .fault (.vppiEvent _) => .isTrue trivial
  | .registerIrq _ _ _ | .injectIrq _ | .notification _ | .guest _ | .retire _ => .isTrue trivial

/-! ### Concrete runs -/

def UserContext.filled (x : U64) : UserContext := ⟨0, 0, 0, Vector.replicate 31 x, 0, 0⟩

/-- The syndrome of a word store from `x0`. -/
def storeWord : U64 := (1 <<< 24) ||| (2 <<< 22) ||| (1 <<< 6)

/-- The syndrome of a word load into `x0`. -/
def loadWord : U64 := (1 <<< 24) ||| (2 <<< 22)

/-- The guest stores the word `x` at an offset into the distributor. -/
def guestStore (env : Env φ) (offset x : U64) : List (Op φ) :=
  [.guest (.filled x), .fault (.vmFault (env.board.gicDistPaddr + offset) storeWord)]

/-- The guest enables five registered SPIs, which then all become pending. -/
def fiveOutstanding (env : Env VmmAckFn) : List (Op VmmAckFn) :=
  [33, 34, 35, 36, 37].map (fun irq => .registerIrq irq (some .sgiAck) null) ++ guestStore env 0x000 1 ++
    guestStore env 0x104 0x3e ++ [33, 34, 35, 36, 37].map .injectIrq

/-- A completed run of allowed operations reaches a state with the property it ends with. -/
theorem exists_reachable (allowed : Vmm φ → Op φ → Prop) (p : Vmm φ → Bool) (l : List (Op φ))
    (hl : AllowedRun allowed (step env) l (vgicInit env (.filled 0)))
    (hp : (final (step env) l (vgicInit env (.filled 0))).any p = true) :
    ∃ s, Reachable env allowed s ∧ p s = true :=
  Reach.exists_final (.init ⟨_, rfl⟩) hl hp

end Sel4cpVmm
