import Sel4cpVmm.Lib.Locality
import Sel4cpVmm.Proofs.Callbacks
import Sel4cpVmm.Properties.FixedRegisters

/-!
# The memory behind the register maps

`struct gic_dist_map` and `struct gic_redist_map` end with their last identification register; the words behind it are
other memory of the VMM. No operation of a step reads or writes them.
-/

namespace Sel4cpVmm

open StopProgram GicDistMap

variable {φ : Type} {env : Env φ}

/-- The words of `struct gic_dist_map`. -/
def GicVersion.mapWords : GicVersion → Nat
  | .v2 => 0x1010 / 4
  | .v3 => 0x10000 / 4

/-- The words of `struct gic_redist_map`. -/
def redistMapWords : Nat := 0x10000 / 4

/-- The memory behind the two maps, by the word numbers of the map it lies behind. -/
structure MemoryBehind where
  dist : Nat → U32
  redist : Nat → U32

def GicDistMap.withBehind (d : GicDistMap) (g : GicVersion) (b : Nat → U32) : GicDistMap :=
  ⟨fun w => if w < g.mapWords then d.word w else b w⟩

def GicRedistMap.withBehind (r : GicRedistMap) (b : Nat → U32) : GicRedistMap :=
  ⟨fun w => if w < redistMapWords then r.word w else b w⟩

/-- The VMM with other memory behind its maps. -/
def withBehind (env : Env φ) (k : MemoryBehind) (s : Vmm φ) : Vmm φ :=
  { s with dist := s.dist.withBehind env.board.gic k.dist, redist := s.redist.withBehind k.redist }

/-- Neither the kernel nor a callback looks at the memory behind the maps. -/
structure LooksInside (env : Env φ) : Prop where
  ackFn : ∀ fn vcpu irq cookie k s, env.ackFn fn vcpu irq cookie (withBehind env k s) = env.ackFn fn vcpu irq cookie s
  vcpuInjectIrq : ∀ k s virq g idx, env.vcpuInjectIrq (withBehind env k s) virq g idx = env.vcpuInjectIrq s virq g idx
  vcpuAckVppi : ∀ k s irq, env.vcpuAckVppi (withBehind env k s) irq = env.vcpuAckVppi s irq
  tcbReadRegisters : ∀ k s, env.tcbReadRegisters (withBehind env k s) = env.tcbReadRegisters s
  tcbWriteRegisters : ∀ k s regs, env.tcbWriteRegisters (withBehind env k s) regs = env.tcbWriteRegisters s regs

lemma vmmEnv_looksInside (board : Board) : LooksInside (vmmEnv board) where
  ackFn fn _ _ _ _ _ := by cases fn <;> rfl
  vcpuInjectIrq _ _ _ _ _ := rfl
  vcpuAckVppi _ _ _ := rfl
  tcbReadRegisters _ _ := rfl
  tcbWriteRegisters _ _ _ := rfl

/-! ### Words of the map -/

section Words

variable {g : GicVersion} {b : Nat → U32} {d : GicDistMap} {w w0 w1 : Nat} {i : Int}

lemma word_withBehind (hw : w < g.mapWords) : (d.withBehind g b).word w = d.word w := if_pos hw

lemma set_withBehind (hw : w < g.mapWords) (x : U32) : (d.withBehind g b).set w x = (d.set w x).withBehind g b := by
  apply congrArg GicDistMap.mk
  funext v
  by_cases hv : v = w
  · subst hv
    rw [Function.update_self, if_pos hw, word_set, if_pos rfl]
  · rw [Function.update_of_ne hv, word_set, if_neg hv]
    rfl

lemma orWord_withBehind (hw : w < g.mapWords) (x : U32) :
    (d.withBehind g b).orWord w x = (d.orWord w x).withBehind g b := by
  rw [orWord, word_withBehind hw, set_withBehind hw]
  rfl

lemma andNotWord_withBehind (hw : w < g.mapWords) (x : U32) :
    (d.withBehind g b).andNotWord w x = (d.andNotWord w x).withBehind g b := by
  rw [andNotWord, word_withBehind hw, set_withBehind hw]
  rfl

lemma setMirrored_withBehind (hw0 : w0 < g.mapWords) (hw1 : w1 < g.mapWords) (v : Bool) :
    setMirrored w0 w1 (d.withBehind g b) i v = (setMirrored w0 w1 d i v).withBehind g b := by
  cases v with
  | true => exact (congrArg (orWord · w1 _) (orWord_withBehind hw0 _)).trans (orWord_withBehind hw1 _)
  | false => exact (congrArg (andNotWord · w1 _) (andNotWord_withBehind hw0 _)).trans (andNotWord_withBehind hw1 _)

lemma lt_mapWords (g : GicVersion) (hw : w < priority0) : w < g.mapWords := by
  cases g <;> exact Nat.lt_trans hw (by decide)

/-- The bits of numbers below 1056 are in the map. -/
lemma bankWord_lt_mapWords (g : GicVersion) (h0 : w0 < priority0) (h1 : w1 + 32 < priority0) (hi : i < 1056) :
    bankWord w0 w1 i < g.mapWords := by
  apply lt_mapWords
  unfold bankWord irqIdx
  split_ifs <;> omega

lemma setPending_withBehind (hi : i < 1056) (v : Bool) :
    setPending (d.withBehind g b) i v vcpuId = (setPending d i v vcpuId).withBehind g b := by
  rw [setPending_eq, setPending_eq]
  apply setMirrored_withBehind
  · exact bankWord_lt_mapWords g (by decide) (by decide) hi
  · exact bankWord_lt_mapWords g (by decide) (by decide) hi

lemma setEnable_withBehind (hi : i < 1056) (v : Bool) :
    setEnable (d.withBehind g b) i v vcpuId = (setEnable d i v vcpuId).withBehind g b := by
  rw [setEnable_eq, setEnable_eq]
  apply setMirrored_withBehind
  · exact bankWord_lt_mapWords g (by decide) (by decide) hi
  · exact bankWord_lt_mapWords g (by decide) (by decide) hi

lemma isPending_withBehind (hi : i < 1056) : isPending (d.withBehind g b) i vcpuId = isPending d i vcpuId := by
  rw [isPending_eq, isPending_eq, testIrq, testIrq, word_withBehind]
  exact bankWord_lt_mapWords g (by decide) (by decide) hi

lemma isEnabled_withBehind (hi : i < 1056) : isEnabled (d.withBehind g b) i vcpuId = isEnabled d i vcpuId := by
  rw [isEnabled_eq, isEnabled_eq, testIrq, testIrq, word_withBehind]
  exact bankWord_lt_mapWords g (by decide) (by decide) hi

lemma vgicDistIsEnabled_withBehind : vgicDistIsEnabled g (d.withBehind g b) = vgicDistIsEnabled g d := by
  have hw : (d.withBehind g b).word ctlr = d.word ctlr := word_withBehind (lt_mapWords g (by decide))
  cases g <;> simp only [vgicDistIsEnabled, hw]

end Words

/-! ### The functions of the vGIC -/

section Functions

variable {s : Vmm φ} {vcpu : VcpuId} {irq : Int}

lemma local_cAssert (c : Bool) : Local (withBehind env) (cAssert env c) := by
  unfold cAssert
  apply local_ite
  · exact local_pure _
  · exact local_throw _

lemma local_logEvent (e : Event φ) : Local (withBehind env) (logEvent e : M φ Unit) :=
  fun _ => localAt_modify fun _ => rfl

lemma local_modifyVgic (f : Vgic φ → Vgic φ) : Local (withBehind env) (modifyVgic f : M φ Unit) :=
  fun _ => localAt_modify fun _ => rfl

lemma local_modifyDist {f : GicDistMap → GicDistMap}
    (hf : ∀ d b, f (d.withBehind env.board.gic b) = (f d).withBehind env.board.gic b) :
    Local (withBehind env) (modifyDist f : M φ Unit) :=
  fun s => localAt_modify fun k => congrArg (fun d => { withBehind env k s with dist := d }) (hf s.dist k.dist)

lemma local_setPending (hi : irq < 1056) (v : Bool) :
    Local (withBehind env) (modifyDist fun d => setPending d irq v vcpuId : M φ Unit) :=
  local_modifyDist fun _ _ => setPending_withBehind hi v

lemma local_setEnable (hi : irq < 1056) (v : Bool) :
    Local (withBehind env) (modifyDist fun d => setEnable d irq v vcpuId : M φ Unit) :=
  local_modifyDist fun _ _ => setEnable_withBehind hi v

lemma local_virqFindIrqData (irq : Int) : Local (withBehind env) (virqFindIrqData env vcpu irq) := by
  unfold virqFindIrqData virqGetSgiPpi
  apply local_ite
  · apply local_bind
    · apply local_bind (local_cAssert _)
      intro _
      exact local_dite (fun _ => local_pure _) fun _ => local_throw _
    · exact fun _ => local_pure _
  · exact local_get (fun _ _ => rfl) fun _ => local_pure _

lemma local_vgicIrqEnqueue (p : VirqPtr) : Local (withBehind env) (vgicIrqEnqueue vcpu p : M φ Int) := by
  unfold vgicIrqEnqueue
  refine local_get (fun _ _ => rfl) fun s => ?_
  apply local_ite (local_pure _)
  exact local_dite (fun _ => local_bind (local_modifyVgic _) fun _ => local_pure _) fun _ => local_throw _

lemma local_vgicIrqDequeue : Local (withBehind env) (vgicIrqDequeue vcpu : M φ (Option VirqPtr)) := by
  unfold vgicIrqDequeue
  refine local_get (fun _ _ => rfl) fun s => ?_
  refine local_ite ?_ (local_pure _)
  exact local_dite (fun _ => local_bind (local_modifyVgic _) fun _ => local_pure _) fun _ => local_throw _

lemma local_vgicFindEmptyListReg : Local (withBehind env) (vgicFindEmptyListReg vcpu : M φ Int) := by
  unfold vgicFindEmptyListReg
  refine local_get (fun _ _ => rfl) fun s => ?_
  dsimp only
  split
  · exact local_pure _
  · exact local_pure _

lemma local_vgicRegisterIrq (irq : Int) (ackFn : Option φ) (ackData : VoidPtr) :
    Local (withBehind env) (vgicRegisterIrq env vcpu irq ackFn ackData) := by
  unfold vgicRegisterIrq virqAdd
  apply local_bind (local_cAssert _)
  intro _
  apply local_ite
  · unfold virqSgiPpiAdd
    apply local_bind (local_cAssert _)
    intro _
    refine local_get (fun _ _ => rfl) fun s => local_dite (fun _ => ?_) fun _ => local_throw _
    exact local_ite (local_pure _) (local_bind (local_modifyVgic _) fun _ => local_pure _)
  · unfold virqSpiAdd
    refine local_get (fun _ _ => rfl) fun s => ?_
    split
    · exact local_bind (local_modifyVgic _) fun _ => local_pure _
    · exact local_pure _

variable (hE : LooksInside env)

include hE

lemma local_vgicVcpuLoadListReg (idx : Int) (group : Nat) (p : VirqPtr) :
    Local (withBehind env) (vgicVcpuLoadListReg env vcpu idx group p) := by
  unfold vgicVcpuLoadListReg vcpuInjectIrq
  apply local_bind (local_cAssert _)
  intro _
  refine local_get (fun _ _ => rfl) fun s => ?_
  apply local_bind
  · refine local_get (fun k t => by rw [hE.vcpuInjectIrq]; rfl) fun t => ?_
    exact local_bind (local_logEvent _) fun _ => local_pure _
  · intro err
    apply local_bind (local_cAssert _)
    intro _
    apply local_ite (local_pure _)
    exact local_dite (fun _ => local_bind (local_modifyVgic _) fun _ => local_pure _) fun _ => local_throw _

lemma local_vcpuAckVppi (irq : Int) : Local (withBehind env) (vcpuAckVppi env irq) := by
  unfold vcpuAckVppi
  refine local_get (fun k t => by rw [hE.vcpuAckVppi]) fun t => ?_
  exact local_bind (local_logEvent _) fun _ => local_pure _

lemma local_tcbReadRegisters : Local (withBehind env) (tcbReadRegisters env) := by
  unfold tcbReadRegisters
  exact local_get (fun k t => by rw [hE.tcbReadRegisters]; rfl) fun _ => local_pure _

lemma local_tcbWriteRegisters (resume : Bool) (regs : UserContext) :
    Local (withBehind env) (tcbWriteRegisters env resume regs) := by
  unfold tcbWriteRegisters
  refine local_get (fun k t => by rw [hE.tcbWriteRegisters]) fun s => ?_
  apply local_bind (local_logEvent _)
  intro _
  apply local_ite
  · exact local_bind (fun _ => localAt_modify fun _ => rfl) fun _ => local_pure _
  · exact local_pure _

lemma local_faultAdvanceVcpu (regs : UserContext) : Local (withBehind env) (faultAdvanceVcpu env regs) := by
  unfold faultAdvanceVcpu
  apply local_bind (local_tcbWriteRegisters hE _ _)
  intro err
  apply local_bind (local_cAssert _)
  exact fun _ => local_bind (local_logEvent _) fun _ => local_pure _

lemma local_handleUnknownSyscall (syscall : U64) : Local (withBehind env) (handleUnknownSyscall env syscall) := by
  unfold handleUnknownSyscall
  refine local_bind (local_tcbReadRegisters hE) fun r => local_bind (local_cAssert _) fun _ => local_ite ?_ (local_pure _)
  exact local_bind (local_tcbWriteRegisters hE _ _) fun err => local_bind (local_cAssert _) fun _ => local_pure _

lemma local_handleUserException : Local (withBehind env) (handleUserException env) := by
  unfold handleUserException
  exact local_bind (local_tcbReadRegisters hE) fun _ => local_pure _

lemma local_handleVcpuFault (hsr : U64) : Local (withBehind env) (handleVcpuFault env hsr) := by
  unfold handleVcpuFault handleSmc
  refine local_ite ?_ (local_ite (local_bind (local_logEvent _) fun _ => local_pure _) (local_pure _))
  refine local_bind (local_tcbReadRegisters hE) fun r => local_bind (local_cAssert _) fun _ => ?_
  cases smcGetCall r.2.x[0] with
  | stdService =>
    refine local_ite ?_ (local_pure _)
    unfold handlePsci
    cases psciReturnValue r.2 (smcGetFunctionNumber r.2).toNat with
    | none => exact local_pure _
    | some val =>
      exact local_bind (local_faultAdvanceVcpu hE _) fun err => local_bind (local_cAssert _) fun _ => local_pure _
  | _ => exact local_pure _

/-! ### Decoding and finishing an access -/

omit hE

lemma local_faultGetDataMask (addr fsr : U64) : Local (withBehind env) (faultGetDataMask env addr fsr) := by
  unfold faultGetDataMask faultGetWidth
  apply local_bind
  · exact local_ite (local_pure _) (local_bind (local_cAssert _) fun _ => local_pure _)
  · exact fun width => local_bind (local_cAssert _) fun _ => local_pure _

/-- The pointer to the register of an access, and what is done with it. -/
lemma local_decodeRt {α : Type} (fsr : U64) {k : Option RtPtr → M φ α} (hk : ∀ p, Local (withBehind env) (k p)) :
    Local (withBehind env) (do
      let rt ← getRt env fsr
      let p ← decodeRt env (BitVec.ofInt 64 rt)
      k p) := by
  unfold getRt decodeRt
  apply local_bind (local_bind (local_cAssert _) fun _ => local_pure _)
  intro rt
  refine local_bind (local_dite (fun _ => local_pure _) fun _ => local_ite (local_pure _) ?_) hk
  exact local_bind (local_cAssert _) fun _ => local_pure _

include hE

lemma local_faultAdvance (regs : UserContext) (addr fsr val : U64) :
    Local (withBehind env) (faultAdvance env regs addr fsr val) := by
  unfold faultAdvance
  refine local_decodeRt fsr fun p => local_get (fun _ _ => rfl) fun s => ?_
  cases p with
  | none => exact local_throw _
  | some p =>
    apply local_bind
    · unfold faultEmulate
      exact local_bind (local_faultGetDataMask _ _) fun m => local_ite (local_pure _) (local_pure _)
    · intro v
      apply local_bind
      · cases p with
        | reg n => exact local_pure _
        | wzr => exact local_bind (fun _ => localAt_modify fun _ => rfl) fun _ => local_pure _
      · exact local_faultAdvanceVcpu hE

lemma local_finishRead (regs : UserContext) (addr fsr : U64) (reg : U32) :
    Local (withBehind env) (finishRead env regs addr fsr reg) := by
  unfold finishRead
  refine local_bind (local_faultGetDataMask _ _) fun mask => ?_
  exact local_bind (local_faultAdvance hE _ _ _ _) fun err => local_pure _

end Functions

/-! ### The functions that look at a bit of an interrupt -/

/-- Every interrupt registered or in flight has its bits inside the map. -/
abbrev BitsInside (env : Env φ) (s : Vmm φ) : Prop :=
  s.vgic.InRange (fun i => 0 ≤ i ∧ i < 1056) ∧ FixedAsReset env.board.gic s.dist

section Bits

variable {s t : Vmm φ} {irq : Int} {k : Fin numListRegs} {h : VirqHandle φ} (hstop : env.assertStops = true)

include hstop

lemma eq_of_virqFindIrqData {p : Option VirqPtr} (hrun : virqFindIrqData env vcpuId irq s = .ok p t) :
    t = s ∧ p = s.vgic.find irq := by
  have hafter := wp_ok ((wp_virqFindIrqData (Q := fun p t => t = s ∧ p = s.vgic.find irq) (E := fun _ _ => True)
    hstop irq).mpr ⟨fun _ => ⟨rfl, rfl⟩, fun _ => trivial⟩) hrun
  exact hafter

omit hstop in
lemma BitsInside.logged (hI : BitsInside env s) {e : Event φ} {u : Unit} (hrun : logEvent e s = .ok u t) : BitsInside env t := by
  obtain rfl := (EStateM.Result.ok.inj hrun).2
  exact hI

omit hstop in
/-- A handle that is found has its bits inside the map, unless it is empty. -/
lemma BitsInside.of_find (hI : BitsInside env s) {p : VirqPtr} (hp : s.vgic.find irq = some p)
    (hv : (s.vgic.deref p).virq ≠ virqInvalid) : irq < 1056 ∧ (s.vgic.deref p).virq = irq := by
  have hirq := (hI.1.wf.virq_of_find hp).resolve_left hv
  have hlt := ((hI.1.tables p).resolve_left hv).2
  exact ⟨hirq ▸ hlt, hirq⟩

variable (hE : LooksInside env)

include hE

lemma localAt_vgicInjectIrq (hI : BitsInside env s) (irq : Int) :
    LocalAt (withBehind env) (vgicInjectIrq env vcpuId irq) s := by
  unfold vgicInjectIrq vgicDistSetPendingIrq
  refine localAt_bind (local_virqFindIrqData irq s) fun p t hp => ?_
  obtain ⟨rfl, rfl⟩ := eq_of_virqFindIrqData hstop hp
  cases hp : t.vgic.find irq with
  | none => exact local_throw _ t
  | some p =>
    by_cases hv : (t.vgic.deref p).virq = virqInvalid
    · refine localAt_get (fun k => ?_) (localAt_ite (fun _ => local_pure _ t) fun hno => absurd (.inl hv) hno)
      exact (if_pos (.inl hv)).trans (if_pos (.inl hv)).symm
    · obtain ⟨hlt, hvirq⟩ := hI.of_find hp hv
      refine localAt_get (fun k => ?_) ?_
      · dsimp only [withBehind]
        rw [vgicDistIsEnabled_withBehind, isEnabled_withBehind hlt, hvirq, isPending_withBehind hlt]
      · refine localAt_ite (fun _ => local_pure _ t) fun _ => localAt_ite (fun _ => local_pure _ t) fun _ => ?_
        rw [hvirq]
        refine local_bind (local_logEvent _) (fun _ => local_bind (local_setPending hlt true) fun _ =>
          local_bind (local_vgicIrqEnqueue p) fun err => local_ite ?_ ?_) t
        · exact local_bind (local_logEvent _) fun _ => local_bind (local_cAssert _) fun _ => local_pure _
        · refine local_bind local_vgicFindEmptyListReg fun idx => local_ite (local_pure _) ?_
          refine local_bind local_vgicIrqDequeue fun q => ?_
          cases q with
          | none => exact local_throw _
          | some q =>
            refine local_get (fun _ _ => rfl) fun s => local_bind (local_cAssert _) fun _ => ?_
            exact local_vgicVcpuLoadListReg hE _ _ _

omit hE in
lemma bitsInside_runAckCall (c : AckCall) : Keeps (BitsInside env) (runAckCall env c) := by
  cases c with
  | irqAck ch => exact within_modify fun _ => id
  | vcpuAckVppi irq =>
    exact within_bind (within_vcpuAckVppi (within_modify fun _ => id)) fun _ => within_cAssert _
  | injectIrq irq => exact within_bind (keeps_dist_vgicInjectIrq hstop keptByBanks_fixed irq) fun _ => within_pure _

lemma localAt_virqAck (hI : BitsInside env s) (h : VirqHandle φ) : LocalAt (withBehind env) (virqAck env vcpuId h) s := by
  unfold virqAck
  refine localAt_bind (local_cAssert _ s) fun _ t ht => ?_
  obtain rfl := eq_of_cAssert hstop ht
  cases h.ackFn with
  | none => exact local_throw _ t
  | some fn =>
    refine localAt_bind (local_logEvent _ t) fun _ u hu => localAt_get (fun k => by rw [hE.ackFn]) ?_
    refine localAt_forM (I := BitsInside env) (fun c _ u hu => ?_) (fun c _ => bitsInside_runAckCall hstop c) (hI.logged hu)
    cases c with
    | irqAck ch => exact local_logEvent _ u
    | vcpuAckVppi irq => exact local_bind (local_vcpuAckVppi hE irq) (fun _ => local_cAssert _) u
    | injectIrq irq =>
      exact localAt_bind (localAt_vgicInjectIrq hstop hE hu irq) fun _ _ _ => local_pure _ _

lemma localAt_vgicDistEnableIrq (hI : BitsInside env s) (hirq : irq < 1056) :
    LocalAt (withBehind env) (vgicDistEnableIrq env vcpuId irq) s := by
  unfold vgicDistEnableIrq
  refine localAt_bind (local_setEnable hirq true s) fun _ t ht => ?_
  obtain rfl : t = enabled s irq := (EStateM.Result.ok.inj ht).2.symm
  refine localAt_bind (local_virqFindIrqData irq _) fun p u hu => ?_
  obtain ⟨rfl, rfl⟩ := eq_of_virqFindIrqData hstop hu
  cases hp : (enabled s irq).vgic.find irq with
  | none => exact local_pure _ _
  | some p =>
    refine localAt_get (fun k => ?_) ?_
    · by_cases hv : (s.vgic.deref p).virq = virqInvalid
      · exact (if_neg (not_not_intro hv)).trans (if_neg (not_not_intro hv)).symm
      · obtain ⟨hlt, hvirq⟩ := hI.of_find hp hv
        have hpend : isPending (withBehind env k (enabled s irq)).dist (s.vgic.deref p).virq vcpuId =
            isPending (enabled s irq).dist (s.vgic.deref p).virq vcpuId := isPending_withBehind (hvirq ▸ hlt)
        exact ite_congr rfl (fun _ => ite_congr (congrArg (¬· = true) hpend) (fun _ => rfl) fun _ => rfl) fun _ => rfl
    · refine localAt_ite (fun _ => localAt_ite (fun _ => ?_) fun _ => local_pure _ _) fun _ => local_pure _ _
      have h0 := Vgic.nonneg_of_find hp
      have hI' : BitsInside env (enabled s irq) := ⟨hI.1, fun w hw => (fixed_setEnable hw ⟨h0, hirq⟩).trans (hI.2 w hw)⟩
      exact localAt_virqAck hstop hE hI' _

omit hE in
lemma vgicMaintenanceBody_eq (hslot : s.vgic.view.slot k = some h) (err : Int) :
    vgicMaintenanceBody env k err s = (virqAck env vcpuId h >>= fun _ => refill env k err) (freed s k h) := by
  have hself := wp_self (virqAck env vcpuId h >>= fun _ => refill env k err) (freed s k h)
  rw [wp_bind] at hself
  refine eq_of_wp ((wp_vgicMaintenanceBody hstop).mpr ⟨fun hnone => by simp [hslot] at hnone, fun h' hh' => ?_⟩)
  obtain rfl := Option.some.inj (hslot.symm.trans hh')
  exact hself

omit hstop in
lemma local_refill (idx err : Int) : Local (withBehind env) (refill env idx err) := by
  unfold refill
  refine local_bind local_vgicIrqDequeue fun q => ?_
  cases q with
  | none => exact local_pure _
  | some p => exact local_bind (local_vgicVcpuLoadListReg hE _ _ _) fun _ => local_pure _

omit hstop hE in
lemma BitsInside.freed (hI : BitsInside env s) (hslot : s.vgic.view.slot k = some h) : BitsInside env (freed s k h) := by
  have hres := SlotQueue.residents_free hslot
  have hderef : (Sel4cpVmm.freed s k h).vgic.deref = s.vgic.deref := Vgic.deref_setLr
  have hh := hI.1.residents h (by simp [hres])
  refine ⟨⟨wf_freed hI.1.wf k h, hderef ▸ hI.1.tables, fun a ha => hI.1.residents a ?_⟩, fun w hw => ?_⟩
  · rw [view_freed] at ha
    rw [hres]
    exact Multiset.mem_cons_of_mem ha
  · exact (fixed_setPending hw hh).trans (hI.2 w hw)

lemma localAt_vgicMaintenanceBody (hI : BitsInside env s) (idx err : Int) :
    LocalAt (withBehind env) (vgicMaintenanceBody env idx err) s := by
  have hrefused : ∀ {x : M φ Int} {u : Vmm φ}, wp x (fun _ _ => False) (fun e t => e = .assertFailed ∧ t = u) u →
      x u = .error .assertFailed u := by
    intro x u hx
    obtain ⟨e, t, hrun, rfl, rfl⟩ := error_of_wp hx
    exact hrun
  by_cases hidx : 0 ≤ idx ∧ idx < (numListRegs : Int)
  · obtain ⟨k, rfl⟩ : ∃ k : Fin numListRegs, ((k : Nat) : Int) = idx := ⟨⟨idx.toNat, by omega⟩, by simp; omega⟩
    cases hslot : s.vgic.view.slot k with
    | none =>
      have hstops : ∀ u : Vmm φ, u.vgic = s.vgic → vgicMaintenanceBody env k err u = .error .assertFailed u :=
        fun u hu => hrefused ((wp_vgicMaintenanceBody hstop).mpr ⟨fun _ => ⟨rfl, rfl⟩, fun h hh => by
          rw [hu, hslot] at hh
          exact absurd hh (by simp)⟩)
      intro b
      rw [hstops s rfl, hstops (withBehind env b s) rfl]
      rfl
    | some h =>
      have hh := (hI.1.residents h (by simp [SlotQueue.residents_free hslot])).2
      have hrest : LocalAt (withBehind env) (virqAck env vcpuId h >>= fun _ => refill env k err) (freed s k h) :=
        localAt_bind (localAt_virqAck hstop hE (hI.freed hslot) h) fun _ t _ => local_refill hE _ _ t
      intro b
      have hfreed : freed (withBehind env b s) k h = withBehind env b (freed s k h) :=
        congrArg (fun d => { withBehind env b (freed s k h) with dist := d }) (setPending_withBehind hh false)
      rw [vgicMaintenanceBody_eq hstop hslot, vgicMaintenanceBody_eq (s := withBehind env b s) hstop hslot, hfreed]
      exact hrest b
  · have hstops : ∀ u : Vmm φ, vgicMaintenanceBody env idx err u = .error .assertFailed u :=
      fun u => hrefused (wp_vgicMaintenanceBody_range hstop hidx ⟨rfl, rfl⟩)
    intro b
    rw [hstops, hstops]
    rfl

lemma localAt_handleVppiEvent (hI : BitsInside env s) (irq : U64) :
    LocalAt (withBehind env) (handleVppiEvent env irq) s := by
  unfold handleVppiEvent
  refine localAt_bind (localAt_vgicInjectIrq hstop hE hI _) fun b t _ => local_ite ?_ ?_ t
  · refine local_bind (local_vcpuAckVppi hE _) fun err => local_bind (local_cAssert _) fun _ => ?_
    exact local_ite (local_pure _) (local_bind (local_logEvent _) fun _ => local_pure _)
  · exact local_bind (local_logEvent _) fun _ => local_pure _

lemma localAt_action (hI : BitsInside env s) {a : Action φ} (hb : a.Bits 1056) :
    LocalAt (withBehind env) (a.run env) s := by
  cases a with
  | register irq fn data => exact local_bind (local_vgicRegisterIrq _ _ _) (fun _ => local_pure _) s
  | inject irq => exact localAt_bind (localAt_vgicInjectIrq hstop hE hI irq) fun _ _ _ => local_pure _ _
  | notification irq =>
    refine localAt_bind (local_logEvent _ s) fun _ t ht => ?_
    exact localAt_bind (localAt_vgicInjectIrq hstop hE (hI.logged ht) irq) fun _ _ _ => local_pure _ _
  | vppiEvent irq =>
    refine localAt_bind (local_logEvent _ s) fun _ t ht => ?_
    exact localAt_bind (localAt_handleVppiEvent hstop hE (hI.logged ht) irq) fun _ _ _ => local_pure _ _
  | retire idx err => exact localAt_bind (localAt_vgicMaintenanceBody hstop hE hI idx err) fun _ _ _ => local_pure _ _
  | enable irq => exact localAt_vgicDistEnableIrq hstop hE hI hb.2
  | disable irq => exact local_ite (local_setEnable hb.2 false) (local_pure _) s
  | clearEnable irq => exact local_setEnable hb.2 false s
  | clrPending irq => exact local_setPending hb.2 false s
  | store w mask bits =>
    refine local_modifyDist (f := fun d => d.set w (d.word w &&& ~~~mask ||| bits)) (fun d b => ?_) s
    have hw := lt_mapWords env.board.gic (IsPlainWord.lt hb)
    rw [word_withBehind hw, set_withBehind hw]
  | ctlr data =>
    have hw : ctlr < env.board.gic.mapWords := lt_mapWords _ (by decide)
    refine local_ite (local_modifyDist fun d b => ?_) (local_ite (local_modifyDist fun d b => ?_) (local_pure _)) s
    · unfold vgicDistEnable
      cases hg : env.board.gic <;> rw [hg] at hw
      · exact set_withBehind hw _
      · exact orWord_withBehind hw _
    · unfold vgicDistDisable
      cases hg : env.board.gic <;> rw [hg] at hw
      · exact set_withBehind hw _
      · exact andNotWord_withBehind hw _
  | fail => exact local_cAssert _ s

end Bits

end Sel4cpVmm
