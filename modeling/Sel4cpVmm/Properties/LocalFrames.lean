import Sel4cpVmm.Proofs.EnableWrites

/-!
# Two frames for the local interrupts

The redistributor of GICv3 repeats the loops of the distributor for bank 0. Its clear-enable register lacks the
guard that spares the SGIs, and its clear-active register is stored in another field.
-/

namespace Sel4cpVmm

open StopProgram GicDistMap

variable {φ : Type} {env : Env φ}

/-- The registers of bank 0 that both frames have. -/
inductive LocalRegister
  | isenabler0
  | icenabler0
  | igroupr0
  | icactiver0

namespace LocalRegister

def gicrOffset : LocalRegister → Nat
  | isenabler0 => gicrIsenabler0
  | icenabler0 => gicrIcenabler0
  | igroupr0 => gicrIgroupr0
  | icactiver0 => gicrIcactiver0

def gicdOffset : LocalRegister → Nat
  | isenabler0 => gicDistIsenabler0
  | icenabler0 => gicDistIcenabler0
  | igroupr0 => gicDistIgroupr0
  | icactiver0 => gicDistIcactiver0

/-- Where the two frames write the same: no enabled SGI is disabled, and the active bits written are there already. -/
def WritesAlike (d : GicDistMap) (data : U32) : LocalRegister → Prop
  | isenabler0 => True
  | icenabler0 => data &&& 0xffff &&& (d.word enableSet0 ||| d.word enableClr0) = 0
  | igroupr0 => True
  | icactiver0 => d.word active0 = data ∧ d.word activeClr0 = data

end LocalRegister

/-- The state in which a store through the redistributor ends or stops. -/
def redistStore (env : Env φ) (s : Vmm φ) (r : LocalRegister) (fsr : U64) (regs : UserContext) : Vmm φ :=
  outcome (handleVgicRedistWriteFault env vcpuId (BitVec.ofNat 64 r.gicrOffset) fsr regs) s

/-- The state in which the same store through the distributor ends or stops. -/
def distStore (env : Env φ) (s : Vmm φ) (r : LocalRegister) (fsr : U64) (regs : UserContext) : Vmm φ :=
  outcome (vgicDistRegWrite env vcpuId (BitVec.ofNat 64 r.gicdOffset) fsr regs) s

def SgisKept (s t : Vmm φ) : Prop :=
  ∀ i, 0 ≤ i ∧ i < numSgiVirqs → isEnabled s.dist i vcpuId = true → isEnabled t.dist i vcpuId = true

/-- A store does the same through both frames, and no SGI is disabled through either. -/
structure FramesAgree (env : Env φ) (s : Vmm φ) (r : LocalRegister) (fsr : U64) (regs : UserContext) : Prop where
  vgic : (redistStore env s r fsr regs).vgic = (distStore env s r fsr regs).vgic
  dist : (redistStore env s r fsr regs).dist = (distStore env s r fsr regs).dist
  acks : (redistStore env s r fsr regs).log.filter Event.isAck = (distStore env s r fsr regs).log.filter Event.isAck
  redistSgis : SgisKept s (redistStore env s r fsr regs)
  distSgis : SgisKept s (distStore env s r fsr regs)

/-! ### The operations of the two frames -/

section Stores

variable (hstop : env.assertStops = true) {s : Vmm φ} {r : LocalRegister} {fsr : U64} {regs : UserContext}
  (hword : IsWordAccess fsr) (hwrite : faultIsWrite fsr = true)

lemma dist_aligned (g : Board) (r : LocalRegister) : (g.gicDistPaddr + BitVec.ofNat 64 r.gicdOffset) &&& 0x3 = 0 := by
  cases g <;> cases r <;> rfl

lemma redist_aligned (r : LocalRegister) : (Board.gicRedistPaddr + BitVec.ofNat 64 r.gicrOffset) &&& 0x3 = 0 := by
  cases r <;> rfl

def LocalRegister.distOps (r : LocalRegister) (data : U32) : List (Action φ) :=
  match r with
  | isenabler0 => (registerIrqs 0 data).map .enable
  | icenabler0 => (registerIrqs 0 data).map .disable
  | igroupr0 => [.store irqGroup0 (BitVec.allOnes 32) data]
  | icactiver0 => [.store activeClr0 (BitVec.allOnes 32) data]

def LocalRegister.redistOps (r : LocalRegister) (data : U32) : List (Action φ) :=
  match r with
  | isenabler0 => (registerIrqs 0 data).map .enable
  | icenabler0 => (registerIrqs 0 data).map .clearEnable
  | igroupr0 => [.store irqGroup0 (BitVec.allOnes 32) data]
  | icactiver0 => [.store active0 (BitVec.allOnes 32) data]

section Ops

variable {addr : U64} (haddr : addr &&& 0x3 = 0) (val : U64)

include hword haddr

lemma distActions_eq (g : GicVersion) :
    (distActions g r.gicdOffset addr fsr val : List (Action φ)) = r.distOps (val.setWidth 32) := by
  unfold distActions writeIrqs
  rw [hword.dataMask haddr, laneShift_of_aligned haddr]
  dsimp only
  rw [setWidth_and_word, setWidth_word]
  cases r
  · rw [show distWrite g vcpuId LocalRegister.isenabler0.gicdOffset = .isenabler by cases g <;> decide]
    rfl
  · rw [show distWrite g vcpuId LocalRegister.icenabler0.gicdOffset = .icenabler by cases g <;> decide]
    rfl
  · rw [show distWrite g vcpuId LocalRegister.igroupr0.gicdOffset = .store irqGroup0 by cases g <;> decide]
    rfl
  · rw [show distWrite g vcpuId LocalRegister.icactiver0.gicdOffset = .store activeClr0 by cases g <;> decide]
    rfl

lemma redistActions_eq : (redistActions r.gicrOffset addr fsr val : List (Action φ)) = r.redistOps (val.setWidth 32) := by
  unfold redistActions
  rw [hword.dataMask haddr, laneShift_of_aligned haddr]
  dsimp only
  rw [setWidth_and_word, setWidth_word]
  cases r <;> rfl

end Ops

include hstop hword hwrite

lemma distStore_eq : distStore env s r fsr regs =
    outcome (forM (r.distOps (storedWord s fsr regs)) (Action.run env) >>= fun _ => faultAdvanceVcpu env regs) s := by
  have haddr := dist_aligned env.board r
  have hok := hword.ok haddr
  have hoffset : (BitVec.ofNat 64 r.gicdOffset).toNat = r.gicdOffset := by cases r <;> rfl
  have heffect : distWriteEffect env vcpuId (BitVec.ofNat 64 r.gicdOffset) fsr regs
      ((dataMask (env.board.gicDistPaddr + BitVec.ofNat 64 r.gicdOffset) fsr).setWidth 32) s =
      forM (r.distOps (storedWord s fsr regs)) (Action.run env) s := by
    refine eq_of_wp (wp_distWriteEffect hstop hword.1 rfl hok hwrite ?_)
    rw [hoffset, distActions_eq hword haddr]
    exact wp_self _ s
  unfold distStore vgicDistRegWrite
  rw [outcome_bind_of_ok (faultGetDataMask_eq hstop hok), outcome_congr (bind_congr_left heffect)]
  exact outcome_bind_congr (fun _ => outcome_bind_of_still fun _ _ => rfl) s

lemma redistStore_eq : redistStore env s r fsr regs =
    outcome (forM (r.redistOps (storedWord s fsr regs)) (Action.run env) >>= fun _ => faultAdvanceVcpu env regs) s := by
  have haddr := redist_aligned r
  have hok := hword.ok haddr
  have hoffset : (BitVec.ofNat 64 r.gicrOffset).toNat = r.gicrOffset := by cases r <;> rfl
  have heffect : redistWriteEffect env vcpuId (BitVec.ofNat 64 r.gicrOffset) fsr regs
      ((dataMask (Board.gicRedistPaddr + BitVec.ofNat 64 r.gicrOffset) fsr).setWidth 32) s =
      forM (r.redistOps (storedWord s fsr regs)) (Action.run env) s := by
    refine eq_of_wp (wp_redistWriteEffect hstop hword.1 rfl hok hwrite ?_)
    rw [hoffset, redistActions_eq hword haddr]
    exact wp_self _ s
  have hassert : ∀ (err : Bool) (t : Vmm φ), outcome (cAssert env (!err) >>= fun _ => pure (!err) : M φ Bool) t = t := by
    intro err t
    cases err
    · rfl
    · have hstops : (cAssert env false : M φ Unit) = throw .assertFailed := by
        unfold cAssert
        rw [hstop]
        rfl
      rw [Bool.not_true, hstops]
      rfl
  unfold redistStore handleVgicRedistWriteFault
  rw [outcome_bind_of_ok (faultGetDataMask_eq hstop hok), outcome_congr (bind_congr_left heffect)]
  exact outcome_bind_congr (fun _ => outcome_bind_of_still hassert) s

/-- Operations that end leave everything but the guest as the store does. -/
lemma frame_distStore {t : Vmm φ} (h : forM (r.distOps (storedWord s fsr regs)) (Action.run env) s = .ok ⟨⟩ t) :
    Frame t (distStore env s r fsr regs) := by
  rw [distStore_eq hstop hword hwrite, outcome_bind_of_ok h]
  exact Always.outcome (within_faultAdvanceVcpu (fun _ => within_logEvent_frame) within_setTcb_frame regs) t

lemma frame_redistStore {t : Vmm φ} (h : forM (r.redistOps (storedWord s fsr regs)) (Action.run env) s = .ok ⟨⟩ t) :
    Frame t (redistStore env s r fsr regs) := by
  rw [redistStore_eq hstop hword hwrite, outcome_bind_of_ok h]
  exact Always.outcome (within_faultAdvanceVcpu (fun _ => within_logEvent_frame) within_setTcb_frame regs) t

end Stores

/-! ### What the operations do to the SGIs -/

section Sgis

instance : Std.Refl (SgisKept (φ := φ)) := ⟨fun _ _ _ => id⟩

instance : IsTrans (Vmm φ) SgisKept := ⟨fun _ _ _ h h' i hi he => h' i hi (h i hi he)⟩

lemma sgisKept_of_enables {s t : Vmm φ} (h : ∀ i, 0 ≤ i ∧ i < numSgiVirqs → isEnabled t.dist i vcpuId = isEnabled s.dist i vcpuId) :
    SgisKept s t := fun i hi he => (h i hi).trans he

lemma sgisKept_enables (irqs : List Int) : Always SgisKept (forM (irqs.map .enable) (Action.run env)) := by
  rw [List.forM_map]
  refine within_forM fun i _ => within_vgicDistEnableIrq (fun _ => within_modify fun _ _ _ => id)
    (fun _ _ _ => within_modify fun _ _ _ => id) (fun i b v => within_modify fun s => ?_)
    (fun _ _ => within_modify fun _ _ _ => id) (fun i v => within_modify fun s j _ h => isEnabled_setEnable_true h) _ _
  exact sgisKept_of_enables fun j hj => isEnabled_setPending (sgi_lt_irqLimit hj)

lemma sgisKept_disables {s : Vmm φ} {x : U32} :
    SgisKept s { s with dist := setEnables false s.dist (registerIrqs 0 (withoutSgis 0 x)) } := by
  refine sgisKept_of_enables fun i hi => ?_
  have h32 : i < 32 := Int.lt_trans hi.2 (by decide)
  have hbit : (i % 32).toNat < 16 := by
    have hlt := hi.2
    simp only [numSgiVirqs] at hlt
    omega
  have hmask : (0xffff : U32).getLsbD (i % 32).toNat = true := by
    have hall : ∀ k : Fin 16, (0xffff : U32).getLsbD k = true := by decide
    exact hall ⟨_, hbit⟩
  rw [isEnabled_eq, isEnabled_eq, testIrq_eq, testIrq_eq, bankWord, if_pos h32, word_setEnables,
    if_pos (.inl rfl)]
  simp only [Bool.false_eq_true, if_false, withoutSgis, if_true, BitVec.getLsbD_and, BitVec.getLsbD_not, hmask,
    Bool.not_true, Bool.and_false, Bool.not_false]
  simp [irqBit_lt i]

end Sgis

/-! ### When the frames agree -/

section Agree

variable (hstop : env.assertStops = true) {s : Vmm φ} {fsr : U64} {regs : UserContext}
  (hword : IsWordAccess fsr) (hwrite : faultIsWrite fsr = true)

include hstop hword hwrite

lemma framesAgree_of_ops {r : LocalRegister} (h : (r.redistOps (storedWord s fsr regs) : List (Action φ)) =
    r.distOps (storedWord s fsr regs)) (hsgis : SgisKept s (distStore env s r fsr regs)) : FramesAgree env s r fsr regs := by
  have heq : redistStore env s r fsr regs = distStore env s r fsr regs := by
    rw [redistStore_eq hstop hword hwrite, distStore_eq hstop hword hwrite, h]
  exact ⟨by rw [heq], by rw [heq], by rw [heq], heq ▸ hsgis, hsgis⟩

/-- When the operations only change the register map, the frames agree if they change it alike. -/
lemma framesAgree_iff_of_ok {r : LocalRegister} {d d' : GicDistMap}
    (hredist : forM (r.redistOps (storedWord s fsr regs)) (Action.run env) s = .ok ⟨⟩ { s with dist := d })
    (hdist : forM (r.distOps (storedWord s fsr regs)) (Action.run env) s = .ok ⟨⟩ { s with dist := d' })
    (hsgis : SgisKept s { s with dist := d' }) : FramesAgree env s r fsr regs ↔ d = d' := by
  have hr := frame_redistStore hstop hword hwrite hredist
  have hd := frame_distStore hstop hword hwrite hdist
  have hacks : ∀ {t u : Vmm φ}, Frame t u → u.log.filter Event.isAck = t.log.filter Event.isAck := by
    intro t u h
    obtain ⟨l, hl, hret⟩ := h.log
    have hnone : l.filter Event.isAck = [] := List.filter_eq_nil_iff.mpr fun e he => by
      have hre := hret e he
      cases e <;> simp_all [Event.isReturn, Event.isAck]
    rw [hl, List.filter_append, hnone, List.append_nil]
  constructor
  · intro h
    have heq := h.dist
    rw [hr.dist, hd.dist] at heq
    exact heq
  · rintro rfl
    have hkept : ∀ {u : Vmm φ}, Frame { s with dist := d } u → SgisKept s u := fun hu i hi he => hu.dist ▸ hsgis i hi he
    exact ⟨hr.vgic.trans hd.vgic.symm, hr.dist.trans hd.dist.symm, (hacks hr).trans (hacks hd).symm, hkept hr, hkept hd⟩

omit hstop hword hwrite in
/-- Clearing a mask with and without its SGIs leaves the same map when none of them is enabled. -/
lemma clear_spared_sgis_iff {d : GicDistMap} {x : U32} :
    setEnables false d (registerIrqs 0 x) = setEnables false d (registerIrqs 0 (withoutSgis 0 x)) ↔
      x &&& 0xffff &&& (d.word enableSet0 ||| d.word enableClr0) = 0 := by
  have hword : ∀ y w, (setEnables false d (registerIrqs 0 y)).word w =
      if w = enableSet0 ∨ w = enableClr0 then d.word w &&& ~~~y else d.word w := fun y w => word_setEnables
  have hor : x &&& 0xffff &&& (d.word enableSet0 ||| d.word enableClr0) = 0 ↔
      x &&& 0xffff &&& d.word enableSet0 = 0 ∧ x &&& 0xffff &&& d.word enableClr0 = 0 := by
    rw [BitVec.and_or_distrib_left]
    exact BitVec.or_eq_zero_iff
  rw [hor, ← WordBits.clear_spared_iff, ← WordBits.clear_spared_iff]
  constructor
  · intro h
    have heq := fun w => congrArg (fun m => m.word w) h
    simp only [hword] at heq
    exact ⟨by simpa [withoutSgis] using heq enableSet0, by simpa [withoutSgis] using heq enableClr0⟩
  · rintro ⟨hset, hclr⟩
    refine congrArg GicDistMap.mk (funext fun w => ?_)
    change (setEnables false d (registerIrqs 0 x)).word w = (setEnables false d (registerIrqs 0 (withoutSgis 0 x))).word w
    rw [hword, hword]
    by_cases hs : w = enableSet0
    · subst hs
      simpa [withoutSgis] using hset
    · by_cases hc : w = enableClr0
      · subst hc
        simpa [withoutSgis] using hclr
      · simp [hs, hc]

omit hstop hword hwrite in
lemma set_eq_set_iff {d : GicDistMap} {w w' : Nat} (hne : w ≠ w') {x : U32} :
    d.set w x = d.set w' x ↔ d.word w = x ∧ d.word w' = x := by
  constructor
  · intro h
    have heq := fun v => congrArg (fun m => m.word v) h
    simp only [word_set] at heq
    have hw := heq w
    have hw' := heq w'
    rw [if_pos rfl, if_neg hne] at hw
    rw [if_neg hne.symm, if_pos rfl] at hw'
    exact ⟨hw.symm, hw'⟩
  · rintro ⟨hw, hw'⟩
    refine congrArg GicDistMap.mk (funext fun v => ?_)
    change (d.set w x).word v = (d.set w' x).word v
    rw [word_set, word_set]
    by_cases h : v = w
    · rw [if_pos h, h, if_neg hne, hw]
    · by_cases h' : v = w'
      · rw [if_neg h, if_pos h', h', hw']
      · rw [if_neg h, if_neg h']

/-- In every state, a word store to a register of bank 0 does the same through both frames exactly when it
clears the enable bit of no enabled SGI, or writes the active bits that are there already. -/
theorem framesAgree_iff (r : LocalRegister) (s : Vmm φ) (regs : UserContext) :
    FramesAgree env s r fsr regs ↔ r.WritesAlike s.dist (storedWord s fsr regs) := by
  have hreturn : Always SgisKept (faultAdvanceVcpu env regs) :=
    within_faultAdvanceVcpu (fun _ _ => within_modify fun _ _ _ => id) (fun _ => within_modify fun _ _ _ => id) regs
  cases r with
  | isenabler0 =>
    refine iff_of_true (framesAgree_of_ops hstop hword hwrite rfl ?_) trivial
    rw [distStore_eq hstop hword hwrite]
    exact Always.outcome (within_bind (sgisKept_enables _) fun _ => hreturn) s
  | igroupr0 =>
    have hstore : Always SgisKept (forM (LocalRegister.igroupr0.distOps (storedWord s fsr regs)) (Action.run env)) := by
      refine within_forM fun a ha => ?_
      obtain rfl := List.mem_singleton.mp ha
      exact within_modify fun t => sgisKept_of_enables fun i hi => isEnabled_set (sgi_lt_irqLimit hi) (.inl (by decide)) _
    refine iff_of_true (framesAgree_of_ops hstop hword hwrite rfl ?_) trivial
    rw [distStore_eq hstop hword hwrite]
    exact Always.outcome (within_bind hstore fun _ => hreturn) s
  | icenabler0 =>
    have hdist : forM (LocalRegister.icenabler0.distOps (storedWord s fsr regs)) (Action.run env) s = .ok ⟨⟩
        { s with dist := setEnables false s.dist (registerIrqs 0 (withoutSgis 0 (storedWord s fsr regs))) } := by
      rw [← filter_registerIrqs]
      exact run_disables
    have hredist : forM (LocalRegister.icenabler0.redistOps (storedWord s fsr regs)) (Action.run env) s = .ok ⟨⟩
        { s with dist := setEnables false s.dist (registerIrqs 0 (storedWord s fsr regs)) } := run_clearEnables
    exact (framesAgree_iff_of_ok hstop hword hwrite hredist hdist sgisKept_disables).trans clear_spared_sgis_iff
  | icactiver0 =>
    have hrun : ∀ w, forM [Action.store w (BitVec.allOnes 32) (storedWord s fsr regs)] (Action.run env) s =
        .ok ⟨⟩ { s with dist := s.dist.set w (storedWord s fsr regs) } := by
      intro w
      have hmerge : s.dist.set w (s.dist.word w &&& ~~~BitVec.allOnes 32 ||| storedWord s fsr regs) =
          s.dist.set w (storedWord s fsr regs) := by simp
      rw [← hmerge]
      rfl
    have hredist : forM (LocalRegister.icactiver0.redistOps (storedWord s fsr regs)) (Action.run env) s = .ok ⟨⟩
        { s with dist := s.dist.set active0 (storedWord s fsr regs) } := hrun active0
    have hdist : forM (LocalRegister.icactiver0.distOps (storedWord s fsr regs)) (Action.run env) s = .ok ⟨⟩
        { s with dist := s.dist.set activeClr0 (storedWord s fsr regs) } := hrun activeClr0
    refine (framesAgree_iff_of_ok hstop hword hwrite hredist hdist ?_).trans (set_eq_set_iff (by decide))
    exact sgisKept_of_enables fun i hi => isEnabled_set (sgi_lt_irqLimit hi) (.inr (by decide)) _

end Agree

/-- A store to the clear-enable registers that names PPI 27 only. -/
theorem framesAgree_iff_ppi : FramesAgree (vmmEnv .imx8mmEvk) (vgicInit (vmmEnv .imx8mmEvk) (.filled 0)) .icenabler0
    storeWord (.filled 0x8000000) :=
  (framesAgree_iff rfl ⟨by decide, by decide⟩ (by decide) .icenabler0 _ _).mpr (by
    unfold LocalRegister.WritesAlike
    decide)

/-- The guest has enabled SGI 0, and disables it through the redistributor only. -/
theorem redist_disables_sgi : ∃ s : Vmm VmmAckFn, Reachable (vmmEnv .imx8mmEvk) (fun _ _ => True) s ∧
    ¬FramesAgree (vmmEnv .imx8mmEvk) s .icenabler0 storeWord (.filled 1) := by
  obtain ⟨s, hs, hp⟩ := exists_reachable (vmmEnv .imx8mmEvk) (fun _ _ => True)
    (fun s => isEnabled s.dist 0 vcpuId &&
      !isEnabled (redistStore (vmmEnv .imx8mmEvk) s .icenabler0 storeWord (.filled 1)).dist 0 vcpuId)
    (guestStore (vmmEnv .imx8mmEvk) 0x100 1) (by decide +kernel) (by decide +kernel)
  simp only [Bool.and_eq_true, Bool.not_eq_true'] at hp
  refine ⟨s, hs, fun h => ?_⟩
  have hkept := h.redistSgis 0 (by decide) hp.1
  rw [hp.2] at hkept
  exact absurd hkept (by decide)

end Sel4cpVmm
