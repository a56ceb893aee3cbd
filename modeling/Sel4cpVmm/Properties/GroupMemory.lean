import Sel4cpVmm.Lib.ByteMemory
import Sel4cpVmm.Proofs.Guest
import Sel4cpVmm.Proofs.Loads

/-!
# The interrupt-group registers as memory

`IGROUPR0` to `IGROUPR31` are never read by the VMM, so for the guest they are 128 bytes of memory.
-/

namespace Sel4cpVmm

open StopProgram GicDistMap ByteMemory

variable {φ : Type} {env : Env φ}

def distOffset (env : Env φ) (addr : U64) : Nat := (addr - env.board.gicDistPaddr).toNat

def AtGroup (env : Env φ) (addr : U64) : Prop := InDist env addr ∧ 0x80 ≤ distOffset env addr ∧ distOffset env addr < 0x100

instance (env : Env φ) (addr : U64) : Decidable (AtGroup env addr) := inferInstanceAs (Decidable (_ ∧ _ ∧ _))

/-- A naturally aligned access to a byte, a halfword or a word. -/
structure NaturalAccess (addr fsr : U64) : Prop where
  ok : AccessOk addr fsr
  width : accessWidth fsr ≠ .doubleword

/-- The interrupts named have bits in the bitmaps, stores to the group registers are naturally aligned, and
`IGROUPR0` is not written through the redistributor frame. -/
def GroupAllowed (env : Env φ) (s : Vmm φ) (op : Op φ) : Prop :=
  BelowLimit env s op ∧ match op with
    | .fault (.vmFault addr fsr) => faultIsWrite fsr = true → (AtGroup env addr → NaturalAccess addr fsr) ∧
        ¬(InRedist env addr ∧ range32 (addr - Board.gicRedistPaddr).toNat gicrIgroupr0 gicrIgroupr0 = true)
    | _ => True

/-- A memory in which every store to the group registers is performed. -/
def storeGroup (env : Env φ) (mem : Memory) (s : Vmm φ) (op : Op φ) (_ : Vmm φ) : Memory :=
  match op with
  | .fault (.vmFault addr fsr) =>
    if AtGroup env addr ∧ faultIsWrite fsr = true then
      mem.store (distOffset env addr) (accessWidth fsr).bytes (rtValue s.tcb fsr s.wzr)
    else mem
  | _ => mem

/-- The states reached, with the memory that holds the bytes last stored to the group registers. -/
abbrev GroupStores (env : Env φ) : Vmm φ → Memory → Prop :=
  ReachWith (fun s => ∃ tcb, s = vgicInit env tcb) (GroupAllowed env) (step env) (storeGroup env) fun _ => 0

/-- The bytes of the distributor's registers. -/
abbrev distBytes (s : Vmm φ) : Memory := ofWords s.dist.word

/-- The group registers show the memory. -/
def ShowsMemory (s : Vmm φ) (mem : Memory) : Prop := ∀ a, 0x80 ≤ a → a < 0x100 → distBytes s a = mem a

/-! ### The cases of the group registers -/

section Cases

variable {g : GicVersion} {offset w : Nat}

lemma group_cases (h : 0x80 ≤ offset ∧ offset < 0x100) :
    distRead g vcpuId offset = .word (offset / 4) ∧ distWrite g vcpuId offset = .store (offset / 4) := by
  have hall : ∀ k : Fin 128, distRead g vcpuId (0x80 + k) = .word ((0x80 + k) / 4) ∧
      distWrite g vcpuId (0x80 + k) = .store ((0x80 + k) / 4) := by
    cases g <;> decide +kernel
  have hk := hall ⟨offset - 0x80, by omega⟩
  simp only [Nat.add_sub_cancel' h.1] at hk
  exact hk

lemma distWrite_store_outside (h : distWrite g vcpuId offset = .store w) (hout : ¬(0x80 ≤ offset ∧ offset < 0x100)) :
    enableSet0 ≤ w := by
  unfold distWrite at h
  repeat' (replace h := ite_eq_iff.mp h; rcases h with ⟨hr, h⟩ | ⟨-, h⟩)
  all_goals try contradiction
  all_goals obtain rfl := DistWrite.store.inj h
  · simp only [range32, gicDistIgroupr0, Bool.and_eq_true, decide_eq_true_eq] at hr
    omega
  · simp only [range32, gicDistIgroupr1, gicDistIgrouprN, Bool.and_eq_true, decide_eq_true_eq] at hr
    omega
  all_goals simp only [enableSet0, active0, active, activeClr0, activeClr]; omega

lemma redistWrite_store_outside (h : redistWrite vcpuId offset = .store w)
    (hout : ¬range32 offset gicrIgroupr0 gicrIgroupr0 = true) : enableSet0 ≤ w := by
  unfold redistWrite at h
  repeat' (replace h := ite_eq_iff.mp h; rcases h with ⟨hr, h⟩ | ⟨-, h⟩)
  all_goals try contradiction
  all_goals obtain rfl := RedistWrite.store.inj h
  decide

end Cases

/-! ### Operations that leave the group registers alone -/

/-- The words of the group registers are as before. -/
abbrev GroupKept (s s' : Vmm φ) : Prop := ∀ w, irqGroup0 ≤ w → w < enableSet0 → s'.dist.word w = s.dist.word w

instance : Std.Refl (GroupKept (φ := φ)) := ⟨fun _ _ _ _ => rfl⟩

instance : IsTrans (Vmm φ) GroupKept := ⟨fun _ _ _ h h' w hlo hhi => (h' w hlo hhi).trans (h w hlo hhi)⟩

def Action.SparesGroup : Action φ → Prop
  | .store w _ _ => enableSet0 ≤ w
  | _ => True

section Kept

lemma groupKept_modifyVgic (f : Vgic φ → Vgic φ) : Within GroupKept (modifyVgic f : M φ Unit) :=
  within_modify fun _ _ _ _ => rfl

lemma groupKept_logEvent (e : Event φ) : Within GroupKept (logEvent e) := within_modify fun _ _ _ _ => rfl

lemma group_ne_bankWord {w0 w k : Nat} (hk : k < enableSet0) (h0 : enableSet0 ≤ w0) (hw : w0 ≤ w) (irq : Int) :
    k ≠ bankWord w0 w irq :=
  Nat.ne_of_lt (Nat.lt_of_lt_of_le hk (Nat.le_trans h0 (bankWord_ge hw irq)))

lemma groupKept_setPending (irq : Int) (b : Bool) (vcpu : VcpuId) :
    Within GroupKept (modifyDist fun d => setPending d irq b vcpu : M φ Unit) := by
  refine within_modify fun s w _ hw => ?_
  have hset : w ≠ bankWord pendingSet0 pendingSet irq := group_ne_bankWord hw (by decide) (by decide) irq
  have hclr : w ≠ bankWord pendingClr0 pendingClr irq := group_ne_bankWord hw (by decide) (by decide) irq
  change (setPending s.dist irq b vcpu).word w = _
  rw [setPending_eq, word_setMirrored hset hclr]

lemma groupKept_setEnable (irq : Int) (b : Bool) (vcpu : VcpuId) :
    Within GroupKept (modifyDist fun d => setEnable d irq b vcpu : M φ Unit) := by
  refine within_modify fun s w _ hw => ?_
  have hset : w ≠ bankWord enableSet0 enableSet irq := group_ne_bankWord hw (by decide) (by decide) irq
  have hclr : w ≠ bankWord enableClr0 enableClr irq := group_ne_bankWord hw (by decide) (by decide) irq
  change (setEnable s.dist irq b vcpu).word w = _
  rw [setEnable_eq, word_setMirrored hset hclr]

lemma groupKept_vgicInjectIrq (irq : Int) : Within GroupKept (vgicInjectIrq env vcpuId irq) :=
  within_vgicInjectIrq groupKept_modifyVgic (fun e _ _ => groupKept_logEvent e) groupKept_setPending vcpuId irq

lemma groupKept_ctlr {f : GicDistMap → GicDistMap} (hf : ∀ d, ∃ x, f d = d.set ctlr x) :
    Within GroupKept (modifyDist f : M φ Unit) := by
  refine within_modify fun s w hlo _ => ?_
  obtain ⟨x, hx⟩ := hf s.dist
  have hne : w ≠ ctlr := Nat.ne_of_gt (Nat.lt_of_lt_of_le (by decide) hlo)
  change (f s.dist).word w = _
  rw [hx, word_set, if_neg hne]

lemma groupKept_action (hstop : env.assertStops = true) {a : Action φ} (ha : a.SparesGroup) :
    Within GroupKept (a.run env) := by
  cases a with
  | register irq ackFn ackData =>
    refine within_bind (fun s => wp_mono (wp_vgicRegisterIrq hstop) (fun b t h => ?_) fun _ _ _ => trivial)
      fun _ => within_pure _
    rcases h with ⟨-, rfl⟩ | ⟨-, p, v, -, rfl⟩ <;> exact fun _ _ _ => rfl
  | inject irq => exact within_bind (groupKept_vgicInjectIrq irq) fun _ => within_pure _
  | notification irq =>
    exact within_bind (groupKept_logEvent _) fun _ => within_bind (groupKept_vgicInjectIrq irq) fun _ => within_pure _
  | vppiEvent irq =>
    refine within_bind (groupKept_logEvent _) fun _ => within_bind ?_ fun _ => within_pure _
    exact within_handleVppiEvent groupKept_vgicInjectIrq groupKept_logEvent irq
  | retire idx err =>
    refine within_bind ?_ fun _ => within_pure _
    exact within_vgicMaintenanceBody groupKept_modifyVgic (fun e _ _ => groupKept_logEvent e) groupKept_setPending
      (fun _ _ => groupKept_logEvent _) idx err
  | enable irq =>
    exact within_vgicDistEnableIrq groupKept_modifyVgic (fun e _ _ => groupKept_logEvent e) groupKept_setPending
      (fun _ _ => groupKept_logEvent _) (fun irq vcpu => groupKept_setEnable irq true vcpu) _ _
  | disable irq => exact within_ite (groupKept_setEnable irq false vcpuId) (within_pure _)
  | clearEnable irq => exact groupKept_setEnable irq false vcpuId
  | clrPending irq => exact groupKept_setPending irq false vcpuId
  | store w mask bits =>
    refine within_modify fun s w' _ hw' => ?_
    have hne : w' ≠ w := Nat.ne_of_lt (Nat.lt_of_lt_of_le hw' ha)
    change (s.dist.set w _).word w' = _
    rw [word_set, if_neg hne]
  | ctlr data =>
    refine within_ite (groupKept_ctlr fun d => ?_) (within_ite (groupKept_ctlr fun d => ?_) (within_pure _))
    · cases env.board.gic <;> exact ⟨_, rfl⟩
    · cases env.board.gic <;> exact ⟨_, rfl⟩
  | fail => exact within_cAssert _

lemma distWrite_of_store {g : GicVersion} {offset w : Nat} {addr fsr val : U64} {mask bits : U32}
    (h : .store w mask bits ∈ (distActions g offset addr fsr val : List (Action φ))) :
    distWrite g vcpuId offset = .store w := by
  unfold distActions at h
  cases hk : distWrite g vcpuId offset <;> simp [hk] at h
  rw [h.1]

lemma redistWrite_of_store {offset w : Nat} {addr fsr val : U64} {mask bits : U32}
    (h : .store w mask bits ∈ (redistActions offset addr fsr val : List (Action φ))) :
    redistWrite vcpuId offset = .store w := by
  unfold redistActions at h
  cases hk : redistWrite vcpuId offset <;> simp [hk] at h
  rw [h.1]

lemma sparesGroup_access {s : Vmm φ} {addr fsr : U64} (hgroup : ¬(AtGroup env addr ∧ faultIsWrite fsr = true))
    (hredist : faultIsWrite fsr = true →
      ¬(InRedist env addr ∧ range32 (addr - Board.gicRedistPaddr).toNat gicrIgroupr0 gicrIgroupr0 = true))
    {a : Action φ} (ha : a ∈ accessActions env s addr fsr) : a.SparesGroup := by
  cases a with
  | store w mask bits =>
    unfold accessActions at ha
    split_ifs at ha with hread hdist hin
    · exact absurd ha (by simp)
    · have hwrite := faultIsWrite_of_not_read hread
      exact distWrite_store_outside (distWrite_of_store ha) fun h => hgroup ⟨⟨hdist, h⟩, hwrite⟩
    · have hwrite := faultIsWrite_of_not_read hread
      exact redistWrite_store_outside (redistWrite_of_store ha) fun h => hredist hwrite ⟨hin, h⟩
    · exact absurd ha (by simp)
  | _ => trivial

lemma sparesGroup_opActions {s : Vmm φ} {op : Op φ} (hop : GroupAllowed env s op)
    (hgroup : ∀ addr fsr, op = .fault (.vmFault addr fsr) → ¬(AtGroup env addr ∧ faultIsWrite fsr = true))
    {a : Action φ} (ha : a ∈ opActions env s op) : a.SparesGroup := by
  cases op with
  | guest regs => exact absurd ha (by simp [opActions])
  | fault f =>
    cases f with
    | vmFault addr fsr => exact sparesGroup_access (hgroup _ _ rfl) (fun hwrite => (hop.2 hwrite).2) ha
    | vgicMaintenance idx err => obtain rfl := List.mem_singleton.mp ha; trivial
    | vppiEvent irq => obtain rfl := List.mem_singleton.mp ha; trivial
    | _ => exact absurd ha (by simp [opActions])
  | _ => obtain rfl := List.mem_singleton.mp ha; trivial

end Kept

/-! ### Stores -/

section Store

variable {addr fsr val : U64} {old : U32}

lemma laneReplaced_store (h : NaturalAccess addr fsr) :
    LaneReplaced old (old &&& ~~~(dataMask addr fsr).setWidth 32 |||
      ((val <<< laneShift addr) &&& dataMask addr fsr).setWidth 32) (addr.toNat % 4) (accessWidth fsr).bytes val := by
  have hle := lane_le h.ok h.width
  intro j hj
  have hmask : (dataMask addr fsr).getLsbD j = _ := getLsbD_dataMask (Nat.lt_trans hj (by decide))
  simp only [BitVec.getLsbD_or, BitVec.getLsbD_and, BitVec.getLsbD_not, BitVec.getLsbD_setWidth, hmask, hj, decide_true,
    Bool.true_and, BitVec.getLsbD_shiftLeft, laneShift_eq]
  have h64 : j < 64 := by omega
  split_ifs with hin
  · simp [hin, h64]
  · simp [hin]

variable {s : Vmm φ}

lemma accessActions_group (hgroup : AtGroup env addr) (hwrite : faultIsWrite fsr = true) :
    accessActions env s addr fsr = [.store (distOffset env addr / 4) ((dataMask addr fsr).setWidth 32)
      (((rtValue s.tcb fsr s.wzr <<< laneShift addr) &&& dataMask addr fsr).setWidth 32)] := by
  have hread : ¬faultIsRead fsr = true := by simp [faultIsRead, hwrite]
  have hstore : distWrite env.board.gic vcpuId (addr - env.board.gicDistPaddr).toNat = .store _ :=
    (group_cases hgroup.2).2
  rw [accessActions, if_neg hread, if_pos hgroup.1]
  unfold distActions
  dsimp only
  rw [hstore]

/-- The state behind the operation of a store. -/
def groupStored (env : Env φ) (s : Vmm φ) (addr fsr : U64) : Vmm φ :=
  { s with dist := s.dist.set (distOffset env addr / 4) (s.dist.word (distOffset env addr / 4) &&&
      ~~~(dataMask addr fsr).setWidth 32 |||
        ((rtValue s.tcb fsr s.wzr <<< laneShift addr) &&& dataMask addr fsr).setWidth 32) }

lemma distBytes_groupStored (hgroup : AtGroup env addr) (h : NaturalAccess addr fsr) :
    distBytes (groupStored env s addr fsr) =
      (distBytes s).store (distOffset env addr) (accessWidth fsr).bytes (rtValue s.tcb fsr s.wzr) := by
  have hlane : distOffset env addr % 4 = addr.toNat % 4 := lane_offset hgroup.1
  have hle := lane_le h.ok h.width
  refine ofWords_update (hlane ▸ hle) ?_
  rw [hlane]
  exact laneReplaced_store h

end Store

/-! ### Runs -/

section Runs

lemma group_reset (g : GicVersion) {w : Nat} (hw : irqGroup0 ≤ w ∧ w < enableSet0) :
    (vgicDistReset g ⟨fun _ => 0⟩).word w = 0 := by
  have hall : ∀ k : Fin 32, (vgicDistReset g ⟨fun _ => 0⟩).word (irqGroup0 + k) = 0 := by
    cases g <;> decide +kernel
  have hk := hall ⟨w - irqGroup0, by simp only [irqGroup0, enableSet0] at hw ⊢; omega⟩
  simp only [Nat.add_sub_cancel' hw.1] at hk
  exact hk

variable (hstop : env.assertStops = true) {s s' : Vmm φ} {mem : Memory} {op : Op φ}

lemma ShowsMemory.kept (h : ShowsMemory s mem) (hk : GroupKept s s') : ShowsMemory s' mem := by
  intro a hlo hhi
  have hword : s'.dist.word (a / 4) = s.dist.word (a / 4) := by
    refine hk _ ?_ ?_ <;> simp only [irqGroup0, enableSet0] <;> omega
  rw [← h a hlo hhi]
  exact ofWords_congr hword

lemma ShowsMemory.stored (h : ShowsMemory s mem) {m : Memory} {a n : Nat} {v : U64} (hm : distBytes s' = m.store a n v)
    (hs : m = distBytes s) : ShowsMemory s' (mem.store a n v) := by
  subst hs
  intro b hlo hhi
  rw [hm, Memory.store, Memory.store, h b hlo hhi]

lemma groupKept_of_frame (h : Frame s s') : GroupKept s s' := fun _ _ _ => by rw [h.dist]

include hstop

lemma showsMemory_step (h : ShowsMemory s mem) (hop : GroupAllowed env s op) :
    wp (step env op) (fun _ s' => ShowsMemory s' (storeGroup env mem s op s')) (fun _ _ => True) s := by
  by_cases hstore : ∃ addr fsr, op = .fault (.vmFault addr fsr) ∧ AtGroup env addr ∧ faultIsWrite fsr = true
  · obtain ⟨addr, fsr, rfl, hgroup, hwrite⟩ := hstore
    have hmem : ∀ t : Vmm φ, storeGroup env mem s (.fault (.vmFault addr fsr)) t =
        mem.store (distOffset env addr) (accessWidth fsr).bytes (rtValue s.tcb fsr s.wzr) :=
      fun _ => if_pos ⟨hgroup, hwrite⟩
    simp only [hmem]
    refine step_wp hstop (fun _ _ => trivial) ?_
    have hshows : ShowsMemory (groupStored env s addr fsr) _ :=
      h.stored (distBytes_groupStored hgroup ((hop.2 hwrite).1 hgroup)) rfl
    change wp (forM (accessActions env s addr fsr) (Action.run env)) _ _ s
    rw [accessActions_group hgroup hwrite]
    exact fun t ht => ⟨hshows.kept (groupKept_of_frame ht), trivial⟩
  · have hgroup : ∀ addr fsr, op = .fault (.vmFault addr fsr) → ¬(AtGroup env addr ∧ faultIsWrite fsr = true) :=
      fun addr fsr hf hg => hstore ⟨addr, fsr, hf, hg⟩
    have hmem : ∀ t : Vmm φ, storeGroup env mem s op t = mem := by
      intro t
      unfold storeGroup
      split
      · exact if_neg (hgroup _ _ rfl)
      · rfl
    simp only [hmem]
    refine step_wp hstop (fun _ _ => trivial) ?_
    refine wp_mono (within_forM (fun a ha => groupKept_action hstop (sparesGroup_opActions hop hgroup ha)) s)
      (fun _ t ht u hu => ⟨?_, trivial⟩) (fun _ _ _ => trivial)
    exact (h.kept ht).kept (groupKept_of_frame hu)

/-- The group registers show the bytes last stored to them. -/
theorem showsMemory_reachable (hs : GroupStores env s mem) : ShowsMemory s mem := by
  refine ReachWith.invariant (I := fun s mem => ShowsMemory s mem) ?_ (fun t m op t' _ h hop hrun => ?_) hs
  · rintro t ⟨tcb, rfl⟩ a hlo hhi
    have hword : (vgicInit env tcb).dist.word (a / 4) = 0 :=
      group_reset env.board.gic (by simp only [irqGroup0, enableSet0]; omega)
    rw [distBytes, ofWords, hword]
    exact BitVec.extractLsb'_zero
  · have hafter := wp_ok (showsMemory_step hstop h hop) hrun
    exact hafter

variable {addr fsr : U64} (hgroup : AtGroup env addr) (hnatural : NaturalAccess addr fsr)

include hgroup hnatural

/-- A load puts the bytes addressed into the low bytes of its destination. -/
lemma group_load (htcb : TcbAccepts env) (hread : faultIsRead fsr = true) {n : Fin 31}
    (hrt : (hsrSyndromeRt fsr).toNat = n) : ∃ s', handleFault env (.vmFault addr fsr) s = .ok true s' ∧
      ∀ k < (accessWidth fsr).bytes, (s'.tcb.x.get n).extractLsb' (8 * k) 8 = distBytes s (distOffset env addr + k) := by
  have hlane : distOffset env addr % 4 = addr.toNat % 4 := lane_offset hgroup.1
  have hle := lane_le hnatural.ok hnatural.width
  have hreg : distValue env.board.gic s.dist (addr - env.board.gicDistPaddr).toNat =
      some (s.dist.word (distOffset env addr / 4)) := by
    have hcase : distRead env.board.gic vcpuId (addr - env.board.gicDistPaddr).toNat = .word _ := (group_cases hgroup.2).1
    rw [distValue, hcase]
  obtain ⟨s', hrun, hx⟩ := handleFault_load hstop htcb hgroup.1 hread hnatural.ok hrt hreg
  rw [emulatedRead_eq hnatural.ok hnatural.width] at hx
  refine ⟨s', hrun, fun k hk => extractLsb'_lane (n := (accessWidth fsr).bytes) (by omega) hk fun j hj => ?_⟩
  rw [hx, BitVec.getLsbD_or, BitVec.getLsbD_and, BitVec.getLsbD_not, getLsbD_mask, getLsbD_zeroExtendedLane (by omega),
    decide_eq_true hj, hlane]
  simp

/-- A store that ends has stored the low bytes of its source, and nothing else. -/
lemma group_store (hwrite : faultIsWrite fsr = true) {b : Bool} (hrun : handleFault env (.vmFault addr fsr) s = .ok b s') :
    distBytes s' = (distBytes s).store (distOffset env addr) (accessWidth fsr).bytes (rtValue s.tcb fsr s.wzr) := by
  have hread : ¬faultIsRead fsr = true := by simp [faultIsRead, hwrite]
  have hwp : wp (handleVmFault env addr fsr) (fun _ t => distBytes t = distBytes (groupStored env s addr fsr))
      (fun _ _ => True) s := by
    refine wp_vmFault hstop (fun _ _ _ => trivial) (fun h => absurd h hread) fun _ => ?_
    rw [accessActions_group hgroup hwrite]
    exact ⟨rfl, fun _ _ _ => trivial⟩
  exact (wp_ok hwp hrun).trans (distBytes_groupStored hgroup hnatural)

end Runs

/-- After any history of stores to the group registers and other accesses, a load delivers the bytes most recently
stored, and a store changes no byte of the register map but those addressed. -/
theorem groups_are_memory (hstop : env.assertStops = true) (htcb : TcbAccepts env) {s : Vmm φ} {mem : Memory}
    (hs : GroupStores env s mem) {addr fsr : U64} (hgroup : AtGroup env addr) (hnatural : NaturalAccess addr fsr) :
    (faultIsRead fsr = true → ∀ n : Fin 31, (hsrSyndromeRt fsr).toNat = n →
      ∃ s', handleFault env (.vmFault addr fsr) s = .ok true s' ∧ ∀ k < (accessWidth fsr).bytes,
        (s'.tcb.x.get n).extractLsb' (8 * k) 8 = mem (distOffset env addr + k)) ∧
    (faultIsWrite fsr = true → ∀ b s', handleFault env (.vmFault addr fsr) s = .ok b s' →
      ∀ a, ¬(distOffset env addr ≤ a ∧ a < distOffset env addr + (accessWidth fsr).bytes) →
        distBytes s' a = distBytes s a) := by
  have hshows := showsMemory_reachable hstop hs
  have hle := lane_le hnatural.ok hnatural.width
  have hlane : distOffset env addr % 4 = addr.toNat % 4 := lane_offset hgroup.1
  have hrange := hgroup.2
  constructor
  · intro hread n hrt
    obtain ⟨s', hrun, hbytes⟩ := group_load hstop hgroup hnatural htcb hread hrt
    refine ⟨s', hrun, fun k hk => ?_⟩
    rw [hbytes k hk, hshows _ (by omega) (by omega)]
  · intro hwrite b s' hrun a ha
    rw [group_store hstop hgroup hnatural hwrite hrun]
    exact store_of_not_mem ha

/-- The syndromes of a halfword store from `x0` and of a byte load into `x1`. -/
def storeHalfword : U64 := (1 <<< 24) ||| (1 <<< 22) ||| (1 <<< 6)
def loadByteX1 : U64 := (1 <<< 24) ||| (1 <<< 16)

/-- The upper byte of a halfword stored to `IGROUPR0` is loaded again. -/
theorem groups_are_memory_halfword : ∃ (s s' : Vmm VmmAckFn) (mem : Memory),
    GroupStores (vmmEnv .qemuArmVirtHyp) s mem ∧ mem 0x83 = 0xBE ∧
    handleFault (vmmEnv .qemuArmVirtHyp) (.vmFault 0x8000083 loadByteX1) s = .ok true s' ∧
    (s'.tcb.x.get 1).extractLsb' (8 * 0) 8 = 0xBE := by
  have hinit : GroupStores (vmmEnv .qemuArmVirtHyp) (vgicInit (vmmEnv .qemuArmVirtHyp) (.filled 0xBEEF)) _ :=
    .init ⟨_, rfl⟩
  have hallowed : GroupAllowed (vmmEnv .qemuArmVirtHyp) (vgicInit (vmmEnv .qemuArmVirtHyp) (.filled 0xBEEF))
      (.fault (.vmFault 0x8000082 storeHalfword)) :=
    ⟨by decide +kernel, fun _ => ⟨fun _ => ⟨⟨by decide, by decide⟩, by decide⟩, by decide⟩⟩
  have hs := hinit.step (.fault (.vmFault 0x8000082 storeHalfword)) hallowed rfl
  have hload := @groups_are_memory _ _ rfl (vmmEnv_tcb _) _ _ hs 0x8000083 loadByteX1 (by decide)
    ⟨⟨by decide, by decide⟩, by decide⟩
  obtain ⟨s', hrun, hbytes⟩ := hload.1 (by decide) 1 (by decide)
  refine ⟨_, s', _, hs, by decide +kernel, hrun, ?_⟩
  rw [hbytes 0 (by decide)]
  decide +kernel

end Sel4cpVmm
