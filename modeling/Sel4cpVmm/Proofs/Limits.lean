import Sel4cpVmm.Proofs.Operations

/-!
# The initial state and the numbers of an access

What `vgic_init` leaves in the tables and bitmaps, and which interrupt numbers and which words of the
register map the operations of a step can name.
-/

namespace Sel4cpVmm

open StopProgram GicDistMap

variable {φ : Type} {env : Env φ}

/-! ### The initial state -/

section Init

lemma lr_init (k : Fin numListRegs) : (Vgic.init : Vgic φ).lr k = .invalid := by
  simp [Vgic.lr, Vgic.init, Vgic.getVgicVcpu, VgicVcpu.init]

lemma live_init : (Vgic.init : Vgic φ).queue.live = [] := rfl

lemma deref_init (p : VirqPtr) : (Vgic.init : Vgic φ).deref p = .invalid := by
  cases p <;> simp [Vgic.deref, Vgic.init, Vgic.getVgicVcpu, VgicVcpu.init]

lemma view_init : (Vgic.init : Vgic φ).view = ⟨fun _ => none, []⟩ := by
  simp [Vgic.view, lr_init, live_init]

lemma wf_init : (Vgic.init : Vgic φ).Wf where
  queue := ⟨Nat.zero_lt_succ 63, Nat.zero_lt_succ 63⟩
  live := by simp [live_init]
  sgiPpi i := .inl (by rw [deref_init]; rfl)
  spi i := .inl (by rw [deref_init]; rfl)

lemma word_setAll {l : List (Nat × U32)} {lo hi w : Nat} (h : ∀ p ∈ l, p.1 < lo ∨ hi ≤ p.1) (hw : lo ≤ w ∧ w < hi)
    (d : GicDistMap) : (d.setAll l).word w = d.word w := by
  induction l generalizing d with
  | nil => rfl
  | cons p l ih =>
    have hp : w ≠ p.1 := by
      have hout := h p (by simp)
      omega
    have hl := ih (fun q hq => h q (by simp [hq])) (d.set p.1 p.2)
    change ((d.set p.1 p.2).setAll l).word w = _
    rw [hl, word_set, if_neg hp]

lemma word_orTargets {w : Nat} {l : List Nat} (h : ∀ j ∈ l, w ≠ targets0 + j) (d : GicDistMap) :
    (l.foldl (fun d j => (List.range 4).foldl (fun d irq =>
      d.orWord (targets0 + j) ((1 <<< 0) <<< (irq * 8))) d) d).word w = d.word w := by
  have hbytes : ∀ j, w ≠ targets0 + j → ∀ (bytes : List Nat) (d : GicDistMap),
      (bytes.foldl (fun d irq => d.orWord (targets0 + j) ((1 <<< 0) <<< (irq * 8))) d).word w = d.word w := by
    intro j hne bytes
    induction bytes with
    | nil => exact fun _ => rfl
    | cons irq bytes ih =>
      intro d
      rw [List.foldl_cons, ih, orWord, word_set, if_neg hne]
  induction l generalizing d with
  | nil => rfl
  | cons j l ih =>
    rw [List.foldl_cons, ih fun i hi => h i (List.mem_cons_of_mem _ hi), hbytes j (h j List.mem_cons_self)]

/-- A reset leaves the words from the pending bits up to the priorities alone. -/
lemma word_vgicDistReset (g : GicVersion) (d : GicDistMap) {w : Nat} (h : pendingSet0 ≤ w ∧ w < priority0) :
    (vgicDistReset g d).word w = d.word w := by
  cases g with
  | v3 => exact word_setAll (by decide) h d
  | v2 =>
    have htargets : ∀ j ∈ List.range 8, w ≠ targets0 + j := by
      intro j _
      have hlt := h.2
      simp only [priority0, targets0] at hlt ⊢
      omega
    unfold vgicDistReset vgicDistResetV2
    dsimp only
    rw [word_setAll (by decide) h, word_setAll (by decide +kernel) h, word_orTargets htargets, word_setAll (by decide) h,
      word_setAll (by decide) h]

/-- Nor does a reset write to the SPI status registers of GICv2 or to the routing registers of GICv3. -/
lemma word_vgicDistReset_tail (g : GicVersion) (d : GicDistMap) {w : Nat}
    (h : match g with
      | .v2 => spi ≤ w ∧ w < periphId
      | .v3 => irouter ≤ w ∧ w < pidrn) : (vgicDistReset g d).word w = d.word w := by
  cases g with
  | v3 => exact word_setAll (by decide) h d
  | v2 =>
    have htargets : ∀ j ∈ List.range 8, w ≠ targets0 + j := by
      intro j hj
      have hlt := List.mem_range.mp hj
      have hge := h.1
      simp only [spi, targets0] at hge ⊢
      omega
    unfold vgicDistReset vgicDistResetV2
    dsimp only
    rw [word_setAll (by decide) h, word_setAll (by decide +kernel) h, word_orTargets htargets, word_setAll (by decide +kernel) h,
      word_setAll (by decide) h]

/-- No interrupt that a write-one access can name is pending after the reset. -/
lemma isPending_reset (tcb : UserContext) {i : Int} (hi : 0 ≤ i ∧ i < 1056) :
    isPending (vgicInit env tcb).dist i vcpuId = false := by
  have hw : pendingSet0 ≤ bankWord pendingSet0 pendingSet i ∧ bankWord pendingSet0 pendingSet i < priority0 := by
    simp only [bankWord, irqIdx, pendingSet0, pendingSet, priority0]
    split_ifs <;> omega
  rw [isPending_eq, testIrq_eq]
  change ((vgicDistReset env.board.gic ⟨fun _ => 0⟩).word _).getLsbD _ = false
  rw [word_vgicDistReset _ _ hw]
  simp

lemma isPending_init (tcb : UserContext) {i : Int} (hi : 0 ≤ i ∧ i < irqLimit) :
    isPending (vgicInit env tcb).dist i vcpuId = false :=
  isPending_reset tcb ⟨hi.1, Int.lt_trans hi.2 (by decide)⟩

end Init

/-! ### The numbers and words of an operation -/

section Numbers

/-- The word belongs to the group or the active bits. -/
def IsPlainWord (w : Nat) : Prop := (irqGroup0 ≤ w ∧ w < enableSet0) ∨ (active0 ≤ w ∧ w < priority0)

/-- The bits an operation writes are of numbers below `m`, and it stores into no word of the enable and
pending bits. -/
def Action.Bits (m : Int) : Action φ → Prop
  | .enable irq => 0 ≤ irq ∧ irq < m
  | .disable irq => 0 ≤ irq ∧ irq < m
  | .clearEnable irq => 0 ≤ irq ∧ irq < m
  | .clrPending irq => 0 ≤ irq ∧ irq < m
  | .store w _ _ => IsPlainWord w
  | _ => True

/-- Every interrupt number an operation names is below `m`. -/
def Action.Below (m : Int) : Action φ → Prop
  | .register irq _ _ => irq < m
  | .inject irq => irq < m
  | .notification irq => irq < m
  | .vppiEvent irq => cInt irq < m
  | .enable irq => 0 ≤ irq ∧ irq < m
  | .disable irq => 0 ≤ irq ∧ irq < m
  | .clearEnable irq => 0 ≤ irq ∧ irq < m
  | .clrPending irq => 0 ≤ irq ∧ irq < m
  | .store w _ _ => IsPlainWord w
  | _ => True

lemma Action.Below.bits {m : Int} {a : Action φ} (h : a.Below m) : a.Bits m := by
  cases a with
  | register irq ackFn ackData => trivial
  | inject irq => trivial
  | notification irq => trivial
  | vppiEvent irq => trivial
  | _ => exact h

lemma IsPlainWord.lt {w : Nat} (h : IsPlainWord w) : w < priority0 := by
  rcases h with h | h
  · exact Nat.lt_trans h.2 (by decide)
  · exact h.2

lemma distWrite_store {g : GicVersion} {offset w : Nat} (h : distWrite g vcpuId offset = .store w) :
    IsPlainWord w := by
  have hword : ∀ w0 r, range32 offset r (r + 120) = true → w0 + gicDistRegn offset r ≤ w0 + 30 := by
    intro w0 r hr
    simp only [range32, gicDistRegn, Bool.and_eq_true, decide_eq_true_eq] at hr ⊢
    omega
  unfold distWrite at h
  -- every case but the six stores has another constructor
  repeat' (replace h := ite_eq_iff.mp h; rcases h with ⟨hr, h⟩ | ⟨-, h⟩)
  all_goals try contradiction
  all_goals obtain rfl := DistWrite.store.inj h
  · exact .inl (by decide)
  · exact .inl (by have := hword irqGroup _ hr; simp only [irqGroup0, irqGroup, enableSet0] at *; omega)
  · exact .inr (by decide)
  · exact .inr (by have := hword active _ hr; simp only [active0, active, priority0] at *; omega)
  · exact .inr (by decide)
  · exact .inr (by have := hword activeClr _ hr; simp only [active0, activeClr, priority0] at *; omega)

lemma redistWrite_store {offset w : Nat} (h : redistWrite vcpuId offset = .store w) : IsPlainWord w := by
  unfold redistWrite at h
  split_ifs at h
  · obtain rfl := RedistWrite.store.inj h
    exact .inl (by decide)
  · obtain rfl := RedistWrite.store.inj h
    exact .inr (by decide)

lemma sgirVirq_lt (data : U32) : 0 ≤ sgirVirq data ∧ sgirVirq data < 16 := by
  have hle : (data &&& 0xF).toNat ≤ 15 := by
    rw [BitVec.toNat_and]
    exact Nat.and_le_right
  unfold sgirVirq
  omega

lemma nonneg_of_mem_writeIrqs {g : GicVersion} {offset : Nat} {data : U32} {i : Int}
    (h : i ∈ writeIrqs g offset data) : 0 ≤ i := by
  unfold writeIrqs at h
  split at h
  · obtain ⟨k, -, rfl⟩ := List.mem_map.mp h
    omega
  · simp at h

lemma distWrite_writeOne {g : GicVersion} {offset base : Nat}
    (h : (distWrite g vcpuId offset).writeOneBase = some base) : base ≤ offset ∧ offset ≤ base + 127 := by
  generalize hk : distWrite g vcpuId offset = k at h
  unfold distWrite at hk
  -- every case but the four ranges has no base
  repeat' (replace hk := ite_eq_iff.mp hk; rcases hk with ⟨hr, hk⟩ | ⟨-, hk⟩)
  all_goals subst hk
  all_goals try contradiction
  all_goals
    obtain rfl := Option.some.inj h
    simp only [range32, Bool.and_eq_true, decide_eq_true_eq] at hr ⊢
    omega

lemma writeIrqs_lt {g : GicVersion} {offset : Nat} {data : U32} {i : Int} (h : i ∈ writeIrqs g offset data) :
    i < 1056 := by
  unfold writeIrqs at h
  split at h
  · rename_i base hbase
    obtain ⟨k, hk, rfl⟩ := List.mem_map.mp h
    have hlt := BitVec.lt_of_getLsbD (WordBits.mem_bits.mp hk)
    have hrange := distWrite_writeOne hbase
    omega
  · simp at h

lemma accessIrqs_lt {s : Vmm φ} {addr fsr : U64} : ∀ i ∈ accessIrqs env s addr fsr, i < 1056 := by
  intro i hi
  unfold accessIrqs at hi
  split_ifs at hi
  · exact writeIrqs_lt hi
  · simp at hi

lemma below_distActions {g : GicVersion} {offset : Nat} {addr fsr val : U64} {a : Action φ} {m : Int} (hm : 32 ≤ m)
    (h : ∀ i ∈ writeIrqs g offset (val.setWidth 32 &&& (dataMask addr fsr).setWidth 32), i < m)
    (ha : a ∈ distActions g offset addr fsr val) : a.Below m := by
  have hirq : ∀ i ∈ writeIrqs g offset (val.setWidth 32 &&& (dataMask addr fsr).setWidth 32), 0 ≤ i ∧ i < m := fun i hi => ⟨nonneg_of_mem_writeIrqs hi, h i hi⟩
  unfold distActions at ha
  dsimp only at ha
  split at ha
  · obtain rfl := List.mem_singleton.mp ha
    trivial
  · simp at ha
  · rename_i w hk
    obtain rfl := List.mem_singleton.mp ha
    exact distWrite_store hk
  · obtain ⟨i, hi, rfl⟩ := List.mem_map.mp ha
    exact hirq i hi
  · obtain ⟨i, hi, rfl⟩ := List.mem_map.mp ha
    exact hirq i hi
  · obtain ⟨i, hi, rfl⟩ := List.mem_map.mp ha
    exact (hirq i hi).2
  · obtain ⟨i, hi, rfl⟩ := List.mem_map.mp ha
    exact hirq i hi
  · obtain ⟨_, -, rfl⟩ := List.mem_map.mp ha
    have hlt := (sgirVirq_lt (val.setWidth 32)).2
    change sgirVirq _ < m
    omega
  · obtain rfl := List.mem_singleton.mp ha
    trivial
  · simp at ha

lemma below_redistActions {offset : Nat} {addr fsr val : U64} {a : Action φ} {m : Int} (hm : 32 ≤ m)
    (ha : a ∈ redistActions offset addr fsr val) : a.Below m := by
  have hirq : ∀ i ∈ (WordBits.bits (val.setWidth 32 &&& (dataMask addr fsr).setWidth 32)).map Int.ofNat,
      0 ≤ i ∧ i < m := by
    intro i hi
    obtain ⟨k, hk, rfl⟩ := List.mem_map.mp hi
    have hlt := BitVec.lt_of_getLsbD (WordBits.mem_bits.mp hk)
    simp only [Int.ofNat_eq_natCast]
    omega
  unfold redistActions at ha
  dsimp only at ha
  split at ha
  · simp at ha
  · rename_i w hk
    obtain rfl := List.mem_singleton.mp ha
    exact redistWrite_store hk
  · obtain ⟨i, hi, rfl⟩ := List.mem_map.mp ha
    exact hirq i hi
  · obtain ⟨i, hi, rfl⟩ := List.mem_map.mp ha
    exact hirq i hi
  · simp at ha

lemma below_accessActions {s : Vmm φ} {addr fsr : U64} {a : Action φ} {m : Int} (hm : 32 ≤ m)
    (h : ∀ i ∈ accessIrqs env s addr fsr, i < m) (ha : a ∈ accessActions env s addr fsr) : a.Below m := by
  unfold accessActions at ha
  split_ifs at ha with hread hdist hredist
  · simp at ha
  · refine below_distActions hm (fun i hi => h i ?_) ha
    rw [accessIrqs, if_pos (faultIsWrite_of_not_read hread)]
    exact hi
  · exact below_redistActions hm ha
  · simp at ha

lemma below_opActions {s : Vmm φ} {op : Op φ} {a : Action φ} (h : BelowLimit env s op)
    (ha : a ∈ opActions env s op) : a.Below irqLimit := by
  cases op with
  | registerIrq irq ackFn ackData => obtain rfl := List.mem_singleton.mp ha; exact h
  | injectIrq irq => obtain rfl := List.mem_singleton.mp ha; exact h
  | notification irq => obtain rfl := List.mem_singleton.mp ha; exact h
  | guest regs => simp [opActions] at ha
  | retire idx => obtain rfl := List.mem_singleton.mp ha; trivial
  | fault f =>
    cases f with
    | vmFault addr fsr => exact below_accessActions (by decide) h ha
    | unknownSyscall syscall => simp [opActions] at ha
    | userException => simp [opActions] at ha
    | vcpuFault hsr => simp [opActions] at ha
    | vgicMaintenance idx err => obtain rfl := List.mem_singleton.mp ha; trivial
    | vppiEvent irq => obtain rfl := List.mem_singleton.mp ha; exact h

/-- No operation of a step writes the bits of a number from 1056 on. -/
lemma bits_opActions {s : Vmm φ} {op : Op φ} {a : Action φ} (ha : a ∈ opActions env s op) : a.Bits 1056 := by
  cases op with
  | guest regs => simp [opActions] at ha
  | fault f =>
    cases f with
    | vmFault addr fsr => exact (below_accessActions (by decide) accessIrqs_lt ha).bits
    | vgicMaintenance idx err => obtain rfl := List.mem_singleton.mp ha; trivial
    | vppiEvent irq => obtain rfl := List.mem_singleton.mp ha; trivial
    | _ => simp [opActions] at ha
  | _ => obtain rfl := List.mem_singleton.mp ha; trivial

lemma distWrite_of_clrPending {g : GicVersion} {offset : Nat} {addr fsr val : U64} {irq : Int}
    (h : .clrPending irq ∈ (distActions g offset addr fsr val : List (Action φ))) :
    distWrite g vcpuId offset = .icpendr := by
  unfold distActions at h
  cases hk : distWrite g vcpuId offset <;> simp [hk] at h
  rfl

lemma clrPending_not_mem_redistActions {offset : Nat} {addr fsr val : U64} {irq : Int} :
    .clrPending irq ∉ (redistActions offset addr fsr val : List (Action φ)) := by
  unfold redistActions
  cases redistWrite vcpuId offset <;> simp

lemma clearEnable_not_mem_distActions {g : GicVersion} {offset : Nat} {addr fsr val : U64} {irq : Int} :
    .clearEnable irq ∉ (distActions g offset addr fsr val : List (Action φ)) := by
  unfold distActions
  cases distWrite g vcpuId offset <;> simp

lemma lt_of_clearEnable {offset : Nat} {addr fsr val : U64} {irq : Int}
    (h : .clearEnable irq ∈ (redistActions offset addr fsr val : List (Action φ))) :
    0 ≤ irq ∧ irq < (numVcpuLocalVirqs : Int) := by
  unfold redistActions at h
  cases hk : redistWrite vcpuId offset <;> simp [hk] at h
  obtain ⟨k, hmem, rfl⟩ := h
  have hlt := BitVec.lt_of_getLsbD (WordBits.mem_bits.mp hmem)
  simp only [numVcpuLocalVirqs]
  omega

lemma clearEnable_mem {s : Vmm φ} {op : Op φ} {irq : Int} (h : .clearEnable irq ∈ opActions env s op) :
    env.board.gic = .v3 ∧ 0 ≤ irq ∧ irq < (numVcpuLocalVirqs : Int) := by
  cases op with
  | fault f =>
    cases f with
    | vmFault addr fsr =>
      change _ ∈ accessActions env s addr fsr at h
      unfold accessActions at h
      split_ifs at h with hread hdist hredist
      · simp at h
      · exact absurd h clearEnable_not_mem_distActions
      · exact ⟨hredist.1, lt_of_clearEnable h⟩
      · simp at h
    | _ => simp [opActions] at h
  | _ => simp [opActions] at h

lemma writesIcpendr_of_clrPending {s : Vmm φ} {addr fsr : U64} {irq : Int}
    (h : .clrPending irq ∈ accessActions env s addr fsr) : WritesDist env (fun w => w = .icpendr) addr fsr := by
  unfold accessActions at h
  split_ifs at h with hread hdist hredist
  · simp at h
  · exact ⟨faultIsWrite_of_not_read hread, distWrite_of_clrPending h⟩
  · exact absurd h clrPending_not_mem_redistActions
  · simp at h

/-- The operations a trapped access can consist of. -/
def Action.IsAccess : Action φ → Prop
  | .register _ _ _ => False
  | .notification _ => False
  | .vppiEvent _ => False
  | .retire _ _ => False
  | _ => True

lemma isAccess_of_mem {s : Vmm φ} {addr fsr : U64} {a : Action φ} (ha : a ∈ accessActions env s addr fsr) :
    a.IsAccess := by
  unfold accessActions distActions redistActions at ha
  split_ifs at ha
  · simp at ha
  · cases hk : distWrite env.board.gic vcpuId (addr - env.board.gicDistPaddr).toNat <;>
      simp only [hk, List.mem_map, List.mem_singleton, List.not_mem_nil] at ha <;>
      first
        | exact ha.elim
        | (subst ha; trivial)
        | (obtain ⟨_, _, rfl⟩ := ha; trivial)
  · cases hk : redistWrite vcpuId (addr - Board.gicRedistPaddr).toNat <;>
      simp only [hk, List.mem_map, List.mem_singleton, List.not_mem_nil] at ha <;>
      first
        | exact ha.elim
        | (subst ha; trivial)
        | (obtain ⟨_, _, rfl⟩ := ha; trivial)
  · simp at ha

lemma op_of_register {s : Vmm φ} {op : Op φ} {irq : Int} {fn : Option φ} {data : VoidPtr}
    (h : .register irq fn data ∈ opActions env s op) : op = .registerIrq irq fn data := by
  cases op with
  | registerIrq i f d =>
    obtain ⟨rfl, rfl, rfl⟩ := Action.register.inj (List.mem_singleton.mp h)
    rfl
  | fault f =>
    cases f with
    | vmFault addr fsr => exact False.elim (isAccess_of_mem h)
    | _ => simp [opActions] at h
  | _ => simp [opActions] at h

lemma op_of_notification {s : Vmm φ} {op : Op φ} {irq : Int} (h : .notification irq ∈ opActions env s op) :
    op = .notification irq := by
  cases op with
  | notification i =>
    obtain rfl := Action.notification.inj (List.mem_singleton.mp h)
    rfl
  | fault f =>
    cases f with
    | vmFault addr fsr => exact False.elim (isAccess_of_mem h)
    | _ => simp [opActions] at h
  | _ => simp [opActions] at h

/-- The operation is a maintenance event. -/
def Op.isMaintenance : Op φ → Bool
  | .retire _ => true
  | .fault (.vgicMaintenance _ _) => true
  | _ => false

lemma opActions_of_isMaintenance {op : Op φ} (h : op.isMaintenance = true) :
    ∃ idx err, opActions env s op = [.retire idx err] := by
  cases op with
  | retire idx => exact ⟨idx, 0, rfl⟩
  | fault f =>
    cases f with
    | vgicMaintenance idx err => exact ⟨cInt idx, err, rfl⟩
    | _ => exact absurd h (by simp [Op.isMaintenance])
  | _ => exact absurd h (by simp [Op.isMaintenance])

lemma isMaintenance_of_retire {op : Op φ} {idx err : Int} (h : .retire idx err ∈ opActions env s op) :
    op.isMaintenance = true := by
  cases op with
  | retire idx => rfl
  | fault f =>
    cases f with
    | vgicMaintenance idx err => rfl
    | vmFault addr fsr => exact False.elim (isAccess_of_mem h)
    | _ => simp [opActions] at h
  | _ => simp [opActions] at h

end Numbers

end Sel4cpVmm
