import Sel4cpVmm.Proofs.BitmapWrites
import Sel4cpVmm.Proofs.DistRuns
import Sel4cpVmm.Proofs.Loads

/-!
# The active registers

The set-enable and clear-enable registers change two bitmaps together, bit by bit. The set-active and clear-active
registers are two arrays that are stored to like memory.
-/

namespace Sel4cpVmm

open StopProgram GicDistMap

variable {φ : Type} {env : Env φ}

/-- The two registers that should show the active bits. -/
inductive ActiveRegister
  | isactiver
  | icactiver
  deriving DecidableEq

namespace ActiveRegister

def offset (r : ActiveRegister) (n : Nat) : Nat :=
  match r with
  | isactiver => gicDistIsactiver0 + 4 * n
  | icactiver => gicDistIcactiver0 + 4 * n

def word (r : ActiveRegister) (n : Nat) : Nat :=
  match r with
  | isactiver => active0 + n
  | icactiver => activeClr0 + n

/-- What a write of the ones in `d` should make of the bits `v`. -/
def writeOne (r : ActiveRegister) (v d : U32) : U32 :=
  match r with
  | isactiver => v ||| d
  | icactiver => v &&& ~~~d

end ActiveRegister

/-- A word store of `d` to register `n`, from whatever register of the guest, ends in `s'`. -/
def StoresActive (env : Env φ) (s : Vmm φ) (r : ActiveRegister) (n : Nat) (d : U32) (s' : Vmm φ) : Prop :=
  ∃ regs fsr, IsWordAccess fsr ∧ faultIsWrite fsr = true ∧ storedWord s fsr regs = d ∧
    handleFault env (.vmFault (env.board.gicDistPaddr + BitVec.ofNat 64 (r.offset n)) fsr) { s with tcb := regs } =
      .ok true s'

/-- Both registers `n` read the same, a store of `d` to one of them sets or clears the ones of `d` in both, and
the other registers are read as before. -/
structure WriteOneMirrored (env : Env φ) (s : Vmm φ) (n : Nat) (d : U32) : Prop where
  mirror : ∃ v, ∀ r : ActiveRegister, WordReads env s (r.offset n) v
  write : ∀ r s', StoresActive env s r n d s' → ∀ v, (∀ q : ActiveRegister, WordReads env s (q.offset n) v) →
    ∀ q : ActiveRegister, WordReads env s' (q.offset n) (r.writeOne v d)
  other : ∀ r s', StoresActive env s r n d s' → ∀ (q : ActiveRegister) m v, m < 32 → m ≠ n →
    WordReads env s (q.offset m) v → WordReads env s' (q.offset m) v

/-! ### Reads and stores -/

namespace ActiveRegister

variable {r q : ActiveRegister} {n m : Nat}

lemma offset_lt (hn : n < 32) : r.offset n < 0x1000 ∧ r.offset n % 4 = 0 := by
  cases r <;> simp only [offset, gicDistIsactiver0, gicDistIcactiver0] <;> omega

lemma cases_offset (g : GicVersion) (hn : n < 32) :
    distRead g vcpuId (r.offset n) = .word (r.word n) ∧ distWrite g vcpuId (r.offset n) = .store (r.word n) := by
  have hall : ∀ n : Fin 32, distRead g vcpuId (r.offset n) = .word (r.word n) ∧
      distWrite g vcpuId (r.offset n) = .store (r.word n) := by
    cases r <;> cases g <;> decide +kernel
  exact hall ⟨n, hn⟩

lemma word_inj (hn : n < 32) (hm : m < 32) (h : q.word m = r.word n) : q = r ∧ m = n := by
  cases q <;> cases r <;> simp only [word, active0, activeClr0] at h <;> simp <;> omega

end ActiveRegister

section Access

variable (hstop : env.assertStops = true) (htcb : TcbAccepts env) {s s' : Vmm φ} {r q : ActiveRegister} {n m : Nat} {d v : U32}

include hstop htcb

lemma wordReads_active (hn : n < 32) : WordReads env s (r.offset n) v ↔ v = s.dist.word (r.word n) :=
  wordReads_word hstop htcb (ActiveRegister.offset_lt hn).1 (ActiveRegister.offset_lt hn).2
    (ActiveRegister.cases_offset _ hn).1

lemma wp_storesActive (hn : n < 32) {fsr : U64} (hword : IsWordAccess fsr) (hwrite : faultIsWrite fsr = true)
    (regs : UserContext) :
    wp (handleVmFault env (env.board.gicDistPaddr + BitVec.ofNat 64 (r.offset n)) fsr)
      (fun b t => b = true ∧ t.dist = s.dist.set (r.word n) (storedWord s fsr regs)) (fun _ _ => False)
      { s with tcb := regs } := by
  obtain ⟨hlt, h4⟩ := ActiveRegister.offset_lt (r := r) hn
  have haligned := aligned_firstPage hlt env.board h4
  have hin : InDist env (env.board.gicDistPaddr + BitVec.ofNat 64 (r.offset n)) := inDist_of_lt hlt
  have hread : ¬faultIsRead fsr = true := by simp [faultIsRead, hwrite]
  have hmask : ∀ old x : U32, old &&& ~~~(0xffffffff : U64).setWidth 32 ||| x = x := by
    intro old x
    have hones : ~~~(0xffffffff : U64).setWidth 32 = (0 : U32) := by decide
    rw [hones]
    simp
  refine wp_vmFault hstop (fun h => absurd ⟨htcb, hword.ok haligned, hin⟩ h) (fun h => absurd h hread) fun _ => ?_
  rw [accessActions, if_neg hread, if_pos hin, sub_firstPage hlt]
  unfold distActions
  dsimp only
  rw [(ActiveRegister.cases_offset _ hn).2, hword.dataMask haligned, laneShift_of_aligned haligned]
  refine ⟨⟨rfl, ?_⟩, fun h => absurd htcb h⟩
  change s.dist.set _ _ = _
  rw [hmask, setWidth_word]
  rfl

lemma StoresActive.dist (hn : n < 32) (h : StoresActive env s r n d s') : s'.dist = s.dist.set (r.word n) d := by
  obtain ⟨regs, fsr, hword, hwrite, rfl, hrun⟩ := h
  have hafter := wp_ok (wp_storesActive hstop htcb hn hword hwrite regs) hrun
  exact hafter.2

lemma exists_storesActive (hn : n < 32) : ∃ s', StoresActive env s r n d s' := by
  have hword : IsWordAccess storeWord := ⟨by decide, by decide⟩
  obtain ⟨b, s', hrun, rfl, -⟩ := ok_of_wp (wp_storesActive (r := r) (s := s) hstop htcb hn hword (by decide)
    (.filled (d.setWidth 64)))
  exact ⟨s', _, storeWord, hword, by decide, storedWord_filled s d, hrun⟩

/-- The two arrays look like one bitmap exactly where no bit is set and none is stored. -/
lemma writeOneMirrored_iff (hn : n < 32) : WriteOneMirrored env s n d ↔
    s.dist.word (active0 + n) = 0 ∧ s.dist.word (activeClr0 + n) = 0 ∧ d = 0 := by
  have hreads : ∀ (t : Vmm φ) (q : ActiveRegister) v, WordReads env t (q.offset n) v ↔ v = t.dist.word (q.word n) :=
    fun _ _ _ => wordReads_active hstop htcb hn
  constructor
  · rintro ⟨⟨v, hv⟩, hwrite, -⟩
    have hset : v = s.dist.word (active0 + n) := (hreads s .isactiver v).mp (hv _)
    have hclr : v = s.dist.word (activeClr0 + n) := (hreads s .icactiver v).mp (hv _)
    -- the other array keeps its word, and the one stored to holds `d`
    have hafter : ∀ r q : ActiveRegister, r.writeOne v d = (s.dist.set (r.word n) d).word (q.word n) := by
      intro r q
      obtain ⟨s', hs'⟩ := exists_storesActive (s := s) (r := r) (d := d) hstop htcb hn
      rw [← hs'.dist hstop htcb hn]
      exact (hreads s' q _).mp (hwrite r s' hs' v hv q)
    have hset_set : v ||| d = d := by
      have h := hafter .isactiver .isactiver
      rw [word_set, if_pos rfl] at h
      exact h
    have hset_clr : v ||| d = v := by
      have h := hafter .isactiver .icactiver
      rw [word_set, if_neg fun h => by have hq := (ActiveRegister.word_inj hn hn h).1; cases hq] at h
      exact h.trans hclr.symm
    have hclr_set : v &&& ~~~d = v := by
      have h := hafter .icactiver .isactiver
      rw [word_set, if_neg fun h => by have hq := (ActiveRegister.word_inj hn hn h).1; cases hq] at h
      exact h.trans hset.symm
    have hvd : v = d := hset_clr.symm.trans hset_set
    have hzero : d = 0 := by
      rw [hvd, BitVec.and_not_self] at hclr_set
      exact hclr_set.symm
    exact ⟨hset.symm.trans (hvd.trans hzero), hclr.symm.trans (hvd.trans hzero), hzero⟩
  · rintro ⟨hset, hclr, rfl⟩
    have hword : ∀ q : ActiveRegister, s.dist.word (q.word n) = 0 := fun q => by cases q <;> assumption
    refine ⟨⟨0, fun r => (hreads s r 0).mpr (hword r).symm⟩, fun r s' hs' v hv q => ?_, fun r s' hs' q m v hm hne hv => ?_⟩
    · obtain rfl : v = 0 := ((hreads s q v).mp (hv q)).trans (hword q)
      rw [hreads, hs'.dist hstop htcb hn, word_set]
      cases r <;> split_ifs <;> simp [ActiveRegister.writeOne, hword]
    · have hother : q.word m ≠ r.word n := fun h => hne (ActiveRegister.word_inj hn hm h).2
      rw [wordReads_active hstop htcb hm, hs'.dist hstop htcb hn, word_set, if_neg hother]
      exact (wordReads_active hstop htcb hm).mp hv

end Access

/-! ### Runs that store no ones -/

def StoresNoActive (env : Env φ) (s : Vmm φ) (op : Op φ) : Prop :=
  ∀ w mask bits, .store w mask bits ∈ opActions env s op → active0 ≤ w → bits = 0

def NoneActive (d : GicDistMap) : Prop := ∀ w, active0 ≤ w → w < priority0 → d.word w = 0

section Runs

variable {d : GicDistMap}

lemma noneActive_setMirrored {w0 w w0' w' : Nat} {i : Int} {b : Bool} (hi : i < irqLimit) (hw : w0 ≤ w) (hw' : w0' ≤ w')
    (hlt : w + 30 < active0) (hlt' : w' + 30 < active0) (h : NoneActive d) :
    NoneActive (setMirrored (bankWord w0 w i) (bankWord w0' w' i) d i b) := by
  intro k hk hk'
  have hset : k ≠ bankWord w0 w i := Nat.ne_of_gt (Nat.lt_of_lt_of_le (bankWord_lt hi hw hlt) hk)
  have hclr : k ≠ bankWord w0' w' i := Nat.ne_of_gt (Nat.lt_of_lt_of_le (bankWord_lt hi hw' hlt') hk)
  rw [word_setMirrored hset hclr]
  exact h k hk hk'

lemma noneActive_kept (g : GicVersion) : KeptByBanks (fun i => i < irqLimit) g NoneActive where
  setPending d i b hi h := by
    rw [setPending_eq]
    exact noneActive_setMirrored hi (by decide) (by decide) (by decide) (by decide) h
  enable d i hi h := by
    rw [setEnable_eq]
    exact noneActive_setMirrored hi.2 (by decide) (by decide) (by decide) (by decide) h
  disable d i hi h := by
    rw [setEnable_eq]
    exact noneActive_setMirrored hi.2 (by decide) (by decide) (by decide) (by decide) h
  clearEnable _ d i hi h := by
    rw [setEnable_eq]
    exact noneActive_setMirrored (Int.lt_trans hi.2 (by decide)) (by decide) (by decide) (by decide) (by decide) h
  ctlr d x h k hk hk' := by
    have hne : k ≠ ctlr := Nat.ne_of_gt (Nat.lt_of_lt_of_le (by decide) hk)
    rw [word_set, if_neg hne]
    exact h k hk hk'

lemma noneActive_store {w : Nat} {mask bits : U32} (hbits : active0 ≤ w → bits = 0) (h : NoneActive d) :
    NoneActive (d.set w (d.word w &&& ~~~mask ||| bits)) := by
  intro k hk hk'
  rw [word_set]
  split_ifs with hkw
  · subst hkw
    rw [h k hk hk', hbits hk]
    simp
  · exact h k hk hk'

lemma noneActive_reachable (hstop : env.assertStops = true) {s : Vmm φ}
    (hs : Reachable env (fun s op => BelowLimit env s op ∧ StoresNoActive env s op) s) : NoneActive s.dist := by
  refine (reachable_banks hstop (noneActive_kept _) (fun _ hi => hi.2) (fun k hk hk' => ?_) (fun s op hop => ⟨?_, ?_⟩)
    (fun s op hop w mask bits ha d h => noneActive_store (hop.2 w mask bits ha) h) hs).2
  · exact word_vgicDistReset _ _ ⟨Nat.le_trans (by decide) hk, hk'⟩
  · cases op <;> first | exact fun _ => hop.1 | trivial
  · cases op with
    | fault f => cases f <;> first | exact hop.1 | trivial
    | _ => trivial

end Runs

/-- The active registers follow write-one semantics and mirror each other exactly where both hold 0 and 0 is stored;
so in every run that stores no ones to them they do for 0 only. -/
theorem active_registers_iff (hstop : env.assertStops = true) (htcb : TcbAccepts env) :
    (∀ (s : Vmm φ) n d, n < 32 → (WriteOneMirrored env s n d ↔
      s.dist.word (active0 + n) = 0 ∧ s.dist.word (activeClr0 + n) = 0 ∧ d = 0)) ∧
    ∀ s, Reachable env (fun s op => BelowLimit env s op ∧ StoresNoActive env s op) s →
      ∀ n d, n < 32 → (WriteOneMirrored env s n d ↔ d = 0) := by
  refine ⟨fun s n d hn => writeOneMirrored_iff hstop htcb hn, fun s hs n d hn => ?_⟩
  have hnone := noneActive_reachable hstop hs
  have hset : s.dist.word (active0 + n) = 0 := hnone _ (by omega) (by simp only [active0, priority0]; omega)
  have hclr : s.dist.word (activeClr0 + n) = 0 :=
    hnone _ (by simp only [active0, activeClr0]; omega) (by simp only [activeClr0, priority0]; omega)
  rw [writeOneMirrored_iff hstop htcb hn]
  exact ⟨fun h => h.2.2, fun h => ⟨hset, hclr, h⟩⟩

/-- Storing 0 after `vgic_init`. -/
theorem active_registers_iff_zero :
    WriteOneMirrored (vmmEnv .qemuArmVirtHyp) (vgicInit (vmmEnv .qemuArmVirtHyp) (.filled 0)) 1 0 :=
  ((active_registers_iff rfl (vmmEnv_tcb _)).2 _ (.init ⟨_, rfl⟩) 1 0 (by decide)).mpr rfl

/-- After `vgic_init` the guest marks SPI 32 as active, and `ICACTIVER1` still reads as 0. -/
theorem isactiver_not_mirrored : ∃ s : Vmm VmmAckFn, Reachable (vmmEnv .qemuArmVirtHyp) (fun _ _ => True) s ∧
    ¬WriteOneMirrored (vmmEnv .qemuArmVirtHyp) s 1 1 := by
  refine ⟨vgicInit (vmmEnv .qemuArmVirtHyp) (.filled 0), .init ⟨_, rfl⟩, fun h => ?_⟩
  have hone := ((writeOneMirrored_iff rfl (vmmEnv_tcb _) (by decide)).mp h).2.2
  exact absurd hone (by decide)

end Sel4cpVmm
