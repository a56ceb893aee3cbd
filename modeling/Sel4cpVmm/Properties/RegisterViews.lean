import Sel4cpVmm.Proofs.DistRuns
import Sel4cpVmm.Proofs.BitmapWrites
import Sel4cpVmm.Proofs.Loads

/-!
# The guest's view of the bitmaps

The words of a bitmap are found by register number for an access, counted from register 1, and by interrupt
number in the helpers, counted from interrupt 0. So the guest reads the bits of one register in the next.
-/

namespace Sel4cpVmm

open StopProgram GicDistMap

variable {φ : Type} {env : Env φ}

namespace BitmapRegister

/-- What the register shows of an interrupt. -/
def bit (r : BitmapRegister) (d : GicDistMap) (i : Int) : Bool :=
  match r with
  | isenabler | icenabler => isEnabled d i vcpuId
  | ispendr | icpendr => isPending d i vcpuId

/-- The word that a read of register `n` returns. -/
def readWord (r : BitmapRegister) (n : Nat) : Nat :=
  match r with
  | isenabler => if n = 0 then enableSet0 else enableSet + (n - 1)
  | icenabler => if n = 0 then enableClr0 else enableClr + (n - 1)
  | ispendr => if n = 0 then pendingSet0 else pendingSet + (n - 1)
  | icpendr => if n = 0 then pendingClr0 else pendingClr + (n - 1)

/-- The word that `is_enabled` and `is_pending` look at for the interrupts of register `n`. -/
def bitWord (r : BitmapRegister) (n : Nat) : Nat :=
  match r with
  | isenabler | icenabler => registerWord enableSet0 enableSet n
  | ispendr | icpendr => registerWord pendingSet0 pendingSet n

variable {r : BitmapRegister} {n : Nat}

lemma distRead_offset (g : GicVersion) (hn : n < 32) : distRead g vcpuId (r.offset n) = .word (r.readWord n) := by
  have hall : ∀ n : Fin 32, distRead g vcpuId (r.offset n) = .word (r.readWord n) := by
    cases r <;> cases g <;> decide +kernel
  exact hall ⟨n, hn⟩

lemma bit_eq (d : GicDistMap) {b : Nat} (hb : b < 32) :
    r.bit d ((b + 32 * n : Nat) : Int) = (d.word (r.bitWord n)).getLsbD b := by
  have hmod : (((b + 32 * n : Nat) : Int) % 32).toNat = b := by omega
  cases r <;> simp only [bit, bitWord, isEnabled_eq, isPending_eq, testIrq_eq, bankWord_register hb, hmod]

end BitmapRegister

/-! ### Word loads -/

/-- A read of the register shows what the VMM finds for the interrupts of its bits. -/
def Shows (env : Env φ) (s : Vmm φ) (r : BitmapRegister) (n : Nat) : Prop :=
  ∃ v, WordReads env s (r.offset n) v ∧ ∀ b < 32, v.getLsbD b = r.bit s.dist ((b + 32 * n : Nat) : Int)

/-- All registers show what the VMM finds. -/
def ViewsAgree (env : Env φ) (s : Vmm φ) : Prop := ∀ r n, n ≤ 30 → Shows env s r n

section Words

variable (hstop : env.assertStops = true) (htcb : TcbAccepts env) {s : Vmm φ}

include hstop htcb

lemma wordReads_iff {r : BitmapRegister} {n : Nat} (hn : n < 32) {v : U32} :
    WordReads env s (r.offset n) v ↔ v = s.dist.word (r.readWord n) := by
  have hlt := r.offset_lt hn
  exact wordReads_word hstop htcb hlt.1 hlt.2 (BitmapRegister.distRead_offset _ hn)

lemma shows_iff {r : BitmapRegister} {n : Nat} (hn : n < 32) :
    Shows env s r n ↔ s.dist.word (r.readWord n) = s.dist.word (r.bitWord n) := by
  constructor
  · rintro ⟨v, hv, hbits⟩
    rw [← (wordReads_iff hstop htcb hn).mp hv]
    apply BitVec.eq_of_getLsbD_eq
    intro b hb
    rw [hbits b hb, BitmapRegister.bit_eq _ hb]
  · intro h
    refine ⟨_, (wordReads_iff hstop htcb hn).mpr rfl, fun b hb => ?_⟩
    rw [h, BitmapRegister.bit_eq _ hb]

end Words

/-! ### The bitmaps over a run -/

/-- What the first word of `enable_set` and `enable_clr` holds after the reset. -/
def resetEnables : GicVersion → U32
  | .v2 => 0
  | .v3 => 0xffff

/-- A clear bitmap mirrors its set bitmap, and the first word of each array holds `x`. The banks of local
interrupts begin at `s0` and `c0`, the arrays behind them. -/
structure BankKept (s0 c0 : Nat) (x : U32) (d : GicDistMap) : Prop where
  mirror : ∀ n ≤ 30, d.word (registerWord c0 (c0 + 1) n) = d.word (registerWord s0 (s0 + 1) n)
  set : d.word (s0 + 1) = x
  clr : d.word (c0 + 1) = x

/-- Both pairs of bitmaps are kept as the reset left them. -/
structure BitmapsKept (g : GicVersion) (d : GicDistMap) : Prop where
  enable : BankKept enableSet0 enableClr0 (resetEnables g) d
  pending : BankKept pendingSet0 pendingClr0 0 d

section Kept

variable {g : GicVersion} {d d' : GicDistMap} {s0 c0 : Nat} {x : U32} {i : Int} {b : Bool}

lemma registerWord_mem {w n : Nat} (hn : n ≤ 30) : w ≤ registerWord w (w + 1) n ∧ registerWord w (w + 1) n ≤ w + 31 ∧
    registerWord w (w + 1) n ≠ w + 1 := by
  unfold registerWord
  split_ifs <;> omega

lemma registerWord_inj {w0 n m : Nat} (h : registerWord w0 (w0 + 1) n = registerWord w0 (w0 + 1) m) : n = m := by
  unfold registerWord at h
  split_ifs at h <;> omega

lemma exists_registerWord (hi : 0 ≤ i ∧ i < irqLimit) : ∃ m ≤ 30, ∀ w0 w, bankWord w0 w i = registerWord w0 w m := by
  have hlt : i < 992 := hi.2
  refine ⟨(i / 32).toNat, by omega, fun w0 w => ?_⟩
  unfold bankWord registerWord irqIdx
  split_ifs <;> omega

lemma word_setMirrored_of_mem {sw cw w : Nat} (hne : sw ≠ cw) (hw : w = sw ∨ w = cw) :
    (setMirrored sw cw d i b).word w = if b then d.word w ||| irqBit i else d.word w &&& ~~~irqBit i := by
  have hne' := hne.symm
  rcases hw with rfl | rfl <;> cases b <;> simp [setMirrored, orWord, andNotWord, hne, hne']

lemma BankKept.change (h : BankKept s0 c0 x d) (hdisj : s0 + 31 < c0) (hi : 0 ≤ i ∧ i < irqLimit) :
    BankKept s0 c0 x (setMirrored (bankWord s0 (s0 + 1) i) (bankWord c0 (c0 + 1) i) d i b) := by
  obtain ⟨m, hm, hword⟩ := exists_registerWord hi
  rw [hword, hword]
  have hs : ∀ n ≤ 30, s0 ≤ registerWord s0 (s0 + 1) n ∧ registerWord s0 (s0 + 1) n ≤ s0 + 31 ∧ _ :=
    fun n => registerWord_mem
  have hc : ∀ n ≤ 30, c0 ≤ registerWord c0 (c0 + 1) n ∧ registerWord c0 (c0 + 1) n ≤ c0 + 31 ∧ _ :=
    fun n => registerWord_mem
  have hsm := hs m hm
  have hcm := hc m hm
  refine ⟨fun n hn => ?_, ?_, ?_⟩
  · have hsn := hs n hn
    have hcn := hc n hn
    by_cases hnm : n = m
    · subst hnm
      have hne : registerWord s0 (s0 + 1) n ≠ registerWord c0 (c0 + 1) n := by omega
      rw [word_setMirrored_of_mem hne (.inl rfl), word_setMirrored_of_mem hne (.inr rfl), h.mirror n hn]
    · have hs' : registerWord s0 (s0 + 1) n ≠ registerWord s0 (s0 + 1) m := fun he => hnm (registerWord_inj he)
      have hc' : registerWord c0 (c0 + 1) n ≠ registerWord c0 (c0 + 1) m := fun he => hnm (registerWord_inj he)
      rw [word_setMirrored hs' (by omega), word_setMirrored (by omega) hc', h.mirror n hn]
  · rw [word_setMirrored (Ne.symm hsm.2.2) (by omega), h.set]
  · rw [word_setMirrored (by omega) (Ne.symm hcm.2.2), h.clr]

lemma BankKept.congr (h : BankKept s0 c0 x d) (hle : s0 ≤ c0) (hd : ∀ w, s0 ≤ w → w ≤ c0 + 31 → d'.word w = d.word w) :
    BankKept s0 c0 x d' := by
  refine ⟨fun n hn => ?_, ?_, ?_⟩
  · have hs := registerWord_mem (w := s0) hn
    have hc := registerWord_mem (w := c0) hn
    rw [hd _ (by omega) (by omega), hd _ (by omega) (by omega), h.mirror n hn]
  · rw [hd _ (by omega) (by omega), h.set]
  · rw [hd _ (by omega) (by omega), h.clr]

lemma BitmapsKept.setEnable (h : BitmapsKept g d) (hi : 0 ≤ i ∧ i < irqLimit) :
    BitmapsKept g (setEnable d i b vcpuId) := by
  obtain ⟨m, hm, hword⟩ := exists_registerWord hi
  refine ⟨?_, h.pending.congr (by decide) fun w hw _ => ?_⟩
  · rw [setEnable_eq]
    exact h.enable.change (by decide) hi
  · have hs : registerWord enableSet0 enableSet m ≤ 95 := (registerWord_mem hm).2.1
    have hc : registerWord enableClr0 enableClr m ≤ 127 := (registerWord_mem hm).2.1
    have hw' : 128 ≤ w := hw
    rw [setEnable_eq, hword, hword]
    exact word_setMirrored (by omega) (by omega)

lemma BitmapsKept.setPending (h : BitmapsKept g d) (hi : 0 ≤ i ∧ i < irqLimit) :
    BitmapsKept g (setPending d i b vcpuId) := by
  refine ⟨h.enable.congr (by decide) fun w _ hw => ?_, ?_⟩
  · exact enablesKept_setPending d i b vcpuId w (Nat.lt_of_le_of_lt hw (by decide))
  · rw [setPending_eq]
    exact h.pending.change (by decide) hi

lemma BitmapsKept.set (h : BitmapsKept g d) {w : Nat} (hw : w < enableSet0 ∨ pendingClr + 30 < w) (y : U32) :
    BitmapsKept g (d.set w y) := by
  simp only [enableSet0, pendingClr] at hw
  have hout : ∀ v, enableSet0 ≤ v → v ≤ pendingClr0 + 31 → (d.set w y).word v = d.word v := by
    intro v hv hv'
    simp only [enableSet0, pendingClr0] at hv hv'
    rw [word_set, if_neg (by omega)]
  exact ⟨h.enable.congr (by decide) fun v hv hv' => hout v hv (Nat.le_trans hv' (by decide)),
    h.pending.congr (by decide) fun v hv hv' => hout v (Nat.le_trans (by decide) hv) hv'⟩

lemma bitmapsKept_kept : KeptByDist (fun i => 0 ≤ i ∧ i < irqLimit) g (BitmapsKept g) where
  setPending _ _ _ hi h := h.setPending hi
  enable _ _ hi h := h.setEnable hi
  disable _ _ hi h := h.setEnable ⟨Int.le_trans (by decide) hi.1, hi.2⟩
  clearEnable _ _ _ hi h := h.setEnable ⟨hi.1, Int.lt_trans hi.2 (by decide)⟩
  store _ w _ hw h := by
    refine h.set ?_ _
    simp only [IsPlainWord, irqGroup0, active0, enableSet0, priority0, pendingClr] at hw ⊢
    omega
  ctlr _ _ h := h.set (.inl (by decide)) _

lemma bitmapsKept_reset (g : GicVersion) : BitmapsKept g (vgicDistReset g ⟨fun _ => 0⟩) := by
  have hmirror : ∀ n : Fin 31,
      (vgicDistReset g ⟨fun _ => 0⟩).word (registerWord enableClr0 enableClr n) =
        (vgicDistReset g ⟨fun _ => 0⟩).word (registerWord enableSet0 enableSet n) ∧
      (vgicDistReset g ⟨fun _ => 0⟩).word (registerWord pendingClr0 pendingClr n) =
        (vgicDistReset g ⟨fun _ => 0⟩).word (registerWord pendingSet0 pendingSet n) := by
    cases g <;> decide +kernel
  refine ⟨⟨fun n hn => (hmirror ⟨n, by omega⟩).1, ?_, ?_⟩, ⟨fun n hn => (hmirror ⟨n, by omega⟩).2, ?_, ?_⟩⟩ <;>
    cases g <;> decide +kernel

end Kept

/-! ### When the views agree -/

def WordsAgree (d : GicDistMap) : Prop :=
  ∀ (r : BitmapRegister) (n : Nat), n ≤ 30 → d.word (r.readWord n) = d.word (r.bitWord n)

/-- No SPI is pending, and none is enabled but for those that the reset of GICv3 would enable in every word. -/
def SpisUniform (g : GicVersion) (d : GicDistMap) : Prop :=
  ∀ i, 32 ≤ i ∧ i < irqLimit →
    (isEnabled d i vcpuId = true ↔ g = .v3 ∧ i % 32 < 16) ∧ isPending d i vcpuId = false

section Agree

variable {g : GicVersion} {d : GicDistMap} {s0 c0 : Nat} {x : U32}

/-- The words of an array are each the one before exactly when all bits are as in the first. -/
lemma shifted_iff (h0 : d.word (s0 + 1) = x) :
    (∀ n, 1 ≤ n → n ≤ 30 → d.word (s0 + 1 + (n - 1)) = d.word (s0 + 1 + n)) ↔
      ∀ i, 32 ≤ i ∧ i < irqLimit → testIrq (bankWord s0 (s0 + 1) i) d i = x.getLsbD (i % 32).toNat := by
  have hbit : ∀ n b, 1 ≤ n → b < 32 → testIrq (bankWord s0 (s0 + 1) ((b + 32 * n : Nat) : Int)) d ((b + 32 * n : Nat) : Int) =
      (d.word (s0 + 1 + n)).getLsbD b := by
    intro n b hn hb
    have hmod : (((b + 32 * n : Nat) : Int) % 32).toNat = b := by omega
    rw [testIrq_eq, bankWord_register hb, registerWord, if_neg (by omega), hmod]
  constructor
  · intro h i hi
    have hall : ∀ n ≤ 30, d.word (s0 + 1 + n) = x := by
      intro n hn
      induction n with
      | zero => exact h0
      | succ n ih => exact (h (n + 1) (by omega) hn).symm.trans (ih (by omega))
    have hlt : i < 992 := hi.2
    obtain ⟨n, hn⟩ : ∃ n : Nat, i = ((i % 32).toNat + 32 * n : Nat) := ⟨(i / 32).toNat, by omega⟩
    have hmod : (i % 32).toNat < 32 := by omega
    rw [hn, hbit n _ (by omega) hmod, hall n (by omega)]
    congr 1
    omega
  · intro h
    have hall : ∀ n ≤ 30, d.word (s0 + 1 + n) = x := by
      intro n hn
      by_cases hz : n = 0
      · rw [hz]
        exact h0
      · apply BitVec.eq_of_getLsbD_eq
        intro b hb
        have hi := h ((b + 32 * n : Nat) : Int) ⟨by omega, by simp only [irqLimit]; omega⟩
        rw [hbit n b (by omega) hb] at hi
        rw [hi]
        congr 1
        omega
    intro n h1 hn
    rw [hall n hn, hall (n - 1) (by omega)]

lemma BankKept.agree_iff (h : BankKept s0 c0 x d) :
    (∀ n ≤ 30, d.word (if n = 0 then s0 else s0 + 1 + (n - 1)) = d.word (registerWord s0 (s0 + 1) n) ∧
      d.word (if n = 0 then c0 else c0 + 1 + (n - 1)) = d.word (registerWord s0 (s0 + 1) n)) ↔
      ∀ i, 32 ≤ i ∧ i < irqLimit → testIrq (bankWord s0 (s0 + 1) i) d i = x.getLsbD (i % 32).toNat := by
  rw [← shifted_iff h.set]
  constructor
  · intro hall n h1 hn
    have hset := (hall n hn).1
    rwa [if_neg (by omega), registerWord, if_neg (by omega)] at hset
  · intro hall n hn
    by_cases hz : n = 0
    · subst hz
      have hmirror := h.mirror 0 (by omega)
      exact ⟨rfl, hmirror⟩
    · have hset := hall n (by omega) hn
      have hclr : d.word (c0 + 1 + (n - 1)) = d.word (s0 + 1 + (n - 1)) := by
        by_cases h1 : n = 1
        · subst h1
          exact h.clr.trans h.set.symm
        · have hmirror := h.mirror (n - 1) (by omega)
          rwa [registerWord, registerWord, if_neg (by omega), if_neg (by omega)] at hmirror
      rw [if_neg hz, if_neg hz, registerWord, if_neg hz]
      exact ⟨hset, hclr.trans hset⟩

lemma wordsAgree_iff (h : BitmapsKept g d) : WordsAgree d ↔ SpisUniform g d := by
  have hreset : ∀ k : Nat, (resetEnables g).getLsbD k = true ↔ g = .v3 ∧ k < 16 := by
    intro k
    cases g with
    | v2 => simp [resetEnables]
    | v3 =>
      have hmask : resetEnables .v3 = BitVec.ofNat 32 (2 ^ 16 - 1) := rfl
      rw [hmask, BitVec.getLsbD_ofNat, Nat.testBit_two_pow_sub_one]
      simp only [Bool.and_eq_true, decide_eq_true_eq, true_and]
      omega
  have hsplit : WordsAgree d ↔
      (∀ n ≤ 30, d.word (BitmapRegister.isenabler.readWord n) = d.word (registerWord enableSet0 enableSet n) ∧
        d.word (BitmapRegister.icenabler.readWord n) = d.word (registerWord enableSet0 enableSet n)) ∧
      ∀ n ≤ 30, d.word (BitmapRegister.ispendr.readWord n) = d.word (registerWord pendingSet0 pendingSet n) ∧
        d.word (BitmapRegister.icpendr.readWord n) = d.word (registerWord pendingSet0 pendingSet n) := by
    constructor
    · exact fun h => ⟨fun n hn => ⟨h .isenabler n hn, h .icenabler n hn⟩, fun n hn => ⟨h .ispendr n hn, h .icpendr n hn⟩⟩
    · rintro ⟨he, hp⟩ r n hn
      cases r with
      | isenabler => exact (he n hn).1
      | icenabler => exact (he n hn).2
      | ispendr => exact (hp n hn).1
      | icpendr => exact (hp n hn).2
  rw [hsplit]
  refine (and_congr h.enable.agree_iff h.pending.agree_iff).trans ?_
  have hbits : ∀ i, 32 ≤ i ∧ i < irqLimit →
      ((testIrq (bankWord enableSet0 (enableSet0 + 1) i) d i = (resetEnables g).getLsbD (i % 32).toNat ↔
        (isEnabled d i vcpuId = true ↔ g = .v3 ∧ i % 32 < 16)) ∧
      (testIrq (bankWord pendingSet0 (pendingSet0 + 1) i) d i = (0 : U32).getLsbD (i % 32).toNat ↔
        isPending d i vcpuId = false)) := by
    intro i hi
    have hmod : (i % 32).toNat < 16 ↔ i % 32 < 16 := by omega
    have hzero : (0 : U32).getLsbD (i % 32).toNat = false := BitVec.getLsbD_zero
    rw [isEnabled_eq, isPending_eq, Bool.eq_iff_iff, hreset, hmod, hzero]
    exact ⟨Iff.rfl, Iff.rfl⟩
  unfold SpisUniform
  rw [← forall_and]
  refine forall_congr' fun i => ?_
  rw [← imp_and]
  exact imp_congr_right fun hi => and_congr (hbits i hi).1 (hbits i hi).2

end Agree

/-! ### Writes and reads back -/

/-- Between the two states, a read of set-enable register `n` gains the bits of `x` and no other changes. -/
def SetsBack (env : Env φ) (s s' : Vmm φ) (n : Nat) (x : U32) : Prop :=
  ∀ m < 32, ∃ v v', WordReads env s (BitmapRegister.isenabler.offset m) v ∧
    WordReads env s' (BitmapRegister.isenabler.offset m) v' ∧ v' = if m = n then v ||| x else v

/-- Between the two states, a read of clear-enable register `n` loses the bits of `x` and no other changes. -/
def ClearsBack (env : Env φ) (s s' : Vmm φ) (n : Nat) (x : U32) : Prop :=
  ∀ m < 32, ∃ v v', WordReads env s (BitmapRegister.icenabler.offset m) v ∧
    WordReads env s' (BitmapRegister.icenabler.offset m) v' ∧ v' = if m = n then v &&& ~~~x else v

section Writes

variable {n : Nat} (hn : n ≤ 30) {fsr : U64} (hword : IsWordAccess fsr) (hstop : env.assertStops = true)
  (hwrite : faultIsWrite fsr = true) {s s' : Vmm φ} {b : Bool}

include hn hword hstop hwrite

lemma ok_of_write {r : BitmapRegister} {P : GicDistMap → Prop}
    (hrun : handleFault env (.vmFault (env.board.gicDistPaddr + BitVec.ofNat 64 (r.offset n)) fsr) s = .ok b s')
    (hP : wp (forM ((registerIrqs n (storedWord s fsr s.tcb)).map r.op) (Action.run env)) (fun _ t => P t.dist)
      (fun _ _ => True) s) : P s'.dist := by
  have h : wp (handleVmFault env (r.addr env n) fsr) (fun _ t => P t.dist) (fun _ _ => True) s :=
    wp_bitmapWrite (by omega) hword hstop hwrite (fun _ _ _ => trivial)
      (wp_mono hP (fun _ t ht => ⟨ht, fun _ _ _ => trivial⟩) (fun _ _ => id))
  exact wp_ok h hrun

lemma enables_of_write
    (hrun : handleFault env (.vmFault (env.board.gicDistPaddr + BitVec.ofNat 64 (BitmapRegister.isenabler.offset n)) fsr) s =
      .ok b s') : EnablesKept (setEnables true s.dist (registerIrqs n (storedWord s fsr s.tcb))) s'.dist := by
  exact ok_of_write (P := EnablesKept _) hn hword hstop hwrite hrun (wp_enables hstop)

lemma disables_of_write
    (hrun : handleFault env (.vmFault (env.board.gicDistPaddr + BitVec.ofNat 64 (BitmapRegister.icenabler.offset n)) fsr) s =
      .ok b s') : s'.dist = setEnables false s.dist (registerIrqs n (withoutSgis n (storedWord s fsr s.tcb))) := by
  refine ok_of_write (P := fun d => d = _) hn hword hstop hwrite hrun ?_
  rw [← filter_registerIrqs]
  exact (wp_of_ok run_disables).mpr rfl

end Writes

section Back

variable (hstop : env.assertStops = true) (htcb : TcbAccepts env) {s s' : Vmm φ} {n : Nat} {x : U32}

/-- One word of an array changed by index `n` is read at register `n + 1`. -/
lemma back_iff {f : U32 → U32} {w : Nat} {d d' : GicDistMap} (hn : n ≤ 30)
    (h : ∀ v, w ≤ v → v ≤ w + 31 → d'.word v = if v = registerWord w (w + 1) n then f (d.word v) else d.word v) :
    (∀ m < 32, d'.word (if m = 0 then w else w + 1 + (m - 1)) =
      if m = n then f (d.word (if m = 0 then w else w + 1 + (m - 1)))
      else d.word (if m = 0 then w else w + 1 + (m - 1))) ↔
      n = 0 ∨ (f (d.word (w + n)) = d.word (w + n) ∧ f (d.word (w + 1 + n)) = d.word (w + 1 + n)) := by
  by_cases hz : n = 0
  · subst hz
    refine iff_of_true (fun m hm => ?_) (.inl rfl)
    by_cases hm0 : m = 0
    · subst hm0
      have hself := h w (by omega) (by omega)
      simpa [registerWord] using hself
    · have hout := h (w + 1 + (m - 1)) (by omega) (by omega)
      rw [registerWord, if_pos rfl, if_neg (by omega)] at hout
      simpa [hm0] using hout
  · have hreg : registerWord w (w + 1) n = w + 1 + n := if_neg hz
    rw [hreg] at h
    constructor
    · intro hall
      have hself := hall n (by omega)
      have hnext := hall (n + 1) (by omega)
      simp only [hz, if_false, if_true] at hself
      simp only [Nat.add_eq_zero_iff, and_false, if_false, Nat.add_sub_cancel, Nat.succ_ne_self] at hnext
      have hprev : w + 1 + (n - 1) = w + n := by omega
      rw [hprev, h _ (by omega) (by omega), if_neg (by omega)] at hself
      rw [h _ (by omega) (by omega), if_pos rfl] at hnext
      exact .inr ⟨hself.symm, hnext⟩
    · rintro (h0 | ⟨hself, hnext⟩) m hm
      · exact absurd h0 hz
      · by_cases hm0 : m = 0
        · subst hm0
          rw [if_pos rfl, h _ (by omega) (by omega), if_neg (by omega), if_neg (Ne.symm hz)]
        · rw [if_neg hm0, h _ (by omega) (by omega)]
          by_cases hmn : m = n
          · subst hmn
            have hprev : w + 1 + (m - 1) = w + m := by omega
            rw [if_neg (by omega), if_pos rfl, hprev, hself]
          · rw [if_neg hmn]
            by_cases hmn' : m = n + 1
            · subst hmn'
              rw [Nat.add_sub_cancel, if_pos rfl, hnext]
            · rw [if_neg (by omega)]

include hstop htcb

lemma reads_iff {r : BitmapRegister} {m : Nat} (hm : m < 32) (f : U32 → U32) :
    (∃ v v', WordReads env s (r.offset m) v ∧ WordReads env s' (r.offset m) v' ∧ v' = f v) ↔
      s'.dist.word (r.readWord m) = f (s.dist.word (r.readWord m)) := by
  constructor
  · rintro ⟨v, v', hv, hv', rfl⟩
    rw [← (wordReads_iff hstop htcb hm).mp hv', ← (wordReads_iff hstop htcb hm).mp hv]
  · exact fun h => ⟨_, _, (wordReads_iff hstop htcb hm).mpr rfl, (wordReads_iff hstop htcb hm).mpr rfl, h⟩

lemma setsBack_iff (hn : n ≤ 30) (h : EnablesKept (setEnables true s.dist (registerIrqs n x)) s'.dist) :
    SetsBack env s s' n x ↔ n = 0 ∨ (s.dist.word (enableSet0 + n) ||| x = s.dist.word (enableSet0 + n) ∧
      s.dist.word (enableSet + n) ||| x = s.dist.word (enableSet + n)) := by
  have hback : SetsBack env s s' n x ↔ ∀ m < 32, s'.dist.word (BitmapRegister.isenabler.readWord m) =
      if m = n then s.dist.word (BitmapRegister.isenabler.readWord m) ||| x
      else s.dist.word (BitmapRegister.isenabler.readWord m) :=
    forall_congr' fun m => imp_congr_right fun hm => reads_iff hstop htcb hm fun v => if m = n then v ||| x else v
  rw [hback]
  refine back_iff (f := fun v => v ||| x) (w := enableSet0) hn fun w hw hw' => ?_
  have hne : w ≠ registerWord enableClr0 enableClr n := by
    have hc : enableClr0 ≤ registerWord enableClr0 enableClr n := (registerWord_mem hn).1
    have h95 : w ≤ 95 := hw'
    have h96 : 96 ≤ registerWord enableClr0 enableClr n := hc
    omega
  rw [h w (Nat.lt_of_le_of_lt hw' (by decide)), word_setEnables]
  simp [hne]

lemma clearsBack_iff (hn : n ≤ 30) (h : s'.dist = setEnables false s.dist (registerIrqs n x)) :
    ClearsBack env s s' n x ↔ n = 0 ∨ (s.dist.word (enableClr0 + n) &&& ~~~x = s.dist.word (enableClr0 + n) ∧
      s.dist.word (enableClr + n) &&& ~~~x = s.dist.word (enableClr + n)) := by
  have hback : ClearsBack env s s' n x ↔ ∀ m < 32, s'.dist.word (BitmapRegister.icenabler.readWord m) =
      if m = n then s.dist.word (BitmapRegister.icenabler.readWord m) &&& ~~~x
      else s.dist.word (BitmapRegister.icenabler.readWord m) :=
    forall_congr' fun m => imp_congr_right fun hm => reads_iff hstop htcb hm fun v => if m = n then v &&& ~~~x else v
  rw [hback]
  refine back_iff (f := fun v => v &&& ~~~x) (w := enableClr0) hn fun w hw hw' => ?_
  have hne : w ≠ registerWord enableSet0 enableSet n := by
    have hs : registerWord enableSet0 enableSet n ≤ 95 := (registerWord_mem hn).2.1
    have h96 : 96 ≤ w := hw
    omega
  rw [h, word_setEnables]
  simp [hne]

/-- In every state the registers show the bitmaps exactly when the words read are those looked at, and over runs of
interrupt numbers below the limit when every SPI is as the reset left the first word of its array. A write to an
enable register is read back as such exactly for register 0, or where the two words it is mixed up with show it
already. -/
theorem viewsAgree_iff :
    (∀ s, ViewsAgree env s ↔ WordsAgree s.dist) ∧
    (∀ s, Reachable env (fun s op => RegistersOnly (fun i => 0 ≤ i ∧ i < irqLimit) op ∧ AccessBelow env s op) s →
      (ViewsAgree env s ↔ SpisUniform env.board.gic s.dist)) ∧
    ∀ (s s' : Vmm φ) (n : Nat) (fsr : U64) (b : Bool), n ≤ 30 → IsWordAccess fsr → faultIsWrite fsr = true →
      (handleFault env (.vmFault (env.board.gicDistPaddr + BitVec.ofNat 64 (BitmapRegister.isenabler.offset n)) fsr) s =
        .ok b s' → (SetsBack env s s' n (storedWord s fsr s.tcb) ↔ n = 0 ∨
          (s.dist.word (enableSet0 + n) ||| storedWord s fsr s.tcb = s.dist.word (enableSet0 + n) ∧
            s.dist.word (enableSet + n) ||| storedWord s fsr s.tcb = s.dist.word (enableSet + n)))) ∧
      (handleFault env (.vmFault (env.board.gicDistPaddr + BitVec.ofNat 64 (BitmapRegister.icenabler.offset n)) fsr) s =
        .ok b s' → (ClearsBack env s s' n (withoutSgis n (storedWord s fsr s.tcb)) ↔ n = 0 ∨
          (s.dist.word (enableClr0 + n) &&& ~~~storedWord s fsr s.tcb = s.dist.word (enableClr0 + n) ∧
            s.dist.word (enableClr + n) &&& ~~~storedWord s fsr s.tcb = s.dist.word (enableClr + n)))) := by
  have hwords : ∀ s : Vmm φ, ViewsAgree env s ↔ WordsAgree s.dist := fun s =>
    forall_congr' fun r => forall_congr' fun n => imp_congr_right fun hn => shows_iff hstop htcb (by omega)
  refine ⟨hwords, fun s hs => ?_, fun s s' n fsr b hn hword hwrite => ⟨fun hrun => ?_, fun hrun => ?_⟩⟩
  · have hkept := (reachable_dist hstop bitmapsKept_kept (fun _ hi => hi) (bitmapsKept_reset _) hs).2
    exact (hwords s).trans (wordsAgree_iff hkept)
  · exact setsBack_iff hstop htcb hn (enables_of_write hn hword hstop hwrite hrun)
  · rw [clearsBack_iff hstop htcb hn (disables_of_write hn hword hstop hwrite hrun)]
    by_cases hz : n = 0
    · simp [hz]
    · simp [withoutSgis, hz]

end Back

/-- PPI 27 is enabled through the first register. -/
theorem viewsAgree_iff_ppi : ∃ (s s' : Vmm VmmAckFn) (b : Bool),
    handleFault (vmmEnv .qemuArmVirtHyp) (.vmFault (0x8000000 + BitVec.ofNat 64 (0x100 + 4 * 0)) storeWord) s = .ok b s' ∧
      SetsBack (vmmEnv .qemuArmVirtHyp) s s' 0 0x8000000 := by
  obtain ⟨b, s', hrun, -⟩ := ok_of_endsIn (x := handleFault (vmmEnv .qemuArmVirtHyp)
      (.vmFault (0x8000000 + BitVec.ofNat 64 (0x100 + 4 * 0)) storeWord))
    (s := vgicInit (vmmEnv .qemuArmVirtHyp) (.filled 0x8000000)) (p := fun _ => true) (by decide +kernel)
  have hback := ((viewsAgree_iff rfl (vmmEnv_tcb .qemuArmVirtHyp)).2.2 _ s' 0 storeWord b (by decide) ⟨by decide, by decide⟩
    (by decide)).1 hrun
  exact ⟨_, s', b, hrun, hback.mpr (.inl rfl)⟩

/-- SPI 33 is enabled, and the register that should show it reads as 0. -/
theorem isenabler1_reads_zero : ∃ s : Vmm VmmAckFn, Reachable (vmmEnv .qemuArmVirtHyp) (AccessBelow (vmmEnv .qemuArmVirtHyp)) s ∧
    isEnabled s.dist 33 vcpuId = true ∧ WordReads (vmmEnv .qemuArmVirtHyp) s (BitmapRegister.isenabler.offset 1) 0 ∧
    ¬ViewsAgree (vmmEnv .qemuArmVirtHyp) s := by
  obtain ⟨s, hs, hp⟩ := exists_reachable (vmmEnv .qemuArmVirtHyp) (AccessBelow (vmmEnv .qemuArmVirtHyp))
    (fun s => isEnabled s.dist 33 vcpuId && decide (s.dist.word enableSet = 0))
    (guestStore (vmmEnv .qemuArmVirtHyp) 0x104 2) (by decide +kernel) (by decide +kernel)
  simp only [Bool.and_eq_true, decide_eq_true_eq] at hp
  have hread : WordReads (vmmEnv .qemuArmVirtHyp) s (BitmapRegister.isenabler.offset 1) 0 :=
    (wordReads_iff rfl (vmmEnv_tcb _) (by decide)).mpr hp.2.symm
  refine ⟨s, hs, hp.1, hread, fun h => ?_⟩
  obtain ⟨v, hv, hbits⟩ := h .isenabler 1 (by decide)
  have hzero : v = 0 := ((wordReads_iff rfl (vmmEnv_tcb _) (by decide)).mp hv).trans hp.2
  have hbit := hbits 1 (by decide)
  rw [hzero] at hbit
  exact absurd (hbit.trans hp.1) (by decide)

end Sel4cpVmm
