import Sel4cpVmm.Proofs.Guest

/-!
# Writes to the enable registers

A word written to a set-enable or clear-enable register changes one word of each enable bitmap as a whole,
whatever the ack callbacks inject on the way.
-/

namespace Sel4cpVmm

open StopProgram GicDistMap

variable {φ : Type} {env : Env φ}

/-- The interrupts of the bits of `x`, written to the register of bank word `n`. -/
def registerIrqs (n : Nat) (x : U32) : List Int := (WordBits.bits x).map fun k => ((k + 32 * n : Nat) : Int)

/-- The word that holds the bits of bank word `n`, as the bitmap helpers find it. -/
def registerWord (w0 w n : Nat) : Nat := if n = 0 then w0 else w + n

/-- The bits of bank word `n` that `vgic_dist_disable_irq` disables. -/
def withoutSgis (n : Nat) (x : U32) : U32 := if n = 0 then x &&& ~~~0xffff else x

/-- The interrupts of a list are enabled or disabled one after the other. -/
def setEnables (b : Bool) (d : GicDistMap) (irqs : List Int) : GicDistMap :=
  irqs.foldl (fun d i => setEnable d i b vcpuId) d

/-- The word a store with the syndrome writes. -/
def storedWord (s : Vmm φ) (fsr : U64) (regs : UserContext) : U32 := (rtValue regs fsr s.wzr).setWidth 32

lemma setWidth_and_word (val : U64) : val.setWidth 32 &&& (0xffffffff : U64).setWidth 32 = val.setWidth 32 :=
  BitVec.and_allOnes

lemma setWidth_word (val : U64) : ((val <<< 0) &&& 0xffffffff : U64).setWidth 32 = val.setWidth 32 := by
  rw [BitVec.shiftLeft_zero, BitVec.setWidth_and, setWidth_and_word]

section Words

variable {sw cw w n : Nat} {d d' : GicDistMap} {b : Bool} {x : U32}

lemma word_setMirrored_congr (i : Int) (h : d.word w = d'.word w) (hne : sw ≠ cw) :
    (setMirrored sw cw d i b).word w = (setMirrored sw cw d' i b).word w := by
  by_cases hw : w = sw ∨ w = cw
  · apply BitVec.eq_of_getLsbD_eq
    intro k _
    rw [getLsbD_setMirrored hne hw, getLsbD_setMirrored hne hw, h]
  · obtain ⟨hs, hc⟩ := not_or.mp hw
    rw [word_setMirrored hs hc, word_setMirrored hs hc, h]

lemma word_foldl_setMirrored (hs : w ≠ sw) (hc : w ≠ cw) (l : List Int) :
    (l.foldl (fun d i => setMirrored sw cw d i b) d).word w = d.word w := by
  induction l generalizing d with
  | nil => rfl
  | cons i l ih => rw [List.foldl_cons, ih, word_setMirrored hs hc]

lemma getLsbD_foldl_setMirrored (hne : sw ≠ cw) (hw : w = sw ∨ w = cw) (l : List Int) (k : Nat) :
    ((l.foldl (fun d i => setMirrored sw cw d i b) d).word w).getLsbD k =
      if ∃ i ∈ l, k = (i % 32).toNat then b else (d.word w).getLsbD k := by
  induction l generalizing d with
  | nil => simp
  | cons i l ih =>
    rw [List.foldl_cons, ih, getLsbD_setMirrored hne hw]
    simp only [List.mem_cons, exists_eq_or_imp]
    by_cases hi : k = (i % 32).toNat <;> simp [hi]

lemma registerWord_ne (n : Nat) : registerWord enableSet0 enableSet n ≠ registerWord enableClr0 enableClr n := by
  unfold registerWord
  split_ifs <;> simp

lemma bankWord_register {w0 k : Nat} (hk : k < 32) : bankWord w0 w ((k + 32 * n : Nat) : Int) = registerWord w0 w n := by
  unfold bankWord registerWord irqIdx
  split_ifs <;> omega

lemma exists_register {k : Nat} (hk : k < 32) : (∃ i ∈ registerIrqs n x, k = (i % 32).toNat) ↔ x.getLsbD k = true := by
  simp only [registerIrqs, List.mem_map, exists_exists_and_eq_and, WordBits.mem_bits]
  constructor
  · rintro ⟨j, hj, hkj⟩
    have hlt := BitVec.lt_of_getLsbD hj
    obtain rfl : k = j := by omega
    exact hj
  · exact fun h => ⟨k, h, by omega⟩

lemma setEnables_eq : setEnables b d (registerIrqs n x) = (registerIrqs n x).foldl (fun d i =>
    setMirrored (registerWord enableSet0 enableSet n) (registerWord enableClr0 enableClr n) d i b) d := by
  refine List.foldl_ext _ _ _ fun d i hi => ?_
  obtain ⟨k, hk, rfl⟩ := List.mem_map.mp hi
  have hlt := BitVec.lt_of_getLsbD (WordBits.mem_bits.mp hk)
  rw [setEnable_eq, bankWord_register hlt, bankWord_register hlt]

lemma word_setEnables : (setEnables b d (registerIrqs n x)).word w =
    if w = registerWord enableSet0 enableSet n ∨ w = registerWord enableClr0 enableClr n then
      (if b then d.word w ||| x else d.word w &&& ~~~x)
    else d.word w := by
  rw [setEnables_eq]
  by_cases hw : w = registerWord enableSet0 enableSet n ∨ w = registerWord enableClr0 enableClr n
  · rw [if_pos hw]
    apply BitVec.eq_of_getLsbD_eq
    intro k hk
    rw [getLsbD_foldl_setMirrored (registerWord_ne n) hw]
    simp only [exists_register hk]
    cases b
    · simp only [Bool.false_eq_true, if_false, BitVec.getLsbD_and, BitVec.getLsbD_not, hk, decide_true, Bool.true_and]
      cases x.getLsbD k <;> simp
    · simp only [if_true, BitVec.getLsbD_or]
      cases x.getLsbD k <;> simp
  · obtain ⟨hs, hc⟩ := not_or.mp hw
    rw [if_neg hw, word_foldl_setMirrored hs hc]

/-- The interrupts disabled are those of the mask without the SGIs. -/
lemma filter_registerIrqs : (registerIrqs n x).filter (fun i => decide (numSgiVirqs ≤ i)) =
    registerIrqs n (withoutSgis n x) := by
  unfold registerIrqs
  rw [List.filter_map]
  congr 1
  unfold WordBits.bits
  rw [List.filter_filter]
  refine List.filter_congr fun k hk => ?_
  rw [List.mem_range] at hk
  have hlow : (0xffff : U32).getLsbD k = decide (k < 16) := by
    have hmask : (0xffff : U32) = BitVec.ofNat 32 (2 ^ 16 - 1) := rfl
    rw [hmask, BitVec.getLsbD_ofNat, Nat.testBit_two_pow_sub_one, decide_eq_true hk, Bool.true_and]
  unfold withoutSgis
  simp only [Function.comp_apply, numSgiVirqs]
  by_cases hn : n = 0
  · rw [if_pos hn, BitVec.getLsbD_and, BitVec.getLsbD_not, hlow, decide_eq_true hk, Bool.true_and, Bool.and_comm]
    congr 1
    simp only [hn, ← decide_not, decide_eq_decide]
    omega
  · rw [if_neg hn]
    have hle : (16 : Int) ≤ ((k + 32 * n : Nat) : Int) := by omega
    rw [decide_eq_true hle, Bool.true_and]

lemma foldl_filter_setEnable (l : List Int) :
    l.foldl (fun d i => if numSgiVirqs ≤ i then setEnable d i false vcpuId else d) d =
      setEnables false d (l.filter fun i => decide (numSgiVirqs ≤ i)) := by
  unfold setEnables
  induction l generalizing d with
  | nil => rfl
  | cons i l ih =>
    rw [List.foldl_cons, ih]
    by_cases hi : numSgiVirqs ≤ i <;> simp [hi]

end Words

/-! ### The operations -/

/-- The words below the pending bitmaps are as before. -/
def EnablesKept (d d' : GicDistMap) : Prop := ∀ w < pendingSet0, d'.word w = d.word w

lemma enablesKept_setPending (d : GicDistMap) (i : Int) (b : Bool) (v : VcpuId) : EnablesKept d (setPending d i b v) := by
  intro w hw
  have hs : pendingSet0 ≤ bankWord pendingSet0 pendingSet i := bankWord_ge (by decide) i
  have hc : pendingClr0 ≤ bankWord pendingClr0 pendingClr i := bankWord_ge (by decide) i
  rw [setPending_eq]
  simp only [pendingSet0, pendingClr0] at *
  exact word_setMirrored (by omega) (by omega)

instance : Std.Refl (fun s s' : Vmm φ => EnablesKept s.dist s'.dist) := ⟨fun _ _ _ => rfl⟩

instance : IsTrans (Vmm φ) (fun s s' => EnablesKept s.dist s'.dist) := ⟨fun _ _ _ h h' w hw => (h' w hw).trans (h w hw)⟩

lemma enablesKept_virqAck (h : VirqHandle φ) :
    Always (fun s s' => EnablesKept s.dist s'.dist) (virqAck env vcpuId h) :=
  within_virqAck_injecting (fun _ => within_modify fun _ _ _ => rfl) (fun _ _ _ => within_modify fun _ _ _ => rfl)
    (fun i b v => within_modify fun s => enablesKept_setPending s.dist i b v) (fun _ _ => within_modify fun _ _ _ => rfl)
    vcpuId h

lemma enablesKept_setEnable {d d' : GicDistMap} (h : EnablesKept d d') (i : Int) (b : Bool) :
    EnablesKept (setEnable d i b vcpuId) (setEnable d' i b vcpuId) := by
  intro w hw
  have hne : bankWord enableSet0 enableSet i ≠ bankWord enableClr0 enableClr i := by
    unfold bankWord
    split_ifs <;> simp
  rw [setEnable_eq, setEnable_eq]
  exact word_setMirrored_congr i (h w hw) hne

section Runs

variable {s : Vmm φ} {irqs : List Int}

/-- Enabling interrupts sets their bits, whatever their callbacks inject. -/
lemma wp_enables (hstop : env.assertStops = true) : wp (forM (irqs.map Action.enable) (Action.run env))
    (fun _ t => EnablesKept (setEnables true s.dist irqs) t.dist) (fun _ _ => True) s := by
  rw [List.forM_map]
  refine wp_forM (g := fun d i => setEnable d i true vcpuId) (I := fun d (t : Vmm φ) => EnablesKept d t.dist) (x := s.dist)
    (fun i _ d t hd => ?_) (fun _ _ => rfl)
  have henabled : EnablesKept (setEnable d i true vcpuId) (enabled t i).dist := enablesKept_setEnable hd i true
  refine wp_vgicDistEnableIrq hstop (fun _ => trivial) (fun _ => henabled) fun h _ _ => ?_
  refine wp_mono (enablesKept_virqAck h (enabled t i)) (fun _ u hu => ?_) (fun _ _ _ => trivial)
  exact fun w hw => (hu w hw).trans (henabled w hw)

lemma forM_modifyDist (l : List Int) (f : GicDistMap → Int → GicDistMap) :
    forM l (fun i => (modifyDist fun d => f d i : M φ Unit)) s = .ok () { s with dist := l.foldl f s.dist } := by
  induction l generalizing s with
  | nil => rfl
  | cons i l ih =>
    rw [List.forM_cons]
    exact ih (s := { s with dist := f s.dist i })

lemma run_disables : forM (irqs.map Action.disable) (Action.run env) s =
    .ok () { s with dist := setEnables false s.dist (irqs.filter fun i => decide (numSgiVirqs ≤ i)) } := by
  have hrun : ∀ i, Action.run env (.disable i) =
      modifyDist fun d => if numSgiVirqs ≤ i then setEnable d i false vcpuId else d := by
    intro i
    change vgicDistDisableIrq vcpuId i = _
    unfold vgicDistDisableIrq
    by_cases hi : numSgiVirqs ≤ i
    · simp only [hi, if_true]
    · simp only [hi, if_false]
      rfl
  simp only [List.forM_map, hrun]
  rw [forM_modifyDist, foldl_filter_setEnable]

lemma run_clearEnables : forM (irqs.map Action.clearEnable) (Action.run env) s =
    .ok () { s with dist := setEnables false s.dist irqs } := by
  rw [List.forM_map]
  exact forM_modifyDist irqs fun d i => setEnable d i false vcpuId

end Runs

end Sel4cpVmm
