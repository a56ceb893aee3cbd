import Sel4cpVmm.Proofs.DistRuns
import Sel4cpVmm.Proofs.Guest

/-!
# Registers that no run changes

The guest's stores reach the control register and the group, enable, pending and active bits. Every other register of
the distributor and of the redistributor reads in all runs as it does after the reset: the priorities, the targets and
the trigger modes of the interrupts as well as the identification registers.
-/

namespace Sel4cpVmm

open StopProgram GicDistMap

variable {φ : Type} {env : Env φ}

/-- The word is neither `CTLR` nor one of the group, enable, pending and active bits. -/
def FixedWord (w : Nat) : Prop := w ≠ ctlr ∧ (w < irqGroup0 ∨ priority0 ≤ w)

/-- The fixed words are as after the reset. -/
def FixedAsReset (g : GicVersion) (d : GicDistMap) : Prop :=
  ∀ w, FixedWord w → d.word w = (vgicDistReset g ⟨fun _ => 0⟩).word w

/-- Neither `CTLR` nor a register of such bits is at the offset into the distributor. -/
def FixedOffset (offset : Nat) : Prop :=
  gicDistTyper ≤ offset ∧ (offset < gicDistIgroupr0 ∨ gicDistIpriorityr0 ≤ offset)

instance (offset : Nat) : Decidable (FixedOffset offset) := inferInstanceAs (Decidable (_ ∧ (_ ∨ _)))

/-- The redistributor has such bits only in `IGROUPR0`, if they are read. -/
def FixedAddr (env : Env φ) (addr : U64) : Prop :=
  if InDist env addr then FixedOffset (addr - env.board.gicDistPaddr).toNat
  else range32 (addr - Board.gicRedistPaddr).toNat gicrIgroupr0 gicrIgroupr0 = false

instance (addr : U64) : Decidable (FixedAddr env addr) := inferInstanceAs (Decidable (ite _ _ _))

/-- The guest reads `r` and goes on. -/
def loadResult (s : Vmm φ) (addr fsr : U64) : Option U32 → Vmm φ
  | some reg => readBack s s.tcb addr fsr reg
  | none => resumed s s.tcb

/-! ### Words -/

section Words

variable {g : GicVersion} {d : GicDistMap} {i : Int} {b : Bool} {w w0 w1 : Nat}

/-- A write-one access beyond the bitmaps does not leave the registers of bits either. -/
lemma ne_bankWord (hw : FixedWord w) (h0 : irqGroup0 ≤ w0 ∧ w0 < priority0) (h1 : irqGroup0 ≤ w1 ∧ w1 + 32 < priority0)
    (hi : 0 ≤ i ∧ i < 1056) : w ≠ bankWord w0 w1 i := by
  obtain ⟨-, hw⟩ := hw
  unfold bankWord irqIdx
  split_ifs <;> omega

lemma fixed_setPending (hw : FixedWord w) (hi : 0 ≤ i ∧ i < 1056) : (setPending d i b vcpuId).word w = d.word w := by
  rw [setPending_eq]
  exact word_setMirrored (ne_bankWord hw (by decide) (by decide) hi) (ne_bankWord hw (by decide) (by decide) hi)

lemma fixed_setEnable (hw : FixedWord w) (hi : 0 ≤ i ∧ i < 1056) : (setEnable d i b vcpuId).word w = d.word w := by
  rw [setEnable_eq]
  exact word_setMirrored (ne_bankWord hw (by decide) (by decide) hi) (ne_bankWord hw (by decide) (by decide) hi)

lemma fixed_store (hw : FixedWord w) (hplain : IsPlainWord w0) (x : U32) : (d.set w0 x).word w = d.word w := by
  have hne : w ≠ w0 := by
    obtain ⟨-, hw⟩ := hw
    rcases hplain with h | h
    · simp only [irqGroup0, enableSet0, priority0] at *
      omega
    · simp only [irqGroup0, active0, priority0] at *
      omega
  rw [word_set, if_neg hne]

lemma keptByBanks_fixed : KeptByBanks (fun i => 0 ≤ i ∧ i < 1056) g (FixedAsReset g) where
  setPending d i b hi hd w hw := (fixed_setPending hw hi).trans (hd w hw)
  enable d i hi hd w hw := (fixed_setEnable hw ⟨hi.1, Int.lt_trans hi.2 (by decide)⟩).trans (hd w hw)
  disable d i hi hd w hw :=
    (fixed_setEnable hw ⟨Int.le_trans (by decide) hi.1, Int.lt_trans hi.2 (by decide)⟩).trans (hd w hw)
  clearEnable _ d i hi hd w hw := (fixed_setEnable hw ⟨hi.1, Int.lt_trans hi.2 (by decide)⟩).trans (hd w hw)
  ctlr d x hd w hw := by
    rw [word_set, if_neg hw.1]
    exact hd w hw

end Words

/-! ### Reads -/

section Reads

variable {g : GicVersion} {d : GicDistMap} {offset w a : Nat}

lemma word_of_range {w0 r e : Nat} (hr : range32 offset r e = true) (hw : w0 * 4 = r) :
    w0 + gicDistRegn offset r = offset / 4 := by
  simp only [range32, gicDistRegn, Bool.and_eq_true, decide_eq_true_eq] at hr ⊢
  omega

/-- The words of `struct gic_dist_map` are at the offsets of their registers. -/
lemma distRead_word (h : distRead g vcpuId offset = .word w) : w = offset / 4 := by
  have hsingle : ∀ w0 r, range32 offset r r = true → w0 * 4 = r → w0 = offset / 4 := by
    intro w0 r hr hw
    simp only [range32, Bool.and_eq_true, decide_eq_true_eq] at hr
    omega
  unfold distRead at h
  repeat' (replace h := ite_eq_iff.mp h; rcases h with ⟨hr, h⟩ | ⟨-, h⟩)
  all_goals try contradiction
  all_goals obtain rfl := DistRead.word.inj h
  all_goals first | exact hsingle _ _ hr rfl | exact word_of_range hr rfl

lemma distRead_raw (h : distRead g vcpuId offset = .raw a) : 4 * priority0 ≤ a := by
  unfold distRead at h
  repeat' (replace h := ite_eq_iff.mp h; rcases h with ⟨hr, h⟩ | ⟨-, h⟩)
  all_goals try contradiction
  all_goals
    obtain rfl := DistRead.raw.inj h
    simp only [priority0, spi, periphId, irouter, pidrn]
    omega

lemma FixedAsReset.load32 (hd : FixedAsReset g d) (ha : 4 * priority0 ≤ a) :
    d.load32 a = (vgicDistReset g ⟨fun _ => 0⟩).load32 a := by
  have hbyte : ∀ k, d.byte (a + k) = (vgicDistReset g ⟨fun _ => 0⟩).byte (a + k) := by
    intro k
    have hw : FixedWord ((a + k) / 4) := by
      simp only [FixedWord, ctlr, priority0] at ha ⊢
      omega
    rw [byte, byte, hd _ hw]
  have h0 := hbyte 0
  rw [Nat.add_zero] at h0
  rw [GicDistMap.load32, GicDistMap.load32, hbyte 3, hbyte 2, hbyte 1, h0]

lemma FixedAsReset.distValue (hd : FixedAsReset g d) (ho : FixedOffset offset) :
    distValue g d offset = distValue g (vgicDistReset g ⟨fun _ => 0⟩) offset := by
  unfold Sel4cpVmm.distValue
  cases hk : distRead g vcpuId offset with
  | unknown => rfl
  | zero => rfl
  | word w =>
    have hw : FixedWord w := by
      rw [distRead_word hk]
      simp only [FixedOffset, FixedWord, ctlr, irqGroup0, priority0, gicDistTyper, gicDistIgroupr0, gicDistIpriorityr0]
        at ho ⊢
      omega
    exact congrArg some (hd w hw)
  | raw a => exact congrArg some (hd.load32 (distRead_raw hk))

lemma FixedAsReset.redistValue {s t : Vmm φ} (hd : FixedAsReset g s.dist) (ht : t.dist = vgicDistReset g ⟨fun _ => 0⟩)
    (hr : s.redist = t.redist) (ho : range32 offset gicrIgroupr0 gicrIgroupr0 = false) :
    redistValue s offset = redistValue t offset := by
  unfold Sel4cpVmm.redistValue
  rw [hr, ht]
  cases hk : redistRead vcpuId offset with
  | distRaw a =>
    have ha : 4 * priority0 ≤ a := by
      unfold redistRead at hk
      repeat' (replace hk := ite_eq_iff.mp hk; rcases hk with ⟨hr, hk⟩ | ⟨-, hk⟩)
      all_goals try contradiction
      · exact absurd (ho.symm.trans hr) (by simp)
      · obtain rfl := RedistRead.distRaw.inj hk
        simp only [priority0, config]
        omega
    exact congrArg some (hd.load32 ha)
  | _ => rfl

end Reads

/-! ### Runs -/

section Runs

variable (hstop : env.assertStops = true)

include hstop

/-- No operation writes to the redistributor. -/
lemma redistKept_action (a : Action φ) : Within (fun s t : Vmm φ => t.redist = s.redist) (a.run env) := by
  have : Std.Refl (fun s t : Vmm φ => t.redist = s.redist) := ⟨fun _ => rfl⟩
  have : IsTrans (Vmm φ) (fun s t => t.redist = s.redist) := ⟨fun _ _ _ h h' => h'.trans h⟩
  have hlog : ∀ e : Event φ, Within (fun s t : Vmm φ => t.redist = s.redist) (logEvent e) := fun _ => within_modify fun _ => rfl
  have hdist : ∀ f, Within (fun s t : Vmm φ => t.redist = s.redist) (modifyDist f : M φ Unit) :=
    fun _ => within_modify fun _ => rfl
  have hvgic : ∀ f, Within (fun s t : Vmm φ => t.redist = s.redist) (modifyVgic f : M φ Unit) :=
    fun _ => within_modify fun _ => rfl
  have hinject : ∀ irq, Within (fun s t : Vmm φ => t.redist = s.redist) (vgicInjectIrq env vcpuId irq) :=
    fun irq => within_vgicInjectIrq hvgic (fun e _ _ => hlog e) (fun _ _ _ => hdist _) vcpuId irq
  cases a with
  | register irq ackFn ackData =>
    refine within_bind (fun s => ?_) fun _ => within_pure _
    refine wp_mono (wp_vgicRegisterIrq hstop) (fun b t h => ?_) (fun _ _ _ => trivial)
    rcases h with ⟨-, rfl⟩ | ⟨-, p, v, -, rfl⟩ <;> rfl
  | inject irq => exact within_bind (hinject irq) fun _ => within_pure _
  | notification irq => exact within_bind (hlog _) fun _ => within_bind (hinject irq) fun _ => within_pure _
  | vppiEvent irq =>
    exact within_bind (hlog _) fun _ => within_bind (within_handleVppiEvent hinject hlog irq) fun _ => within_pure _
  | retire idx err =>
    refine within_bind ?_ fun _ => within_pure _
    exact within_vgicMaintenanceBody hvgic (fun e _ _ => hlog e) (fun _ _ _ => hdist _) (fun _ _ => hlog _) idx err
  | enable irq =>
    exact within_vgicDistEnableIrq hvgic (fun e _ _ => hlog e) (fun _ _ _ => hdist _) (fun _ _ => hlog _)
      (fun _ _ => hdist _) _ _
  | disable irq => exact within_ite (hdist _) (within_pure _)
  | clearEnable irq => exact hdist fun d => setEnable d irq false vcpuId
  | clrPending irq => exact hdist fun d => setPending d irq false vcpuId
  | store w mask bits => exact hdist fun d => d.set w (d.word w &&& ~~~mask ||| bits)
  | ctlr data => exact within_ite (hdist _) (within_ite (hdist _) (within_pure _))
  | fail => exact within_cAssert _

/-- An operation that names numbers up to the last bit of `ISENABLER31` keeps the fixed words. -/
lemma fixed_action {a : Action φ} (hb : a.Bits 1056)
    (hreg : ∀ irq fn data, a = .register irq fn data → 0 ≤ irq → 0 ≤ irq ∧ irq < 1056)
    (hclear : ∀ irq, a = .clearEnable irq → env.board.gic = .v3 ∧ 0 ≤ irq ∧ irq < (numVcpuLocalVirqs : Int)) :
    Keeps (fun s => s.vgic.InRange (fun i => 0 ≤ i ∧ i < 1056) ∧ FixedAsReset env.board.gic s.dist) (a.run env) := by
  have hbanks : ∀ f : GicDistMap → GicDistMap, (∀ d w, FixedWord w → (f d).word w = d.word w) →
      Keeps (fun s => s.vgic.InRange (fun i => 0 ≤ i ∧ i < 1056) ∧ FixedAsReset env.board.gic s.dist)
        (modifyDist f : M φ Unit) :=
    fun f hf => within_modify fun s hI => ⟨hI.1, fun w hw => (hf s.dist w hw).trans (hI.2 w hw)⟩
  have hkeeps : a.Allowed (fun i => 0 ≤ i ∧ i < 1056) →
      Keeps (fun s => s.vgic.InRange (fun i => 0 ≤ i ∧ i < 1056) ∧ FixedAsReset env.board.gic s.dist) (a.run env) := by
    refine fun ha => keeps_dist hstop keptByBanks_fixed ha (fun w mask bits he d hd w' hw => ?_) hclear
    subst he
    exact (fixed_store hw hb _).trans (hd w' hw)
  cases a with
  | register irq fn data => exact hkeeps (hreg irq fn data rfl)
  | enable irq =>
    refine keeps_of_wp fun s hI => ?_
    have henabled : (enabled s irq).vgic.InRange (fun i => 0 ≤ i ∧ i < 1056) ∧
        FixedAsReset env.board.gic (enabled s irq).dist := ⟨hI.1, fun w hw => (fixed_setEnable hw hb).trans (hI.2 w hw)⟩
    refine wp_vgicDistEnableIrq hstop (fun _ => trivial) (fun _ => henabled) (fun h _ _ => ?_)
    exact wp_mono (keeps_dist_virqAck hstop keptByBanks_fixed h (enabled s irq)) (fun _ _ ht => ht henabled) (fun _ _ => id)
  | disable irq =>
    change Keeps _ (vgicDistDisableIrq vcpuId irq)
    unfold vgicDistDisableIrq
    exact within_ite (hbanks _ fun _ _ hw => fixed_setEnable hw hb) (within_pure _)
  | clrPending irq => exact hbanks (fun d => setPending d irq false vcpuId) fun _ _ hw => fixed_setPending hw hb
  | store w mask bits => exact hkeeps hb
  | _ => exact hkeeps trivial

lemma fixed_opAction {s : Vmm φ} {op : Op φ} (hop : RegistersOnly (· < 1056) op) {a : Action φ}
    (ha : a ∈ opActions env s op) :
    Keeps (fun s => s.vgic.InRange (fun i => 0 ≤ i ∧ i < 1056) ∧ FixedAsReset env.board.gic s.dist) (a.run env) := by
  refine fixed_action hstop (bits_opActions ha) (fun irq fn data he h0 => ?_) fun irq he => ?_
  · subst he
    obtain rfl := op_of_register ha
    exact ⟨h0, hop h0⟩
  · exact clearEnable_mem (he ▸ ha)

lemma fixed_reachable {s : Vmm φ} (hs : Reachable env (fun _ op => RegistersOnly (· < 1056) op) s) (tcb : UserContext) :
    (s.vgic.InRange (fun i => 0 ≤ i ∧ i < 1056) ∧ FixedAsReset env.board.gic s.dist) ∧
      s.redist = (vgicInit env tcb).redist := by
  refine reachable_invariant (I := fun s => (s.vgic.InRange (fun i => 0 ≤ i ∧ i < 1056) ∧
      FixedAsReset env.board.gic s.dist) ∧ s.redist = (vgicInit env tcb).redist) hstop
    (fun tcb => ⟨⟨inRange_init, fun _ _ => rfl⟩, rfl⟩) (fun s t hf hI => ?_) (fun s op hI hop => ?_) hs
  · exact ⟨⟨hf.vgic ▸ hI.1.1, hf.dist ▸ hI.1.2⟩, hf.redist.trans hI.2⟩
  · have hfixed := within_forM (l := opActions env s op) (f := Action.run env) (fun a ha => fixed_opAction hstop hop ha) s
    have hredist := within_forM (R := fun s t : Vmm φ => t.redist = s.redist) (l := opActions env s op) (f := Action.run env)
      (fun a _ => redistKept_action hstop a) s
    exact wp_mono (wp_and hfixed hredist) (fun _ t ht => ⟨ht.1 hI.1, ht.2.trans hI.2⟩) (fun _ _ _ => trivial)

/-- In every run in which the interrupts registered are below 1056, whatever the guest stores: a load from one of these
registers that ends is answered with the value after the reset. -/
theorem fixed_registers_as_reset {s : Vmm φ} (hs : Reachable env (fun _ op => RegistersOnly (· < 1056) op) s)
    {addr fsr : U64} (hfixed : FixedAddr env addr) (hread : faultIsRead fsr = true) (tcb : UserContext) {b : Bool}
    {s' : Vmm φ} (hrun : handleFault env (.vmFault addr fsr) s = .ok b s') :
    s' = loadResult s addr fsr (accessValue env (vgicInit env tcb) addr) := by
  obtain ⟨⟨-, hdist⟩, hredist⟩ := fixed_reachable hstop hs tcb
  have hvalue : accessValue env s addr = accessValue env (vgicInit env tcb) addr := by
    unfold FixedAddr at hfixed
    unfold accessValue
    split_ifs at hfixed ⊢
    · exact hdist.distValue hfixed
    · exact hdist.redistValue rfl hredist hfixed
  have hwp : wp (handleVmFault env addr fsr) (fun _ t => t = loadResult s addr fsr (accessValue env s addr))
      (fun _ _ => True) s := by
    refine wp_vmFault hstop (fun _ _ _ => trivial) (fun _ => ⟨fun reg hreg _ => ?_, fun hnone => ?_⟩) fun hwrite => ?_
    · rw [hreg]
      rfl
    · rw [hnone]
      rfl
    · simp [faultIsRead, hwrite] at hread
  have hres := wp_ok hwp hrun
  rw [← hvalue]
  exact hres

end Runs

/-- The guest clears the targets of its local interrupts and reads them back. -/
theorem fixed_registers_as_reset_targets : ∃ s s' : Vmm VmmAckFn, ∃ b,
    handleFault (vmmEnv .qemuArmVirtHyp) (.vmFault 0x8000800 loadWord) s = .ok b s' ∧
      s' = loadResult s 0x8000800 loadWord (some 0x1010101) := by
  obtain ⟨s, hs, hp⟩ := exists_reachable (vmmEnv .qemuArmVirtHyp) (fun _ op => RegistersOnly (· < 1056) op)
    (fun s => endsIn (handleFault (vmmEnv .qemuArmVirtHyp) (.vmFault 0x8000800 loadWord)) s fun _ => true)
    (guestStore (vmmEnv .qemuArmVirtHyp) 0x800 0) ⟨trivial, trivial, trivial⟩ (by decide +kernel)
  obtain ⟨b, s', hrun, -⟩ := ok_of_endsIn hp
  have hvalue : accessValue (vmmEnv .qemuArmVirtHyp) (vgicInit (vmmEnv .qemuArmVirtHyp) (.filled 0)) 0x8000800 =
      some 0x1010101 := by decide +kernel
  have hfixed : FixedAddr (vmmEnv .qemuArmVirtHyp) 0x8000800 := by decide
  have hread : faultIsRead loadWord = true := by decide
  have hload := fixed_registers_as_reset rfl hs hfixed hread (.filled 0) hrun
  rw [hvalue] at hload
  exact ⟨s, s', b, hrun, hload⟩

end Sel4cpVmm
