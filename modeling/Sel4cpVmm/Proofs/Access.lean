import Sel4cpVmm.Proofs.View

/-!
# Trapped accesses as lists of operations

Decoding a data abort neither changes the state nor stops the VMM when the syndrome is valid, so a
trapped access is a list of operations on the vGIC, fixed before the first of them runs, and the
return to the guest. `step_wp` says the same of every step of the system.
-/

namespace Sel4cpVmm

open StopProgram

variable {φ : Type} {env : Env φ}

/-! ### Decoding the syndrome -/

section Decode

variable {s : Vmm φ} {E : Stop → Vmm φ → Prop} {addr fsr : U64} {regs : UserContext}

/-- What `fault_get_data_mask` accepts. -/
def AccessOk (addr fsr : U64) : Prop :=
  hsrIsSyndromeValid fsr = true ∧ (accessWidth fsr).misaligned addr = 0

/-- The register operand of a valid syndrome. -/
def rtPtr (fsr : U64) : RtPtr :=
  if h : (hsrSyndromeRt fsr).toNat < 31 then .reg ⟨(hsrSyndromeRt fsr).toNat, h⟩ else .wzr

lemma rtPtr_read (wzr : U64) : (rtPtr fsr).read regs wzr = rtValue regs fsr wzr := by
  unfold rtPtr rtValue
  split_ifs <;> rfl

lemma hsrSyndromeRt_le (fsr : U64) : (hsrSyndromeRt fsr).toNat ≤ 31 := by
  unfold hsrSyndromeRt
  rw [BitVec.toNat_and]
  exact Nat.and_le_right

def IsWordAccess (fsr : U64) : Prop := hsrIsSyndromeValid fsr = true ∧ syndromeWidth fsr = .word

lemma aligned_iff {a : U64} : a &&& 0x3 = 0 ↔ a.toNat % 4 = 0 := by
  rw [← BitVec.toNat_inj, BitVec.toNat_and]
  exact iff_of_eq (congrArg (· = 0) (Nat.and_two_pow_sub_one_eq_mod a.toNat 2))

lemma aligned_add {a b : U64} (ha : a &&& 0x3 = 0) (hb : b &&& 0x3 = 0) : (a + b) &&& 0x3 = 0 := by
  rw [aligned_iff] at *
  rw [BitVec.toNat_add]
  omega

lemma laneShift_of_aligned (h : addr &&& 0x3 = 0) : laneShift addr = 0 := by
  rw [laneShift, h]
  rfl

lemma IsWordAccess.width (h : IsWordAccess fsr) : accessWidth fsr = .word := by rw [accessWidth, if_pos h.1, h.2]

lemma IsWordAccess.ok (h : IsWordAccess fsr) (ha : addr &&& 0x3 = 0) : AccessOk addr fsr := by
  refine ⟨h.1, ?_⟩
  rw [h.width]
  exact ha

lemma IsWordAccess.dataMask (h : IsWordAccess fsr) (ha : addr &&& 0x3 = 0) : dataMask addr fsr = 0xffffffff := by
  rw [Sel4cpVmm.dataMask, h.width, laneShift_of_aligned ha]
  rfl

variable (hstop : env.assertStops = true)

include hstop

lemma wp_faultGetDataMask {Q : U64 → Vmm φ → Prop} :
    wp (faultGetDataMask env addr fsr) Q E s ↔
      (AccessOk addr fsr → Q (dataMask addr fsr) s) ∧ (¬AccessOk addr fsr → E .assertFailed s) := by
  unfold faultGetDataMask faultGetWidth AccessOk dataMask accessWidth
  cases hv : hsrIsSyndromeValid fsr
  · simp [wp_cAssert_stops hstop]
  · simp only [if_true, wp_bind, wp_pure, wp_cAssert_stops hstop, true_and, decide_eq_true_eq,
      decide_eq_false_iff_not]

/-- Both uses of `get_rt` and `decode_rt` in the source are of this form. -/
lemma wp_decodeRt {α : Type} {k : Option RtPtr → M φ α} {Q : α → Vmm φ → Prop} :
    wp (do
      let rt ← getRt env fsr
      let p ← decodeRt env (BitVec.ofInt 64 rt)
      k p) Q E s ↔
      (hsrIsSyndromeValid fsr = true → wp (k (some (rtPtr fsr))) Q E s) ∧
        (hsrIsSyndromeValid fsr = false → E .assertFailed s) := by
  unfold getRt
  cases hv : hsrIsSyndromeValid fsr
  · simp [wp_cAssert_stops hstop]
  · have hle := hsrSyndromeRt_le fsr
    have hof : BitVec.ofInt 64 ((hsrSyndromeRt fsr).toNat : Int) = hsrSyndromeRt fsr := by simp
    have hpos : (0 : Int) ≤ (hsrSyndromeRt fsr).toNat := by omega
    simp only [if_true, wp_bind, hpos, decide_true, wp_cAssert_true, wp_pure, hof, true_imp_iff,
      Bool.true_eq_false, false_imp_iff, and_true]
    unfold decodeRt rtPtr
    by_cases hlt : (hsrSyndromeRt fsr).toNat < 31
    · simp [hlt]
    · have h31 : (hsrSyndromeRt fsr).toNat = 31 := by omega
      simp [h31]

lemma wp_faultGetData {Q : U64 → Vmm φ → Prop} :
    wp (faultGetData env regs fsr) Q E s ↔
      (hsrIsSyndromeValid fsr = true → Q (rtValue regs fsr s.wzr) s) ∧
        (hsrIsSyndromeValid fsr = false → E .assertFailed s) := by
  unfold faultGetData
  rw [wp_decodeRt hstop]
  simp only [wp_bind, wp_get, wp_pure, rtPtr_read]

lemma faultGetData_eq (hvalid : hsrIsSyndromeValid fsr = true) :
    faultGetData env regs fsr s = .ok (rtValue regs fsr s.wzr) s := by
  have hwp : wp (faultGetData env regs fsr) (fun v t => v = rtValue regs fsr s.wzr ∧ t = s) (fun _ _ => False) s :=
    (wp_faultGetData hstop).mpr ⟨fun _ => ⟨rfl, rfl⟩, fun h => absurd hvalid (by simp [h])⟩
  obtain ⟨v, t, hrun, rfl, rfl⟩ := ok_of_wp hwp
  exact hrun

lemma faultGetDataMask_eq (hok : AccessOk addr fsr) : faultGetDataMask env addr fsr s = .ok (dataMask addr fsr) s := by
  have hwp : wp (faultGetDataMask env addr fsr) (fun m t => m = dataMask addr fsr ∧ t = s) (fun _ _ => False) s :=
    (wp_faultGetDataMask hstop).mpr ⟨fun _ => ⟨rfl, rfl⟩, fun h => absurd hok h⟩
  obtain ⟨m, t, hrun, rfl, rfl⟩ := ok_of_wp hwp
  exact hrun

end Decode

/-! ### Returning to the guest -/

/-- The events of a return to the guest. -/
def Event.isReturn : Event φ → Bool
  | .writeRegisters _ _ => true
  | .reply => true
  | _ => false

/-- Only guest registers and events of a return differ. -/
structure Frame (s s' : Vmm φ) : Prop where
  vgic : s'.vgic = s.vgic
  dist : s'.dist = s.dist
  redist : s'.redist = s.redist
  log : ∃ l, s'.log = s.log ++ l ∧ ∀ e ∈ l, e.isReturn = true

instance : Std.Refl (Frame (φ := φ)) := ⟨fun s => ⟨rfl, rfl, rfl, [], by simp, by simp⟩⟩

instance : IsTrans (Vmm φ) Frame where
  trans s t u h h' := by
    obtain ⟨l, hl, hret⟩ := h.log
    obtain ⟨l', hl', hret'⟩ := h'.log
    refine ⟨h'.vgic.trans h.vgic, h'.dist.trans h.dist, h'.redist.trans h.redist, l ++ l', ?_, ?_⟩
    · rw [hl', hl, List.append_assoc]
    · intro e he
      rcases List.mem_append.mp he with he | he
      · exact hret e he
      · exact hret' e he

lemma frame_log {e : Event φ} (he : e.isReturn = true) (s : Vmm φ) : Frame s { s with log := s.log ++ [e] } :=
  ⟨rfl, rfl, rfl, [e], rfl, by simpa using he⟩

lemma within_logEvent_frame {e : Event φ} (he : e.isReturn = true) : Always Frame (logEvent e) :=
  within_modify (frame_log he)

lemma within_cAssert {R S : Vmm φ → Vmm φ → Prop} [Std.Refl R] [Std.Refl S] (c : Bool) : Bounded R S (cAssert env c) := by
  unfold cAssert
  exact within_ite (within_pure _) (within_throw _)

lemma within_setTcb_frame (regs : UserContext) :
    Always Frame (modify fun s => { s with tcb := regs } : M φ Unit) :=
  within_modify fun t => ⟨rfl, rfl, rfl, [], by simp, by simp⟩

section Handlers

variable {R S : Vmm φ → Vmm φ → Prop} [Std.Refl R] [IsTrans (Vmm φ) R] [Std.Refl S] [Absorbs R S]
  (hlog : ∀ e : Event φ, e.isReturn = true → Bounded R S (logEvent e))
  (htcb : ∀ regs, Bounded R S (modify fun s => { s with tcb := regs } : M φ Unit))

include hlog htcb

omit [Std.Refl S] in
lemma within_tcbWriteRegisters (resume : Bool) (regs : UserContext) :
    Bounded R S (tcbWriteRegisters env resume regs) := by
  unfold tcbWriteRegisters
  refine within_bind within_get fun s => within_bind (hlog _ rfl) fun _ => ?_
  exact within_ite (within_bind (htcb regs) fun _ => within_pure _) (within_pure _)

lemma within_faultAdvanceVcpu (regs : UserContext) : Bounded R S (faultAdvanceVcpu env regs) := by
  unfold faultAdvanceVcpu
  refine within_bind (within_tcbWriteRegisters hlog htcb _ _) fun err => within_bind (within_cAssert _) fun _ => ?_
  exact within_bind (hlog _ rfl) fun _ => within_pure _

lemma within_handleVcpuFault (hsr : U64) : Bounded R S (handleVcpuFault env hsr) := by
  unfold handleVcpuFault handleSmc tcbReadRegisters
  refine within_ite ?_ (within_ite (within_bind (hlog _ rfl) fun _ => within_pure _) (within_pure _))
  refine within_bind (within_bind within_get fun _ => within_pure _) fun r =>
    within_bind (within_cAssert _) fun _ => ?_
  cases smcGetCall r.2.x[0] with
  | stdService =>
    refine within_ite ?_ (within_pure _)
    unfold handlePsci
    cases psciReturnValue r.2 (smcGetFunctionNumber r.2).toNat with
    | none => exact within_pure _
    | some val =>
      exact within_bind (within_faultAdvanceVcpu hlog htcb _) fun _ => within_bind (within_cAssert _) fun _ => within_pure _
  | _ => exact within_pure _

lemma within_handleUnknownSyscall (syscall : U64) : Bounded R S (handleUnknownSyscall env syscall) := by
  unfold handleUnknownSyscall tcbReadRegisters
  refine within_bind (within_bind within_get fun _ => within_pure _) fun r =>
    within_bind (within_cAssert _) fun _ => within_ite ?_ (within_pure _)
  exact within_bind (within_tcbWriteRegisters hlog htcb _ _) fun _ => within_bind (within_cAssert _) fun _ => within_pure _

omit [Std.Refl S] hlog htcb in
lemma within_handleUserException : Bounded R S (handleUserException env) := by
  unfold handleUserException tcbReadRegisters
  exact within_bind (within_bind within_get fun _ => within_pure _) fun _ => within_pure _

end Handlers

/-! ### The return to the guest -/

/-- The registers `fault_advance_vcpu` writes back. -/
def UserContext.advanced (regs : UserContext) : UserContext := { regs with pc := regs.pc + 4 }

/-- The guest is resumed behind the trapped instruction. -/
def resumed (s : Vmm φ) (regs : UserContext) : Vmm φ :=
  { s with tcb := regs.advanced, log := s.log ++ [.writeRegisters true regs.advanced, .reply] }

/-- The value `fault_emulate` merges into the content `reg` of the register read into. -/
def emulatedRead (addr fsr reg val : U64) : U64 :=
  (reg &&& ~~~(dataMask addr fsr >>> laneShift addr)) ||| ((val &&& dataMask addr fsr) >>> laneShift addr)

/-- The guest is resumed with `val` in the register of a valid syndrome. -/
def loaded (s : Vmm φ) (regs : UserContext) (fsr val : U64) : Vmm φ :=
  match rtPtr fsr with
  | .reg ⟨n, hn⟩ => resumed s { regs with x := regs.x.set n val hn }
  | .wzr => resumed { s with wzr := val } regs

/-- The guest is resumed with the register of the vGIC that holds `reg` read. -/
def readBack (s : Vmm φ) (regs : UserContext) (addr fsr : U64) (reg : U32) : Vmm φ :=
  loaded s regs fsr (emulatedRead addr fsr (rtValue regs fsr s.wzr)
    ((reg &&& (dataMask addr fsr).setWidth 32).setWidth 64))

/-- The register of the distributor that a read finds at an offset. -/
def distValue (g : GicVersion) (d : GicDistMap) (offset : Nat) : Option U32 :=
  match distRead g vcpuId offset with
  | .unknown => none
  | .zero => some 0
  | .word w => some (d.word w)
  | .raw a => some (d.load32 a)

/-- The register that a read of the redistributor frame finds at an offset. -/
def redistValue (s : Vmm φ) (offset : Nat) : Option U32 :=
  match redistRead vcpuId offset with
  | .unknown => none
  | .redistWord w => some (s.redist.word w)
  | .redistRaw a => some (s.redist.load32 a)
  | .distRaw a => some (s.dist.load32 a)

lemma frame_resumed {s : Vmm φ} (regs : UserContext) : Frame s (resumed s regs) :=
  ⟨rfl, rfl, rfl, _, rfl, by simp [Event.isReturn]⟩

lemma frame_readBack {s : Vmm φ} (regs : UserContext) (addr fsr : U64) (reg : U32) :
    Frame s (readBack s regs addr fsr reg) := by
  unfold readBack loaded
  cases rtPtr fsr with
  | reg n => exact frame_resumed _
  | wzr => exact ⟨rfl, rfl, rfl, _, rfl, by simp [Event.isReturn]⟩

section Return

variable (hstop : env.assertStops = true) {s : Vmm φ} {regs : UserContext} {addr fsr : U64} {Q : Bool → Vmm φ → Prop}
  {E : Stop → Vmm φ → Prop} (hE : ¬TcbAccepts env → ∀ t, Frame s t → E .assertFailed t)

include hstop hE

lemma wp_faultAdvanceVcpu (hQ : Q false (resumed s regs)) : wp (faultAdvanceVcpu env regs) Q E s := by
  unfold faultAdvanceVcpu tcbWriteRegisters
  simp only [wp_bind, wp_get, wp_logEvent, wp_ite, wp_modify, wp_pure, wp_cAssert_stops hstop, wp_replyToFault]
  refine ⟨fun hok => ⟨fun _ => ?_, fun hne => absurd hok (by simpa using hne)⟩,
    fun herr => ⟨fun h => absurd (of_decide_eq_true h) herr, fun _ => ?_⟩⟩
  · rw [decide_eq_false (not_not_intro hok), List.append_assoc]
    exact hQ
  · exact hE (fun htcb => herr (htcb.writeRegisters _ _)) _ (frame_log rfl s)

variable (hbad : ¬AccessOk addr fsr → E .assertFailed s)

include hbad

lemma wp_faultAdvance (hread : faultIsRead fsr = true) {val : U64}
    (hQ : AccessOk addr fsr → Q false (loaded s regs fsr (emulatedRead addr fsr (rtValue regs fsr s.wzr) val))) :
    wp (faultAdvance env regs addr fsr val) Q E s := by
  unfold faultAdvance
  rw [wp_decodeRt hstop]
  refine ⟨fun hvalid => ?_, fun hinvalid => hbad fun hok => absurd hok.1 (by simp [hinvalid])⟩
  unfold faultEmulate
  simp only [wp_bind, wp_get, wp_faultGetDataMask hstop, hread, if_true, wp_pure]
  refine ⟨fun hok => ?_, hbad⟩
  have hval := hQ hok
  unfold loaded at hval
  rw [rtPtr_read]
  cases hp : rtPtr fsr with
  | reg n =>
    simp only [hp] at hval
    exact wp_faultAdvanceVcpu hstop hE hval
  | wzr =>
    simp only [hp] at hval
    refine wp_faultAdvanceVcpu (s := { s with wzr := _ }) hstop (fun htcb t ht => hE htcb t ?_) hval
    exact ⟨ht.vgic, ht.dist, ht.redist, ht.log⟩

lemma wp_finishRead (hread : faultIsRead fsr = true) {reg : U32}
    (hQ : AccessOk addr fsr → Q true (readBack s regs addr fsr reg)) : wp (finishRead env regs addr fsr reg) Q E s := by
  unfold finishRead
  rw [wp_bind, wp_faultGetDataMask hstop]
  refine ⟨fun hok => ?_, hbad⟩
  rw [wp_bind]
  exact wp_faultAdvance hstop hE hbad hread fun _ => hQ hok

omit hbad

lemma wp_vgicDistRegRead {offset : U64} (haddr : env.board.gicDistPaddr + offset = addr) (hread : faultIsRead fsr = true)
    (hbad : ¬AccessOk addr fsr → E .assertFailed s)
    (hQ : ∀ reg, distValue env.board.gic s.dist offset.toNat = some reg → AccessOk addr fsr →
      Q true (readBack s regs addr fsr reg))
    (hunknown : distValue env.board.gic s.dist offset.toNat = none → Q true (resumed s regs)) :
    wp (vgicDistRegRead env vcpuId offset fsr regs) Q E s := by
  unfold distValue at hQ hunknown
  unfold vgicDistRegRead
  rw [wp_bind, wp_get]
  dsimp only
  rw [haddr]
  cases hk : distRead env.board.gic vcpuId offset.toNat with
  | unknown =>
    rw [wp_bind]
    exact wp_faultAdvanceVcpu hstop hE (hunknown (by rw [hk]))
  | zero => exact wp_finishRead hstop hE hbad hread (hQ _ (by rw [hk]))
  | word w => exact wp_finishRead hstop hE hbad hread (hQ _ (by rw [hk]))
  | raw a => exact wp_finishRead hstop hE hbad hread (hQ _ (by rw [hk]))

lemma wp_handleVgicRedistReadFault {offset : U64} (haddr : Board.gicRedistPaddr + offset = addr)
    (hread : faultIsRead fsr = true) (hbad : ¬AccessOk addr fsr → E .assertFailed s)
    (hQ : ∀ reg, redistValue s offset.toNat = some reg → AccessOk addr fsr → Q true (readBack s regs addr fsr reg))
    (hunknown : redistValue s offset.toNat = none → Q true (resumed s regs)) :
    wp (handleVgicRedistReadFault env vcpuId offset fsr regs) Q E s := by
  unfold redistValue at hQ hunknown
  unfold handleVgicRedistReadFault
  rw [wp_bind, wp_get]
  dsimp only
  rw [haddr]
  cases hk : redistRead vcpuId offset.toNat with
  | unknown =>
    rw [wp_bind]
    exact wp_faultAdvanceVcpu hstop hE (hunknown (by rw [hk]))
  | redistWord w => exact wp_finishRead hstop hE hbad hread (hQ _ (by rw [hk]))
  | redistRaw a => exact wp_finishRead hstop hE hbad hread (hQ _ (by rw [hk]))
  | distRaw a => exact wp_finishRead hstop hE hbad hread (hQ _ (by rw [hk]))

end Return

/-! ### The operations of an access -/

/-- The operations the steps of the system are made of. -/
inductive Action (φ : Type)
  | register (irq : Int) (ackFn : Option φ) (ackData : VoidPtr)
  | inject (irq : Int)
  | notification (irq : Int)
  | vppiEvent (irq : U64)
  | retire (idx err : Int)
  | enable (irq : Int)
  | disable (irq : Int)
  /-- the clear-enable register of the redistributor, which spares no SGI -/
  | clearEnable (irq : Int)
  | clrPending (irq : Int)
  | store (w : Nat) (mask bits : U32)
  | ctlr (data : U32)
  | fail

variable (env) in
def Action.run : Action φ → M φ Unit
  | .register irq ackFn ackData => do
    let _ ← vgicRegisterIrq env vcpuId irq ackFn ackData
  | .inject irq => do
    let _ ← vgicInjectIrq env vcpuId irq
  | .notification irq => do
    logEvent (.notification irq)
    let _ ← vgicInjectIrq env vcpuId irq
  | .vppiEvent irq => do
    logEvent (.vppiEvent irq.toNat)
    let _ ← handleVppiEvent env irq
  | .retire idx err => do
    let _ ← vgicMaintenanceBody env idx err
  | .enable irq => vgicDistEnableIrq env vcpuId irq
  | .disable irq => vgicDistDisableIrq vcpuId irq
  | .clearEnable irq => modifyDist fun d => setEnable d irq false vcpuId
  | .clrPending irq => vgicDistClrPendingIrq vcpuId irq
  | .store w mask bits => modifyDist fun d => d.set w (d.word w &&& ~~~mask ||| bits)
  | .ctlr data => writeCtlr env data
  | .fail => cAssert env false

/-- The operations of a distributor write of the register content `val`. -/
def distActions (g : GicVersion) (offset : Nat) (addr fsr val : U64) : List (Action φ) :=
  let mask := dataMask addr fsr
  let irqs := writeIrqs g offset (val.setWidth 32 &&& mask.setWidth 32)
  match distWrite g vcpuId offset with
  | .ctlr => [.ctlr (val.setWidth 32)]
  | .ignored => []
  | .store w => [.store w (mask.setWidth 32) (((val <<< laneShift addr) &&& mask).setWidth 32)]
  | .isenabler => irqs.map .enable
  | .icenabler => irqs.map .disable
  | .ispendr => irqs.map .inject
  | .icpendr => irqs.map .clrPending
  | .sgir => (sgirTargetList vcpuId (val.setWidth 32)).toList.map fun _ => .inject (sgirVirq (val.setWidth 32))
  | .sgiPending => [.fail]
  | .unknown => []

/-- The operations of a redistributor write of the register content `val`. -/
def redistActions (offset : Nat) (addr fsr val : U64) : List (Action φ) :=
  let mask := dataMask addr fsr
  let irqs := (WordBits.bits (val.setWidth 32 &&& mask.setWidth 32)).map Int.ofNat
  match redistWrite vcpuId offset with
  | .ignored => []
  | .store w => [.store w (mask.setWidth 32) (((val <<< laneShift addr) &&& mask).setWidth 32)]
  | .isenabler0 => irqs.map .enable
  | .icenabler0 => irqs.map .clearEnable
  | .unknown => []

section Writes

variable {s : Vmm φ} {E : Stop → Vmm φ → Prop} {fsr : U64} {regs : UserContext}

lemma whileBits_eq (body : Nat → M φ Unit) {fuel : Nat} {data : U32} (h : (WordBits.bits data).length ≤ fuel) :
    whileBits body fuel data = forM (WordBits.bits data) body := by
  induction fuel generalizing data with
  | zero =>
    have hnil := List.length_eq_zero_iff.mp (Nat.le_zero.mp h)
    rw [hnil]
    rfl
  | succ fuel ih =>
    unfold whileBits
    by_cases h0 : data = 0
    · rw [if_pos h0, WordBits.bits_eq_nil.mpr h0]
      rfl
    · rw [if_neg h0]
      rw [WordBits.bits_eq_cons h0] at h ⊢
      have hrest : (WordBits.bits (data &&& ~~~(1#32 <<< WordBits.lowest data))).length ≤ fuel := by simpa using h
      rw [List.forM_cons, ← ih hrest]
      rfl

lemma writeOneBits_eq (op : Int → M φ Unit) (base offset : Nat) (data : U32) :
    writeOneBits op base offset data =
      forM ((WordBits.bits data).map fun k => ((k + (offset - base) * 8 : Nat) : Int)) op := by
  rw [List.forM_map]
  exact whileBits_eq _ WordBits.length_bits_le

variable (hstop : env.assertStops = true) (hvalid : hsrIsSyndromeValid fsr = true)

include hstop hvalid

lemma wp_emulateRegWriteAccess {addr : U64} {w : Nat} {Q : Unit → Vmm φ → Prop} (hok : AccessOk addr fsr)
    (hwrite : faultIsWrite fsr = true)
    (hQ : wp (Action.run env (.store w ((dataMask addr fsr).setWidth 32)
      (((rtValue regs fsr s.wzr <<< laneShift addr) &&& dataMask addr fsr).setWidth 32))) Q E s) :
    wp (emulateRegWriteAccess env regs addr fsr w) Q E s := by
  unfold emulateRegWriteAccess faultEmulate
  simp only [wp_bind, wp_get, wp_faultGetData hstop, wp_faultGetDataMask hstop, hvalid, hok, faultIsRead, hwrite,
    Bool.not_true, Bool.false_eq_true, if_false, wp_pure, wp_modifyDist, true_imp_iff, not_true_eq_false,
    false_imp_iff, and_true, Bool.true_eq_false]
  have hreg : ∀ (x : U32) (m v : U64),
      ((x.setWidth 64 &&& ~~~m) ||| v).setWidth 32 = (x &&& ~~~m.setWidth 32) ||| v.setWidth 32 := by
    intro x m v
    rw [BitVec.setWidth_or, BitVec.setWidth_and, BitVec.setWidth_not (by decide)]
    simp
  rw [hreg]
  exact hQ

theorem wp_distWriteEffect {offset addr : U64} {Q : Unit → Vmm φ → Prop} (haddr : env.board.gicDistPaddr + offset = addr)
    (hok : AccessOk addr fsr) (hwrite : faultIsWrite fsr = true)
    (hQ : wp (forM (distActions env.board.gic offset.toNat addr fsr (rtValue regs fsr s.wzr)) (Action.run env)) Q E s) :
    wp (distWriteEffect env vcpuId offset fsr regs ((dataMask addr fsr).setWidth 32)) Q E s := by
  subst haddr
  have hdata : ∀ Q : U64 → Vmm φ → Prop, wp (faultGetData env regs fsr) Q E s ↔ _ :=
    fun _ => wp_faultGetData hstop
  simp only [hvalid, true_imp_iff, Bool.true_eq_false, false_imp_iff, and_true] at hdata
  unfold distWriteEffect
  unfold distActions writeIrqs at hQ
  cases hk : distWrite env.board.gic vcpuId offset.toNat <;>
    simp only [hk, DistWrite.writeOneBase, List.forM_nil, List.forM_cons, List.forM_map] at hQ ⊢
  case ctlr =>
    rw [wp_bind, hdata]
    simpa [Action.run] using hQ
  case ignored => exact hQ
  case store w =>
    refine wp_emulateRegWriteAccess hstop hvalid hok hwrite ?_
    simpa using hQ
  case isenabler =>
    rw [wp_bind, hdata, writeOneBits_eq, List.forM_map]
    exact hQ
  case icenabler =>
    rw [wp_bind, hdata, writeOneBits_eq, List.forM_map]
    exact hQ
  case ispendr =>
    rw [wp_bind, hdata, writeOneBits_eq, List.forM_map]
    exact hQ
  case icpendr =>
    rw [wp_bind, hdata, writeOneBits_eq, List.forM_map]
    exact hQ
  case sgir =>
    rw [wp_bind, hdata]
    unfold writeSgir
    cases hl : sgirTargetList vcpuId ((rtValue regs fsr s.wzr).setWidth 32) with
    | none => simpa [hl] using hQ
    | some l => simpa [hl, Action.run] using hQ
  case sgiPending => simpa [Action.run] using hQ
  case unknown => exact hQ

theorem wp_redistWriteEffect {offset addr : U64} {Q : Unit → Vmm φ → Prop} (haddr : Board.gicRedistPaddr + offset = addr)
    (hok : AccessOk addr fsr) (hwrite : faultIsWrite fsr = true)
    (hQ : wp (forM (redistActions offset.toNat addr fsr (rtValue regs fsr s.wzr)) (Action.run env)) Q E s) :
    wp (redistWriteEffect env vcpuId offset fsr regs ((dataMask addr fsr).setWidth 32)) Q E s := by
  subst haddr
  have hdata : ∀ Q : U64 → Vmm φ → Prop, wp (faultGetData env regs fsr) Q E s ↔ _ :=
    fun _ => wp_faultGetData hstop
  simp only [hvalid, true_imp_iff, Bool.true_eq_false, false_imp_iff, and_true] at hdata
  unfold redistWriteEffect
  unfold redistActions at hQ
  cases hk : redistWrite vcpuId offset.toNat <;>
    simp only [hk, List.forM_nil, List.forM_cons, List.forM_map] at hQ ⊢
  case ignored => exact hQ
  case store w =>
    refine wp_emulateRegWriteAccess hstop hvalid hok hwrite ?_
    simpa using hQ
  case isenabler0 =>
    rw [wp_bind, hdata, whileBits_eq _ WordBits.length_bits_le]
    exact hQ
  case icenabler0 =>
    rw [wp_bind, hdata, whileBits_eq _ WordBits.length_bits_le]
    exact hQ
  case unknown =>
    rw [wp_bind, hdata]
    exact hQ

end Writes

lemma wp_vgicDistRegWrite (hstop : env.assertStops = true) {s : Vmm φ} {regs : UserContext} {offset addr fsr : U64}
    {Q : Bool → Vmm φ → Prop} {E : Stop → Vmm φ → Prop} (hbad : ¬AccessOk addr fsr → E .assertFailed s)
    (haddr : env.board.gicDistPaddr + offset = addr) (hwrite : faultIsWrite fsr = true)
    (hactions : AccessOk addr fsr → wp (forM (distActions env.board.gic offset.toNat addr fsr (rtValue regs fsr s.wzr))
      (Action.run env)) (fun _ t => Q true (resumed t regs) ∧ (¬TcbAccepts env → ∀ u, Frame t u → E .assertFailed u))
      E s) :
    wp (vgicDistRegWrite env vcpuId offset fsr regs) Q E s := by
  unfold vgicDistRegWrite
  rw [haddr, wp_bind, wp_faultGetDataMask hstop]
  refine ⟨fun hok => ?_, hbad⟩
  rw [wp_bind]
  refine wp_distWriteEffect hstop hok.1 haddr hok hwrite (wp_mono (hactions hok) (fun _ t ht => ?_) (fun _ _ => id))
  rw [wp_bind]
  exact wp_faultAdvanceVcpu hstop ht.2 ht.1

lemma wp_handleVgicRedistWriteFault (hstop : env.assertStops = true) {s : Vmm φ} {regs : UserContext}
    {offset addr fsr : U64} {Q : Bool → Vmm φ → Prop} {E : Stop → Vmm φ → Prop} (hbad : ¬AccessOk addr fsr → E .assertFailed s)
    (haddr : Board.gicRedistPaddr + offset = addr) (hwrite : faultIsWrite fsr = true)
    (hactions : AccessOk addr fsr → wp (forM (redistActions offset.toNat addr fsr (rtValue regs fsr s.wzr)) (Action.run env))
      (fun _ t => Q true (resumed t regs) ∧ (¬TcbAccepts env → ∀ u, Frame t u → E .assertFailed u)) E s) :
    wp (handleVgicRedistWriteFault env vcpuId offset fsr regs) Q E s := by
  unfold handleVgicRedistWriteFault
  rw [haddr, wp_bind, wp_faultGetDataMask hstop]
  refine ⟨fun hok => ?_, hbad⟩
  rw [wp_bind]
  refine wp_redistWriteEffect hstop hok.1 haddr hok hwrite (wp_mono (hactions hok) (fun _ t ht => ?_) (fun _ _ => id))
  rw [wp_bind]
  refine wp_faultAdvanceVcpu hstop ht.2 ?_
  rw [wp_bind, Bool.not_false, wp_cAssert_true]
  exact ht.1

/-! ### The operations of a step -/

/-- `handle_vm_fault` takes the address for one of the distributor. -/
def InDist (env : Env φ) (addr : U64) : Prop :=
  pageInRange (addr &&& ~~~(0x1000 - 1)) env.board.gicDistPaddr (env.board.gicDistPaddr + env.board.gicDistSize)

/-- `handle_vm_fault` takes the address for one of the redistributor. -/
def InRedist (env : Env φ) (addr : U64) : Prop :=
  env.board.gic = .v3 ∧
    pageInRange (addr &&& ~~~(0x1000 - 1)) Board.gicRedistPaddr (Board.gicRedistPaddr + Board.gicRedistSize)

instance (env : Env φ) (addr : U64) : Decidable (InDist env addr) := inferInstanceAs (Decidable (_ = true))

instance (env : Env φ) (addr : U64) : Decidable (InRedist env addr) := inferInstanceAs (Decidable (_ ∧ _ = true))

/-- The operations a data abort at `addr` performs before the guest is resumed. -/
def accessActions (env : Env φ) (s : Vmm φ) (addr fsr : U64) : List (Action φ) :=
  if faultIsRead fsr then []
  else if InDist env addr then
    distActions env.board.gic (addr - env.board.gicDistPaddr).toNat addr fsr (rtValue s.tcb fsr s.wzr)
  else if InRedist env addr then
    redistActions (addr - Board.gicRedistPaddr).toNat addr fsr (rtValue s.tcb fsr s.wzr)
  else []

def opActions (env : Env φ) (s : Vmm φ) : Op φ → List (Action φ)
  | .registerIrq irq ackFn ackData => [.register irq ackFn ackData]
  | .injectIrq irq => [.inject irq]
  | .notification irq => [.notification irq]
  | .guest _ => []
  | .fault (.vmFault addr fsr) => accessActions env s addr fsr
  | .fault (.vgicMaintenance idx err) => [.retire (cInt idx) err]
  | .fault (.vppiEvent irq) => [.vppiEvent irq]
  | .fault _ => []
  | .retire idx => [.retire idx 0]

lemma faultIsWrite_of_not_read {fsr : U64} (h : ¬faultIsRead fsr = true) : faultIsWrite fsr = true := by
  simpa [faultIsRead] using h

/-- The register that a read at `addr` finds. -/
def accessValue (env : Env φ) (s : Vmm φ) (addr : U64) : Option U32 :=
  if InDist env addr then distValue env.board.gic s.dist (addr - env.board.gicDistPaddr).toNat
  else redistValue s (addr - Board.gicRedistPaddr).toNat

lemma base_add_sub (base addr : U64) : base + (addr - base) = addr := by rw [BitVec.add_comm, BitVec.sub_add_cancel]

lemma le_of_pageInRange {addr a b : U64} (h : pageInRange (addr &&& ~~~(0x1000 - 1)) a b = true) : a ≤ addr := by
  unfold pageInRange at h
  simp only [Bool.and_eq_true, decide_eq_true_eq] at h
  refine BitVec.le_trans h.1 ?_
  rw [BitVec.le_def, BitVec.toNat_and]
  exact Nat.and_le_left

lemma InDist.le {addr : U64} (h : InDist env addr) : env.board.gicDistPaddr ≤ addr := le_of_pageInRange h

lemma toNat_page (a : U64) : (a &&& ~~~(0x1000 - 1)).toNat = a.toNat / 0x1000 * 0x1000 := by
  have hlow : ∀ j, (0x1000 - 1 : U64).getLsbD j = decide (j < 12) := by
    intro j
    have hmask : (0x1000 - 1 : U64) = BitVec.ofNat 64 (2 ^ 12 - 1) := rfl
    rw [hmask, BitVec.getLsbD_ofNat, Nat.testBit_two_pow_sub_one]
    simp only [Bool.and_eq_decide, decide_eq_true_eq, decide_eq_decide]
    omega
  have hshift : a &&& ~~~(0x1000 - 1 : U64) = a >>> 12 <<< 12 := by
    apply BitVec.eq_of_getLsbD_eq
    intro j hj
    rw [BitVec.getLsbD_and, BitVec.getLsbD_not, hlow, BitVec.getLsbD_shiftLeft, BitVec.getLsbD_ushiftRight]
    by_cases h : j < 12
    · simp [h]
    · simp [h, hj, Nat.add_sub_cancel' (Nat.le_of_not_lt h)]
  have hlt := a.isLt
  rw [hshift, BitVec.toNat_shiftLeft, BitVec.toNat_ushiftRight, Nat.shiftRight_eq_div_pow, Nat.shiftLeft_eq, Nat.mod_eq_of_lt]
  omega

lemma dist_page {p : U64} {k : Nat} (hp : p &&& 0xfff = 0) (hk : k < 0x1000) :
    (p + BitVec.ofNat 64 k) &&& ~~~(0x1000 - 1) = p := by
  have hal : p.toNat % 0x1000 = 0 := by
    have hand := congrArg BitVec.toNat hp
    rw [BitVec.toNat_and] at hand
    exact (Nat.and_two_pow_sub_one_eq_mod p.toNat 12).symm.trans hand
  have hlt := p.isLt
  apply BitVec.eq_of_toNat_eq
  rw [toNat_page, BitVec.toNat_add, BitVec.toNat_ofNat]
  omega

section FirstPage

variable {k : Nat} (hk : k < 0x1000)

include hk

lemma toNat_firstPage : (BitVec.ofNat 64 k).toNat = k := by
  rw [BitVec.toNat_ofNat]
  omega

lemma sub_firstPage (p : U64) : (p + BitVec.ofNat 64 k - p).toNat = k := by
  rw [BitVec.add_comm, BitVec.add_sub_cancel, toNat_firstPage hk]

lemma aligned_firstPage (b : Board) (h4 : k % 4 = 0) : (b.gicDistPaddr + BitVec.ofNat 64 k) &&& 0x3 = 0 := by
  refine aligned_add (by cases b <;> rfl) (aligned_iff.mpr ?_)
  rw [toNat_firstPage hk, h4]

lemma inDist_of_lt : InDist env (env.board.gicDistPaddr + BitVec.ofNat 64 k) := by
  unfold InDist
  rw [dist_page (by cases env.board <;> rfl) hk]
  cases env.board <;> rfl

end FirstPage

/-- A trapped access reads a register back, or runs its operations and resumes the guest. -/
theorem wp_vmFault (hstop : env.assertStops = true) {s : Vmm φ} {addr fsr : U64} {Q : Bool → Vmm φ → Prop}
    {E : Stop → Vmm φ → Prop}
    (hE : ¬(TcbAccepts env ∧ AccessOk addr fsr ∧ InDist env addr) → ∀ t, Frame s t → E .assertFailed t)
    (hread : faultIsRead fsr = true →
      (∀ reg, accessValue env s addr = some reg → AccessOk addr fsr → Q true (readBack s s.tcb addr fsr reg)) ∧
        (accessValue env s addr = none → Q true (resumed s s.tcb)))
    (hwrite : faultIsWrite fsr = true → wp (forM (accessActions env s addr fsr) (Action.run env))
      (fun _ t => Q true (resumed t s.tcb) ∧ (¬TcbAccepts env → ∀ u, Frame t u → E .assertFailed u)) E s) :
    wp (handleVmFault env addr fsr) Q E s := by
  have hself : Frame s s := refl_of Frame s
  have htcb : ¬TcbAccepts env → ∀ t, Frame s t → E .assertFailed t := fun h => hE fun h' => h h'.1
  have hbad : ¬AccessOk addr fsr → E .assertFailed s := fun h => hE (fun h' => h h'.2.1) s hself
  have hdist : env.board.gicDistPaddr + (addr - env.board.gicDistPaddr) = addr := by
    rw [BitVec.add_comm, BitVec.sub_add_cancel]
  have hredist : Board.gicRedistPaddr + (addr - Board.gicRedistPaddr) = addr := by
    rw [BitVec.add_comm, BitVec.sub_add_cancel]
  unfold handleVmFault tcbReadRegisters
  simp only [wp_bind, wp_get, wp_pure, wp_cAssert_stops hstop, wp_ite]
  refine ⟨fun _ => ⟨fun hin => ?_, fun hout => ?_⟩,
    fun herr => htcb (fun h => of_decide_eq_false herr (h.readRegisters _)) s hself⟩
  · have hin' : InDist env addr := hin
    unfold handleVgicDistFault
    rw [wp_bind, decide_eq_true hin'.le, wp_cAssert_true, wp_ite]
    unfold accessValue at hread
    rw [if_pos hin'] at hread
    refine ⟨fun hr => wp_vgicDistRegRead hstop htcb hdist hr hbad (hread hr).1 (hread hr).2, fun hr => ?_⟩
    have hw := faultIsWrite_of_not_read hr
    have hactions := hwrite hw
    rw [accessActions, if_neg hr, if_pos hin'] at hactions
    exact wp_vgicDistRegWrite hstop hbad hdist hw fun _ => hactions
  · have hout' : ¬InDist env addr := hout
    have hE' : E .assertFailed s := hE (fun h => hout' h.2.2) s hself
    refine ⟨fun hin => ?_, fun _ => ⟨by simp, fun _ => hE'⟩⟩
    unfold handleVgicRedistFault
    rw [wp_bind, wp_cAssert_stops hstop]
    refine ⟨fun _ => ?_, fun _ => hE'⟩
    rw [wp_bind, wp_cAssert_stops hstop]
    refine ⟨fun _ => ?_, fun _ => hE'⟩
    unfold accessValue at hread
    rw [if_neg hout'] at hread
    rw [wp_ite]
    refine ⟨fun hr => wp_handleVgicRedistReadFault hstop htcb hredist hr hbad (hread hr).1 (hread hr).2, fun hr => ?_⟩
    have hw := faultIsWrite_of_not_read hr
    have hactions := hwrite hw
    rw [accessActions, if_neg hr, if_neg hout', if_pos (show InRedist env addr from hin)] at hactions
    exact wp_handleVgicRedistWriteFault hstop hbad hredist hw fun _ => hactions

section Step

variable {s : Vmm φ} {Q E : Vmm φ → Prop}

lemma wp_frame {α : Type} {x : M φ α} (hx : Always Frame x) (h : ∀ t, Frame s t → Q t ∧ E t) :
    wp x (fun _ s' => Q s') (fun _ s' => E s') s :=
  wp_mono (hx s) (fun _ t ht => (h t ht).1) (fun _ t ht => (h t ht).2)

lemma wp_handleVmFault (hstop : env.assertStops = true) {addr fsr : U64} (hE : ∀ t, Frame s t → E t)
    (h : wp (forM (accessActions env s addr fsr) (Action.run env)) (fun _ s' => ∀ t, Frame s' t → Q t ∧ E t)
      (fun _ t => E t) s) :
    wp (handleVmFault env addr fsr) (fun _ s' => Q s') (fun _ t => E t) s := by
  refine wp_vmFault hstop (fun _ => hE) (fun hr => ?_) fun _ => ?_
  · rw [accessActions, if_pos hr] at h
    exact ⟨fun reg _ _ => (h _ (frame_readBack _ _ _ _)).1, fun _ => (h _ (frame_resumed _)).1⟩
  · refine wp_mono h (fun _ t ht => ⟨(ht _ (frame_resumed _)).1, fun _ u hu => (ht u hu).2⟩) (fun _ _ => id)

/-- A step is its operations and a return to the guest. -/
theorem step_wp (hstop : env.assertStops = true) {op : Op φ} (hE : ∀ t, Frame s t → E t)
    (h : wp (forM (opActions env s op) (Action.run env)) (fun _ s' => ∀ t, Frame s' t → Q t ∧ E t)
      (fun _ t => E t) s) :
    wp (step env op) (fun _ s' => Q s') (fun _ t => E t) s := by
  have hself : ∀ t : Vmm φ, Frame t t := refl_of Frame
  cases op with
  | registerIrq irq ackFn ackData =>
    simp only [opActions, List.forM_cons, List.forM_nil, wp_bind, wp_pure] at h
    exact wp_mono h (fun _ t ht => (ht t (hself t)).1) (fun _ _ => id)
  | injectIrq irq =>
    simp only [opActions, List.forM_cons, List.forM_nil, wp_bind, wp_pure] at h
    exact wp_mono h (fun _ t ht => (ht t (hself t)).1) (fun _ _ => id)
  | notification irq =>
    simp only [opActions, List.forM_cons, List.forM_nil, wp_bind, wp_pure] at h
    exact wp_mono h (fun _ t ht => (ht t (hself t)).1) (fun _ _ => id)
  | guest regs => exact (h { s with tcb := regs } ⟨rfl, rfl, rfl, [], by simp, by simp⟩).1
  | retire idx =>
    simp only [opActions, List.forM_cons, List.forM_nil, wp_bind, wp_pure] at h
    exact wp_mono h (fun _ t ht => (ht t (hself t)).1) (fun _ _ => id)
  | fault f =>
    cases f with
    | vmFault addr fsr =>
      change wp (handleFault env (.vmFault addr fsr) >>= fun _ => pure ()) _ _ s
      rw [wp_bind]
      exact wp_handleVmFault hstop hE h
    | unknownSyscall syscall =>
      change wp (handleFault env (.unknownSyscall syscall) >>= fun _ => pure ()) _ _ s
      rw [wp_bind]
      exact wp_frame (within_handleUnknownSyscall (fun _ => within_logEvent_frame) within_setTcb_frame syscall) h
    | userException =>
      change wp (handleFault env .userException >>= fun _ => pure ()) _ _ s
      rw [wp_bind]
      exact wp_frame within_handleUserException h
    | vcpuFault hsr =>
      change wp (handleFault env (.vcpuFault hsr) >>= fun _ => pure ()) _ _ s
      rw [wp_bind]
      exact wp_frame (within_handleVcpuFault (fun _ => within_logEvent_frame) within_setTcb_frame hsr) h
    | vgicMaintenance idx err =>
      change wp (handleFault env (.vgicMaintenance idx err) >>= fun _ => pure ()) _ _ s
      rw [wp_bind]
      simp only [opActions, List.forM_cons, List.forM_nil, wp_bind, wp_pure, Action.run] at h
      unfold handleFault handleVgicMaintenance
      rw [wp_bind]
      refine wp_mono h (fun err' t ht => ?_) (fun _ _ => id)
      refine wp_frame (within_ite ?_ ?_) ht
      · exact within_bind (within_logEvent_frame rfl) fun _ => within_pure _
      · exact within_bind (within_cAssert _) fun _ => within_pure _
    | vppiEvent irq =>
      simp only [opActions, List.forM_cons, List.forM_nil, wp_bind, wp_pure, Action.run] at h
      change wp (logEvent (.vppiEvent irq.toNat) >>= fun _ => handleVppiEvent env irq >>= fun _ => pure ()) _ _ s
      simp only [wp_bind, wp_pure]
      exact wp_mono h (fun _ t ht => wp_mono ht (fun _ u hu => (hu u (hself u)).1) (fun _ _ => id)) (fun _ _ => id)

/-- What holds initially, survives a return to the guest and is kept by the operations of every allowed step
holds of every state reached. What also holds wherever one of them stops holds wherever a step ends or stops. -/
theorem reach_outcome (hstop : env.assertStops = true) {init : Vmm φ → Prop} {allowed : Vmm φ → Op φ → Prop}
    {I : Vmm φ → Prop} (hinit : ∀ s, init s → I s) (hframe : ∀ s t, Frame s t → I s → I t)
    (hE : ∀ s, I s → E s)
    (hstep : ∀ s op, I s → allowed s op →
      wp (forM (opActions env s op) (Action.run env)) (fun _ s' => I s') (fun _ t => E t) s)
    (hs : Reach init allowed (step env) s) : I s ∧ ∀ op, allowed s op → E (outcome (step env op) s) := by
  have hwp : ∀ s op, I s → allowed s op → wp (step env op) (fun _ t => I t) (fun _ t => E t) s := by
    intro s op hI ha
    refine step_wp hstop (fun t ht => hE t (hframe s t ht hI)) (wp_mono (hstep s op hI ha) (fun _ t ht u hu => ?_)
      (fun _ _ => id))
    have hu' := hframe t u hu ht
    exact ⟨hu', hE u hu'⟩
  have hI : I s := Reach.invariant hinit (fun s op s' hI ha hrun => wp_ok (hwp s op hI ha) hrun) hs
  refine ⟨hI, fun op ha => wp_outcome.mp (wp_mono (hwp s op hI ha) (fun _ t ht => hE t ht) (fun _ _ => id))⟩

theorem reachable_outcome (hstop : env.assertStops = true) {allowed : Vmm φ → Op φ → Prop}
    {I : Vmm φ → Prop} (hinit : ∀ tcb, I (vgicInit env tcb)) (hframe : ∀ s t, Frame s t → I s → I t)
    (hE : ∀ s, I s → E s)
    (hstep : ∀ s op, I s → allowed s op →
      wp (forM (opActions env s op) (Action.run env)) (fun _ s' => I s') (fun _ t => E t) s)
    (hs : Reachable env allowed s) : I s ∧ ∀ op, allowed s op → E (outcome (step env op) s) := by
  refine reach_outcome hstop ?_ hframe hE hstep hs
  rintro s ⟨tcb, rfl⟩
  exact hinit tcb

theorem reachable_invariant (hstop : env.assertStops = true) {allowed : Vmm φ → Op φ → Prop}
    {I : Vmm φ → Prop} (hinit : ∀ tcb, I (vgicInit env tcb)) (hframe : ∀ s t, Frame s t → I s → I t)
    (hstep : ∀ s op, I s → allowed s op →
      wp (forM (opActions env s op) (Action.run env)) (fun _ s' => I s') (fun _ _ => True) s)
    (hs : Reachable env allowed s) : I s :=
  (reachable_outcome (E := fun _ => True) hstop hinit hframe (fun _ _ => trivial) hstep hs).1

end Step

end Sel4cpVmm
