import Sel4cpVmm.Properties.WriteOneLanes
import Sel4cpVmm.Proofs.Guest
import Sel4cpVmm.Proofs.Reentrant

/-!
# What a store depends on

Two guest contexts that agree on the bytes stored should not be told apart. `emulate_reg_write_access` shifts these bytes
to their lane; the write-one registers look at the bits of the lane in the register stored, and `CTLR` and `SGIR` at all
of its low 32 bits. The operations decided there are compared with the state in which they would change nothing.
-/

namespace Sel4cpVmm

open StopProgram

variable {φ : Type} {env : Env φ}

/-! ### Indistinguishable runs -/

/-- A callback or the kernel's list registers are called. -/
def Event.isCall : Event φ → Bool
  | .ack _ _ _ _ => true
  | .vcpuInjectIrq _ _ _ _ => true
  | _ => false

/-- What there is to see of a run: why it stopped, the vGIC, the distributor and the calls made. -/
structure Seen (φ : Type) where
  stop : Option Stop
  vgic : Vgic φ
  dist : GicDistMap
  calls : List (Event φ)

def seenIn (stop : Option Stop) (s : Vmm φ) : Seen φ := ⟨stop, s.vgic, s.dist, s.log.filter Event.isCall⟩

def seen {α : Type} : EStateM.Result Stop (Vmm φ) α → Seen φ
  | .ok _ s => seenIn none s
  | .error e s => seenIn (some e) s

/-- Contexts that agree on the low bits of the source register that a write stores lead it to the same. -/
def BytesOnly (env : Env φ) (s : Vmm φ) (offset fsr : U64) : Prop :=
  ∀ regs regs', rtValue regs fsr s.wzr &&& (accessWidth fsr).mask = rtValue regs' fsr s.wzr &&& (accessWidth fsr).mask →
    seen (vgicDistRegWrite env vcpuId offset fsr regs s) = seen (vgicDistRegWrite env vcpuId offset fsr regs' s)

/-! ### Stray operations -/

/-- The numbers of the lane addressed. The first lane holds the bits stored. -/
def strayIrqs (base offset : Nat) (fsr : U64) : List Int :=
  if offset % 4 = 0 then []
  else (List.range (8 * (accessWidth fsr).bytes)).map fun k => ((8 * (offset - base) + (8 * (offset % 4) + k) : Nat) : Int)

/-- The operations of a write that bits of the register above those stored decide. -/
def strayActions (g : GicVersion) (offset : Nat) (fsr : U64) : List (Action φ) :=
  match distWrite g vcpuId offset with
  | .ctlr => if accessWidth fsr = .word then [] else [.ctlr (gicEnabled g), .ctlr 0]
  | .sgir => if accessWidth fsr = .word then [] else (List.range 16).map fun i : Nat => .inject i
  | .isenabler => (strayIrqs gicDistIsenabler0 offset fsr).map .enable
  | .icenabler => (strayIrqs gicDistIcenabler0 offset fsr).map .disable
  | .ispendr => (strayIrqs gicDistIspendr0 offset fsr).map .inject
  | .icpendr => (strayIrqs gicDistIcpendr0 offset fsr).map .clrPending
  | .ignored | .store _ | .sgiPending | .unknown => []

/-- The operation, one of a distributor write, changes nothing in `s`. -/
def Action.Idle (env : Env φ) (s : Vmm φ) : Action φ → Prop
  | .enable irq => 0 ≤ irq ∧ setEnable s.dist irq true vcpuId = s.dist ∧
      ∀ h, s.vgic.handle irq = some h → isPending s.dist h.virq vcpuId = true
  | .disable irq => irq < numSgiVirqs ∨ setEnable s.dist irq false vcpuId = s.dist
  | .inject irq => (s.vgic.find irq).isSome ∧ ∀ h, CanInject env s irq h → isPending s.dist irq vcpuId = true
  | .clrPending irq => setPending s.dist irq false vcpuId = s.dist
  | .ctlr data => (data = gicEnabled env.board.gic → vgicDistEnable env.board.gic s.dist = s.dist) ∧
      (data ≠ gicEnabled env.board.gic → data = 0 → vgicDistDisable env.board.gic s.dist = s.dist)
  | _ => False

section Idle

variable (hstop : env.assertStops = true) {s : Vmm φ} {irq : Int}

lemma wp_inject_idle (hw : s.vgic.Wf) (h : (Action.inject irq).Idle env s) :
    wp (vgicDistSetPendingIrq env vcpuId irq) (fun _ t => t = s) (fun _ _ => False) s := by
  obtain ⟨hfind, hpending⟩ := h
  obtain ⟨p, hp⟩ := Option.isSome_iff_exists.mp hfind
  refine wp_setPending_of_find hp (fun _ => rfl) (fun _ _ => rfl) fun hcan hidle => ?_
  rw [(hw.virq_of_handle hcan.handle).1, hpending _ hcan] at hidle
  exact absurd hidle (by simp)

include hstop

lemma Action.Idle.run (hw : s.vgic.Wf) {a : Action φ} (h : a.Idle env s) : a.run env s = .ok () s := by
  have hsame : ∀ {x : M φ Unit}, wp x (fun _ t => t = s) (fun _ _ => False) s → x s = .ok () s := by
    intro x hx
    obtain ⟨_, t, hrun, rfl⟩ := ok_of_wp hx
    exact hrun
  apply hsame
  cases a with
  | enable irq =>
    obtain ⟨hpos, hset, hpending⟩ := h
    have henabled : enabled s irq = s := by rw [enabled, hset]
    refine wp_vgicDistEnableIrq hstop (fun hneg => absurd hneg (Int.not_lt.mpr hpos)) (fun _ => henabled) fun a ha hidle => ?_
    rw [henabled, hpending a ha] at hidle
    exact absurd hidle (by simp)
  | disable irq =>
    unfold Action.run vgicDistDisableIrq
    rw [wp_ite, wp_modifyDist]
    refine ⟨fun hge => ?_, fun _ => rfl⟩
    rw [h.resolve_left (Int.not_lt.mpr hge)]
  | inject irq =>
    unfold Action.run vgicInjectIrq
    rw [wp_bind]
    exact wp_inject_idle hw h
  | clrPending irq =>
    unfold Action.run vgicDistClrPendingIrq
    rw [wp_modifyDist, show setPending s.dist irq false vcpuId = s.dist from h]
  | ctlr data =>
    unfold Action.run writeCtlr
    rw [wp_ite, wp_ite, wp_modifyDist, wp_modifyDist]
    refine ⟨fun hdata => ?_, fun hne => ⟨fun hzero => ?_, fun _ => rfl⟩⟩
    · rw [h.1 hdata]
    · rw [h.2 hne hzero]
  | _ => exact h.elim

end Idle

/-! ### What is not idle is seen -/

section Seen

variable {s : Vmm φ} {irq : Int}

/-- A run that is seen to change nothing has ended with the same distributor and the same calls. -/
lemma of_seen_still {α : Type} {x : M φ α} {P : Prop} (h : seen (x s) = seenIn none s)
    (hwp : wp x (fun _ t => t.dist = s.dist → t.log.filter Event.isCall = s.log.filter Event.isCall → P)
      (fun _ _ => True) s) : P := by
  cases hx : x s with
  | ok a t =>
    rw [hx] at h
    obtain ⟨-, -, hdist, hcalls⟩ := Seen.mk.inj h
    exact wp_ok hwp hx hdist hcalls
  | error e t =>
    rw [hx] at h
    exact absurd (Seen.mk.inj h).1 (by simp)

variable (hstop : env.assertStops = true)

include hstop

lemma seen_virqAck {P : Prop} (h : VirqHandle φ) {t : Vmm φ} (hlog : t.log = s.log) :
    wp (virqAck env vcpuId h)
      (fun _ u => u.dist = s.dist → u.log.filter Event.isCall = s.log.filter Event.isCall → P) (fun _ _ => True) t := by
  cases hfn : h.ackFn with
  | none =>
    unfold virqAck
    rw [wp_bind, wp_cAssert_stops hstop, hfn]
    exact ⟨fun hsome => absurd hsome (by simp), fun _ => trivial⟩
  | some fn =>
    refine wp_mono (wp_virqAck_logged hstop hfn) (fun _ u hu _ hcalls => ?_) (fun _ _ _ => trivial)
    have hgrows := ((hlog ▸ hu).filter Event.isCall).length_le
    rw [hcalls, List.filter_append, List.length_append] at hgrows
    simp [Event.isCall] at hgrows

lemma idle_of_seen_enable (hpos : 0 ≤ irq) (h : seen ((Action.enable irq).run env s) = seenIn none s) :
    (Action.enable irq).Idle env s := by
  refine of_seen_still h (wp_vgicDistEnableIrq hstop (fun _ => trivial) (fun hskip hdist _ => ?_) fun a _ _ => ?_)
  · have hset : setEnable s.dist irq true vcpuId = s.dist := hdist
    refine ⟨hpos, hset, fun a ha => ?_⟩
    rw [← hdist]
    exact hskip a ha
  · exact seen_virqAck hstop a rfl

lemma idle_of_seen_inject (hw : s.vgic.Wf) (h : seen ((Action.inject irq).run env s) = seenIn none s) :
    (Action.inject irq).Idle env s := by
  refine of_seen_still h ?_
  unfold Action.run vgicInjectIrq
  rw [wp_bind]
  refine wp_mono (wp_inject hstop hw) (fun b t ht hdist _ => ?_) (fun _ _ _ => trivial)
  have hfound : ∀ {a}, CanInject env s irq a → (s.vgic.find irq).isSome := by
    intro a hcan
    obtain ⟨p, hp, -⟩ := Option.bind_eq_some_iff.mp hcan.handle
    exact Option.isSome_iff_exists.mpr ⟨p, hp⟩
  cases ht with
  | refused hfind hno => exact ⟨hfind, fun a ha => absurd ha (hno a)⟩
  | pending hcan hpending => exact ⟨hfound hcan, fun _ _ => hpending⟩
  | accepted hcan hidle hacc =>
    rw [hacc.dist, (hw.virq_of_handle hcan.handle).1] at hdist
    rw [← hdist, isPending_setPending_self] at hidle
    exact absurd hidle (by simp)

omit hstop

lemma idle_of_seen_disable (h : seen ((Action.disable irq).run env s) = seenIn none s) :
    (Action.disable irq).Idle env s := by
  refine of_seen_still h ?_
  unfold Action.run vgicDistDisableIrq
  rw [wp_ite, wp_modifyDist]
  exact ⟨fun _ hdist _ => .inr hdist, fun hlt _ _ => .inl (Int.not_le.mp hlt)⟩

lemma idle_of_seen_clrPending (h : seen ((Action.clrPending irq).run env s) = seenIn none s) :
    (Action.clrPending irq).Idle env s :=
  of_seen_still h fun hdist _ => hdist

lemma idle_of_seen_ctlr {data : U32} (h : seen ((Action.ctlr data).run env s) = seenIn none s) :
    (Action.ctlr data).Idle env s := by
  refine of_seen_still h ?_
  unfold Action.run writeCtlr
  rw [wp_ite, wp_ite, wp_modifyDist, wp_modifyDist]
  refine ⟨fun hdata hdist _ => ⟨fun _ => hdist, fun hne => absurd hdata hne⟩, fun hne => ⟨fun hzero hdist _ => ?_, fun hzero _ _ => ?_⟩⟩
  · exact ⟨fun hdata => absurd hdata hne, fun _ _ => hdist⟩
  · exact ⟨fun hdata => absurd hdata hne, fun _ h0 => absurd h0 hzero⟩

end Seen

/-! ### The operations of a write -/

section Actions

variable {s : Vmm φ} {offset fsr : U64}

lemma seen_vgicDistRegWrite (hstop : env.assertStops = true) (htcb : TcbAccepts env)
    (hok : AccessOk (env.board.gicDistPaddr + offset) fsr) (hwrite : faultIsWrite fsr = true) (regs : UserContext) :
    seen (vgicDistRegWrite env vcpuId offset fsr regs s) = seen (forM (distActions env.board.gic offset.toNat
      (env.board.gicDistPaddr + offset) fsr (rtValue regs fsr s.wzr)) (Action.run env) s) := by
  have hwp : wp (vgicDistRegWrite env vcpuId offset fsr regs)
      (fun _ t => ∃ u, forM (distActions env.board.gic offset.toNat (env.board.gicDistPaddr + offset) fsr
        (rtValue regs fsr s.wzr)) (Action.run env) s = .ok () u ∧ t = resumed u regs)
      (fun e t => forM (distActions env.board.gic offset.toNat (env.board.gicDistPaddr + offset) fsr
        (rtValue regs fsr s.wzr)) (Action.run env) s = .error e t) s :=
    wp_vgicDistRegWrite hstop (fun hbad => absurd hok hbad) rfl hwrite fun _ =>
      wp_mono (wp_self _ s) (fun _ t ht => ⟨⟨t, ht, rfl⟩, fun hno => absurd htcb hno⟩) fun _ _ => id
  cases hrun : vgicDistRegWrite env vcpuId offset fsr regs s with
  | ok b t =>
    obtain ⟨u, hu, rfl⟩ := wp_ok hwp hrun
    rw [hu]
    simp [seen, seenIn, resumed, Event.isCall]
  | error e t =>
    rw [wp_error hwp hrun]
    rfl

variable (hok : AccessOk (env.board.gicDistPaddr + offset) fsr) (hwidth : accessWidth fsr ≠ .doubleword) {v v' : U64}

include hok hwidth

lemma laneIrqs_congr (hagree : v &&& (accessWidth fsr).mask = v' &&& (accessWidth fsr).mask) {base : Nat}
    (hlane : offset.toNat % 4 = 0) : laneIrqs base offset.toNat (maskedData env offset fsr v) =
      laneIrqs base offset.toNat (maskedData env offset fsr v') := by
  have hdata : maskedData env offset fsr v = maskedData env offset fsr v' := by
    apply BitVec.eq_of_getLsbD_eq
    intro k _
    rw [Bool.eq_iff_iff, getLsbD_maskedData hok hwidth, getLsbD_maskedData hok hwidth, hlane]
    have hbit := congrArg (fun x => x.getLsbD k) hagree
    simp only [BitVec.getLsbD_and, getLsbD_mask] at hbit
    by_cases hk : k < 8 * (accessWidth fsr).bytes
    · simp only [hk, decide_true, Bool.and_true] at hbit
      simp [hbit]
    · simp [hk]
  rw [hdata]

lemma laneIrqs_subset {base : Nat} (hlane : offset.toNat % 4 ≠ 0) :
    ∀ i ∈ laneIrqs base offset.toNat (maskedData env offset fsr v), i ∈ strayIrqs base offset.toNat fsr := by
  intro i hi
  obtain ⟨k, hk, rfl⟩ := mem_laneIrqs.mp hi
  obtain ⟨hlo, hhi, -⟩ := (getLsbD_maskedData hok hwidth).mp hk
  obtain ⟨j, rfl⟩ := Nat.exists_eq_add_of_le hlo
  rw [strayIrqs, if_neg hlane]
  exact List.mem_map.mpr ⟨j, List.mem_range.mpr (by omega), rfl⟩

/-- A register that holds none of the bits stored can hold any one of the lane. -/
lemma laneIrqs_one {base : Nat} {i : Int} (hi : i ∈ strayIrqs base offset.toNat fsr) :
    ∃ v, v &&& (accessWidth fsr).mask = 0 ∧ laneIrqs base offset.toNat (maskedData env offset fsr v) = [i] := by
  unfold strayIrqs at hi
  split_ifs at hi with hlane
  · simp at hi
  · obtain ⟨j, hj, rfl⟩ := List.mem_map.mp hi
    have hj := List.mem_range.mp hj
    have hle := lane_le hok hwidth
    have hbytes := bytes_le_lane hok hwidth (by rwa [lane_dist])
    rw [lane_dist] at hle hbytes
    have hlt : 8 * (offset.toNat % 4) + j < 32 := by omega
    have hbit : ∀ k, (1#64 <<< (8 * (offset.toNat % 4) + j)).getLsbD k = decide (k = 8 * (offset.toNat % 4) + j) := by
      intro k
      simp only [BitVec.getLsbD_shiftLeft, BitVec.getLsbD_one, Bool.and_eq_decide, decide_eq_true_eq, decide_eq_decide,
        Bool.not_eq_true', decide_eq_false_iff_not]
      omega
    refine ⟨1#64 <<< (8 * (offset.toNat % 4) + j), ?_, ?_⟩
    · apply BitVec.eq_of_getLsbD_eq
      intro k _
      have hzero : (0 : U64).getLsbD k = false := BitVec.getLsbD_zero
      rw [BitVec.getLsbD_and, hbit, getLsbD_mask, hzero, Bool.and_eq_false_imp, decide_eq_true_eq, decide_eq_false_iff_not]
      omega
    · have hdata : maskedData env offset fsr (1#64 <<< (8 * (offset.toNat % 4) + j)) =
          1#32 <<< (8 * (offset.toNat % 4) + j) := by
        apply BitVec.eq_of_getLsbD_eq
        intro k hk
        rw [Bool.eq_iff_iff, getLsbD_maskedData hok hwidth, hbit]
        simp only [BitVec.getLsbD_shiftLeft, BitVec.getLsbD_one, Bool.and_eq_true, decide_eq_true_eq,
          Bool.not_eq_true', decide_eq_false_iff_not]
        omega
      rw [laneIrqs, hdata, WordBits.bits_one_shl hlt, List.map_singleton, Nat.mul_comm _ 8, Nat.add_comm]

omit hok hwidth in
lemma laneIrqs_zero {base : Nat} : laneIrqs base offset.toNat (maskedData env offset fsr 0) = [] := by
  have hdata : maskedData env offset fsr 0 = 0 := by simp [maskedData]
  rw [laneIrqs, hdata, WordBits.bits_eq_nil.mpr rfl]
  rfl

omit hok hwidth in
lemma strayIrqs_eq_nil {base : Nat} (h : strayIrqs base offset.toNat fsr = []) : offset.toNat % 4 = 0 := by
  have hpos : 0 < 8 * (accessWidth fsr).bytes := by cases accessWidth fsr <;> decide
  unfold strayIrqs at h
  split_ifs at h with hlane
  · exact hlane
  · rw [List.map_eq_nil_iff, List.range_eq_nil] at h
    omega

omit hok hwidth in
lemma setWidth_congr (hword : accessWidth fsr = .word)
    (hagree : v &&& (accessWidth fsr).mask = v' &&& (accessWidth fsr).mask) : v.setWidth 32 = v'.setWidth 32 := by
  apply BitVec.eq_of_getLsbD_eq
  intro k hk
  have hbit := congrArg (fun x => x.getLsbD k) hagree
  have hlow : k < 8 * (accessWidth fsr).bytes := by
    rw [hword]
    exact hk
  simp only [BitVec.getLsbD_and, getLsbD_mask, hlow, decide_true, Bool.and_true] at hbit
  rw [BitVec.getLsbD_setWidth, BitVec.getLsbD_setWidth, hbit]

omit hok hwidth in
lemma shifted_congr {addr : U64} (hagree : v &&& (accessWidth fsr).mask = v' &&& (accessWidth fsr).mask) :
    (v <<< laneShift addr) &&& dataMask addr fsr = (v' <<< laneShift addr) &&& dataMask addr fsr := by
  have hshift : ∀ x : U64, (x <<< laneShift addr) &&& dataMask addr fsr =
      (x &&& (accessWidth fsr).mask) <<< laneShift addr := fun x => by
    rw [dataMask, BitVec.shiftLeft_and_distrib]
  rw [hshift, hshift, hagree]

lemma distActions_congr (hnil : (strayActions env.board.gic offset.toNat fsr : List (Action φ)) = [])
    (hagree : v &&& (accessWidth fsr).mask = v' &&& (accessWidth fsr).mask) :
    (distActions env.board.gic offset.toNat (env.board.gicDistPaddr + offset) fsr v : List (Action φ)) =
      distActions env.board.gic offset.toNat (env.board.gicDistPaddr + offset) fsr v' := by
  have hirqs : ∀ {base : Nat} {op : Int → Action φ}, (strayIrqs base offset.toNat fsr).map op = [] →
      (laneIrqs base offset.toNat (maskedData env offset fsr v)).map op =
        (laneIrqs base offset.toNat (maskedData env offset fsr v')).map op := by
    intro base op h
    rw [laneIrqs_congr hok hwidth hagree (strayIrqs_eq_nil (List.map_eq_nil_iff.mp h))]
  have hdata : ∀ {l : List (Action φ)}, (if accessWidth fsr = .word then [] else l) = [] → l ≠ [] →
      v.setWidth 32 = v'.setWidth 32 := by
    intro l h hl
    split_ifs at h with hword
    · exact setWidth_congr hword hagree
    · exact absurd h hl
  unfold strayActions at hnil
  unfold distActions writeIrqs
  cases hk : distWrite env.board.gic vcpuId offset.toNat <;> rw [hk] at hnil <;> dsimp only at hnil ⊢
  case ctlr => rw [hdata hnil (by simp)]
  case sgir => rw [hdata hnil (by simp)]
  case store w => rw [shifted_congr hagree]
  case isenabler => exact hirqs hnil
  case icenabler => exact hirqs hnil
  case ispendr => exact hirqs hnil
  case icpendr => exact hirqs hnil

/-- With stray operations, all operations are among them or do nothing. -/
lemma idle_distActions (hne : (strayActions env.board.gic offset.toNat fsr : List (Action φ)) ≠ [])
    (hidle : ∀ a ∈ (strayActions env.board.gic offset.toNat fsr : List (Action φ)), a.Idle env s) :
    ∀ a ∈ distActions env.board.gic offset.toNat (env.board.gicDistPaddr + offset) fsr v, a.Idle env s := by
  have hirqs : ∀ {base : Nat} {op : Int → Action φ}, (strayIrqs base offset.toNat fsr).map op ≠ [] →
      (∀ a ∈ (strayIrqs base offset.toNat fsr).map op, a.Idle env s) →
      ∀ a ∈ (laneIrqs base offset.toNat (maskedData env offset fsr v)).map op, a.Idle env s := by
    intro base op hne hidle a ha
    obtain ⟨i, hi, rfl⟩ := List.mem_map.mp ha
    have hlane : offset.toNat % 4 ≠ 0 := by
      intro hlane
      rw [strayIrqs, if_pos hlane] at hne
      exact hne rfl
    exact hidle _ (List.mem_map_of_mem (laneIrqs_subset hok hwidth hlane i hi))
  unfold strayActions at hne hidle
  unfold distActions writeIrqs
  cases hk : distWrite env.board.gic vcpuId offset.toNat <;> rw [hk] at hne hidle <;> dsimp only at hne hidle ⊢
  case ctlr =>
    split_ifs at hne hidle with hword
    · exact absurd rfl hne
    · intro a ha
      obtain rfl := List.mem_singleton.mp ha
      refine ⟨(hidle (.ctlr (gicEnabled env.board.gic)) (by simp)).1 ∘ fun _ => rfl, fun hne h0 => ?_⟩
      have hdisable := (hidle (.ctlr 0) (by simp)).2
      exact hdisable (h0 ▸ hne) rfl
  case sgir =>
    split_ifs at hne hidle with hword
    · exact absurd rfl hne
    · intro a ha
      obtain ⟨_, -, rfl⟩ := List.mem_map.mp ha
      obtain ⟨hlo, hhi⟩ := sgirVirq_lt (v.setWidth 32)
      obtain ⟨i, hi⟩ := Int.eq_ofNat_of_zero_le hlo
      rw [hi]
      exact hidle _ (List.mem_map.mpr ⟨i, List.mem_range.mpr (by omega), rfl⟩)
  case isenabler => exact hirqs hne hidle
  case icenabler => exact hirqs hne hidle
  case ispendr => exact hirqs hne hidle
  case icpendr => exact hirqs hne hidle
  all_goals exact absurd rfl hne

omit hok in
lemma narrow_agree (hword : accessWidth fsr ≠ .word) (h : v &&& 0xffff = v' &&& 0xffff) :
    v &&& (accessWidth fsr).mask = v' &&& (accessWidth fsr).mask := by
  have hmask : (accessWidth fsr).mask = 0xffff &&& (accessWidth fsr).mask := by
    cases hw : accessWidth fsr with
    | doubleword => exact absurd hw hwidth
    | word => exact absurd hw hword
    | _ => rfl
  rw [hmask, ← BitVec.and_assoc, ← BitVec.and_assoc, h]

omit hok in
/-- A narrow store of the low bits of a value that means something to `CTLR` can also mean nothing. -/
lemma exists_ctlr (hword : accessWidth fsr ≠ .word) {data : U32} (hdata : data = gicEnabled env.board.gic ∨ data = 0) :
    ∃ v v' : U64, v &&& (accessWidth fsr).mask = v' &&& (accessWidth fsr).mask ∧ v.setWidth 32 = data ∧
      (Action.ctlr (v'.setWidth 32) : Action φ).Idle env s := by
  have hother : ∀ data, data ≠ gicEnabled env.board.gic → data ≠ 0 → (Action.ctlr data : Action φ).Idle env s :=
    fun _ hne h0 => ⟨fun h => absurd h hne, fun _ h => absurd h h0⟩
  rcases hdata with rfl | rfl
  · have hagree : (gicEnabled env.board.gic).setWidth 64 &&& 0xffff =
        ((gicEnabled env.board.gic).setWidth 64 + 0x10000) &&& 0xffff := by
      cases env.board.gic <;> decide
    refine ⟨_, _, narrow_agree hwidth hword hagree, by simp, ?_⟩
    exact hother _ (by cases env.board.gic <;> decide) (by cases env.board.gic <;> decide)
  · refine ⟨0, 0x10000, narrow_agree hwidth hword (by decide), rfl, ?_⟩
    exact hother _ (by cases env.board.gic <;> decide) (by decide)

omit hok in
/-- A narrow store of the number of an SGI can have any filter mode, the reserved one among them. -/
lemma exists_sgir (hword : accessWidth fsr ≠ .word) {i : Nat} (hi : i < 16) :
    ∃ v v' : U64, v &&& (accessWidth fsr).mask = v' &&& (accessWidth fsr).mask ∧
      (sgirTargetList vcpuId (v.setWidth 32)).isSome ∧ sgirVirq (v.setWidth 32) = i ∧
      sgirTargetList vcpuId (v'.setWidth 32) = none := by
  have hall : ∀ i : Fin 16, BitVec.ofNat 64 i &&& 0xffff = BitVec.ofNat 64 (i + (3 <<< 24)) &&& 0xffff ∧
      (sgirTargetList vcpuId ((BitVec.ofNat 64 i).setWidth 32)).isSome ∧
      sgirVirq ((BitVec.ofNat 64 i).setWidth 32) = (i : Nat) ∧
      sgirTargetList vcpuId ((BitVec.ofNat 64 (i + (3 <<< 24))).setWidth 32) = none := by decide
  obtain ⟨hagree, hrest⟩ := hall ⟨i, hi⟩
  exact ⟨_, _, narrow_agree hwidth hword hagree, hrest⟩

/-- Every stray operation is the only one of some write, where another that stores the same bytes does nothing. -/
lemma exists_stray {a : Action φ} (ha : a ∈ (strayActions env.board.gic offset.toNat fsr : List (Action φ))) :
    ∃ v v' : U64, v &&& (accessWidth fsr).mask = v' &&& (accessWidth fsr).mask ∧
      distActions env.board.gic offset.toNat (env.board.gicDistPaddr + offset) fsr v = [a] ∧
      ∀ b ∈ (distActions env.board.gic offset.toNat (env.board.gicDistPaddr + offset) fsr v' : List (Action φ)),
        b.Idle env s := by
  have hirqs : ∀ {base : Nat} {op : Int → Action φ}, a ∈ (strayIrqs base offset.toNat fsr).map op →
      ∃ v v' : U64, v &&& (accessWidth fsr).mask = v' &&& (accessWidth fsr).mask ∧
        (laneIrqs base offset.toNat (maskedData env offset fsr v)).map op = [a] ∧
        ∀ b ∈ (laneIrqs base offset.toNat (maskedData env offset fsr v')).map op, b.Idle env s := by
    intro base op ha
    obtain ⟨i, hi, rfl⟩ := List.mem_map.mp ha
    obtain ⟨v, hv, hone⟩ := laneIrqs_one hok hwidth hi
    refine ⟨v, 0, hv.trans BitVec.zero_and.symm, by rw [hone, List.map_singleton], ?_⟩
    rw [laneIrqs_zero]
    simp
  unfold strayActions at ha
  unfold distActions writeIrqs
  cases hk : distWrite env.board.gic vcpuId offset.toNat <;> rw [hk] at ha <;> dsimp only at ha ⊢
  case ctlr =>
    split_ifs at ha with hword
    · simp at ha
    · obtain ⟨data, hdata, rfl⟩ : ∃ data, (data = gicEnabled env.board.gic ∨ data = 0) ∧ a = .ctlr data := by
        rcases List.mem_cons.mp ha with rfl | ha
        · exact ⟨_, .inl rfl, rfl⟩
        · exact ⟨0, .inr rfl, List.mem_singleton.mp ha⟩
      obtain ⟨v, v', hagree, hv, hidle⟩ := exists_ctlr (φ := φ) (s := s) hwidth hword hdata
      refine ⟨v, v', hagree, by rw [hv], fun b hb => ?_⟩
      obtain rfl := List.mem_singleton.mp hb
      exact hidle
  case sgir =>
    split_ifs at ha with hword
    · simp at ha
    · obtain ⟨i, hi, rfl⟩ := List.mem_map.mp ha
      obtain ⟨v, v', hagree, hsome, hvirq, hnone⟩ := exists_sgir hwidth hword (List.mem_range.mp hi)
      obtain ⟨l, hl⟩ := Option.isSome_iff_exists.mp hsome
      refine ⟨v, v', hagree, ?_, ?_⟩
      · rw [hl, hvirq]
        rfl
      · rw [hnone]
        simp
  case isenabler => exact hirqs ha
  case icenabler => exact hirqs ha
  case ispendr => exact hirqs ha
  case icpendr => exact hirqs ha
  all_goals exact absurd ha (by simp)

end Actions

/-! ### When the bytes stored decide -/

section Main

variable (hstop : env.assertStops = true) {s : Vmm φ} {offset fsr : U64}

include hstop

lemma idle_of_seen (hw : s.vgic.Wf) {a : Action φ} (ha : a ∈ strayActions env.board.gic offset.toNat fsr)
    (h : seen (a.run env s) = seenIn none s) : a.Idle env s := by
  have hirqs : ∀ {base : Nat} {op : Int → Action φ}, a ∈ (strayIrqs base offset.toNat fsr).map op →
      ∃ i : Int, 0 ≤ i ∧ a = op i := by
    intro base op ha
    obtain ⟨i, hi, rfl⟩ := List.mem_map.mp ha
    unfold strayIrqs at hi
    split_ifs at hi
    · simp at hi
    · obtain ⟨k, -, rfl⟩ := List.mem_map.mp hi
      exact ⟨_, Int.natCast_nonneg _, rfl⟩
  unfold strayActions at ha
  cases hk : distWrite env.board.gic vcpuId offset.toNat <;> rw [hk] at ha <;> dsimp only at ha
  case ctlr =>
    split_ifs at ha
    · simp at ha
    · rcases List.mem_cons.mp ha with rfl | ha
      · exact idle_of_seen_ctlr h
      · obtain rfl := List.mem_singleton.mp ha
        exact idle_of_seen_ctlr h
  case sgir =>
    split_ifs at ha
    · simp at ha
    · obtain ⟨i, -, rfl⟩ := List.mem_map.mp ha
      exact idle_of_seen_inject hstop hw h
  case isenabler =>
    obtain ⟨i, hpos, rfl⟩ := hirqs ha
    exact idle_of_seen_enable hstop hpos h
  case icenabler =>
    obtain ⟨i, -, rfl⟩ := hirqs ha
    exact idle_of_seen_disable h
  case ispendr =>
    obtain ⟨i, -, rfl⟩ := hirqs ha
    exact idle_of_seen_inject hstop hw h
  case icpendr =>
    obtain ⟨i, -, rfl⟩ := hirqs ha
    exact idle_of_seen_clrPending h
  all_goals exact absurd ha (by simp)

variable (htcb : TcbAccepts env) (hok : AccessOk (env.board.gicDistPaddr + offset) fsr)
  (hwidth : accessWidth fsr ≠ .doubleword) (hwrite : faultIsWrite fsr = true)

include htcb hok hwidth hwrite

/-- A store depends on its bytes alone exactly when its register is `xzr` or its stray operations are idle. -/
lemma bytesOnly_iff (hw : s.vgic.Wf) : BytesOnly env s offset fsr ↔ (hsrSyndromeRt fsr).toNat = 31 ∨
    ∀ a ∈ (strayActions env.board.gic offset.toNat fsr : List (Action φ)), a.Idle env s := by
  have hseen : ∀ regs, seen (vgicDistRegWrite env vcpuId offset fsr regs s) = _ :=
    fun regs => seen_vgicDistRegWrite hstop htcb hok hwrite regs
  have hstill : ∀ l : List (Action φ), (∀ a ∈ l, a.Idle env s) → seen (forM l (Action.run env) s) = seenIn none s := by
    intro l hl
    rw [forM_still fun a ha => (hl a ha).run hstop hw]
    rfl
  constructor
  · intro h
    by_cases hrt : (hsrSyndromeRt fsr).toNat = 31
    · exact .inl hrt
    refine .inr fun a ha => ?_
    have hlt : (hsrSyndromeRt fsr).toNat < 31 := Nat.lt_of_le_of_ne (hsrSyndromeRt_le fsr) hrt
    have hvalue : ∀ v, rtValue (.filled v) fsr s.wzr = v := by
      intro v
      rw [rtValue, dif_pos hlt]
      exact Vector.getElem_replicate _
    obtain ⟨v, v', hagree, hone, hidle⟩ := exists_stray (s := s) hok hwidth ha
    have hsame := h (.filled v) (.filled v') (by rw [hvalue, hvalue, hagree])
    rw [hseen, hseen, hvalue, hvalue, hone, hstill _ hidle, List.forM_cons, List.forM_nil, bind_pure_unit] at hsame
    exact idle_of_seen hstop hw ha hsame
  · rintro h regs regs' hagree
    rw [hseen, hseen]
    rcases h with hrt | hidle
    · have hwzr : ∀ regs, rtValue regs fsr s.wzr = s.wzr := fun regs => dif_neg (by omega)
      rw [hwzr, hwzr]
    · by_cases hnil : (strayActions env.board.gic offset.toNat fsr : List (Action φ)) = []
      · rw [distActions_congr hok hwidth hnil hagree]
      · rw [hstill _ (idle_distActions hok hwidth hnil hidle), hstill _ (idle_distActions hok hwidth hnil hidle)]

end Main

lemma not_idle_ctlr {s : Vmm φ} (henable : (Action.ctlr (gicEnabled env.board.gic)).Idle env s) :
    ¬(Action.ctlr 0).Idle env s := by
  intro hdisable
  have hon := congrArg (fun d => d.word GicDistMap.ctlr) (henable.1 rfl)
  have hoff := congrArg (fun d => d.word GicDistMap.ctlr) (hdisable.2 (by cases env.board.gic <;> decide) rfl)
  cases hg : env.board.gic with
  | v2 =>
    rw [hg] at hon hoff
    simp only [vgicDistEnable, vgicDistDisable, word_set, if_true] at hon hoff
    exact absurd (hon.trans hoff.symm) (by decide)
  | v3 =>
    rw [hg] at hon hoff
    simp only [vgicDistEnable, vgicDistDisable, GicDistMap.orWord, GicDistMap.andNotWord, word_set, if_true] at hon hoff
    have hset := congrArg (fun x => x.getLsbD 1) hon
    have hclr := congrArg (fun x => x.getLsbD 1) hoff
    have hbit : (gic500Grp1Ns ||| gic500AreS).getLsbD 1 = true := by decide
    simp only [BitVec.getLsbD_or, BitVec.getLsbD_and, BitVec.getLsbD_not, hbit, Bool.or_true, Bool.not_true, Bool.and_false]
      at hset hclr
    exact absurd (hset.trans hclr.symm) (by decide)

/-- In every reachable state, what a naturally aligned store of up to 32 bits leads to is decided by the bytes stored
exactly when its register is `xzr` or each operation that other bits of the register decide would change nothing. For a
store to `CTLR` that leaves the word stores. -/
theorem stored_bytes_decide_iff (hstop : env.assertStops = true) (htcb : TcbAccepts env)
    {allowed : Vmm φ → Op φ → Prop} {s : Vmm φ} (hs : Reachable env allowed s) {offset fsr : U64}
    (hok : AccessOk (env.board.gicDistPaddr + offset) fsr) (hwidth : accessWidth fsr ≠ .doubleword)
    (hwrite : faultIsWrite fsr = true) :
    (BytesOnly env s offset fsr ↔ (hsrSyndromeRt fsr).toNat = 31 ∨
      ∀ a ∈ (strayActions env.board.gic offset.toNat fsr : List (Action φ)), a.Idle env s) ∧
    (distWrite env.board.gic vcpuId offset.toNat = .ctlr →
      (BytesOnly env s offset fsr ↔ (hsrSyndromeRt fsr).toNat = 31 ∨ accessWidth fsr = .word)) := by
  have hw := (reachable_workConserving hstop hs).1
  refine ⟨bytesOnly_iff hstop htcb hok hwidth hwrite hw, fun hctlr => ?_⟩
  rw [bytesOnly_iff hstop htcb hok hwidth hwrite hw, strayActions, hctlr]
  refine or_congr_right ⟨fun hidle => ?_, fun hword => ?_⟩
  · by_contra hword
    rw [if_neg hword] at hidle
    exact not_idle_ctlr (hidle _ (by simp)) (hidle (.ctlr 0) (by simp))
  · rw [if_pos hword]
    simp

/-- A byte store to `SGIR` while no SGI is registered. -/
theorem stored_bytes_decide_iff_unregistered :
    BytesOnly (vmmEnv .qemuArmVirtHyp) (vgicInit (vmmEnv .qemuArmVirtHyp) (.filled 0)) 0xF00 storeByte := by
  have hs : Reachable (vmmEnv .qemuArmVirtHyp) (fun _ _ => True) (vgicInit (vmmEnv .qemuArmVirtHyp) (.filled 0)) :=
    .init ⟨_, rfl⟩
  refine (stored_bytes_decide_iff rfl (vmmEnv_tcb _) hs (accessOk_storeByte _) (by decide) (by decide)).1.mpr
    (.inr fun a ha => ?_)
  change a ∈ (List.range 16).map fun i : Nat => .inject i at ha
  obtain ⟨i, hi, rfl⟩ := List.mem_map.mp ha
  have hlt := List.mem_range.mp hi
  refine ⟨Vgic.find_isSome_of_local ⟨by omega, by simp only [numVcpuLocalVirqs]; omega⟩, fun h hcan => ?_⟩
  obtain ⟨p, -, hp⟩ := Option.bind_eq_some_iff.mp hcan.handle
  have hinvalid := (present_eq_some.mp hp).2
  change ((Vgic.init : Vgic VmmAckFn).deref p).virq ≠ _ at hinvalid
  rw [deref_init] at hinvalid
  exact absurd rfl hinvalid

/-- A byte store of 1 to `CTLR` enables the distributor or not, by the other bits of its register; one to the second byte
of `ISENABLER0` enables interrupt 16 or not. -/
theorem byte_stores_leak : ∃ s : Vmm VmmAckFn, Reachable (vmmEnv .qemuArmVirtHyp) (fun _ _ => True) s ∧
    ¬BytesOnly (vmmEnv .qemuArmVirtHyp) s 0x000 storeByte ∧ ¬BytesOnly (vmmEnv .qemuArmVirtHyp) s 0x101 storeByte := by
  have hs : Reachable (vmmEnv .qemuArmVirtHyp) (fun _ _ => True) (vgicInit (vmmEnv .qemuArmVirtHyp) (.filled 0)) :=
    .init ⟨_, rfl⟩
  have hiff := fun offset => @bytesOnly_iff _ (vmmEnv .qemuArmVirtHyp) rfl _ offset storeByte (vmmEnv_tcb _)
    (accessOk_storeByte _) (by decide) (by decide) (reachable_workConserving rfl hs).1
  refine ⟨_, hs, fun h => ?_, fun h => ?_⟩
  · have hidle := ((hiff 0x000).mp h).resolve_left (by decide)
    change ∀ a ∈ [Action.ctlr (gicEnabled (vmmEnv .qemuArmVirtHyp).board.gic), .ctlr 0], _ at hidle
    exact not_idle_ctlr (hidle _ (by simp)) (hidle (.ctlr 0) (by simp))
  · have hidle := ((hiff 0x101).mp h).resolve_left (by decide)
    have hset := (hidle (.enable 16) (List.mem_map.mpr ⟨16, by decide, rfl⟩)).2.1
    have hword := congrArg (fun d => d.word GicDistMap.enableSet0) hset
    exact absurd hword (by decide +kernel)

end Sel4cpVmm
