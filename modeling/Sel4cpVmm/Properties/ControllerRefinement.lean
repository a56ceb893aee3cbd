import Sel4cpVmm.Lib.Controller
import Sel4cpVmm.Properties.QueueCapacity

/-!
# The vGIC as an interrupt controller

What the VMM does with interrupts, after they have been registered, is what a controller with four slots does: the
bitmaps, the ring and the tables come to the sets and the queue of its state, the list register loads and the
acknowledgements to its outputs.
-/

namespace Sel4cpVmm

open StopProgram Controller

variable {φ : Type} {env : Env φ}

/-! ### State, inputs and outputs -/

/-- The controller that the vGIC is, for the interrupts below the limit. -/
def controllerOf (env : Env φ) (s : Vmm φ) : Controller numListRegs Int where
  on := vgicDistIsEnabled env.board.gic s.dist
  known i := (s.vgic.handle i).isSome
  enabled i := decide (0 ≤ i ∧ i < irqLimit) && isEnabled s.dist i vcpuId
  lines := s.vgic.view.map VirqHandle.virq

def lrIndex (idx : Int) : Option (Fin numListRegs) :=
  if h : 0 ≤ idx ∧ idx.toNat < numListRegs then some ⟨idx.toNat, toNat_lt h⟩ else none

/-- What an operation is to the controller. -/
def Action.inputs (g : GicVersion) : Action φ → List (Input numListRegs Int)
  | .inject irq => [.raise irq]
  | .notification irq => [.raise irq]
  | .vppiEvent irq => [.raise (cInt irq)]
  | .retire idx _ => ((lrIndex idx).map .retire).toList
  | .enable irq => [.enable irq]
  | .disable irq => if irq ≥ numSgiVirqs then [.disable irq] else []
  | .clearEnable irq => [.disable irq]
  | .ctlr data => if data = gicEnabled g then [.switch true] else if data = 0 then [.switch false] else []
  | _ => []

def opInputs (env : Env φ) (s : Vmm φ) (op : Op φ) : List (Input numListRegs Int) :=
  (opActions env s op).flatMap (Action.inputs env.board.gic)

/-- The output an event is, with the index of the list register as the kernel gets it. -/
def Event.output : Event φ → Option (Output Int Int)
  | .vcpuInjectIrq virq _ idx _ => some (.load idx virq)
  | .ack _ _ irq _ => some (.ack irq)
  | _ => none

def outputs (l : List (Event φ)) : List (Output Int Int) := l.filterMap Event.output

def visible (l : List (Output (Fin numListRegs) Int)) : List (Output Int Int) :=
  l.map (.rename fun k : Fin numListRegs => ((k : Nat) : Int))

/-- Between `s` and `t` happens what the controller does on the inputs. -/
def Refines (env : Env φ) (s t : Vmm φ) (inputs : List (Input numListRegs Int)) : Prop :=
  ((controllerOf env s).run inputs).1 = controllerOf env t ∧
    ∃ l, t.log = s.log ++ l ∧ outputs l = visible ((controllerOf env s).run inputs).2

section Refines

variable {s t u : Vmm φ} {l : List (Event φ)} {irq : Int}

lemma lrIndex_val (k : Fin numListRegs) : lrIndex (k.val : Int) = some k := by
  have hk : 0 ≤ (k.val : Int) ∧ (k.val : Int).toNat < numListRegs := ⟨by omega, by simp⟩
  rw [lrIndex, dif_pos hk]
  rfl

lemma Refines.trans {a b : List (Input numListRegs Int)} (h : Refines env s t a) (h' : Refines env t u b) :
    Refines env s u (a ++ b) := by
  obtain ⟨hc, l, hl, hout⟩ := h
  obtain ⟨hc', l', hl', hout'⟩ := h'
  rw [← hc] at hc' hout'
  refine ⟨by rw [run_append, hc'], l ++ l', by rw [hl', hl, List.append_assoc], ?_⟩
  rw [run_append, outputs, List.filterMap_append, visible, List.map_append]
  exact congrArg₂ _ hout hout'

lemma controllerOf_congr (hv : t.vgic = s.vgic) (hd : t.dist = s.dist) : controllerOf env t = controllerOf env s := by
  simp [controllerOf, hv, hd]

lemma enabled_controllerOf (h : ∀ i, 0 ≤ i ∧ i < irqLimit → isEnabled t.dist i vcpuId = isEnabled s.dist i vcpuId) :
    (controllerOf env t).enabled = (controllerOf env s).enabled := by
  funext i
  simp only [controllerOf]
  by_cases hi : 0 ≤ i ∧ i < irqLimit
  · rw [h i hi]
  · rw [decide_eq_false hi, Bool.false_and, Bool.false_and]

lemma Refines.same (hc : controllerOf env t = controllerOf env s) (hl : t.log = s.log ++ l)
    (hout : ∀ e ∈ l, e.output = none) : Refines env s t [] := by
  exact ⟨hc.symm, l, hl, List.filterMap_eq_nil_iff.mpr hout⟩

lemma Frame.refines (hf : Frame s t) : Refines env s t [] := by
  obtain ⟨l, hl, hret⟩ := hf.log
  refine .same (controllerOf_congr hf.vgic hf.dist) hl fun e he => ?_
  have hr := hret e he
  cases e <;> first | rfl | simp [Event.isReturn] at hr

/-! ### The outputs -/

lemma outputs_ackEvents {h : VirqHandle φ} (hfn : h.ackFn.isSome) : outputs (ackEvents env s h) = [.ack h.virq] := by
  obtain ⟨fn, hfn⟩ := Option.isSome_iff_exists.mp hfn
  have hcalls : ∀ l : List AckCall, (l.filterMap (AckCall.event (φ := φ))).filterMap Event.output = [] := by
    intro l
    refine List.filterMap_eq_nil_iff.mpr fun e he => ?_
    rcases mem_callEvents he with ⟨ch, rfl⟩ | ⟨i, rfl⟩ <;> rfl
  simp only [outputs, ackEvents, hfn, List.filterMap_cons, Event.output, hcalls]

lemma outputs_offerEvents (h : VirqHandle φ) : outputs (offerEvents env s.vgic h) =
    visible ((controllerOf env s).lines.firstFree.bind fun k =>
      ((controllerOf env s).lines.enqueue h.virq).waiting.head?.map (.load k)).toList := by
  rw [offerEvents, controllerOf, ← SlotQueue.enqueue_map, SlotQueue.firstFree_map]
  cases s.vgic.view.firstFree with
  | none => rfl
  | some k =>
    cases hwait : (s.vgic.view.enqueue h).waiting with
    | nil => simp [hwait, outputs, visible]
    | cons a w => simp [hwait, outputs, visible, Event.output, Output.rename]

lemma outputs_refillEvents (k : Fin numListRegs) : outputs (refillEvents env s k) =
    visible ((controllerOf env s).lines.waiting.head?.map (Output.load k)).toList := by
  rw [refillEvents, controllerOf]
  cases hwait : s.vgic.view.waiting with
  | nil => simp [hwait, outputs, visible]
  | cons a w => simp [hwait, outputs, visible, Event.output, Output.rename, loadEvent]

/-! ### The operations -/

lemma known_of_handle {h : VirqHandle φ} (hh : s.vgic.handle irq = some h) : (controllerOf env s).known irq = true := by
  simp [controllerOf, hh]

lemma PendingResident.mem_lines (hI : PendingResident s) (hi : 0 ≤ irq ∧ irq < irqLimit) :
    irq ∈ (controllerOf env s).lines.residents ↔ isPending s.dist irq vcpuId = true := by
  rw [controllerOf, SlotQueue.residents_map, hI.pending irq hi]

/-- The controller takes the interrupts that an injection accepts. -/
lemma takes_iff (hI : PendingResident s) (hlt : irq < irqLimit) : (controllerOf env s).Takes irq ↔
    (∃ h, CanInject env s irq h) ∧ isPending s.dist irq vcpuId = false := by
  constructor
  · rintro ⟨hon, hknown, hen, hout⟩
    obtain ⟨h, hh⟩ := Option.isSome_iff_exists.mp hknown
    have hi : 0 ≤ irq ∧ irq < irqLimit := ⟨Vgic.nonneg_of_handle hh, hlt⟩
    rw [hI.mem_lines hi, Bool.not_eq_true] at hout
    exact ⟨⟨h, hh, hon, (Bool.and_eq_true_iff.mp hen).2⟩, hout⟩
  · rintro ⟨⟨h, hcan⟩, hpend⟩
    have hi : 0 ≤ irq ∧ irq < irqLimit := ⟨Vgic.nonneg_of_handle hcan.handle, hlt⟩
    refine ⟨hcan.dist, known_of_handle hcan.handle, ?_, ?_⟩
    · simp [controllerOf, hi, hcan.irq]
    · rw [hI.mem_lines hi, hpend]
      simp

lemma Injected.refines {b : Bool} (h : Injected env s irq b t) (hw : s.vgic.Wf) (hI : PendingResident s)
    (hlt : irq < irqLimit) : Refines env s t [.raise irq] := by
  have hrefuse : ¬(controllerOf env s).Takes irq → Refines env s s [.raise irq] := by
    intro hno
    have hrun : (controllerOf env s).run [.raise irq] = (controllerOf env s, []) := by
      rw [run_one, Controller.step, if_neg hno]
    exact ⟨by rw [hrun], [], by simp, by rw [hrun]; rfl⟩
  cases h with
  | refused _ hno => exact hrefuse fun ht => ((takes_iff hI hlt).mp ht).1.elim hno
  | pending _ hpend =>
    refine hrefuse fun ht => ?_
    have hfree := ((takes_iff hI hlt).mp ht).2
    simp [hpend] at hfree
  | @accepted h _ hcan hpend ha =>
    have hvirq := (hw.virq_of_handle hcan.handle).1
    rw [Refines, run_one, Controller.step, if_pos ((takes_iff hI hlt).mpr ⟨⟨h, hcan⟩, hpend⟩)]
    refine ⟨?_, _, ha.log, ?_⟩
    · ext1
      · exact (vgicDistIsEnabled_congr _ (by rw [ha.dist, word_ctlr_setPending])).symm
      · funext i
        simp only [controllerOf, Vgic.handle_congr ha.deref]
      · exact (enabled_controllerOf fun i hi => by rw [ha.dist, isEnabled_setPending hi]).symm
      · simp only [controllerOf, ha.view, SlotQueue.offer_map, hvirq]
    · rw [outputs, List.filterMap_cons_none rfl]
      exact hvirq ▸ outputs_offerEvents h

/-- An operation on the bitmaps alone. -/
lemma Refines.banks {d : GicDistMap} {a : Input numListRegs Int} {o : List (Output (Fin numListRegs) Int)}
    (hstep : (controllerOf env s).step a = (controllerOf env { s with dist := d }, o)) (hout : outputs l = visible o) :
    Refines env s { s with dist := d, log := s.log ++ l } [a] := by
  rw [Refines, run_one, hstep]
  exact ⟨rfl, l, rfl, hout⟩

/-- One that nothing is seen of. -/
lemma Refines.quiet {d : GicDistMap} {a : Input numListRegs Int}
    (hstep : (controllerOf env s).step a = (controllerOf env { s with dist := d }, [])) :
    Refines env s { s with dist := d } [a] := by
  rw [Refines, run_one, hstep]
  exact ⟨rfl, [], by simp, rfl⟩

lemma controllerOf_setEnable (hi : 0 ≤ irq ∧ irq < irqLimit) (b : Bool) :
    controllerOf env { s with dist := setEnable s.dist irq b vcpuId } =
      { controllerOf env s with enabled := Function.update (controllerOf env s).enabled irq b } := by
  ext1
  · exact vgicDistIsEnabled_congr _ word_ctlr_setEnable
  · rfl
  · funext j
    by_cases hj : 0 ≤ j ∧ j < irqLimit
    · by_cases hji : j = irq
      · simp [controllerOf, hi, hji, isEnabled_setEnable hi hi.1]
      · simp [controllerOf, hji, isEnabled_setEnable hj hi.1]
    · have hji : j ≠ irq := fun h => hj (h ▸ hi)
      simp only [controllerOf, Function.update_of_ne hji]
      rw [decide_eq_false hj, Bool.false_and, Bool.false_and]
  · rfl

lemma refines_disable (hi : 0 ≤ irq ∧ irq < irqLimit) :
    Refines env s { s with dist := setEnable s.dist irq false vcpuId } [.disable irq] :=
  .quiet (by rw [controllerOf_setEnable hi, Controller.step])

lemma refines_switch {on : Bool} {d : GicDistMap} (hon : vgicDistIsEnabled env.board.gic d = on)
    (hen : ∀ i, 0 ≤ i ∧ i < irqLimit → isEnabled d i vcpuId = isEnabled s.dist i vcpuId) :
    Refines env s { s with dist := d } [.switch on] := by
  refine .quiet ?_
  rw [Controller.step]
  congr 1
  ext1
  · exact hon.symm
  · rfl
  · exact (enabled_controllerOf hen).symm
  · rfl

lemma Retires.refines {k : Fin numListRegs} {h : VirqHandle φ} (hr : Retires env s k h t) (hI : PendingResident s) :
    Refines env s t [.retire k] := by
  have hslot : (controllerOf env s).lines.slot k = some h.virq := by
    rw [controllerOf, SlotQueue.slot_map, hr.slot]
    rfl
  have hmem : h ∈ s.vgic.view.residents := SlotQueue.mem_residents.mpr (.inl ⟨k, hr.slot⟩)
  have hi := hI.range h hmem
  have hrefill : outputs (refillEvents env (freed s k h) k) =
      visible ((controllerOf env s).lines.waiting.head?.map (Output.load k)).toList := by
    rw [outputs_refillEvents]
    simp only [controllerOf, SlotQueue.waiting_map, waiting_freed]
  rw [Refines, run_one, Controller.step]
  simp only [hslot]
  refine ⟨?_, _, by rw [hr.log, List.append_assoc], ?_⟩
  · ext1
    · exact (vgicDistIsEnabled_congr _ (by rw [hr.dist, word_ctlr_setPending])).symm
    · funext i
      simp only [controllerOf, Vgic.handle_congr hr.deref]
    · exact (enabled_controllerOf fun i hi => by rw [hr.dist, isEnabled_setPending hi]).symm
    · simp only [controllerOf, hr.view, SlotQueue.retire_map]
  · have hack : outputs (ackEvents env (freed s k h) h) = visible [.ack h.virq] := outputs_ackEvents hr.ackFn
    rw [outputs, List.filterMap_append]
    exact congrArg₂ _ hack hrefill

/-- An operation does what its inputs do to the controller. -/
theorem Does.refines {a : Action φ} (hd : Does env s a t) (hw : s.vgic.Wf) (hI : PendingResident s)
    (hb : a.Below irqLimit) (hreg : ∀ irq fn data, a ≠ .register irq fn data) (hclr : ∀ irq, a ≠ .clrPending irq) :
    Refines env s t (a.inputs env.board.gic) := by
  cases hd with
  | registerRefused irq fn data => exact absurd rfl (hreg irq fn data)
  | @register irq fn data => exact absurd rfl (hreg irq fn data)
  | inject hi => exact hi.refines hw hI hb
  | @notification irq b _ hi =>
    have hstart : Refines env s { s with log := s.log ++ [.notification irq] } [] := .same rfl rfl (by simp [Event.output])
    exact hstart.trans (hi.refines hw ⟨hI.range, hI.nodup, hI.pending⟩ hb)
  | @vppiEvent irq b u hi =>
    have hstart : Refines env s { s with log := s.log ++ [.vppiEvent irq.toNat] } [] :=
      .same rfl rfl (by simp [Event.output])
    have hend : Refines env u { u with log := u.log ++ vppiReturn irq b } [] :=
      .same rfl rfl (by cases b <;> simp [vppiReturn, Event.output])
    exact (hstart.trans (hi.refines hw ⟨hI.range, hI.nodup, hI.pending⟩ hb)).trans hend
  | @retire k err h _ hr =>
    rw [Action.inputs, lrIndex_val]
    exact hr.refines hI
  | @enableOnly irq hskip =>
    refine .quiet ?_
    rw [controllerOf_setEnable hb, Controller.step, if_neg]
    rintro ⟨hknown, hout⟩
    obtain ⟨h, hh⟩ := Option.isSome_iff_exists.mp hknown
    have hpend := hskip h hh
    rw [(hw.virq_of_handle hh).1, enabled, isPending_setEnable hb hb] at hpend
    exact hout ((hI.mem_lines hb).mpr hpend)
  | @enableAck irq h hh hpend hfn =>
    have hvirq := (hw.virq_of_handle hh).1
    refine .banks (o := [.ack irq]) (d := setEnable s.dist irq true vcpuId) ?_ (hvirq ▸ outputs_ackEvents hfn)
    rw [controllerOf_setEnable hb, Controller.step, if_pos]
    refine ⟨known_of_handle hh, ?_⟩
    rw [hvirq, enabled, isPending_setEnable hb hb] at hpend
    rw [hI.mem_lines hb, hpend]
    simp
  | @disableSgi irq hlt =>
    rw [Action.inputs, if_neg (not_le.mpr hlt)]
    exact .same (l := []) rfl (by simp) (by simp)
  | @disable irq hle =>
    rw [Action.inputs, if_pos hle]
    exact refines_disable hb
  | clearEnable irq => exact refines_disable hb
  | clrPending irq => exact absurd rfl (hclr irq)
  | store w mask bits =>
    refine .same (l := []) ?_ (by simp) (by simp)
    ext1
    · exact vgicDistIsEnabled_congr _ (by rw [word_set, if_neg (Ne.symm hb.out.2.2)])
    · rfl
    · exact enabled_controllerOf fun i hi => isEnabled_set hi hb.out.2.1 _
    · rfl
  | @ctlrEnable data hdata =>
    rw [Action.inputs, if_pos hdata]
    exact refines_switch (vgicDistIsEnabled_vgicDistEnable _ _) fun i hi => isEnabled_vgicDistEnable _ hi
  | @ctlrDisable data hne hdata =>
    rw [Action.inputs, if_neg hne, if_pos hdata]
    exact refines_switch (vgicDistIsEnabled_vgicDistDisable _ _) fun i hi => isEnabled_vgicDistDisable _ hi
  | @ctlrOther data hne hne0 =>
    rw [Action.inputs, if_neg hne, if_neg hne0]
    exact .same (l := []) rfl (by simp) (by simp)

end Refines

/-! ### Runs -/

/-- The steps of a run after the registrations: no `ICPENDR`, interrupt numbers below the limit. -/
def Steady (env : Env φ) (s : Vmm φ) (op : Op φ) : Prop := BelowLimit env s op ∧ RunStep env op

instance (s : Vmm φ) (op : Op φ) : Decidable (Steady env s op) := inferInstanceAs (Decidable (_ ∧ _))

def Action.isRetire : Action φ → Bool
  | .retire _ _ => true
  | _ => false

section Runs

variable {s t u : Vmm φ} {op : Op φ} {a : Action φ}

lemma Steady.action (hop : Steady env u op) (ha : a ∈ opActions env u op) :
    a.Below irqLimit ∧ (∀ irq fn data, a ≠ .register irq fn data) ∧ ∀ irq, a ≠ .clrPending irq := by
  refine ⟨below_opActions hop.1 ha, ?_, fun irq h => not_clrPending hop.2.2 (h ▸ ha)⟩
  rintro irq fn data rfl
  obtain rfl := op_of_register ha
  exact hop.2.1.elim

lemma countP_inputs (g : GicVersion) (ha : a.isRetire = false) : (a.inputs g).countP Input.isRetire = 0 := by
  cases a with
  | retire => simp [Action.isRetire] at ha
  | disable irq =>
    rw [Action.inputs]
    split_ifs <;> rfl
  | ctlr data =>
    rw [Action.inputs]
    split_ifs <;> rfl
  | _ => rfl

/-- An operation that ends retires one list register if it is maintenance, and else none. -/
lemma Does.countP (hd : Does env s a t) (g : GicVersion) :
    (a.inputs g).countP Input.isRetire = if a.isRetire then 1 else 0 := by
  cases hd with
  | retire =>
    rw [Action.inputs, lrIndex_val]
    rfl
  | _ => exact countP_inputs g rfl

lemma countP_opActions (s : Vmm φ) (op : Op φ) :
    (opActions env s op).countP Action.isRetire = if op.isMaintenance then 1 else 0 := by
  cases op with
  | fault f =>
    cases f with
    | vmFault addr fsr =>
      refine List.countP_eq_zero.mpr fun a ha => ?_
      have hacc := isAccess_of_mem ha
      cases a <;> first | exact hacc.elim | simp [Action.isRetire]
    | _ => rfl
  | _ => rfl

variable (hstop : env.assertStops = true) (hinert : InertAcks env)

include hstop hinert

/-- The operations of a step do what their inputs do to the controller, one of them for a maintenance event. -/
lemma wp_opActions_refines (hw : u.vgic.Wf) (hI : PendingResident u) (hop : Steady env u op) :
    wp (forM (opActions env u op) (Action.run env))
      (fun _ t => t.vgic.Wf ∧ PendingResident t ∧ Refines env u t (opInputs env u op) ∧
        (opInputs env u op).countP Input.isRetire = if op.isMaintenance then 1 else 0) (fun _ _ => True) u := by
  have hfold : ∀ (l : List (Action φ)) (x : List (Input numListRegs Int) × Nat), l.foldl (fun x a =>
      (x.1 ++ a.inputs env.board.gic, x.2 + if a.isRetire then 1 else 0)) x =
      (x.1 ++ l.flatMap (Action.inputs env.board.gic), x.2 + l.countP Action.isRetire) := by
    intro l
    induction l with
    | nil => simp
    | cons a l ih =>
      intro x
      rw [List.foldl_cons, ih, List.flatMap_cons, List.countP_cons, List.append_assoc, Nat.add_assoc,
        Nat.add_comm (l.countP _)]
  have hloop := wp_forM (E := fun _ _ => True) (f := Action.run env) (l := opActions env u op)
    (g := fun (x : List (Input numListRegs Int) × Nat) a =>
      (x.1 ++ a.inputs env.board.gic, x.2 + if a.isRetire then 1 else 0))
    (I := fun x t => t.vgic.Wf ∧ PendingResident t ∧ Refines env u t x.1 ∧ x.1.countP Input.isRetire = x.2)
    (fun a ha x t ht => ?_) (x := ([], 0)) (s := u)
    ⟨hw, hI, .same (l := []) rfl (by simp) (by simp), rfl⟩
  · rw [hfold] at hloop
    simp only [List.nil_append, Nat.zero_add, countP_opActions] at hloop
    exact hloop
  · obtain ⟨hwt, hIt, hf, hcount⟩ := ht
    obtain ⟨hb, hreg, hclr⟩ := hop.action ha
    refine wp_mono (wp_does hstop hinert hwt a) (fun _ t' hd => ?_) (fun _ _ _ => trivial)
    refine ⟨hd.wf hwt, hIt.effect hb (hd.effect hwt (fun _ => id) hb.bits.quiet) hclr,
      hf.trans (hd.refines hwt hIt hb hreg hclr), ?_⟩
    rw [List.countP_append, hcount, hd.countP]

lemma refines_step (hw : u.vgic.Wf) (hI : PendingResident u) (hop : Steady env u op) (hrun : step env op u = .ok ⟨⟩ t) :
    t.vgic.Wf ∧ PendingResident t ∧ Refines env u t (opInputs env u op) ∧
      (opInputs env u op).countP Input.isRetire = if op.isMaintenance then 1 else 0 := by
  refine wp_ok (Q := fun _ t => t.vgic.Wf ∧ PendingResident t ∧ Refines env u t (opInputs env u op) ∧
    (opInputs env u op).countP Input.isRetire = if op.isMaintenance then 1 else 0)
    (step_wp (E := fun _ => True) hstop (fun _ _ => trivial) ?_) hrun
  refine wp_mono (wp_opActions_refines hstop hinert hw hI hop) (fun _ v ⟨hwv, hIv, hf, hcount⟩ w hframe => ?_)
    (fun _ _ _ => trivial)
  have hf' := hf.trans hframe.refines
  rw [List.append_nil] at hf'
  exact ⟨⟨hframe.vgic ▸ hwv, ⟨hframe.vgic ▸ hIv.range, hframe.vgic ▸ hIv.nodup, hframe.vgic ▸ hframe.dist ▸ hIv.pending⟩,
    hf', hcount⟩, trivial⟩

/-- What holds of the inputs of no step and is kept when those of one more are added holds of those of a run. -/
lemma refines_run {γ : Type} {allowed : Vmm φ → Op φ → Prop} {g : γ → Vmm φ → Op φ → Vmm φ → γ} {c x : γ}
    {P : γ → List (Input numListRegs Int) → Prop} (hs : s.vgic.Wf ∧ PendingResident s) (h0 : P c [])
    (hsteady : ∀ u op, allowed u op → Steady env u op)
    (hP : ∀ x l u op v, P x l → allowed u op →
      (opInputs env u op).countP Input.isRetire = (if op.isMaintenance then 1 else 0) →
      P (g x u op v) (l ++ opInputs env u op))
    (ht : ReachWith (fun v => v = s) allowed (step env) g c t x) : ∃ l, P x l ∧ Refines env s t l := by
  have hinv := ht.invariant (I := fun v x => v.vgic.Wf ∧ PendingResident v ∧ ∃ l, P x l ∧ Refines env s v l) ?_ ?_
  · exact hinv.2.2
  · rintro v rfl
    exact ⟨hs.1, hs.2, [], h0, .same (l := []) rfl (by simp) (by simp)⟩
  · intro v x op w _ hv hop hrun
    obtain ⟨hwv, hIv, l, hl, hf⟩ := hv
    obtain ⟨hww, hIw, hf', hcount⟩ := refines_step hstop hinert hwv hIv (hsteady v op hop) hrun
    exact ⟨hww, hIw, _, hP x l v op w hl hop hcount, hf.trans hf'⟩

end Runs

end Sel4cpVmm
