import Sel4cpVmm.Properties.Conservation
import Sel4cpVmm.Properties.ControllerRefinement

/-!
# The kernel's list registers

What the list registers hold that the kernel has been asked to load and the guest has ended. `lr_shadow` is at every
idle point what they hold, whatever the ack callbacks do.
-/

namespace Sel4cpVmm

open StopProgram

variable {φ : Type} {env : Env φ}

/-- The kernel's list registers by their index, and whether every load so far found the one it names free. -/
structure ListRegs where
  lr : Int → Option Int
  clean : Bool

namespace ListRegs

def empty : ListRegs := ⟨fun _ => none, true⟩

/-- The guest ends the interrupt of a list register. -/
def ended (κ : ListRegs) (idx : Int) : ListRegs := { κ with lr := Function.update κ.lr idx none }

def observe (κ : ListRegs) : Event φ → ListRegs
  | .vcpuInjectIrq virq _ idx _ => ⟨Function.update κ.lr idx (some virq), κ.clean && (κ.lr idx).isNone⟩
  | _ => κ

/-- The interrupt of a list register has ended when the kernel delivers its maintenance event. -/
def deliver (κ : ListRegs) : Op φ → ListRegs
  | .fault (.vgicMaintenance idx _) => κ.ended (cInt idx)
  | .retire idx => κ.ended idx
  | _ => κ

def next (κ : ListRegs) (s : Vmm φ) (op : Op φ) (t : Vmm φ) : ListRegs :=
  (newEvents s t).foldl observe (κ.deliver op)

end ListRegs

/-- The interrupt that `lr_shadow` has for a list register. -/
def lrShadow (s : Vmm φ) (idx : Int) : Option Int :=
  (lrIndex idx).bind fun k => (s.vgic.view.slot k).map VirqHandle.virq

/-- The shadow is what the list registers hold, and it was empty at every load if they were free. -/
structure Mirrored (κ : ListRegs) (s : Vmm φ) : Prop where
  lr : κ.lr = lrShadow s
  clean : κ.clean = true ↔ LoadsIntoEmpty s.log

/-- The same of what the list registers have become since the log was `base`. -/
def MirroredSince (base : List (Event φ)) (κ : ListRegs) (s : Vmm φ) : Prop :=
  ∃ l, s.log = base ++ l ∧ Mirrored (l.foldl ListRegs.observe κ) s

section Mirrored

variable {κ : ListRegs} {s t : Vmm φ} {base l : List (Event φ)} {k : Fin numListRegs} {h : VirqHandle φ} {irq : Int}

lemma val_of_lrIndex {idx : Int} (h : lrIndex idx = some k) : (k.val : Int) = idx := by
  unfold lrIndex at h
  split_ifs at h with hidx
  rw [← Option.some.inj h]
  exact Int.toNat_of_nonneg hidx.1

lemma lrShadow_val (s : Vmm φ) (k : Fin numListRegs) :
    lrShadow s (k.val : Int) = (s.vgic.view.slot k).map VirqHandle.virq := by
  rw [lrShadow, lrIndex_val, Option.bind_some]

/-- A list register changes in the shadow. -/
lemma lrShadow_update {o : Option (VirqHandle φ)} (h : t.vgic.view.slot = Function.update s.vgic.view.slot k o) :
    lrShadow t = Function.update (lrShadow s) (k.val : Int) (o.map VirqHandle.virq) := by
  funext idx
  by_cases hidx : idx = k.val
  · rw [hidx, lrShadow_val, h, Function.update_self, Function.update_self]
  · rw [Function.update_of_ne hidx, lrShadow, lrShadow]
    cases hj : lrIndex idx with
    | none => rfl
    | some j =>
      have hjk : j ≠ k := fun he => hidx (he ▸ (val_of_lrIndex hj).symm)
      rw [Option.bind_some, Option.bind_some, h, Function.update_of_ne hjk]

lemma lrShadow_congr (h : t.vgic.view.slot = s.vgic.view.slot) : lrShadow t = lrShadow s := by
  funext idx
  rw [lrShadow, lrShadow, h]

lemma foldl_observe_other (h : ∀ e ∈ l, e.isOther = true) : l.foldl ListRegs.observe κ = κ := by
  induction l with
  | nil => rfl
  | cons e l ih =>
    have he : κ.observe e = κ := by
      cases e with
      | vcpuInjectIrq virq g idx shadow => exact absurd (h _ List.mem_cons_self) Bool.false_ne_true
      | _ => rfl
    rw [List.foldl_cons, he]
    exact ih fun e' he' => h e' (by simp [he'])

lemma Mirrored.other (hM : Mirrored κ s) (hslot : t.vgic.view.slot = s.vgic.view.slot) (hlog : t.log = s.log ++ l)
    (hl : ∀ e ∈ l, e.isOther = true) : Mirrored κ t := by
  refine ⟨hM.lr.trans (lrShadow_congr hslot).symm, ?_⟩
  rw [hlog, loadsIntoEmpty_append, hM.clean]
  simp [loadsIntoEmpty_other hl]

/-- The load of list register `k`, into whatever it holds. -/
lemma Mirrored.loaded (hM : Mirrored κ s) {g : Nat} {v : Int} (hv : v = virqInvalid ↔ s.vgic.view.slot k = none)
    (hslot : t.vgic.view.slot = Function.update s.vgic.view.slot k (some h))
    (hlog : t.log = s.log ++ [.vcpuInjectIrq h.virq g k v]) :
    Mirrored (κ.observe (.vcpuInjectIrq h.virq g k v : Event φ)) t := by
  refine ⟨?_, ?_⟩
  · rw [lrShadow_update hslot, ← hM.lr]
    rfl
  · have hfree : (κ.lr k).isNone = true ↔ v = virqInvalid := by
      rw [hM.lr, lrShadow_val, hv]
      simp
    have hload : LoadsIntoEmpty [(.vcpuInjectIrq h.virq g k v : Event φ)] ↔ v = virqInvalid := by
      refine ⟨fun hempty => hempty _ _ _ _ List.mem_cons_self, fun heq virq g' idx shadow' hmem => ?_⟩
      obtain ⟨-, -, -, rfl⟩ := Event.vcpuInjectIrq.inj (List.mem_singleton.mp hmem)
      exact heq
    rw [ListRegs.observe, Bool.and_eq_true, hM.clean, hfree, hlog, loadsIntoEmpty_append, hload]

lemma MirroredSince.other (hM : MirroredSince base κ s) (hslot : t.vgic.view.slot = s.vgic.view.slot)
    (hlog : t.log = s.log ++ l) (hl : ∀ e ∈ l, e.isOther = true) : MirroredSince base κ t := by
  obtain ⟨l₀, hl₀, hM⟩ := hM
  refine ⟨l₀ ++ l, by rw [hlog, hl₀, List.append_assoc], ?_⟩
  rw [List.foldl_append, foldl_observe_other hl]
  exact hM.other hslot hlog hl

lemma MirroredSince.same (hM : MirroredSince base κ s) (hslot : t.vgic.view.slot = s.vgic.view.slot)
    (hlog : t.log = s.log) : MirroredSince base κ t :=
  hM.other hslot (l := []) (by simpa using hlog) (by simp)

lemma MirroredSince.logged (hM : MirroredSince base κ s) {e : Event φ} (he : e.isOther = true) :
    MirroredSince base κ { s with log := s.log ++ [e] } :=
  hM.other rfl rfl (by simpa using he)

lemma MirroredSince.loaded (hM : MirroredSince base κ s) {g : Nat} {v : Int}
    (hv : v = virqInvalid ↔ s.vgic.view.slot k = none)
    (hslot : t.vgic.view.slot = Function.update s.vgic.view.slot k (some h))
    (hlog : t.log = s.log ++ [.vcpuInjectIrq h.virq g k v]) : MirroredSince base κ t := by
  obtain ⟨l, hl, hM⟩ := hM
  refine ⟨l ++ [.vcpuInjectIrq h.virq g k v], by rw [hlog, hl, List.append_assoc], ?_⟩
  rw [List.foldl_append]
  exact hM.loaded hv hslot hlog

lemma MirroredSince.accepted (hM : MirroredSince base κ s) (ha : Accepts env s h t) : MirroredSince base κ t := by
  obtain ⟨l, hl, hM⟩ := hM
  have hM' : MirroredSince base κ { s with log := s.log ++ [.accepted h.virq] } := by
    refine ⟨l ++ [.accepted h.virq], by rw [hl, List.append_assoc], ?_⟩
    rw [List.foldl_append]
    refine ⟨hM.lr, ?_⟩
    rw [loadsIntoEmpty_append]
    exact hM.clean.trans (by simp [LoadsIntoEmpty])
  have hlog := ha.log
  rw [← List.singleton_append, ← List.append_assoc] at hlog
  cases hf : s.vgic.view.firstFree with
  | none =>
    refine hM'.same ?_ ?_
    · rw [ha.view, SlotQueue.offer_of_none hf]
      rfl
    · rw [hlog, offerEvents, hf]
      simp
  | some k =>
    have hne : (s.vgic.view.enqueue h).waiting ≠ [] := by simp [SlotQueue.enqueue]
    obtain ⟨a, hhead⟩ := Option.ne_none_iff_exists'.mp (mt List.head?_eq_none_iff.mp hne)
    refine hM'.loaded (k := k) (h := a) (g := env.board.gic.group) (v := virqInvalid) ?_ ?_ ?_
    · simpa using SlotQueue.slot_of_firstFree hf
    · rw [ha.view, SlotQueue.offer_of_some hf, SlotQueue.slot_load hhead]
      rfl
    · rw [hlog, offerEvents, hf, Option.bind_some, hhead]
      rfl

lemma MirroredSince.injected {b : Bool} (hM : MirroredSince base κ s) (hi : Injected env s irq b t) :
    MirroredSince base κ t := by
  cases hi with
  | refused => exact hM
  | pending => exact hM
  | accepted _ _ ha => exact hM.accepted ha

lemma MirroredSince.refilled (hM : MirroredSince base κ s) (hr : Refills env s k t) : MirroredSince base κ t := by
  have hlog := hr.log
  unfold refillEvents at hlog
  cases hhead : s.vgic.view.waiting.head? with
  | none =>
    refine hM.same ?_ ?_
    · rw [hr.view, SlotQueue.load_of_nil hhead]
    · simpa [hhead] using hlog
  | some a =>
    rw [hhead] at hlog
    refine hM.loaded (k := k) (h := a) (g := env.board.gic.group) (v := (s.vgic.lr k).virq) ?_ ?_ hlog
    · have hnone : (s.vgic.view.slot k).isNone = decide ((s.vgic.lr k).virq = virqInvalid) := present_isNone
      rw [← Option.isNone_iff_eq_none, hnone, decide_eq_true_iff]
    · rw [hr.view, SlotQueue.slot_load hhead]

lemma Mirrored.freed (hM : Mirrored κ s) (h : VirqHandle φ) :
    MirroredSince s.log (κ.ended k) (freed s k h) := by
  refine ⟨[], (List.append_nil _).symm, ?_, hM.clean⟩
  have hslot : (Sel4cpVmm.freed s k h).vgic.view.slot = Function.update s.vgic.view.slot k none := by
    rw [view_freed]
    rfl
  rw [lrShadow_update hslot, ← hM.lr]
  rfl

lemma Mirrored.since (hM : Mirrored κ s) : MirroredSince s.log κ s := ⟨[], (List.append_nil _).symm, hM⟩

lemma MirroredSince.next {op : Op φ} (hM : MirroredSince s.log (κ.deliver op) t) : Mirrored (κ.next s op t) t := by
  obtain ⟨l, hl, hM⟩ := hM
  rw [ListRegs.next, newEvents_eq hl]
  exact hM

lemma MirroredSince.frame (hM : MirroredSince base κ s) (hf : Frame s t) : MirroredSince base κ t := by
  obtain ⟨l, hl, hret⟩ := hf.log
  exact hM.other (by rw [hf.vgic]) hl fun e he => other_of_isReturn (hret e he)

end Mirrored

/-! ### Operations -/

section Operations

variable (hstop : env.assertStops = true) {base : List (Event φ)} {κ : ListRegs}

include hstop

lemma mirrored_vgicInjectIrq (irq : Int) :
    Keeps (fun s => s.vgic.Wf ∧ MirroredSince base κ s) (vgicInjectIrq env vcpuId irq) :=
  keeps_of_wp fun _ hI => wp_mono (wp_vgicInjectIrq hstop hI.1 irq) (fun _ _ h => ⟨h.wf hI.1, hI.2.injected h⟩)
    (fun _ _ _ => trivial)

omit hstop in
lemma mirrored_logEvent (e : Event φ) (he : e.isOther = true) :
    Keeps (fun s => s.vgic.Wf ∧ MirroredSince base κ s) (logEvent e) :=
  within_modify fun _ hI => ⟨hI.1, hI.2.logged he⟩

lemma mirrored_virqAck (h : VirqHandle φ) :
    Keeps (fun s => s.vgic.Wf ∧ MirroredSince base κ s) (virqAck env vcpuId h) :=
  within_virqAck (fun _ _ => mirrored_logEvent _ rfl) (fun _ => mirrored_logEvent _ rfl)
    (fun _ => mirrored_logEvent _ rfl) (fun _ _ _ i _ => mirrored_vgicInjectIrq hstop i)

/-- Every operation but maintenance. -/
lemma mirrored_action (a : Action φ) (ha : ∀ idx err, a ≠ .retire idx err) :
    Keeps (fun s => s.vgic.Wf ∧ MirroredSince base κ s) (a.run env) := by
  have hinject := @mirrored_vgicInjectIrq _ env hstop base κ
  have hbanks : ∀ f : GicDistMap → GicDistMap,
      Keeps (fun s => s.vgic.Wf ∧ MirroredSince base κ s) (modifyDist f : M φ Unit) :=
    fun f => within_modify fun _ hI => ⟨hI.1, hI.2.same rfl rfl⟩
  cases a with
  | register irq ackFn ackData =>
    intro s
    rw [Action.run, wp_bind]
    refine wp_mono (wp_vgicRegisterIrq hstop) (fun b t h hI => ?_) (fun _ _ _ => trivial)
    rcases h with ⟨-, rfl⟩ | ⟨-, p, v, hr, rfl⟩
    · exact hI
    · exact ⟨hr.wf hI.1, hI.2.same (by rw [hr.view hI.1]) rfl⟩
  | inject irq => exact within_bind (hinject irq) fun _ => within_pure _
  | notification irq =>
    exact within_bind (mirrored_logEvent _ rfl) fun _ => within_bind (hinject irq) fun _ => within_pure _
  | vppiEvent irq =>
    refine within_bind (mirrored_logEvent _ rfl) fun _ => within_bind ?_ fun _ => within_pure _
    exact within_handleVppiEvent_events hinject irq (mirrored_logEvent _ rfl) (mirrored_logEvent _ rfl)
  | retire idx err => exact absurd rfl (ha idx err)
  | enable irq =>
    refine keeps_of_wp fun s hI => ?_
    have henabled : (enabled s irq).vgic.Wf ∧ MirroredSince base κ (enabled s irq) := ⟨hI.1, hI.2.same rfl rfl⟩
    refine wp_vgicDistEnableIrq hstop (fun _ => trivial) (fun _ => henabled) (fun h _ _ => ?_)
    exact wp_mono (mirrored_virqAck hstop h (enabled s irq)) (fun _ _ ht => ht henabled) (fun _ _ => id)
  | disable irq => exact within_ite (hbanks _) (within_pure _)
  | clearEnable irq => exact hbanks fun d => setEnable d irq false vcpuId
  | clrPending irq => exact hbanks fun d => setPending d irq false vcpuId
  | store w mask bits => exact hbanks fun d => d.set w (d.word w &&& ~~~mask ||| bits)
  | ctlr data => exact within_ite (hbanks _) (within_ite (hbanks _) (within_pure _))
  | fail => exact within_cAssert _

/-- The list register is free in the kernel before it is in the shadow, which maintenance makes up for. -/
lemma mirrored_maintenance {s : Vmm φ} (hw : s.vgic.Wf) (hM : Mirrored κ s) (idx err : Int) :
    wp (vgicMaintenanceBody env idx err) (fun _ t => t.vgic.Wf ∧ MirroredSince s.log (κ.ended idx) t)
      (fun _ _ => True) s := by
  by_cases hidx : 0 ≤ idx ∧ idx < numListRegs
  · obtain ⟨n, rfl⟩ := Int.eq_ofNat_of_zero_le hidx.1
    have hn : n < numListRegs := by omega
    change wp (vgicMaintenanceBody env ((⟨n, hn⟩ : Fin numListRegs) : Int) err) _ _ s
    rw [wp_vgicMaintenanceBody hstop]
    refine ⟨fun _ => trivial, fun h hslot => ?_⟩
    have hfreed : MirroredSince s.log (κ.ended n) (freed s ⟨n, hn⟩ h) := hM.freed h
    have hack := @mirrored_virqAck _ env hstop s.log (κ.ended n) h (freed s ⟨n, hn⟩ h)
    refine wp_mono hack (fun _ t ht => ?_) (fun _ _ => id)
    obtain ⟨hwt, hMt⟩ := ht ⟨wf_freed hw _ h, hfreed⟩
    exact wp_mono (wp_refill hstop hwt fun _ _ => trivial) (fun _ u hr => ⟨hr.1.wf, hMt.refilled hr.1⟩) (fun _ _ => id)
  · exact wp_vgicMaintenanceBody_range hstop hidx trivial

lemma mirrored_step {s : Vmm φ} (hw : s.vgic.Wf) (hM : Mirrored κ s) (op : Op φ) :
    wp (step env op) (fun _ t => t.vgic.Wf ∧ Mirrored (κ.next s op t) t) (fun _ _ => True) s := by
  have hactions : wp (forM (opActions env s op) (Action.run env))
      (fun _ t => t.vgic.Wf ∧ MirroredSince s.log (κ.deliver op) t) (fun _ _ => True) s := by
    have hretire : ∀ idx err, wp (forM [.retire idx err] (Action.run env))
        (fun _ t => t.vgic.Wf ∧ MirroredSince s.log (κ.ended idx) t) (fun _ _ => True) s := by
      intro idx err
      simp only [List.forM_cons, List.forM_nil, Action.run, wp_bind, wp_pure]
      exact mirrored_maintenance hstop hw hM idx err
    have hother : op.isMaintenance = false → wp (forM (opActions env s op) (Action.run env))
        (fun _ t => t.vgic.Wf ∧ MirroredSince s.log κ t) (fun _ _ => True) s := by
      intro hop
      refine wp_mono (within_forM (fun a ha => mirrored_action hstop a ?_) s) (fun _ t ht => ht ⟨hw, hM.since⟩)
        (fun _ _ => id)
      rintro idx err rfl
      exact absurd (isMaintenance_of_retire ha) (by simp [hop])
    cases op with
    | retire idx => exact hretire idx 0
    | fault f =>
      cases f with
      | vgicMaintenance idx err => exact hretire (cInt idx) err
      | _ => exact hother rfl
    | _ => exact hother rfl
  refine wp_mono (step_wp (Q := fun u => u.vgic.Wf ∧ MirroredSince s.log (κ.deliver op) u) (E := fun _ => True) hstop
    (fun _ _ => trivial) (wp_mono hactions (fun _ t ht u hu => ⟨⟨hu.vgic ▸ ht.1, ht.2.frame hu⟩, trivial⟩) (fun _ _ => id)))
    (fun _ t ht => ⟨ht.1, ht.2.next⟩) (fun _ _ => id)

end Operations

/-! ### Runs -/

lemma mirrored_init (tcb : UserContext) : Mirrored .empty (vgicInit env tcb) := by
  refine ⟨?_, by simp [ListRegs.empty, LoadsIntoEmpty, vgicInit]⟩
  have hview : (vgicInit env tcb).vgic.view = ⟨fun _ => none, []⟩ := view_init
  funext idx
  rw [lrShadow, hview]
  cases lrIndex idx <;> rfl

/-- The states of runs, with the kernel's list registers. -/
abbrev ReachWithLrs (env : Env φ) : Vmm φ → ListRegs → Prop :=
  ReachWith (fun s => ∃ tcb, s = vgicInit env tcb) (fun _ _ => True) (step env) ListRegs.next .empty

/-- In every run, whatever the ack callbacks inject, `lr_shadow` is what the kernel's list registers hold. Each of them
was free whenever it was loaded if and only if its shadow was empty then, which it is if no callback injects. -/
theorem list_registers_mirrored (hstop : env.assertStops = true) {s : Vmm φ} {κ : ListRegs} (hs : ReachWithLrs env s κ) :
    κ.lr = lrShadow s ∧ (κ.clean = true ↔ LoadsIntoEmpty s.log) ∧ (InertAcks env → κ.clean = true) := by
  have hM : s.vgic.Wf ∧ Mirrored κ s := by
    refine ReachWith.invariant (I := fun s κ => s.vgic.Wf ∧ Mirrored κ s) ?_ ?_ hs
    · rintro t ⟨tcb, rfl⟩
      exact ⟨wf_init, mirrored_init tcb⟩
    · intro t x op t' _ hI _ hrun
      have hstep := wp_ok (mirrored_step hstop hI.1 hI.2 op) hrun
      exact hstep
  refine ⟨hM.2.lr, hM.2.clean, fun hinert => hM.2.clean.mpr ?_⟩
  exact (conserved_reachable hstop hinert hs.reach).2.empty

/-- Five interrupts are outstanding, and the first of them is retired. -/
theorem list_registers_mirrored_five : ∃ (s : Vmm VmmAckFn) (κ : ListRegs), ReachWithLrs (vmmEnv .qemuArmVirtHyp) s κ ∧
    κ.lr 0 = some 37 ∧ κ.lr 1 = some 34 ∧ κ.clean = true := by
  obtain ⟨s, hs, hp⟩ := exists_reachable (vmmEnv .qemuArmVirtHyp) (fun _ _ => True)
    (fun s => decide (lrShadow s 0 = some 37 ∧ lrShadow s 1 = some 34))
    (fiveOutstanding (vmmEnv .qemuArmVirtHyp) ++ [.retire 0]) (by decide +kernel) (by decide +kernel)
  obtain ⟨h0, h1⟩ := of_decide_eq_true hp
  obtain ⟨κ, hκ⟩ := hs.exists_with
  obtain ⟨hlr, -, hclean⟩ := list_registers_mirrored rfl hκ
  exact ⟨s, κ, hκ, hlr ▸ h0, hlr ▸ h1, hclean (vmmEnv_inert _ (by decide))⟩

end Sel4cpVmm
