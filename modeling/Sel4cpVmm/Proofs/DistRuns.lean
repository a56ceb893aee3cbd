import Sel4cpVmm.Proofs.Reentrant
import Sel4cpVmm.Proofs.Residents

/-!
# The register map over a run

A property of the distributor's register map that the bitmap helpers, the plain stores and `CTLR` keep
holds in every reachable state, whatever the ack callbacks inject.
-/

namespace Sel4cpVmm

open StopProgram GicDistMap

variable {φ : Type} {env : Env φ}

/-- Every interrupt number that is registered satisfies `R`. -/
def RegistersOnly (R : Int → Prop) : Op φ → Prop
  | .registerIrq irq _ _ => 0 ≤ irq → R irq
  | _ => True

/-- The vGIC is well-formed and every interrupt registered or in flight satisfies `R`. -/
structure Vgic.InRange (R : Int → Prop) (v : Vgic φ) : Prop where
  wf : v.Wf
  tables : ∀ p, (v.deref p).virq = virqInvalid ∨ R (v.deref p).virq
  residents : ∀ h ∈ v.view.residents, R h.virq

/-- The changes to the bitmaps and to `CTLR` keep `P`, when the interrupts registered satisfy `R` and those of an
access are below the limit. Only the redistributor disables SGIs. -/
structure KeptByBanks (R : Int → Prop) (g : GicVersion) (P : GicDistMap → Prop) : Prop where
  setPending : ∀ d i b, R i → P d → P (setPending d i b vcpuId)
  enable : ∀ d i, 0 ≤ i ∧ i < irqLimit → P d → P (setEnable d i true vcpuId)
  disable : ∀ d i, numSgiVirqs ≤ i ∧ i < irqLimit → P d → P (setEnable d i false vcpuId)
  clearEnable : g = .v3 → ∀ d i, 0 ≤ i ∧ i < (numVcpuLocalVirqs : Int) → P d → P (setEnable d i false vcpuId)
  ctlr : ∀ d x, P d → P (d.set ctlr x)

/-- So do the plain stores. -/
structure KeptByDist (R : Int → Prop) (g : GicVersion) (P : GicDistMap → Prop) : Prop extends KeptByBanks R g P where
  store : ∀ d w x, IsPlainWord w → P d → P (d.set w x)

section InRange

variable {R : Int → Prop} {v v' : Vgic φ} {h : VirqHandle φ}

lemma Vgic.InRange.handle (hv : v.InRange R) {irq : Int} (hh : v.handle irq = some h) : R h.virq := by
  have hvalid := (hv.wf.virq_of_handle hh).2
  obtain ⟨p, rfl⟩ := Vgic.deref_of_handle hh
  exact (hv.tables p).resolve_left hvalid

lemma inRange_init : (Vgic.init : Vgic φ).InRange R where
  wf := wf_init
  tables p := by
    rw [deref_init]
    exact .inl rfl
  residents := by simp [residents_init]

lemma Registers.nonneg {p : VirqPtr} (hr : Registers v h p v') : 0 ≤ h.virq := by
  rcases hr.place with ⟨i, -, hi⟩ | ⟨i, -, hi⟩ <;> omega

lemma Registers.inRange {p : VirqPtr} (hr : Registers v h p v') (hv : v.InRange R) (hR : 0 ≤ h.virq → R h.virq) :
    v'.InRange R where
  wf := hr.wf hv.wf
  tables q := by
    rw [hr.deref]
    by_cases hq : q = p
    · rw [hq, Function.update_self]
      exact .inr (hR hr.nonneg)
    · rw [Function.update_of_ne hq]
      exact hv.tables q
  residents := by
    rw [hr.view hv.wf]
    exact hv.residents

end InRange

section Runs

variable (hstop : env.assertStops = true) {R : Int → Prop} {P : GicDistMap → Prop} (hP : KeptByBanks R env.board.gic P)

include hstop hP

lemma keeps_dist_vgicInjectIrq (irq : Int) :
    Keeps (fun s => s.vgic.InRange R ∧ P s.dist) (vgicInjectIrq env vcpuId irq) := by
  refine keeps_of_wp fun s hI => ?_
  refine wp_mono (wp_vgicInjectIrq hstop hI.1.wf irq) (fun b t h => ?_) (fun _ _ => id)
  cases h with
  | refused => exact hI
  | pending => exact hI
  | @accepted h _ hcan _ ha =>
    have hr := hI.1.handle hcan.handle
    refine ⟨⟨ha.wf, ha.deref ▸ hI.1.tables, ?_⟩, ?_⟩
    · intro b hb
      rw [ha.view, SlotQueue.residents_offer] at hb
      rcases Multiset.mem_cons.mp hb with rfl | hb
      · exact hr
      · exact hI.1.residents b hb
    · rw [ha.dist]
      exact hP.setPending _ _ _ hr hI.2

lemma keeps_dist_virqAck (h : VirqHandle φ) :
    Keeps (fun s => s.vgic.InRange R ∧ P s.dist) (virqAck env vcpuId h) :=
  within_virqAck (fun _ _ => within_modify fun _ => id) (fun _ => within_modify fun _ => id)
    (fun _ => within_modify fun _ => id) (fun _ _ _ i _ => keeps_dist_vgicInjectIrq hstop hP i)

lemma keeps_dist_vgicMaintenanceBody (idx err : Int) :
    Keeps (fun s => s.vgic.InRange R ∧ P s.dist) (vgicMaintenanceBody env idx err) := by
  refine keeps_vgicMaintenanceBody (J := fun _ s => s.vgic.InRange R ∧ P s.dist) hstop
    (fun k h s hI hslot => ?_) (fun k h => keeps_dist_virqAck hstop hP h) (fun _ _ hJ => hJ.1.wf)
    (fun k t u hJ hr => ?_) idx err
  · have hres := SlotQueue.residents_free hslot
    have hderef : (freed s k h).vgic.deref = s.vgic.deref := Vgic.deref_setLr
    refine ⟨⟨wf_freed hI.1.wf k h, hderef ▸ hI.1.tables, fun b hb => hI.1.residents b ?_⟩, ?_⟩
    · rw [hres]
      rw [view_freed] at hb
      exact Multiset.mem_cons_of_mem hb
    · exact hP.setPending _ _ _ (hI.1.residents h (by simp [hres])) hI.2
  · refine ⟨⟨hr.wf, hr.deref ▸ hJ.1.tables, fun b hb => hJ.1.residents b ?_⟩, hr.dist ▸ hJ.2⟩
    rw [hr.view] at hb
    exact SlotQueue.mem_of_mem_load hb

/-- The numbers of an operation are those that `KeptByDist` allows. -/
def Action.Allowed (R : Int → Prop) : Action φ → Prop
  | .register irq _ _ => 0 ≤ irq → R irq
  | .clrPending irq => R irq
  | .enable irq => 0 ≤ irq ∧ irq < irqLimit
  | .disable irq => 0 ≤ irq ∧ irq < irqLimit
  | .store w _ _ => IsPlainWord w
  | _ => True

lemma keeps_dist {a : Action φ} (ha : a.Allowed R)
    (hstore : ∀ w mask bits, a = .store w mask bits → ∀ d, P d → P (d.set w (d.word w &&& ~~~mask ||| bits)))
    (hclear : ∀ irq, a = .clearEnable irq → env.board.gic = .v3 ∧ 0 ≤ irq ∧ irq < (numVcpuLocalVirqs : Int)) :
    Keeps (fun s => s.vgic.InRange R ∧ P s.dist) (a.run env) := by
  have hlog : ∀ e : Event φ, Keeps (fun s => s.vgic.InRange R ∧ P s.dist) (logEvent e) := fun _ => within_modify fun _ => id
  have hdist : ∀ f : GicDistMap → GicDistMap, (∀ d, P d → P (f d)) →
      Keeps (fun s => s.vgic.InRange R ∧ P s.dist) (modifyDist f : M φ Unit) :=
    fun f hf => within_modify fun s hI => ⟨hI.1, hf s.dist hI.2⟩
  cases a with
  | register irq ackFn ackData =>
    refine within_bind (keeps_of_wp fun s hI => ?_) fun _ => within_pure _
    refine wp_mono (wp_vgicRegisterIrq hstop) (fun b s' h => ?_) (fun _ _ _ => trivial)
    rcases h with ⟨-, rfl⟩ | ⟨-, p, v, hr, rfl⟩
    · exact hI
    · exact ⟨hr.inRange hI.1 ha, hI.2⟩
  | inject irq => exact within_bind (keeps_dist_vgicInjectIrq hstop hP irq) fun _ => within_pure _
  | notification irq =>
    exact within_bind (hlog _) fun _ => within_bind (keeps_dist_vgicInjectIrq hstop hP irq) fun _ => within_pure _
  | vppiEvent irq =>
    refine within_bind (hlog _) fun _ => within_bind ?_ fun _ => within_pure _
    exact within_handleVppiEvent (keeps_dist_vgicInjectIrq hstop hP) hlog irq
  | retire idx err => exact within_bind (keeps_dist_vgicMaintenanceBody hstop hP idx err) fun _ => within_pure _
  | enable irq =>
    refine keeps_of_wp fun s hI => ?_
    have henabled : (enabled s irq).vgic.InRange R ∧ P (enabled s irq).dist := ⟨hI.1, hP.enable _ _ ha hI.2⟩
    refine wp_vgicDistEnableIrq hstop (fun _ => trivial) (fun _ => henabled) (fun h _ _ => ?_)
    exact wp_mono (keeps_dist_virqAck hstop hP h (enabled s irq)) (fun _ _ ht => ht henabled) (fun _ _ => id)
  | disable irq =>
    change Keeps _ (vgicDistDisableIrq vcpuId irq)
    unfold vgicDistDisableIrq
    split_ifs with hirq
    · exact hdist _ fun d => hP.disable d _ ⟨hirq, ha.2⟩
    · exact within_pure _
  | clearEnable irq =>
    obtain ⟨hg, hirq⟩ := hclear irq rfl
    exact hdist _ fun d => hP.clearEnable hg d _ hirq
  | clrPending irq => exact hdist _ fun d => hP.setPending d _ _ ha
  | store w mask bits => exact hdist (fun d => d.set w (d.word w &&& ~~~mask ||| bits)) (hstore _ _ _ rfl)
  | ctlr data =>
    have henable : ∀ d, P d → P (vgicDistEnable env.board.gic d) := by
      intro d hd
      cases env.board.gic <;> exact hP.ctlr _ _ hd
    have hdisable : ∀ d, P d → P (vgicDistDisable env.board.gic d) := by
      intro d hd
      cases env.board.gic <;> exact hP.ctlr _ _ hd
    exact within_ite (hdist _ henable) (within_ite (hdist _ hdisable) (within_pure _))
  | fail => exact within_cAssert _

omit hstop hP in
lemma allowed_opActions (hR : ∀ i, 0 ≤ i ∧ i < irqLimit → R i) {s : Vmm φ} {op : Op φ} (hreg : RegistersOnly R op)
    (hbelow : AccessBelow env s op) {a : Action φ} (ha : a ∈ opActions env s op) : a.Allowed R := by
  cases op with
  | registerIrq irq ackFn ackData => obtain rfl := List.mem_singleton.mp ha; exact hreg
  | guest regs => simp [opActions] at ha
  | fault f =>
    cases f with
    | vmFault addr fsr =>
      have hb : a.Bits irqLimit := (below_accessActions (by decide) hbelow ha).bits
      have hacc := isAccess_of_mem ha
      cases a with
      | register irq ackFn ackData => exact hacc.elim
      | clrPending irq => exact hR irq hb
      | enable irq => exact hb
      | disable irq => exact hb
      | store w mask bits => exact hb
      | _ => trivial
    | vgicMaintenance idx err => obtain rfl := List.mem_singleton.mp ha; trivial
    | vppiEvent irq => obtain rfl := List.mem_singleton.mp ha; trivial
    | _ => simp [opActions] at ha
  | _ => obtain rfl := List.mem_singleton.mp ha; trivial

/-- What holds of the register map after the reset and is kept by the changes of allowed steps holds in every state
reached when the interrupts registered satisfy `R` and the accesses resolve to numbers below the limit. -/
theorem reachable_banks {allowed : Vmm φ → Op φ → Prop} (hR : ∀ i, 0 ≤ i ∧ i < irqLimit → R i)
    (hreset : P (vgicDistReset env.board.gic ⟨fun _ => 0⟩))
    (hallowed : ∀ s op, allowed s op → RegistersOnly R op ∧ AccessBelow env s op)
    (hstore : ∀ s op, allowed s op → ∀ w mask bits, .store w mask bits ∈ opActions env s op →
      ∀ d, P d → P (d.set w (d.word w &&& ~~~mask ||| bits)))
    {s : Vmm φ} (hs : Reachable env allowed s) : s.vgic.InRange R ∧ P s.dist := by
  refine reachable_invariant (I := fun s => s.vgic.InRange R ∧ P s.dist) hstop (fun tcb => ⟨inRange_init, hreset⟩)
    (fun s t hf hI => ⟨hf.vgic ▸ hI.1, hf.dist ▸ hI.2⟩) (fun s op hI hop => ?_) hs
  obtain ⟨hreg, hbelow⟩ := hallowed s op hop
  refine wp_mono (within_forM (fun a ha => keeps_dist hstop hP (allowed_opActions hR hreg hbelow ha) ?_ ?_) s)
    (fun _ _ ht => ht hI) (fun _ _ => id)
  · rintro w mask bits rfl
    exact hstore s op hop w mask bits ha
  · rintro irq rfl
    exact clearEnable_mem ha

omit hP in
/-- What the plain stores keep as well holds whatever is stored. -/
theorem reachable_dist (hP : KeptByDist R env.board.gic P) (hR : ∀ i, 0 ≤ i ∧ i < irqLimit → R i)
    (hreset : P (vgicDistReset env.board.gic ⟨fun _ => 0⟩))
    {s : Vmm φ} (hs : Reachable env (fun s op => RegistersOnly R op ∧ AccessBelow env s op) s) :
    s.vgic.InRange R ∧ P s.dist := by
  refine reachable_banks hstop hP.toKeptByBanks hR hreset (fun _ _ h => h) (fun s op hop w mask bits ha d => ?_) hs
  have hplain : (Action.store w mask bits : Action φ).Allowed R := allowed_opActions hR hop.1 hop.2 ha
  exact hP.store d _ _ hplain

end Runs

end Sel4cpVmm
