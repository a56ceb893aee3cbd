import Sel4cpVmm.Properties.Conservation
import Sel4cpVmm.Properties.QueueCapacity
import Sel4cpVmm.Proofs.Reentrant

/-!
# As many list registers as interrupts

With at most four registered interrupts there is a list register for each of them. The queue is then never used,
even if ack callbacks inject: every accepted interrupt is loaded at once.
-/

namespace Sel4cpVmm

open StopProgram

variable {φ : Type} {env : Env φ}

/-- Nothing waits, and what was accepted has been loaded, in this order and into free list registers. -/
structure Settled (nums : List Int) (s : Vmm φ) : Prop where
  wf : s.vgic.Wf
  fits : Fits nums s
  conserved : Conserved s
  waiting : s.vgic.view.waiting = []

section Settled

variable {nums : List Int} {s s' : Vmm φ} {irq : Int} {a : Action φ}

lemma Settled.same (hI : Settled nums s) (hv : s'.vgic = s.vgic)
    (hp : ∀ i, isPending s.dist i vcpuId = true → isPending s'.dist i vcpuId = true) {l : List (Event φ)}
    (hlog : s'.log = s.log ++ l) (hfail : ∀ i, .enqueueFailed i ∉ l) (hother : ∀ e ∈ l, e.isOther = true) :
    Settled nums s' :=
  ⟨hv ▸ hI.wf, hI.fits.same hv hp (hlog ▸ noFailure_append hI.fits.log hfail),
    hI.conserved.other (by rw [hv]) hlog hother, hv ▸ hI.waiting⟩

lemma Settled.logged (hI : Settled nums s) (e : Event φ) (hfail : ∀ i, .enqueueFailed i ≠ e)
    (hother : e.isOther = true) : Settled nums { s with log := s.log ++ [e] } :=
  hI.same rfl (fun _ => id) rfl (by simpa using hfail) (by simpa using hother)

/-- A list register is free for an interrupt that is not in flight. -/
lemma Settled.exists_free (hI : Settled nums s) (hlen : nums.length ≤ numListRegs)
    (hp : isPending s.dist irq vcpuId = false) (hmem : irq ∈ nums) : ∃ k, s.vgic.view.firstFree = some k := by
  refine Option.isSome_iff_exists.mp (Option.ne_none_iff_isSome.mp fun hnone => ?_)
  have hcard := SlotQueue.card_residents_full (SlotQueue.firstFree_eq_none.mp hnone)
  have hlt := hI.fits.length_lt (hI.fits.not_resident hp) hmem
  omega

variable (hnums : ∀ i ∈ nums, 0 ≤ i ∧ i < irqLimit) (hlen : nums.length ≤ numListRegs)

include hnums

/-- What an operation does to the bitmaps alone. -/
lemma Settled.banks (hI : Settled nums s) {d : GicDistMap}
    (hp : ∀ i, 0 ≤ i ∧ i < irqLimit → isPending d i vcpuId = isPending s.dist i vcpuId) :
    Settled nums { s with dist := d } := by
  refine ⟨hI.wf, ⟨hI.fits.conserving, hI.fits.tables, hI.fits.residents, hI.fits.nodup, fun h hh => ?_, hI.fits.log⟩,
    hI.conserved.same rfl rfl, hI.waiting⟩
  rw [hp _ (hnums _ (hI.fits.residents h hh))]
  exact hI.fits.pending h hh

lemma Settled.freed (hI : Settled nums s) {k : Fin numListRegs} {h : VirqHandle φ}
    (hslot : s.vgic.view.slot k = some h) : Settled nums (freed s k h) := by
  have hwait : (Sel4cpVmm.freed s k h).vgic.view.waiting = [] := by rw [waiting_freed, hI.waiting]
  have hretire : (Sel4cpVmm.freed s k h).vgic.view = s.vgic.view.retire k := by
    rw [view_freed, SlotQueue.retire, SlotQueue.load]
    simp [SlotQueue.free, hI.waiting]
  have htables : ∀ i a, (Sel4cpVmm.freed s k h).vgic.handle i = some a → a.virq ∈ nums := fun i a ha =>
    hI.fits.tables i a ((Vgic.handle_congr Vgic.deref_setLr).symm.trans ha)
  refine ⟨wf_freed hI.wf k h, ?_, ⟨fun hne => absurd hwait hne, ?_, hI.conserved.empty⟩, hwait⟩
  · exact hI.fits.effect (a := .retire k 0) hnums (.retired k h hslot hretire rfl) (by simp) htables hI.fits.log
  · have horder := hI.conserved.order
    rw [hI.waiting] at horder
    rw [hwait]
    exact horder

include hlen

lemma Settled.injected (hI : Settled nums s) {b : Bool} (h : Injected env s irq b s') : Settled nums s' := by
  have hw : s'.vgic.Wf := h.wf hI.wf
  have hfits : Fits nums s' := by
    refine hI.fits.effect (a := .inject irq) hnums (h.effect hI.wf id) (by simp) (fun j a ha => ?_)
      (hI.fits.log.injected h)
    exact hI.fits.tables j a (Vgic.handle_congr h.deref ▸ ha)
  refine ⟨hw, hfits, hI.conserved.injected h, ?_⟩
  cases h with
  | refused => exact hI.waiting
  | pending => exact hI.waiting
  | @accepted h _ hcan hp ha =>
    have hvirq := (hI.wf.virq_of_handle hcan.handle).1
    obtain ⟨k, hk⟩ := hI.exists_free hlen hp (hvirq ▸ hI.fits.tables irq h hcan.handle)
    rw [ha.view, SlotQueue.offer_of_some hk]
    simp [SlotQueue.load, SlotQueue.enqueue, hI.waiting]

/-! ### Every operation -/

variable (hstop : env.assertStops = true)

include hstop

lemma settled_vgicInjectIrq (irq : Int) : Keeps (Settled nums) (vgicInjectIrq env vcpuId irq) :=
  keeps_of_wp fun _ hI => wp_mono (wp_vgicInjectIrq hstop hI.wf irq) (fun _ _ h => hI.injected hnums hlen h)
    (fun _ _ _ => trivial)

omit hstop hlen hnums in
lemma settled_logEvent (e : Event φ) (hfail : ∀ i, .enqueueFailed i ≠ e) (hother : e.isOther = true) :
    Keeps (Settled nums) (logEvent e) :=
  within_modify fun _ hI => hI.logged e hfail hother

lemma settled_virqAck (h : VirqHandle φ) : Keeps (Settled nums) (virqAck env vcpuId h) :=
  within_virqAck (fun _ _ => settled_logEvent _ (by simp) rfl) (fun _ => settled_logEvent _ (by simp) rfl)
    (fun _ => settled_logEvent _ (by simp) rfl) (fun _ _ _ i _ => settled_vgicInjectIrq hnums hlen hstop i)

omit hnums hlen hstop in
/-- There is nothing to refill a list register with. -/
lemma Settled.refilled (hI : Settled nums s) {k : Fin numListRegs} (hr : Refills env s k s') :
    Settled nums s' ∧ s'.vgic.view = s.vgic.view := by
  have hview : s'.vgic.view = s.vgic.view := by
    rw [hr.view, SlotQueue.load]
    simp [hI.waiting]
  have hlog : s'.log = s.log := by
    rw [hr.log, refillEvents, hI.waiting]
    simp
  refine ⟨⟨hr.wf, ⟨hview ▸ hI.fits.conserving, fun i a ha => ?_, hview ▸ hI.fits.residents, hview ▸ hI.fits.nodup,
    hview ▸ hr.dist ▸ hI.fits.pending, hlog ▸ hI.fits.log⟩, hI.conserved.same hview hlog, hview ▸ hI.waiting⟩, hview⟩
  exact hI.fits.tables i a (Vgic.handle_congr hr.deref ▸ ha)

lemma settled_vgicMaintenanceBody (idx err : Int) : Keeps (Settled nums) (vgicMaintenanceBody env idx err) :=
  keeps_vgicMaintenanceBody (J := fun _ => Settled nums) hstop (fun _ _ _ hI hslot => hI.freed hnums hslot)
    (fun _ h => settled_virqAck hnums hlen hstop h) (fun _ _ hJ => hJ.wf) (fun _ _ _ hJ hr => (hJ.refilled hr).1) idx err

lemma settled_action {t : Vmm φ} {op : Op φ} (ha : a ∈ opActions env t op) (hop : Regular env t op) :
    Keeps (Settled nums) (a.run env) := by
  have hquiet := quiet_of_not_disablesBeyond (a := a) ha hop.2
  have hbanks : ∀ f : GicDistMap → GicDistMap,
      (∀ d i, 0 ≤ i ∧ i < irqLimit → isPending (f d) i vcpuId = isPending d i vcpuId) →
      Keeps (Settled nums) (modifyDist f : M φ Unit) :=
    fun f hf => within_modify fun s hI => hI.banks hnums (hf s.dist)
  have hinject : ∀ irq, Keeps (Settled nums) (vgicInjectIrq env vcpuId irq) := settled_vgicInjectIrq hnums hlen hstop
  cases a with
  | register irq ackFn ackData =>
    obtain rfl := op_of_register ha
    exact hop.1.1.elim
  | inject irq => exact within_bind (hinject irq) fun _ => within_pure _
  | notification irq =>
    exact within_bind (settled_logEvent _ (by simp) rfl) fun _ => within_bind (hinject irq) fun _ => within_pure _
  | vppiEvent irq =>
    refine within_bind (settled_logEvent _ (by simp) rfl) fun _ => within_bind ?_ fun _ => within_pure _
    exact within_handleVppiEvent_events hinject irq (settled_logEvent _ (by simp) rfl) (settled_logEvent _ (by simp) rfl)
  | retire idx err => exact within_bind (settled_vgicMaintenanceBody hnums hlen hstop idx err) fun _ => within_pure _
  | enable irq =>
    refine keeps_of_wp fun s hI => ?_
    have henabled : Settled nums (enabled s irq) :=
      hI.same (l := []) rfl (fun _ => isPending_setEnable_true) (by simp [enabled]) (by simp) (by simp)
    refine wp_vgicDistEnableIrq hstop (fun _ => trivial) (fun _ => henabled) (fun h _ _ => ?_)
    exact wp_mono (settled_virqAck hnums hlen hstop h (enabled s irq)) (fun _ _ ht => ht henabled) (fun _ _ => id)
  | disable irq =>
    have hq := hquiet (by simp)
    change Keeps _ (vgicDistDisableIrq vcpuId irq)
    unfold vgicDistDisableIrq
    split_ifs with hirq
    · exact hbanks _ fun d i hi => hq d false i hi
    · exact within_pure _
  | clearEnable irq => exact hbanks _ fun d i hi => hquiet (by simp) d false i hi
  | clrPending irq => exact absurd ha (not_clrPending hop.1.2)
  | store w mask bits =>
    have hplain : IsPlainWord w := hquiet (by simp)
    exact hbanks (fun d => d.set w (d.word w &&& ~~~mask ||| bits)) fun d i hi => isPending_set hi hplain.out.1 _
  | ctlr data =>
    have henable := hbanks (vgicDistEnable env.board.gic) fun d i hi => isPending_vgicDistEnable _ hi
    have hdisable := hbanks (vgicDistDisable env.board.gic) fun d i hi => isPending_vgicDistDisable _ hi
    exact within_ite henable (within_ite hdisable (within_pure _))
  | fail => exact within_cAssert _

end Settled

/-! ### Runs -/

section Runs

variable {nums : List Int} {l : List (VirqHandle φ)} {tcb : UserContext} {s₀ s t : Vmm φ}

lemma Settled.frame (hI : Settled nums s) (hf : Frame s t) : Settled nums t := by
  obtain ⟨r, hr, hret⟩ := hf.log
  refine hI.same hf.vgic (fun i hi => hf.dist ▸ hi) hr (fun i hmem => ?_) fun e he => other_of_isReturn (hret e he)
  exact absurd (hret _ hmem) (by simp [Event.isReturn])

lemma settled_registered (hreg : registerAll env l (vgicInit env tcb) = .ok l s) (hl : ∀ h ∈ l, 0 ≤ h.virq) :
    Settled (l.map VirqHandle.virq) s := by
  obtain ⟨hw, hfits⟩ := fits_registered hreg hl
  obtain ⟨v, rfl, -, -, hview⟩ := state_of_registered hreg hl
  have hwait : v.view.waiting = [] := by rw [hview, view_init]
  have horder : loadedIrqs ([] : List (Event φ)) ++ v.view.waiting.map VirqHandle.virq =
      acceptedIrqs ([] : List (Event φ)) := by
    rw [hwait]
    rfl
  exact ⟨hw, hfits, ⟨fun hne => absurd hwait hne, horder, fun _ _ _ _ hmem => by simp [vgicInit] at hmem⟩, hwait⟩

lemma settled_reach (hstop : env.assertStops = true) (hnums : ∀ i ∈ nums, 0 ≤ i ∧ i < irqLimit)
    (hlen : nums.length ≤ numListRegs) (h₀ : Settled nums s₀)
    (hs : Reach (fun t => t = s₀) (Regular env) (step env) s) : Settled nums s := by
  refine (reach_outcome (I := Settled nums) (E := fun _ => True) hstop ?_ (fun s t hf hI => hI.frame hf)
    (fun _ _ => trivial) (fun s op hI hop => ?_) hs).1
  · rintro t rfl
    exact h₀
  · exact wp_mono (within_forM (fun a ha => settled_action hnums hlen hstop ha hop) s) (fun _ _ ht => ht hI)
      (fun _ _ => id)

end Runs

instance (env : Env φ) (s : Vmm φ) (op : Op φ) : Decidable (DisablesBeyond env s op) :=
  match op with
  | .fault (.vmFault _ _) => inferInstanceAs (Decidable (_ ∧ ∃ i ∈ accessIrqs _ _ _ _, _))
  | .fault (.unknownSyscall _) | .fault .userException | .fault (.vgicMaintenance _ _) => .isFalse id
  | .fault (.vcpuFault _) | .fault (.vppiEvent _) => .isFalse id
  | .registerIrq _ _ _ | .injectIrq _ | .notification _ | .guest _ | .retire _ => .isFalse id

instance (env : Env φ) (s : Vmm φ) (op : Op φ) : Decidable (Regular env s op) := inferInstanceAs (Decidable (_ ∧ ¬_))

/-- The interrupts of `odroidc2`. -/
def odroidHandles : List (VirqHandle VmmAckFn) :=
  [⟨27, some .vppiEventAck, null⟩, ⟨0, some .sgiAck, null⟩, ⟨1, some .sgiAck, null⟩, ⟨225, some .serialAck, null⟩]

/-- The guest enables the serial interrupt and the distributor, and the interrupt arrives and is retired. -/
def odroidSerial (env : Env VmmAckFn) : List (Op VmmAckFn) :=
  guestStore env 0x11c 2 ++ guestStore env 0x000 1 ++ [.notification 225, .retire 0]

end Sel4cpVmm
