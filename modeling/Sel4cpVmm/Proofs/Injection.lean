import Sel4cpVmm.Proofs.View

/-!
# What an injection does

`vgic_dist_set_pending_irq` refuses the interrupt, finds it pending already, or sets its pending bit
and offers its handle to the list registers. Every use of it in the other files is by this trichotomy.
-/

namespace Sel4cpVmm

open StopProgram

variable {φ : Type} {env : Env φ}

/-! ### Lookup -/

namespace Vgic

variable (v : Vgic φ) (irq : Int)

/-- The pointer `virq_find_irq_data` returns for a number that is not negative. -/
def find : Option VirqPtr :=
  if irq < numVcpuLocalVirqs then
    if h : 0 ≤ irq ∧ irq.toNat < numVcpuLocalVirqs then some (.sgiPpi vcpuId ⟨irq.toNat, toNat_lt h⟩) else none
  else virqFindSpiIrqData v irq

def handle : Option (VirqHandle φ) := (v.find irq).bind fun p => (v.deref p).present

variable {v irq}

lemma Wf.virq_of_find (hw : v.Wf) {p : VirqPtr} (h : v.find irq = some p) :
    (v.deref p).virq = virqInvalid ∨ (v.deref p).virq = irq := by
  unfold find at h
  split_ifs at h with hlt hpos
  · obtain rfl := Option.some.inj h
    rcases hw.sgiPpi ⟨irq.toNat, hpos.2⟩ with h' | h'
    · exact .inl h'
    · exact .inr (by rw [h']; exact Int.toNat_of_nonneg hpos.1)
  · obtain ⟨i, hi, rfl⟩ := Option.map_eq_some_iff.mp h
    have hspec := List.find?_some hi
    simp only [Bool.and_eq_true, decide_eq_true_eq] at hspec
    exact .inr hspec.2

lemma Wf.virq_of_handle (hw : v.Wf) {h : VirqHandle φ} (hh : v.handle irq = some h) :
    h.virq = irq ∧ h.virq ≠ virqInvalid := by
  obtain ⟨p, hp, hpres⟩ := Option.bind_eq_some_iff.mp hh
  obtain ⟨rfl, hv⟩ := present_eq_some.mp hpres
  rcases hw.virq_of_find hp with h' | h'
  · exact absurd h' hv
  · exact ⟨h', hv⟩

lemma find_of_neg (h : irq < 0) : v.find irq = none := by
  rw [find, if_pos (Int.lt_trans h (by decide)), dif_neg fun hin => Int.not_le.mpr h hin.1]

lemma nonneg_of_find {p : VirqPtr} (h : v.find irq = some p) : 0 ≤ irq := by
  by_contra hneg
  rw [find_of_neg (Int.not_le.mp hneg)] at h
  exact absurd h (by simp)

lemma handle_isSome_of_find (hspi : (numVcpuLocalVirqs : Int) ≤ irq) (h : (v.find irq).isSome) :
    (v.handle irq).isSome := by
  obtain ⟨p, hp⟩ := Option.isSome_iff_exists.mp h
  have hfind := hp
  unfold find at hfind
  rw [if_neg (Int.not_lt.mpr hspi)] at hfind
  obtain ⟨i, hi, rfl⟩ := Option.map_eq_some_iff.mp hfind
  have hspec := List.find?_some hi
  simp only [Bool.and_eq_true, decide_eq_true_eq] at hspec
  have hpres : (v.deref (.spi i)).present = some (v.deref (.spi i)) := present_eq_some.mpr ⟨rfl, hspec.1⟩
  rw [handle, hp, Option.bind_some, hpres]
  rfl

lemma find_isSome_of_local (hlocal : 0 ≤ irq ∧ irq < (numVcpuLocalVirqs : Int)) : (v.find irq).isSome := by
  have hin : 0 ≤ irq ∧ irq.toNat < numVcpuLocalVirqs := ⟨hlocal.1, by omega⟩
  rw [find, if_pos hlocal.2, dif_pos hin]
  rfl

lemma find_congr {v' : Vgic φ} (h : v'.deref = v.deref) : v'.find irq = v.find irq := by
  have hs : ∀ i : Fin numSlotsSpiVirq, v'.vspis[i] = v.vspis[i] := fun i => congrFun h (.spi i)
  simp only [find, virqFindSpiIrqData, hs]

lemma handle_congr {v' : Vgic φ} (h : v'.deref = v.deref) : v'.handle irq = v.handle irq := by
  simp only [handle, find_congr h, h]

end Vgic

section Specs

variable {s : Vmm φ} {vcpu : VcpuId} {E : Stop → Vmm φ → Prop}

lemma wp_virqFindIrqData_of_nonneg {irq : Int} (h0 : 0 ≤ irq) {Q : Option VirqPtr → Vmm φ → Prop} :
    wp (virqFindIrqData env vcpu irq) Q E s ↔ Q (s.vgic.find irq) s := by
  rw [vcpu_eq vcpu]
  unfold virqFindIrqData virqGetSgiPpi Vgic.find
  by_cases hlt : irq < (numVcpuLocalVirqs : Int)
  · have hin : 0 ≤ irq ∧ irq.toNat < numVcpuLocalVirqs := ⟨h0, by omega⟩
    rw [if_pos hlt, if_pos hlt, decide_eq_true h0, decide_eq_true hlt, dif_pos hin, wp_bind, wp_bind, Bool.and_self,
      wp_cAssert_true, dif_pos hin, wp_pure, wp_pure]
  · rw [if_neg hlt, if_neg hlt, wp_bind, wp_get, wp_pure]

lemma wp_virqFindIrqData (hstop : env.assertStops = true) (irq : Int) {Q : Option VirqPtr → Vmm φ → Prop} :
    wp (virqFindIrqData env vcpu irq) Q E s ↔
      (0 ≤ irq → Q (s.vgic.find irq) s) ∧ (irq < 0 → E .assertFailed s) := by
  by_cases h0 : 0 ≤ irq
  · rw [wp_virqFindIrqData_of_nonneg h0]
    exact ⟨fun h => ⟨fun _ => h, fun hneg => absurd h0 (Int.not_le.mpr hneg)⟩, fun h => h.1 h0⟩
  · have hneg := Int.not_le.mp h0
    have hlt : irq < (numVcpuLocalVirqs : Int) := Int.lt_trans hneg (by decide)
    unfold virqFindIrqData virqGetSgiPpi
    rw [if_pos hlt, wp_bind, wp_bind, wp_cAssert_stops hstop, decide_eq_false h0, Bool.false_and]
    exact ⟨fun h => ⟨fun h => absurd h h0, fun _ => h.2 rfl⟩, fun h => ⟨fun h => absurd h (by simp), fun _ => h.2 hneg⟩⟩

/-- What the queue does whatever its indices are. -/
lemma wp_vgicIrqEnqueue_cases (p : VirqPtr) {Q : Int → Vmm φ → Prop} :
    wp (vgicIrqEnqueue vcpu p) Q E s ↔
      (irqQueueNext s.vgic.queue.tail = s.vgic.queue.head → Q (-1) s) ∧
      (irqQueueNext s.vgic.queue.tail ≠ s.vgic.queue.head →
        (s.vgic.queue.tail < maxIrqQueueLen → Q 0 { s with vgic := s.vgic.setQueue (s.vgic.queue.push p) }) ∧
          (¬s.vgic.queue.tail < maxIrqQueueLen → E .outOfBounds s)) := by
  rw [vcpu_eq vcpu]
  have hset : ∀ h : s.vgic.queue.tail < maxIrqQueueLen, s.vgic.queue.irqs.set s.vgic.queue.tail (some p) h =
      s.vgic.queue.irqs.setIfInBounds s.vgic.queue.tail (some p) := by
    intro h
    ext i hi
    simp [Vector.getElem_set, Vector.getElem_setIfInBounds]
  have hpush : ∀ h : s.vgic.queue.tail < maxIrqQueueLen, s.vgic.queue.push p =
      { s.vgic.queue with
        irqs := s.vgic.queue.irqs.set s.vgic.queue.tail (some p) h
        tail := irqQueueNext s.vgic.queue.tail } := by
    intro h
    rw [hset, IrqQueue.push]
  unfold vgicIrqEnqueue setIrqQueue
  simp only [wp_bind, wp_get, wp_ite, wp_dite, wp_modifyVgic, wp_pure]
  refine and_congr Iff.rfl (imp_congr_right fun _ => and_congr_left' (forall_congr' fun ht => ?_))
  rw [hpush ht]
  rfl

lemma wp_vgicIrqEnqueue (hw : s.vgic.queue.Wf) (p : VirqPtr) {Q : Int → Vmm φ → Prop} :
    wp (vgicIrqEnqueue vcpu p) Q E s ↔
      (irqQueueNext s.vgic.queue.tail = s.vgic.queue.head → Q (-1) s) ∧
      (irqQueueNext s.vgic.queue.tail ≠ s.vgic.queue.head →
        Q 0 { s with vgic := s.vgic.setQueue (s.vgic.queue.push p) }) := by
  rw [wp_vgicIrqEnqueue_cases]
  simp only [hw.tail_lt, forall_true_left, not_true_eq_false, false_imp_iff, and_true]

lemma wp_vgicIrqDequeue_cases {Q : Option VirqPtr → Vmm φ → Prop} :
    wp (vgicIrqDequeue vcpu) Q E s ↔
      (s.vgic.queue.head ≠ s.vgic.queue.tail →
        (s.vgic.queue.head < maxIrqQueueLen →
          Q (s.vgic.queue.cell s.vgic.queue.head) { s with vgic := s.vgic.setQueue s.vgic.queue.pop }) ∧
        (¬s.vgic.queue.head < maxIrqQueueLen → E .outOfBounds s)) ∧
      (s.vgic.queue.head = s.vgic.queue.tail → Q none s) := by
  rw [vcpu_eq vcpu]
  have hcell : ∀ h : s.vgic.queue.head < maxIrqQueueLen,
      s.vgic.queue.cell s.vgic.queue.head = s.vgic.queue.irqs[s.vgic.queue.head] := fun h => dif_pos h
  unfold vgicIrqDequeue setIrqQueue
  simp only [wp_bind, wp_get, wp_ite, wp_dite, wp_modifyVgic, wp_pure]
  refine and_congr (imp_congr_right fun _ => and_congr_left' (forall_congr' fun hh => ?_)) (imp_congr_left not_not)
  rw [hcell hh]
  rfl

lemma wp_vgicIrqDequeue (hw : s.vgic.queue.Wf) {Q : Option VirqPtr → Vmm φ → Prop} :
    wp (vgicIrqDequeue vcpu) Q E s ↔
      (s.vgic.queue.head ≠ s.vgic.queue.tail →
        Q (s.vgic.queue.cell s.vgic.queue.head) { s with vgic := s.vgic.setQueue s.vgic.queue.pop }) ∧
      (s.vgic.queue.head = s.vgic.queue.tail → Q none s) := by
  rw [wp_vgicIrqDequeue_cases]
  simp only [hw.head_lt, forall_true_left, not_true_eq_false, false_imp_iff, and_true]

lemma wp_vgicFindEmptyListReg {Q : Int → Vmm φ → Prop} :
    wp (vgicFindEmptyListReg vcpu) Q E s ↔
      (∀ k, s.vgic.view.firstFree = some k → Q (k.val : Int) s) ∧ (s.vgic.view.firstFree = none → Q (-1) s) := by
  rw [vcpu_eq vcpu]
  have hfree : s.vgic.view.firstFree =
      (List.finRange numListRegs).find? fun i =>
        decide ((s.vgic.getVgicVcpu vcpuId).lrShadow[i].virq = virqInvalid) := by
    simp [SlotQueue.firstFree, Vgic.view, Vgic.lr]
  rw [hfree]
  unfold vgicFindEmptyListReg
  simp only [wp_bind, wp_get]
  cases (List.finRange numListRegs).find? fun i =>
    decide ((s.vgic.getVgicVcpu vcpuId).lrShadow[i].virq = virqInvalid) <;> simp

/-- The kernel call that loads handle `h` into list register `k`. -/
def loadEvent (s : Vmm φ) (group : Nat) (k : Fin numListRegs) (h : VirqHandle φ) : Event φ :=
  .vcpuInjectIrq h.virq group k (s.vgic.lr k).virq

lemma lrVirq_eq (v : Vgic φ) (k : Fin numListRegs) : v.lrVirq vcpu k = (v.lr k).virq := by
  rw [vcpu_eq vcpu]
  have hk : 0 ≤ (k : Int) ∧ (k : Int).toNat < numListRegs := ⟨by omega, by simp⟩
  unfold Vgic.lrVirq
  rw [dif_pos hk]
  rfl

lemma wp_vgicVcpuLoadListReg (hstop : env.assertStops = true) (k : Fin numListRegs) (group : Nat) (p : VirqPtr)
    {Q : Bool → Vmm φ → Prop}
    (hQ : Q true { s with
      vgic := s.vgic.setLr k (s.vgic.deref p)
      log := s.log ++ [loadEvent s group k (s.vgic.deref p)] })
    (hE : ¬KernelAccepts env → E .assertFailed { s with
      log := s.log ++ [loadEvent s group k (s.vgic.deref p)] }) :
    wp (vgicVcpuLoadListReg env vcpu k group p) Q E s := by
  have hk0 : 0 ≤ (k : Int) := by omega
  have hkn : (k : Int) < numListRegs := by have := k.isLt; omega
  have hin : 0 ≤ (k : Int) ∧ (k : Int).toNat < numListRegs := ⟨hk0, by simp⟩
  have hrange : (decide (0 ≤ (k : Int)) && decide ((k : Int) < (numListRegs : Int))) = true := by
    rw [decide_eq_true hk0, decide_eq_true hkn]
    rfl
  rw [vcpu_eq vcpu]
  unfold vgicVcpuLoadListReg vcpuInjectIrq
  rw [wp_bind, hrange, wp_cAssert_true]
  simp only [wp_bind, wp_get, wp_logEvent, wp_pure, wp_cAssert_stops hstop, wp_ite, wp_dite, wp_modifyVgic, lrVirq_eq,
    decide_eq_true_eq, decide_eq_false_iff_not]
  refine ⟨fun herr => ⟨fun hne => absurd herr hne, fun _ => ⟨fun _ => hQ, fun h => absurd hin h⟩⟩, fun herr => ?_⟩
  exact hE fun hk => herr (hk.vcpuInjectIrq _ _ _ _)

end Specs

/-! ### The trichotomy -/

section Inject

/-- The interrupt is registered with `h` and enabled, and so is the distributor. -/
structure CanInject (env : Env φ) (s : Vmm φ) (irq : Int) (h : VirqHandle φ) : Prop where
  handle : s.vgic.handle irq = some h
  dist : vgicDistIsEnabled env.board.gic s.dist = true
  irq : isEnabled s.dist irq vcpuId = true

/-- The kernel calls of an offer: none when every list register is taken. -/
def offerEvents (env : Env φ) (v : Vgic φ) (h : VirqHandle φ) : List (Event φ) :=
  (v.view.firstFree.bind fun k => (v.view.enqueue h).waiting.head?.map fun a =>
    Event.vcpuInjectIrq a.virq env.board.gic.group k virqInvalid).toList

/-- The handle `h` of an interrupt that was not pending is offered to the list registers. -/
structure Accepts (env : Env φ) (s : Vmm φ) (h : VirqHandle φ) (s' : Vmm φ) : Prop where
  view : s'.vgic.view = s.vgic.view.offer h
  wf : s'.vgic.Wf
  deref : s'.vgic.deref = s.vgic.deref
  dist : s'.dist = setPending s.dist h.virq true vcpuId
  log : s'.log = s.log ++ .accepted h.virq :: offerEvents env s.vgic h
  redist : s'.redist = s.redist
  wzr : s'.wzr = s.wzr
  tcb : s'.tcb = s.tcb
  room : s.vgic.view.waiting.length < maxIrqQueueLen - 1

/-- How an injection from `s` ends. -/
inductive Injected (env : Env φ) (s : Vmm φ) (irq : Int) : Bool → Vmm φ → Prop
  | refused : (s.vgic.find irq).isSome → (∀ h, ¬CanInject env s irq h) → Injected env s irq false s
  | pending {h : VirqHandle φ} : CanInject env s irq h → isPending s.dist irq vcpuId = true →
      Injected env s irq true s
  | accepted {h : VirqHandle φ} {s' : Vmm φ} : CanInject env s irq h → isPending s.dist irq vcpuId = false →
      Accepts env s h s' → Injected env s irq true s'

/-- How an injection from `s` stops the VMM. -/
inductive InjectStops (env : Env φ) (s : Vmm φ) (irq : Int) : Stop → Vmm φ → Prop
  | negative : irq < 0 → InjectStops env s irq .assertFailed s
  | noHandle : 0 ≤ irq → s.vgic.find irq = none → InjectStops env s irq .nullDeref s
  | full {h : VirqHandle φ} : CanInject env s irq h → isPending s.dist irq vcpuId = false →
      s.vgic.view.waiting.length = maxIrqQueueLen - 1 →
      InjectStops env s irq .assertFailed
        { s with dist := setPending s.dist irq true vcpuId, log := s.log ++ [.accepted irq, .enqueueFailed irq] }
  | rejected {h : VirqHandle φ} {s' : Vmm φ} : CanInject env s irq h → ¬KernelAccepts env →
      InjectStops env s irq .assertFailed s'

variable {s : Vmm φ} {vcpu : VcpuId} {irq : Int}

/-- The last part of an injection: the head of the queue is loaded into a free list register. -/
def offerHead (env : Env φ) : M φ Bool := do
  let idx ← vgicFindEmptyListReg vcpuId
  if idx < 0 then
    return true
  else
    let virq ← vgicIrqDequeue vcpuId
    match virq with
    | none => throw .nullDeref
    | some p =>
      let s ← get
      cAssert env (decide ((s.vgic.deref p).virq ≠ virqInvalid))
      vgicVcpuLoadListReg env vcpuId idx env.board.gic.group p

/-- The part of an injection after the handle `data` at `ptr` is found enabled and not pending. -/
def acceptIrq (env : Env φ) (ptr : VirqPtr) (data : VirqHandle φ) : M φ Bool := do
  logEvent (.accepted data.virq)
  modifyDist fun d => setPending d data.virq true vcpuId
  let err ← vgicIrqEnqueue vcpuId ptr
  if err ≠ 0 then
    logEvent (.enqueueFailed data.virq)
    cAssert env false
    return false
  else
    offerHead env

/-- An injection that finds the handle at `p` is refused, finds the interrupt pending or accepts it. -/
lemma wp_setPending_of_find {p : VirqPtr} (hf : s.vgic.find irq = some p) {Q : Bool → Vmm φ → Prop}
    {E : Stop → Vmm φ → Prop} (hrefused : (∀ h, ¬CanInject env s irq h) → Q false s)
    (hpending : CanInject env s irq (s.vgic.deref p) → isPending s.dist (s.vgic.deref p).virq vcpuId = true → Q true s)
    (haccept : CanInject env s irq (s.vgic.deref p) → isPending s.dist (s.vgic.deref p).virq vcpuId = false →
      wp (acceptIrq env p (s.vgic.deref p)) Q E s) :
    wp (vgicDistSetPendingIrq env vcpu irq) Q E s := by
  have hhandle : s.vgic.handle irq = (s.vgic.deref p).present := by simp [Vgic.handle, hf]
  rw [vcpu_eq vcpu]
  unfold vgicDistSetPendingIrq
  rw [wp_bind, wp_virqFindIrqData_of_nonneg (Vgic.nonneg_of_find hf), hf]
  simp only [wp_bind, wp_get]
  rw [wp_ite]
  refine ⟨fun hno => hrefused fun h hcan => ?_, fun hyes => ?_⟩
  · obtain ⟨-, hv⟩ := present_eq_some.mp (hhandle ▸ hcan.handle)
    rcases hno with h' | h' | h'
    · exact hv h'
    · exact h' hcan.dist
    · exact h' hcan.irq
  · simp only [not_or, not_not] at hyes
    obtain ⟨hv, hdist, hirq⟩ := hyes
    have hcan : CanInject env s irq (s.vgic.deref p) := ⟨hhandle.trans (present_eq_some.mpr ⟨rfl, hv⟩), hdist, hirq⟩
    rw [wp_ite]
    refine ⟨hpending hcan, fun hidle => ?_⟩
    have haccept' := haccept hcan (Bool.eq_false_of_not_eq_true hidle)
    exact haccept'

section Accept

variable {p : VirqPtr} (hw : s.vgic.Wf) (hp : (s.vgic.deref p).virq ≠ virqInvalid)
  (hroom : irqQueueNext s.vgic.queue.tail ≠ s.vgic.queue.head)

/-- The pending bit is set and the handle at `p` put into the queue. -/
def queued (s : Vmm φ) (p : VirqPtr) : Vmm φ :=
  { s with
    vgic := s.vgic.setQueue (s.vgic.queue.push p)
    dist := setPending s.dist (s.vgic.deref p).virq true vcpuId
    log := s.log ++ [.accepted (s.vgic.deref p).virq] }

@[simp] lemma queue_queued : (queued s p).vgic.queue = s.vgic.queue.push p := Vgic.queue_setQueue

@[simp] lemma deref_queued : (queued s p).vgic.deref = s.vgic.deref := Vgic.deref_setQueue

@[simp] lemma lr_queued (k : Fin numListRegs) : (queued s p).vgic.lr k = s.vgic.lr k := Vgic.lr_setQueue

include hw hroom

lemma Vgic.Wf.room : s.vgic.view.waiting.length < maxIrqQueueLen - 1 := by
  have hne : s.vgic.queue.live.length ≠ maxIrqQueueLen - 1 := fun h => hroom ((IrqQueue.full_iff hw.queue).mpr h)
  have hle := hw.length_waiting_le
  rw [hw.length_waiting] at hle ⊢
  omega

lemma view_queued : (queued s p).vgic.view = s.vgic.view.enqueue (s.vgic.deref p) := Vgic.view_push hw.queue hroom p

include hp

lemma wf_queued : (queued s p).vgic.Wf := hw.push hroom hp

lemma accepts_queued (hfree : s.vgic.view.firstFree = none) : Accepts env s (s.vgic.deref p) (queued s p) where
  view := by rw [view_queued hw hroom, SlotQueue.offer, hfree]
  wf := hw.push hroom hp
  deref := Vgic.deref_setQueue
  dist := rfl
  log := by simp [queued, offerEvents, hfree]
  redist := rfl
  wzr := rfl
  tcb := rfl
  room := hw.room hroom

lemma accepts_loaded {k : Fin numListRegs} (hfree : s.vgic.view.firstFree = some k) {q : VirqPtr}
    (hne : (queued s p).vgic.queue.head ≠ (queued s p).vgic.queue.tail)
    (hq : (queued s p).vgic.queue.cell (queued s p).vgic.queue.head = some q)
    (hwait : (queued s p).vgic.view.waiting = s.vgic.deref q ::
      ((queued s p).vgic.setQueue (queued s p).vgic.queue.pop).view.waiting) :
    Accepts env s (s.vgic.deref p)
      { queued s p with
        vgic := ((queued s p).vgic.setQueue (queued s p).vgic.queue.pop).setLr k (s.vgic.deref q)
        log := (queued s p).log ++ [loadEvent s env.board.gic.group k (s.vgic.deref q)] } where
  view := by
    have hload := (wf_queued hw hp hroom).view_load hne hq k
    rw [deref_queued, view_queued hw hroom] at hload
    simpa [SlotQueue.offer, hfree] using hload
  wf := ((wf_queued hw hp hroom).pop hne).setLr
  deref := by simp
  dist := rfl
  log := by
    have hlr : (s.vgic.lr k).virq = virqInvalid := by
      have hslot := SlotQueue.slot_of_firstFree hfree
      simpa [Vgic.view, ← Option.isNone_iff_eq_none] using hslot
    rw [view_queued hw hroom] at hwait
    simp [queued, offerEvents, hfree, hwait, loadEvent, hlr]
  redist := rfl
  wzr := rfl
  tcb := rfl
  room := hw.room hroom

lemma wp_offerHead (hstop : env.assertStops = true) {Q : Bool → Vmm φ → Prop} {E : Stop → Vmm φ → Prop}
    (hQ : ∀ s', Accepts env s (s.vgic.deref p) s' → Q true s')
    (hrejected : ¬KernelAccepts env → ∀ t, E .assertFailed t) : wp (offerHead env) Q E (queued s p) := by
  have hw' := wf_queued hw hp hroom
  have hview : (queued s p).vgic.view = s.vgic.view.enqueue (s.vgic.deref p) := view_queued hw hroom
  unfold offerHead
  rw [wp_bind, wp_vgicFindEmptyListReg, show (queued s p).vgic.view.firstFree = s.vgic.view.firstFree by rw [hview]; rfl]
  refine ⟨fun k hfree => ?_, fun hfree => ?_⟩
  · have hknn : ¬((k.val : Int) < 0) := by omega
    have hne : (queued s p).vgic.queue.head ≠ (queued s p).vgic.queue.tail := by
      intro h
      have hnil := hw'.waiting_eq_nil.mpr h
      rw [hview] at hnil
      simp [SlotQueue.enqueue] at hnil
    obtain ⟨q, hq, hv, hwait⟩ := hw'.head hne
    rw [deref_queued] at hv hwait
    rw [if_neg hknn, wp_bind, wp_vgicIrqDequeue hw'.queue]
    refine ⟨fun _ => ?_, fun h => absurd h hne⟩
    rw [hq]
    simp only [wp_bind, wp_get]
    rw [decide_eq_true (by simpa using hv), wp_cAssert_true]
    refine wp_vgicVcpuLoadListReg hstop k _ _ ?_ fun hk => hrejected hk _
    have haccepts := hQ _ (accepts_loaded hw hp hroom hfree hne hq hwait)
    simpa [loadEvent] using haccepts
  · rw [if_pos (by decide), wp_pure]
    exact hQ _ (accepts_queued hw hp hroom hfree)

end Accept

lemma wp_acceptIrq (hstop : env.assertStops = true) (hw : s.vgic.Wf) {p : VirqPtr}
    (hp : (s.vgic.deref p).virq ≠ virqInvalid) {Q : Bool → Vmm φ → Prop} {E : Stop → Vmm φ → Prop}
    (hQ : ∀ s', Accepts env s (s.vgic.deref p) s' → Q true s')
    (hE : s.vgic.view.waiting.length = maxIrqQueueLen - 1 → E .assertFailed
      { s with
        dist := setPending s.dist (s.vgic.deref p).virq true vcpuId
        log := s.log ++ [.accepted (s.vgic.deref p).virq, .enqueueFailed (s.vgic.deref p).virq] })
    (hrejected : ¬KernelAccepts env → ∀ t, E .assertFailed t) :
    wp (acceptIrq env p (s.vgic.deref p)) Q E s := by
  unfold acceptIrq
  simp only [wp_bind, wp_logEvent, wp_modifyDist]
  rw [wp_vgicIrqEnqueue]
  swap
  · exact hw.queue
  refine ⟨fun hfull => ?_, fun hroom => ?_⟩
  · have hlen := (IrqQueue.full_iff hw.queue).mp hfull
    rw [← hw.length_waiting] at hlen
    simpa [wp_cAssert_stops hstop] using hE hlen
  · simp only [ne_eq, not_true_eq_false, if_false]
    exact wp_offerHead hw hp hroom hstop hQ hrejected

theorem wp_inject (hstop : env.assertStops = true) (hw : s.vgic.Wf) :
    wp (vgicDistSetPendingIrq env vcpu irq) (Injected env s irq) (InjectStops env s irq) s := by
  cases hf : s.vgic.find irq with
  | none =>
    unfold vgicDistSetPendingIrq
    rw [wp_bind, wp_virqFindIrqData hstop, hf]
    exact ⟨fun hpos => .noHandle hpos hf, .negative⟩
  | some p =>
    refine wp_setPending_of_find hf (.refused (by simp [hf])) (fun hcan hpend => ?_) fun hcan hidle => ?_
    · rw [(hw.virq_of_handle hcan.handle).1] at hpend
      exact .pending hcan hpend
    · obtain ⟨hvirq, hv⟩ := hw.virq_of_handle hcan.handle
      rw [hvirq] at hidle
      refine wp_acceptIrq hstop hw hv (fun s' hs' => .accepted hcan hidle hs') (fun hlen => ?_) fun hk _ => .rejected hcan hk
      rw [hvirq]
      exact .full hcan hidle hlen

end Inject

end Sel4cpVmm
