import Mathlib.Data.List.TakeWhile
import Sel4cpVmm.Properties.Conservation
import Sel4cpVmm.Properties.PendingResident

/-!
# What a write to `ICPENDR` leaves behind

`vgic_dist_clr_pending_irq` clears the pending bit of an interrupt that waits in the queue and leaves it there, so
it is delivered all the same, and a second copy joins it when it is accepted again.
-/

namespace Sel4cpVmm

open StopProgram

variable {φ : Type} {env : Env φ}

def ClearsPending (env : Env φ) (s : Vmm φ) (i : Int) : Op φ → Prop
  | .fault (.vmFault addr fsr) => WritesDist env (fun w => w = .icpendr) addr fsr ∧ i ∈ accessIrqs env s addr fsr
  | _ => False

instance (env : Env φ) (s : Vmm φ) (i : Int) (op : Op φ) : Decidable (ClearsPending env s i op) :=
  match op with
  | .fault (.vmFault addr fsr) => inferInstanceAs (Decidable (WritesDist env (fun w => w = .icpendr) addr fsr ∧ _ ∈ _))
  | .fault (.unknownSyscall _) | .fault .userException | .fault (.vgicMaintenance _ _) => .isFalse id
  | .fault (.vcpuFault _) | .fault (.vppiEvent _) => .isFalse id
  | .registerIrq _ _ _ | .injectIrq _ | .notification _ | .guest _ | .retire _ => .isFalse id

/-- The states that every continuation of a run reaches. -/
abbrev Continues (env : Env φ) (s : Vmm φ) : Vmm φ → Prop := Reach (fun u => u = s) (fun _ _ => True) (step env)

/-- No continuation loads `i` into a list register before `i` is accepted again. -/
def Withdraws (env : Env φ) (s : Vmm φ) (i : Int) : Prop :=
  ∀ t, Continues env s t → i ∈ loadedIrqs (newEvents s t) → i ∈ acceptedIrqs (newEvents s t)

/-- Accepted again, `i` is never present twice. -/
def StaysSingle (env : Env φ) (s : Vmm φ) (i : Int) : Prop :=
  ∀ t, Continues env s t → i ∈ acceptedIrqs (newEvents s t) → t.vgic.inFlight.count i ≤ 1

def ahead (s : Vmm φ) (i : Int) : List (VirqHandle φ) := s.vgic.view.waiting.takeWhile fun h => decide (h.virq ≠ i)

/-- The assertion of `virq_ack` fails for the handle, so once in a list register it is never retired. -/
def VirqHandle.NoCallback (h : VirqHandle φ) : Prop := h.ackFn = none

instance (h : VirqHandle φ) : Decidable h.NoCallback := inferInstanceAs (Decidable (h.ackFn = none))

/-- How many interrupts in list registers or ahead of `i` have no callback. -/
def blockers (s : Vmm φ) (i : Int) : Nat :=
  (s.vgic.view.held + Multiset.ofList (ahead s i)).countP VirqHandle.NoCallback

section Ahead

variable {s : Vmm φ} {i : Int}

lemma exists_ahead (h : ∃ a ∈ s.vgic.view.waiting, a.virq = i) :
    ∃ a w, s.vgic.view.waiting = ahead s i ++ a :: w ∧ a.virq = i := by
  obtain ⟨b, hb, hvirq⟩ := h
  have hsplit := List.takeWhile_append_dropWhile (p := fun h : VirqHandle φ => decide (h.virq ≠ i)) (l := s.vgic.view.waiting)
  have hne : s.vgic.view.waiting.dropWhile (fun h => decide (h.virq ≠ i)) ≠ [] := fun hnil =>
    absurd hvirq (by simpa using List.dropWhile_eq_nil_iff.mp hnil b hb)
  have hhead := List.head_dropWhile_not (fun h : VirqHandle φ => decide (h.virq ≠ i)) hne
  have hvirq' := not_not.mp (of_decide_eq_false hhead)
  exact ⟨_, _, by rw [ahead, List.cons_head_tail hne, hsplit], hvirq'⟩

lemma ahead_ne {b : VirqHandle φ} (h : b ∈ ahead s i) : b.virq ≠ i := by
  simpa using List.mem_takeWhile_imp h

lemma ahead_eq {w₁ w₂ : List (VirqHandle φ)} {a : VirqHandle φ} (h : s.vgic.view.waiting = w₁ ++ a :: w₂)
    (hne : ∀ b ∈ w₁, b.virq ≠ i) (ha : a.virq = i) : ahead s i = w₁ := by
  rw [ahead, h, List.takeWhile_append_of_pos (fun b hb => by simpa using hne b hb),
    List.takeWhile_cons_of_neg (by simpa using ha), List.append_nil]

end Ahead

/-! ### The write -/

section Write

variable {s s' : Vmm φ}

lemma opActions_of_clearsPending {i : Int} {op : Op φ} (hop : ClearsPending env s i op) {a : Action φ}
    (ha : a ∈ opActions env s op) : ∃ irq, a = .clrPending irq := by
  cases op with
  | fault f =>
    cases f with
    | vmFault addr fsr =>
      obtain ⟨⟨hwrite, hk⟩, -⟩ := hop
      have hread : ¬faultIsRead fsr = true := by simp [faultIsRead, hwrite]
      have hrange := @distWrite_writeOne _ _ gicDistIcpendr0 (by rw [hk]; rfl)
      have hin : InDist env addr := by
        have hlt : (addr - env.board.gicDistPaddr).toNat < 0x1000 := by
          simp only [gicDistIcpendr0] at hrange
          omega
        have haddr : env.board.gicDistPaddr + BitVec.ofNat 64 (addr - env.board.gicDistPaddr).toNat = addr := by
          rw [BitVec.ofNat_toNat, BitVec.setWidth_eq, BitVec.add_comm, BitVec.sub_add_cancel]
        exact haddr ▸ inDist_of_lt hlt
      change a ∈ accessActions env s addr fsr at ha
      rw [accessActions, if_neg hread, if_pos hin, distActions, hk] at ha
      obtain ⟨irq, -, rfl⟩ := List.mem_map.mp ha
      exact ⟨irq, rfl⟩
    | _ => exact hop.elim
  | _ => exact hop.elim

variable (hstop : env.assertStops = true) (hinert : InertAcks env)

include hstop hinert

lemma vgic_of_clearsPending (hw : s.vgic.Wf) {i : Int} {op : Op φ} (hop : ClearsPending env s i op)
    (hrun : step env op s = .ok ⟨⟩ s') : s'.vgic = s.vgic := by
  have hwp : wp (step env op) (fun _ t => t.vgic = s.vgic) (fun _ _ => True) s := by
    refine step_wp (Q := fun t => t.vgic = s.vgic) (E := fun _ => True) hstop (fun _ _ => trivial) ?_
    refine wp_mono (wp_actions (I := fun t => t.vgic = s.vgic) (E := fun _ _ => True) hstop hinert
      (fun a ha t t' _ hI hd => ?_) (fun _ _ _ _ _ _ _ _ => trivial) hw rfl) (fun _ t ht u hu => ⟨?_, trivial⟩)
      (fun _ _ _ => trivial)
    · obtain ⟨irq, rfl⟩ := opActions_of_clearsPending hop ha
      cases hd with
      | clrPending => exact hI
    · rw [hu.vgic, ht.2]
  have hafter := wp_ok hwp hrun
  exact hafter

end Write

/-! ### Delivery all the same -/

section Delivery

variable {s u : Vmm φ} (hstop : env.assertStops = true) (hinert : InertAcks env) (hk : KernelAccepts env)

include hstop hinert hk

/-- While a list register holds an interrupt with a callback, a maintenance event retires it and loads the head of
the queue. -/
lemma exists_moved {b : VirqHandle φ} {w : List (VirqHandle φ)} (hu : Continues env s u) (hw : u.vgic.Wf)
    (hwc : u.vgic.view.WorkConserving) (hwait : u.vgic.view.waiting = b :: w)
    (hfew : u.vgic.view.held.countP VirqHandle.NoCallback < numListRegs) :
    ∃ t l, Continues env s t ∧ t.vgic.Wf ∧ t.vgic.view.WorkConserving ∧ t.vgic.view.waiting = w ∧
      t.vgic.view.held.countP VirqHandle.NoCallback =
        (b ::ₘ u.vgic.view.held).countP VirqHandle.NoCallback ∧
      t.log = u.log ++ l ∧ acceptedIrqs l = [] ∧ loadedIrqs l = [b.virq] := by
  obtain ⟨k, h, hslot, hfn⟩ := SlotQueue.exists_slot_of_countP_lt (hwc (by simp [hwait])) hfew
  have hwp : wp (step env (.retire (k : Fin numListRegs))) (fun _ t => Retires env u k h t) (fun _ _ => False) u := by
    change wp (vgicMaintenanceBody env ((k : Fin numListRegs) : Int) 0 >>= fun _ => pure ()) _ _ u
    rw [wp_bind]
    exact wp_retire hstop hinert hw hslot (fun _ ht => ht) (fun hnone => hfn hnone) fun hno => absurd hk hno
  obtain ⟨⟨⟩, t, hok, hr⟩ := ok_of_wp hwp
  have hheld := SlotQueue.held_retire hslot
  rw [hwait, List.head?_cons, Option.toList_some, Multiset.coe_singleton, Multiset.singleton_add] at hheld
  refine ⟨t, _, .step (.retire k) hu trivial hok, hr.wf, ?_, ?_, ?_, by rw [hr.log, List.append_assoc], ?_, ?_⟩
  · rw [hr.view]
    exact SlotQueue.workConserving_retire hwc k
  · rw [hr.view, SlotQueue.waiting_retire, hwait, List.tail_cons]
  · rw [hr.view, ← hheld, Multiset.countP_cons_of_neg _ hfn]
  · exact acceptedIrqs_retire u k h
  · rw [loadedIrqs_retire, hwait]
    rfl

/-- Maintenance events alone load everything that waits, unless interrupts without callback block the list registers. -/
lemma exists_loaded {a : VirqHandle φ} {w₁ w₂ : List (VirqHandle φ)} (hu : Continues env s u) (hw : u.vgic.Wf)
    (hwc : u.vgic.view.WorkConserving) (hwait : u.vgic.view.waiting = w₁ ++ a :: w₂)
    (hfew : (u.vgic.view.held + Multiset.ofList w₁).countP VirqHandle.NoCallback < numListRegs)
    {l : List (Event φ)} (hl : u.log = s.log ++ l) (haccepted : acceptedIrqs l = []) :
    ∃ t, Continues env s t ∧ acceptedIrqs (newEvents s t) = [] ∧ a.virq ∈ loadedIrqs (newEvents s t) := by
  have hfew' := Multiset.countP_add VirqHandle.NoCallback u.vgic.view.held (Multiset.ofList w₁)
  -- one maintenance event for everything ahead of `a`
  induction w₁ generalizing u l with
  | nil =>
    obtain ⟨t, l', ht, -, -, -, -, hlog, hacc, hload⟩ := exists_moved hstop hinert hk hu hw hwc hwait (by omega)
    refine ⟨t, ht, ?_⟩
    rw [newEvents_eq (by rw [hlog, hl, List.append_assoc]), acceptedIrqs_append, loadedIrqs_append, haccepted, hacc, hload]
    simp
  | cons b w₁ ih =>
    obtain ⟨t, l', ht, hwt, hwct, hwaitt, hheld, hlog, hacc, -⟩ :=
      exists_moved hstop hinert hk hu hw hwc hwait (by omega)
    refine ih ht hwt hwct hwaitt ?_ (by rw [hlog, hl, List.append_assoc]) ?_ (Multiset.countP_add _ _ _)
    · rwa [Multiset.countP_add, hheld, ← Multiset.countP_add, Multiset.cons_add, ← Multiset.add_cons]
    · rw [acceptedIrqs_append, haccepted, hacc, List.append_nil]

end Delivery

/-! ### A blocked queue -/

/-- `i` waits, and interrupts without callback ahead of it block every list register. -/
structure Blocked (s : Vmm φ) (i : Int) : Prop where
  waits : ∃ h ∈ s.vgic.view.waiting, h.virq = i
  blockers : numListRegs ≤ blockers s i

/-- Since `t` the log tells of no load of `i`, which is still blocked, or of its acceptance. -/
structure Unmoved (t : Vmm φ) (i : Int) (u : Vmm φ) : Prop where
  conserved : Conserved u
  log : ∃ l, u.log = t.log ++ l ∧ (i ∈ acceptedIrqs l ∨ i ∉ loadedIrqs l ∧ Blocked u i)

section Unmoved

variable {t u u' : Vmm φ} {i : Int}

lemma Blocked.congr (hB : Blocked u i) (hv : u'.vgic.view = u.vgic.view) : Blocked u' i := by
  obtain ⟨hwaits, hblock⟩ := hB
  unfold Sel4cpVmm.blockers ahead at hblock
  refine ⟨by rwa [hv], ?_⟩
  unfold Sel4cpVmm.blockers ahead
  rwa [hv]

/-- What is added to the log brings its own acceptances, or loads nothing and leaves `i` blocked. -/
lemma Unmoved.extend (hI : Unmoved t i u) (hc : Conserved u') {l : List (Event φ)} (hlog : u'.log = u.log ++ l)
    (h : Blocked u i → i ∈ acceptedIrqs l ∨ i ∉ loadedIrqs l ∧ Blocked u' i) : Unmoved t i u' := by
  obtain ⟨l', hl', hcase⟩ := hI.log
  refine ⟨hc, l' ++ l, by rw [hlog, hl', List.append_assoc], ?_⟩
  rw [acceptedIrqs_append, loadedIrqs_append, List.mem_append, List.mem_append, not_or]
  rcases hcase with hacc | ⟨hnot, hB⟩
  · exact .inl (.inl hacc)
  · rcases h hB with hacc | ⟨hnot', hB'⟩
    · exact .inl (.inr hacc)
    · exact .inr ⟨⟨hnot, hnot'⟩, hB'⟩

lemma Unmoved.other (hI : Unmoved t i u) (hv : u'.vgic.view = u.vgic.view) {l : List (Event φ)}
    (hlog : u'.log = u.log ++ l) (hl : ∀ e ∈ l, e.isOther = true) : Unmoved t i u' := by
  refine hI.extend (hI.conserved.other hv hlog hl) hlog fun hB => .inr ⟨?_, hB.congr hv⟩
  rw [loadedIrqs_other hl]
  exact List.not_mem_nil

lemma Unmoved.same (hI : Unmoved t i u) (hv : u'.vgic.view = u.vgic.view) (hlog : u'.log = u.log) : Unmoved t i u' :=
  hI.other hv (l := []) (by simpa using hlog) (by simp)

lemma Unmoved.logged (hI : Unmoved t i u) {e : Event φ} (he : e.isOther = true) :
    Unmoved t i { u with log := u.log ++ [e] } :=
  hI.other rfl rfl (by simpa using he)

lemma Unmoved.injected {irq : Int} {b : Bool} (hI : Unmoved t i u) (hi : Injected env u irq b u') : Unmoved t i u' := by
  cases hi with
  | refused => exact hI
  | pending => exact hI
  | @accepted h _ _ _ ha =>
    refine hI.extend (hI.conserved.accepts ha) ha.log fun hB => .inr ?_
    obtain ⟨a, w, hwait, hvirq⟩ := exists_ahead hB.waits
    have hfull : u.vgic.view.firstFree = none :=
      SlotQueue.firstFree_eq_none.mpr (hI.conserved.workConserving (by simp [hwait]))
    have hview : u'.vgic.view = u.vgic.view.enqueue h := by rw [ha.view, SlotQueue.offer_of_none hfull]
    have hwait' : u'.vgic.view.waiting = ahead u i ++ a :: (w ++ [h]) := by
      rw [hview, SlotQueue.enqueue, hwait, List.append_assoc, List.cons_append]
    refine ⟨?_, ⟨a, by simp [hwait'], hvirq⟩, ?_⟩
    · change i ∉ loadedIrqs (offerEvents env u.vgic h)
      rw [loadedIrqs_offerEvents, hfull]
      exact List.not_mem_nil
    · have hheld : u'.vgic.view.held = u.vgic.view.held := by rw [hview]; rfl
      rw [Sel4cpVmm.blockers, ahead_eq hwait' (fun _ => ahead_ne) hvirq, hheld]
      exact hB.blockers

/-- The list registers cannot all be blocked when one is retired, so some blocker is at the head of the queue. -/
lemma Unmoved.retires {k : Fin numListRegs} {h : VirqHandle φ} (hI : Unmoved t i u) (hr : Retires env u k h u') :
    Unmoved t i u' := by
  refine hI.extend (hI.conserved.retires hr) (by rw [hr.log, List.append_assoc]) fun hB => .inr ?_
  obtain ⟨a, w, hwait, hvirq⟩ := exists_ahead hB.waits
  have hfull := hI.conserved.workConserving (by simp [hwait])
  have hfn : ¬h.NoCallback := Option.isSome_iff_ne_none.mp hr.ackFn
  have hheld := SlotQueue.held_retire hr.slot
  cases hahead : ahead u i with
  | nil =>
    -- then the blockers are all in list registers, the one retired among them
    have hblock := hB.blockers
    rw [Sel4cpVmm.blockers, hahead, Multiset.coe_nil, add_zero] at hblock
    have hlt : u.vgic.view.held.countP VirqHandle.NoCallback < numListRegs := by
      have hcard := SlotQueue.card_held_full hfull
      have hle := Multiset.countP_le_card VirqHandle.NoCallback u.vgic.view.held
      refine Nat.lt_of_le_of_ne (by omega) fun heq => ?_
      exact hfn (Multiset.countP_eq_card.mp (heq.trans hcard.symm) h (SlotQueue.mem_held.mpr ⟨k, hr.slot⟩))
    omega
  | cons b w₁ =>
    have hmem : b ∈ ahead u i := by simp [hahead]
    rw [hahead, List.cons_append] at hwait
    rw [hwait, List.head?_cons, Option.toList_some, Multiset.coe_singleton, Multiset.singleton_add] at hheld
    have hwait' : u'.vgic.view.waiting = w₁ ++ a :: w := by
      rw [hr.view, SlotQueue.waiting_retire, hwait, List.tail_cons]
    refine ⟨?_, ⟨a, by simp [hwait'], hvirq⟩, ?_⟩
    · rw [loadedIrqs_retire, hwait]
      simpa using fun heq => ahead_ne hmem heq.symm
    · have hblock := hB.blockers
      rw [Sel4cpVmm.blockers, hahead, ← Multiset.cons_coe, Multiset.add_cons, ← Multiset.cons_add, ← hheld,
        Multiset.cons_add, Multiset.countP_cons_of_neg _ hfn] at hblock
      rwa [Sel4cpVmm.blockers, ahead_eq hwait' (fun c hc => ahead_ne (s := u) (by simp [hahead, hc])) hvirq, hr.view]

lemma Unmoved.does {a : Action φ} (hI : Unmoved t i u) (hw : u.vgic.Wf) (hd : Does env u a u') : Unmoved t i u' := by
  cases hd with
  | register hr => exact hI.same (hr.view hw) rfl
  | inject hi => exact hI.injected hi
  | notification hi => exact (hI.logged rfl).injected hi
  | vppiEvent hi =>
    have ht := (hI.logged rfl).injected hi
    exact ht.other rfl rfl (other_vppiReturn _ _)
  | retire hr => exact hI.retires hr
  | enableAck => exact hI.other rfl rfl (other_ackEvents _ _)
  | _ => exact hI.same rfl rfl

lemma Unmoved.frame (hI : Unmoved t i u) (hf : Frame u u') : Unmoved t i u' := by
  obtain ⟨l, hl, hret⟩ := hf.log
  exact hI.other (by rw [hf.vgic]) hl fun e he => other_of_isReturn (hret e he)

lemma unmoved_continues (hstop : env.assertStops = true) (hinert : InertAcks env) {s : Vmm φ} (hw : s.vgic.Wf)
    (hc : Conserved s) (hB : Blocked s i) (ht : Continues env s t) : Unmoved s i t := by
  have hinit : Unmoved s i s := ⟨hc, [], by simp, .inr ⟨by simp [loadedIrqs], hB⟩⟩
  refine (reach_halts (I := Unmoved s i) (E := fun _ => True) hstop hinert ?_ (fun _ _ hf hI => hI.frame hf)
    (fun _ _ _ => trivial) (fun _ _ _ _ _ _ _ hw hI hd => hI.does hw hd) (fun _ _ _ _ _ _ _ _ _ _ _ => trivial) ht).1.2
  rintro u rfl
  exact ⟨hw, hinit⟩

end Unmoved

/-! ### A second copy -/

/-- Since `t` the log tells of the interrupts that have joined those in flight. -/
def Grown (t u : Vmm φ) : Prop :=
  ∃ l, u.log = t.log ++ l ∧
    u.vgic.view.residents.map VirqHandle.virq = (acceptedIrqs l : Multiset Int) + t.vgic.view.residents.map VirqHandle.virq

section Grown

variable {t u u' : Vmm φ}

lemma Grown.other (hI : Grown t u) (hv : u'.vgic.view = u.vgic.view) {l : List (Event φ)} (hlog : u'.log = u.log ++ l)
    (hl : ∀ e ∈ l, e.isOther = true) : Grown t u' := by
  obtain ⟨l', hl', hres⟩ := hI
  refine ⟨l' ++ l, by rw [hlog, hl', List.append_assoc], ?_⟩
  rw [hv, hres, acceptedIrqs_append, acceptedIrqs_other hl, List.append_nil]

lemma Grown.same (hI : Grown t u) (hv : u'.vgic.view = u.vgic.view) (hlog : u'.log = u.log) : Grown t u' :=
  hI.other hv (l := []) (by simpa using hlog) (by simp)

lemma Grown.logged (hI : Grown t u) {e : Event φ} (he : e.isOther = true) : Grown t { u with log := u.log ++ [e] } :=
  hI.other rfl rfl (by simpa using he)

lemma Grown.injected {irq : Int} {b : Bool} (hI : Grown t u) (hi : Injected env u irq b u') : Grown t u' := by
  cases hi with
  | refused => exact hI
  | pending => exact hI
  | @accepted h _ _ _ ha =>
    obtain ⟨l, hl, hres⟩ := hI
    refine ⟨_, by rw [ha.log, hl, List.append_assoc], ?_⟩
    have hnew : acceptedIrqs (.accepted h.virq :: offerEvents env u.vgic h) = [h.virq] :=
      congrArg (h.virq :: ·) (acceptedIrqs_offerEvents _ _)
    rw [ha.view, SlotQueue.residents_offer, Multiset.map_cons, hres, acceptedIrqs_append, hnew, ← Multiset.coe_add,
      Multiset.coe_singleton, add_right_comm, ← Multiset.singleton_add, add_comm]

lemma Grown.does {a : Action φ} (hI : Grown t u) (hw : u.vgic.Wf) (hd : Does env u a u')
    (ha : ∀ idx err, a ≠ .retire idx err) : Grown t u' := by
  cases hd with
  | register hr => exact hI.same (hr.view hw) rfl
  | inject hi => exact hI.injected hi
  | notification hi => exact (hI.logged rfl).injected hi
  | vppiEvent hi =>
    have ht := (hI.logged rfl).injected hi
    exact ht.other rfl rfl (other_vppiReturn _ _)
  | retire => exact absurd rfl (ha _ _)
  | enableAck => exact hI.other rfl rfl (other_ackEvents _ _)
  | _ => exact hI.same rfl rfl

variable (hstop : env.assertStops = true) (hinert : InertAcks env)

include hstop hinert

lemma grown_step (hw : t.vgic.Wf) {op : Op φ} (hrun : step env op t = .ok ⟨⟩ u) :
    Grown t u ∨ ∃ l, u.log = t.log ++ l ∧ acceptedIrqs l = [] := by
  have hwp : wp (step env op) (fun _ u => Grown t u ∨ ∃ l, u.log = t.log ++ l ∧ acceptedIrqs l = [])
      (fun _ _ => True) t := by
    refine step_wp (Q := fun u => Grown t u ∨ ∃ l, u.log = t.log ++ l ∧ acceptedIrqs l = []) (E := fun _ => True) hstop
      (fun _ _ => trivial) ?_
    by_cases hop : op.isMaintenance = true
    · obtain ⟨idx, err, hactions⟩ := @opActions_of_isMaintenance _ env t _ hop
      rw [hactions, List.forM_cons, wp_bind]
      refine wp_mono (wp_does hstop hinert hw _) (fun _ v hd u hu => ⟨.inr ?_, trivial⟩) (fun _ _ _ => trivial)
      cases hd with
      | @retire k _ h _ hr =>
        obtain ⟨l, hl, hret⟩ := hu.log
        refine ⟨ackEvents env (freed t k h) h ++ refillEvents env (freed t k h) k ++ l, by rw [hl, hr.log]; simp, ?_⟩
        rw [acceptedIrqs_append, acceptedIrqs_retire, List.nil_append]
        exact acceptedIrqs_other fun e he => other_of_isReturn (hret e he)
    · refine wp_mono (wp_actions (I := Grown t) (E := fun _ _ => True) hstop hinert
        (fun a ha v v' hv hI hd => hI.does hv hd ?_) (fun _ _ _ _ _ _ _ _ => trivial) hw ⟨[], by simp, by simp [acceptedIrqs]⟩)
        (fun _ v hv u hu => ⟨.inl ?_, trivial⟩) (fun _ _ _ => trivial)
      · rintro idx err rfl
        exact hop (isMaintenance_of_retire ha)
      · obtain ⟨l, hl, hret⟩ := hu.log
        exact hv.2.other (by rw [hu.vgic]) hl fun e he => other_of_isReturn (hret e he)
  have hafter := wp_ok hwp hrun
  exact hafter

lemma twice_of_accepted (hw : t.vgic.Wf) {op : Op φ} (hrun : step env op t = .ok ⟨⟩ u) {i : Int}
    (hin : i ∈ t.vgic.inFlight) (hacc : i ∈ acceptedIrqs (newEvents t u)) : 2 ≤ u.vgic.inFlight.count i := by
  rcases grown_step hstop hinert hw hrun with ⟨l, hl, hres⟩ | ⟨l, hl, hnone⟩
  · rw [newEvents_eq hl] at hacc
    rw [← Vgic.coe_inFlight, ← Vgic.coe_inFlight, Multiset.coe_add, Multiset.coe_eq_coe] at hres
    rw [hres.count_eq, List.count_append]
    have hone := List.count_pos_iff.mpr hacc
    have hone' := List.count_pos_iff.mpr hin
    omega
  · rw [newEvents_eq hl, hnone] at hacc
    exact absurd hacc List.not_mem_nil

end Grown

/-! ### When the interrupt is withdrawn -/

section Withdrawn

variable (hstop : env.assertStops = true) (hinert : InertAcks env) {s : Vmm φ} (hw : s.vgic.Wf) (hc : Conserved s) {i : Int}

include hstop hinert hw hc

/-- A blocked interrupt that is never present twice is never accepted again. -/
lemma never_accepted (hB : Blocked s i) (hsingle : StaysSingle env s i) {t : Vmm φ} (ht : Continues env s t) :
    i ∉ acceptedIrqs (newEvents s t) := by
  induction ht with
  | init h =>
    subst h
    simp [newEvents, acceptedIrqs]
  | @step t t' op ht hop hrun ih =>
    intro hacc
    obtain ⟨l, hl, hcase⟩ := (unmoved_continues hstop hinert hw hc hB ht).log
    rw [newEvents_eq hl] at ih
    obtain ⟨a, ha, hvirq⟩ := (hcase.resolve_left ih).2.waits
    have hin : i ∈ t.vgic.inFlight := by
      rw [Vgic.mem_inFlight, Multiset.mem_map]
      exact ⟨a, SlotQueue.mem_residents.mpr (.inr ha), hvirq⟩
    have hwt : t.vgic.Wf := (reach_halts (I := fun _ => True) (E := fun _ => True) hstop hinert
      (fun u (hu : u = s) => ⟨hu ▸ hw, trivial⟩) (fun _ _ _ _ => trivial) (fun _ _ _ => trivial)
      (fun _ _ _ _ _ _ _ _ _ _ => trivial) (fun _ _ _ _ _ _ _ _ _ _ _ => trivial) ht).1.1
    have hnew : ∃ m, t'.log = t.log ++ m := by
      rcases grown_step hstop hinert hwt hrun with ⟨m, hm, -⟩ | ⟨m, hm, -⟩ <;> exact ⟨m, hm⟩
    obtain ⟨m, hm⟩ := hnew
    have hsingle' := hsingle t' (.step op ht hop hrun) hacc
    rw [newEvents_eq (by rw [hm, hl, List.append_assoc]), acceptedIrqs_append, List.mem_append] at hacc
    have htwice := twice_of_accepted hstop hinert hwt hrun hin (newEvents_eq hm ▸ hacc.resolve_left ih)
    omega

end Withdrawn

def clear37 : Op VmmAckFn := .fault (.vmFault (0x8000000 + 0x284) storeWord)

end Sel4cpVmm
