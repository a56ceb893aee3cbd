import Sel4cpVmm.Proofs.BitmapWrites
import Sel4cpVmm.Proofs.Registration
import Sel4cpVmm.Proofs.Residents

/-!
# Registration as a finite map

`virq_spi_add` takes the next free slot without looking for the interrupt, and `virq_ack` passes no cookie. So
the registrations are a map, each acknowledged with its own callback and cookie, exactly when the SPIs that find
a slot are distinct and no successful registration with a callback has a cookie.
-/

namespace Sel4cpVmm

open StopProgram

variable {φ : Type} {env : Env φ}

/-! ### The map -/

/-- The interrupt is not registered, and for an SPI less than 200 SPIs are. -/
def Unregistered (done : List (VirqHandle φ)) (irq : Int) : Prop :=
  irq ∉ done.map VirqHandle.virq ∧ ((numVcpuLocalVirqs : Int) ≤ irq → (spis done).length < numSlotsSpiVirq)

/-- The acknowledgements in the log are of registered interrupts, by their callback with their cookie. -/
def AcksRegistered (done : List (VirqHandle φ)) (log : List (Event φ)) : Prop :=
  ∀ fn vcpu irq cookie, .ack fn vcpu irq cookie ∈ log →
    ∃ h ∈ done, h.virq = irq ∧ h.ackFn = some fn ∧ h.ackData = cookie

/-- The calls of the sequence behave as insertions into a map that refuses known keys: each succeeds exactly when
its interrupt is unregistered and changes nothing otherwise, a lookup afterwards yields the one successful
registration, and whatever is acknowledged from then on is acknowledged as registered. -/
structure RegistersAsMap (env : Env φ) (tcb : UserContext) (l : List (VirqHandle φ)) : Prop where
  calls : ∀ l₁ h l₂, l = l₁ ++ h :: l₂ → ∃ done s b t, registerAll env l₁ (vgicInit env tcb) = .ok done s ∧
    vgicRegisterIrq env vcpuId h.virq h.ackFn h.ackData s = .ok b t ∧ (b = true ↔ Unregistered done h.virq) ∧
    (b = false → t = s)
  after : ∃ done s, registerAll env l (vgicInit env tcb) = .ok done s ∧
    (∀ irq, 0 ≤ irq ∧ irq ≤ 1019 → ∃ p, virqFindIrqData env vcpuId irq s = .ok p s ∧
      done.filter (fun h => decide (h.virq = irq)) = (p.bind fun p => (s.vgic.deref p).present).toList) ∧
    ∀ t, Reach (fun u => u = s) (fun _ op => NotRegister op) (step env) t → ∀ op, NotRegister op →
      AcksRegistered done (outcome (step env op) t).log

/-- The first 200 calls for SPIs are for distinct interrupts, and none of them nor the first call for a local
interrupt has a callback and a cookie. -/
structure Clean (l : List (VirqHandle φ)) : Prop where
  distinct : (((spis l).take numSlotsSpiVirq).map VirqHandle.virq).Nodup
  spi : ∀ h ∈ (spis l).take numSlotsSpiVirq, h.ackFn.isSome → h.ackData = null
  localVirq : ∀ h : VirqHandle φ, h.virq < (numVcpuLocalVirqs : Int) →
    l.find? (fun a => decide (a.virq = h.virq)) = some h → h.ackFn.isSome → h.ackData = null

/-! ### Acknowledgements -/

section Acks

variable {done : List (VirqHandle φ)} {s t : Vmm φ}

/-- Whatever is acknowledged is registered, if not with the cookie. -/
def AcksNull (done : List (VirqHandle φ)) (log : List (Event φ)) : Prop :=
  ∀ fn vcpu irq cookie, .ack fn vcpu irq cookie ∈ log →
    cookie = null ∧ ∃ h ∈ done, h.virq = irq ∧ h.ackFn = some fn

/-- The handles in the tables and in flight are registered, and so is what has been acknowledged. -/
structure Follows (done : List (VirqHandle φ)) (s : Vmm φ) : Prop where
  wf : s.vgic.Wf
  tables : ∀ irq h, s.vgic.handle irq = some h → h ∈ done
  residents : ∀ h ∈ s.vgic.view.residents, h ∈ done
  acks : AcksNull done s.log

/-- No acknowledgement is added. -/
abbrev AcksKept (s t : Vmm φ) : Prop := ∀ e : Event φ, e.isAck = true → e ∈ t.log → e ∈ s.log

instance : Std.Refl (AcksKept (φ := φ)) := ⟨fun _ _ _ => id⟩

instance : IsTrans (Vmm φ) AcksKept := ⟨fun _ _ _ h h' e he hmem => h e he (h' e he hmem)⟩

lemma AcksNull.kept (h : AcksNull done s.log) (hk : AcksKept s t) : AcksNull done t.log :=
  fun fn vcpu irq cookie hmem => h fn vcpu irq cookie (hk _ rfl hmem)

lemma acksKept_logged {e : Event φ} (he : e.isAck = false) (s : Vmm φ) : AcksKept s { s with log := s.log ++ [e] } := by
  intro a ha hmem
  rcases List.mem_append.mp hmem with h | h
  · exact h
  · rw [List.mem_singleton.mp h, he] at ha
    exact absurd ha (by simp)

lemma acksKept_logEvent {e : Event φ} (he : e.isAck = false) : Always AcksKept (logEvent e) :=
  within_modify (acksKept_logged he)

lemma acksKept_vgicInjectIrq (irq : Int) : Always AcksKept (vgicInjectIrq env vcpuId irq) :=
  within_vgicInjectIrq (fun _ => within_modify fun _ _ _ => id) (fun _ _ he => acksKept_logEvent he)
    (fun _ _ _ => within_modify fun _ _ _ => id) vcpuId irq

lemma acksKept_refill (k : Fin numListRegs) (err : Int) : Always AcksKept (refill env k err) := by
  unfold refill
  refine within_bind (within_vgicIrqDequeue (fun _ => within_modify fun _ _ _ => id) _) fun p => ?_
  cases p with
  | none => exact within_pure _
  | some p =>
    refine within_bind ?_ fun _ => within_pure _
    exact within_vgicVcpuLoadListReg (fun _ => within_modify fun _ _ _ => id) (fun _ _ he => acksKept_logEvent he) _ _ _ _

variable (hstop : env.assertStops = true)

include hstop

lemma Follows.inject (h : Follows done s) (irq : Int) :
    wp (vgicInjectIrq env vcpuId irq) (fun _ t => Follows done t) (fun _ t => AcksNull done t.log) s := by
  refine wp_mono (wp_and (wp_vgicInjectIrq hstop h.wf irq) (acksKept_vgicInjectIrq irq s)) (fun b t ht => ?_)
    (fun _ t ht => h.acks.kept ht.2)
  obtain ⟨hi, hk⟩ := ht
  have hacks := h.acks.kept hk
  cases hi with
  | refused => exact ⟨h.wf, h.tables, h.residents, hacks⟩
  | pending => exact ⟨h.wf, h.tables, h.residents, hacks⟩
  | accepted hcan _ ha =>
    refine ⟨ha.wf, fun irq a hfound => h.tables irq a ?_, fun a ha' => ?_, hacks⟩
    · rwa [Vgic.handle_congr ha.deref] at hfound
    · rw [ha.view, SlotQueue.residents_offer] at ha'
      rcases Multiset.mem_cons.mp ha' with rfl | ha'
      · exact h.tables _ _ hcan.handle
      · exact h.residents a ha'

omit hstop in
lemma Follows.logged (h : Follows done s) {e : Event φ} (he : e.isAck = false) :
    Follows done { s with log := s.log ++ [e] } :=
  ⟨h.wf, h.tables, h.residents, h.acks.kept (acksKept_logged he s)⟩

lemma Follows.ack (h : Follows done s) {a : VirqHandle φ} (ha : a ∈ done) :
    wp (virqAck env vcpuId a) (fun _ t => Follows done t) (fun _ t => AcksNull done t.log) s := by
  unfold virqAck
  rw [wp_bind, wp_cAssert_stops hstop]
  refine ⟨fun hsome => ?_, fun _ => h.acks⟩
  obtain ⟨fn, hfn⟩ := Option.isSome_iff_exists.mp hsome
  simp only [hfn]
  rw [wp_bind, wp_logEvent, wp_bind, wp_get]
  have hlogged : Follows done { s with log := s.log ++ [.ack fn vcpuId a.virq null] } := by
    refine ⟨h.wf, h.tables, h.residents, fun fn' vcpu irq cookie hmem => ?_⟩
    rcases List.mem_append.mp hmem with hmem | hmem
    · exact h.acks fn' vcpu irq cookie hmem
    · obtain ⟨rfl, -, rfl, rfl⟩ := Event.ack.inj (List.mem_singleton.mp hmem)
      exact ⟨rfl, a, ha, rfl, hfn⟩
  refine wp_forM_keeps (fun c _ t ht => ?_) hlogged
  cases c with
  | irqAck ch => exact ht.logged rfl
  | vcpuAckVppi irq =>
    simp only [runAckCall, vcpuAckVppi, wp_bind, wp_get, wp_logEvent, wp_pure, wp_cAssert_stops hstop]
    exact ⟨fun _ => ht.logged rfl, fun _ => (ht.logged rfl).acks⟩
  | injectIrq irq =>
    rw [runAckCall, wp_bind]
    exact ht.inject hstop irq

lemma Follows.retire (h : Follows done s) (idx err : Int) :
    wp (vgicMaintenanceBody env idx err) (fun _ t => Follows done t) (fun _ t => AcksNull done t.log) s := by
  by_cases hidx : 0 ≤ idx ∧ idx < numListRegs
  · obtain ⟨n, rfl⟩ := Int.eq_ofNat_of_zero_le hidx.1
    have hn : n < numListRegs := by omega
    change wp (vgicMaintenanceBody env ((⟨n, hn⟩ : Fin numListRegs) : Int) err) _ _ s
    rw [wp_vgicMaintenanceBody hstop]
    refine ⟨fun _ => h.acks, fun a hslot => ?_⟩
    have hres := SlotQueue.residents_free hslot
    have hfreed : Follows done (freed s ⟨n, hn⟩ a) := by
      refine ⟨wf_freed h.wf _ _, fun irq b hb => h.tables irq b ?_, fun b hb => h.residents b ?_, h.acks⟩
      · have hderef : (freed s ⟨n, hn⟩ a).vgic.deref = s.vgic.deref := Vgic.deref_setLr
        rwa [Vgic.handle_congr hderef] at hb
      · rw [view_freed] at hb
        rw [hres]
        exact Multiset.mem_cons_of_mem hb
    refine wp_mono (hfreed.ack hstop (h.residents a (by rw [hres]; simp))) (fun _ t ht => ?_) (fun _ _ => id)
    have hrefill := @wp_refill φ env t ⟨n, hn⟩ err hstop ht.wf (fun _ _ => True) fun _ _ => trivial
    refine wp_mono (wp_and hrefill (acksKept_refill _ err t)) (fun r u hu => ?_) (fun _ _ hu => ht.acks.kept hu.2)
    obtain ⟨⟨hr, -⟩, hk⟩ := hu
    refine ⟨hr.wf, fun irq b hb => ht.tables irq b ?_, fun b hb => ht.residents b ?_, ht.acks.kept hk⟩
    · rwa [Vgic.handle_congr hr.deref] at hb
    · rw [hr.view] at hb
      exact SlotQueue.mem_of_mem_load hb
  · exact wp_vgicMaintenanceBody_range hstop hidx h.acks

lemma Follows.action (h : Follows done s) {a : Action φ} (ha : ∀ irq fn data, a ≠ .register irq fn data) :
    wp (a.run env) (fun _ t => Follows done t) (fun _ t => AcksNull done t.log) s := by
  have hdist : ∀ d, Follows done { s with dist := d } := fun _ => ⟨h.wf, h.tables, h.residents, h.acks⟩
  cases a with
  | register irq ackFn ackData => exact absurd rfl (ha irq ackFn ackData)
  | inject irq =>
    rw [Action.run, wp_bind]
    exact h.inject hstop irq
  | notification irq =>
    rw [Action.run, wp_bind, wp_logEvent, wp_bind]
    exact (h.logged rfl).inject hstop irq
  | vppiEvent irq =>
    rw [Action.run, wp_bind, wp_logEvent, wp_bind]
    unfold handleVppiEvent vcpuAckVppi
    rw [wp_bind]
    refine wp_mono ((h.logged rfl).inject hstop (cInt irq)) (fun b t ht => ?_) (fun _ _ => id)
    simp only [wp_bind, wp_get, wp_logEvent, wp_pure, wp_cAssert_stops hstop, wp_ite, wp_replyToFault]
    exact ⟨fun _ => ⟨fun _ => ⟨fun _ => ht.logged rfl, fun _ => (ht.logged rfl).logged rfl⟩, fun _ => (ht.logged rfl).acks⟩,
      fun _ => ht.logged rfl⟩
  | retire idx err =>
    rw [Action.run, wp_bind]
    exact h.retire hstop idx err
  | enable irq =>
    have henabled : Follows done (enabled s irq) := hdist _
    exact wp_vgicDistEnableIrq hstop (fun _ => h.acks) (fun _ => henabled)
      fun a hfound _ => henabled.ack hstop (h.tables irq a hfound)
  | disable irq =>
    rw [Action.run, vgicDistDisableIrq, wp_ite, wp_modifyDist, wp_pure]
    exact ⟨fun _ => hdist _, fun _ => h⟩
  | clearEnable irq => exact hdist _
  | clrPending irq => exact hdist _
  | store w mask bits => exact hdist _
  | ctlr data =>
    rw [Action.run, writeCtlr, wp_ite, wp_ite, wp_modifyDist, wp_modifyDist, wp_pure]
    exact ⟨fun _ => hdist _, fun _ => ⟨fun _ => hdist _, fun _ => h⟩⟩
  | fail =>
    rw [Action.run, wp_cAssert_stops hstop]
    exact ⟨fun _ => h, fun _ => h.acks⟩

/-- In a run without registrations only registered interrupts are acknowledged, by their callback. -/
lemma Follows.run (h : Follows done s) (ht : Reach (fun u => u = s) (fun _ op => NotRegister op) (step env) t) {op : Op φ}
    (hop : NotRegister op) : AcksNull done (outcome (step env op) t).log := by
  refine (reach_outcome (I := Follows done) (E := fun u => AcksNull done u.log) hstop
    (fun u (hu : u = s) => hu ▸ h) (fun u v hf hu => ?_) (fun u hu => hu.acks) (fun u op hu hop => ?_) ht).2 op hop
  · obtain ⟨l, hl, hret⟩ := hf.log
    refine ⟨hf.vgic ▸ hu.wf, hf.vgic ▸ hu.tables, hf.vgic ▸ hu.residents, hu.acks.kept fun e he hmem => ?_⟩
    rw [hl] at hmem
    rcases List.mem_append.mp hmem with hmem | hmem
    · exact hmem
    · exact absurd (hret e hmem) (by cases e <;> simp_all [Event.isAck, Event.isReturn])
  · refine wp_forM_keeps (fun a ha v hv => hv.action hstop ?_) hu
    rintro irq fn data rfl
    rw [op_of_register ha] at hop
    exact hop

end Acks

/-! ### The later acknowledgement of a registration -/

lemma ack_of_enable (hstop : env.assertStops = true) (htcb : TcbAccepts env) {t : Vmm φ} {h : VirqHandle φ} {fn : φ}
    (hirq : 0 ≤ h.virq ∧ h.virq < 1024) (hhandle : t.vgic.handle h.virq = some h) (hfn : h.ackFn = some fn)
    (hpend : isPending t.dist h.virq vcpuId = false) (htcb' : t.tcb = .filled ((irqBit h.virq).setWidth 64)) :
    .ack fn vcpuId h.virq null ∈
      (outcome (step env (.fault (.vmFault (BitmapRegister.isenabler.addr env (h.virq / 32).toNat) storeWord))) t).log := by
  refine (wp_outcome (P := fun u : Vmm φ => Event.ack fn vcpuId h.virq null ∈ u.log)).mp ?_
  change wp (handleVmFault env _ storeWord >>= fun _ => pure ()) _ _ t
  rw [wp_bind]
  refine wp_bitmapWrite (by omega) ⟨by decide, by decide⟩ hstop (by decide) (fun h => absurd htcb h) ?_
  rw [htcb', storedWord_filled, registerIrqs_irqBit hirq.1]
  have hack : wp (vgicDistEnableIrq env vcpuId h.virq) (fun _ u => .ack fn vcpuId h.virq null ∈ u.log)
      (fun _ u => .ack fn vcpuId h.virq null ∈ u.log) t := by
    have hpend' : isPending (enabled t h.virq).dist h.virq vcpuId = false := by
      rw [← hpend]
      exact isPending_setEnable_self
    refine wp_vgicDistEnableIrq hstop (fun hneg => absurd hirq.1 (Int.not_le.mpr hneg)) (fun hskip => ?_) fun a ha _ => ?_
    · exact absurd (hskip h hhandle) (by simp [hpend'])
    · obtain rfl : h = a := Option.some.inj (hhandle.symm.trans ha)
      exact wp_mono (wp_virqAck_logged hstop hfn) (fun _ _ hu => hu.subset (by simp)) (fun _ _ hu => hu.subset (by simp))
  rw [List.map_singleton, List.forM_cons, wp_bind]
  refine wp_mono hack (fun _ u hu => ?_) (fun _ _ => id)
  exact ⟨List.mem_append_left _ hu, fun h => absurd htcb h⟩

section Map

variable {l : List (VirqHandle φ)}

/-- The successful registrations of the sequence that have a callback have no cookie. -/
lemma cookies_iff : (∀ h ∈ l.foldl accept [], h.ackFn.isSome → h.ackData = null) ↔
    (∀ h ∈ (spis l).take numSlotsSpiVirq, h.ackFn.isSome → h.ackData = null) ∧
      ∀ h : VirqHandle φ, h.virq < (numVcpuLocalVirqs : Int) →
        l.find? (fun a => decide (a.virq = h.virq)) = some h → h.ackFn.isSome → h.ackData = null := by
  have hlocal : ∀ h : VirqHandle φ, h.virq < (numVcpuLocalVirqs : Int) →
      (h ∈ l.foldl accept [] ↔ l.find? (fun a => decide (a.virq = h.virq)) = some h) := by
    intro h hlt
    have hmem : h ∈ l.foldl accept [] ↔ h ∈ (l.foldl accept []).filter fun a => decide (a.virq = h.virq) := by simp
    rw [hmem, filter_foldl_accept l hlt, Option.mem_toList]
  rw [← spis_foldl_accept]
  constructor
  · intro hall
    exact ⟨fun h hmem => hall h (mem_spis.mp hmem).1, fun h hlt hfind => hall h ((hlocal h hlt).mpr hfind)⟩
  · rintro ⟨hspi, hloc⟩ h hmem
    by_cases hlt : h.virq < (numVcpuLocalVirqs : Int)
    · exact hloc h hlt ((hlocal h hlt).mp hmem)
    · exact hspi h (mem_spis.mpr ⟨hmem, Int.not_lt.mp hlt⟩)

lemma unregistered_of_accepts {done : List (VirqHandle φ)} {h : VirqHandle φ}
    (hfresh : accepts done h = true → h.virq ∉ done.map VirqHandle.virq) :
    accepts done h = true ↔ Unregistered done h.virq := by
  refine ⟨fun hacc => ⟨hfresh hacc, fun hspi => ?_⟩, fun hun => ?_⟩
  · rw [accepts_spi hspi] at hacc
    exact of_decide_eq_true hacc
  · by_cases hlt : h.virq < (numVcpuLocalVirqs : Int)
    · rw [accepts, if_pos hlt]
      refine List.all_eq_true.mpr fun a ha => decide_eq_true fun hvirq => hun.1 ?_
      exact List.mem_map.mpr ⟨a, ha, hvirq⟩
    · rw [accepts_spi (Int.not_lt.mp hlt)]
      exact decide_eq_true (hun.2 (Int.not_lt.mp hlt))

lemma run_virqFindIrqData (hstop : env.assertStops = true) {s : Vmm φ} {irq : Int} (h0 : 0 ≤ irq) :
    ∃ p, virqFindIrqData env vcpuId irq s = .ok p s ∧ (p.bind fun p => (s.vgic.deref p).present) = s.vgic.handle irq := by
  have hrun : wp (virqFindIrqData env vcpuId irq) (fun p t => p = s.vgic.find irq ∧ t = s) (fun _ _ => False) s :=
    (wp_virqFindIrqData hstop irq).mpr ⟨fun _ => ⟨rfl, rfl⟩, fun hneg => absurd h0 (Int.not_le.mpr hneg)⟩
  obtain ⟨p, t, hok, rfl, rfl⟩ := ok_of_wp hrun
  exact ⟨_, hok, rfl⟩

lemma run_call (tcb : UserContext) {l₁ l₂ : List (VirqHandle φ)} {h : VirqHandle φ} (hl : ∀ a ∈ l₁ ++ h :: l₂, 0 ≤ a.virq) :
    ∃ s v, registerAll env l₁ (vgicInit env tcb) = .ok (l₁.foldl accept []) s ∧
      vgicRegisterIrq env vcpuId h.virq h.ackFn h.ackData s = .ok (accepts (l₁.foldl accept []) h) { s with vgic := v } ∧
      (accepts (l₁.foldl accept []) h = false → v = s.vgic) := by
  obtain ⟨u, hok, hu, hw, -⟩ := @run_registerAll _ env l₁ tcb fun a ha => hl a (by simp [ha])
  obtain ⟨v, hreg, -, -, -, hkept⟩ :=
    @run_vgicRegisterIrq _ env _ _ { vgicInit env tcb with vgic := u } hu hw (hl h (by simp))
  exact ⟨_, v, hok, hreg, hkept⟩

lemma RegistersAsMap.nodup {tcb : UserContext} (hmap : RegistersAsMap env tcb l) (hl : ∀ h ∈ l, 0 ≤ h.virq) :
    ((l.foldl accept []).map VirqHandle.virq).Nodup := by
  refine (nodup_iff_fresh l).mpr fun l₁ h l₂ heq hacc => ?_
  obtain ⟨done, s, b, t, hok, hreg, hiff, -⟩ := hmap.calls l₁ h l₂ heq
  obtain ⟨s', v, hok', hreg', -⟩ := @run_call _ env tcb _ _ _ (heq ▸ hl)
  obtain ⟨rfl, rfl⟩ := EStateM.Result.ok.inj (hok.symm.trans hok')
  obtain ⟨rfl, -⟩ := EStateM.Result.ok.inj (hreg.symm.trans hreg')
  exact (hiff.mp hacc).1

lemma RegistersAsMap.cookies (hstop : env.assertStops = true) (htcb : TcbAccepts env) {tcb : UserContext}
    (hmap : RegistersAsMap env tcb l) (hl : ∀ h ∈ l, 0 ≤ h.virq ∧ h.virq ≤ 1019) :
    ∀ h ∈ l.foldl accept [], h.ackFn.isSome → h.ackData = null := by
  intro h hmem hsome
  obtain ⟨fn, hfn⟩ := Option.isSome_iff_exists.mp hsome
  obtain ⟨v, hall, hv, -, -⟩ := @run_registerAll _ env _ tcb fun a ha => (hl a ha).1
  obtain ⟨done, s, hok, -, hacks⟩ := hmap.after
  obtain ⟨rfl, rfl⟩ := EStateM.Result.ok.inj (hok.symm.trans hall)
  have hrange := hl h (mem_of_mem_foldl_accept hmem)
  have hnodup := hmap.nodup fun a ha => (hl a ha).1
  have hfind : v.handle h.virq = some h := by rw [hv.handle hrange.1, find?_of_mem hnodup hmem]
  -- the guest enables the interrupt in the state that the registrations leave
  have hguest : Reach (fun u => u = { vgicInit env tcb with vgic := v }) (fun _ op => NotRegister op) (step env)
      { vgicInit env tcb with vgic := v, tcb := .filled ((irqBit h.virq).setWidth 64) } :=
    .step (.guest (.filled ((irqBit h.virq).setWidth 64))) (.init rfl) trivial rfl
  have hlogged := ack_of_enable (t := { vgicInit env tcb with vgic := v, tcb := .filled ((irqBit h.virq).setWidth 64) })
    hstop htcb (by omega) hfind hfn (isPending_reset tcb (by omega)) rfl
  obtain ⟨a, ha, hvirq, -, hcookie⟩ := hacks _ hguest (.fault (.vmFault _ storeWord)) trivial _ _ _ _ hlogged
  rw [← List.inj_on_of_nodup_map hnodup ha hmem hvirq, hcookie]

lemma registersAsMap_of (hstop : env.assertStops = true) (tcb : UserContext) (hl : ∀ h ∈ l, 0 ≤ h.virq)
    (hnodup : ((l.foldl accept []).map VirqHandle.virq).Nodup)
    (hcookies : ∀ h ∈ l.foldl accept [], h.ackFn.isSome → h.ackData = null) : RegistersAsMap env tcb l := by
  obtain ⟨v, hall, hv, hw, hview⟩ := @run_registerAll _ env _ tcb hl
  have hfollows : Follows (l.foldl accept []) { vgicInit env tcb with vgic := v } := by
    refine ⟨hw, fun irq h hh => ?_, fun h hmem => ?_, fun _ _ _ _ hmem => absurd hmem (by simp [vgicInit])⟩
    · change v.handle irq = some h at hh
      rw [hv.handle (Vgic.nonneg_of_handle hh)] at hh
      exact List.mem_of_find?_eq_some hh
    · change h ∈ v.view.residents at hmem
      rw [hview] at hmem
      exact absurd hmem (by simp [residents_init])
  refine ⟨fun l₁ h l₂ heq => ?_, _, _, hall, fun irq hirq => ?_, fun t ht op hop fn vcpu irq cookie hmem => ?_⟩
  · obtain ⟨s, u, hok, hreg, hkept⟩ := @run_call _ env tcb _ _ _ (heq ▸ hl)
    refine ⟨_, s, _, _, hok, hreg, unregistered_of_accepts ((nodup_iff_fresh l).mp hnodup l₁ h l₂ heq), fun hrefused => ?_⟩
    rw [hkept hrefused]
  · obtain ⟨p, hok, hp⟩ := @run_virqFindIrqData _ env hstop { vgicInit env tcb with vgic := v } _ hirq.1
    refine ⟨p, hok, ?_⟩
    rw [hp, filter_eq_find?_toList hnodup, ← hv.handle hirq.1]
  · obtain ⟨rfl, h, hh, hvirq, hfn⟩ := hfollows.run hstop ht hop fn vcpu irq cookie hmem
    exact ⟨h, hh, hvirq, hfn, hcookies h hh (by rw [hfn]; rfl)⟩

/-- Registration is a finite map exactly when the SPIs that find a slot are distinct and no successful
registration with a callback has a cookie. -/
theorem registersAsMap_iff (hstop : env.assertStops = true) (htcb : TcbAccepts env) (tcb : UserContext)
    (hl : ∀ h ∈ l, 0 ≤ h.virq ∧ h.virq ≤ 1019) : RegistersAsMap env tcb l ↔ Clean l := by
  have hpos : ∀ h ∈ l, 0 ≤ h.virq := fun h hmem => (hl h hmem).1
  have hclean : Clean l ↔ ((l.foldl accept []).map VirqHandle.virq).Nodup ∧
      ∀ h ∈ l.foldl accept [], h.ackFn.isSome → h.ackData = null := by
    rw [nodup_foldl_accept, cookies_iff]
    exact ⟨fun h => ⟨h.distinct, h.spi, h.localVirq⟩, fun h => ⟨h.1, h.2.1, h.2.2⟩⟩
  rw [hclean]
  exact ⟨fun hmap => ⟨hmap.nodup hpos, hmap.cookies hstop htcb hl⟩, fun h => registersAsMap_of hstop tcb hpos h.1 h.2⟩

end Map

/-- The timer and the serial line, as `vmm.c` registers them. -/
theorem registersAsMap_iff_vmm : RegistersAsMap (vmmEnv .qemuArmVirtHyp) (.filled 0)
    [⟨27, some .vppiEventAck, null⟩, ⟨33, some .serialAck, null⟩] := by
  refine (registersAsMap_iff rfl (vmmEnv_tcb _) _ (by decide)).mpr ⟨by decide, fun h hmem _ => ?_, fun h _ hfind _ => ?_⟩
  · have hin := (mem_spis.mp (List.mem_of_mem_take hmem)).1
    simp only [List.mem_cons, List.not_mem_nil, or_false] at hin
    rcases hin with rfl | rfl <;> rfl
  · have hin := List.mem_of_find?_eq_some hfind
    simp only [List.mem_cons, List.not_mem_nil, or_false] at hin
    rcases hin with rfl | rfl <;> rfl

/-- An SPI can be registered twice, and a cookie is lost. -/
theorem registered_twice_or_cookie_lost :
    ¬RegistersAsMap (vmmEnv .qemuArmVirtHyp) (.filled 0) [⟨33, some .serialAck, null⟩, ⟨33, some .sgiAck, null⟩] ∧
      ¬RegistersAsMap (vmmEnv .qemuArmVirtHyp) (.filled 0) [⟨33, some .serialAck, 0x1000⟩] := by
  refine ⟨fun hmap => ?_, fun hmap => ?_⟩
  · exact absurd (hmap.nodup (by decide)) (by decide)
  · have hcookie := hmap.cookies rfl (vmmEnv_tcb _) (by decide) ⟨33, some .serialAck, 0x1000⟩ (by simp [accept, accepts, spis])
      rfl
    exact absurd hcookie (by decide)

end Sel4cpVmm
