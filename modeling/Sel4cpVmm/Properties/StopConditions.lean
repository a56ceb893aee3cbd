import Sel4cpVmm.Lib.StopCondition
import Sel4cpVmm.Properties.BootedSystem
import Sel4cpVmm.Properties.FaultRouting

/-!
# What stops the VMM

With at most four interrupts, each with a callback, a step from a state that the VMM reaches stops it under a condition
that can be read off the step, the guest's registers and the list registers. So these are the ways in which a guest
can stop the VMM.
-/

namespace Sel4cpVmm

open StopProgram

variable {φ : Type} {env : Env φ} {hs : List (VirqHandle φ)} {s t : Vmm φ}

/-! ### The conditions -/

/-- `vgic_dist_set_pending_irq` finds no handle for the interrupt. -/
def Unattached (hs : List (VirqHandle φ)) (irq : Int) : Prop :=
  irq < 0 ∨ (numVcpuLocalVirqs : Int) ≤ irq ∧ irq ∉ hs.map VirqHandle.virq

instance (hs : List (VirqHandle φ)) (irq : Int) : Decidable (Unattached hs irq) := inferInstanceAs (Decidable (_ ∨ _ ∧ _))

/-- No list register of this index is occupied. -/
def NotPresent (s : Vmm φ) (idx : Int) : Prop :=
  ¬∃ k : Fin numListRegs, ((k : Nat) : Int) = idx ∧ (s.vgic.view.slot k).isSome

/-- A trapped access that is passed to the handler stops the VMM. -/
def AccessStops (env : Env φ) (hs : List (VirqHandle φ)) (s : Vmm φ) (addr fsr : U64) : VmFaultHandler → Prop
  | .dist =>
    if faultIsRead fsr then
      distRead env.board.gic vcpuId (addr - env.board.gicDistPaddr).toNat ≠ .unknown ∧ ¬AccessOk addr fsr
    else
      ¬AccessOk addr fsr ∨ WritesDist env (fun w => w = .sgiPending) addr fsr ∨
        WritesDist env (fun w => w = .ispendr) addr fsr ∧ ∃ irq ∈ accessIrqs env s addr fsr, Unattached hs irq
  | .redist =>
    ¬addr - Board.gicRedistPaddr < Board.gicRedistSize ∨
      if faultIsRead fsr then
        redistRead vcpuId (addr - Board.gicRedistPaddr).toNat ≠ .unknown ∧ ¬AccessOk addr fsr
      else ¬AccessOk addr fsr
  | .unexpected => True

/-- The step stops the VMM. -/
def StepStops (env : Env φ) (hs : List (VirqHandle φ)) (s : Vmm φ) : Op φ → Prop
  | .registerIrq irq _ _ => irq < 0
  | .injectIrq irq => Unattached hs irq
  | .notification irq => Unattached hs irq
  | .guest _ => False
  | .retire idx => NotPresent s idx
  | .fault (.vmFault addr fsr) => AccessStops env hs s addr fsr (vmFaultHandler env.board addr)
  | .fault (.vgicMaintenance idx err) => NotPresent s (cInt idx) ∨ err ≠ 0
  | .fault (.vppiEvent irq) => Unattached hs (cInt irq)
  | .fault _ => False

lemma stopsIff_cAssert (hstop : env.assertStops = true) (c : Bool) :
    StopsIff (c = false) (fun _ t => t = s) (cAssert env c) s :=
  ⟨fun hc => (wp_cAssert_stops hstop c).mpr ⟨fun _ => rfl, hc⟩,
    fun hc => (wp_cAssert_stops hstop c).mpr ⟨fun h => absurd hc (by simp [h]), fun _ => trivial⟩⟩

/-! ### States -/

/-- The kernel accepts every call; there are at most four interrupts, each with a callback, and the callbacks inject
none without a handle. -/
structure Serves (env : Env φ) (hs : List (VirqHandle φ)) : Prop where
  asserts : env.assertStops = true
  kernel : KernelAccepts env
  tcb : TcbAccepts env
  range : ∀ i ∈ hs.map VirqHandle.virq, 0 ≤ i ∧ i < irqLimit
  few : (hs.map VirqHandle.virq).length ≤ numListRegs
  acked : ∀ h ∈ hs, h.ackFn.isSome
  injects : ∀ fn vcpu irq cookie u i, AckCall.injectIrq i ∈ env.ackFn fn vcpu irq cookie u → ¬Unattached hs i

/-- The tables hold the handles, and nothing else is in flight. -/
structure Attached (hs : List (VirqHandle φ)) (s : Vmm φ) : Prop where
  settled : Settled (hs.map VirqHandle.virq) s
  tables : Holds hs s.vgic
  held : ∀ h ∈ s.vgic.view.residents, h ∈ hs

lemma Holds.congr {v v' : Vgic φ} (hd : Holds hs v) (h : v'.deref = v.deref) : Holds hs v' :=
  ⟨hd.nonneg, by rw [h]; exact hd.localVirqs, by rw [h]; exact hd.spi, hd.room⟩

section Attached

variable (hA : Attached hs s) {irq : Int}

include hA

lemma Attached.find_isSome_iff : (s.vgic.find irq).isSome ↔ ¬Unattached hs irq := by
  unfold Unattached
  rw [not_or, not_lt, not_and, not_not]
  constructor
  · intro hfind
    obtain ⟨p, hp⟩ := Option.isSome_iff_exists.mp hfind
    have h0 := Vgic.nonneg_of_find hp
    refine ⟨h0, fun hspi => ?_⟩
    obtain ⟨h, hh⟩ := Option.isSome_iff_exists.mp (Vgic.handle_isSome_of_find hspi hfind)
    rw [hA.tables.handle h0] at hh
    exact List.mem_map.mpr ⟨h, List.mem_of_find?_eq_some hh, by simpa using List.find?_some hh⟩
  · rintro ⟨h0, hspi⟩
    by_cases hlt : irq < (numVcpuLocalVirqs : Int)
    · exact Vgic.find_isSome_of_local ⟨h0, hlt⟩
    · obtain ⟨h, hh, hvirq⟩ := List.mem_map.mp (hspi (not_lt.mp hlt))
      have hhandle : (s.vgic.handle irq).isSome := by
        rw [hA.tables.handle h0, List.find?_isSome]
        exact ⟨h, hh, by simpa using hvirq⟩
      obtain ⟨b, hb⟩ := Option.isSome_iff_exists.mp hhandle
      obtain ⟨p, hp, -⟩ := Option.bind_eq_some_iff.mp hb
      rw [hp]
      rfl

lemma Attached.mem_of_handle {h : VirqHandle φ} (hh : s.vgic.handle irq = some h) : h ∈ hs := by
  rw [hA.tables.handle (Vgic.nonneg_of_handle hh)] at hh
  exact List.mem_of_find?_eq_some hh

lemma Attached.logged (e : Event φ) (hfail : ∀ i, .enqueueFailed i ≠ e) (hother : e.isOther = true) :
    Attached hs { s with log := s.log ++ [e] } :=
  ⟨hA.settled.logged e hfail hother, hA.tables, hA.held⟩

variable (hE : Serves env hs)

include hE

lemma Attached.injected {b : Bool} (h : Injected env s irq b t) : Attached hs t := by
  refine ⟨hA.settled.injected hE.range hE.few h, hA.tables.congr h.deref, fun a ha => ?_⟩
  cases h with
  | refused => exact hA.held a ha
  | pending => exact hA.held a ha
  | accepted hcan _ hacc =>
    rw [hacc.view, SlotQueue.residents_offer, Multiset.mem_cons] at ha
    rcases ha with rfl | ha
    · exact hA.mem_of_handle hcan.handle
    · exact hA.held a ha

/-! ### The functions -/

/-- An injection stops the VMM when there is no handle for the interrupt. -/
lemma Attached.inject (irq : Int) :
    StopsIff (Unattached hs irq) (fun _ t => Attached hs t) (vgicInjectIrq env vcpuId irq) s := by
  have hinject := @wp_inject φ env s vcpuId irq hE.asserts hA.settled.wf
  have hends : StopsIff (Unattached hs irq) (Injected env s irq) (vgicInjectIrq env vcpuId irq) s := by
    refine stopsIff_of_error hinject (fun e t hstop => ?_) fun b t hi => ?_
    · by_contra hno
      have hfind := hA.find_isSome_iff.mpr hno
      cases hstop with
      | negative hneg => exact hno (.inl hneg)
      | noHandle _ hnone => simp [hnone] at hfind
      | full _ _ hfull => simp [hA.settled.waiting] at hfull
      | rejected _ hk => exact hk hE.kernel
    · refine hA.find_isSome_iff.mp ?_
      have hcan : ∀ h, CanInject env s irq h → (s.vgic.find irq).isSome := fun h hcan => by
        obtain ⟨p, hp, -⟩ := Option.bind_eq_some_iff.mp hcan.handle
        simp [hp]
      cases hi with
      | refused hfind => exact hfind
      | pending hc => exact hcan _ hc
      | accepted hc => exact hcan _ hc
  exact hends.mono fun b t hi => hA.injected hE hi

lemma Attached.runAckCall (c : AckCall) (hc : ∀ i, c = .injectIrq i → ¬Unattached hs i) :
    StopsIff False (fun _ t => Attached hs t) (runAckCall env c) s := by
  cases c with
  | irqAck ch => exact stopsIff_of_wp ((wp_logEvent _).mpr (hA.logged _ (by simp) rfl))
  | vcpuAckVppi irq =>
    refine stopsIff_of_wp ?_
    simp only [Sel4cpVmm.runAckCall, vcpuAckVppi, wp_bind, wp_get, wp_logEvent, wp_pure, hE.kernel.vcpuAckVppi, decide_true,
      wp_cAssert_true]
    exact hA.logged _ (by simp) rfl
  | injectIrq irq =>
    have hinject : StopsIff (Unattached hs irq) (fun _ t => Attached hs t) (Sel4cpVmm.runAckCall env (.injectIrq irq)) s :=
      stopsIff_bind_left (hA.inject hE irq) fun _ _ ht => stopsIff_pure ht
    exact hinject.congr (by simpa using hc irq rfl)

lemma Attached.ack {h : VirqHandle φ} (hh : h ∈ hs) :
    StopsIff False (fun _ t => Attached hs t) (virqAck env vcpuId h) s := by
  obtain ⟨fn, hfn⟩ := Option.isSome_iff_exists.mp (hE.acked h hh)
  have hlogged : Attached hs { s with log := s.log ++ [.ack fn vcpuId h.virq null] } := hA.logged _ (by simp) rfl
  have hcalls := stopsIff_forM (f := Sel4cpVmm.runAckCall env) (P := fun _ => False) (I := fun t => Attached hs t)
    (l := env.ackFn fn vcpuId h.virq null { s with log := s.log ++ [.ack fn vcpuId h.virq null] })
    (fun c hc t ht => ht.runAckCall hE c fun i hi => hE.injects _ _ _ _ _ i (hi ▸ hc)) hlogged
  refine stopsIff_of_wp ?_
  unfold virqAck
  simp only [hfn, Option.isSome_some]
  rw [wp_bind, wp_cAssert_true, wp_bind, wp_logEvent, wp_bind, wp_get]
  exact hcalls.ends (by simp)

lemma Attached.enable {irq : Int} (h0 : 0 ≤ irq) :
    StopsIff False (fun _ t => Attached hs t) (vgicDistEnableIrq env vcpuId irq) s := by
  have henabled : Attached hs (enabled s irq) :=
    ⟨hA.settled.same (l := []) rfl (fun _ => isPending_setEnable_true) (by simp [enabled]) (by simp) (by simp),
      hA.tables, hA.held⟩
  refine stopsIff_of_wp (wp_vgicDistEnableIrq hE.asserts (fun hneg => absurd h0 (not_le.mpr hneg)) (fun _ => henabled) ?_)
  exact fun h hh _ => (henabled.ack hE (hA.mem_of_handle hh)).ends id

/-- Maintenance stops the VMM when it is not about an occupied list register. -/
lemma Attached.maintenance (idx err : Int) :
    StopsIff (NotPresent s idx) (fun r t => Attached hs t ∧ r = err) (vgicMaintenanceBody env idx err) s := by
  by_cases hidx : 0 ≤ idx ∧ idx < (numListRegs : Int)
  · obtain ⟨k, rfl⟩ : ∃ k : Fin numListRegs, ((k : Nat) : Int) = idx := ⟨⟨idx.toNat, by omega⟩, by simp; omega⟩
    have hkk : ∀ j : Fin numListRegs, ((j : Nat) : Int) = ((k : Nat) : Int) ↔ j = k := fun j => by
      rw [Nat.cast_inj, Fin.val_inj]
    cases hslot : s.vgic.view.slot k with
    | none =>
      refine (stopsIff_of_stop ?_).congr (iff_true_intro (by simp [NotPresent, hkk, hslot]))
      exact (wp_vgicMaintenanceBody hE.asserts).mpr ⟨fun _ => trivial, fun h hh => by simp [hslot] at hh⟩
    | some h =>
      refine (stopsIff_of_wp ?_).congr (iff_false_intro (by simp [NotPresent, hkk, hslot]))
      have hmem : h ∈ s.vgic.view.residents := SlotQueue.mem_residents.mpr (.inl ⟨k, hslot⟩)
      have hfreed : Attached hs (freed s k h) := by
        refine ⟨hA.settled.freed hE.range hslot, hA.tables.congr Vgic.deref_setLr, fun a ha => hA.held a ?_⟩
        rw [SlotQueue.residents_free hslot, ← view_freed]
        exact Multiset.mem_cons_of_mem ha
      refine (wp_vgicMaintenanceBody hE.asserts).mpr ⟨fun hnone => by simp [hslot] at hnone, fun b hb => ?_⟩
      obtain rfl : b = h := Option.some.inj (hb.symm.trans hslot)
      refine wp_mono ((hfreed.ack hE (hA.held b hmem)).ends id) (fun _ t ht => ?_) (fun _ _ => id)
      refine wp_mono (wp_refill hE.asserts ht.settled.wf fun hk => absurd hE.kernel hk) (fun r u hu => ?_) (fun _ _ => id)
      obtain ⟨hsettled, hview⟩ := ht.settled.refilled hu.1
      refine ⟨⟨hsettled, ht.tables.congr hu.1.deref, hview ▸ ht.held⟩, ?_⟩
      rw [hu.2, refillResult, if_pos ht.settled.waiting]
  · refine (stopsIff_of_stop (wp_vgicMaintenanceBody_range hE.asserts hidx trivial)).congr (iff_true_intro ?_)
    rintro ⟨k, rfl, -⟩
    have hk := k.isLt
    exact hidx ⟨by omega, by omega⟩

end Attached

/-! ### Trapped accesses -/

section Access

/-- Operations that stop in no state. -/
def Action.NeverStops : Action φ → Prop
  | .disable _ => True
  | .clearEnable _ => True
  | .clrPending _ => True
  | .store _ _ _ => True
  | .ctlr _ => True
  | _ => False

lemma Action.NeverStops.wp {a : Action φ} (ha : a.NeverStops) :
    StopProgram.wp (a.run env) (fun _ t => t.vgic = s.vgic) (fun _ _ => False) s := by
  cases a with
  | disable irq =>
    rw [Action.run, vgicDistDisableIrq, wp_ite, wp_modifyDist, wp_pure]
    exact ⟨fun _ => rfl, fun _ => rfl⟩
  | clearEnable irq => rfl
  | clrPending irq => rfl
  | store w mask bits => rfl
  | ctlr data =>
    rw [Action.run, writeCtlr, wp_ite, wp_ite, wp_modifyDist, wp_modifyDist, wp_pure]
    exact ⟨fun _ => rfl, fun _ => ⟨fun _ => rfl, fun _ => rfl⟩⟩
  | _ => exact ha.elim

lemma stopsIff_still {l : List (Action φ)} (h : ∀ a ∈ l, a.NeverStops) :
    StopsIff False (fun _ _ => True) (forM l (Action.run env)) s :=
  stopsIff_of_wp (wp_forM_keeps (I := fun _ => True)
    (fun a ha _ _ => wp_mono (h a ha).wp (fun _ _ _ => trivial) (fun _ _ => id)) trivial)

variable (hA : Attached hs s) (hE : Serves env hs)

include hA hE

lemma stopsIff_enables {l : List Int} (h0 : ∀ i ∈ l, 0 ≤ i) :
    StopsIff False (fun _ _ => True) (forM (l.map Action.enable) (Action.run env)) s := by
  have hloop := stopsIff_forM (P := fun _ => False) (I := fun t => Attached hs t) (l := l)
    (f := fun i => (Action.enable i).run env) (fun i hi t ht => ht.enable hE (h0 i hi)) hA
  rw [List.forM_map]
  exact (hloop.mono fun _ _ _ => trivial).congr (by simp)

lemma stopsIff_injects (l : List Int) :
    StopsIff (∃ irq ∈ l, Unattached hs irq) (fun _ _ => True) (forM (l.map Action.inject) (Action.run env)) s := by
  have hloop := stopsIff_forM (P := Unattached hs) (I := fun t => Attached hs t) (l := l)
    (f := fun i => (Action.inject i).run env)
    (fun i _ t ht => stopsIff_bind_left (ht.inject hE i) fun _ _ hu => stopsIff_pure hu) hA
  rw [List.forM_map]
  exact hloop.mono fun _ _ _ => trivial

/-- The operations of a distributor write stop at an unregistered SPI, and at the SGI pending registers. -/
lemma stopsIff_distActions (g : GicVersion) (offset : Nat) (addr fsr val : U64) :
    StopsIff (distWrite g vcpuId offset = .sgiPending ∨ distWrite g vcpuId offset = .ispendr ∧
        ∃ irq ∈ writeIrqs g offset (val.setWidth 32 &&& (dataMask addr fsr).setWidth 32), Unattached hs irq)
      (fun _ _ => True) (forM (distActions g offset addr fsr val) (Action.run env)) s := by
  have h0 : ∀ i ∈ writeIrqs g offset (val.setWidth 32 &&& (dataMask addr fsr).setWidth 32), 0 ≤ i :=
    fun i hi => nonneg_of_mem_writeIrqs hi
  have hsgi : ¬Unattached hs (sgirVirq (val.setWidth 32)) := by
    have hlt := sgirVirq_lt (val.setWidth 32)
    simp only [Unattached, numVcpuLocalVirqs]
    omega
  unfold distActions
  cases hk : distWrite g vcpuId offset with
  | isenabler => exact (stopsIff_enables hA hE h0).congr (by simp)
  | ispendr => exact (stopsIff_injects hA hE _).congr (by simp)
  | sgir =>
    have hinjects := stopsIff_injects hA hE
      ((sgirTargetList vcpuId (val.setWidth 32)).toList.map fun _ => sgirVirq (val.setWidth 32))
    rw [List.map_map] at hinjects
    refine hinjects.congr ((iff_false_intro (by simp)).trans (iff_false_intro ?_).symm)
    rintro ⟨irq, hmem, hun⟩
    obtain ⟨l, -, rfl⟩ := List.mem_map.mp hmem
    exact hsgi hun
  | sgiPending =>
    refine (stopsIff_of_stop ?_).congr (by simp)
    simp only [List.forM_cons, List.forM_nil, Action.run]
    rw [wp_bind, wp_cAssert_stops hE.asserts]
    exact ⟨fun h => absurd h (by simp), fun _ => trivial⟩
  | _ => exact (stopsIff_still (by simp [Action.NeverStops])).congr (by simp)

lemma stopsIff_redistActions (offset : Nat) (addr fsr val : U64) :
    StopsIff False (fun _ _ => True) (forM (redistActions offset addr fsr val) (Action.run env)) s := by
  unfold redistActions
  cases hk : redistWrite vcpuId offset with
  | isenabler0 =>
    refine stopsIff_enables hA hE fun i hi => ?_
    obtain ⟨k, -, rfl⟩ := List.mem_map.mp hi
    exact Int.natCast_nonneg k
  | _ => exact stopsIff_still (by simp [Action.NeverStops])

/-! ### Reads and writes -/

variable {addr fsr offset : U64} {regs : UserContext}

omit hA

lemma stopsIff_advance (regs : UserContext) (s : Vmm φ) :
    StopsIff False (fun _ _ => True) (faultAdvanceVcpu env regs) s :=
  stopsIff_of_wp (wp_faultAdvanceVcpu hE.asserts (fun h => absurd hE.tcb h) trivial)

lemma stopsIff_finishRead (hread : faultIsRead fsr = true) (reg : U32) (s : Vmm φ) :
    StopsIff (¬AccessOk addr fsr) (fun _ _ => True) (finishRead env regs addr fsr reg) s :=
  ⟨fun hok => wp_finishRead hE.asserts (fun h => absurd hE.tcb h) hok hread fun _ => trivial,
    fun hbad => wp_finishRead hE.asserts (fun h => absurd hE.tcb h) (fun _ => trivial) hread hbad⟩

/-- A read checks the access except where it finds no register. -/
lemma stopsIff_distRead (haddr : env.board.gicDistPaddr + offset = addr) (hread : faultIsRead fsr = true) :
    StopsIff (distRead env.board.gic vcpuId offset.toNat ≠ .unknown ∧ ¬AccessOk addr fsr) (fun _ _ => True)
      (vgicDistRegRead env vcpuId offset fsr regs) s := by
  unfold vgicDistRegRead
  refine stopsIff_bind_right (R := fun _ _ => True) (stopsIff_of_wp (by simp)) fun u t _ => ?_
  dsimp only
  rw [haddr]
  cases hk : distRead env.board.gic vcpuId offset.toNat with
  | unknown =>
    refine (stopsIff_bind_left (stopsIff_advance hE regs t) fun _ _ _ => stopsIff_pure trivial).congr (by simp)
  | zero => exact (stopsIff_finishRead hE hread _ t).congr (by simp)
  | word w => exact (stopsIff_finishRead hE hread _ t).congr (by simp)
  | raw a => exact (stopsIff_finishRead hE hread _ t).congr (by simp)

lemma stopsIff_redistRead (haddr : Board.gicRedistPaddr + offset = addr) (hread : faultIsRead fsr = true) :
    StopsIff (redistRead vcpuId offset.toNat ≠ .unknown ∧ ¬AccessOk addr fsr) (fun _ _ => True)
      (handleVgicRedistReadFault env vcpuId offset fsr regs) s := by
  unfold handleVgicRedistReadFault
  refine stopsIff_bind_right (R := fun _ _ => True) (stopsIff_of_wp (by simp)) fun u t _ => ?_
  dsimp only
  rw [haddr]
  cases hk : redistRead vcpuId offset.toNat with
  | unknown =>
    refine (stopsIff_bind_left (stopsIff_advance hE regs t) fun _ _ _ => stopsIff_pure trivial).congr (by simp)
  | redistWord w => exact (stopsIff_finishRead hE hread _ t).congr (by simp)
  | redistRaw a => exact (stopsIff_finishRead hE hread _ t).congr (by simp)
  | distRaw a => exact (stopsIff_finishRead hE hread _ t).congr (by simp)

lemma stopsIff_distWrite {p : Prop} (haddr : env.board.gicDistPaddr + offset = addr) (hwrite : faultIsWrite fsr = true)
    (hactions : StopsIff p (fun _ _ => True)
      (forM (distActions env.board.gic offset.toNat addr fsr (rtValue regs fsr s.wzr)) (Action.run env)) s) :
    StopsIff (¬AccessOk addr fsr ∨ p) (fun _ _ => True) (vgicDistRegWrite env vcpuId offset fsr regs) s := by
  have hkernel : ∀ t : Vmm φ, ¬TcbAccepts env → ∀ u, Frame t u → False := fun _ h => absurd hE.tcb h
  constructor
  · intro hno
    obtain ⟨hok, hp⟩ := not_or.mp hno
    refine wp_vgicDistRegWrite hE.asserts hok haddr hwrite fun _ => ?_
    exact wp_mono (hactions.ends hp) (fun _ t _ => ⟨trivial, hkernel t⟩) (fun _ _ => id)
  · intro hor
    refine wp_vgicDistRegWrite hE.asserts (fun _ => trivial) haddr hwrite fun hok => ?_
    exact wp_mono (hactions.stops (hor.resolve_left (not_not.mpr hok))) (fun _ _ => False.elim) (fun _ _ => id)

lemma stopsIff_redistWrite (haddr : Board.gicRedistPaddr + offset = addr) (hwrite : faultIsWrite fsr = true)
    (hactions : StopsIff False (fun _ _ => True)
      (forM (redistActions offset.toNat addr fsr (rtValue regs fsr s.wzr)) (Action.run env)) s) :
    StopsIff (¬AccessOk addr fsr) (fun _ _ => True) (handleVgicRedistWriteFault env vcpuId offset fsr regs) s := by
  have hkernel : ∀ t : Vmm φ, ¬TcbAccepts env → ∀ u, Frame t u → False := fun _ h => absurd hE.tcb h
  constructor
  · intro hok
    refine wp_handleVgicRedistWriteFault hE.asserts hok haddr hwrite fun _ => ?_
    exact wp_mono (hactions.ends id) (fun _ t _ => ⟨trivial, hkernel t⟩) (fun _ _ => id)
  · intro hbad
    exact wp_handleVgicRedistWriteFault hE.asserts (fun _ => trivial) haddr hwrite fun hok => absurd hok hbad

include hA

lemma stopsIff_distFault (h : vmFaultHandler env.board addr = .dist) :
    StopsIff (AccessStops env hs s addr fsr .dist) (fun _ _ => True) (handleVgicDistFault env vcpuId addr fsr s.tcb) s := by
  have haddr : env.board.gicDistPaddr + (addr - env.board.gicDistPaddr) = addr := base_add_sub _ _
  have hin : InDist env addr := by
    unfold vmFaultHandler at h
    dsimp only at h
    split_ifs at h with hin
    exact hin
  unfold handleVgicDistFault AccessStops
  refine stopsIff_bind_right ((stopsIff_cAssert hE.asserts _).congr (iff_of_false id (by simp [hin.le]))) ?_
  rintro _ t rfl
  dsimp only
  split_ifs with hread
  · exact stopsIff_distRead hE haddr hread
  · have hwrite := faultIsWrite_of_not_read hread
    refine (stopsIff_distWrite hE haddr hwrite (stopsIff_distActions hA hE _ _ _ _ _)).congr ?_
    simp only [WritesDist, hwrite, true_and, accessIrqs, if_true]

lemma stopsIff_redistFault (h : vmFaultHandler env.board addr = .redist) :
    StopsIff (AccessStops env hs s addr fsr .redist) (fun _ _ => True)
      (handleVgicRedistFault env vcpuId addr fsr s.tcb) s := by
  have haddr : Board.gicRedistPaddr + (addr - Board.gicRedistPaddr) = addr := base_add_sub _ _
  have hle : Board.gicRedistPaddr ≤ addr := by
    unfold vmFaultHandler at h
    dsimp only at h
    split_ifs at h with _ hin
    exact le_of_pageInRange hin.2
  unfold handleVgicRedistFault AccessStops
  refine stopsIff_bind_right ((stopsIff_cAssert hE.asserts _).congr (iff_of_false id (by simp [hle]))) ?_
  rintro _ t rfl
  dsimp only
  refine stopsIff_bind ((stopsIff_cAssert hE.asserts _).congr decide_eq_false_iff_not.symm) ?_
  rintro _ u rfl
  split_ifs with hread
  · exact stopsIff_redistRead hE haddr hread
  · exact stopsIff_redistWrite hE haddr (faultIsWrite_of_not_read hread) (stopsIff_redistActions hA hE _ _ _ _)

lemma stopsIff_vmFault (addr fsr : U64) :
    StopsIff (AccessStops env hs s addr fsr (vmFaultHandler env.board addr)) (fun _ _ => True)
      (handleVmFault env addr fsr) s := by
  rw [passesTo_vmFaultHandler addr fsr]
  refine stopsIff_bind_right (R := fun p t => p = (env.tcbReadRegisters s, s.tcb) ∧ t = s) (stopsIff_of_wp ?_) ?_
  · simp only [tcbReadRegisters, wp_bind, wp_get, wp_pure, and_self]
  rintro _ t ⟨rfl, rfl⟩
  dsimp only
  refine stopsIff_bind_right ((stopsIff_cAssert hE.asserts _).congr (iff_of_false id ?_)) ?_
  · simp [hE.tcb.readRegisters]
  rintro _ u rfl
  cases h : vmFaultHandler env.board addr with
  | dist => exact stopsIff_distFault hA hE h
  | redist => exact stopsIff_redistFault hA hE h
  | unexpected =>
    exact (stopsIff_bind_left (stopsIff_cAssert hE.asserts false) fun _ _ _ => stopsIff_pure trivial).congr
      (iff_of_true trivial rfl)

end Access

/-! ### Steps -/

section Steps

variable (hA : Attached hs s) (hE : Serves env hs)

include hE

lemma stopsIff_tcbRead {α : Type} {p : Prop} {f : Int × UserContext → M φ α}
    (hf : StopsIff p (fun _ _ => True) (f (0, s.tcb)) s) : StopsIff p (fun _ _ => True) (tcbReadRegisters env >>= f) s := by
  refine stopsIff_bind_right (R := fun p t => p = (0, s.tcb) ∧ t = s) (stopsIff_of_wp ?_) ?_
  · simp only [tcbReadRegisters, wp_bind, wp_get, wp_pure, hE.tcb.readRegisters, and_self]
  · rintro _ t ⟨rfl, rfl⟩
    exact hf

lemma stopsIff_userException : StopsIff False (fun _ _ => True) (handleUserException env) s :=
  stopsIff_tcbRead hE (stopsIff_pure trivial)

lemma stopsIff_unknownSyscall (syscall : U64) :
    StopsIff False (fun _ _ => True) (handleUnknownSyscall env syscall) s := by
  refine stopsIff_tcbRead hE (stopsIff_of_wp ?_)
  simp only [decide_true, wp_bind, wp_cAssert_true, wp_ite, wp_pure, tcbWriteRegisters, wp_get, wp_logEvent, wp_modify,
    hE.tcb.writeRegisters, implies_true, and_self]

lemma stopsIff_vcpuFault (hsr : U64) : StopsIff False (fun _ _ => True) (handleVcpuFault env hsr) s := by
  have hpsci : ∀ regs n t, wp (handlePsci env regs n) (fun _ _ => True) (fun _ _ => False) t := by
    intro regs n t
    unfold handlePsci
    cases psciReturnValue regs n with
    | none => trivial
    | some val =>
      rw [wp_bind]
      refine wp_faultAdvanceVcpu hE.asserts (fun h => absurd hE.tcb h) ?_
      rw [wp_bind, Bool.not_false, wp_cAssert_true]
      trivial
  have hsmc : StopsIff False (fun _ _ => True) (handleSmc env) s := by
    refine stopsIff_tcbRead hE (stopsIff_of_wp ?_)
    simp only [decide_true, wp_bind, wp_cAssert_true]
    cases smcGetCall s.tcb.x[0] with
    | stdService => exact (wp_ite _ _ _ _ _ _).mpr ⟨fun _ => hpsci _ _ _, fun _ => trivial⟩
    | _ => trivial
  refine stopsIff_of_wp ?_
  unfold handleVcpuFault
  simp only [wp_ite, wp_bind, wp_replyToFault, wp_pure, implies_true, and_true]
  exact fun _ => hsmc.ends id

include hA

lemma stopsIff_vppiEvent (irq : U64) :
    StopsIff (Unattached hs (cInt irq)) (fun _ _ => True) (handleVppiEvent env irq) s := by
  unfold handleVppiEvent
  refine stopsIff_bind_left (hA.inject hE (cInt irq)) fun b t _ => stopsIff_of_wp ?_
  simp only [wp_ite, wp_bind, wp_replyToFault, wp_pure, vcpuAckVppi, wp_get, wp_logEvent, hE.kernel.vcpuAckVppi,
    decide_true, wp_cAssert_true, implies_true, and_self]

lemma stopsIff_maintenanceFault (idx err : Int) :
    StopsIff (NotPresent s idx ∨ err ≠ 0) (fun _ _ => True) (handleVgicMaintenance env idx err) s := by
  unfold handleVgicMaintenance
  refine stopsIff_bind (hA.maintenance hE idx err) ?_
  rintro r t ⟨-, rfl⟩
  split_ifs with hr
  · refine (stopsIff_of_wp ?_).congr (iff_false_intro (not_not.mpr hr))
    simp only [wp_bind, wp_replyToFault, wp_pure]
  · exact (stopsIff_bind_left (stopsIff_cAssert hE.asserts false) fun _ _ _ => stopsIff_pure trivial).congr
      (iff_of_true hr rfl)

omit hA hE in
/-- A fault that the kernel delivers without an event. -/
lemma stopsIff_fault {f : Fault} {p : Prop} (hf : deliver f = (pure () : M φ Unit))
    (h : StopsIff p (fun _ _ => True) (handleFault env f) s) : StopsIff p (fun _ _ => True) (step env (.fault f)) s := by
  have hdeliver : StopsIff False (fun _ t => t = s) (deliver f) s := by
    rw [hf]
    exact stopsIff_pure rfl
  refine stopsIff_bind_right hdeliver ?_
  rintro _ t rfl
  exact stopsIff_bind_left h fun _ _ _ => stopsIff_pure trivial

/-- A step from a state of the VMM stops it exactly under the condition of the step. -/
lemma stopsIff_step (op : Op φ) : StopsIff (StepStops env hs s op) (fun _ _ => True) (step env op) s := by
  cases op with
  | registerIrq irq ackFn ackData =>
    refine stopsIff_bind_left (R := fun _ _ => True) ?_ fun _ _ _ => stopsIff_pure trivial
    by_cases h0 : 0 ≤ irq
    · refine (stopsIff_of_wp ?_).congr (iff_false_intro (not_lt.mpr h0))
      exact (wp_vgicRegisterIrq_slot h0).mpr ⟨fun _ => trivial, fun _ _ => trivial⟩
    · refine (stopsIff_of_stop ?_).congr (iff_true_intro (not_le.mp h0))
      unfold vgicRegisterIrq
      rw [wp_bind, wp_cAssert_stops hE.asserts, decide_eq_false h0, Bool.false_and]
      exact ⟨fun h => absurd h (by simp), fun _ => trivial⟩
  | injectIrq irq => exact stopsIff_bind_left (hA.inject hE irq) fun _ _ _ => stopsIff_pure trivial
  | notification irq =>
    have hlog : StopsIff False (fun _ t => Attached hs t) (logEvent (.notification irq)) s :=
      stopsIff_modify (hA.logged _ (by simp) rfl)
    exact stopsIff_bind_right hlog fun _ t ht =>
      stopsIff_bind_left (ht.inject hE irq) fun _ _ _ => stopsIff_pure trivial
  | guest regs => exact stopsIff_modify trivial
  | retire idx => exact stopsIff_bind_left (hA.maintenance hE idx 0) fun _ _ _ => stopsIff_pure trivial
  | fault f =>
    cases f with
    | vmFault addr fsr => exact stopsIff_fault rfl (stopsIff_vmFault hA hE addr fsr)
    | unknownSyscall syscall => exact stopsIff_fault rfl (stopsIff_unknownSyscall hE syscall)
    | userException => exact stopsIff_fault rfl (stopsIff_userException hE)
    | vcpuFault hsr => exact stopsIff_fault rfl (stopsIff_vcpuFault hE hsr)
    | vgicMaintenance idx err => exact stopsIff_fault rfl (stopsIff_maintenanceFault hA hE (cInt idx) err)
    | vppiEvent irq =>
      have hlog : StopsIff False (fun _ t => Attached hs t) (logEvent (.vppiEvent irq.toNat)) s :=
        stopsIff_modify (hA.logged _ (by simp) rfl)
      exact stopsIff_bind_right hlog fun _ t ht =>
        stopsIff_bind_left (stopsIff_vppiEvent ht hE irq) fun _ _ _ => stopsIff_pure trivial

end Steps

end Sel4cpVmm
