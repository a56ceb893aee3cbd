import Sel4cpVmm.Properties.PendingResident
import Sel4cpVmm.Proofs.BitmapWrites
import Sel4cpVmm.Proofs.Registration

/-!
# How many interrupts the queue is enough for

Four list registers and the 63 cells of the ring that can be used at a time hold 67 interrupts. With so many
registered the queue overflows only after the guest has disabled a number that has no bit of its own, which
clears pending bits of local interrupts; with one more it does in some run.
-/

namespace Sel4cpVmm

open StopProgram GicDistMap

variable {φ : Type} {env : Env φ}

/-- The guest disables a number whose enable bit, behind the last one, is a pending bit. -/
def DisablesBeyond (env : Env φ) (s : Vmm φ) : Op φ → Prop
  | .fault (.vmFault addr fsr) => WritesDist env (fun w => w = .icenabler) addr fsr ∧
      ∃ i ∈ accessIrqs env s addr fsr, irqLimit ≤ i ∧ i < 1024
  | _ => False

/-- The steps of a run after the registrations, without writes to `ICPENDR`. -/
def RunStep (env : Env φ) (op : Op φ) : Prop := NotRegister op ∧ ¬WritesIcpendr env op

instance (op : Op φ) : Decidable (RunStep env op) := inferInstanceAs (Decidable (_ ∧ _))

def Regular (env : Env φ) (s : Vmm φ) (op : Op φ) : Prop := RunStep env op ∧ ¬DisablesBeyond env s op

def FailsEnqueue (env : Env φ) (s : Vmm φ) (op : Op φ) : Prop :=
  ∃ i, .enqueueFailed i ∈ (outcome (step env op) s).log

def Overflows (env : Env φ) (allowed : Vmm φ → Op φ → Prop) (s₀ : Vmm φ) : Prop :=
  ∃ s op, Reach (fun t => t = s₀) allowed (step env) s ∧ allowed s op ∧ FailsEnqueue env s op

/-! ### The disabled numbers -/

section Numbers

lemma distActions_of_disable {g : GicVersion} {offset : Nat} {addr fsr val : U64} {irq : Int}
    (h : .disable irq ∈ (distActions g offset addr fsr val : List (Action φ))) :
    distWrite g vcpuId offset = .icenabler ∧
      irq ∈ writeIrqs g offset (val.setWidth 32 &&& (dataMask addr fsr).setWidth 32) := by
  unfold distActions at h
  cases hk : distWrite g vcpuId offset <;> simp [hk] at h
  exact ⟨rfl, h⟩

lemma disable_not_mem_redistActions {offset : Nat} {addr fsr val : U64} {irq : Int} :
    .disable irq ∉ (redistActions offset addr fsr val : List (Action φ)) := by
  unfold redistActions
  cases redistWrite vcpuId offset <;> simp

lemma disablesBeyond_of_disable {s : Vmm φ} {op : Op φ} {irq : Int} (h : .disable irq ∈ opActions env s op)
    (hirq : irqLimit ≤ irq ∧ irq < 1024) : DisablesBeyond env s op := by
  cases op with
  | fault f =>
    cases f with
    | vmFault addr fsr =>
      change _ ∈ accessActions env s addr fsr at h
      unfold accessActions at h
      split_ifs at h with hread hdist hredist
      · simp at h
      · obtain ⟨hk, hmem⟩ := distActions_of_disable h
        have hwrite := faultIsWrite_of_not_read hread
        refine ⟨⟨hwrite, hk⟩, irq, ?_, hirq⟩
        rw [accessIrqs, if_pos hwrite]
        exact hmem
      · exact absurd h disable_not_mem_redistActions
      · simp at h
    | _ => simp [opActions] at h
  | _ => simp [opActions] at h

lemma quiet_of_not_disablesBeyond {s : Vmm φ} {op : Op φ} {a : Action φ} (ha : a ∈ opActions env s op)
    (hop : ¬DisablesBeyond env s op) (hen : ∀ irq, a ≠ .enable irq) : a.Quiet fun i => 0 ≤ i ∧ i < irqLimit := by
  have hb := bits_opActions ha
  cases a with
  | enable irq => exact absurd rfl (hen irq)
  | disable irq =>
    exact fun d b i hi => isPending_setEnable_out hb (fun hout => hop (disablesBeyond_of_disable ha hout)) hi
  | clearEnable irq =>
    refine fun d b i hi => isPending_setEnable_out hb (fun hout => ?_) hi
    have hlt := (clearEnable_mem ha).2.2
    simp only [irqLimit, numVcpuLocalVirqs] at hout hlt
    omega
  | clrPending irq => exact hb.1
  | store w mask bits => exact hb
  | _ => trivial

end Numbers

/-! ### At most 67 interrupts -/

def NoFailure (log : List (Event φ)) : Prop := ∀ i, .enqueueFailed i ∉ log

section Failures

variable {log l : List (Event φ)} {s s' : Vmm φ}

lemma noFailure_append (h : NoFailure log) (hl : ∀ i, .enqueueFailed i ∉ l) : NoFailure (log ++ l) :=
  fun i hmem => (List.mem_append.mp hmem).elim (h i) (hl i)

lemma NoFailure.ack (h : NoFailure log) (t : Vmm φ) (a : VirqHandle φ) : NoFailure (log ++ ackEvents env t a) := by
  refine noFailure_append h fun i hmem => ?_
  rcases mem_ackEvents hmem with ⟨_, -, he⟩ | ⟨_, he⟩ | ⟨_, he⟩ <;> exact absurd he (by simp)

lemma NoFailure.injected {irq : Int} {b : Bool} (h : NoFailure s.log) (hi : Injected env s irq b s') :
    NoFailure s'.log := by
  cases hi with
  | refused => exact h
  | pending => exact h
  | accepted _ _ ha =>
    rw [ha.log]
    refine noFailure_append h fun i hmem => ?_
    obtain ⟨k, a, -, -, he⟩ := mem_offerEvents ((List.mem_cons.mp hmem).resolve_left (by simp))
    exact absurd he (by simp)

lemma NoFailure.does {a : Action φ} (h : NoFailure s.log) (hd : Does env s a s') : NoFailure s'.log := by
  cases hd with
  | inject hi => exact h.injected hi
  | @notification irq b t hi =>
    have hlog : NoFailure (s.log ++ [.notification irq]) := noFailure_append h (by simp)
    exact NoFailure.injected (s := { s with log := s.log ++ [.notification irq] }) hlog hi
  | @vppiEvent irq b t hi =>
    have hlog : NoFailure (s.log ++ [.vppiEvent irq.toNat]) := noFailure_append h (by simp)
    have ht := NoFailure.injected (s := { s with log := s.log ++ [.vppiEvent irq.toNat] }) hlog hi
    exact noFailure_append ht (by cases b <;> simp [vppiReturn])
  | retire hr =>
    rw [hr.log]
    refine noFailure_append (h.ack _ _) fun i hmem => ?_
    obtain ⟨a, -, he⟩ := mem_refillEvents hmem
    exact absurd he (by simp [loadEvent])
  | enableAck => exact h.ack _ _
  | _ => exact h

end Failures

/-- The registered numbers are those of `nums`, each in flight at most once and, while it is, pending. -/
structure Fits (nums : List Int) (s : Vmm φ) : Prop where
  conserving : s.vgic.view.WorkConserving
  tables : ∀ irq h, s.vgic.handle irq = some h → h.virq ∈ nums
  residents : ∀ h ∈ s.vgic.view.residents, h.virq ∈ nums
  nodup : (s.vgic.view.residents.map VirqHandle.virq).Nodup
  pending : ∀ h ∈ s.vgic.view.residents, isPending s.dist h.virq vcpuId = true
  log : NoFailure s.log

section Fits

variable {nums : List Int} {s s' : Vmm φ} {a : Action φ} {h : VirqHandle φ} {irq : Int}

lemma Fits.not_resident (hI : Fits nums s) (hp : isPending s.dist irq vcpuId = false) :
    irq ∉ s.vgic.view.residents.map VirqHandle.virq := by
  intro hmem
  obtain ⟨b, hb, rfl⟩ := Multiset.mem_map.mp hmem
  exact absurd (hI.pending b hb) (by simp [hp])

lemma Fits.length_lt (hI : Fits nums s) (hnew : irq ∉ s.vgic.view.residents.map VirqHandle.virq) (hmem : irq ∈ nums) :
    s.vgic.view.residents.card < nums.length := by
  have hnodup : (irq ::ₘ s.vgic.view.residents.map VirqHandle.virq).Nodup := Multiset.nodup_cons.mpr ⟨hnew, hI.nodup⟩
  have hsub : (irq ::ₘ s.vgic.view.residents.map VirqHandle.virq) ⊆ (nums : Multiset Int) := by
    refine Multiset.cons_subset.mpr ⟨hmem, fun i hi => ?_⟩
    obtain ⟨b, hb, rfl⟩ := Multiset.mem_map.mp hi
    exact hI.residents b hb
  have hcard := Multiset.card_le_card ((Multiset.le_iff_subset hnodup).mpr hsub)
  simp only [Multiset.card_cons, Multiset.card_map, Multiset.coe_card] at hcard
  exact hcard

lemma Fits.same (hI : Fits nums s) (hv : s'.vgic = s.vgic)
    (hp : ∀ i, isPending s.dist i vcpuId = true → isPending s'.dist i vcpuId = true) (hlog : NoFailure s'.log) :
    Fits nums s' :=
  ⟨hv ▸ hI.conserving, hv ▸ hI.tables, hv ▸ hI.residents, hv ▸ hI.nodup,
    fun h hh => hp _ (hI.pending h (hv ▸ hh)), hlog⟩

variable (hnums : ∀ i ∈ nums, 0 ≤ i ∧ i < irqLimit)

include hnums

lemma Fits.effect (hI : Fits nums s)
    (he : Effect (fun i => 0 ≤ i ∧ i < irqLimit) s.vgic s.dist a s'.vgic s'.dist) (ha : ∀ irq, a ≠ .clrPending irq)
    (htables : ∀ irq h, s'.vgic.handle irq = some h → h.virq ∈ nums) (hlog : NoFailure s'.log) :
    Fits nums s' := by
  have hresidents := he.residents (R := fun h => h.virq ∈ nums) hI.residents fun h _ _ hh => hI.tables _ h hh
  cases he with
  | same hv hp =>
    refine ⟨hv ▸ hI.conserving, htables, hresidents, hv ▸ hI.nodup, fun h hh => ?_, hlog⟩
    rw [hp _ (hnums _ (hresidents h hh))]
    exact hI.pending h (hv ▸ hh)
  | offered h h0 _ hh hfree hv hd =>
    have hres : s'.vgic.view.residents = h ::ₘ s.vgic.view.residents := by rw [hv, SlotQueue.residents_offer]
    refine ⟨hv ▸ SlotQueue.workConserving_offer hI.conserving h, htables, hresidents, ?_, fun b hb => ?_, hlog⟩
    · rw [hres, Multiset.map_cons]
      exact Multiset.nodup_cons.mpr ⟨hI.not_resident hfree, hI.nodup⟩
    · rw [hd, isPending_setPending (hnums _ (hresidents b hb)) h0]
      rcases Multiset.mem_cons.mp (hres ▸ hb) with rfl | hb
      · simp
      · simp [hI.pending b hb]
  | retired k h hslot hv hd =>
    have hres : s.vgic.view.residents = h ::ₘ s'.vgic.view.residents := by
      rw [hv]
      exact SlotQueue.residents_retire hslot
    have h0 := (hnums _ (hI.residents h (by rw [hres]; simp))).1
    have hnd := hI.nodup
    rw [hres, Multiset.map_cons, Multiset.nodup_cons] at hnd
    refine ⟨hv ▸ SlotQueue.workConserving_retire hI.conserving k, htables, hresidents, hnd.2, fun b hb => ?_, hlog⟩
    have hne : b.virq ≠ h.virq := fun heq => hnd.1 (heq ▸ Multiset.mem_map_of_mem _ hb)
    rw [hd, isPending_setPending (hnums _ (hresidents b hb)) h0, if_neg hne]
    exact hI.pending b (by rw [hres]; exact Multiset.mem_cons_of_mem hb)
  | cleared irq hclr => exact absurd hclr (ha irq)

lemma Fits.does (hI : Fits nums s) (hw : s.vgic.Wf) {t : Vmm φ} {op : Op φ} (ha : a ∈ opActions env t op)
    (hop : Regular env t op) (hd : Does env s a s') : Fits nums s' := by
  have hlog := hI.log.does hd
  by_cases hen : ∃ irq, a = .enable irq
  · obtain ⟨irq, rfl⟩ := hen
    have henabled : ∀ i, isPending s.dist i vcpuId = true → isPending (enabled s irq).dist i vcpuId = true :=
      fun _ => isPending_setEnable_true
    cases hd with
    | enableOnly => exact hI.same rfl henabled hlog
    | enableAck => exact hI.same rfl henabled hlog
  · have htables : ∀ irq h, s'.vgic.handle irq = some h → h.virq ∈ nums := by
      rcases hd.deref with hderef | ⟨irq, fn, data, p, rfl, -⟩
      · exact fun irq h hh => hI.tables irq h (Vgic.handle_congr hderef ▸ hh)
      · obtain rfl := op_of_register ha
        exact hop.1.1.elim
    have hquiet := quiet_of_not_disablesBeyond ha hop.2 fun irq h => hen ⟨irq, h⟩
    exact hI.effect hnums (hd.effect hw (fun _ => id) hquiet) (fun irq h => not_clrPending hop.1.2 (h ▸ ha)) htables hlog

omit hnums

lemma Fits.injectStops (hI : Fits nums s) (hw : s.vgic.Wf) (hk : KernelAccepts env)
    (hlen : nums.length ≤ numListRegs + (maxIrqQueueLen - 1)) {e : Stop} {t : Vmm φ} (hh : InjectStops env s irq e t) :
    NoFailure t.log := by
  cases hh with
  | negative => exact hI.log
  | noHandle => exact hI.log
  | full hcan hpend hfull =>
    have hslots : ∀ k, (s.vgic.view.slot k).isSome := hI.conserving fun hnil => by simp [hnil] at hfull
    have hcard := SlotQueue.card_residents_full hslots
    have hmem := hI.tables irq _ hcan.handle
    rw [(hw.virq_of_handle hcan.handle).1] at hmem
    have hlt := hI.length_lt (hI.not_resident hpend) hmem
    omega
  | rejected _ hno => exact absurd hk hno

lemma Fits.halts (hI : Fits nums s) (hw : s.vgic.Wf) (hk : KernelAccepts env)
    (hlen : nums.length ≤ numListRegs + (maxIrqQueueLen - 1)) {e : Stop} {t : Vmm φ} (hh : Halts env s a e t) :
    NoFailure t.log := by
  have hlogged : ∀ e : Event φ, (∀ i, e ≠ .enqueueFailed i) → Fits nums { s with log := s.log ++ [e] } := fun e he =>
    hI.same rfl (fun _ => id) (noFailure_append hI.log fun i hmem => he i (List.mem_singleton.mp hmem).symm)
  cases hh with
  | inject hi => exact hI.injectStops hw hk hlen hi
  | notification hi => exact (hlogged (.notification _) (by simp)).injectStops hw hk hlen hi
  | vppiEvent hi => exact (hlogged (.vppiEvent _) (by simp)).injectStops hw hk hlen hi
  | rejected hno => exact absurd hk hno
  | _ => exact hI.log

end Fits

/-! ### The registrations -/

section Registered

variable {l : List (VirqHandle φ)} {tcb : UserContext} {s : Vmm φ}

lemma state_of_registered (hreg : registerAll env l (vgicInit env tcb) = .ok l s) (hl : ∀ h ∈ l, 0 ≤ h.virq) :
    ∃ v, s = { vgicInit env tcb with vgic := v } ∧ Holds l v ∧ v.Wf ∧ v.view = (Vgic.init : Vgic φ).view := by
  obtain ⟨v, hall, hv⟩ := @run_registerAll _ env _ tcb hl
  obtain ⟨hsame, hs⟩ := EStateM.Result.ok.inj (hreg.symm.trans hall)
  exact ⟨v, hs, hsame ▸ hv⟩

lemma fits_registered (hreg : registerAll env l (vgicInit env tcb) = .ok l s) (hl : ∀ h ∈ l, 0 ≤ h.virq) :
    s.vgic.Wf ∧ Fits (l.map VirqHandle.virq) s := by
  obtain ⟨v, rfl, hv, hw, hview⟩ := state_of_registered hreg hl
  have hwait : v.view.waiting = [] := by rw [hview, view_init]
  have hres : v.view.residents = 0 := by rw [hview, residents_init]
  refine ⟨hw, fun hne => absurd hwait hne, fun irq h hh => ?_, by simp [hres], by simp [hres], by simp [hres], ?_⟩
  · change v.handle irq = some h at hh
    rw [hv.handle (Vgic.nonneg_of_handle hh)] at hh
    exact List.mem_map_of_mem (List.mem_of_find?_eq_some hh)
  · exact fun i hmem => absurd hmem (by simp [vgicInit])

end Registered

/-- With at most 67 registered interrupts no run without such an access finds the queue full. -/
lemma not_overflows (hstop : env.assertStops = true) (hinert : InertAcks env) (hk : KernelAccepts env)
    {l : List (VirqHandle φ)} (hl : ∀ h ∈ l, 0 ≤ h.virq ∧ h.virq < irqLimit)
    (hlen : l.length ≤ numListRegs + (maxIrqQueueLen - 1)) {tcb : UserContext} {s₀ : Vmm φ}
    (hreg : registerAll env l (vgicInit env tcb) = .ok l s₀) : ¬Overflows env (Regular env) s₀ := by
  have hnums : ∀ i ∈ l.map VirqHandle.virq, 0 ≤ i ∧ i < irqLimit := by
    intro i hi
    obtain ⟨h, hh, rfl⟩ := List.mem_map.mp hi
    exact hl h hh
  rintro ⟨s, op, hs, hop, i, hfail⟩
  refine (reach_halts (I := Fits (l.map VirqHandle.virq)) (E := fun t => NoFailure t.log) hstop hinert ?_
    (fun s t hf hI => ?_) (fun _ _ hI => hI.log)
    (fun s op a ha hmem t t' hw hI hd => hI.does hnums hw hmem ha hd)
    (fun s op a _ _ t e t' hw hI hh => hI.halts hw hk (by simpa using hlen) hh) hs).2 op hop i hfail
  · rintro t rfl
    exact fits_registered hreg fun h hh => (hl h hh).1
  · refine hI.same hf.vgic (fun i hi => hf.dist ▸ hi) ?_
    obtain ⟨r, hr, hret⟩ := hf.log
    rw [hr]
    exact noFailure_append hI.log fun i hmem => absurd (hret _ hmem) (by simp [Event.isReturn])

/-! ### At least 68 interrupts -/

/-- The distributor and the interrupts of `en`, among the registered ones, are enabled, and what is pending is in
flight. -/
structure Ready (env : Env φ) (l en : List (VirqHandle φ)) (s : Vmm φ) : Prop where
  wf : s.vgic.Wf
  handles : ∀ h ∈ l, s.vgic.handle h.virq = some h
  distOn : vgicDistIsEnabled env.board.gic s.dist = true
  irqsOn : ∀ h ∈ en, isEnabled s.dist h.virq vcpuId = true
  residents : ∀ h ∈ s.vgic.view.residents, 0 ≤ h.virq
  pending : ∀ i, 0 ≤ i ∧ i < irqLimit → isPending s.dist i vcpuId = true →
    i ∈ s.vgic.view.residents.map VirqHandle.virq

section Ready

variable {l en : List (VirqHandle φ)} {s t : Vmm φ} {h : VirqHandle φ}

lemma Ready.congr (hR : Ready env l en s) (hv : t.vgic = s.vgic) (hd : t.dist = s.dist) : Ready env l en t :=
  ⟨hv ▸ hR.wf, hv ▸ hR.handles, hd ▸ hR.distOn, hd ▸ hR.irqsOn, hv ▸ hR.residents, hv ▸ hd ▸ hR.pending⟩

lemma Ready.cons (hR : Ready env l en s) (hh : 0 ≤ h.virq ∧ h.virq < irqLimit) :
    Ready env l (h :: en) (enabled s h.virq) := by
  refine ⟨hR.wf, hR.handles, ?_, fun a ha => ?_, hR.residents, fun i hi hp => ?_⟩
  · rw [← hR.distOn]
    exact vgicDistIsEnabled_congr _ word_ctlr_setEnable
  · rcases List.mem_cons.mp ha with rfl | ha
    · rw [enabled, isEnabled_setEnable hh hh.1, if_pos rfl]
    · exact isEnabled_setEnable_true (hR.irqsOn a ha)
  · exact hR.pending i hi ((isPending_setEnable hh hi).symm.trans hp)

variable (hstop : env.assertStops = true) (hk : KernelAccepts env)

include hstop hk

lemma Ready.enable (hinert : InertAcks env) (hR : Ready env l en s) (hh : 0 ≤ h.virq ∧ h.virq < irqLimit) (hmem : h ∈ l) (hfn : h.ackFn.isSome) :
    wp (vgicDistEnableIrq env vcpuId h.virq) (fun _ t => Ready env l (h :: en) t) (fun _ _ => False) s := by
  have henabled := hR.cons hh
  refine wp_vgicDistEnableIrq hstop (fun hneg => absurd hh.1 (Int.not_le.mpr hneg)) (fun _ => henabled) fun a ha _ => ?_
  obtain rfl : h = a := Option.some.inj ((hR.handles h hmem).symm.trans ha)
  exact wp_virqAck hstop (fun hno => absurd hk hno) hinert (fun _ => henabled.congr rfl rfl)
    fun hnone => by simp [hnone] at hfn

/-- An interrupt injected is in flight afterwards, or finds the queue full. -/
lemma Ready.inject (hR : Ready env l l s) (hl : ∀ h ∈ l, 0 ≤ h.virq ∧ h.virq < irqLimit) (hmem : h ∈ l) :
    (∃ t, step env (.injectIrq h.virq) s = .ok ⟨⟩ t ∧ Ready env l l t ∧
      h.virq ∈ t.vgic.view.residents.map VirqHandle.virq ∧
      ∀ i ∈ s.vgic.view.residents.map VirqHandle.virq, i ∈ t.vgic.view.residents.map VirqHandle.virq) ∨
      FailsEnqueue env s (.injectIrq h.virq) := by
  have hcan : CanInject env s h.virq h := ⟨hR.handles h hmem, hR.distOn, hR.irqsOn h hmem⟩
  have hwp : wp (step env (.injectIrq h.virq)) (fun _ t => Ready env l l t ∧
      h.virq ∈ t.vgic.view.residents.map VirqHandle.virq ∧
      ∀ i ∈ s.vgic.view.residents.map VirqHandle.virq, i ∈ t.vgic.view.residents.map VirqHandle.virq)
      (fun _ t => ∃ i, .enqueueFailed i ∈ t.log) s := by
    change wp (vgicInjectIrq env vcpuId h.virq >>= fun _ => pure ()) _ _ s
    rw [wp_bind]
    refine wp_mono (wp_inject hstop hR.wf) (fun b t ht => ?_) (fun e t ht => ?_)
    · rw [wp_pure]
      have he := ht.effect (a := .inject h.virq) (P := fun i => 0 ≤ i ∧ i < irqLimit) hR.wf id
      have hres := he.residents (R := fun a => 0 ≤ a.virq) hR.residents fun _ h0 _ _ => h0
      have hpend := he.pending_inFlight (fun _ => id) hR.residents hR.pending
      cases ht with
      | refused _ hno => exact absurd hcan (hno h)
      | pending _ hp => exact ⟨hR, hR.pending _ (hl h hmem) hp, fun _ => id⟩
      | accepted hcan' _ ha =>
        obtain rfl := Option.some.inj (hcan.handle.symm.trans hcan'.handle)
        refine ⟨⟨ha.wf, fun a hmem' => ?_, ?_, fun a hmem' => ?_, hres, hpend⟩, ?_, fun i hi => ?_⟩
        · rw [Vgic.handle_congr ha.deref]
          exact hR.handles a hmem'
        · rw [ha.dist, ← hR.distOn]
          exact vgicDistIsEnabled_congr _ word_ctlr_setPending
        · rw [ha.dist, isEnabled_setPending (hl a hmem')]
          exact hR.irqsOn a hmem'
        · rw [ha.view, SlotQueue.residents_offer, Multiset.map_cons]
          exact Multiset.mem_cons_self _ _
        · rw [ha.view, SlotQueue.residents_offer, Multiset.map_cons]
          exact Multiset.mem_cons_of_mem hi
    · cases ht with
      | negative hneg => exact absurd (hl h hmem).1 (Int.not_le.mpr hneg)
      | noHandle _ hnone =>
        have hhandle := hcan.handle
        rw [Vgic.handle, hnone] at hhandle
        exact absurd hhandle (by simp)
      | full => exact ⟨h.virq, by simp⟩
      | rejected _ hno => exact absurd hk hno
  rcases ok_or_stops hwp with ⟨⟨⟩, t, hok, ht⟩ | hfail
  · exact .inl ⟨t, hok, ht⟩
  · exact .inr hfail

variable {s₀ : Vmm φ} {tcb : UserContext}

omit hstop hk in
lemma reach_store (hs : Reach (fun t => t = s₀) (Regular env) (step env) s) {x addr : U64}
    {k : DistWrite} (hkind : distWrite env.board.gic vcpuId (addr - env.board.gicDistPaddr).toNat = k)
    (hne : k ≠ .icpendr ∧ k ≠ .icenabler) {Q : Vmm φ → Prop}
    (hwp : wp (handleVmFault env addr storeWord) (fun _ t => Q t) (fun _ _ => False) { s with tcb := .filled x }) :
    ∃ t, Reach (fun t => t = s₀) (Regular env) (step env) t ∧ Q t := by
  have hguest : Reach (fun t => t = s₀) (Regular env) (step env) { s with tcb := .filled x } :=
    .step (.guest (.filled x)) hs ⟨⟨trivial, id⟩, id⟩ rfl
  have hstep : wp (step env (.fault (.vmFault addr storeWord))) (fun _ t => Q t) (fun _ _ => False)
      { s with tcb := .filled x } := by
    change wp (handleVmFault env addr storeWord >>= fun _ => pure ()) _ _ _
    rw [wp_bind]
    exact hwp
  obtain ⟨⟨⟩, t, hok, hQ⟩ := ok_of_wp hstep
  have hregister : NotRegister (.fault (.vmFault addr storeWord) : Op φ) := trivial
  refine ⟨t, .step _ hguest ⟨⟨hregister, fun h => hne.1 ?_⟩, fun h => hne.2 ?_⟩ hok, hQ⟩
  · rw [← hkind, h.2]
  · rw [← hkind, h.1.2]

variable (htcb : TcbAccepts env) (hl : ∀ h ∈ l, 0 ≤ h.virq ∧ h.virq < irqLimit) (hnodup : (l.map VirqHandle.virq).Nodup)
  (hreg : registerAll env l (vgicInit env tcb) = .ok l s₀)

include htcb hl hnodup hreg

omit hk in
lemma reach_distOn : ∃ t, Reach (fun t => t = s₀) (Regular env) (step env) t ∧ Ready env l [] t := by
  obtain ⟨v, rfl, hv, hw, hview⟩ := state_of_registered hreg fun h hh => (hl h hh).1
  have hres : v.view.residents = 0 := by rw [hview, residents_init]
  have hctlr : distWrite env.board.gic vcpuId 0 = .ctlr := by cases env.board.gic <;> rfl
  have hoffset : (env.board.gicDistPaddr - env.board.gicDistPaddr).toNat = 0 := by simp
  have haligned : env.board.gicDistPaddr &&& 0x3 = 0 := by cases env.board <;> rfl
  have hin : InDist env env.board.gicDistPaddr := by simpa using @inDist_of_lt _ env 0 (by decide)
  have hok : AccessOk env.board.gicDistPaddr storeWord := IsWordAccess.ok ⟨by decide, by decide⟩ haligned
  refine reach_store (x := (gicEnabled env.board.gic).setWidth 64) (.init rfl) (hoffset ▸ hctlr) (by simp) ?_
  refine wp_vmFault hstop (fun h => absurd ⟨htcb, hok, hin⟩ h) (fun hr => absurd hr (by decide)) fun _ => ?_
  have hread : ¬faultIsRead storeWord = true := by decide
  rw [accessActions, if_neg hread, if_pos hin, hoffset, distActions, hctlr]
  change wp (forM [Action.ctlr (storedWord _ storeWord _)] (Action.run env)) _ _ _
  rw [storedWord_filled, List.forM_cons, wp_bind, Action.run, writeCtlr, if_pos rfl, wp_modifyDist]
  refine ⟨⟨hw, fun h hh => ?_, vgicDistIsEnabled_vgicDistEnable _ _, by simp, by simp [resumed, hres], fun i hi hp => ?_⟩,
    fun hno => absurd htcb hno⟩
  · change v.handle h.virq = some h
    rw [hv.handle (hl h hh).1, find?_of_mem hnodup hh]
  · have hp' : isPending (vgicDistEnable env.board.gic (vgicInit env tcb).dist) i vcpuId = true := hp
    rw [isPending_vgicDistEnable _ hi, isPending_init tcb hi] at hp'
    exact absurd hp' (by simp)

variable (hinert : InertAcks env) (hfn : ∀ h ∈ l, h.ackFn.isSome)

include hinert hfn

lemma reach_irqsOn (hen : ∀ h ∈ en, h ∈ l) :
    ∃ t, Reach (fun t => t = s₀) (Regular env) (step env) t ∧ Ready env l en t := by
  induction en with
  | nil => exact reach_distOn hstop htcb hl hnodup hreg
  | cons h en ih =>
    obtain ⟨s, hs, hR⟩ := ih fun a ha => hen a (by simp [ha])
    have hmem := hen h (by simp)
    have hrange := hl h hmem
    have hn : (h.virq / 32).toNat < 32 := by
      simp only [irqLimit] at hrange
      omega
    refine @reach_store _ env s _ hs ((irqBit h.virq).setWidth 64) (BitmapRegister.isenabler.addr env (h.virq / 32).toNat)
      .isenabler ?_ (by simp) _ ?_
    · rw [BitmapRegister.addr, offset_sub hn, distWrite_offset _ _ hn]
    · refine wp_bitmapWrite hn ⟨by decide, by decide⟩ hstop (by decide) (fun hno => absurd htcb hno) ?_
      rw [storedWord_filled, registerIrqs_irqBit hrange.1, List.map_singleton, List.forM_cons, wp_bind]
      have hguest : Ready env l en { s with tcb := .filled ((irqBit h.virq).setWidth 64) } := hR.congr rfl rfl
      refine wp_mono (hguest.enable hstop hk hinert hrange hmem (hfn h hmem)) (fun _ t ht => ?_) (fun _ _ => id)
      exact ⟨ht.congr rfl rfl, fun hno => absurd htcb hno⟩

lemma reach_injected {l' : List (VirqHandle φ)} (hl' : ∀ h ∈ l', h ∈ l) :
    (∃ t, Reach (fun t => t = s₀) (Regular env) (step env) t ∧ Ready env l l t ∧
      ∀ h ∈ l', h.virq ∈ t.vgic.view.residents.map VirqHandle.virq) ∨ Overflows env (Regular env) s₀ := by
  induction l' with
  | nil =>
    obtain ⟨t, ht, hR⟩ := reach_irqsOn hstop hk htcb hl hnodup hreg hinert hfn fun h (hh : h ∈ l) => hh
    exact .inl ⟨t, ht, hR, by simp⟩
  | cons h l' ih =>
    rcases ih fun a ha => hl' a (by simp [ha]) with ⟨s, hs, hR, hres⟩ | hfail
    · have hregular : Regular env s (.injectIrq h.virq) := ⟨⟨trivial, id⟩, id⟩
      rcases hR.inject hstop hk hl (hl' h (by simp)) with ⟨t, hok, hR', hnew, hkept⟩ | hfail
      · refine .inl ⟨t, .step _ hs hregular hok, hR', fun a ha => ?_⟩
        rcases List.mem_cons.mp ha with rfl | ha
        · exact hnew
        · exact hkept _ (hres a ha)
      · exact .inr ⟨s, _, hs, hregular, hfail⟩
    · exact .inr hfail

/-- With at least 68 registered interrupts some run finds the queue full. -/
lemma overflows_of_length (hlen : numListRegs + (maxIrqQueueLen - 1) < l.length) : Overflows env (Regular env) s₀ := by
  rcases reach_injected hstop hk htcb hl hnodup hreg hinert hfn (fun h (hh : h ∈ l) => hh) with ⟨t, -, hR, hres⟩ | hfail
  · have hsub : ((l.map VirqHandle.virq : List Int) : Multiset Int) ⊆ t.vgic.view.residents.map VirqHandle.virq := by
      intro i hi
      obtain ⟨h, hh, rfl⟩ := List.mem_map.mp (Multiset.mem_coe.mp hi)
      exact hres h hh
    have hcard := Multiset.card_le_card ((Multiset.le_iff_subset (Multiset.coe_nodup.mpr hnodup)).mpr hsub)
    have hle : t.vgic.view.residents.card ≤ numListRegs + t.vgic.view.waiting.length := SlotQueue.card_residents_le
    have hwait := hR.wf.length_waiting_le
    simp only [Multiset.coe_card, List.length_map, Multiset.card_map] at hcard
    omega
  · exact hfail

end Ready

/-- In the runs after the registration of `N` distinct interrupts in which the guest disables no number that has
no bit of its own, the queue never overflows if `N ≤ 67`, and it does in some run if `N ≥ 68`. -/
theorem queue_capacity (hstop : env.assertStops = true) (hinert : InertAcks env) (hk : KernelAccepts env)
    {l : List (VirqHandle φ)} (hl : ∀ h ∈ l, 0 ≤ h.virq ∧ h.virq < irqLimit) (hnodup : (l.map VirqHandle.virq).Nodup)
    {tcb : UserContext} {s₀ : Vmm φ} (hreg : registerAll env l (vgicInit env tcb) = .ok l s₀) :
    (l.length ≤ 67 → ¬Overflows env (Regular env) s₀) ∧
      (TcbAccepts env → (∀ h ∈ l, h.ackFn.isSome) → 68 ≤ l.length → Overflows env (Regular env) s₀) :=
  ⟨fun hlen => not_overflows hstop hinert hk hl hlen hreg,
    fun htcb hfn hlen => overflows_of_length hstop hk htcb hl hnodup hreg hinert hfn hlen⟩

/-- The first `n` SPIs, with a callback that does nothing. -/
def firstSpis (n : Nat) : List (VirqHandle VmmAckFn) :=
  (List.range n).map fun i : Nat => ⟨32 + i, some .sgiAck, null⟩

theorem queue_capacity_spis : (∃ s, registerAll (vmmEnv .qemuArmVirtHyp) (firstSpis 67)
      (vgicInit (vmmEnv .qemuArmVirtHyp) (.filled 0)) = .ok (firstSpis 67) s ∧
      ¬Overflows (vmmEnv .qemuArmVirtHyp) (Regular (vmmEnv .qemuArmVirtHyp)) s) ∧
    ∃ s, registerAll (vmmEnv .qemuArmVirtHyp) (firstSpis 68)
      (vgicInit (vmmEnv .qemuArmVirtHyp) (.filled 0)) = .ok (firstSpis 68) s ∧
      Overflows (vmmEnv .qemuArmVirtHyp) (Regular (vmmEnv .qemuArmVirtHyp)) s := by
  have hinert : InertAcks (vmmEnv .qemuArmVirtHyp) := vmmEnv_inert _ (by decide)
  have hrange : ∀ n ≤ 68, ∀ h ∈ firstSpis n, (0 ≤ h.virq ∧ h.virq < irqLimit) ∧ h.ackFn.isSome := by
    intro n hn h hh
    obtain ⟨i, hi, rfl⟩ := List.mem_map.mp hh
    have hlt := List.mem_range.mp hi
    simp only [irqLimit]
    exact ⟨by omega, rfl⟩
  have hnodup : ∀ n, ((firstSpis n).map VirqHandle.virq).Nodup := by
    intro n
    rw [firstSpis, List.map_map]
    exact List.nodup_range.map fun i j hij => by simpa using hij
  have hreg : ∀ n ≤ 68, ∃ s, registerAll (vmmEnv .qemuArmVirtHyp) (firstSpis n)
      (vgicInit (vmmEnv .qemuArmVirtHyp) (.filled 0)) = .ok (firstSpis n) s := by
    intro n hn
    have hlen : (firstSpis n).length ≤ numSlotsSpiVirq := by
      simp only [firstSpis, List.length_map, List.length_range, numSlotsSpiVirq]
      omega
    have hroom : (spis (firstSpis n)).length ≤ numSlotsSpiVirq := (List.length_filter_le _ _).trans hlen
    obtain ⟨v, hall, -⟩ := @run_registerAll _ (vmmEnv .qemuArmVirtHyp) (firstSpis n) (.filled 0)
      fun h hh => (hrange n hn h hh).1.1
    rw [foldl_accept_of_nodup (hnodup n) hroom] at hall
    exact ⟨_, hall⟩
  obtain ⟨s, hs⟩ := hreg 67 (by decide)
  obtain ⟨t, ht⟩ := hreg 68 (by decide)
  refine ⟨⟨s, hs, ?_⟩, t, ht, ?_⟩
  · exact (queue_capacity rfl hinert (vmmEnv_accepts _) (fun h hh => (hrange 67 (by decide) h hh).1) (hnodup 67) hs).1
      (by simp [firstSpis])
  · exact (queue_capacity rfl hinert (vmmEnv_accepts _) (fun h hh => (hrange 68 (by decide) h hh).1) (hnodup 68) ht).2
      (vmmEnv_tcb _) (fun h hh => (hrange 68 (by decide) h hh).2) (by simp [firstSpis])

/-- SGI 0 is injected again and again, each time after the guest has disabled interrupt 992. -/
def reinjected (env : Env VmmAckFn) : List (Op VmmAckFn) :=
  guestStore env 0x000 1 ++ (List.replicate 67
    [.injectIrq 0, .fault (.vmFault (env.board.gicDistPaddr + 0x1fc) storeWord)]).flatten

/-- One registered interrupt can fill the queue. -/
theorem overflows_one : ∃ s, registerAll (vmmEnv .qemuArmVirtHyp) [⟨0, some .sgiAck, null⟩]
      (vgicInit (vmmEnv .qemuArmVirtHyp) (.filled 0)) = .ok [⟨0, some .sgiAck, null⟩] s ∧
    Overflows (vmmEnv .qemuArmVirtHyp) (fun _ => RunStep (vmmEnv .qemuArmVirtHyp)) s := by
  obtain ⟨v, hall, -⟩ := @run_registerAll _ (vmmEnv .qemuArmVirtHyp) [⟨0, some .sgiAck, null⟩] (.filled 0) (by simp)
  obtain ⟨a, s, hrun, hp⟩ := ok_of_endsIn (x := registerAll (vmmEnv .qemuArmVirtHyp) [⟨0, some .sgiAck, null⟩])
    (s := vgicInit (vmmEnv .qemuArmVirtHyp) (.filled 0))
    (p := fun s => decide (AllowedRun (fun _ => RunStep (vmmEnv .qemuArmVirtHyp)) (step (vmmEnv .qemuArmVirtHyp))
      (reinjected (vmmEnv .qemuArmVirtHyp)) s) &&
      (final (step (vmmEnv .qemuArmVirtHyp)) (reinjected (vmmEnv .qemuArmVirtHyp)) s).any fun s =>
        decide (.enqueueFailed 0 ∈ (outcome (step (vmmEnv .qemuArmVirtHyp) (.injectIrq 0)) s).log)) (by decide +kernel)
  obtain ⟨rfl, -⟩ := EStateM.Result.ok.inj (hrun.symm.trans hall)
  obtain ⟨hallowed, hfinal⟩ := Bool.and_eq_true_iff.mp hp
  obtain ⟨t, ht, hfail⟩ := @Reach.exists_final _ _ _ (fun t => t = s) _ _ _ _ _ (.init rfl) (of_decide_eq_true hallowed) hfinal
  have hregister : NotRegister (.injectIrq 0 : Op VmmAckFn) := trivial
  exact ⟨s, hrun, t, _, ht, ⟨hregister, id⟩, 0, of_decide_eq_true hfail⟩

end Sel4cpVmm
