import Sel4cpVmm.Proofs.Residents

/-!
# A masked SPI and the enable of the distributor

The kernel masks an SPI when it delivers its notification and unmasks it in the ack callback. An SPI that
is dropped while it is disabled is acknowledged when the guest enables it. One that is dropped while the
distributor is disabled is not acknowledged when the guest enables the distributor, and is lost.
-/

namespace Sel4cpVmm

open StopProgram GicDistMap

variable {φ : Type} {env : Env φ}

def Event.masksSpi (irq : Int) : Event φ → Bool
  | .notification i => decide (i = irq)
  | _ => false

def Event.unmasksSpi (irq : Int) : Event φ → Bool
  | .ack _ _ i _ => decide (i = irq)
  | _ => false

/-- The mask bit the kernel keeps for the SPI `irq`. -/
def spiMasked (irq : Int) (log : List (Event φ)) : Bool :=
  Latch.value (Event.masksSpi irq) (Event.unmasksSpi irq) log

/-- A masked SPI that the guest has enabled is neither in a list register nor in the queue. -/
structure Forgotten (s : Vmm φ) (i : Int) : Prop where
  spi : 32 ≤ i
  masked : spiMasked i s.log = true
  enabled : isEnabled s.dist i vcpuId = true
  absent : i ∉ s.vgic.inFlight

/-- No SPI is forgotten while the distributor is enabled. -/
def SpisPresent (env : Env φ) (s : Vmm φ) : Prop :=
  vgicDistIsEnabled env.board.gic s.dist = true → ∀ i, ¬Forgotten s i

/-- The guest writes the enabling value to `CTLR`. -/
def EnablesDist (env : Env φ) (s : Vmm φ) : Op φ → Prop
  | .fault (.vmFault addr fsr) => WritesDist env (fun w => w = .ctlr) addr fsr ∧
      (rtValue s.tcb fsr s.wzr).setWidth 32 = gicEnabled env.board.gic
  | _ => False

instance (s : Vmm φ) (op : Op φ) : Decidable (EnablesDist env s op) :=
  match op with
  | .fault (.vmFault _ _) => inferInstanceAs (Decidable (_ ∧ _))
  | .fault (.unknownSyscall _) => .isFalse id
  | .fault .userException => .isFalse id
  | .fault (.vgicMaintenance _ _) => .isFalse id
  | .fault (.vcpuFault _) => .isFalse id
  | .fault (.vppiEvent _) => .isFalse id
  | .registerIrq _ _ _ => .isFalse id
  | .injectIrq _ => .isFalse id
  | .notification _ => .isFalse id
  | .guest _ => .isFalse id
  | .retire _ => .isFalse id

/-- The distributor is enabled only while no SPI is forgotten. -/
def EnablesSafely (env : Env φ) (s : Vmm φ) (op : Op φ) : Prop := EnablesDist env s op → ∀ i, ¬Forgotten s i

/-- The SPI notified has bits of its own. -/
def NotifiesBelow : Op φ → Prop
  | .notification irq => irq < irqLimit
  | _ => True

/-- The kernel delivers no notification of a masked SPI. -/
def NotifiesUnmasked (s : Vmm φ) : Op φ → Prop
  | .notification irq => spiMasked irq s.log = false
  | _ => True

instance (s : Vmm φ) (op : Op φ) : Decidable (NotifiesUnmasked s op) :=
  match op with
  | .notification _ => inferInstanceAs (Decidable (_ = _))
  | .registerIrq _ _ _ => .isTrue trivial
  | .injectIrq _ => .isTrue trivial
  | .fault _ => .isTrue trivial
  | .guest _ => .isTrue trivial
  | .retire _ => .isTrue trivial

/-! ### Writes to `CTLR` -/

section Ctlr

lemma distActions_of_ctlr {g : GicVersion} {offset : Nat} {addr fsr val : U64} {data : U32}
    (h : .ctlr data ∈ (distActions g offset addr fsr val : List (Action φ))) :
    distWrite g vcpuId offset = .ctlr ∧ data = val.setWidth 32 := by
  unfold distActions at h
  cases hk : distWrite g vcpuId offset <;> simp [hk] at h
  exact ⟨rfl, h⟩

lemma ctlr_not_mem_redistActions {offset : Nat} {addr fsr val : U64} {data : U32} :
    .ctlr data ∉ (redistActions offset addr fsr val : List (Action φ)) := by
  unfold redistActions
  cases redistWrite vcpuId offset <;> simp

lemma enablesDist_of_ctlr {s : Vmm φ} {op : Op φ} {data : U32} (h : .ctlr data ∈ opActions env s op)
    (hdata : data = gicEnabled env.board.gic) : EnablesDist env s op := by
  cases op with
  | fault f =>
    cases f with
    | vmFault addr fsr =>
      change _ ∈ accessActions env s addr fsr at h
      unfold accessActions at h
      split_ifs at h with hread hdist hredist
      · simp at h
      · obtain ⟨hk, hval⟩ := distActions_of_ctlr h
        exact ⟨⟨faultIsWrite_of_not_read hread, hk⟩, hval ▸ hdata⟩
      · exact absurd h ctlr_not_mem_redistActions
      · simp at h
    | _ => simp [opActions] at h
  | _ => simp [opActions] at h

lemma offset_of_ctlr {g : GicVersion} {offset : Nat} (h : distWrite g vcpuId offset = .ctlr) : offset < 4 := by
  unfold distWrite at h
  repeat' (replace h := ite_eq_iff.mp h; rcases h with ⟨hr, h⟩ | ⟨-, h⟩)
  all_goals try contradiction
  simp only [range32, gicDistCtlr, Bool.and_eq_true, decide_eq_true_eq] at hr
  omega

lemma inDist_of_sub_lt {addr : U64} (h : (addr - env.board.gicDistPaddr).toNat < 4) : InDist env addr := by
  have haddr : addr = env.board.gicDistPaddr + BitVec.ofNat 64 (addr - env.board.gicDistPaddr).toNat := by
    rw [BitVec.ofNat_toNat, BitVec.setWidth_eq, BitVec.add_comm, BitVec.sub_add_cancel]
  rw [haddr]
  exact inDist_of_lt (by omega)

lemma EnablesDist.opActions {s : Vmm φ} {op : Op φ} (h : EnablesDist env s op) :
    opActions env s op = [.ctlr (gicEnabled env.board.gic)] := by
  cases op with
  | fault f =>
    cases f with
    | vmFault addr fsr =>
      obtain ⟨⟨hwrite, hk⟩, hdata⟩ := h
      have hread : ¬faultIsRead fsr = true := by simp [faultIsRead, hwrite]
      change accessActions env s addr fsr = _
      rw [accessActions, if_neg hread, if_pos (inDist_of_sub_lt (offset_of_ctlr hk))]
      simp only [distActions, hk, hdata]
    | _ => exact False.elim h
  | _ => exact False.elim h

end Ctlr

/-! ### Handles of SPIs -/

section Handles

variable {v : Vgic φ} {i : Int}

lemma deref_of_find_spi (hi : 32 ≤ i) (h : (v.find i).isSome) : ∃ k, (v.deref (.spi k)).virq = i := by
  obtain ⟨p, hp⟩ := Option.isSome_iff_exists.mp h
  rw [Vgic.find, if_neg (by simp only [numVcpuLocalVirqs]; omega)] at hp
  obtain ⟨k, hk, -⟩ := Option.map_eq_some_iff.mp hp
  have hspec := List.find?_some hk
  simp only [Bool.and_eq_true, decide_eq_true_eq] at hspec
  exact ⟨k, hspec.2⟩

lemma handle_of_deref_spi (hi : 32 ≤ i) {k : Fin numSlotsSpiVirq} (h : (v.deref (.spi k)).virq = i) :
    ∃ a, v.handle i = some a := by
  have hk : (v.vspis[k]).virq = i := h
  have hsome : ((List.finRange numSlotsSpiVirq).find? fun j =>
      decide (v.vspis[j].virq ≠ virqInvalid) && decide (v.vspis[j].virq = i)).isSome := by
    refine List.find?_isSome.mpr ⟨k, List.mem_finRange k, ?_⟩
    have hne : i ≠ virqInvalid := by simp only [virqInvalid]; omega
    rw [Bool.and_eq_true, decide_eq_true_eq, decide_eq_true_eq]
    exact ⟨fun hv => hne (hk.symm.trans hv), hk⟩
  obtain ⟨j, hj⟩ := Option.isSome_iff_exists.mp hsome
  have hspec := List.find?_some hj
  simp only [Bool.and_eq_true, decide_eq_true_eq] at hspec
  refine ⟨v.deref (.spi j), ?_⟩
  rw [Vgic.handle, Vgic.find, if_neg (by simp only [numVcpuLocalVirqs]; omega), virqFindSpiIrqData, hj]
  exact present_eq_some.mpr ⟨rfl, hspec.1⟩

lemma Injected.find_isSome {s s' : Vmm φ} {b : Bool} (h : Injected env s i b s') : (s.vgic.find i).isSome := by
  have hsome : ∀ {a : VirqHandle φ}, s.vgic.handle i = some a → (s.vgic.find i).isSome := by
    intro a ha
    obtain ⟨p, hp, -⟩ := Option.bind_eq_some_iff.mp ha
    rw [hp]
    rfl
  cases h with
  | refused hfind _ => exact hfind
  | pending hcan _ => exact hsome hcan.handle
  | accepted hcan _ _ => exact hsome hcan.handle

lemma Does.deref_spi {s s' : Vmm φ} {a : Action φ} (hd : Does env s a s') (hi : 32 ≤ i) {k : Fin numSlotsSpiVirq}
    (h : (s.vgic.deref (.spi k)).virq = i) : (s'.vgic.deref (.spi k)).virq = i := by
  rcases hd.deref with he | ⟨irq, fn, data, p, -, hr⟩
  · rwa [he]
  · have hne : VirqPtr.spi k ≠ p := by
      rintro rfl
      have hfree := hr.free
      rw [h] at hfree
      simp only [virqInvalid] at hfree
      omega
    rwa [hr.deref, Function.update_of_ne hne]

end Handles

/-! ### The invariant -/

lemma masksSpi_quiet {irq : Int} (e : Event φ) (h : e.isArrival = false) : e.masksSpi irq = false := by
  cases e <;> simp_all [Event.isArrival, Event.masksSpi]

/-- Only a notification raises the mask bit. -/
lemma Does.masks_spi {s s' : Vmm φ} {a : Action φ} (hd : Does env s a s') {i : Int}
    (hm : spiMasked i s'.log = true) :
    spiMasked i s.log = true ∨ a = .notification i ∧ (s.vgic.find i).isSome := by
  cases hd with
  | inject h => exact .inl (h.latch masksSpi_quiet hm)
  | @notification irq b s' h =>
    by_cases hirq : irq = i
    · subst hirq
      have hfind := h.find_isSome
      exact .inr ⟨rfl, hfind⟩
    · have hbefore := h.latch masksSpi_quiet hm
      exact .inl (Latch.of_value_append (by simpa [Event.masksSpi] using hirq) hbefore)
  | @vppiEvent irq b t h =>
    have hmt : spiMasked i t.log = true :=
      Latch.of_value_append (by cases b <;> simp [vppiReturn, Event.masksSpi]) hm
    exact .inl (Latch.of_value_append (by simp [Event.masksSpi]) (h.latch masksSpi_quiet hmt))
  | retire hr => exact .inl (hr.latch masksSpi_quiet hm)
  | enableAck => exact .inl (latch_of_acked masksSpi_quiet hm)
  | _ => exact .inl hm

lemma spiMasked_acked {s t : Vmm φ} {h : VirqHandle φ} (hfn : h.ackFn.isSome) {l : List (Event φ)}
    (hl : ∀ e ∈ l, e.isArrival = false) : spiMasked h.virq (s.log ++ ackEvents env t h ++ l) = false := by
  obtain ⟨fn, hfn⟩ := Option.isSome_iff_exists.mp hfn
  have hack := ackEvents_quiet env t h
  unfold ackEvents at hack ⊢
  rw [hfn] at hack ⊢
  rw [List.append_assoc, List.cons_append]
  refine Latch.value_append_cleared (by simp [Event.unmasksSpi]) fun e he => masksSpi_quiet e ?_
  rcases List.mem_append.mp he with he | he
  · exact hack e (List.mem_cons_of_mem _ he)
  · exact hl e he

/-- Pending SPIs are in flight, masked ones are registered, and none is forgotten while the distributor is
enabled. -/
structure SpisHeld (env : Env φ) (s : Vmm φ) : Prop where
  residents : ∀ h ∈ s.vgic.view.residents, 0 ≤ h.virq
  pending : ∀ i, 32 ≤ i ∧ i < irqLimit → isPending s.dist i vcpuId = true →
    i ∈ s.vgic.view.residents.map VirqHandle.virq
  masked : ∀ i, 32 ≤ i → spiMasked i s.log = true → i < irqLimit ∧ ∃ k, (s.vgic.deref (.spi k)).virq = i
  present : vgicDistIsEnabled env.board.gic s.dist = true → ∀ i, 32 ≤ i → spiMasked i s.log = true →
    isEnabled s.dist i vcpuId = true → i ∈ s.vgic.view.residents.map VirqHandle.virq

section Held

variable {s s' : Vmm φ} {a : Action φ} {i : Int} (hI : SpisHeld env s)

include hI

lemma SpisHeld.masked_does (hd : Does env s a s') (hn : ∀ irq, a = .notification irq → irq < irqLimit)
    (hi : 32 ≤ i) (hm : spiMasked i s'.log = true) : i < irqLimit ∧ ∃ k, (s'.vgic.deref (.spi k)).virq = i := by
  have hbefore : i < irqLimit ∧ ∃ k, (s.vgic.deref (.spi k)).virq = i := by
    rcases hd.masks_spi hm with hm | ⟨ha, hfind⟩
    · exact hI.masked i hi hm
    · exact ⟨hn i ha, deref_of_find_spi hi hfind⟩
  obtain ⟨hlt, k, hk⟩ := hbefore
  exact ⟨hlt, k, hd.deref_spi hi hk⟩

lemma SpisHeld.present_of_frame (hi : 32 ≤ i) (hm : spiMasked i s.log = true) {d : GicDistMap}
    (hc : d.word ctlr = s.dist.word ctlr) (he : isEnabled d i vcpuId = isEnabled s.dist i vcpuId)
    (hon : vgicDistIsEnabled env.board.gic d = true) (hen : isEnabled d i vcpuId = true) :
    i ∈ s.vgic.view.residents.map VirqHandle.virq :=
  hI.present (vgicDistIsEnabled_congr _ hc ▸ hon) i hi hm (he ▸ hen)

lemma SpisHeld.present_injected {t u : Vmm φ} {irq : Int} {b : Bool} (hv : t.vgic = s.vgic) (hdist : t.dist = s.dist)
    (hlog : spiMasked i t.log = true → spiMasked i s.log = true) (h : Injected env t irq b u)
    (hi : 32 ≤ i ∧ i < irqLimit) (hon : vgicDistIsEnabled env.board.gic u.dist = true)
    (hm : spiMasked i u.log = true) (he : isEnabled u.dist i vcpuId = true) :
    i ∈ u.vgic.view.residents.map VirqHandle.virq := by
  have hframe : u.dist.word ctlr = s.dist.word ctlr ∧ isEnabled u.dist i vcpuId = isEnabled s.dist i vcpuId := by
    rw [← hdist]
    cases h with
    | refused => exact ⟨rfl, rfl⟩
    | pending => exact ⟨rfl, rfl⟩
    | accepted _ _ ha =>
      rw [ha.dist]
      exact ⟨word_ctlr_setPending, isEnabled_setPending ⟨by omega, hi.2⟩⟩
  have hmem := hI.present_of_frame hi.1 (hlog (h.latch masksSpi_quiet hm)) hframe.1 hframe.2 hon he
  exact h.keeps (hv ▸ hmem)

/-- An SPI that the guest has enabled is refused by a disabled distributor only. -/
lemma SpisHeld.present_notified (hw : s.vgic.Wf) {b : Bool} (hi : 32 ≤ i ∧ i < irqLimit)
    (h : Injected env { s with log := s.log ++ [.notification i] } i b s')
    (hon : vgicDistIsEnabled env.board.gic s'.dist = true) (he : isEnabled s'.dist i vcpuId = true) :
    i ∈ s'.vgic.view.residents.map VirqHandle.virq := by
  cases b with
  | true => exact h.mem_residents hw (hI.pending _ hi)
  | false =>
    cases h with
    | refused hfind hno =>
      obtain ⟨k, hk⟩ := deref_of_find_spi hi.1 hfind
      obtain ⟨b, hb⟩ := handle_of_deref_spi hi.1 hk
      exact absurd ⟨hb, hon, he⟩ (hno b)

lemma SpisHeld.present_retires {k : Fin numListRegs} {h : VirqHandle φ} (hr : Retires env s k h s')
    (hi : 32 ≤ i ∧ i < irqLimit) (hon : vgicDistIsEnabled env.board.gic s'.dist = true)
    (hm : spiMasked i s'.log = true) (he : isEnabled s'.dist i vcpuId = true) :
    i ∈ s'.vgic.view.residents.map VirqHandle.virq := by
  by_cases hih : i = h.virq
  · subst hih
    rw [hr.log, spiMasked_acked hr.ackFn (refillEvents_quiet env _ _)] at hm
    exact absurd hm (by simp)
  · rw [hr.dist] at hon he
    exact hr.keeps hih (hI.present_of_frame hi.1 (hr.latch masksSpi_quiet hm) word_ctlr_setPending
      (isEnabled_setPending ⟨by omega, hi.2⟩) hon he)

lemma SpisHeld.present_setEnable {irq : Int} (hirq : 0 ≤ irq ∧ irq < 1056) {on : Bool} (hne : i = irq → on = false)
    (hi : 32 ≤ i ∧ i < irqLimit) (hm : spiMasked i s.log = true)
    (hon : vgicDistIsEnabled env.board.gic (setEnable s.dist irq on vcpuId) = true)
    (he : isEnabled (setEnable s.dist irq on vcpuId) i vcpuId = true) :
    i ∈ s.vgic.view.residents.map VirqHandle.virq := by
  have hset : isEnabled (setEnable s.dist irq on vcpuId) i vcpuId = if i = irq then on else isEnabled s.dist i vcpuId :=
    isEnabled_setEnable ⟨by omega, hi.2⟩ hirq.1
  by_cases hii : i = irq
  · rw [hset, if_pos hii, hne hii] at he
    exact absurd he (by simp)
  · rw [if_neg hii] at hset
    exact hI.present_of_frame hi.1 hm word_ctlr_setEnable hset hon he

/-- A masked SPI that is enabled without being acknowledged is registered, so it is pending. -/
lemma SpisHeld.present_enableOnly (hw : s.vgic.Wf) (hb : 0 ≤ i ∧ i < 1056) (hi : 32 ≤ i ∧ i < irqLimit)
    (hm : spiMasked i s.log = true)
    (hskip : ∀ h, s.vgic.handle i = some h → isPending (enabled s i).dist h.virq vcpuId = true) :
    i ∈ s.vgic.view.residents.map VirqHandle.virq := by
  obtain ⟨-, k, hk⟩ := hI.masked i hi.1 hm
  obtain ⟨a, hhandle⟩ := handle_of_deref_spi hi.1 hk
  have hpend := hskip a hhandle
  rw [(hw.virq_of_handle hhandle).1] at hpend
  exact hI.pending i hi ((isPending_setEnable_spi hb hi).symm.trans hpend)

lemma SpisHeld.present_does (hw : s.vgic.Wf) (hb : a.Bits 1056)
    (hen : ∀ data, a = .ctlr data → data = gicEnabled env.board.gic → ∀ i, ¬Forgotten s i) (hd : Does env s a s')
    (hon : vgicDistIsEnabled env.board.gic s'.dist = true) (hi : 32 ≤ i ∧ i < irqLimit)
    (hm : spiMasked i s'.log = true) (he : isEnabled s'.dist i vcpuId = true) :
    i ∈ s'.vgic.view.residents.map VirqHandle.virq := by
  have hi0 : 0 ≤ i ∧ i < irqLimit := ⟨by omega, hi.2⟩
  cases hd with
  | registerRefused => exact hI.present hon i hi.1 hm he
  | register hr =>
    rw [hr.view hw]
    exact hI.present hon i hi.1 hm he
  | inject h => exact hI.present_injected rfl rfl id h hi hon hm he
  | @notification irq b s' h =>
    by_cases hirq : irq = i
    · subst hirq
      exact hI.present_notified hw hi h hon he
    · have hlog : ∀ e ∈ [Event.notification irq], (e : Event φ).masksSpi i = false := by
        simpa [Event.masksSpi] using hirq
      exact hI.present_injected (t := { s with log := s.log ++ [.notification irq] }) rfl rfl
        (Latch.of_value_append hlog) h hi hon hm he
  | @vppiEvent irq b t h =>
    have hmt : spiMasked i t.log = true :=
      Latch.of_value_append (by cases b <;> simp [vppiReturn, Event.masksSpi]) hm
    have hmem := hI.present_injected (t := { s with log := s.log ++ [.vppiEvent irq.toNat] }) rfl rfl
      (Latch.of_value_append (by simp [Event.masksSpi])) h hi hon hmt he
    exact hmem
  | retire hr => exact hI.present_retires hr hi hon hm he
  | @enableOnly irq hskip =>
    by_cases hirq : i = irq
    · subst hirq
      exact hI.present_enableOnly hw hb hi hm hskip
    · exact hI.present_setEnable hb (fun heq => absurd heq hirq) hi hm hon he
  | @enableAck irq h hhandle hnot hfn =>
    by_cases hirq : i = irq
    · subst hirq
      have hacked : spiMasked h.virq (s.log ++ ackEvents env (enabled s i) h ++ []) = false :=
        spiMasked_acked hfn (by simp)
      rw [(hw.virq_of_handle hhandle).1, List.append_nil] at hacked
      exact absurd (hacked.symm.trans hm) (by simp)
    · exact hI.present_setEnable hb (fun heq => absurd heq hirq) hi (latch_of_acked masksSpi_quiet hm) hon he
  | disableSgi => exact hI.present hon i hi.1 hm he
  | disable => exact hI.present_setEnable hb (fun _ => rfl) hi hm hon he
  | clearEnable => exact hI.present_setEnable hb (fun _ => rfl) hi hm hon he
  | clrPending irq =>
    exact hI.present_of_frame hi.1 hm word_ctlr_setPending (isEnabled_setPending hi0) hon he
  | store w mask bits =>
    obtain ⟨-, hw, hc⟩ := IsPlainWord.out hb
    exact hI.present_of_frame hi.1 hm (by rw [word_set, if_neg hc.symm]) (isEnabled_set hi0 hw _) hon he
  | ctlrEnable hdata =>
    by_contra habsent
    rw [isEnabled_vgicDistEnable _ hi0] at he
    exact hen _ rfl hdata i ⟨hi.1, hm, he, fun hmem => habsent (Vgic.mem_inFlight.mp hmem)⟩
  | ctlrDisable =>
    rw [vgicDistIsEnabled_vgicDistDisable] at hon
    exact absurd hon (by simp)
  | ctlrOther => exact hI.present hon i hi.1 hm he

lemma SpisHeld.does (hw : s.vgic.Wf) (hb : a.Bits 1056) (hn : ∀ irq, a = .notification irq → irq < irqLimit)
    (hen : ∀ data, a = .ctlr data → data = gicEnabled env.board.gic → ∀ i, ¬Forgotten s i)
    (hd : Does env s a s') : SpisHeld env s' := by
  have hrange : ∀ i : Int, 32 ≤ i ∧ i < irqLimit → 0 ≤ i ∧ i < irqLimit := fun i hi => ⟨by omega, hi.2⟩
  have heffect := hd.effect hw hrange hb.quiet_spi
  refine ⟨heffect.residents hI.residents fun h h0 _ _ => h0,
    heffect.pending_inFlight hrange hI.residents hI.pending, fun i hi hm => hI.masked_does hd hn hi hm,
    fun hon i hi hm he => ?_⟩
  exact hI.present_does hw hb hen hd hon ⟨hi, (hI.masked_does hd hn hi hm).1⟩ hm he

end Held

lemma spisHeld_init (tcb : UserContext) : SpisHeld env (vgicInit env tcb) := by
  have hview : (vgicInit env tcb).vgic.view.residents = 0 := residents_init
  have hmask : ∀ i, spiMasked i (vgicInit env tcb).log = false := fun _ => rfl
  refine ⟨by simp [hview], fun i hi hp => ?_, fun i _ hm => ?_, fun _ i _ hm => ?_⟩
  · rw [isPending_init tcb ⟨by omega, hi.2⟩] at hp
    exact absurd hp (by simp)
  · simp [hmask] at hm
  · simp [hmask] at hm

lemma SpisHeld.frame {s t : Vmm φ} (hI : SpisHeld env s) (hf : Frame s t) : SpisHeld env t := by
  have hmask : ∀ i, spiMasked i t.log = true → spiMasked i s.log = true := fun _ => hf.latch masksSpi_quiet
  exact ⟨hf.vgic ▸ hI.residents, hf.vgic ▸ hf.dist ▸ hI.pending,
    fun i hi hm => hf.vgic ▸ hI.masked i hi (hmask i hm),
    fun hon i hi hm he => hf.vgic ▸ hI.present (hf.dist ▸ hon) i hi (hmask i hm) (hf.dist ▸ he)⟩

section Main

variable (hstop : env.assertStops = true) (hinert : InertAcks env) {s : Vmm φ}

include hstop hinert

lemma spisHeld_reachable (hs : Reachable env (fun s op => NotifiesBelow op ∧ EnablesSafely env s op) s) :
    s.vgic.Wf ∧ SpisHeld env s := by
  refine reachable_invariant (I := fun s => s.vgic.Wf ∧ SpisHeld env s) hstop
    (fun tcb => ⟨wf_init, spisHeld_init tcb⟩) (fun s t hf h => ⟨hf.vgic ▸ h.1, h.2.frame hf⟩) ?_ hs
  rintro s op ⟨hw, hI⟩ ⟨hbelow, hsafe⟩
  have hnotif : ∀ a ∈ opActions env s op, ∀ irq, a = .notification irq → irq < irqLimit := by
    rintro a ha irq rfl
    obtain rfl := op_of_notification ha
    exact hbelow
  by_cases hen : EnablesDist env s op
  · have hmem : .ctlr (gicEnabled env.board.gic) ∈ opActions env s op := by simp [hen.opActions]
    rw [hen.opActions, List.forM_cons, wp_bind]
    refine wp_mono (wp_does hstop hinert hw _) (fun _ t hd => ?_) (fun _ _ _ => trivial)
    exact ⟨hd.wf hw, hI.does hw (bits_opActions hmem) (hnotif _ hmem) (fun _ _ _ => hsafe hen) hd⟩
  · refine wp_actions hstop hinert (fun a ha t t' hw hI hd => ?_) (fun _ _ _ _ _ _ _ _ => trivial) hw hI
    refine hI.does hw (bits_opActions ha) (hnotif a ha) ?_ hd
    rintro data rfl hdata
    exact absurd (enablesDist_of_ctlr ha hdata) hen

/-- A write that enables the distributor leaves every forgotten SPI forgotten. -/
lemma EnablesDist.forgotten {op : Op φ} (hen : EnablesDist env s op) {s' : Vmm φ}
    (hrun : step env op s = .ok ⟨⟩ s') (hw : s.vgic.Wf) {i : Int} (hi : i < irqLimit) (hf : Forgotten s i) :
    vgicDistIsEnabled env.board.gic s'.dist = true ∧ Forgotten s' i := by
  have hi0 : 0 ≤ i ∧ i < irqLimit := ⟨by have := hf.spi; omega, hi⟩
  have hwp : wp (step env op) (fun _ t => vgicDistIsEnabled env.board.gic t.dist = true ∧ Forgotten t i)
      (fun _ _ => True) s := by
    refine step_wp (E := fun _ => True) hstop (fun _ _ => trivial) ?_
    rw [hen.opActions, List.forM_cons, wp_bind]
    refine wp_mono (wp_does hstop hinert hw _) (fun _ t hd u hu => ⟨?_, trivial⟩) (fun _ _ _ => trivial)
    cases hd with
    | ctlrEnable =>
      obtain ⟨l, hl, hret⟩ := hu.log
      have hquiet : ∀ e ∈ l, e.masksSpi i = false ∧ e.unmasksSpi i = false := by
        intro e he
        have := hret e he
        cases e <;> simp_all [Event.isReturn, Event.masksSpi, Event.unmasksSpi]
      rw [hu.dist]
      refine ⟨vgicDistIsEnabled_vgicDistEnable _ _, hf.spi, ?_, ?_, ?_⟩
      · rw [hl, spiMasked, Latch.value_append_quiet hquiet]
        exact hf.masked
      · rw [hu.dist, isEnabled_vgicDistEnable _ hi0]
        exact hf.enabled
      · rw [hu.vgic]
        exact hf.absent
    | ctlrDisable hne => exact absurd rfl hne
    | ctlrOther hne => exact absurd rfl hne
  have hafter := wp_ok hwp hrun
  exact hafter

end Main

/-! ### The serial interrupt -/

/-- SPI 33 is dropped while the guest has it disabled, acknowledged when it enables it, and fires again. -/
def serialDisabled (env : Env VmmAckFn) : List (Op VmmAckFn) :=
  [.registerIrq 33 (some .serialAck) null] ++ guestStore env 0x000 1 ++ [.notification 33] ++
    guestStore env 0x104 2 ++ [.notification 33]

/-- SPI 33 is enabled and fires while the distributor is disabled; then the guest enables the distributor. -/
def serialForgotten (env : Env VmmAckFn) : List (Op VmmAckFn) :=
  [.registerIrq 33 (some .serialAck) null] ++ guestStore env 0x104 2 ++ [.notification 33] ++
    guestStore env 0x000 1

end Sel4cpVmm
