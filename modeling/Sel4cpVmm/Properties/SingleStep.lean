import Sel4cpVmm.Proofs.Guest
import Sel4cpVmm.Proofs.Reentrant
import Sel4cpVmm.Proofs.Residents

/-!
# An access steps the guest once

A trapped access of the distributor or the redistributor resumes the guest once behind the instruction, whatever
callbacks it runs, and changes no register but the destination of a load. It fails to do so only where an assertion
fails or an unregistered SPI is set pending.
-/

namespace Sel4cpVmm

open StopProgram

variable {φ : Type} {env : Env φ}

/-- From `s` to `s'` an access with the syndrome has stepped the guest once. -/
structure SteppedOnce (s s' : Vmm φ) (fsr : U64) : Prop where
  returns : (newEvents s s').filter Event.isReturn = [.writeRegisters true s'.tcb, .reply]
  pc : s'.tcb.pc = s.tcb.pc + 4
  store : faultIsWrite fsr = true → s'.tcb = s.tcb.advanced ∧ s'.wzr = s.wzr
  load : faultIsRead fsr = true → ∃ x, s'.tcb = { s.tcb.advanced with x := x } ∧
    ∀ n : Fin 31, (hsrSyndromeRt fsr).toNat ≠ n → x.get n = s.tcb.x.get n
  loadKept : faultIsRead fsr = true → s'.vgic = s.vgic ∧ s'.dist = s.dist ∧ s'.redist = s.redist

/-- An access that begins in `s` and stops in `t` sets `irq` pending itself or through a callback that it calls. -/
inductive SetsPending (env : Env φ) (s t : Vmm φ) (addr fsr : U64) (irq : Int) : Prop
  | ispendr : WritesDist env (fun w => w = .ispendr) addr fsr → irq ∈ accessIrqs env s addr fsr →
      SetsPending env s t addr fsr irq
  | callback {fn : φ} {virq : Int} {u : Vmm φ} : .ack fn vcpuId virq null ∈ newEvents s u → u.log <+: t.log →
      AckCall.injectIrq irq ∈ env.ackFn fn vcpuId virq null u → SetsPending env s t addr fsr irq

/-- The access stops in an assertion, or it sets an SPI pending that is not registered. -/
def StopsEarly (env : Env φ) (s : Vmm φ) (addr fsr : U64) (e : Stop) (t : Vmm φ) : Prop :=
  e = .assertFailed ∨ (e = .nullDeref ∧ ∃ irq, (numVcpuLocalVirqs : Int) ≤ irq ∧ s.vgic.handle irq = none ∧
    SetsPending env s t addr fsr irq)

/-! ### Ends -/

section Ends

variable {s t : Vmm φ} {addr fsr : U64}

lemma filter_returns {l : List (Event φ)} (h : ∀ e ∈ l, e.isReturn = false) : l.filter Event.isReturn = [] :=
  List.filter_eq_nil_iff.mpr fun e he => by simp [h e he]

lemma steppedOnce_store (hwrite : faultIsWrite fsr = true) (h : GuestKept s t) :
    SteppedOnce s (resumed t s.tcb) fsr := by
  have hread : ¬faultIsRead fsr = true := by simp [faultIsRead, hwrite]
  obtain ⟨l, hl, hret⟩ := newEvents_resumed h s.tcb
  refine ⟨?_, rfl, fun _ => ⟨rfl, h.wzr⟩, fun hr => absurd hr hread, fun hr => absurd hr hread⟩
  rw [hl, List.filter_append, filter_returns hret]
  rfl

lemma steppedOnce_unknown (hread : faultIsRead fsr = true) : SteppedOnce s (resumed s s.tcb) fsr := by
  have hwrite : ¬faultIsWrite fsr = true := by simpa [faultIsRead] using hread
  refine ⟨?_, rfl, fun hw => absurd hw hwrite, fun _ => ⟨s.tcb.x, rfl, fun _ _ => rfl⟩, fun _ => ⟨rfl, rfl, rfl⟩⟩
  rw [newEvents_eq rfl]
  rfl

lemma steppedOnce_load (hread : faultIsRead fsr = true) (reg : U32) :
    SteppedOnce s (readBack s s.tcb addr fsr reg) fsr := by
  have hwrite : ¬faultIsWrite fsr = true := by simpa [faultIsRead] using hread
  unfold readBack loaded
  cases hp : rtPtr fsr with
  | reg n =>
    have hrt : (hsrSyndromeRt fsr).toNat = n := by
      unfold rtPtr at hp
      split_ifs at hp with hlt
      rw [← RtPtr.reg.inj hp]
    refine ⟨?_, rfl, fun hw => absurd hw hwrite, fun _ => ⟨_, rfl, fun m hm => ?_⟩, fun _ => ⟨rfl, rfl, rfl⟩⟩
    · dsimp only
      rw [newEvents_eq rfl]
      rfl
    · rw [hrt] at hm
      exact Vector.getElem_set_ne n.isLt m.isLt hm
  | wzr =>
    refine ⟨?_, rfl, fun hw => absurd hw hwrite, fun _ => ⟨s.tcb.x, rfl, fun _ _ => rfl⟩, fun _ => ⟨rfl, rfl, rfl⟩⟩
    dsimp only
    rw [newEvents_eq rfl]
    rfl

end Ends

/-! ### Stops -/

section Stops

variable (hstop : env.assertStops = true) {s t : Vmm φ} {addr fsr : U64} {irq : Int}

include hstop

/-- The tables are as they were when the access began, and the log has grown. -/
structure Running (s t : Vmm φ) : Prop where
  wf : t.vgic.Wf
  deref : t.vgic.deref = s.vgic.deref
  log : LogGrows s t

lemma Running.inject (h : Running s t) (hpend : ∀ u, LogGrows t u → (numVcpuLocalVirqs : Int) ≤ irq → SetsPending env s u addr fsr irq) :
    wp (vgicInjectIrq env vcpuId irq) (fun _ u => Running s u) (StopsEarly env s addr fsr) t := by
  have hgrows := @logGrows_vgicInjectIrq _ env vcpuId irq t
  refine wp_mono (wp_and (@wp_inject φ env t vcpuId irq hstop h.wf) hgrows) (fun b u hu => ?_) (fun e u hu => ?_)
  · exact ⟨hu.1.wf h.wf, hu.1.deref.trans h.deref, h.log.trans hu.2⟩
  · obtain ⟨hstops, hgrow⟩ := hu
    cases hstops with
    | noHandle hpos hfind =>
      have hspi : (numVcpuLocalVirqs : Int) ≤ irq := by
        by_contra hlt
        have hsome := Vgic.find_isSome_of_local (v := t.vgic) ⟨hpos, Int.not_le.mp hlt⟩
        exact absurd hsome (by simp [hfind])
      have hnone : s.vgic.handle irq = none := by
        rw [← Vgic.handle_congr h.deref, Vgic.handle, hfind]
        rfl
      exact .inr ⟨rfl, irq, hspi, hnone, hpend t (refl_of LogGrows t) hspi⟩
    | _ => exact .inl rfl

omit hstop in
lemma Running.logged (h : Running s t) (e : Event φ) : Running s { t with log := t.log ++ [e] } :=
  ⟨h.wf, h.deref, h.log.trans (List.prefix_append _ _)⟩

lemma Running.ack (h : Running s t) (a : VirqHandle φ) :
    wp (virqAck env vcpuId a) (fun _ u => Running s u) (StopsEarly env s addr fsr) t := by
  unfold virqAck
  rw [wp_bind, wp_cAssert_stops hstop]
  refine ⟨fun hsome => ?_, fun _ => .inl rfl⟩
  obtain ⟨fn, hfn⟩ := Option.isSome_iff_exists.mp hsome
  simp only [hfn]
  rw [wp_bind, wp_logEvent, wp_bind, wp_get]
  -- the calls are fixed in the state in which the callback is called
  have hcalled : .ack fn vcpuId a.virq null ∈ newEvents s { t with log := t.log ++ [.ack fn vcpuId a.virq null] } := by
    obtain ⟨l, hl⟩ := h.log
    rw [newEvents_eq (l := l ++ [.ack fn vcpuId a.virq null]) (by rw [← hl, List.append_assoc])]
    simp
  have hcalls := wp_forM_keeps (l := env.ackFn fn vcpuId a.virq null { t with log := t.log ++ [.ack fn vcpuId a.virq null] })
    (f := runAckCall env) (E := StopsEarly env s addr fsr)
    (I := fun u => Running s u ∧ t.log ++ [.ack fn vcpuId a.virq null] <+: u.log) (fun c hc u hu => ?_)
    ⟨h.logged _, List.prefix_refl _⟩
  · exact wp_mono hcalls (fun _ _ hu => hu.1) (fun _ _ => id)
  · cases c with
    | irqAck ch => exact ⟨hu.1.logged _, hu.2.trans (List.prefix_append _ _)⟩
    | vcpuAckVppi irq =>
      simp only [runAckCall, vcpuAckVppi, wp_bind, wp_get, wp_logEvent, wp_pure, wp_cAssert_stops hstop]
      exact ⟨fun _ => ⟨hu.1.logged _, hu.2.trans (List.prefix_append _ _)⟩, fun _ => .inl rfl⟩
    | injectIrq irq =>
      rw [runAckCall, wp_bind]
      have hinject := @Running.inject _ _ hstop _ _ addr fsr _ hu.1 fun v hv _ => .callback hcalled (hu.2.trans hv) hc
      refine wp_mono (wp_and hinject (logGrows_vgicInjectIrq vcpuId irq u)) (fun _ v hv => ?_) (fun _ _ hv => hv.1)
      exact ⟨hv.1, hu.2.trans hv.2⟩

omit hstop in
/-- What a distributor write sets pending itself are the bits of `ISPENDR` and software interrupts. -/
lemma inject_mem_distActions {g : GicVersion} {offset : Nat} {val : U64}
    (h : .inject irq ∈ (distActions g offset addr fsr val : List (Action φ))) :
    (distWrite g vcpuId offset = .ispendr ∧ irq ∈ writeIrqs g offset (val.setWidth 32 &&& (dataMask addr fsr).setWidth 32)) ∨
      irq < (numVcpuLocalVirqs : Int) := by
  unfold distActions at h
  cases hk : distWrite g vcpuId offset <;> simp only [hk, List.mem_map, List.mem_singleton, List.not_mem_nil, reduceCtorEq,
    and_false, exists_false] at h
  case ispendr =>
    obtain ⟨i, hi, heq⟩ := h
    obtain rfl := Action.inject.inj heq
    exact .inl ⟨rfl, hi⟩
  case sgir =>
    obtain ⟨l, -, heq⟩ := h
    obtain rfl := Action.inject.inj heq
    have hmask : (val.setWidth 32 &&& 0xF : U32).toNat ≤ 15 := by
      rw [BitVec.toNat_and]
      exact Nat.and_le_right
    refine .inr ?_
    unfold sgirVirq
    simp only [numVcpuLocalVirqs]
    omega

omit hstop in
lemma inject_mem (h : .inject irq ∈ accessActions env s addr fsr) :
    (WritesDist env (fun w => w = .ispendr) addr fsr ∧ irq ∈ accessIrqs env s addr fsr) ∨
      irq < (numVcpuLocalVirqs : Int) := by
  unfold accessActions at h
  split_ifs at h with hread hdist hredist
  · simp at h
  · have hwrite := faultIsWrite_of_not_read hread
    refine (inject_mem_distActions h).imp_left fun hw => ⟨⟨hwrite, hw.1⟩, ?_⟩
    rw [accessIrqs, if_pos hwrite]
    exact hw.2
  · unfold redistActions at h
    cases hk : redistWrite vcpuId (addr - Board.gicRedistPaddr).toNat <;>
      simp only [hk, List.mem_map, List.mem_singleton, List.not_mem_nil, reduceCtorEq, and_false, exists_false] at h
  · simp at h

/-- An operation of an access ends, or it stops in an assertion or at an unregistered SPI. -/
lemma Running.action (h : Running s t) {a : Action φ} (ha : a ∈ accessActions env s addr fsr) :
    wp (a.run env) (fun _ u => Running s u) (StopsEarly env s addr fsr) t := by
  have hacc := isAccess_of_mem ha
  cases a with
  | register irq ackFn ackData => exact hacc.elim
  | notification irq => exact hacc.elim
  | vppiEvent irq => exact hacc.elim
  | retire idx err => exact hacc.elim
  | inject irq =>
    rw [Action.run, wp_bind]
    refine h.inject hstop fun u _ hspi => ?_
    rcases inject_mem ha with ⟨hw, hmem⟩ | hlt
    · exact .ispendr hw hmem
    · exact absurd hspi (Int.not_le.mpr hlt)
  | enable irq =>
    have henabled : Running s (enabled t irq) := ⟨h.wf, h.deref, h.log⟩
    exact wp_vgicDistEnableIrq hstop (fun _ => .inl rfl) (fun _ => henabled) fun b _ _ => henabled.ack hstop b
  | disable irq =>
    rw [Action.run, vgicDistDisableIrq, wp_ite, wp_modifyDist, wp_pure]
    exact ⟨fun _ => ⟨h.wf, h.deref, h.log⟩, fun _ => h⟩
  | clearEnable irq => exact ⟨h.wf, h.deref, h.log⟩
  | clrPending irq => exact ⟨h.wf, h.deref, h.log⟩
  | store w mask bits => exact ⟨h.wf, h.deref, h.log⟩
  | ctlr data =>
    rw [Action.run, writeCtlr, wp_ite, wp_ite, wp_modifyDist, wp_modifyDist, wp_pure]
    exact ⟨fun _ => ⟨h.wf, h.deref, h.log⟩, fun _ => ⟨fun _ => ⟨h.wf, h.deref, h.log⟩, fun _ => h⟩⟩
  | fail =>
    rw [Action.run, wp_cAssert_stops hstop]
    exact ⟨fun _ => h, fun _ => .inl rfl⟩

/-- In every reachable state, an access that ends has stepped the guest once, and one that does not has stopped in
an assertion or set an unregistered SPI pending. -/
theorem steppedOnce_or_stopsEarly {allowed : Vmm φ → Op φ → Prop} (hs : Reachable env allowed s) (addr fsr : U64) :
    (∀ b s', handleFault env (.vmFault addr fsr) s = .ok b s' → SteppedOnce s s' fsr) ∧
      ∀ e t, handleFault env (.vmFault addr fsr) s = .error e t → StopsEarly env s addr fsr e t := by
  have hw := (reachable_workConserving hstop hs).1
  have hrun : wp (handleVmFault env addr fsr) (fun _ s' => SteppedOnce s s' fsr) (StopsEarly env s addr fsr) s := by
    refine wp_vmFault hstop (fun _ _ _ => .inl rfl) (fun hread => ?_) fun hwrite => ?_
    · exact ⟨fun reg _ _ => steppedOnce_load hread reg, fun _ => steppedOnce_unknown hread⟩
    · have hactions : wp (forM (accessActions env s addr fsr) (Action.run env)) (fun _ u => Running s u)
          (StopsEarly env s addr fsr) s :=
        wp_forM_keeps (fun a ha u hu => hu.action hstop ha) ⟨hw, rfl, refl_of LogGrows s⟩
      refine wp_mono (wp_and hactions (kept_accessActions s)) (fun _ u hu => ?_) (fun _ _ hu => hu.1)
      exact ⟨steppedOnce_store hwrite hu.2, fun _ _ _ => .inl rfl⟩
  constructor
  · intro b s' h
    have hafter := wp_ok hrun h
    exact hafter
  · intro e t h
    have hstopped := wp_error hrun h
    exact hstopped

end Stops

/-- The guest enables the virtual timer's interrupt, and its callback runs. -/
theorem steppedOnce_or_stopsEarly_enable : ∃ (s s' : Vmm VmmAckFn) (b : Bool),
    Reachable (vmmEnv .qemuArmVirtHyp) (fun _ _ => True) s ∧
      handleFault (vmmEnv .qemuArmVirtHyp) (.vmFault (0x8000000 + 0x100) storeWord) s = .ok b s' ∧
      s'.log.any Event.isAck = true ∧ SteppedOnce s s' storeWord := by
  obtain ⟨s, hs, hp⟩ := exists_reachable (vmmEnv .qemuArmVirtHyp) (fun _ _ => True)
    (fun s => endsIn (handleFault (vmmEnv .qemuArmVirtHyp) (.vmFault (0x8000000 + 0x100) storeWord)) s
      (fun s' => s'.log.any Event.isAck))
    [.registerIrq 27 (some .vppiEventAck) null, .guest (.filled 0x8000000)] (by decide +kernel) (by decide +kernel)
  obtain ⟨b, s', hrun, hack⟩ := ok_of_endsIn hp
  exact ⟨s, s', b, hs, hrun, hack, (steppedOnce_or_stopsEarly rfl hs _ _).1 _ _ hrun⟩

end Sel4cpVmm
