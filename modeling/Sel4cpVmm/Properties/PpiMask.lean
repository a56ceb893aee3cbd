import Sel4cpVmm.Proofs.Residents

/-!
# A masked PPI is on its way to the guest

The kernel masks a PPI when it delivers its event and unmasks it when the VMM acknowledges it. Whenever
a PPI is masked the VMM holds it in a list register or in the queue, whatever the guest does to the
enable and pending bits.
-/

namespace Sel4cpVmm

variable {φ : Type} {env : Env φ}

def Event.masksPpi (irq : Int) : Event φ → Bool
  | .vppiEvent i => decide (i = irq)
  | _ => false

def Event.unmasksPpi (irq : Int) : Event φ → Bool
  | .vcpuAckVppi i => decide (i = irq)
  | _ => false

/-- The mask bit the kernel keeps for the PPI `irq`. -/
def ppiMasked (irq : Int) (log : List (Event φ)) : Bool :=
  Latch.value (Event.masksPpi irq) (Event.unmasksPpi irq) log

lemma masksPpi_quiet {irq : Int} (e : Event φ) (h : e.isArrival = false) : e.masksPpi irq = false := by
  cases e <;> simp_all [Event.isArrival, Event.masksPpi]

def IsPpi (irq : Int) : Prop := 16 ≤ irq ∧ irq < 32

instance (irq : Int) : Decidable (IsPpi irq) := inferInstanceAs (Decidable (_ ∧ _))

/-- The callback does what `vppi_event_ack` does. -/
def IsVppiAck (env : Env φ) (fn : φ) : Prop :=
  ∀ vcpu irq cookie s, env.ackFn fn vcpu irq cookie s = [.vcpuAckVppi irq]

def AcksPpi (env : Env φ) (h : VirqHandle φ) : Prop := IsPpi h.virq → ∃ fn, h.ackFn = some fn ∧ IsVppiAck env fn

/-- PPIs are registered with `vppi_event_ack` only. -/
def RegistersPpiAck (env : Env φ) : Op φ → Prop
  | .registerIrq irq ackFn ackData => AcksPpi env ⟨irq, ackFn, ackData⟩
  | _ => True

/-! ### The invariant -/

/-- Pending and masked PPIs are in flight, and those in flight or registered are acknowledged. -/
structure PpiOnItsWay (env : Env φ) (s : Vmm φ) : Prop where
  residents : ∀ h ∈ s.vgic.view.residents, 0 ≤ h.virq ∧ AcksPpi env h
  handles : ∀ p, AcksPpi env (s.vgic.deref p)
  pending : ∀ i, 0 ≤ i ∧ i < irqLimit → isPending s.dist i vcpuId = true →
    i ∈ s.vgic.view.residents.map VirqHandle.virq
  masked : ∀ i, IsPpi i → ppiMasked i s.log = true → i ∈ s.vgic.view.residents.map VirqHandle.virq

lemma cInt_of_isPpi {irq : U64} (h : IsPpi irq.toNat) : cInt irq = irq.toNat := by
  have hlt : irq.toNat < 32 := by
    have := h.2
    omega
  unfold cInt
  rw [BitVec.toInt_setWidth, Int.bmod_eq_of_le] <;> omega

lemma ppiMasked_acked {s t : Vmm φ} {h : VirqHandle φ} (hack : AcksPpi env h) (hi : IsPpi h.virq) {l : List (Event φ)}
    (hl : ∀ e ∈ l, e.isArrival = false) : ppiMasked h.virq (s.log ++ ackEvents env t h ++ l) = false := by
  obtain ⟨fn, hfn, hcalls⟩ := hack hi
  have hevents : ackEvents env t h = [.ack fn vcpuId h.virq null, .vcpuAckVppi h.virq] := by
    unfold ackEvents
    rw [hfn]
    simp only [hcalls vcpuId h.virq null _, List.filterMap_cons, List.filterMap_nil, AckCall.event]
  have hlog : s.log ++ ackEvents env t h ++ l = (s.log ++ [.ack fn vcpuId h.virq null]) ++ .vcpuAckVppi h.virq :: l := by
    rw [hevents]
    simp
  rw [hlog]
  exact Latch.value_append_cleared (by simp [Event.unmasksPpi]) fun e he => masksPpi_quiet e (hl e he)

lemma ppiMasked_refused (log : List (Event φ)) (irq : U64) : ppiMasked irq.toNat (log ++ vppiReturn irq false) = false :=
  Latch.value_append_cleared (by simp [Event.unmasksPpi]) (by simp [Event.masksPpi])

lemma PpiOnItsWay.masked_does {s s' : Vmm φ} {a : Action φ} (hI : PpiOnItsWay env s) (hw : s.vgic.Wf)
    (hd : Does env s a s') {i : Int} (hi : IsPpi i) (hm : ppiMasked i s'.log = true) :
    i ∈ s'.vgic.view.residents.map VirqHandle.virq := by
  cases hd with
  | register hr =>
    rw [hr.view hw]
    exact hI.masked i hi hm
  | inject h => exact h.keeps (hI.masked i hi (h.latch masksPpi_quiet hm))
  | notification h =>
    have hbefore := h.latch masksPpi_quiet hm
    exact h.keeps (hI.masked i hi (Latch.of_value_append (by simp [Event.masksPpi]) hbefore))
  | @vppiEvent irq b t h =>
    by_cases hirq : (irq.toNat : Int) = i
    · subst hirq
      rw [cInt_of_isPpi hi] at h
      cases b with
      | false => exact absurd (hm.symm.trans (ppiMasked_refused t.log irq)) (by simp)
      | true =>
        have hlt : ((irq.toNat : Nat) : Int) < irqLimit := Int.lt_trans hi.2 (by decide)
        have hmem := h.mem_residents hw (hI.pending _ ⟨by omega, hlt⟩)
        exact hmem
    · have hmt : ppiMasked i t.log = true :=
        Latch.of_value_append (by cases b <;> simp [vppiReturn, Event.masksPpi]) hm
      have hbefore := h.latch masksPpi_quiet hmt
      have hmem := h.keeps (hI.masked i hi (Latch.of_value_append (by simpa [Event.masksPpi] using hirq) hbefore))
      exact hmem
  | @retire k err h t hr =>
    by_cases hih : i = h.virq
    · subst hih
      have hack := (hI.residents h (by rw [hr.residents]; simp)).2
      rw [hr.log, ppiMasked_acked hack hi (refillEvents_quiet env _ _)] at hm
      exact absurd hm (by simp)
    · exact hr.keeps hih (hI.masked i hi (hr.latch masksPpi_quiet hm))
  | enableAck => exact hI.masked i hi (latch_of_acked masksPpi_quiet hm)
  | _ => exact hI.masked i hi hm

lemma ppiOnItsWay_init (tcb : UserContext) : PpiOnItsWay env (vgicInit env tcb) := by
  have hview : (vgicInit env tcb).vgic.view.residents = 0 := residents_init
  refine ⟨by simp [hview], fun p => ?_, fun i hi hp => ?_, fun i _ hm => ?_⟩
  · change AcksPpi env ((Vgic.init : Vgic φ).deref p)
    rw [deref_init]
    exact fun h => absurd h.1 (by simp [VirqHandle.invalid, virqInvalid])
  · rw [isPending_init tcb hi] at hp
    exact absurd hp (by simp)
  · exact absurd hm (by simp [ppiMasked, Latch.value, vgicInit])

lemma acksPpi_of_register {s : Vmm φ} {op : Op φ} (h : RegistersPpiAck env op) {irq : Int} {fn : Option φ}
    {data : VoidPtr} (ha : .register irq fn data ∈ opActions env s op) : AcksPpi env ⟨irq, fn, data⟩ := by
  obtain rfl := op_of_register ha
  exact h

/-- In every state reached with PPIs registered with `vppi_event_ack` or not at all, over interrupt numbers
below the limit, a masked PPI is in a list register or in the queue. -/
theorem masked_ppi_inFlight (hstop : env.assertStops = true) (hinert : InertAcks env)
    {s : Vmm φ} (hs : Reachable env (fun s op => BelowLimit env s op ∧ RegistersPpiAck env op) s)
    {i : Int} (hi : IsPpi i) (hm : ppiMasked i s.log = true) : i ∈ s.vgic.inFlight := by
  obtain ⟨-, hI⟩ := reachable_does hstop hinert (I := PpiOnItsWay env) ppiOnItsWay_init
    (fun s t hf hI => ⟨hf.vgic ▸ hI.residents, hf.vgic ▸ hI.handles, hf.vgic ▸ hf.dist ▸ hI.pending,
      fun i hi hm => hf.vgic ▸ hI.masked i hi (hf.latch masksPpi_quiet hm)⟩)
    (fun s op a hop ha t t' hw hI hd => by
      have he := hd.effect hw (fun _ => id) (below_opActions hop.1 ha).bits.quiet
      refine ⟨he.residents hI.residents ?_, hd.handles hI.handles ?_,
        he.pending_inFlight (fun _ => id) (fun h hh => (hI.residents h hh).1) hI.pending,
        fun i hi hm => hI.masked_does hw hd hi hm⟩
      · intro h h0 _ hhandle
        obtain ⟨p, rfl⟩ := Vgic.deref_of_handle hhandle
        exact ⟨h0, hI.handles p⟩
      · rintro irq fn data rfl
        exact acksPpi_of_register hop.2 ha) hs
  exact Vgic.mem_inFlight.mpr (hI.masked i hi hm)

/-- The guest enables the registered virtual timer, which then fires. -/
def timerFires (env : Env VmmAckFn) : List (Op VmmAckFn) :=
  [.registerIrq 27 (some .vppiEventAck) null] ++ guestStore env 0x000 1 ++ guestStore env 0x100 0x8000000 ++
    [.fault (.vppiEvent 27)]

theorem masked_ppi_inFlight_timer : ∃ s : Vmm VmmAckFn, ppiMasked 27 s.log = true ∧ 27 ∈ s.vgic.inFlight := by
  have hregister : ∀ op ∈ timerFires (vmmEnv .qemuArmVirtHyp), ∀ _ : Vmm VmmAckFn,
      RegistersPpiAck (vmmEnv .qemuArmVirtHyp) op := by
    intro op hop s
    simp only [timerFires, guestStore, List.cons_append, List.nil_append, List.mem_cons, List.not_mem_nil,
      or_false] at hop
    rcases hop with rfl | rfl | rfl | rfl | rfl | rfl
    · exact fun _ => ⟨.vppiEventAck, rfl, fun _ _ _ _ => rfl⟩
    all_goals trivial
  have hbelow : StopProgram.AllowedRun (BelowLimit (vmmEnv .qemuArmVirtHyp)) (step (vmmEnv .qemuArmVirtHyp))
      (timerFires (vmmEnv .qemuArmVirtHyp)) (vgicInit (vmmEnv .qemuArmVirtHyp) (.filled 0)) := by
    decide +kernel
  obtain ⟨s, hs, hp⟩ := exists_reachable (vmmEnv .qemuArmVirtHyp) _ (fun s => ppiMasked 27 s.log)
    (timerFires (vmmEnv .qemuArmVirtHyp)) (hbelow.and hregister) (by decide +kernel)
  exact ⟨s, hp, masked_ppi_inFlight rfl (vmmEnv_inert _ (by decide)) hs (by decide) hp⟩

end Sel4cpVmm
