import Sel4cpVmm.Lib.Latch
import Sel4cpVmm.Proofs.Trace

/-!
# The interrupts in flight

The interrupt numbers in the list registers and the queue, and how each operation changes them and
the pending bits.
-/

namespace Sel4cpVmm

open GicDistMap

variable {φ : Type} {env : Env φ}

namespace Vgic

variable (v : Vgic φ)

/-- The interrupts of the occupied list registers. -/
def lrVirqs : List Int :=
  ((List.finRange numListRegs).map fun k => (v.lr k).virq).filter fun i => decide (i ≠ virqInvalid)

/-- The interrupts in the live part of the queue. -/
def queueVirqs : List Int := v.queue.live.filterMap fun o => o.map fun p => (v.deref p).virq

def inFlight : List Int := v.lrVirqs ++ v.queueVirqs

variable {v}

lemma queueVirqs_eq : v.queueVirqs = v.view.waiting.map VirqHandle.virq := by
  simp only [queueVirqs, view, List.map_filterMap, Option.map_map]
  rfl

lemma coe_lrVirqs : (v.lrVirqs : Multiset Int) = v.view.held.map VirqHandle.virq := by
  have hslot : ∀ l : List (Fin numListRegs), ((l.map fun k => (v.lr k).virq).filter fun i => decide (i ≠ virqInvalid)) =
      (l.flatMap fun k => (v.view.slot k).toList).map VirqHandle.virq := by
    intro l
    induction l with
    | nil => rfl
    | cons k l ih =>
      rw [List.map_cons, List.flatMap_cons, List.map_append, ← ih]
      change _ = (v.lr k).present.toList.map VirqHandle.virq ++ _
      by_cases hv : (v.lr k).virq = virqInvalid <;> simp [VirqHandle.present, hv]
  rw [SlotQueue.held_eq, Multiset.map_coe, ← hslot, lrVirqs]

lemma coe_inFlight : (v.inFlight : Multiset Int) = v.view.residents.map VirqHandle.virq := by
  rw [inFlight, ← Multiset.coe_add, coe_lrVirqs, queueVirqs_eq, SlotQueue.residents_held, Multiset.map_add, Multiset.map_coe]

lemma mem_inFlight {i : Int} : i ∈ v.inFlight ↔ i ∈ v.view.residents.map VirqHandle.virq := by
  rw [← coe_inFlight, Multiset.mem_coe]

lemma nodup_inFlight : v.inFlight.Nodup ↔ (v.view.residents.map VirqHandle.virq).Nodup := by
  rw [← coe_inFlight, Multiset.coe_nodup]

end Vgic

lemma residents_init : (Vgic.init : Vgic φ).view.residents = 0 := by
  rw [view_init, SlotQueue.residents_eq]
  simp

/-! ### Pending bits and the other registers -/

section Frame

variable {d : GicDistMap} {i : Int} {w : Nat}

lemma IsPlainWord.out (hw : IsPlainWord w) :
    (w < pendingSet0 ∨ pendingSet + 30 < w) ∧ (w < enableSet0 ∨ enableSet + 30 < w) ∧ w ≠ ctlr := by
  simp only [IsPlainWord, irqGroup0, enableSet0, enableSet, pendingSet0, pendingSet, active0, priority0,
    GicDistMap.ctlr] at *
  omega

variable (g : GicVersion)

lemma vgicDistIsEnabled_vgicDistEnable (d : GicDistMap) : vgicDistIsEnabled g (vgicDistEnable g d) = true := by
  cases g with
  | v2 => simp [vgicDistIsEnabled, vgicDistEnable]
  | v3 =>
    have hbit : (d.word ctlr ||| (gic500Grp1Ns ||| gic500AreS)) &&& gic500Grp1Ns ≠ 0 := by
      intro h
      have hget := congrArg (fun x : U32 => x.getLsbD 1) h
      simp [gic500Grp1Ns, gic500AreS] at hget
    simpa [vgicDistIsEnabled, vgicDistEnable, orWord] using hbit

lemma vgicDistIsEnabled_vgicDistDisable (d : GicDistMap) : vgicDistIsEnabled g (vgicDistDisable g d) = false := by
  cases g with
  | v2 => simp [vgicDistIsEnabled, vgicDistDisable, gicEnabled]
  | v3 =>
    have hmask : ~~~(gic500Grp1Ns ||| gic500AreS) &&& gic500Grp1Ns = 0 := by decide
    simp [vgicDistIsEnabled, vgicDistDisable, andNotWord, BitVec.and_assoc, hmask]

variable (hi : 0 ≤ i ∧ i < irqLimit)

include hi

lemma isPending_vgicDistEnable : isPending (vgicDistEnable g d) i vcpuId = isPending d i vcpuId := by
  cases g <;> exact isPending_set hi (.inl (by decide)) _

lemma isPending_vgicDistDisable : isPending (vgicDistDisable g d) i vcpuId = isPending d i vcpuId := by
  cases g <;> exact isPending_set hi (.inl (by decide)) _

lemma isEnabled_vgicDistEnable : isEnabled (vgicDistEnable g d) i vcpuId = isEnabled d i vcpuId := by
  cases g <;> exact isEnabled_set hi (.inl (by decide)) _

lemma isEnabled_vgicDistDisable : isEnabled (vgicDistDisable g d) i vcpuId = isEnabled d i vcpuId := by
  cases g <;> exact isEnabled_set hi (.inl (by decide)) _

end Frame

/-! ### The effect of an operation -/

lemma Vgic.nonneg_of_handle {v : Vgic φ} {irq : Int} {h : VirqHandle φ} (hh : v.handle irq = some h) : 0 ≤ irq := by
  obtain ⟨p, hp, -⟩ := Option.bind_eq_some_iff.mp hh
  exact Vgic.nonneg_of_find hp

/-- What an operation does to the interrupts in flight and to the pending bits of the numbers in `P`. -/
inductive Effect (P : Int → Prop) (v : Vgic φ) (d : GicDistMap) (a : Action φ) (v' : Vgic φ) (d' : GicDistMap) : Prop
  | same : v'.view = v.view → (∀ i, P i → isPending d' i vcpuId = isPending d i vcpuId) → Effect P v d a v' d'
  | offered (h : VirqHandle φ) : 0 ≤ h.virq → (a.Below irqLimit → h.virq < irqLimit) → v.handle h.virq = some h →
      isPending d h.virq vcpuId = false → v'.view = v.view.offer h → d' = setPending d h.virq true vcpuId →
      Effect P v d a v' d'
  | retired (k : Fin numListRegs) (h : VirqHandle φ) : v.view.slot k = some h → v'.view = v.view.retire k →
      d' = setPending d h.virq false vcpuId → Effect P v d a v' d'
  | cleared (irq : Int) : a = .clrPending irq → 0 ≤ irq → v'.view = v.view →
      d' = setPending d irq false vcpuId → Effect P v d a v' d'

/-- The operation sets no pending bit of a number in `P` by mistake. -/
def Action.Quiet (P : Int → Prop) : Action φ → Prop
  | .enable irq => ∀ d b i, P i → isPending (setEnable d irq b vcpuId) i vcpuId = isPending d i vcpuId
  | .disable irq => ∀ d b i, P i → isPending (setEnable d irq b vcpuId) i vcpuId = isPending d i vcpuId
  | .clearEnable irq => ∀ d b i, P i → isPending (setEnable d irq b vcpuId) i vcpuId = isPending d i vcpuId
  | .clrPending irq => 0 ≤ irq
  | .store w _ _ => IsPlainWord w
  | _ => True

lemma Action.Bits.quiet {a : Action φ} (h : a.Bits irqLimit) : a.Quiet fun i => 0 ≤ i ∧ i < irqLimit := by
  cases a with
  | enable irq => exact fun d b i hi => isPending_setEnable h hi
  | disable irq => exact fun d b i hi => isPending_setEnable h hi
  | clearEnable irq => exact fun d b i hi => isPending_setEnable h hi
  | clrPending irq => exact h.1
  | store w mask bits => exact h
  | _ => trivial

lemma Action.Bits.quiet_spi {a : Action φ} (h : a.Bits 1056) : a.Quiet fun i => 32 ≤ i ∧ i < irqLimit := by
  cases a with
  | enable irq => exact fun d b i hi => isPending_setEnable_spi h hi
  | disable irq => exact fun d b i hi => isPending_setEnable_spi h hi
  | clearEnable irq => exact fun d b i hi => isPending_setEnable_spi h hi
  | clrPending irq => exact h.1
  | store w mask bits => exact h
  | _ => trivial

section Effect

variable {P : Int → Prop} {s s' : Vmm φ} {a : Action φ}

lemma Injected.effect {irq : Int} {b : Bool} (h : Injected env s irq b s') (hw : s.vgic.Wf)
    (hlt : a.Below irqLimit → irq < irqLimit) : Effect P s.vgic s.dist a s'.vgic s'.dist := by
  cases h with
  | refused => exact .same rfl fun _ _ => rfl
  | pending => exact .same rfl fun _ _ => rfl
  | accepted hcan hpend ha =>
    have hpos := Vgic.nonneg_of_handle hcan.handle
    have hhandle := hcan.handle
    rw [← (hw.virq_of_handle hhandle).1] at hlt hpend hpos hhandle
    exact .offered _ hpos hlt hhandle hpend ha.view ha.dist

theorem Does.effect (h : Does env s a s') (hw : s.vgic.Wf) (hP : ∀ i, P i → 0 ≤ i ∧ i < irqLimit)
    (hq : a.Quiet P) : Effect P s.vgic s.dist a s'.vgic s'.dist := by
  cases h with
  | registerRefused => exact .same rfl fun _ _ => rfl
  | register hr => exact .same (hr.view hw) fun _ _ => rfl
  | inject hi => exact hi.effect hw id
  | notification hi => exact hi.effect hw id
  | @vppiEvent irq b t hi =>
    have he := hi.effect (P := P) (a := .vppiEvent irq) hw id
    exact he
  | retire hr => exact .retired _ _ hr.slot hr.view hr.dist
  | enableOnly => exact .same rfl fun i hi => hq _ _ i hi
  | enableAck => exact .same rfl fun i hi => hq _ _ i hi
  | disableSgi => exact .same rfl fun _ _ => rfl
  | disable => exact .same rfl fun i hi => hq _ _ i hi
  | clearEnable => exact .same rfl fun i hi => hq _ _ i hi
  | clrPending => exact .cleared _ rfl hq rfl rfl
  | store w mask bits => exact .same rfl fun i hi => isPending_set (hP i hi) hq.out.1 _
  | ctlrEnable => exact .same rfl fun i hi => isPending_vgicDistEnable _ (hP i hi)
  | ctlrDisable => exact .same rfl fun i hi => isPending_vgicDistDisable _ (hP i hi)
  | ctlrOther => exact .same rfl fun _ _ => rfl

lemma Effect.pending_inFlight {v v' : Vgic φ} {d d' : GicDistMap} (he : Effect P v d a v' d')
    (hP : ∀ i, P i → 0 ≤ i ∧ i < irqLimit) (hpos : ∀ h ∈ v.view.residents, 0 ≤ h.virq)
    (h : ∀ i, P i → isPending d i vcpuId = true → i ∈ v.view.residents.map VirqHandle.virq) :
    ∀ i, P i → isPending d' i vcpuId = true → i ∈ v'.view.residents.map VirqHandle.virq := by
  intro i hi hpend
  cases he with
  | same hv hp =>
    rw [hv]
    exact h i hi (hp i hi ▸ hpend)
  | offered a hr _ _ _ hv hd =>
    rw [hd, isPending_setPending (hP i hi) hr] at hpend
    rw [hv, SlotQueue.residents_offer, Multiset.map_cons, Multiset.mem_cons]
    by_cases hia : i = a.virq
    · exact .inl hia
    · rw [if_neg hia] at hpend
      exact .inr (h i hi hpend)
  | retired k a hslot hv hd =>
    have hres := SlotQueue.residents_retire hslot
    rw [hd, isPending_setPending (hP i hi) (hpos a (by rw [hres]; simp))] at hpend
    by_cases hia : i = a.virq
    · simp [hia] at hpend
    · rw [if_neg hia] at hpend
      have hmem := h i hi hpend
      rw [hres, Multiset.map_cons, Multiset.mem_cons] at hmem
      rw [hv]
      exact hmem.resolve_left hia
  | cleared irq _ hr hv hd =>
    rw [hd, isPending_setPending (hP i hi) hr] at hpend
    rw [hv]
    by_cases hii : i = irq
    · simp [hii] at hpend
    · exact h i hi (by rwa [if_neg hii] at hpend)

/-- A property of the handles in flight and of those in the tables stays one of those in flight. -/
lemma Effect.residents {v v' : Vgic φ} {d d' : GicDistMap} (he : Effect P v d a v' d') {R : VirqHandle φ → Prop}
    (h : ∀ h ∈ v.view.residents, R h) (hoffer : ∀ h, 0 ≤ h.virq → (a.Below irqLimit → h.virq < irqLimit) →
      v.handle h.virq = some h → R h) : ∀ h ∈ v'.view.residents, R h := by
  intro b hb
  cases he with
  | same hv => exact h b (hv ▸ hb)
  | offered c hr hlt hhandle _ hv =>
    rw [hv, SlotQueue.residents_offer] at hb
    rcases Multiset.mem_cons.mp hb with rfl | hb
    · exact hoffer b hr hlt hhandle
    · exact h b hb
  | retired k c hslot hv =>
    refine h b ?_
    rw [SlotQueue.residents_retire hslot]
    exact Multiset.mem_cons_of_mem (hv ▸ hb)
  | cleared irq _ _ hv => exact h b (hv ▸ hb)

end Effect

/-! ### Handles -/

lemma Vgic.deref_of_handle {v : Vgic φ} {irq : Int} {h : VirqHandle φ} (hh : v.handle irq = some h) :
    ∃ p, v.deref p = h := by
  obtain ⟨p, -, hp⟩ := Option.bind_eq_some_iff.mp hh
  exact ⟨p, (present_eq_some.mp hp).1⟩

lemma Injected.deref {s s' : Vmm φ} {irq : Int} {b : Bool} (h : Injected env s irq b s') :
    s'.vgic.deref = s.vgic.deref := by
  cases h with
  | refused => rfl
  | pending => rfl
  | accepted _ _ ha => exact ha.deref

lemma Does.deref {s s' : Vmm φ} {a : Action φ} (h : Does env s a s') : s'.vgic.deref = s.vgic.deref ∨
    ∃ irq fn data p, a = .register irq fn data ∧ Registers s.vgic ⟨irq, fn, data⟩ p s'.vgic := by
  cases h with
  | register hr => exact .inr ⟨_, _, _, _, rfl, hr⟩
  | inject hi => exact .inl hi.deref
  | notification hi => exact .inl hi.deref
  | vppiEvent hi =>
    have ht := hi.deref
    exact .inl ht
  | retire hr => exact .inl hr.deref
  | _ => exact .inl rfl

lemma Does.handles {s s' : Vmm φ} {a : Action φ} (h : Does env s a s') {P : VirqHandle φ → Prop}
    (hP : ∀ p, P (s.vgic.deref p)) (hreg : ∀ irq fn data, a = .register irq fn data → P ⟨irq, fn, data⟩) :
    ∀ p, P (s'.vgic.deref p) := by
  rcases h.deref with hd | ⟨irq, fn, data, q, ha, hr⟩
  · rw [hd]
    exact hP
  · intro p
    rw [hr.deref]
    by_cases hp : p = q
    · rw [hp, Function.update_self]
      exact hreg _ _ _ ha
    · rw [Function.update_of_ne hp]
      exact hP p

/-! ### Injections and retirements -/

section Kept

variable {s s' : Vmm φ}

lemma Injected.keeps {irq j : Int} {b : Bool} (h : Injected env s irq b s')
    (hj : j ∈ s.vgic.view.residents.map VirqHandle.virq) : j ∈ s'.vgic.view.residents.map VirqHandle.virq := by
  cases h with
  | refused => exact hj
  | pending => exact hj
  | accepted _ _ ha =>
    rw [ha.view, SlotQueue.residents_offer, Multiset.map_cons]
    exact Multiset.mem_cons_of_mem hj

variable {k : Fin numListRegs} {h : VirqHandle φ} (hr : Retires env s k h s')

include hr

lemma Retires.residents : s.vgic.view.residents = h ::ₘ s'.vgic.view.residents := by
  rw [hr.view]
  exact SlotQueue.residents_retire hr.slot

/-- A retirement takes its interrupt out of flight and no other. -/
lemma Retires.keeps {j : Int} (hne : j ≠ h.virq) (hj : j ∈ s.vgic.view.residents.map VirqHandle.virq) :
    j ∈ s'.vgic.view.residents.map VirqHandle.virq := by
  rw [hr.residents, Multiset.map_cons, Multiset.mem_cons] at hj
  exact hj.resolve_left hne

end Kept

/-! ### Latches that only arrivals set -/

section Latches

variable {s s' : Vmm φ} {set clear : Event φ → Bool} (hset : ∀ e, e.isArrival = false → set e = false)

include hset

lemma latch_of_quiet {l l' : List (Event φ)} (hl : ∀ e ∈ l', e.isArrival = false)
    (hm : Latch.value set clear (l ++ l') = true) : Latch.value set clear l = true :=
  Latch.of_value_append (fun e he => hset e (hl e he)) hm

lemma latch_of_acked {t : Vmm φ} {h : VirqHandle φ} {l : List (Event φ)}
    (hm : Latch.value set clear (l ++ ackEvents env t h) = true) : Latch.value set clear l = true :=
  latch_of_quiet hset (ackEvents_quiet env t h) hm

lemma Frame.latch (hf : Frame s s') (hm : Latch.value set clear s'.log = true) : Latch.value set clear s.log = true := by
  obtain ⟨l, hl, hret⟩ := hf.log
  rw [hl] at hm
  exact latch_of_quiet hset (fun e he => isReturn_quiet (hret e he)) hm

lemma Injected.latch {irq : Int} {b : Bool} (h : Injected env s irq b s') (hm : Latch.value set clear s'.log = true) :
    Latch.value set clear s.log = true := by
  cases h with
  | refused => exact hm
  | pending => exact hm
  | accepted _ _ ha =>
    rw [ha.log] at hm
    refine latch_of_quiet hset (fun e he => ?_) hm
    rcases List.mem_cons.mp he with rfl | he
    · rfl
    · exact offerEvents_quiet _ _ _ e he

lemma Retires.latch {k : Fin numListRegs} {h : VirqHandle φ} (hr : Retires env s k h s')
    (hm : Latch.value set clear s'.log = true) : Latch.value set clear s.log = true := by
  rw [hr.log] at hm
  exact latch_of_acked hset (latch_of_quiet hset (refillEvents_quiet env _ _) hm)

end Latches

/-- An interrupt injected with success is in flight if it was so whenever it was pending. -/
lemma Injected.mem_residents {s s' : Vmm φ} {irq : Int} (h : Injected env s irq true s') (hw : s.vgic.Wf)
    (hp : isPending s.dist irq vcpuId = true → irq ∈ s.vgic.view.residents.map VirqHandle.virq) :
    irq ∈ s'.vgic.view.residents.map VirqHandle.virq := by
  cases h with
  | pending _ hpend => exact hp hpend
  | accepted hcan _ ha =>
    rw [ha.view, SlotQueue.residents_offer, Multiset.map_cons, (hw.virq_of_handle hcan.handle).1]
    exact Multiset.mem_cons_self _ _

end Sel4cpVmm
