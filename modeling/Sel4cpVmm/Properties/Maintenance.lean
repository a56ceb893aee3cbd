import Sel4cpVmm.Proofs.Trace

/-!
# When maintenance completes

`handle_vgic_maintenance` keeps the `bool` of `vgic_vcpu_load_list_reg` in its `int err` and never
initialises `err` when the queue is empty. So it replies only when the queue is empty and the
uninitialised local happens to be 0.
-/

namespace Sel4cpVmm

open StopProgram

variable {φ : Type} {env : Env φ}

/-- Maintenance of list register `k` does all it has to do: the entry is freed and reloaded from the
queue, the pending bit of the retired interrupt is cleared, one callback and one reply are made, and
the result is `true`. `err` is the content of the uninitialised local. -/
def Completes (env : Env φ) (s : Vmm φ) (k : Fin numListRegs) (err : Int) : Prop :=
  ∃ h fn s' l, s.vgic.view.slot k = some h ∧ handleVgicMaintenance env k err s = .ok true s' ∧
    s'.vgic.view = s.vgic.view.retire k ∧ isPending s'.dist h.virq vcpuId = false ∧
    s'.log = s.log ++ l ∧ h.ackFn = some fn ∧ .ack fn vcpuId h.virq null ∈ l ∧
    l.countP Event.isAck = 1 ∧ l.countP Event.isReply = 1

lemma countP_ackEvents (env : Env φ) (s : Vmm φ) {h : VirqHandle φ} {fn : φ} (hfn : h.ackFn = some fn) :
    (ackEvents env s h).countP Event.isAck = 1 ∧ (ackEvents env s h).countP Event.isReply = 0 ∧
      .ack fn vcpuId h.virq null ∈ ackEvents env s h := by
  have hcalls : ∀ (l : List AckCall), (l.filterMap AckCall.event : List (Event φ)).countP Event.isAck = 0 ∧
      (l.filterMap AckCall.event : List (Event φ)).countP Event.isReply = 0 := by
    intro l
    refine ⟨List.countP_eq_zero.mpr fun e he => ?_, List.countP_eq_zero.mpr fun e he => ?_⟩ <;>
    · rcases mem_callEvents he with ⟨ch, rfl⟩ | ⟨irq, rfl⟩ <;> simp [Event.isAck, Event.isReply]
  unfold ackEvents
  rw [hfn]
  refine ⟨?_, ?_, by simp⟩
  · simp [List.countP_cons, Event.isAck, (hcalls _).1]
  · simp [Event.isReply, (hcalls _).2]

lemma countP_refillEvents (env : Env φ) (s : Vmm φ) (k : Fin numListRegs) :
    (refillEvents env s k).countP Event.isAck = 0 ∧ (refillEvents env s k).countP Event.isReply = 0 := by
  unfold refillEvents
  cases s.vgic.view.waiting.head? <;> simp [loadEvent, Event.isAck, Event.isReply]

section

variable (hstop : env.assertStops = true) (hk : KernelAccepts env) (hinert : InertAcks env)

include hstop hk hinert

lemma wp_handleVgicMaintenance {s : Vmm φ} (hw : s.vgic.Wf) {k : Fin numListRegs} {h : VirqHandle φ}
    (hslot : s.vgic.view.slot k = some h) (err : Int) :
    wp (handleVgicMaintenance env k err)
      (fun b s' => b = true ∧ refillResult s err = 0 ∧ ∃ t, Retires env s k h t ∧
        s' = { t with log := t.log ++ [.reply] })
      (fun e _ => e = .assertFailed ∧ (refillResult s err ≠ 0 ∨ h.ackFn = none)) s := by
  unfold handleVgicMaintenance
  rw [wp_bind]
  refine wp_retire hstop hinert hw hslot (fun t ht => ?_) (fun hfn => ⟨rfl, .inr hfn⟩) (fun h => absurd hk h)
  rw [wp_ite]
  refine ⟨fun h0 => ⟨rfl, h0, t, ht, rfl⟩, fun h0 => ?_⟩
  rw [wp_bind, wp_cAssert_stops hstop]
  exact ⟨fun h => absurd h (by simp), fun _ => ⟨rfl, .inl h0⟩⟩

lemma completes_iff {s : Vmm φ} (hw : s.vgic.Wf) {k : Fin numListRegs} {h : VirqHandle φ}
    (hslot : s.vgic.view.slot k = some h) (err : Int) :
    Completes env s k err ↔ s.vgic.view.waiting = [] ∧ err = 0 ∧ h.ackFn.isSome := by
  have hrun := wp_handleVgicMaintenance hstop hk hinert hw hslot err
  have hresult : refillResult s err = 0 ↔ s.vgic.view.waiting = [] ∧ err = 0 := by
    unfold refillResult
    split_ifs with hnil <;> simp [hnil]
  constructor
  · rintro ⟨h', fn, s', l, hslot', hok, -, -, -, hfn, -⟩
    obtain rfl : h = h' := Option.some.inj (hslot ▸ hslot')
    obtain ⟨-, h0, -⟩ := wp_ok hrun hok
    obtain ⟨hnil, herr⟩ := hresult.mp h0
    exact ⟨hnil, herr, by simp [hfn]⟩
  · rintro ⟨hnil, herr, hsome⟩
    have h0 := hresult.mpr ⟨hnil, herr⟩
    obtain ⟨fn, hfn⟩ := Option.isSome_iff_exists.mp hsome
    cases hr : handleVgicMaintenance env k err s with
    | error e s' =>
      rcases (wp_error hrun hr).2 with h' | h'
      · exact absurd h0 h'
      · exact absurd (hfn ▸ h') (by simp)
    | ok b s' =>
      obtain ⟨rfl, -, t, ht, rfl⟩ := wp_ok hrun hr
      obtain ⟨hack, hreply, hmem⟩ := countP_ackEvents env (freed s k h) hfn
      obtain ⟨hack', hreply'⟩ := countP_refillEvents env (freed s k h) k
      refine ⟨h, fn, _, ackEvents env (freed s k h) h ++ refillEvents env (freed s k h) k ++ [.reply], hslot, hr,
        ht.view, ?_, ?_, hfn, by simp [hmem], ?_, ?_⟩
      · rw [show ({ t with log := t.log ++ [.reply] } : Vmm φ).dist = t.dist from rfl, ht.dist,
          isPending_setPending_self]
      · simp [ht.log]
      · simp [List.countP_append, hack, hack', Event.isAck]
      · simp [List.countP_append, hreply, hreply', Event.isReply]

omit hstop hk hinert in
lemma refill_congr (env : Env φ) {t : Vmm φ} (hw : t.vgic.Wf) (hne : t.vgic.view.waiting ≠ [])
    (k : Fin numListRegs) (err err' : Int) : refill env k err t = refill env k err' t := by
  have hsome : wp (vgicIrqDequeue vcpuId) (fun p _ => p.isSome = true) (fun _ _ => True) t := by
    rw [wp_vgicIrqDequeue hw.queue]
    refine ⟨fun h => ?_, fun h => absurd (hw.waiting_eq_nil.mpr h) hne⟩
    obtain ⟨p, hp, -⟩ := hw.head h
    rw [hp]
    rfl
  change EStateM.bind _ _ t = EStateM.bind _ _ t
  unfold EStateM.bind
  cases hd : vgicIrqDequeue vcpuId t with
  | error e t' => rfl
  | ok p t' =>
    obtain ⟨q, rfl⟩ := Option.isSome_iff_exists.mp (wp_ok (Q := fun p _ => p.isSome = true) hsome hd)
    rfl

omit hk in
lemma handleVgicMaintenance_congr {s : Vmm φ} (hw : s.vgic.Wf) {k : Fin numListRegs} {h : VirqHandle φ}
    (hslot : s.vgic.view.slot k = some h) (hind : s.vgic.view.waiting ≠ [] ∨ h.ackFn = none) (err err' : Int) :
    handleVgicMaintenance env k err s = handleVgicMaintenance env k err' s := by
  refine bind_congr_left (eq_of_wp ?_)
  have hself := wp_self (vgicMaintenanceBody env k err') s
  rw [wp_vgicMaintenanceBody hstop] at hself ⊢
  refine ⟨hself.1, fun h' hslot' => ?_⟩
  obtain rfl : h = h' := Option.some.inj (hslot ▸ hslot')
  -- the ack leaves the vGIC alone, so what waits before it decides what the refill does
  have hack : wp (virqAck env vcpuId h) (fun _ t => t.vgic = (freed s k h).vgic ∧ h.ackFn.isSome) (fun _ _ => True)
      (freed s k h) :=
    wp_virqAck hstop (fun _ _ => trivial) hinert (fun hfn => ⟨rfl, hfn⟩) (fun _ => trivial)
  refine wp_mono (wp_and (hself.2 h hslot) hack) (fun _ t ht => ?_) (fun _ _ he => he.1)
  obtain ⟨hrefill, hvgic, hfn⟩ := ht
  rcases hind with hne | hnone
  · have hcongr := refill_congr env (t := t) (hvgic ▸ wf_freed hw k h) (by rwa [hvgic, view_freed]) k err err'
    unfold wp
    rw [hcongr]
    exact hrefill
  · rw [hnone] at hfn
    exact absurd hfn (by simp)

/-- In every reachable state, maintenance of an occupied list register completes exactly when the queue is
empty, the uninitialised local holds 0 and the retired handle has a callback; its result is independent of
the local exactly when the queue is not empty or there is no callback. So it never completes whatever the
local holds. -/
theorem maintenance_completes_iff {s : Vmm φ} (hs : Reachable env (fun _ _ => True) s) {k : Fin numListRegs}
    {h : VirqHandle φ} (hslot : s.vgic.view.slot k = some h) :
    (∀ err, Completes env s k err ↔ s.vgic.view.waiting = [] ∧ err = 0 ∧ h.ackFn.isSome) ∧
      ((∀ err err', handleVgicMaintenance env k err s = handleVgicMaintenance env k err' s) ↔
        s.vgic.view.waiting ≠ [] ∨ h.ackFn = none) ∧
      ¬∀ err, Completes env s k err := by
  have hw := reachable_wf hstop hinert hs
  have hiff := completes_iff hstop hk hinert hw hslot
  refine ⟨hiff, ⟨fun hind => ?_, handleVgicMaintenance_congr hstop hinert hw hslot⟩, fun hall => ?_⟩
  · by_contra hcon
    obtain ⟨hnil, hfn⟩ := not_or.mp hcon
    have hsome := Option.isSome_iff_ne_none.mpr hfn
    obtain ⟨_, _, s', _, -, hok, -⟩ := (hiff 0).mpr ⟨not_not.mp hnil, rfl, hsome⟩
    rw [hind 0 1] at hok
    have hrun := wp_handleVgicMaintenance hstop hk hinert hw hslot 1
    obtain ⟨-, h1, -⟩ := wp_ok hrun hok
    simp [refillResult] at h1
  · exact absurd ((hiff 1).mp (hall 1)).2.1 (by decide)

end

/-! ### Five outstanding interrupts -/

lemma exists_fiveOutstanding :
    ∃ s h, Reachable (vmmEnv .qemuArmVirtHyp) (fun _ _ => True) s ∧ s.vgic.view.slot 0 = some h ∧
      h.ackFn.isSome ∧ s.vgic.view.waiting ≠ [] := by
  obtain ⟨s, hs, hp⟩ := exists_reachable (vmmEnv .qemuArmVirtHyp) (fun _ _ => True)
    (fun s => (s.vgic.view.slot 0).any (fun h => h.ackFn.isSome) && !s.vgic.view.waiting.isEmpty)
    (fiveOutstanding (vmmEnv .qemuArmVirtHyp)) (by decide +kernel) (by decide +kernel)
  simp only [Bool.and_eq_true, Option.any_eq_true, Bool.not_eq_true', List.isEmpty_eq_false_iff] at hp
  obtain ⟨⟨h, hslot, hfn⟩, hne⟩ := hp
  exact ⟨s, h, hs, hslot, hfn, hne⟩

theorem maintenance_completes_iff_queued :
    ∃ s h, Reachable (vmmEnv .qemuArmVirtHyp) (fun _ _ => True) s ∧ s.vgic.view.slot 0 = some h ∧
      ∀ err, Completes (vmmEnv .qemuArmVirtHyp) s 0 err ↔
        s.vgic.view.waiting = [] ∧ err = 0 ∧ h.ackFn.isSome := by
  obtain ⟨s, h, hs, hslot, -, -⟩ := exists_fiveOutstanding
  exact ⟨s, h, hs, hslot,
    (maintenance_completes_iff rfl (vmmEnv_accepts _) (vmmEnv_inert _ (by decide)) hs hslot).1⟩

/-- With a fifth interrupt outstanding, maintenance of the first list register stops the VMM. -/
theorem maintenance_stops_when_queued :
    ∃ s h, Reachable (vmmEnv .qemuArmVirtHyp) (fun _ _ => True) s ∧ s.vgic.view.slot 0 = some h ∧
      h.ackFn.isSome ∧ ∀ err, ¬Completes (vmmEnv .qemuArmVirtHyp) s 0 err := by
  obtain ⟨s, h, hs, hslot, hfn, hne⟩ := exists_fiveOutstanding
  have hinert := vmmEnv_inert .qemuArmVirtHyp (by decide)
  have hw : s.vgic.Wf := reachable_wf rfl hinert hs
  refine ⟨s, h, hs, hslot, hfn, fun err hc => ?_⟩
  exact hne ((completes_iff rfl (vmmEnv_accepts _) hinert hw hslot err).mp hc).1

end Sel4cpVmm
