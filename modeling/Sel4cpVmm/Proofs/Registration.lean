import Sel4cpVmm.Lib.SlotTable
import Sel4cpVmm.Proofs.Limits

/-!
# The registration tables

What a sequence of registrations after `vgic_init` leaves in the tables: the local interrupts at their own index,
the SPIs in the slots from the first on, in the order in which they were registered.
-/

namespace Sel4cpVmm

open StopProgram

variable {φ : Type} {env : Env φ}

/-! ### Registrations in order -/

def VirqHandle.isSpi (h : VirqHandle φ) : Bool := decide ((numVcpuLocalVirqs : Int) ≤ h.virq)

def spis (l : List (VirqHandle φ)) : List (VirqHandle φ) := l.filter VirqHandle.isSpi

/-- After the registrations `done` the tables have a slot for `h`. -/
def accepts (done : List (VirqHandle φ)) (h : VirqHandle φ) : Bool :=
  if h.virq < (numVcpuLocalVirqs : Int) then done.all fun a => decide (a.virq ≠ h.virq)
  else decide ((spis done).length < numSlotsSpiVirq)

/-- The registrations `done` and the next one, if it is accepted. -/
def accept (done : List (VirqHandle φ)) (h : VirqHandle φ) : List (VirqHandle φ) :=
  if accepts done h then done ++ [h] else done

def register (env : Env φ) (done : List (VirqHandle φ)) (h : VirqHandle φ) : M φ (List (VirqHandle φ)) := do
  let ok ← vgicRegisterIrq env vcpuId h.virq h.ackFn h.ackData
  return if ok then done ++ [h] else done

def registerAll (env : Env φ) (l : List (VirqHandle φ)) : M φ (List (VirqHandle φ)) := l.foldlM (register env) []

/-- The tables hold the registrations `done`. -/
structure Holds (done : List (VirqHandle φ)) (v : Vgic φ) : Prop where
  nonneg : ∀ h ∈ done, 0 ≤ h.virq
  localVirqs : ∀ i : Fin numVcpuLocalVirqs, v.deref (.sgiPpi vcpuId i) =
    (done.find? fun h => decide (h.virq = ((i : Nat) : Int))).getD .invalid
  spi : ∀ i, v.deref (.spi i) = SlotTable.fill .invalid (spis done) i
  room : (spis done).length ≤ numSlotsSpiVirq

section Holds

variable {done : List (VirqHandle φ)} {v : Vgic φ} {h : VirqHandle φ} {irq : Int}

lemma spis_append (l l' : List (VirqHandle φ)) : spis (l ++ l') = spis l ++ spis l' := List.filter_append l l'

lemma mem_spis : h ∈ spis done ↔ h ∈ done ∧ (numVcpuLocalVirqs : Int) ≤ h.virq := by
  simp [spis, VirqHandle.isSpi]

lemma holds_init : Holds ([] : List (VirqHandle φ)) (Vgic.init : Vgic φ) :=
  ⟨by simp, fun i => deref_init _, fun i => by rw [deref_init, SlotTable.fill_of_ge (Nat.zero_le _)], by simp [spis]⟩

lemma Holds.valid (hd : Holds done v) : ∀ a ∈ done, a.virq ≠ virqInvalid := by
  intro a ha hv
  have h0 := hd.nonneg a ha
  rw [hv] at h0
  exact absurd h0 (by decide)

lemma Holds.freeSpi (hd : Holds done v) :
    ((List.finRange numSlotsSpiVirq).find? fun i => decide ((getElem v.vspis i.val i.isLt).virq = virqInvalid)) =
      if hroom : (spis done).length < numSlotsSpiVirq then some ⟨(spis done).length, hroom⟩ else none := by
  have hcongr : (fun i : Fin numSlotsSpiVirq => decide ((getElem v.vspis i.val i.isLt).virq = virqInvalid)) =
      fun i => decide ((SlotTable.fill .invalid (spis done) i).virq = virqInvalid) := by
    funext i
    rw [← hd.spi i]
    rfl
  rw [hcongr]
  have hinvalid : (VirqHandle.invalid : VirqHandle φ).virq = virqInvalid := rfl
  exact SlotTable.find?_free (p := fun a => decide (a.virq = virqInvalid)) (decide_eq_true hinvalid)
    fun a ha => decide_eq_false (hd.valid a (mem_spis.mp ha).1)

lemma Holds.freeSlot (hd : Holds done v) (h0 : 0 ≤ h.virq) : (v.freeSlot h.virq).isSome = accepts done h := by
  unfold Vgic.freeSlot accepts
  split_ifs with hlt
  · have hin : 0 ≤ h.virq ∧ h.virq.toNat < numVcpuLocalVirqs := ⟨h0, by omega⟩
    have hnat : (h.virq.toNat : Int) = h.virq := Int.toNat_of_nonneg h0
    rw [Vgic.find, if_pos hlt, dif_pos hin, Option.bind_some, hd.localVirqs]
    dsimp only
    rw [hnat]
    cases hf : done.find? fun a => decide (a.virq = h.virq) with
    | none =>
      have hall := List.find?_eq_none.mp hf
      simp only [decide_eq_true_eq] at hall
      simpa [VirqHandle.invalid] using hall
    | some a =>
      have ha := List.mem_of_find?_eq_some hf
      have hvirq : a.virq = h.virq := by simpa using List.find?_some hf
      have hv := hd.valid a ha
      simp only [Option.getD_some, if_neg hv, Option.isSome_none]
      exact (List.all_eq_false.mpr ⟨a, ha, by simp [hvirq]⟩).symm
  · rw [hd.freeSpi]
    split_ifs with hroom <;> simp [hroom]

lemma Holds.place (hd : Holds done v) (h0 : 0 ≤ h.virq) {p : VirqPtr} (hp : v.freeSlot h.virq = some p) :
    Holds (done ++ [h]) (v.place h p) := by
  have hacc : accepts done h = true := by rw [← hd.freeSlot h0, hp]; rfl
  have hnonneg : ∀ a ∈ done ++ [h], 0 ≤ a.virq := by
    intro a ha
    rcases List.mem_append.mp ha with ha | ha
    · exact hd.nonneg a ha
    · rwa [List.mem_singleton.mp ha]
  unfold Vgic.freeSlot at hp
  unfold accepts at hacc
  split_ifs at hp hacc with hlt
  · have hin : 0 ≤ h.virq ∧ h.virq.toNat < numVcpuLocalVirqs := ⟨h0, by omega⟩
    have hspis : spis (done ++ [h]) = spis done := by
      rw [spis_append, spis, spis, List.filter_cons_of_neg (by simpa [VirqHandle.isSpi] using hlt), List.filter_nil,
        List.append_nil]
    rw [Vgic.find, if_pos hlt, dif_pos hin, Option.bind_some] at hp
    split_ifs at hp
    obtain rfl := Option.some.inj hp
    have hnew : done.find? (fun a => decide (a.virq = h.virq)) = none :=
      List.find?_eq_none.mpr fun a ha => by simpa using List.all_eq_true.mp hacc a ha
    refine ⟨hnonneg, fun i => ?_, fun i => ?_, hspis ▸ hd.room⟩
    · rw [Vgic.deref_place, List.find?_append]
      by_cases hi : i = ⟨h.virq.toNat, hin.2⟩
      · have hvirq : ((i : Nat) : Int) = h.virq := by rw [hi]; exact Int.toNat_of_nonneg h0
        rw [hi, Function.update_self, ← hi, hvirq, hnew]
        simp
      · have hne : h.virq ≠ (i : Nat) := fun heq => hi (Fin.ext (by simp [heq]))
        have hptr : VirqPtr.sgiPpi vcpuId i ≠ .sgiPpi vcpuId ⟨h.virq.toNat, hin.2⟩ := by simpa using hi
        rw [Function.update_of_ne hptr, hd.localVirqs]
        simp [hne]
    · rw [Vgic.deref_place, Function.update_of_ne (by simp), hspis]
      exact hd.spi i
  · rw [hd.freeSpi] at hp
    have hroom : (spis done).length < numSlotsSpiVirq := of_decide_eq_true hacc
    rw [dif_pos hroom] at hp
    obtain rfl := Option.some.inj hp
    have hspi : (numVcpuLocalVirqs : Int) ≤ h.virq := Int.not_lt.mp hlt
    have hspis : spis (done ++ [h]) = spis done ++ [h] := by
      rw [spis_append, spis, spis, List.filter_cons_of_pos (by simpa [VirqHandle.isSpi] using hspi), List.filter_nil]
    refine ⟨hnonneg, fun i => ?_, fun i => ?_, ?_⟩
    · have hne : h.virq ≠ (i : Nat) := by omega
      rw [Vgic.deref_place, Function.update_of_ne (by simp), hd.localVirqs, List.find?_append]
      simp [hne]
    · rw [Vgic.deref_place, hspis, SlotTable.fill_append hroom]
      by_cases hi : i = ⟨(spis done).length, hroom⟩
      · rw [hi, Function.update_self, Function.update_self]
      · rw [Function.update_of_ne (by simpa using hi), Function.update_of_ne hi, hd.spi]
    · rw [hspis, List.length_append]
      exact hroom

lemma Holds.handle (hd : Holds done v) (h0 : 0 ≤ irq) : v.handle irq = done.find? fun a => decide (a.virq = irq) := by
  unfold Vgic.handle Vgic.find
  split_ifs with hlt hin
  · have hnat : (irq.toNat : Int) = irq := Int.toNat_of_nonneg h0
    rw [Option.bind_some, hd.localVirqs]
    dsimp only
    rw [hnat]
    cases hf : done.find? fun a => decide (a.virq = irq) with
    | none => rfl
    | some a => exact present_eq_some.mpr ⟨rfl, hd.valid a (List.mem_of_find?_eq_some hf)⟩
  · exact absurd ⟨h0, by omega⟩ hin
  · have hspi : (numVcpuLocalVirqs : Int) ≤ irq := Int.not_lt.mp hlt
    have hvalid : irq ≠ virqInvalid := by simp only [virqInvalid]; omega
    have hcongr : (fun i : Fin numSlotsSpiVirq => decide (v.vspis[i].virq ≠ virqInvalid) && decide (v.vspis[i].virq = irq)) =
        fun i => decide ((SlotTable.fill .invalid (spis done) i).virq = irq) := by
      funext i
      have hi : v.vspis[i] = SlotTable.fill .invalid (spis done) i := hd.spi i
      rw [hi]
      by_cases heq : (SlotTable.fill .invalid (spis done) i).virq = irq
      · simp [heq, hvalid]
      · simp [heq]
    have hfind := SlotTable.find?_fill (d := (VirqHandle.invalid : VirqHandle φ)) (p := fun a => decide (a.virq = irq))
      (decide_eq_false (Ne.symm hvalid)) hd.room
    have hfilter : (spis done).find? (fun a => decide (a.virq = irq)) = done.find? fun a => decide (a.virq = irq) := by
      rw [spis, List.find?_filter]
      congr 1
      funext a
      by_cases ha : a.virq = irq
      · simpa [ha, VirqHandle.isSpi] using hspi
      · simp [ha]
    rw [← hfilter, ← hfind, virqFindSpiIrqData, hcongr, Option.bind_map]
    cases hf : (List.finRange numSlotsSpiVirq).find? fun i =>
        decide ((SlotTable.fill .invalid (spis done) i).virq = irq) with
    | none => rfl
    | some i =>
      have hvirq : (SlotTable.fill .invalid (spis done) i).virq = irq := by simpa using List.find?_some hf
      rw [Option.bind_some, Option.map_some, Function.comp_apply, hd.spi]
      exact present_eq_some.mpr ⟨rfl, hvirq ▸ hvalid⟩

end Holds

/-! ### Runs -/

def NotRegister : Op φ → Prop
  | .registerIrq _ _ _ => False
  | _ => True

instance (op : Op φ) : Decidable (NotRegister op) :=
  match op with
  | .registerIrq _ _ _ => .isFalse id
  | .injectIrq _ | .notification _ | .guest _ | .fault _ | .retire _ => .isTrue trivial

section Runs

variable {done l : List (VirqHandle φ)} {h : VirqHandle φ} {s : Vmm φ}

lemma run_vgicRegisterIrq (hd : Holds done s.vgic) (hw : s.vgic.Wf) (h0 : 0 ≤ h.virq) :
    ∃ v, vgicRegisterIrq env vcpuId h.virq h.ackFn h.ackData s = .ok (accepts done h) { s with vgic := v } ∧
      Holds (accept done h) v ∧ v.Wf ∧ v.view = s.vgic.view ∧ (accepts done h = false → v = s.vgic) := by
  have hfree := hd.freeSlot h0
  have hrun : wp (vgicRegisterIrq env vcpuId h.virq h.ackFn h.ackData) (fun b s' => ∃ v, (b = accepts done h ∧
      s' = { s with vgic := v }) ∧ Holds (accept done h) v ∧ v.Wf ∧ v.view = s.vgic.view ∧
      (accepts done h = false → v = s.vgic)) (fun _ _ => False) s := by
    rw [wp_vgicRegisterIrq_slot h0]
    refine ⟨fun hnone => ?_, fun p hp => ?_⟩
    · have hacc : accepts done h = false := by rw [← hfree, hnone]; rfl
      refine ⟨s.vgic, ⟨hacc.symm, rfl⟩, ?_, hw, rfl, fun _ => rfl⟩
      rwa [accept, hacc, if_neg (by simp)]
    · have hacc : accepts done h = true := by rw [← hfree, hp]; rfl
      have hr := @registers_place _ _ _ _ h.ackFn h.ackData h0 hp
      refine ⟨_, ⟨hacc.symm, rfl⟩, ?_, hr.wf hw, hr.view hw, fun h' => absurd (hacc.symm.trans h') (by simp)⟩
      rw [accept, hacc, if_pos rfl]
      exact hd.place h0 hp
  obtain ⟨b, s', hok, v, ⟨rfl, rfl⟩, hv⟩ := ok_of_wp hrun
  exact ⟨v, hok, hv⟩

lemma run_register (hd : Holds done s.vgic) (hw : s.vgic.Wf) (h0 : 0 ≤ h.virq) :
    ∃ v, register env done h s = .ok (accept done h) { s with vgic := v } ∧ Holds (accept done h) v ∧ v.Wf ∧
      v.view = s.vgic.view := by
  obtain ⟨v, hok, hv, hw', hview, -⟩ := @run_vgicRegisterIrq _ env _ _ _ hd hw h0
  refine ⟨v, ?_, hv, hw', hview⟩
  change EStateM.bind _ _ s = _
  unfold EStateM.bind
  rw [hok]
  rfl

lemma run_registers (hd : Holds done s.vgic) (hw : s.vgic.Wf) (hl : ∀ h ∈ l, 0 ≤ h.virq) :
    ∃ v, l.foldlM (register env) done s = .ok (l.foldl accept done) { s with vgic := v } ∧
      Holds (l.foldl accept done) v ∧ v.Wf ∧ v.view = s.vgic.view := by
  induction l generalizing done s with
  | nil => exact ⟨s.vgic, rfl, hd, hw, rfl⟩
  | cons h l ih =>
    obtain ⟨v, hok, hv, hw', hview⟩ := @run_register _ env _ _ _ hd hw (hl h (by simp))
    obtain ⟨u, hok', hu⟩ := ih (s := { s with vgic := v }) hv hw' fun a ha => hl a (by simp [ha])
    refine ⟨u, ?_, hview ▸ hu⟩
    rw [List.foldlM_cons]
    change EStateM.bind _ _ s = _
    unfold EStateM.bind
    rw [hok]
    exact hok'

/-- A sequence of registrations after `vgic_init` ends, with the tables as its successful ones leave them. -/
lemma run_registerAll (tcb : UserContext) (hl : ∀ h ∈ l, 0 ≤ h.virq) :
    ∃ v, registerAll env l (vgicInit env tcb) = .ok (l.foldl accept []) { vgicInit env tcb with vgic := v } ∧
      Holds (l.foldl accept []) v ∧ v.Wf ∧ v.view = (Vgic.init : Vgic φ).view :=
  run_registers (s := vgicInit env tcb) holds_init wf_init hl

end Runs

/-! ### The successful registrations -/

section Successes

variable {l l₁ l₂ : List (VirqHandle φ)} {h : VirqHandle φ}

lemma foldl_accept_append (l : List (VirqHandle φ)) (h : VirqHandle φ) :
    (l ++ [h]).foldl accept [] = accept (l.foldl accept []) h := by rw [List.foldl_append]; rfl

lemma mem_of_mem_foldl_accept : h ∈ l.foldl accept [] → h ∈ l := by
  induction l using List.reverseRecOn with
  | nil => exact id
  | append_singleton l a ih =>
    rw [foldl_accept_append, accept]
    intro hmem
    split_ifs at hmem
    · exact (List.mem_append.mp hmem).elim (fun hl => List.mem_append_left _ (ih hl)) fun ha => List.mem_append_right _ ha
    · exact List.mem_append_left _ (ih hmem)

lemma accepts_spi {done : List (VirqHandle φ)} (hspi : (numVcpuLocalVirqs : Int) ≤ h.virq) :
    accepts done h = decide ((spis done).length < numSlotsSpiVirq) := by rw [accepts, if_neg (Int.not_lt.mpr hspi)]

lemma spis_foldl_accept (l : List (VirqHandle φ)) : spis (l.foldl accept []) = (spis l).take numSlotsSpiVirq := by
  induction l using List.reverseRecOn with
  | nil => rfl
  | append_singleton l h ih =>
    rw [foldl_accept_append, spis_append]
    by_cases hspi : (numVcpuLocalVirqs : Int) ≤ h.virq
    · have hone : spis [h] = [h] := List.filter_cons_of_pos (by simpa [VirqHandle.isSpi] using hspi)
      rw [hone, accept, accepts_spi hspi, ih, List.length_take]
      by_cases hroom : (spis l).length < numSlotsSpiVirq
      · rw [if_pos (by simpa using hroom), spis_append, hone, ih, List.take_of_length_le hroom.le,
          List.take_of_length_le (by simpa [Nat.succ_le_iff] using hroom)]
      · rw [if_neg (by simpa using hroom), ih, List.take_append_of_le_length (Nat.not_lt.mp hroom)]
    · have hone : spis [h] = [] := List.filter_cons_of_neg (by simpa [VirqHandle.isSpi] using hspi)
      rw [hone, List.append_nil, accept]
      split_ifs with hacc
      · rw [spis_append, hone, List.append_nil, ih]
      · exact ih

lemma filter_foldl_accept (l : List (VirqHandle φ)) {irq : Int} (hlocal : irq < (numVcpuLocalVirqs : Int)) :
    (l.foldl accept []).filter (fun a => decide (a.virq = irq)) =
      (l.find? fun a => decide (a.virq = irq)).toList := by
  induction l using List.reverseRecOn with
  | nil => rfl
  | append_singleton l h ih =>
    have hempty : ((l.foldl accept []).all fun a => decide (a.virq ≠ irq)) =
        (l.find? fun a => decide (a.virq = irq)).isNone := by
      rw [Bool.eq_iff_iff, Option.isNone_iff_eq_none, ← Option.toList_eq_nil_iff, ← ih, List.filter_eq_nil_iff,
        List.all_eq_true]
      simp
    rw [foldl_accept_append, List.find?_append]
    by_cases hirq : h.virq = irq
    · have hacc : accepts (l.foldl accept []) h = (l.find? fun a => decide (a.virq = irq)).isNone := by
        rw [accepts, if_pos (hirq ▸ hlocal), hirq, hempty]
      rw [accept, hacc]
      cases hf : l.find? fun a => decide (a.virq = irq) with
      | none =>
        rw [hf] at ih
        simp [List.filter_append, ih, hirq]
      | some a =>
        rw [hf] at ih
        simpa using ih
    · have hone : [h].find? (fun a => decide (a.virq = irq)) = none := by simp [hirq]
      rw [hone, Option.or_none, ← ih, accept]
      split_ifs with hacc
      · simp [List.filter_append, hirq]
      · rfl

/-- The successful registrations are of distinct interrupts exactly when the first 200 calls for SPIs are. -/
lemma nodup_foldl_accept (l : List (VirqHandle φ)) : ((l.foldl accept []).map VirqHandle.virq).Nodup ↔
    (((spis l).take numSlotsSpiVirq).map VirqHandle.virq).Nodup := by
  rw [← spis_foldl_accept]
  refine ⟨fun h => h.sublist (List.filter_sublist.map _), fun h => ?_⟩
  have hcount : ∀ irq, ((l.foldl accept []).filter fun a => decide (a.virq = irq)).length ≤ 1 := by
    intro irq
    by_cases hlocal : irq < (numVcpuLocalVirqs : Int)
    · rw [filter_foldl_accept l hlocal]
      cases l.find? fun a => decide (a.virq = irq) <;> simp
    · have hsame : (l.foldl accept []).filter (fun a => decide (a.virq = irq)) =
          (spis (l.foldl accept [])).filter fun a => decide (a.virq = irq) := by
        rw [spis, List.filter_filter]
        refine List.filter_congr fun a _ => ?_
        by_cases ha : a.virq = irq
        · simpa [ha, VirqHandle.isSpi] using hlocal
        · simp [ha]
      have hle := List.nodup_iff_count_le_one.mp h irq
      rw [hsame]
      rwa [List.count, List.countP_map, List.countP_eq_length_filter] at hle
  refine List.nodup_iff_count_le_one.mpr fun irq => ?_
  rw [List.count, List.countP_map, List.countP_eq_length_filter]
  exact hcount irq

/-- They are so exactly when no interrupt is accepted that is registered already. -/
lemma nodup_iff_fresh (l : List (VirqHandle φ)) : ((l.foldl accept []).map VirqHandle.virq).Nodup ↔
    ∀ l₁ h l₂, l = l₁ ++ h :: l₂ → accepts (l₁.foldl accept []) h = true →
      h.virq ∉ (l₁.foldl accept []).map VirqHandle.virq := by
  induction l using List.reverseRecOn with
  | nil => simp
  | append_singleton l a ih =>
    rw [foldl_accept_append]
    constructor
    · intro hnodup l₁ h l₂ heq hacc
      rcases List.eq_nil_or_concat l₂ with rfl | ⟨l₃, b, rfl⟩
      · obtain ⟨rfl, hah⟩ := List.append_inj' heq rfl
        obtain rfl : a = h := by simpa using hah
        rw [accept, if_pos hacc, List.map_append, List.nodup_append] at hnodup
        exact fun hmem => hnodup.2.2 _ hmem _ (by simp) rfl
      · refine ih.mp ?_ l₁ h l₃ ?_ hacc
        · unfold accept at hnodup
          split_ifs at hnodup
          · rw [List.map_append] at hnodup
            exact hnodup.of_append_left
          · exact hnodup
        · have heq' : l ++ [a] = (l₁ ++ h :: l₃) ++ [b] := by simpa using heq
          exact (List.append_inj' heq' rfl).1
    · intro hfresh
      have hnodup := ih.mpr fun l₁ h l₂ heq => hfresh l₁ h (l₂ ++ [a]) (by simp [heq])
      unfold accept
      split_ifs with hacc
      · rw [List.map_append, List.nodup_append]
        refine ⟨hnodup, by simp, fun i hi j hj => ?_⟩
        obtain rfl : j = a.virq := by simpa using hj
        exact fun heq => hfresh l a [] rfl hacc (heq ▸ hi)
      · exact hnodup

lemma filter_eq_find?_toList {done : List (VirqHandle φ)} (hnodup : (done.map VirqHandle.virq).Nodup) (irq : Int) :
    done.filter (fun a => decide (a.virq = irq)) = (done.find? fun a => decide (a.virq = irq)).toList := by
  induction done with
  | nil => rfl
  | cons a done ih =>
    rw [List.map_cons, List.nodup_cons] at hnodup
    by_cases ha : a.virq = irq
    · have hrest : done.filter (fun b => decide (b.virq = irq)) = [] := by
        refine List.filter_eq_nil_iff.mpr fun b hb => ?_
        simp only [decide_eq_true_eq]
        exact fun hbi => hnodup.1 (List.mem_map.mpr ⟨b, hb, hbi.trans ha.symm⟩)
      rw [List.filter_cons_of_pos (by simpa using ha), List.find?_cons_of_pos (by simpa using ha), hrest]
      rfl
    · rw [List.filter_cons_of_neg (by simpa using ha), List.find?_cons_of_neg (by simpa using ha)]
      exact ih hnodup.2

/-- All registrations of distinct interrupts are successful, up to the 200 SPIs there are slots for. -/
lemma foldl_accept_of_nodup (hnodup : (l.map VirqHandle.virq).Nodup) (hroom : (spis l).length ≤ numSlotsSpiVirq) :
    l.foldl accept [] = l := by
  induction l using List.reverseRecOn with
  | nil => rfl
  | append_singleton l h ih =>
    rw [List.map_append, List.nodup_append] at hnodup
    rw [spis_append, List.length_append] at hroom
    rw [foldl_accept_append, ih hnodup.1 (by omega), accept, if_pos]
    by_cases hlt : h.virq < (numVcpuLocalVirqs : Int)
    · rw [accepts, if_pos hlt]
      refine List.all_eq_true.mpr fun a ha => decide_eq_true ?_
      exact hnodup.2.2 _ (List.mem_map_of_mem ha) _ (by simp)
    · have hspi : (numVcpuLocalVirqs : Int) ≤ h.virq := Int.not_lt.mp hlt
      have hone : spis [h] = [h] := List.filter_cons_of_pos (by simpa [VirqHandle.isSpi] using hspi)
      rw [hone, List.length_singleton] at hroom
      rw [accepts_spi hspi]
      exact decide_eq_true hroom

lemma find?_of_mem (hnodup : (l.map VirqHandle.virq).Nodup) (hmem : h ∈ l) :
    l.find? (fun a => decide (a.virq = h.virq)) = some h := by
  cases hf : l.find? fun a => decide (a.virq = h.virq) with
  | none => exact absurd (List.find?_eq_none.mp hf h hmem) (by simp)
  | some a =>
    have hvirq : a.virq = h.virq := by simpa using List.find?_some hf
    rw [List.inj_on_of_nodup_map hnodup (List.mem_of_find?_eq_some hf) hmem hvirq]

end Successes

end Sel4cpVmm
