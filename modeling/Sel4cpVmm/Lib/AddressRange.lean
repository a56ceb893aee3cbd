import Mathlib.Data.BitVec
import Mathlib.Logic.Function.Basic
import Mathlib.Tactic.Abel

/-!
# Ranges of machine addresses

A range of addresses of `w` bits, which may wrap around, and the loop that copies one range to another from the
first address on.
-/

/-- The `size` addresses from `base` on. -/
structure AddressRange (w : Nat) where
  base : BitVec w
  size : Nat

namespace AddressRange

variable {w : Nat} {α : Type}

/-! ### Offsets -/

/-- The distance of an address from `base`, upwards and around. -/
def offset (base a : BitVec w) : Nat := (a - base).toNat

section Offset

variable {base a b : BitVec w} {i : Nat}

lemma offset_lt : offset base a < 2 ^ w := (a - base).isLt

lemma base_add_offset : base + BitVec.ofNat w (offset base a) = a := by
  rw [offset, BitVec.ofNat_toNat, BitVec.setWidth_eq, BitVec.add_comm, BitVec.sub_add_cancel]

lemma offset_base_add (h : i < 2 ^ w) : offset base (base + BitVec.ofNat w i) = i := by
  rw [offset, BitVec.add_comm, BitVec.add_sub_cancel, BitVec.toNat_ofNat, Nat.mod_eq_of_lt h]

@[simp] lemma offset_self : offset base base = 0 := by simp [offset]

lemma eq_of_offset (h : offset base a = offset base b) : a = b := by
  have ha : base + BitVec.ofNat w (offset base a) = a := base_add_offset
  rw [← ha, h, base_add_offset]

lemma offset_succ (hne : a ≠ base) : offset base a = offset (base + 1) a + 1 := by
  have h0 : offset base a ≠ 0 := fun h => hne (eq_of_offset (h.trans offset_self.symm))
  have hlt : offset base a - 1 < 2 ^ w := by
    have ha : offset base a < 2 ^ w := offset_lt
    omega
  have hadd : base + BitVec.ofNat w (offset base a) = base + 1 + BitVec.ofNat w (offset base a - 1) := by
    have hone : offset base a = 1 + (offset base a - 1) := by omega
    conv_lhs => rw [hone, BitVec.ofNat_add, ← BitVec.add_assoc]
    rfl
  have hpred : offset (base + 1) a = offset base a - 1 := by
    have ha : base + BitVec.ofNat w (offset base a) = a := base_add_offset
    conv_lhs => rw [← ha, hadd, offset_base_add hlt]
  omega

lemma offset_trans : offset base a = (offset base b + offset b a) % 2 ^ w := by
  rw [offset, offset, offset, ← BitVec.toNat_add, add_comm, sub_add_sub_cancel]

lemma offset_add_one_add_one : offset (base + 1) (a + 1) = offset base a := by
  rw [offset, offset, add_sub_add_right_eq_sub]

lemma offset_add_offset (hne : a ≠ b) : offset a b + offset b a = 2 ^ w := by
  have h0 : offset a b ≠ 0 := fun h => hne ((eq_of_offset (h.trans offset_self.symm)).symm)
  have hsum : (offset a b + offset b a) % 2 ^ w = 0 := by rw [← offset_trans, offset_self]
  obtain ⟨c, hc⟩ := Nat.dvd_of_mod_eq_zero hsum
  have hlt : offset a b < 2 ^ w := offset_lt
  have hlt' : offset b a < 2 ^ w := offset_lt
  have hc1 : c = 1 := by
    rcases c with _ | _ | c
    · omega
    · rfl
    · rw [Nat.mul_add, Nat.mul_add] at hc
      omega
  rw [hc, hc1, Nat.mul_one]

lemma le_offset_next {n : Nat} (hn : n + 1 ≤ 2 ^ w) : n ≤ offset (a + 1) a := by
  by_cases hw : 1 < 2 ^ w
  · have hone : offset a (a + 1) = 1 := offset_base_add hw
    have hne : a + 1 ≠ a := by
      intro he
      rw [he, offset_self] at hone
      omega
    have hsum := offset_add_offset hne
    omega
  · omega

end Offset

/-! ### Membership -/

instance : Membership (BitVec w) (AddressRange w) := ⟨fun r a => offset r.base a < r.size⟩

variable {r r' : AddressRange w} {a : BitVec w}

lemma mem_iff : a ∈ r ↔ offset r.base a < r.size := Iff.rfl

instance : Decidable (a ∈ r) := inferInstanceAs (Decidable (_ < _))

lemma base_add_mem {i : Nat} (hi : i < r.size) (hr : r.size ≤ 2 ^ w) : r.base + BitVec.ofNat w i ∈ r := by
  rw [mem_iff, offset_base_add (by omega)]
  exact hi

lemma mem_of_within (h : offset r.base r'.base + r'.size ≤ r.size) (hr : r.size ≤ 2 ^ w) (ha : a ∈ r') : a ∈ r := by
  rw [mem_iff] at ha ⊢
  rw [offset_trans (b := r'.base), Nat.mod_eq_of_lt (by omega)]
  omega

/-- No address lies in both ranges. -/
def Apart (r r' : AddressRange w) : Prop := ∀ a ∈ r, a ∉ r'

lemma Apart.symm (h : Apart r r') : Apart r' r := fun a ha ha' => h a ha' ha

/-- Two ranges are apart when each ends before the other begins, going around. -/
lemma apart_iff : Apart r r' ↔ r.size = 0 ∨ r'.size = 0 ∨
    (r.size ≤ offset r.base r'.base ∧ r'.size ≤ offset r'.base r.base) := by
  constructor
  · intro h
    by_cases h0 : r.size = 0
    · exact .inl h0
    by_cases h0' : r'.size = 0
    · exact .inr (.inl h0')
    have hbase' : r'.base ∉ r := fun hm => h r'.base hm (by rw [mem_iff, offset_self]; omega)
    have hbase : r.base ∉ r' := fun hm => h r.base (by rw [mem_iff, offset_self]; omega) hm
    rw [mem_iff] at hbase hbase'
    exact .inr (.inr ⟨by omega, by omega⟩)
  · rintro (h0 | h0 | ⟨hle, hle'⟩) a ha ha' <;> rw [mem_iff] at ha ha'
    · omega
    · omega
    have hne : r.base ≠ r'.base := by
      intro he
      rw [he, offset_self] at hle
      omega
    have hsum := offset_add_offset hne
    -- going up from `r.base` the address comes behind `r'.base`, before the way round is complete
    have ht : offset r.base a = (offset r.base r'.base + offset r'.base a) % 2 ^ w := offset_trans
    rw [Nat.mod_eq_of_lt (by omega)] at ht
    omega

instance : Decidable (Apart r r') := decidable_of_iff _ apart_iff.symm

/-! ### Copying -/

/-- Copies `n` cells from `src` on to `dst` on, the first one first. -/
def copyUp (dst src : BitVec w) : Nat → (BitVec w → α) → BitVec w → α
  | 0, m => m
  | n + 1, m => copyUp (dst + 1) (src + 1) n (Function.update m dst (m src))

variable {dst src : BitVec w} {m : BitVec w → α}

lemma copyUp_of_le {n : Nat} (hn : n ≤ 2 ^ w) (h : n ≤ offset dst a) : copyUp dst src n m a = m a := by
  induction n generalizing dst src m with
  | zero => rfl
  | succ n ih =>
    have hne : a ≠ dst := by
      rintro rfl
      rw [offset_self] at h
      omega
    have hs := offset_succ hne
    rw [copyUp, ih (by omega) (by omega), Function.update_of_ne hne]

/-- The cell read behind the first one, after that has been copied. -/
lemma update_next {x : Nat} (hx : x + 1 < 2 ^ w) :
    Function.update m dst (m src) (src + 1 + BitVec.ofNat w (x % offset src dst)) =
      m (src + BitVec.ofNat w ((x + 1) % offset src dst)) := by
  have hadd : src + 1 + BitVec.ofNat w (x % offset src dst) = src + BitVec.ofNat w (x % offset src dst + 1) := by
    rw [BitVec.ofNat_add, add_comm (BitVec.ofNat w _), ← add_assoc]
    rfl
  have hle : x % offset src dst ≤ x := Nat.mod_le ..
  rw [hadd]
  by_cases hend : x % offset src dst + 1 = offset src dst
  · have hmod : (x + 1) % offset src dst = 0 := by rw [← Nat.mod_add_mod, hend, Nat.mod_self]
    rw [hend, base_add_offset, Function.update_self, hmod]
    simp
  · have hmod : (x + 1) % offset src dst = x % offset src dst + 1 := by
      rcases Nat.eq_zero_or_pos (offset src dst) with h0 | hpos
      · rw [h0, Nat.mod_zero, Nat.mod_zero]
      · have hlt := Nat.mod_lt x hpos
        rw [← Nat.mod_add_mod, Nat.mod_eq_of_lt (by omega)]
    have hne : src + BitVec.ofNat w (x % offset src dst + 1) ≠ dst := by
      intro he
      have hoff : offset src (src + BitVec.ofNat w (x % offset src dst + 1)) = x % offset src dst + 1 :=
        offset_base_add (by omega)
      rw [he] at hoff
      exact hend hoff.symm
    rw [Function.update_of_ne hne, hmod]

/-- What was copied is the source as it was, repeated from where the destination begins when that lies in the
source behind its first address. -/
theorem copyUp_apply {n : Nat} (hn : n ≤ 2 ^ w) (h : offset dst a < n) :
    copyUp dst src n m a = m (src + BitVec.ofNat w (offset dst a % offset src dst)) := by
  induction n generalizing dst src m with
  | zero => omega
  | succ n ih =>
    rw [copyUp]
    by_cases ha : a = dst
    · subst ha
      rw [copyUp_of_le (by omega) (le_offset_next hn), Function.update_self, offset_self, Nat.zero_mod]
      simp
    · have hs := offset_succ ha
      rw [ih (by omega) (by omega), hs, offset_add_one_add_one]
      exact update_next (by omega)

lemma copyUp_of_apart {n : Nat} (hn : n ≤ 2 ^ w) (hapart : offset src dst = 0 ∨ n ≤ offset src dst)
    (h : offset dst a < n) : copyUp dst src n m a = m (src + BitVec.ofNat w (offset dst a)) := by
  rw [copyUp_apply hn h]
  rcases hapart with h0 | hle
  · rw [h0, Nat.mod_zero]
  · rw [Nat.mod_eq_of_lt (by omega)]

/-! ### Several copies -/

/-- A range of `size` cells to be copied from `src` to `dst`. -/
structure Copy (w : Nat) where
  dst : BitVec w
  src : BitVec w
  size : Nat

namespace Copy

def target (c : Copy w) : AddressRange w := ⟨c.dst, c.size⟩

def source (c : Copy w) : AddressRange w := ⟨c.src, c.size⟩

/-- The target holds in `m'` what the source held in `m`. -/
def Done (c : Copy w) (m m' : BitVec w → α) : Prop :=
  ∀ a ∈ c.target, m' a = m (c.src + BitVec.ofNat w (offset c.dst a))

/-- Copies one range after the other. -/
def all (l : List (Copy w)) (m : BitVec w → α) : BitVec w → α :=
  l.foldl (fun m c => copyUp c.dst c.src c.size m) m

variable {c : Copy w} {l : List (Copy w)}

lemma source_mem (hsize : c.size ≤ 2 ^ w) (ha : a ∈ c.target) :
    c.src + BitVec.ofNat w (offset c.dst a) ∈ c.source :=
  base_add_mem (r := c.source) ha hsize

lemma all_append (l : List (Copy w)) (c : Copy w) (m : BitVec w → α) :
    all (l ++ [c]) m = copyUp c.dst c.src c.size (all l m) := by
  rw [all, List.foldl_append]
  rfl

lemma all_of_not_mem (hsize : ∀ c ∈ l, c.size ≤ 2 ^ w) (h : ∀ c ∈ l, a ∉ c.target) : all l m a = m a := by
  induction l using List.reverseRecOn with
  | nil => rfl
  | append_singleton l c ih =>
    have hc : a ∉ c.target := h c (by simp)
    have hle : c.size ≤ offset c.dst a := Nat.not_lt.mp hc
    rw [all_append, copyUp_of_le (hsize c (by simp)) hle]
    exact ih (fun c' hc' => hsize c' (by simp [hc'])) fun c' hc' => h c' (by simp [hc'])

lemma done_of_pairwise (hsize : ∀ c ∈ l, c.size ≤ 2 ^ w)
    (hapart : ∀ c ∈ l, ∀ c' ∈ l, Apart c.source c'.target)
    (hl : l.Pairwise fun c c' => Apart c.target c'.target) : ∀ c ∈ l, c.Done m (all l m) := by
  induction l using List.reverseRecOn with
  | nil => simp
  | append_singleton l c ih =>
    intro d hd a ha
    rw [List.pairwise_append] at hl
    rcases List.mem_append.mp hd with hd' | hd'
    · have hout : a ∉ c.target := hl.2.2 d hd' c (by simp) a ha
      have hle : c.size ≤ offset c.dst a := Nat.not_lt.mp hout
      rw [all_append, copyUp_of_le (hsize c (by simp)) hle]
      exact ih (fun c' hc' => hsize c' (by simp [hc'])) (fun c' hc' c'' hc'' => hapart c' (by simp [hc']) c'' (by simp [hc'']))
        hl.1 d hd' a ha
    · obtain rfl := List.mem_singleton.mp hd'
      have hself := apart_iff.mp (hapart d (by simp) d (by simp))
      have hpos : 0 < d.size := Nat.zero_lt_of_lt ha
      have hoff : d.size ≤ offset d.src d.dst := by
        rcases hself with h0 | h0 | h0
        · exact absurd h0 hpos.ne'
        · exact absurd h0 hpos.ne'
        · exact h0.1
      rw [all_append, copyUp_of_apart (hsize d (by simp)) (.inr hoff) ha]
      refine all_of_not_mem (fun c' hc' => hsize c' (by simp [hc'])) fun c' hc' => ?_
      exact hapart d (by simp) c' (by simp [hc']) _ (source_mem (hsize d (by simp)) ha)

/-- When the sources are apart from one another and from the targets, every content arrives exactly when the
targets are apart from one another. -/
theorem all_done_iff [Nontrivial α] (hsize : ∀ c ∈ l, c.size ≤ 2 ^ w)
    (hsrc : l.Pairwise fun c c' => Apart c.source c'.source)
    (hapart : ∀ c ∈ l, ∀ c' ∈ l, Apart c.source c'.target) :
    (∀ m : BitVec w → α, ∀ c ∈ l, c.Done m (all l m)) ↔ l.Pairwise fun c c' => Apart c.target c'.target := by
  refine ⟨fun h => ?_, fun h m => done_of_pairwise hsize hapart h⟩
  refine hsrc.imp_of_mem fun {c c'} hc hc' hdis a ha ha' => ?_
  obtain ⟨x, y, hxy⟩ := exists_pair_ne α
  -- the address would hold both the byte of the one source and that of the other
  have hs := source_mem (hsize c hc) ha
  have hs' := source_mem (hsize c' hc') ha'
  have hne : c'.src + BitVec.ofNat w (offset c'.dst a) ≠ c.src + BitVec.ofNat w (offset c.dst a) := by
    intro he
    rw [he] at hs'
    exact hdis _ hs hs'
  have hm := h (Function.update (fun _ => x) (c.src + BitVec.ofNat w (offset c.dst a)) y)
  have hy := hm c hc a ha
  have hx := hm c' hc' a ha'
  rw [Function.update_self] at hy
  rw [Function.update_of_ne hne] at hx
  exact hxy (hx.symm.trans hy)

end Copy

end AddressRange
