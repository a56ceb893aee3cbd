import Sel4cpVmm.Proofs.MapEnd
import Sel4cpVmm.Properties.LoadedValue

/-!
# Loads behind the register maps

The identification registers are read as 32 bits from the byte addressed on, so a load from the middle of the last of
them takes bytes from behind the map. No other step depends on that memory, and none writes to it.
-/

namespace Sel4cpVmm

open StopProgram GicDistMap

variable {φ : Type} {env : Env φ}

/-- The last offset of the identification registers that a read finds. -/
def GicVersion.lastRead : GicVersion → Nat
  | .v2 => 0xFFE
  | .v3 => 0xFFFF

/-- A load at this offset takes a byte from behind the last register. -/
def LoadsTail (g : GicVersion) (offset : Nat) (width : FaultWidth) : Prop :=
  offset ≤ g.lastRead ∧
    (g.lastRead / 4 * 4 + 2 ≤ offset ∨ offset = g.lastRead / 4 * 4 + 1 ∧ width = .doubleword)

instance (g : GicVersion) (offset : Nat) (width : FaultWidth) : Decidable (LoadsTail g offset width) :=
  inferInstanceAs (Decidable (_ ∧ (_ ∨ _)))

/-- A load that is answered with a byte from behind one of the two maps. The redistributor ends with the same
registers as the distributor of the GICv3. -/
def LoadsBehind (env : Env φ) (addr fsr : U64) : Prop :=
  faultIsRead fsr = true ∧ AccessOk addr fsr ∧
    if InDist env addr then LoadsTail env.board.gic (addr - env.board.gicDistPaddr).toNat (accessWidth fsr)
    else InRedist env addr ∧ LoadsTail .v3 (addr - Board.gicRedistPaddr).toNat (accessWidth fsr)

def Op.LoadsBehind (env : Env φ) : Op φ → Prop
  | .fault (.vmFault addr fsr) => Sel4cpVmm.LoadsBehind env addr fsr
  | _ => False

/-- The access takes this byte of a register. -/
def TakesByte (addr fsr : U64) (k : Nat) : Prop :=
  addr.toNat % 4 ≤ k ∧ k < 4 ∧ k < addr.toNat % 4 + (accessWidth fsr).bytes

/-- The bytes read from `a` on are in the map, or from a byte of its last word on. -/
def RawAt (g : GicVersion) (offset a : Nat) : Prop :=
  a + 4 ≤ 4 * g.mapWords ∨
    (g.lastRead / 4 * 4 < offset ∧ offset ≤ g.lastRead) ∧ a = 4 * g.mapWords - 4 + offset % 4

/-! ### The end of a map -/

section Decode

variable {g : GicVersion} {offset w a : Nat}

lemma le_of_range32 {r e : Nat} (h : range32 offset r e = true) : offset ≤ e + 3 := by
  simp only [range32, Bool.and_eq_true, decide_eq_true_eq] at h
  exact h.2

lemma distRead_word_lt (h : distRead g vcpuId offset = .word w) : w < g.mapWords := by
  have hw := distRead_word h
  have hlt : offset < 0x1000 := by
    unfold distRead at h
    repeat' (replace h := ite_eq_iff.mp h; rcases h with ⟨hr, h⟩ | ⟨-, h⟩)
    all_goals try contradiction
    all_goals exact Nat.lt_of_le_of_lt (le_of_range32 hr) (by decide)
  cases g <;> (simp only [GicVersion.mapWords]; omega)

lemma rawAt_distRead (h : distRead g vcpuId offset = .raw a) : RawAt g offset a := by
  unfold distRead at h
  repeat' (replace h := ite_eq_iff.mp h; rcases h with ⟨hr, h⟩ | ⟨-, h⟩)
  all_goals try contradiction
  all_goals
    obtain ⟨rfl, hr⟩ := hr
    obtain rfl := DistRead.raw.inj h
    simp only [range32, Bool.and_eq_true, decide_eq_true_eq] at hr
    simp only [RawAt, GicVersion.mapWords, GicVersion.lastRead, spi, periphId, irouter, pidrn]
    omega

lemma distRead_tail (hlt : g.lastRead / 4 * 4 < offset) (hle : offset ≤ g.lastRead) :
    distRead g vcpuId offset = .raw (4 * g.mapWords - 4 + offset % 4) := by
  cases g with
  | v2 =>
    change 0xFFC < offset at hlt
    change offset ≤ 0xFFE at hle
    obtain rfl | rfl : offset = 0xFFD ∨ offset = 0xFFE := by omega
    all_goals rfl
  | v3 =>
    change 0xFFFC < offset at hlt
    change offset ≤ 0xFFFF at hle
    obtain rfl | rfl | rfl : offset = 0xFFFD ∨ offset = 0xFFFE ∨ offset = 0xFFFF := by omega
    all_goals rfl

lemma redistRead_word_lt (h : redistRead vcpuId offset = .redistWord w) : w < redistMapWords := by
  unfold redistRead at h
  repeat' (replace h := ite_eq_iff.mp h; rcases h with ⟨hr, h⟩ | ⟨-, h⟩)
  all_goals try contradiction
  all_goals
    obtain rfl := RedistRead.redistWord.inj h
    decide

lemma rawAt_redistRead (h : redistRead vcpuId offset = .redistRaw a) : RawAt .v3 offset a := by
  unfold redistRead at h
  repeat' (replace h := ite_eq_iff.mp h; rcases h with ⟨hr, h⟩ | ⟨-, h⟩)
  all_goals try contradiction
  obtain rfl := RedistRead.redistRaw.inj h
  simp only [range32, Bool.and_eq_true, decide_eq_true_eq] at hr
  simp only [RawAt, GicVersion.mapWords, GicVersion.lastRead, GicRedistMap.pidr4]
  omega

lemma redistRead_tail (hlt : GicVersion.v3.lastRead / 4 * 4 < offset) (hle : offset ≤ GicVersion.v3.lastRead) :
    redistRead vcpuId offset = .redistRaw (4 * GicVersion.v3.mapWords - 4 + offset % 4) := by
  change 0xFFFC < offset at hlt
  change offset ≤ 0xFFFF at hle
  obtain rfl | rfl | rfl : offset = 0xFFFD ∨ offset = 0xFFFE ∨ offset = 0xFFFF := by omega
  all_goals rfl

/-- The redistributor reads the registers of the local interrupts in the map of the distributor. -/
lemma redistRead_distRaw_end (h : redistRead vcpuId offset = .distRaw a) : a + 4 ≤ 4 * g.mapWords := by
  unfold redistRead at h
  repeat' (replace h := ite_eq_iff.mp h; rcases h with ⟨hr, h⟩ | ⟨-, h⟩)
  all_goals try contradiction
  all_goals
    obtain rfl := RedistRead.distRaw.inj h
    have hsub := Nat.sub_le_iff_le_add'.mpr (le_of_range32 hr)
    refine Nat.le_trans (Nat.add_le_add_right (Nat.add_le_add_left hsub _) 4) ?_
    cases g <;> decide

end Decode

section Bytes

variable {g : GicVersion} {d d' : GicDistMap} {b : Nat → U32} {offset a k : Nat} {addr fsr : U64}

lemma byte_withBehind (h : a < 4 * g.mapWords) : (d.withBehind g b).byte a = d.byte a := by
  rw [byte, byte, word_withBehind (by omega)]

lemma byte_behind (h : 4 * g.mapWords ≤ a) : (d.withBehind g b).byte a = byte ⟨b⟩ a := by
  have hw : ¬a / 4 < g.mapWords := by omega
  have hword : (d.withBehind g b).word (a / 4) = b (a / 4) := if_neg hw
  rw [byte, byte, hword]

lemma mapWords_pos (g : GicVersion) : 0 < g.mapWords := lt_mapWords g (by decide)

lemma load32_withBehind (h : a + 4 ≤ 4 * g.mapWords) : (d.withBehind g b).load32 a = d.load32 a := by
  rw [load32, load32, byte_withBehind (by omega), byte_withBehind (by omega), byte_withBehind (by omega),
    byte_withBehind (by omega)]

/-- The bytes of an access decide the value it masks. -/
lemma masked_load32 (h : ∀ k, TakesByte addr fsr k → d.byte (a + k) = d'.byte (a + k)) :
    d.load32 a &&& (dataMask addr fsr).setWidth 32 = d'.load32 a &&& (dataMask addr fsr).setWidth 32 := by
  apply BitVec.eq_of_getLsbD_eq
  intro j hj
  have h64 : j < 64 := Nat.lt_trans hj (by decide)
  rw [BitVec.getLsbD_and, BitVec.getLsbD_and, BitVec.getLsbD_setWidth, getLsbD_dataMask h64]
  by_cases hm : 8 * (addr.toNat % 4) ≤ j ∧ j < 8 * (addr.toNat % 4 + (accessWidth fsr).bytes)
  · rw [getLsbD_load32 hj, getLsbD_load32 hj, h (j / 8) ⟨by omega, by omega, by omega⟩]
  · rw [decide_eq_false hm, Bool.and_false, Bool.and_false, Bool.and_false]

/-- The bits of a byte an access takes reach the destination. -/
lemma getLsbD_emulatedRead (hk : TakesByte addr fsr k) (x : U64) (reg : U32) :
    (emulatedRead addr fsr x ((reg &&& (dataMask addr fsr).setWidth 32).setWidth 64)).getLsbD
      (8 * k - 8 * (addr.toNat % 4)) = reg.getLsbD (8 * k) := by
  obtain ⟨hlane, hk4, hbytes⟩ := hk
  have hshift : 8 * (addr.toNat % 4) + (8 * k - 8 * (addr.toNat % 4)) = 8 * k := by omega
  have h32 : 8 * k < 32 := by omega
  have h64 : 8 * k < 64 := by omega
  have hmask : (dataMask addr fsr).getLsbD (8 * k) = true := by
    rw [getLsbD_dataMask h64]
    exact decide_eq_true ⟨by omega, by omega⟩
  rw [emulatedRead, BitVec.getLsbD_or, BitVec.getLsbD_and, BitVec.getLsbD_not, BitVec.getLsbD_ushiftRight,
    BitVec.getLsbD_ushiftRight, laneShift_eq, hshift, hmask, Bool.not_true, Bool.and_false, Bool.and_false, Bool.false_or,
    BitVec.getLsbD_and, BitVec.getLsbD_setWidth, BitVec.getLsbD_and, BitVec.getLsbD_setWidth, hmask]
  simp [h32, h64]

/-- An access takes a byte from behind the last register if it does so from the byte addressed on. -/
lemma takesByte_behind_iff (hok : AccessOk addr fsr) (hlane : offset % 4 = addr.toNat % 4)
    (hlt : g.lastRead / 4 * 4 < offset) (hle : offset ≤ g.lastRead) :
    (∃ k, TakesByte addr fsr k ∧ 4 ≤ offset % 4 + k) ↔ LoadsTail g offset (accessWidth fsr) := by
  constructor
  · rintro ⟨k, ⟨hk, hk4, hbytes⟩, hbehind⟩
    refine ⟨hle, ?_⟩
    by_cases h2 : g.lastRead / 4 * 4 + 2 ≤ offset
    · exact .inl h2
    · refine .inr ⟨by omega, ?_⟩
      by_contra hwidth
      have hal := lane_aligned hok hwidth
      cases hw : accessWidth fsr with
      | doubleword => exact hwidth hw
      | _ =>
        rw [hw] at hal hbytes
        simp only [FaultWidth.bytes] at hal hbytes
        omega
  · rintro ⟨-, h2 | ⟨h1, hwidth⟩⟩
    · have hpos : 0 < (accessWidth fsr).bytes := by cases accessWidth fsr <;> decide
      exact ⟨offset % 4, ⟨by omega, by omega, by omega⟩, by omega⟩
    · refine ⟨3, ⟨by omega, by omega, ?_⟩, by omega⟩
      rw [hwidth]
      simp only [FaultWidth.bytes]
      omega

variable (hok : AccessOk addr fsr) (hlane : offset % 4 = addr.toNat % 4)

include hok hlane

lemma masked_withBehind (hraw : RawAt g offset a) (hno : ¬LoadsTail g offset (accessWidth fsr)) :
    (d.withBehind g b).load32 a &&& (dataMask addr fsr).setWidth 32 =
      d.load32 a &&& (dataMask addr fsr).setWidth 32 := by
  rcases hraw with hend | ⟨⟨hlt, hle⟩, rfl⟩
  · rw [load32_withBehind hend]
  · refine masked_load32 fun k hk => byte_withBehind ?_
    by_contra hge
    have hpos := mapWords_pos g
    exact hno ((takesByte_behind_iff hok hlane hlt hle).mp ⟨k, hk, by omega⟩)

/-- With zeros and with ones behind the map, a load from its end is answered differently. -/
lemma emulatedRead_tail (h : LoadsTail g offset (accessWidth fsr)) (x : U64) :
    emulatedRead addr fsr x (((d.withBehind g fun _ => 0).load32 (4 * g.mapWords - 4 + offset % 4) &&&
      (dataMask addr fsr).setWidth 32).setWidth 64) ≠
    emulatedRead addr fsr x (((d.withBehind g fun _ => BitVec.allOnes 32).load32 (4 * g.mapWords - 4 + offset % 4) &&&
      (dataMask addr fsr).setWidth 32).setWidth 64) := by
  have hlt : g.lastRead / 4 * 4 < offset := by
    rcases h.2 with h2 | ⟨h1, -⟩ <;> omega
  obtain ⟨k, hk, hbehind⟩ := (takesByte_behind_iff hok hlane hlt h.1).mpr h
  have hpos := mapWords_pos g
  have hbyte : ∀ b : Nat → U32, ((d.withBehind g b).load32 (4 * g.mapWords - 4 + offset % 4)).getLsbD (8 * k) =
      (byte ⟨b⟩ (4 * g.mapWords - 4 + offset % 4 + k)).getLsbD 0 := by
    intro b
    have hk4 := hk.2.1
    rw [getLsbD_load32 (by omega), Nat.mul_div_cancel_left k (by decide), Nat.mul_mod_right, byte_behind (by omega)]
  intro heq
  have hbit := congrArg (fun v => v.getLsbD (8 * k - 8 * (addr.toNat % 4))) heq
  have hones : ∀ a, (byte ⟨fun _ => BitVec.allOnes 32⟩ a).getLsbD 0 = true := by
    intro a
    have hlt : 8 * (a % 4) < 32 := by omega
    rw [byte, BitVec.getLsbD_setWidth, BitVec.getLsbD_ushiftRight, BitVec.getLsbD_allOnes, Nat.add_zero]
    exact decide_eq_true hlt
  rw [getLsbD_emulatedRead hk, getLsbD_emulatedRead hk, hbyte, hbyte, hones] at hbit
  simp [byte] at hbit

end Bytes

/-! ### Accesses -/

lemma redist_lane {addr : U64} : (addr - Board.gicRedistPaddr).toNat % 4 = addr.toNat % 4 := by
  have hbase : Board.gicRedistPaddr.toNat = 0x38880000 := rfl
  have hlt := addr.isLt
  rw [BitVec.toNat_sub, hbase]
  omega

section Accesses

variable {s t : Vmm φ} {regs : UserContext} {offset addr fsr : U64} (hstop : env.assertStops = true)

include hstop

lemma ok_of_faultGetDataMask {m : U64} (h : faultGetDataMask env addr fsr s = .ok m t) : AccessOk addr fsr := by
  have hwp : wp (faultGetDataMask env addr fsr) (fun _ _ => AccessOk addr fsr) (fun _ _ => True) s :=
    (wp_faultGetDataMask hstop).mpr ⟨id, fun _ => trivial⟩
  have hafter := wp_ok hwp h
  exact hafter

/-- A read is finished with the bits of the register that the access masks. -/
lemma finishRead_congr {reg reg' : U32}
    (h : AccessOk addr fsr → reg &&& (dataMask addr fsr).setWidth 32 = reg' &&& (dataMask addr fsr).setWidth 32) :
    finishRead env regs addr fsr reg = finishRead env regs addr fsr reg' := by
  funext s
  unfold finishRead
  refine bind_congr_right fun m t hm => ?_
  have hok := ok_of_faultGetDataMask hstop hm
  obtain ⟨rfl, rfl⟩ := eq_of_faultGetDataMask hstop hm
  rw [h hok]

lemma distWriteEffect_eq (regs : UserContext) (hok : AccessOk addr fsr) (haddr : env.board.gicDistPaddr + offset = addr)
    (hwrite : faultIsWrite fsr = true) (s : Vmm φ) :
    distWriteEffect env vcpuId offset fsr regs ((dataMask addr fsr).setWidth 32) s =
      forM (distActions env.board.gic offset.toNat addr fsr (rtValue regs fsr s.wzr)) (Action.run env) s :=
  eq_of_wp (wp_distWriteEffect hstop hok.1 haddr hok hwrite (wp_self _ _))

lemma redistWriteEffect_eq (regs : UserContext) (hok : AccessOk addr fsr) (haddr : Board.gicRedistPaddr + offset = addr)
    (hwrite : faultIsWrite fsr = true) (s : Vmm φ) :
    redistWriteEffect env vcpuId offset fsr regs ((dataMask addr fsr).setWidth 32) s =
      forM (redistActions offset.toNat addr fsr (rtValue regs fsr s.wzr)) (Action.run env) s :=
  eq_of_wp (wp_redistWriteEffect hstop hok.1 haddr hok hwrite (wp_self _ _))

variable (hE : LooksInside env)

include hE

lemma local_vgicDistRegRead (haddr : env.board.gicDistPaddr + offset = addr)
    (hlane : offset.toNat % 4 = addr.toNat % 4)
    (hno : AccessOk addr fsr → ¬LoadsTail env.board.gic offset.toNat (accessWidth fsr)) :
    Local (withBehind env) (vgicDistRegRead env vcpuId offset fsr regs) := by
  unfold vgicDistRegRead
  dsimp only
  rw [haddr]
  cases hk : distRead env.board.gic vcpuId offset.toNat with
  | unknown => exact local_get (fun _ _ => rfl) fun _ => local_bind (local_faultAdvanceVcpu hE _) fun _ => local_pure _
  | zero => exact local_get (fun _ _ => rfl) fun _ => local_finishRead hE _ _ _ _
  | word w =>
    refine local_get (fun k s => ?_) fun _ => local_finishRead hE _ _ _ _
    exact congrArg (finishRead env regs addr fsr) (word_withBehind (distRead_word_lt hk))
  | raw a =>
    refine local_get (fun k s => ?_) fun _ => local_finishRead hE _ _ _ _
    exact finishRead_congr hstop fun hok => masked_withBehind hok hlane (rawAt_distRead hk) (hno hok)

lemma local_handleVgicRedistReadFault (haddr : Board.gicRedistPaddr + offset = addr)
    (hlane : offset.toNat % 4 = addr.toNat % 4)
    (hno : AccessOk addr fsr → ¬LoadsTail .v3 offset.toNat (accessWidth fsr)) :
    Local (withBehind env) (handleVgicRedistReadFault env vcpuId offset fsr regs) := by
  unfold handleVgicRedistReadFault
  dsimp only
  rw [haddr]
  cases hk : redistRead vcpuId offset.toNat with
  | unknown => exact local_get (fun _ _ => rfl) fun _ => local_bind (local_faultAdvanceVcpu hE _) fun _ => local_pure _
  | redistWord w =>
    refine local_get (fun k s => ?_) fun _ => local_finishRead hE _ _ _ _
    exact congrArg (finishRead env regs addr fsr) (if_pos (redistRead_word_lt hk))
  | redistRaw a =>
    refine local_get (fun k s => ?_) fun _ => local_finishRead hE _ _ _ _
    -- the end of this map is the one of the GICv3 distributor
    have hmasked : ∀ r : GicRedistMap, AccessOk addr fsr →
        GicDistMap.load32 (GicDistMap.withBehind ⟨r.word⟩ .v3 k.redist) a &&& (dataMask addr fsr).setWidth 32 =
          GicDistMap.load32 ⟨r.word⟩ a &&& (dataMask addr fsr).setWidth 32 :=
      fun r hok => masked_withBehind hok hlane (rawAt_redistRead hk) (hno hok)
    exact finishRead_congr hstop (hmasked s.redist)
  | distRaw a =>
    refine local_get (fun k s => ?_) fun _ => local_finishRead hE _ _ _ _
    exact congrArg (finishRead env regs addr fsr) (load32_withBehind (redistRead_distRaw_end hk))

variable (hI : BitsInside env s)

include hI

lemma localAt_accessActions (addr fsr : U64) :
    LocalAt (withBehind env) (forM (accessActions env s addr fsr) (Action.run env)) s := by
  have hmem : ∀ a ∈ accessActions env s addr fsr, a ∈ opActions env s (.fault (.vmFault addr fsr)) := fun _ => id
  have hop : RegistersOnly (· < 1056) (.fault (.vmFault addr fsr) : Op φ) := trivial
  exact localAt_forM (I := BitsInside env) (fun a ha _ ht => localAt_action hstop hE ht (bits_opActions (hmem a ha)))
    (fun a ha => fixed_opAction hstop hop (hmem a ha)) hI

lemma localAt_vgicDistRegWrite (hr : ¬faultIsRead fsr = true) (hin : InDist env addr) :
    LocalAt (withBehind env) (vgicDistRegWrite env vcpuId (addr - env.board.gicDistPaddr) fsr s.tcb) s := by
  have haddr : env.board.gicDistPaddr + (addr - env.board.gicDistPaddr) = addr := base_add_sub _ _
  have hactions := localAt_accessActions hstop hE hI addr fsr
  rw [accessActions, if_neg hr, if_pos hin] at hactions
  unfold vgicDistRegWrite
  rw [haddr]
  refine localAt_bind (local_faultGetDataMask _ _ _) fun m t ht => ?_
  have hok := ok_of_faultGetDataMask hstop ht
  obtain ⟨rfl, rfl⟩ := eq_of_faultGetDataMask hstop ht
  have heq := distWriteEffect_eq hstop t.tcb hok haddr (faultIsWrite_of_not_read hr)
  refine localAt_bind (hactions.congr (heq t) fun k => heq _) fun _ u _ => ?_
  exact local_bind (local_faultAdvanceVcpu hE _) (fun _ => local_pure _) u

lemma localAt_handleVgicRedistWriteFault (hr : ¬faultIsRead fsr = true) (hout : ¬InDist env addr)
    (hin : InRedist env addr) :
    LocalAt (withBehind env) (handleVgicRedistWriteFault env vcpuId (addr - Board.gicRedistPaddr) fsr s.tcb) s := by
  have haddr : Board.gicRedistPaddr + (addr - Board.gicRedistPaddr) = addr := base_add_sub _ _
  have hactions := localAt_accessActions hstop hE hI addr fsr
  rw [accessActions, if_neg hr, if_neg hout, if_pos hin] at hactions
  unfold handleVgicRedistWriteFault
  rw [haddr]
  refine localAt_bind (local_faultGetDataMask _ _ _) fun m t ht => ?_
  have hok := ok_of_faultGetDataMask hstop ht
  obtain ⟨rfl, rfl⟩ := eq_of_faultGetDataMask hstop ht
  have heq := redistWriteEffect_eq hstop t.tcb hok haddr (faultIsWrite_of_not_read hr)
  refine localAt_bind (hactions.congr (heq t) fun k => heq _) fun _ u _ => ?_
  refine local_bind (local_faultAdvanceVcpu hE _) (fun _ => ?_) u
  exact local_bind (local_cAssert _) fun _ => local_pure _

lemma localAt_handleVgicDistFault (hin : InDist env addr) (hno : ¬LoadsBehind env addr fsr) :
    LocalAt (withBehind env) (handleVgicDistFault env vcpuId addr fsr s.tcb) s := by
  unfold handleVgicDistFault
  refine localAt_bind (local_cAssert _ _) fun _ t ht => ?_
  obtain rfl := eq_of_cAssert hstop ht
  refine localAt_ite (fun hr => ?_) fun hr => localAt_vgicDistRegWrite hstop hE hI hr hin
  refine local_vgicDistRegRead hstop hE (base_add_sub _ _) (lane_offset hin) (fun hok htail => hno ⟨hr, hok, ?_⟩) _
  rwa [if_pos hin]

lemma localAt_handleVgicRedistFault (hout : ¬InDist env addr) (hin : InRedist env addr)
    (hno : ¬LoadsBehind env addr fsr) : LocalAt (withBehind env) (handleVgicRedistFault env vcpuId addr fsr s.tcb) s := by
  unfold handleVgicRedistFault
  refine localAt_bind (local_cAssert _ _) fun _ t ht => ?_
  obtain rfl := eq_of_cAssert hstop ht
  refine localAt_bind (local_cAssert _ _) fun _ t ht => ?_
  obtain rfl := eq_of_cAssert hstop ht
  refine localAt_ite (fun hr => ?_) fun hr => localAt_handleVgicRedistWriteFault hstop hE hI hr hout hin
  refine local_handleVgicRedistReadFault hstop hE (base_add_sub _ _) redist_lane (fun hok htail => hno ⟨hr, hok, ?_⟩) _
  rw [if_neg hout]
  exact ⟨hin, htail⟩

lemma localAt_handleVmFault (hno : ¬LoadsBehind env addr fsr) :
    LocalAt (withBehind env) (handleVmFault env addr fsr) s := by
  unfold handleVmFault
  refine localAt_bind (local_tcbReadRegisters hE s) fun r t ht => ?_
  obtain ⟨rfl, rfl⟩ := EStateM.Result.ok.inj ht
  refine localAt_bind (local_cAssert _ _) fun _ t ht => ?_
  obtain rfl := eq_of_cAssert hstop ht
  refine localAt_ite (fun hin => localAt_handleVgicDistFault hstop hE hI hin hno) fun hout => ?_
  refine localAt_ite (fun hin => localAt_handleVgicRedistFault hstop hE hI hout hin hno) fun _ => ?_
  exact local_bind (local_cAssert _) (fun _ => local_pure _) _

lemma localAt_handleFault {f : Fault} (hno : ¬Op.LoadsBehind env (.fault f : Op φ)) :
    LocalAt (withBehind env) (handleFault env f) s := by
  cases f with
  | vmFault addr fsr => exact localAt_handleVmFault hstop hE hI hno
  | unknownSyscall syscall => exact local_handleUnknownSyscall hE syscall s
  | userException => exact local_handleUserException hE s
  | vcpuFault hsr => exact local_handleVcpuFault hE hsr s
  | vppiEvent irq => exact localAt_handleVppiEvent hstop hE hI irq
  | vgicMaintenance idx err =>
    refine localAt_bind (localAt_vgicMaintenanceBody hstop hE hI _ _) fun _ t _ => local_ite ?_ ?_ t
    · exact local_bind (local_logEvent _) fun _ => local_pure _
    · exact local_bind (local_cAssert _) fun _ => local_pure _

/-- A step that is no load from behind a map does the same whatever is there. -/
lemma localAt_step {op : Op φ} (hno : ¬op.LoadsBehind env) : LocalAt (withBehind env) (step env op) s := by
  cases op with
  | registerIrq irq fn data => exact localAt_action hstop hE hI (a := .register irq fn data) trivial
  | injectIrq irq => exact localAt_action hstop hE hI (a := .inject irq) trivial
  | notification irq => exact localAt_action hstop hE hI (a := .notification irq) trivial
  | guest regs => exact localAt_modify fun _ => rfl
  | retire idx => exact localAt_action hstop hE hI (a := .retire idx 0) trivial
  | fault f =>
    have hdeliver : Local (withBehind env) (deliver f : M φ Unit) := by
      cases f with
      | vppiEvent irq => exact local_logEvent _
      | _ => exact local_pure _
    refine localAt_bind (hdeliver s) fun _ t ht => ?_
    have hI' : BitsInside env t := by
      cases f with
      | vppiEvent irq => exact hI.logged ht
      | _ => exact (EStateM.Result.ok.inj ht).2 ▸ hI
    exact localAt_bind (localAt_handleFault hstop hE hI' hno) fun _ _ _ => local_pure _ _

end Accesses

/-! ### Loads from behind -/

section Behind

/-- What the register read into holds after the load. -/
lemma rtValue_readBack (s : Vmm φ) (regs : UserContext) (addr fsr : U64) (reg : U32) : rtValue (readBack s regs addr fsr reg).tcb fsr (readBack s regs addr fsr reg).wzr =
    emulatedRead addr fsr (rtValue regs fsr s.wzr) ((reg &&& (dataMask addr fsr).setWidth 32).setWidth 64) := by
  unfold readBack loaded rtPtr
  by_cases h : (hsrSyndromeRt fsr).toNat < 31
  · simp only [dif_pos h]
    rw [rtValue, dif_pos h]
    exact Vector.getElem_set_self h
  · simp only [dif_neg h]
    rw [rtValue, dif_neg h]
    rfl

variable {s : Vmm φ} {addr fsr : U64} {reg : U32} (h : LoadsBehind env addr fsr)

include h

/-- With the same word everywhere behind the maps, the load is answered from the end of one of them. -/
lemma accessValue_behind : ∃ (d : GicDistMap) (g : GicVersion) (offset : Nat), LoadsTail g offset (accessWidth fsr) ∧
    offset % 4 = addr.toNat % 4 ∧ ∀ x : U32, accessValue env (withBehind env ⟨fun _ => x, fun _ => x⟩ s) addr =
      some ((d.withBehind g fun _ => x).load32 (4 * g.mapWords - 4 + offset % 4)) := by
  obtain ⟨-, -, htail⟩ := h
  have hlt : ∀ {g offset}, LoadsTail g offset (accessWidth fsr) → g.lastRead / 4 * 4 < offset := by
    rintro g offset ⟨-, h2 | ⟨h1, -⟩⟩ <;> omega
  split_ifs at htail with hin
  · refine ⟨s.dist, env.board.gic, _, htail, lane_offset hin, fun x => ?_⟩
    rw [accessValue, if_pos hin, distValue, distRead_tail (hlt htail) htail.1]
    rfl
  · refine ⟨⟨s.redist.word⟩, .v3, _, htail.2, redist_lane, fun x => ?_⟩
    rw [accessValue, if_neg hin, redistValue, redistRead_tail (hlt htail.2) htail.2.1]
    rfl

lemma wp_redistFault_behind (hstop : env.assertStops = true) (htcb : TcbAccepts env) (hout : ¬InDist env addr)
    (hreg : accessValue env s addr = some reg) : wp (handleVgicRedistFault env vcpuId addr fsr s.tcb)
      (fun b t => b = true ∧ t = readBack s s.tcb addr fsr reg) (fun _ _ => False) s := by
  obtain ⟨hread, hok, htail⟩ := h
  rw [if_neg hout] at htail
  rw [accessValue, if_neg hout] at hreg
  have hle : Board.gicRedistPaddr ≤ addr := le_of_pageInRange htail.1.2
  have hlt : addr - Board.gicRedistPaddr < Board.gicRedistSize := Nat.lt_of_le_of_lt htail.2.1 (by decide)
  unfold handleVgicRedistFault
  rw [decide_eq_true hle, wp_bind, wp_cAssert_true]
  dsimp only
  rw [decide_eq_true hlt, wp_bind, wp_cAssert_true, if_pos hread]
  refine wp_handleVgicRedistReadFault hstop (fun hno => absurd htcb hno) (base_add_sub _ _) hread
    (fun hno => absurd hok hno) (fun reg' h' _ => ⟨rfl, ?_⟩) fun hnone => absurd (hreg.symm.trans hnone) (by simp)
  rw [Option.some.inj (h'.symm.trans hreg)]

lemma handleVmFault_behind (hstop : env.assertStops = true) (htcb : TcbAccepts env)
    (hreg : accessValue env s addr = some reg) :
    handleVmFault env addr fsr s = .ok true (readBack s s.tcb addr fsr reg) := by
  have hrun : wp (handleVmFault env addr fsr) (fun b t => b = true ∧ t = readBack s s.tcb addr fsr reg)
      (fun _ _ => False) s := by
    by_cases hin : InDist env addr
    · refine wp_vmFault hstop (fun hno => absurd ⟨htcb, h.2.1, hin⟩ hno)
        (fun _ => ⟨fun reg' h' _ => ⟨rfl, ?_⟩, fun hnone => absurd (hreg.symm.trans hnone) (by simp)⟩) fun hwrite => ?_
      · rw [Option.some.inj (h'.symm.trans hreg)]
      · exact absurd hwrite (by simpa [faultIsRead] using h.1)
    · have hredist := wp_redistFault_behind h hstop htcb hin hreg
      have hin' : InRedist env addr := by
        have htail := h.2.2
        rw [if_neg hin] at htail
        exact htail.1
      unfold handleVmFault tcbReadRegisters
      simp only [wp_bind, wp_get, wp_pure, htcb.readRegisters, decide_true, wp_cAssert_true, wp_ite]
      exact ⟨fun hdist => absurd hdist hin, fun _ => ⟨fun _ => hredist, fun hno => absurd hin' hno⟩⟩
  obtain ⟨b, t, hends, rfl, rfl⟩ := ok_of_wp hrun
  exact hends

/-- Such a load does not ignore what is behind the maps. -/
lemma not_localAt_behind (hstop : env.assertStops = true) (htcb : TcbAccepts env) :
    ¬LocalAt (withBehind env) (step env (.fault (.vmFault addr fsr))) s := by
  intro hlocal
  obtain ⟨d, g, offset, htail, hlane, hvalue⟩ := accessValue_behind (s := s) h
  have hseen : ∀ x : U32, ∃ t, step env (.fault (.vmFault addr fsr)) s = .ok () t ∧ rtValue t.tcb fsr t.wzr =
      emulatedRead addr fsr (rtValue s.tcb fsr s.wzr) (((d.withBehind g fun _ => x).load32
        (4 * g.mapWords - 4 + offset % 4) &&& (dataMask addr fsr).setWidth 32).setWidth 64) := by
    intro x
    have hrun := handleVmFault_behind h hstop htcb (hvalue x)
    have hstep : step env (.fault (.vmFault addr fsr)) (withBehind env ⟨fun _ => x, fun _ => x⟩ s) = .ok () _ :=
      bind_of_ok (f := fun _ => pure ()) hrun
    have hmap := hlocal ⟨fun _ => x, fun _ => x⟩
    rw [hstep] at hmap
    cases ht : step env (.fault (.vmFault addr fsr)) s with
    | error e t =>
      rw [ht] at hmap
      exact absurd hmap (by simp [mapOutcome])
    | ok _ t =>
      rw [ht] at hmap
      obtain ⟨-, heq⟩ := EStateM.Result.ok.inj hmap
      have hread := rtValue_readBack (withBehind env ⟨fun _ => x, fun _ => x⟩ s) s.tcb addr fsr
        ((d.withBehind g fun _ => x).load32 (4 * g.mapWords - 4 + offset % 4))
      exact ⟨t, rfl, (congrArg (fun u => rtValue u.tcb fsr u.wzr) heq.symm).trans hread⟩
  obtain ⟨t, ht, hzeros⟩ := hseen 0
  obtain ⟨u, hu, hones⟩ := hseen (BitVec.allOnes 32)
  obtain ⟨-, rfl⟩ := EStateM.Result.ok.inj (ht.symm.trans hu)
  exact emulatedRead_tail h.2.1 hlane htail _ (hzeros.symm.trans hones)

end Behind

/-! ### Runs -/

section Runs

variable (hstop : env.assertStops = true) (hE : LooksInside env)

include hstop hE

/-- In every run in which the interrupts registered are below 1056: a step does the same, and leaves it as it is,
whatever memory lies behind the maps, unless it is a load from the end of one of them. -/
theorem step_ignores_behind_iff (htcb : TcbAccepts env) {s : Vmm φ}
    (hs : Reachable env (fun _ op => RegistersOnly (· < 1056) op) s) (op : Op φ) :
    LocalAt (withBehind env) (step env op) s ↔ ¬op.LoadsBehind env := by
  constructor
  · intro hlocal hbehind
    cases op with
    | fault f =>
      cases f with
      | vmFault addr fsr => exact not_localAt_behind hbehind hstop htcb hlocal
      | _ => exact hbehind
    | _ => exact hbehind
  · exact localAt_step hstop hE (fixed_reachable hstop hs s.tcb).1

/-- Without such loads, a whole run ends or stops the same whatever memory lies behind the maps, and leaves it as it is. -/
theorem run_ignores_behind {l : List (Op φ)} (hl : ∀ op ∈ l, RegistersOnly (· < 1056) op ∧ ¬op.LoadsBehind env)
    (tcb : UserContext) : LocalAt (withBehind env) (forM l (step env)) (vgicInit env tcb) := by
  have hinit : Reachable env (fun _ op => RegistersOnly (· < 1056) op) (vgicInit env tcb) := .init ⟨tcb, rfl⟩
  refine localAt_run (fun op hop s hs => ?_) (fun op hop _ => (hl op hop).1) hinit
  exact localAt_step hstop hE (fixed_reachable hstop hs tcb).1 (hl op hop).2

end Runs

/-- The third byte of the last identification register of the GICv2 depends on the memory behind it, the second does
not. -/
theorem step_ignores_behind_byte :
    ¬LocalAt (withBehind (vmmEnv .qemuArmVirtHyp)) (step (vmmEnv .qemuArmVirtHyp) (.fault (.vmFault 0x8000FFE loadByte)))
        (vgicInit (vmmEnv .qemuArmVirtHyp) (.filled 0)) ∧
      LocalAt (withBehind (vmmEnv .qemuArmVirtHyp)) (step (vmmEnv .qemuArmVirtHyp) (.fault (.vmFault 0x8000FFD loadByte)))
        (vgicInit (vmmEnv .qemuArmVirtHyp) (.filled 0)) := by
  have hiff := step_ignores_behind_iff rfl (vmmEnv_looksInside .qemuArmVirtHyp) (vmmEnv_tcb .qemuArmVirtHyp)
    (.init ⟨.filled 0, rfl⟩)
  constructor
  · exact fun hlocal => (hiff _).mp hlocal ⟨by decide, accessOk_loadByte _, by decide⟩
  · refine (hiff _).mpr fun hbehind => ?_
    exact absurd hbehind.2.2 (by decide)

/-- A run of the QEMU board that ends with a load from the last identification register. -/
theorem run_ignores_behind_five : LocalAt (withBehind (vmmEnv .qemuArmVirtHyp))
    (forM (fiveOutstanding (vmmEnv .qemuArmVirtHyp) ++ [.fault (.vmFault 0x8000FFD loadByte)]) (step (vmmEnv .qemuArmVirtHyp)))
    (vgicInit (vmmEnv .qemuArmVirtHyp) (.filled 0)) := by
  refine run_ignores_behind rfl (vmmEnv_looksInside .qemuArmVirtHyp) ?_ (.filled 0)
  have hstore : ∀ addr, ¬LoadsBehind (vmmEnv .qemuArmVirtHyp) addr storeWord := fun _ h => absurd h.1 (by decide)
  have hload : ¬LoadsBehind (vmmEnv .qemuArmVirtHyp) 0x8000FFD loadByte := fun h => absurd h.2.2 (by decide)
  simpa [fiveOutstanding, guestStore, RegistersOnly, Op.LoadsBehind, hstore] using hload

end Sel4cpVmm
