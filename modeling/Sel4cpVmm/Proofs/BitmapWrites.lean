import Sel4cpVmm.Proofs.EnableWrites

/-!
# Word accesses of the bitmap registers

The registers through which the guest sets and clears enable and pending bits, at which offsets they are and
which operations a word written to one of them is decoded to.
-/

namespace Sel4cpVmm

open StopProgram

variable {φ : Type} {env : Env φ}

/-- The four registers that show a bitmap. -/
inductive BitmapRegister
  | isenabler
  | icenabler
  | ispendr
  | icpendr
  deriving DecidableEq

namespace BitmapRegister

def offset (r : BitmapRegister) (n : Nat) : Nat :=
  match r with
  | isenabler => gicDistIsenabler0 + 4 * n
  | icenabler => gicDistIcenabler0 + 4 * n
  | ispendr => gicDistIspendr0 + 4 * n
  | icpendr => gicDistIcpendr0 + 4 * n

def addr (r : BitmapRegister) (env : Env φ) (n : Nat) : U64 := env.board.gicDistPaddr + BitVec.ofNat 64 (r.offset n)

/-- What a write of a one does to the interrupt of its bit. -/
def op : BitmapRegister → Int → Action φ
  | isenabler => .enable
  | icenabler => .disable
  | ispendr => .inject
  | icpendr => .clrPending

end BitmapRegister

/-! ### Offsets -/

section Offsets

variable {r : BitmapRegister} {n : Nat} (hn : n < 32)

include hn

lemma BitmapRegister.offset_lt : r.offset n < 0x1000 ∧ r.offset n % 4 = 0 := by
  cases r <;> simp only [offset, gicDistIsenabler0, gicDistIcenabler0, gicDistIspendr0, gicDistIcpendr0] <;> omega

lemma offset_sub {p : U64} : (p + BitVec.ofNat 64 (r.offset n) - p).toNat = r.offset n :=
  sub_firstPage (r.offset_lt hn).1 p

lemma offset_aligned (g : Board) : (g.gicDistPaddr + BitVec.ofNat 64 (r.offset n)) &&& 0x3 = 0 :=
  aligned_firstPage (r.offset_lt hn).1 g (r.offset_lt hn).2

end Offsets

/-! ### Writes -/

lemma registerIrqs_eq (base n : Nat) (x : U32) :
    ((WordBits.bits x).map fun k => ((k + (base + 4 * n - base) * 8 : Nat) : Int)) = registerIrqs n x := by
  refine List.map_congr_left fun k _ => ?_
  rw [Nat.add_sub_cancel_left]
  congr 1
  omega

lemma registerIrqs_irqBit {irq : Int} (hirq : 0 ≤ irq) : registerIrqs (irq / 32).toNat (irqBit irq) = [irq] := by
  rw [registerIrqs, irqBit, WordBits.bits_one_shl (irqBit_lt irq), List.map_singleton]
  congr 1
  omega

lemma storedWord_filled (s : Vmm φ) (x : U32) : storedWord s storeWord (.filled (x.setWidth 64)) = x := by
  have hrt : (hsrSyndromeRt storeWord).toNat = 0 := by decide
  have hx : rtValue (.filled (x.setWidth 64)) storeWord s.wzr = x.setWidth 64 := by
    rw [rtValue, dif_pos (by rw [hrt]; decide)]
    exact Vector.getElem_replicate _
  rw [storedWord, hx, BitVec.setWidth_setWidth_of_le _ (by decide), BitVec.setWidth_eq]

lemma distWrite_offset (g : GicVersion) (r : BitmapRegister) {n : Nat} (hn : n < 32) :
    distWrite g vcpuId (r.offset n) = match r with
      | .isenabler => .isenabler
      | .icenabler => .icenabler
      | .ispendr => .ispendr
      | .icpendr => .icpendr := by
  have hall : ∀ n : Fin 32, distWrite g vcpuId (r.offset n) = match r with
      | .isenabler => .isenabler
      | .icenabler => .icenabler
      | .ispendr => .ispendr
      | .icpendr => .icpendr := by
    cases r <;> cases g <;> decide +kernel
  exact hall ⟨n, hn⟩

section Writes

variable {r : BitmapRegister} {n : Nat} (hn : n < 32) {fsr : U64} (hword : IsWordAccess fsr)

include hn hword

/-- A word written to a bitmap register is decoded bit by bit. -/
lemma distActions_offset {addr : U64} (haddr : addr &&& 0x3 = 0) (g : GicVersion) (val : U64) :
    (distActions g (r.offset n) addr fsr val : List (Action φ)) = (registerIrqs n (val.setWidth 32)).map r.op := by
  have hirqs := registerIrqs_eq
  unfold distActions writeIrqs
  rw [distWrite_offset g r hn, hword.dataMask haddr]
  cases r <;> dsimp only [DistWrite.writeOneBase] <;> rw [setWidth_and_word] <;> exact congrArg _ (hirqs _ n _)

variable (hstop : env.assertStops = true) (hwrite : faultIsWrite fsr = true) {s : Vmm φ}

include hstop hwrite

lemma wp_bitmapWrite {Q : Bool → Vmm φ → Prop} {E : Stop → Vmm φ → Prop}
    (hE : ¬TcbAccepts env → ∀ t, Frame s t → E .assertFailed t)
    (hops : wp (forM ((registerIrqs n (storedWord s fsr s.tcb)).map r.op) (Action.run env))
      (fun _ t => Q true (resumed t s.tcb) ∧ (¬TcbAccepts env → ∀ u, Frame t u → E .assertFailed u)) E s) :
    wp (handleVmFault env (r.addr env n) fsr) Q E s := by
  have hread : ¬faultIsRead fsr = true := by simp [faultIsRead, hwrite]
  have haligned := offset_aligned (r := r) hn env.board
  have hin : InDist env (r.addr env n) := inDist_of_lt (r.offset_lt hn).1
  refine wp_vmFault hstop (fun h => hE fun htcb => h ⟨htcb, hword.ok haligned, hin⟩) (fun hr => absurd hr hread) fun _ => ?_
  rw [accessActions, if_neg hread, if_pos hin, BitmapRegister.addr, offset_sub hn, distActions_offset hn hword haligned]
  exact hops

end Writes

end Sel4cpVmm
