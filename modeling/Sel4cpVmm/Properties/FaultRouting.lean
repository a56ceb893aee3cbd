import Sel4cpVmm.Proofs.Access

/-!
# Which device a fault is passed to

`handle_vm_fault` compares the page of the address with the first and with the last address past a device, so
the page behind a device is taken for one of it.
-/

namespace Sel4cpVmm

open StopProgram

variable {φ : Type} {env : Env φ}

/-! ### The switch -/

inductive VmFaultHandler
  | dist
  | redist
  | unexpected
  deriving DecidableEq

/-- The `switch` of `handle_vm_fault`. -/
def vmFaultHandler (board : Board) (addr : U64) : VmFaultHandler :=
  let page := addr &&& ~~~(0x1000 - 1)
  if pageInRange page board.gicDistPaddr (board.gicDistPaddr + board.gicDistSize) then .dist
  else if board.gic = .v3 ∧ pageInRange page Board.gicRedistPaddr (Board.gicRedistPaddr + Board.gicRedistSize) then .redist
  else .unexpected

/-- What `handle_vm_fault` does once it has read the guest's registers. -/
def VmFaultHandler.run (env : Env φ) (addr fsr : U64) (regs : UserContext) : VmFaultHandler → M φ Bool
  | .dist => handleVgicDistFault env vcpuId addr fsr regs
  | .redist => handleVgicRedistFault env vcpuId addr fsr regs
  | .unexpected => do
    cAssert env false
    return false

/-- `handle_vm_fault` passes the access to handler `h`. -/
def PassesTo (env : Env φ) (addr : U64) (h : VmFaultHandler) : Prop :=
  ∀ fsr, handleVmFault env addr fsr = do
    let (err, regs) ← tcbReadRegisters env
    cAssert env (decide (err = 0))
    h.run env addr fsr regs

lemma passesTo_vmFaultHandler (addr : U64) : PassesTo env addr (vmFaultHandler env.board addr) := by
  intro fsr
  unfold handleVmFault vmFaultHandler
  refine bind_congr fun p => bind_congr fun _ => ?_
  dsimp only
  split_ifs <;> rfl

/-! ### Devices -/

def OfDist (board : Board) (addr : U64) : Prop :=
  board.gicDistPaddr.toNat ≤ addr.toNat ∧ addr.toNat < board.gicDistPaddr.toNat + board.gicDistSize.toNat

def OfRedist (addr : U64) : Prop :=
  Board.gicRedistPaddr.toNat ≤ addr.toNat ∧ addr.toNat < Board.gicRedistPaddr.toNat + Board.gicRedistSize.toNat

def VmFaultHandler.InRange (board : Board) (addr : U64) : VmFaultHandler → Prop
  | .dist => board.gicDistPaddr ≤ addr
  | .redist => Board.gicRedistPaddr ≤ addr ∧ addr - Board.gicRedistPaddr < Board.gicRedistSize
  | .unexpected => True

/-- The address is routed to exactly the device it belongs to, whose range assertions hold. -/
structure RoutedExactly (board : Board) (addr : U64) : Prop where
  dist : vmFaultHandler board addr = .dist ↔ OfDist board addr
  redist : board.gic = .v3 → (vmFaultHandler board addr = .redist ↔ OfRedist addr)
  inRange : (vmFaultHandler board addr).InRange board addr

/-- The page of the address begins where a device ends. -/
def OnPageBehind (board : Board) (addr : U64) : Prop :=
  addr &&& ~~~(0x1000 - 1) = board.gicDistPaddr + board.gicDistSize ∨
    board.gic = .v3 ∧ addr &&& ~~~(0x1000 - 1) = Board.gicRedistPaddr + Board.gicRedistSize

/-! ### The ranges of the switch -/

/-- A page lies between two page boundaries, the upper one included, when the address does not lie behind the page
that begins there. -/
lemma pageInRange_iff {addr a b : U64} (ha : a.toNat % 0x1000 = 0) (hb : b.toNat % 0x1000 = 0) :
    pageInRange (addr &&& ~~~(0x1000 - 1)) a b = true ↔ a.toNat ≤ addr.toNat ∧ addr.toNat < b.toNat + 0x1000 := by
  rw [pageInRange, Bool.and_eq_true, decide_eq_true_eq, decide_eq_true_eq, BitVec.le_def, BitVec.le_def, toNat_page]
  omega

lemma onPage_iff {addr a : U64} (ha : a.toNat % 0x1000 = 0) :
    addr &&& ~~~(0x1000 - 1) = a ↔ a.toNat ≤ addr.toNat ∧ addr.toNat < a.toNat + 0x1000 := by
  rw [← BitVec.toNat_inj, toNat_page]
  omega

section Routes

variable {board : Board} {addr : U64}

lemma dist_pages (board : Board) : board.gicDistPaddr.toNat % 0x1000 = 0 ∧
    (board.gicDistPaddr + board.gicDistSize).toNat % 0x1000 = 0 ∧
    (board.gicDistPaddr + board.gicDistSize).toNat = board.gicDistPaddr.toNat + board.gicDistSize.toNat := by
  cases board <;> decide

lemma redist_pages : Board.gicRedistPaddr.toNat % 0x1000 = 0 ∧
    (Board.gicRedistPaddr + Board.gicRedistSize).toNat % 0x1000 = 0 ∧
    (Board.gicRedistPaddr + Board.gicRedistSize).toNat = Board.gicRedistPaddr.toNat + Board.gicRedistSize.toNat := by
  decide

lemma dist_below_redist (h : board.gic = .v3) :
    board.gicDistPaddr.toNat + board.gicDistSize.toNat + 0x1000 ≤ Board.gicRedistPaddr.toNat := by
  cases board <;> first | exact absurd h (by decide) | decide

/-- The distributor's range is a page too long. -/
lemma routed_dist_iff : vmFaultHandler board addr = .dist ↔ board.gicDistPaddr.toNat ≤ addr.toNat ∧
    addr.toNat < board.gicDistPaddr.toNat + board.gicDistSize.toNat + 0x1000 := by
  obtain ⟨hlow, hhigh, hsum⟩ := dist_pages board
  rw [← hsum, ← pageInRange_iff hlow hhigh]
  unfold vmFaultHandler
  dsimp only
  split_ifs with hdist hredist
  · exact iff_of_true rfl hdist
  · exact iff_of_false (by decide) hdist
  · exact iff_of_false (by decide) hdist

/-- So is the redistributor's. -/
lemma routed_redist_iff (h : board.gic = .v3) : vmFaultHandler board addr = .redist ↔
    Board.gicRedistPaddr.toNat ≤ addr.toNat ∧
      addr.toNat < Board.gicRedistPaddr.toNat + Board.gicRedistSize.toNat + 0x1000 := by
  obtain ⟨hlow, hhigh, hsum⟩ := redist_pages
  have hnot : vmFaultHandler board addr = .dist → ¬pageInRange (addr &&& ~~~(0x1000 - 1)) Board.gicRedistPaddr
      (Board.gicRedistPaddr + Board.gicRedistSize) = true := by
    rw [routed_dist_iff, pageInRange_iff hlow hhigh]
    have hbelow := dist_below_redist h
    omega
  rw [← hsum, ← pageInRange_iff hlow hhigh]
  unfold vmFaultHandler at hnot ⊢
  dsimp only at hnot ⊢
  split_ifs at hnot ⊢ with hdist hredist
  · exact iff_of_false (by decide) (hnot rfl)
  · exact iff_of_true rfl hredist.2
  · exact iff_of_false (by decide) fun hin => hredist ⟨h, hin⟩

lemma onPageBehind_iff : OnPageBehind board addr ↔
    (board.gicDistPaddr.toNat + board.gicDistSize.toNat ≤ addr.toNat ∧
      addr.toNat < board.gicDistPaddr.toNat + board.gicDistSize.toNat + 0x1000) ∨
    (board.gic = .v3 ∧ Board.gicRedistPaddr.toNat + Board.gicRedistSize.toNat ≤ addr.toNat ∧
      addr.toNat < Board.gicRedistPaddr.toNat + Board.gicRedistSize.toNat + 0x1000) := by
  obtain ⟨-, hdist, hsum⟩ := dist_pages board
  obtain ⟨-, hredist, hsum'⟩ := redist_pages
  rw [OnPageBehind, onPage_iff hdist, onPage_iff hredist, hsum, hsum']

/-- The assertions of the handlers hold of what is not on a page behind. -/
lemma inRange_of_not_behind (h : ¬OnPageBehind board addr) : (vmFaultHandler board addr).InRange board addr := by
  rw [onPageBehind_iff] at h
  cases hroute : vmFaultHandler board addr with
  | dist =>
    have hin := routed_dist_iff.mp hroute
    exact BitVec.le_def.mpr hin.1
  | redist =>
    have hv3 : board.gic = .v3 := by
      unfold vmFaultHandler at hroute
      dsimp only at hroute
      split_ifs at hroute with hdist hredist
      exact hredist.1
    have hin := (routed_redist_iff hv3).mp hroute
    have hle : Board.gicRedistPaddr ≤ addr := BitVec.le_def.mpr hin.1
    refine ⟨hle, ?_⟩
    rw [BitVec.lt_def, BitVec.toNat_sub_of_le hle]
    simp only [hv3, true_and] at h
    omega
  | unexpected => trivial

end Routes

/-- Every address is passed to exactly the device it belongs to, except those on the page behind a device. -/
theorem routedExactly_iff (env : Env φ) (addr : U64) : PassesTo env addr (vmFaultHandler env.board addr) ∧
    (RoutedExactly env.board addr ↔ ¬OnPageBehind env.board addr) := by
  refine ⟨passesTo_vmFaultHandler addr, ?_⟩
  constructor
  · rintro ⟨hdist, hredist, -⟩ hbehind
    rcases onPageBehind_iff.mp hbehind with hin | ⟨hv3, hin⟩
    · have hof := (hdist.mp (routed_dist_iff.mpr (by omega))).2
      omega
    · have hof := ((hredist hv3).mp ((routed_redist_iff hv3).mpr (by omega))).2
      omega
  · intro h
    have hranges := h
    rw [onPageBehind_iff, not_or] at hranges
    refine ⟨?_, fun hv3 => ?_, inRange_of_not_behind h⟩
    · rw [routed_dist_iff, OfDist]
      omega
    · simp only [hv3, true_and] at hranges
      rw [routed_redist_iff hv3, OfRedist]
      omega

/-- On the board with GICv3 the guest can stop the VMM: a store to the page behind the redistributor fails the range
assertion of `handle_vgic_redist_fault`. -/
theorem page_behind_redist_stops : ¬RoutedExactly .imx8mmEvk 0x38940000 ∧
    vmFaultHandler .imx8mmEvk 0x38940000 = .redist ∧ ¬VmFaultHandler.redist.InRange .imx8mmEvk 0x38940000 ∧
    handleFault (vmmEnv .imx8mmEvk) (.vmFault 0x38940000 storeWord) (vgicInit (vmmEnv .imx8mmEvk) (.filled 0)) =
      .error .assertFailed (vgicInit (vmmEnv .imx8mmEvk) (.filled 0)) := by
  have hroute : vmFaultHandler .imx8mmEvk 0x38940000 = .redist := by decide
  refine ⟨fun h => ?_, hroute, ?_, rfl⟩
  · have hin := h.inRange
    rw [hroute] at hin
    exact absurd hin.2 (by decide)
  · exact fun hin => absurd hin.2 (by decide)

end Sel4cpVmm
