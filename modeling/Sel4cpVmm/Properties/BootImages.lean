import Sel4cpVmm.Lib.AddressRange
import Sel4cpVmm.Model.Boot
import Sel4cpVmm.Proofs.View

/-!
# The guest's images

`init` copies the kernel image, the device tree and the RAM disk one after the other. They arrive intact exactly
when no image is so large that it reaches the next one, and guest memory is all that is written exactly when the
last one fits.
-/

namespace Sel4cpVmm

open StopProgram AddressRange

variable {env : Env VmmAckFn} {imgs : GuestImages} {ram initrd : U64} {m : Machine}

lemma memcpy_eq (dest src : U64) (n : Nat) (mem : AddressSpace) : memcpy dest src n mem = copyUp dest src n mem := by
  induction n generalizing dest src mem with
  | zero => rfl
  | succ n ih => rw [memcpy, copyUp, ih]

/-- The copies `init` makes, in order. -/
def bootCopies (env : Env VmmAckFn) (imgs : GuestImages) (ram initrd : U64) : List (Copy 64) :=
  [⟨ram + 0x80000, imgs.guestKernelImage, (imgs.guestKernelImageEnd - imgs.guestKernelImage).toNat⟩,
   ⟨env.board.guestDtbVaddr, imgs.guestDtbImage, (imgs.guestDtbImageEnd - imgs.guestDtbImage).toNat⟩,
   ⟨initrd, imgs.guestInitrdImage, (imgs.guestInitrdImageEnd - imgs.guestInitrdImage).toNat⟩]

lemma size_bootCopies : ∀ c ∈ bootCopies env imgs ram initrd, c.size ≤ 2 ^ 64 := by
  simp only [bootCopies, List.forall_mem_cons, List.not_mem_nil, false_implies, implies_true, and_true]
  exact ⟨(BitVec.isLt _).le, (BitVec.isLt _).le, (BitVec.isLt _).le⟩

@[simp] lemma wp_onVmm {α : Type} (x : M VmmAckFn α) (Q : α → Machine → Prop) (E : Stop → Machine → Prop) :
    wp (onVmm x) Q E m ↔
      wp x (fun a s => Q a { m with vmm := s }) (fun e s => E e { m with vmm := s }) m.vmm := by
  unfold wp onVmm
  cases x m.vmm <;> rfl

/-! ### The memory after the boot -/

abbrev MemKept (m m' : Machine) : Prop := m'.mem = m.mem

instance : Std.Refl MemKept := ⟨fun _ => rfl⟩

instance : IsTrans Machine MemKept := ⟨fun _ _ _ h h' => h'.trans h⟩

lemma memKept_onVmm {α : Type} (x : M VmmAckFn α) : Always MemKept (onVmm x) := by
  intro m
  rw [wp_onVmm, wp]
  cases x m.vmm <;> rfl

lemma memKept_startGuest : Always MemKept (startGuest env ram) := by
  have hrest : Always MemKept (do
      let _ ← onVmm (vgicRegisterIrq env vcpuId env.board.serialIrq (some .serialAck) null)
      onVmm (logEvent (.irqAck serialIrqCh))
      let regs := entryRegisters env ram
      let err ← onVmm (tcbWriteRegisters env false regs)
      onVmm (cAssert env (decide (err = 0)))
      vmRestart regs.pc) := by
    refine within_bind (memKept_onVmm _) fun _ => within_bind (memKept_onVmm _) fun _ => ?_
    refine within_bind (memKept_onVmm _) fun _ => within_bind (memKept_onVmm _) fun _ => ?_
    exact within_modify fun _ => rfl
  refine within_bind (within_modify fun _ => rfl) fun _ => within_bind (memKept_onVmm _) fun _ => ?_
  refine within_ite (within_bind (memKept_onVmm _) fun _ => ?_) (within_pure _)
  refine within_ite (within_bind (memKept_onVmm _) fun _ => ?_) (within_pure _)
  exact within_ite hrest (within_pure _)

lemma init_eq : init env imgs ram initrd m =
    startGuest env ram { m with mem := Copy.all (bootCopies env imgs ram initrd) m.mem } := by
  simp only [Copy.all, bootCopies, List.foldl_cons, List.foldl_nil, ← memcpy_eq]
  rfl

lemma mem_init : (outcome (init env imgs ram initrd) m).mem = Copy.all (bootCopies env imgs ram initrd) m.mem := by
  have houtcome : outcome (init env imgs ram initrd) m =
      outcome (startGuest env ram) { m with mem := Copy.all (bootCopies env imgs ram initrd) m.mem } := by
    rw [outcome, outcome, init_eq]
  rw [houtcome]
  exact memKept_startGuest.outcome _

/-! ### Intact images -/

/-- The images lie apart from one another in the VMM and from where they are copied to. -/
structure ImagesApart (l : List (Copy 64)) : Prop where
  sources : l.Pairwise fun c c' => Apart c.source c'.source
  targets : ∀ c ∈ l, ∀ c' ∈ l, Apart c.source c'.target

/-- On every board, whatever the images hold, they are intact after `init` exactly when no two of them are copied
to the same place, and `init` writes nothing else. -/
theorem images_intact_iff (hapart : ImagesApart (bootCopies env imgs ram initrd)) :
    ((∀ m : Machine, ∀ c ∈ bootCopies env imgs ram initrd, c.Done m.mem (outcome (init env imgs ram initrd) m).mem) ↔
      (bootCopies env imgs ram initrd).Pairwise fun c c' => Apart c.target c'.target) ∧
    ∀ (m : Machine) a, (∀ c ∈ bootCopies env imgs ram initrd, a ∉ c.target) →
      (outcome (init env imgs ram initrd) m).mem a = m.mem a := by
  have : Nontrivial (BitVec 8) := ⟨0, 1, by decide⟩
  have hiff := Copy.all_done_iff (α := BitVec 8) size_bootCopies hapart.sources hapart.targets
  constructor
  · rw [← hiff]
    constructor
    · intro h mem c hc
      have hm := h ⟨vgicInit env (.filled 0), mem, []⟩ c hc
      rwa [mem_init] at hm
    · intro h m c hc
      rw [mem_init]
      exact h m.mem c hc
  · intro m a ha
    rw [mem_init]
    exact Copy.all_of_not_mem size_bootCopies ha

/-! ### The images of `qemu_arm_virt_hyp` -/

/-- The guest's memory in `simple.system` of `qemu_arm_virt_hyp`. -/
def qemuGuestRam : AddressRange 64 := ⟨0x40000000, 0x10000000⟩

section Qemu

/-- The copies made in this memory. -/
def qemuCopies (env : Env VmmAckFn) (imgs : GuestImages) : List (Copy 64) :=
  bootCopies env imgs qemuGuestRam.base Board.guestInitRamDiskVaddr

/-- The images are intact and nothing outside of the guest's memory is written. -/
def PlacedInRam (env : Env VmmAckFn) (imgs : GuestImages) (m m' : Machine) : Prop :=
  (∀ c ∈ qemuCopies env imgs, c.Done m.mem m'.mem) ∧ ∀ a ∉ qemuGuestRam, m'.mem a = m.mem a

variable (hboard : env.board = .qemuArmVirtHyp)
include hboard

lemma qemuCopies_eq : qemuCopies env imgs =
    [⟨0x40080000, imgs.guestKernelImage, (imgs.guestKernelImageEnd - imgs.guestKernelImage).toNat⟩,
     ⟨0x4f000000, imgs.guestDtbImage, (imgs.guestDtbImageEnd - imgs.guestDtbImage).toNat⟩,
     ⟨0x4d700000, imgs.guestInitrdImage, (imgs.guestInitrdImageEnd - imgs.guestInitrdImage).toNat⟩] := by
  rw [qemuCopies, bootCopies, hboard]
  rfl

lemma pairwise_qemuCopies (hpos : ∀ c ∈ qemuCopies env imgs, 0 < c.size)
    (hdtb : (imgs.guestDtbImageEnd - imgs.guestDtbImage).toNat ≤ 2 ^ 32) :
    ((qemuCopies env imgs).Pairwise fun c c' => Apart c.target c'.target) ↔
      (imgs.guestKernelImageEnd - imgs.guestKernelImage).toNat ≤ 0xd680000 ∧
        (imgs.guestInitrdImageEnd - imgs.guestInitrdImage).toNat ≤ 0x1900000 := by
  rw [qemuCopies_eq hboard] at hpos ⊢
  simp only [List.forall_mem_cons, List.not_mem_nil, false_implies, implies_true, and_true] at hpos
  simp only [List.pairwise_cons, List.forall_mem_cons, List.not_mem_nil, false_implies, implies_true, and_true,
    List.Pairwise.nil, apart_iff, Copy.target, offset, BitVec.reduceSub, BitVec.reduceToNat]
  omega

/-- The byte behind the guest's memory is not left alone by a longer device tree. -/
lemma not_placedInRam (hapart : ImagesApart (qemuCopies env imgs))
    (hlong : 0x1000000 < (imgs.guestDtbImageEnd - imgs.guestDtbImage).toNat) :
    ¬∀ m : Machine, PlacedInRam env imgs m
      (outcome (init env imgs qemuGuestRam.base Board.guestInitRamDiskVaddr) m) := by
  intro h
  obtain ⟨c, hc, hdst, hsize⟩ : ∃ c ∈ qemuCopies env imgs, c.dst = 0x4f000000 ∧
      c.size = (imgs.guestDtbImageEnd - imgs.guestDtbImage).toNat := by simp [qemuCopies_eq hboard]
  obtain ⟨a, hoff, hout⟩ : ∃ a : U64, offset c.dst a = 0x1000000 ∧ a ∉ qemuGuestRam :=
    ⟨0x50000000, by simp [hdst, offset], by simp [mem_iff, offset, qemuGuestRam]⟩
  have ha : a ∈ c.target := by
    change offset c.dst a < c.size
    omega
  have hs := Copy.source_mem (size_bootCopies c hc) ha
  have hne : a ≠ c.src + BitVec.ofNat 64 (offset c.dst a) := by
    intro he
    rw [← he] at hs
    exact hapart.targets c hc c hc a hs ha
  let mem : AddressSpace := Function.update (fun _ => 0) (c.src + BitVec.ofNat 64 (offset c.dst a)) 1
  obtain ⟨hdone, hframe⟩ := h ⟨vgicInit env (.filled 0), mem, []⟩
  have h1 := (hdone c hc a ha).symm.trans (hframe a hout)
  simp only [mem, Function.update_self, Function.update_of_ne hne] at h1
  exact absurd h1 (by decide)

/-- On `qemu_arm_virt_hyp`, whatever the images hold, `init` places them intact and inside the guest's memory exactly
when the kernel ends below the RAM disk, the RAM disk below the device tree, and the device tree where the memory
does. -/
theorem images_fit_iff (hapart : ImagesApart (qemuCopies env imgs)) (hpos : ∀ c ∈ qemuCopies env imgs, 0 < c.size) :
    (∀ m : Machine, PlacedInRam env imgs m
      (outcome (init env imgs qemuGuestRam.base Board.guestInitRamDiskVaddr) m)) ↔
    (imgs.guestKernelImageEnd - imgs.guestKernelImage).toNat ≤ 0xd680000 ∧
      (imgs.guestInitrdImageEnd - imgs.guestInitrdImage).toNat ≤ 0x1900000 ∧
      (imgs.guestDtbImageEnd - imgs.guestDtbImage).toNat ≤ 0x1000000 := by
  obtain ⟨hintact, hframe⟩ := images_intact_iff hapart
  constructor
  · intro h
    have hd : (imgs.guestDtbImageEnd - imgs.guestDtbImage).toNat ≤ 0x1000000 := by
      by_contra hlong
      exact not_placedInRam hboard hapart (by omega) h
    have hpair := hintact.mp fun m => (h m).1
    obtain ⟨hk, hr⟩ := (pairwise_qemuCopies hboard hpos (by omega)).mp hpair
    exact ⟨hk, hr, hd⟩
  · rintro ⟨hk, hr, hd⟩ m
    have hpair := (pairwise_qemuCopies hboard hpos (by omega)).mpr ⟨hk, hr⟩
    refine ⟨hintact.mpr hpair m, fun a ha => hframe m a fun c hc hmem => ha ?_⟩
    change c ∈ qemuCopies env imgs at hc
    rw [qemuCopies_eq hboard] at hc
    have hram : qemuGuestRam.size ≤ 2 ^ 64 := by simp only [qemuGuestRam]; omega
    have hlast : offset qemuGuestRam.base c.target.base + c.target.size ≤ qemuGuestRam.size := by
      simp only [List.mem_cons, List.not_mem_nil, or_false] at hc
      rcases hc with rfl | rfl | rfl <;>
        simp only [Copy.target, qemuGuestRam, offset, BitVec.reduceSub, BitVec.reduceToNat] <;> omega
    exact mem_of_within hlast hram hmem

end Qemu

/-- Images of 16 MiB, 8 KiB and 6 MiB. -/
def smallImages : GuestImages := ⟨0x200000, 0x1200000, 0x1200000, 0x1202000, 0x1300000, 0x1900000⟩

/-- Empty memory, and a guest that has not been started. -/
def blankMachine (board : Board) : Machine := ⟨vgicInit (vmmEnv board) (.filled 0), fun _ => 0, []⟩

theorem images_fit_iff_small : PlacedInRam (vmmEnv .qemuArmVirtHyp) smallImages (blankMachine .qemuArmVirtHyp)
    (outcome (init (vmmEnv .qemuArmVirtHyp) smallImages qemuGuestRam.base Board.guestInitRamDiskVaddr)
      (blankMachine .qemuArmVirtHyp)) := by
  have hcopies : qemuCopies (vmmEnv .qemuArmVirtHyp) smallImages = [⟨0x40080000, 0x200000, 0x1000000⟩,
      ⟨0x4f000000, 0x1200000, 0x2000⟩, ⟨0x4d700000, 0x1300000, 0x600000⟩] := by
    rw [qemuCopies_eq rfl]
    simp [smallImages]
  have hapart : ImagesApart (qemuCopies (vmmEnv .qemuArmVirtHyp) smallImages) := by
    rw [hcopies]
    constructor <;> simp [apart_iff, Copy.source, Copy.target, offset]
  refine (images_fit_iff rfl hapart (by simp [hcopies])).mpr ?_ _
  simp [smallImages]

end Sel4cpVmm
