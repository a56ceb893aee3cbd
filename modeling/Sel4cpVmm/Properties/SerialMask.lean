import Sel4cpVmm.Properties.BootedRuns

/-!
# The serial interrupt of `imx8mm_evk`

The kernel masks the serial interrupt when it notifies the VMM of it, until the VMM acknowledges it on its channel.
`init` does so once and `serial_ack` later, but on `imx8mm_evk` its body is empty: there the guest gets at most one
serial interrupt.
-/

namespace Sel4cpVmm

open StopProgram

def Event.isSerial (board : Board) : Event VmmAckFn → Bool
  | .notification irq => decide (irq = board.serialIrq)
  | _ => false

def Event.isSerialAck : Event VmmAckFn → Bool
  | .irqAck ch => decide (ch = serialIrqCh)
  | _ => false

/-- The mask bit the kernel keeps for the serial interrupt. -/
def serialMasked (board : Board) (log : List (Event VmmAckFn)) : Bool :=
  Latch.value (Event.isSerial board) Event.isSerialAck log

def serialCount (board : Board) (log : List (Event VmmAckFn)) : Nat := log.countP (Event.isSerial board)

/-- The kernel notifies the VMM of the serial interrupt only, and not while it has masked it. -/
def NotifiesSerial (board : Board) (s : Vmm VmmAckFn) : Op VmmAckFn → Prop
  | .notification irq => irq = board.serialIrq ∧ serialMasked board s.log = false
  | _ => True

instance (board : Board) (s : Vmm VmmAckFn) (op : Op VmmAckFn) : Decidable (NotifiesSerial board s op) :=
  match op with
  | .notification _ => inferInstanceAs (Decidable (_ ∧ _))
  | .registerIrq _ _ _ | .injectIrq _ | .guest _ | .fault _ | .retire _ => .isTrue trivial

/-! ### Events of the operations -/

/-- The event neither masks nor unmasks the serial interrupt. -/
def Event.IsSerialQuiet (board : Board) (e : Event VmmAckFn) : Prop := e.isSerial board = false ∧ e.isSerialAck = false

/-- From `s` to `t` only such events occur. -/
def SerialQuiet (board : Board) (s t : Vmm VmmAckFn) : Prop :=
  ∃ l, t.log = s.log ++ l ∧ ∀ e ∈ l, e.IsSerialQuiet board

section Quiet

variable {board : Board} {s t u : Vmm VmmAckFn} {e : Event VmmAckFn}

lemma SerialQuiet.refl (s : Vmm VmmAckFn) : SerialQuiet board s s := ⟨[], by simp, by simp⟩

lemma SerialQuiet.of_log (h : t.log = s.log) : SerialQuiet board s t := ⟨[], by simp [h], by simp⟩

lemma SerialQuiet.trans (h : SerialQuiet board s t) (h' : SerialQuiet board t u) : SerialQuiet board s u := by
  obtain ⟨l, hl, hq⟩ := h
  obtain ⟨l', hl', hq'⟩ := h'
  refine ⟨l ++ l', by rw [hl', hl, List.append_assoc], fun e he => ?_⟩
  rcases List.mem_append.mp he with he | he
  · exact hq e he
  · exact hq' e he

lemma SerialQuiet.count (h : SerialQuiet board s t) : serialCount board t.log = serialCount board s.log := by
  obtain ⟨l, hl, hq⟩ := h
  have hnone : l.countP (Event.isSerial board) = 0 := List.countP_eq_zero.mpr fun e he => by simp [(hq e he).1]
  rw [serialCount, hl, List.countP_append, hnone, Nat.add_zero, serialCount]

lemma SerialQuiet.masked (h : SerialQuiet board s t) : serialMasked board t.log = serialMasked board s.log := by
  obtain ⟨l, hl, hq⟩ := h
  rw [serialMasked, hl, Latch.value_append_quiet hq, serialMasked]

lemma Frame.serialQuiet (h : Frame s t) : SerialQuiet board s t := by
  obtain ⟨l, hl, hret⟩ := h.log
  refine ⟨l, hl, fun e he => ?_⟩
  have := hret e he
  cases e <;> simp_all [Event.isReturn, Event.IsSerialQuiet, Event.isSerial, Event.isSerialAck]

/-- The callbacks of `imx8mm_evk` make no call on a channel. -/
lemma serialQuiet_ackEvents (s : Vmm VmmAckFn) (h : VirqHandle VmmAckFn) :
    ∀ e ∈ ackEvents (vmmEnv .imx8mmEvk) s h, e.IsSerialQuiet board := by
  intro e he
  unfold ackEvents at he
  cases hfn : h.ackFn with
  | none => simp [hfn] at he
  | some fn =>
    rw [hfn] at he
    rcases List.mem_cons.mp he with rfl | he
    · exact ⟨rfl, rfl⟩
    · cases fn <;> simp_all [vmmEnv, vmmAckFn, AckCall.event, Event.IsSerialQuiet, Event.isSerial, Event.isSerialAck]

lemma serialQuiet_refillEvents {env : Env VmmAckFn} (s : Vmm VmmAckFn) (k : Fin numListRegs) :
    ∀ e ∈ refillEvents env s k, e.IsSerialQuiet board := by
  intro e he
  obtain ⟨a, -, rfl⟩ := mem_refillEvents he
  exact ⟨rfl, rfl⟩

lemma Injected.serialQuiet {env : Env VmmAckFn} {irq : Int} {b : Bool} (h : Injected env s irq b t) :
    SerialQuiet board s t := by
  cases h with
  | refused => exact .refl s
  | pending => exact .refl s
  | accepted _ _ ha =>
    refine ⟨_, ha.log, fun e he => ?_⟩
    rcases List.mem_cons.mp he with rfl | he
    · exact ⟨rfl, rfl⟩
    · obtain ⟨k, a, -, -, rfl⟩ := mem_offerEvents he
      exact ⟨rfl, rfl⟩

lemma Does.serialQuiet {a : Action VmmAckFn} (hd : Does (vmmEnv .imx8mmEvk) s a t) (ha : ∀ irq, a ≠ .notification irq) :
    SerialQuiet board s t := by
  cases hd with
  | inject h => exact h.serialQuiet
  | notification => exact absurd rfl (ha _)
  | @vppiEvent irq b u h =>
    have hbefore : SerialQuiet board s { s with log := s.log ++ [.vppiEvent irq.toNat] } :=
      ⟨_, rfl, by simp [Event.IsSerialQuiet, Event.isSerial, Event.isSerialAck]⟩
    have hafter : SerialQuiet board u { u with log := u.log ++ vppiReturn irq b } :=
      ⟨_, rfl, by cases b <;> simp [vppiReturn, Event.IsSerialQuiet, Event.isSerial, Event.isSerialAck]⟩
    exact (hbefore.trans h.serialQuiet).trans hafter
  | retire hr =>
    refine ⟨_, hr.log.trans (List.append_assoc _ _ _), fun e he => ?_⟩
    rcases List.mem_append.mp he with he | he
    · exact serialQuiet_ackEvents _ _ e he
    · exact serialQuiet_refillEvents _ _ e he
  | enableAck => exact ⟨_, rfl, serialQuiet_ackEvents _ _⟩
  | _ => exact .of_log rfl

end Quiet

/-! ### Runs -/

section Once

variable {s t : Vmm VmmAckFn}

/-- No serial interrupt has arrived yet, or one has and is masked for good. -/
def SerialOnce (board : Board) (s : Vmm VmmAckFn) : Prop :=
  serialCount board s.log = 0 ∨ serialCount board s.log = 1 ∧ serialMasked board s.log = true

lemma SerialOnce.quiet {board : Board} (hI : SerialOnce board s) (h : SerialQuiet board s t) : SerialOnce board t := by
  rw [SerialOnce, h.count, h.masked]
  exact hI

/-- The serial interrupt arrives while it is not masked, so it does so for the first time. -/
lemma SerialOnce.notified {board : Board} (hI : SerialOnce board s) (hm : serialMasked board s.log = false) :
    SerialOnce board { s with log := s.log ++ [.notification board.serialIrq] } := by
  have hserial : Event.isSerial board (.notification board.serialIrq) = true := by simp [Event.isSerial]
  have hzero : serialCount board s.log = 0 := by
    rcases hI with h | ⟨-, h⟩
    · exact h
    · exact absurd (hm.symm.trans h) (by simp)
  refine .inr ⟨?_, ?_⟩
  · unfold serialCount at hzero
    rw [serialCount, List.countP_append, hzero]
    simp [hserial]
  · rw [serialMasked, Latch.value_append]
    simp [Latch.step, hserial, Event.isSerialAck]

lemma SerialOnce.action {op : Op VmmAckFn} (hw : s.vgic.Wf) (hI : SerialOnce .imx8mmEvk s)
    (hop : NotifiesSerial .imx8mmEvk s op) :
    wp (forM (opActions (vmmEnv .imx8mmEvk) s op) (Action.run (vmmEnv .imx8mmEvk)))
      (fun _ t => t.vgic.Wf ∧ SerialOnce .imx8mmEvk t) (fun _ _ => True) s := by
  have hinert := vmmEnv_inert .imx8mmEvk (by decide)
  by_cases hnotif : ∃ irq, op = .notification irq
  · obtain ⟨irq, rfl⟩ := hnotif
    obtain ⟨rfl, hm⟩ := hop
    rw [opActions, List.forM_cons, wp_bind]
    refine wp_mono (wp_does rfl hinert hw _) (fun _ t hd => ⟨hd.wf hw, ?_⟩) (fun _ _ _ => trivial)
    cases hd with
    | notification h => exact (hI.notified hm).quiet h.serialQuiet
  · refine wp_actions rfl hinert (fun a ha t t' _ ht hd => ht.quiet (hd.serialQuiet ?_))
      (fun _ _ _ _ _ _ _ _ => trivial) hw hI
    rintro irq rfl
    exact hnotif ⟨irq, op_of_notification ha⟩

lemma serialOnce_reach {imgs : GuestImages} {ram initrd : U64} (hs : Reach (Started .imx8mmEvk imgs ram initrd)
    (NotifiesSerial .imx8mmEvk) (step (vmmEnv .imx8mmEvk)) s) : SerialOnce .imx8mmEvk s := by
  have hinv := (reach_outcome (I := fun s => s.vgic.Wf ∧ SerialOnce .imx8mmEvk s) (E := fun _ => True) rfl ?_
    (fun s t hf hI => ⟨hf.vgic ▸ hI.1, hI.2.quiet hf.serialQuiet⟩) (fun _ _ => trivial)
    (fun s op hI hop => hI.2.action hI.1 hop) hs).1
  · exact hinv.2
  · intro t ht
    obtain ⟨m, m', hB, rfl⟩ := ht.booted
    refine ⟨hB.wf, .inl ?_⟩
    rw [hB.log]
    rfl

end Once

/-! ### Two serial interrupts -/

/-- The guest enables the serial interrupt and the distributor. The interrupt arrives twice, and is retired between. -/
def serialTwice (env : Env VmmAckFn) (offset : U64) : List (Op VmmAckFn) :=
  guestStore env offset 2 ++ guestStore env 0x000 1 ++
    [.notification env.board.serialIrq, .retire 0, .notification env.board.serialIrq]

lemma exists_started {board : Board} {imgs : GuestImages} {ram initrd : U64} {m : Machine} {l : List (Op VmmAckFn)}
    {p : Vmm VmmAckFn → Bool} (h : endsIn (init (vmmEnv board) imgs ram initrd) m (fun m' =>
      decide (AllowedRun (NotifiesSerial board) (step (vmmEnv board)) l m'.vmm) &&
        (final (step (vmmEnv board)) l m'.vmm).any p) = true) :
    ∃ s, Reach (Started board imgs ram initrd) (NotifiesSerial board) (step (vmmEnv board)) s ∧ p s = true := by
  obtain ⟨_, m', hrun, hp⟩ := ok_of_endsIn h
  obtain ⟨hallowed, hfinal⟩ := Bool.and_eq_true_iff.mp hp
  exact Reach.exists_final (.init ⟨m, m', hrun, rfl⟩) (of_decide_eq_true hallowed) hfinal

/-- With a kernel that masks the serial interrupt until it is acknowledged, the booted system can get it again on every
board but `imx8mm_evk`, and there it never does. -/
theorem serial_repeats_iff (board : Board) :
    (∃ imgs ram initrd s, Reach (Started board imgs ram initrd) (NotifiesSerial board) (step (vmmEnv board)) s ∧
      2 ≤ serialCount board s.log) ↔ board ≠ .imx8mmEvk := by
  constructor
  · rintro ⟨imgs, ram, initrd, s, hs, hcount⟩ rfl
    rcases serialOnce_reach hs with h | ⟨h, -⟩ <;> omega
  · intro hboard
    have hrun : ∃ offset, endsIn (init (vmmEnv board) ⟨0, 0, 0, 0, 0, 0⟩ 0 0)
        ⟨vgicInit (vmmEnv board) (.filled 0), fun _ => 0, []⟩ (fun m' =>
          decide (AllowedRun (NotifiesSerial board) (step (vmmEnv board)) (serialTwice (vmmEnv board) offset) m'.vmm) &&
            (final (step (vmmEnv board)) (serialTwice (vmmEnv board) offset) m'.vmm).any
              fun s => decide (2 ≤ serialCount board s.log)) = true := by
      cases board with
      | qemuArmVirtHyp => exact ⟨0x104, by decide +kernel⟩
      | odroidc2 => exact ⟨0x11c, by decide +kernel⟩
      | imx8mmEvk => exact absurd rfl hboard
    obtain ⟨offset, hends⟩ := hrun
    obtain ⟨s, hs, hcount⟩ := exists_started hends
    exact ⟨_, _, _, s, hs, of_decide_eq_true hcount⟩

end Sel4cpVmm
