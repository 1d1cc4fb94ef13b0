import Teensy41Ethernet.Driver.ReceiveOrder

/-!
# Interrupt and polling

Each frame that the DMA stores raises the receive interrupt `RXF`.  The handler `enet_isr`
acknowledges it and sets `rx_ready`; `enet_proc_input`, called from the main loop, does
nothing unless `rx_ready` is set, and otherwise clears it and takes frames from the ring
until `enet_rx_next` returns `NULL`.  No receive callback is installed.

A `NULL` that comes from the search of `rxbd_next` is harmless: either all descriptors were
empty, or a frame arrived during the search and raised a new interrupt.  A `NULL` that comes
from `t41_low_level_input`, for a frame with an error or for lack of packet buffers, ends
the loop in the same way, whatever the other descriptors hold.  `no_frame_left_behind` shows
that this is the only way to leave a frame without a wake-up.
-/

namespace Teensy41Ethernet.Driver

open Lib Lwip

/-! ### The system -/

/-- Where the code of `enet_isr` is. -/
inductive IsrPc where
  /-- Not running. -/
  | off
  /-- At `while (ENET_EIR & ENET_EIMR_RXF)`. -/
  | test
  /-- At `ENET_EIR = ENET_EIMR_RXF;`, which clears the flag. -/
  | ack
  /-- At `rx_ready = 1;`. -/
  | set
deriving DecidableEq

/-- Where the code of `enet_proc_input` is. -/
inductive ProcPc where
  /-- Not running. -/
  | idle
  /-- At `if (rx_ready)`. -/
  | test
  /-- At `rx_ready = 0;`. -/
  | clear
  /-- At the call of `enet_rx_next` in the loop condition. -/
  | call
  /-- Inside `enet_rx_next`, or at the test of its result. -/
  | next
  /-- At `enet_input(p);`. -/
  | input (p : Chain)
deriving DecidableEq

/-- The receive side of the driver: the ring with `enet_rx_next`, the interrupt flag, and
the two functions that share `rx_ready`. -/
structure EnetSys where
  rx : RxSys
  pending : Bool
  rxReady : Bool
  isr : IsrPc
  proc : ProcPc

/-- The state after `t41_low_level_init`. -/
def enetInit (b : Board) : EnetSys := ⟨rxInit b, false, false, .off, .idle⟩

/-- What happens: a fill by the DMA, the entry of the handler, its next statement, a call of
`enet_proc_input`, and its next statement with `free` members left in the pool. -/
inductive EnetEvent where
  | fill (f : RxFill)
  | irq
  | isr
  | procInput
  | step (free : ℕ)

/-- The next statement of `enet_isr`. -/
def isrStatement (s : EnetSys) : Option EnetSys :=
  match s.isr with
  | .off => none
  | .test => some { s with isr := if s.pending then .ack else .off }
  | .ack => some { s with isr := .set, pending := false }
  | .set => some { s with isr := .test, rxReady := true }

/-- The next statement of `enet_proc_input`. -/
def procStatement (b : Board) (s : EnetSys) (free : ℕ) : Option EnetSys :=
  match s.proc with
  | .idle => none
  | .test => some { s with proc := if s.rxReady then .clear else .idle }
  | .clear => some { s with proc := .call, rxReady := false }
  | .call => (rxStep b s.rx .call).map fun rx => { s with rx := rx, proc := .next }
  | .next =>
      match s.rx.pc with
      | .returned none => some { s with proc := .idle }
      | .returned (some p) => some { s with proc := .input p }
      | _ => (rxStep b s.rx (.step free)).map fun rx => { s with rx := rx }
  | .input _ => some { s with proc := .call }

/-- One event.  The main program stands still while the handler runs. -/
def enetStep (b : Board) (s : EnetSys) : EnetEvent → Option EnetSys
  | .fill f => (rxStep b s.rx (.fill f)).map fun rx => { s with rx := rx, pending := true }
  | .irq => if s.isr = .off ∧ s.pending = true then some { s with isr := .test } else none
  | .isr => isrStatement s
  | .procInput =>
      if s.isr = .off ∧ s.proc = .idle then some { s with proc := .test } else none
  | .step free => if s.isr = .off then procStatement b s free else none

/-! ### The invariant -/

/-- A wake-up is on its way: the interrupt is pending, the handler is about to set
`rx_ready`, or it is set. -/
def EnetSys.Flagged (s : EnetSys) : Prop :=
  s.pending = true ∨ s.isr = .set ∨ s.rxReady = true

/-- The descriptors that `enet_proc_input`, if it is running, will not look at any more
before it returns, unless it takes another frame first. -/
def EnetSys.Done (b : Board) (s : EnetSys) (i : ℕ) : Prop :=
  match s.proc with
  | .idle | .test => True
  | .next =>
      match s.rx.pc with
      | .scan _ | .wrap _ => offset b.rxSize s.rx.pRxbd i < s.rx.passed b
      | .release bd none => i ≠ bd
      | .rdar none | .returned none => True
      | _ => False
  | _ => False

/-- If the descriptor that `t41_low_level_input` starts with has an error bit of its mask, or
there are no packet buffers for it, then a wake-up is on its way or no other descriptor
holds a frame. -/
def DropIsLast (b : Board) (s : EnetSys) : EnetEvent → Prop
  | .step free => ∀ bd, s.rx.pc = .input bd →
      hasFlag (s.rx.ring bd).status rxErrMask = true ∨
        pbufAlloc (s.rx.ring bd).length free = none →
      s.pending = true ∨ s.rxReady = true ∨ ∀ i < b.rxSize, i ≠ bd → s.rx.filled i = false
  | _ => True

/-- The descriptors that are done with are empty, unless a wake-up is on its way. -/
structure WakeInv (b : Board) (s : EnetSys) : Prop where
  base : RxInv b s.rx
  covered : s.Flagged ∨ ∀ i < b.rxSize, s.Done b i → s.rx.filled i = false

namespace WakeInv

variable {b : Board} {s s' : EnetSys} {e : EnetEvent}

lemma init (b : Board) : WakeInv b (enetInit b) where
  base := RxInv.init b
  covered := Or.inr fun i h _ => by
    have howed := (RxInv.init b).owed_eq i h
    simpa [enetInit, rxInit, RxPc.taken, owed] using howed

lemma isrStatement (hi : WakeInv b s) (h : isrStatement s = some s') : WakeInv b s' := by
  cases hisr : s.isr with
  | off => exact absurd h (by simp [Driver.isrStatement, hisr])
  | test =>
    simp only [Driver.isrStatement, hisr, Option.some.injEq] at h
    subst h
    refine ⟨hi.base, hi.covered.imp_left ?_⟩
    rintro (h | h | h)
    · exact Or.inl h
    · exact absurd h (by simp [hisr])
    · exact Or.inr (Or.inr h)
  | ack =>
    simp only [Driver.isrStatement, hisr, Option.some.injEq] at h
    subst h
    exact ⟨hi.base, Or.inl (Or.inr (Or.inl rfl))⟩
  | set =>
    simp only [Driver.isrStatement, hisr, Option.some.injEq] at h
    subst h
    exact ⟨hi.base, Or.inl (Or.inr (Or.inr rfl))⟩

lemma rxStatement (hi : WakeInv b s) (hproc : s.proc = .next) {free : ℕ}
    (hok : DropIsLast b s (.step free)) {rx : RxSys}
    (h : rxStep b s.rx (.step free) = some rx) : WakeInv b { s with rx := rx } := by
  refine ⟨hi.base.step h, ?_⟩
  have hcov := hi.covered
  cases RxMove.of_step h with
  | @pass bd _ hpc hempty =>
    refine hcov.imp_right fun hdone i hlt hpassed => ?_
    simp only [EnetSys.Done, hproc, RxSys.passed, hpc] at hdone hpassed
    rcases Nat.lt_succ_iff_lt_or_eq.mp hpassed with hlt' | heq
    · exact hdone i hlt hlt'
    · have := offset_inj hi.base.pRxbd_lt hlt (hi.base.cursor_lt bd (by rw [hpc]; rfl)) heq
      exact this ▸ hempty
  | @round bd _ hpc hlast =>
    -- the search went once round the ring, so it has passed all descriptors
    refine hcov.imp_right fun hdone i hlt _ => ?_
    have hbd := hi.base.cursor_lt bd (by rw [hpc]; rfl)
    rw [hi.base.nextRxbd_eq hbd] at hlast
    have hall := offset_last hi.base.pRxbd_lt hbd hlast
    have hi_lt := offset_lt (p := s.rx.pRxbd) (i := i) b.rx_pos
    simp only [EnetSys.Done, hproc, RxSys.passed, hpc] at hdone
    exact hdone i hlt (by omega)
  | @next bd _ hpc hne =>
    refine hcov.imp_right fun hdone i hlt hpassed => ?_
    have hbd := hi.base.cursor_lt bd (by rw [hpc]; rfl)
    rw [hi.base.nextRxbd_eq hbd] at hne hpassed
    simp only [EnetSys.Done, hproc, RxSys.passed, hpc] at hdone hpassed
    rw [offset_succ hi.base.pRxbd_lt hbd hne] at hpassed
    exact hdone i hlt hpassed
  | found hpc _ => exact Or.inr fun i _ hdone => by simp [EnetSys.Done, hproc] at hdone
  | advance hpc => exact Or.inr fun i _ hdone => by simp [EnetSys.Done, hproc] at hdone
  | @input bd _ hpc =>
    cases hp : t41LowLevelInput b s.rx bd free with
    | none =>
      have hdropped := (t41LowLevelInput_eq_none_iff b s.rx bd free).mp hp
      rcases hok bd hpc hdropped with hpend | hready | hempty
      · exact Or.inl (Or.inl hpend)
      · exact Or.inl (Or.inr (Or.inr hready))
      · refine Or.inr fun i hlt hdone => hempty i hlt ?_
        simpa [EnetSys.Done, hproc] using hdone
    | some p => exact Or.inr fun i _ hdone => by simp [EnetSys.Done, hproc] at hdone
  | @release bd p _ hpc =>
    refine hcov.imp_right fun hdone i hlt hdone' => ?_
    cases p with
    | none =>
      simp only [EnetSys.Done, hproc, hpc] at hdone
      rw [filled_rxGiveBack, Bool.and_eq_false_iff, decide_eq_false_iff_not, not_not]
      by_cases hbd : i = bd
      · exact Or.inr hbd
      · exact Or.inl (hdone i hlt hbd)
    | some p => simp [EnetSys.Done, hproc, rxGiveBack] at hdone'
  | @rdar p _ hpc =>
    refine hcov.imp_right fun hdone i hlt hdone' => ?_
    cases p with
    | none =>
      simp only [EnetSys.Done, hproc, hpc] at hdone
      exact hdone i hlt trivial
    | some p => simp [EnetSys.Done, hproc] at hdone'

lemma procStatement (hi : WakeInv b s) {free : ℕ} (hok : DropIsLast b s (.step free))
    (h : procStatement b s free = some s') : WakeInv b s' := by
  cases hproc : s.proc with
  | idle => exact absurd h (by simp [Driver.procStatement, hproc])
  | test =>
    simp only [Driver.procStatement, hproc, Option.some.injEq] at h
    subst h
    refine ⟨hi.base, hi.covered.imp_right fun hdone i hlt _ => hdone i hlt ?_⟩
    simp [EnetSys.Done, hproc]
  | clear =>
    simp only [Driver.procStatement, hproc, Option.some.injEq] at h
    subst h
    exact ⟨hi.base, Or.inr fun i _ hdone => by simp [EnetSys.Done] at hdone⟩
  | call =>
    simp only [Driver.procStatement, hproc, Option.map_eq_some_iff] at h
    obtain ⟨rx, hrx, rfl⟩ := h
    refine ⟨hi.base.step hrx, Or.inr fun i _ hdone => ?_⟩
    cases RxMove.of_step hrx
    simp [EnetSys.Done, RxSys.passed, offset_self] at hdone
  | next =>
    simp only [Driver.procStatement, hproc] at h
    split at h
    · rename_i hpc
      simp only [Option.some.injEq] at h
      subst h
      refine ⟨hi.base, hi.covered.imp_right fun hdone i hlt _ => hdone i hlt ?_⟩
      simp [EnetSys.Done, hproc, hpc]
    · simp only [Option.some.injEq] at h
      subst h
      exact ⟨hi.base, Or.inr fun i _ hdone => by simp [EnetSys.Done] at hdone⟩
    · obtain ⟨rx, hrx, rfl⟩ := Option.map_eq_some_iff.mp h
      simpa only [hproc] using hi.rxStatement hproc hok hrx
  | input p =>
    simp only [Driver.procStatement, hproc, Option.some.injEq] at h
    subst h
    exact ⟨hi.base, Or.inr fun i _ hdone => by simp [EnetSys.Done] at hdone⟩

/-- One event keeps the invariant, if a frame that is dropped is the last one. -/
lemma step (hi : WakeInv b s) (hok : DropIsLast b s e) (h : enetStep b s e = some s') :
    WakeInv b s' := by
  cases e with
  | fill f =>
    simp only [enetStep, Option.map_eq_some_iff] at h
    obtain ⟨rx, hrx, rfl⟩ := h
    exact ⟨hi.base.step hrx, Or.inl (Or.inl rfl)⟩
  | irq =>
    simp only [enetStep, Option.ite_none_right_eq_some, Option.some.injEq] at h
    obtain ⟨⟨-, hpend⟩, rfl⟩ := h
    exact ⟨hi.base, Or.inl (Or.inl hpend)⟩
  | isr => exact hi.isrStatement h
  | procInput =>
    simp only [enetStep, Option.ite_none_right_eq_some, Option.some.injEq] at h
    obtain ⟨⟨-, hidle⟩, rfl⟩ := h
    refine ⟨hi.base, hi.covered.imp_right fun hdone i hlt _ => hdone i hlt ?_⟩
    simp [EnetSys.Done, hidle]
  | step free =>
    simp only [enetStep, Option.ite_none_right_eq_some] at h
    exact hi.procStatement hok h.2

end WakeInv

/-- **No frame is left behind without a wake-up**, in every run in which a frame is dropped
only if a wake-up is on its way or no other descriptor holds a frame: in a state with no
interrupt pending or being served and with `enet_proc_input` not running, a descriptor that
holds a frame means that `rx_ready` is set. -/
theorem no_frame_left_behind (b : Board) (es : List EnetEvent) {t : EnetSys}
    (hok : Admits (enetStep b) (DropIsLast b) (enetInit b) es)
    (hrun : exec (enetStep b) (enetInit b) es = some t) (hpend : t.pending = false)
    (hisr : t.isr = .off) (hproc : t.proc = .idle)
    (hframe : ∃ i < b.rxSize, t.rx.filled i = true) : t.rxReady = true := by
  have hi : WakeInv b t := exec_inv_of_admits (fun _ _ _ hs hok h => hs.step hok h)
    (WakeInv.init b) hok hrun
  obtain ⟨i, hlt, hfilled⟩ := hframe
  rcases hi.covered with (h | h | h) | hempty
  · exact absurd (hpend.symm.trans h) Bool.false_ne_true
  · exact absurd (hisr.symm.trans h) (by decide)
  · exact h
  · have := hempty i hlt (by simp [EnetSys.Done, hproc])
    exact absurd (this.symm.trans hfilled) Bool.false_ne_true

instance (b : Board) (s : EnetSys) : (e : EnetEvent) → Decidable (DropIsLast b s e)
  | .step free =>
      match h : s.rx.pc with
      | .input bd => decidable_of_iff
          (hasFlag (s.rx.ring bd).status rxErrMask = true ∨
              pbufAlloc (s.rx.ring bd).length free = none →
            s.pending = true ∨ s.rxReady = true ∨
              ∀ i < b.rxSize, i ≠ bd → s.rx.filled i = false)
          (by simp [DropIsLast, h])
      | .returned _ | .scan _ | .wrap _ | .advance _ | .release _ _ | .rdar _ =>
          isTrue fun bd hbd => by simp [h] at hbd
  | .fill _ | .irq | .isr | .procInput => isTrue trivial

/-- What a state shows of the wake-up of a frame in descriptor `i`: the interrupt flag, the
two functions, `rx_ready` and whether the descriptor holds a frame. -/
def EnetSys.view (i : ℕ) (s : EnetSys) : Bool × IsrPc × ProcPc × Bool × Bool :=
  (s.pending, s.isr, s.proc, s.rxReady, s.rx.filled i)

/-- A frame with a bad checksum is dropped, and a good one arrives afterwards. -/
theorem no_frame_left_behind_after_drop :
    let bad : RxFill := ⟨kEnetRxBdLast ||| kEnetRxBdCrc, 1, [7]⟩
    let good : RxFill := ⟨kEnetRxBdLast, 1, [7]⟩
    let es : List EnetEvent := List.flatten [[.fill bad, .irq], List.replicate 4 .isr, [.procInput],
      List.replicate 9 (.step 1), [.fill good, .irq], List.replicate 4 .isr]
    ∃ t, exec (enetStep t41) (enetInit t41) es = some t ∧ t.rx.filled 1 = true ∧
      t.rxReady = true := by
  intro bad good es
  have hview : (exec (enetStep t41) (enetInit t41) es).map (EnetSys.view 1)
      = some (false, .off, .idle, true, true) := by
    decide +kernel
  obtain ⟨t, ht, hview⟩ := Option.map_eq_some_iff.mp hview
  simp only [EnetSys.view, Prod.mk.injEq] at hview
  obtain ⟨hpend, hisr, hproc, -, hfilled⟩ := hview
  exact ⟨t, ht, hfilled, no_frame_left_behind t41 es (by decide +kernel) ht hpend hisr hproc
    ⟨1, by decide, hfilled⟩⟩

/-- A frame with a bad checksum in front of a good one: the good one stays in the ring, and
nothing will make `enet_proc_input` look at it. -/
theorem frame_left_behind_by_drop :
    let bad : RxFill := ⟨kEnetRxBdLast ||| kEnetRxBdCrc, 1, [7]⟩
    let good : RxFill := ⟨kEnetRxBdLast, 1, [7]⟩
    let es : List EnetEvent := List.flatten [[.fill bad, .fill good, .irq], List.replicate 4 .isr,
      [.procInput], List.replicate 9 (.step 1)]
    ∃ t, exec (enetStep t41) (enetInit t41) es = some t ∧ t.pending = false ∧ t.isr = .off ∧
      t.proc = .idle ∧ t.rx.filled 1 = true ∧ t.rxReady = false := by
  intro bad good es
  have hview : (exec (enetStep t41) (enetInit t41) es).map (EnetSys.view 1)
      = some (false, .off, .idle, false, true) := by
    decide +kernel
  obtain ⟨t, ht, hview⟩ := Option.map_eq_some_iff.mp hview
  simp only [EnetSys.view, Prod.mk.injEq] at hview
  obtain ⟨hpend, hisr, hproc, hready, hfilled⟩ := hview
  exact ⟨t, ht, hpend, hisr, hproc, hfilled, hready⟩

end Teensy41Ethernet.Driver
