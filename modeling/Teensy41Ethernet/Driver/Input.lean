import Teensy41Ethernet.Driver.Receive

/-!
# What a received descriptor becomes

The DMA puts a frame that is longer than one buffer into several descriptors, of which only
the last one has the last bit; the error bits of `enet_rx_bd_control_status_t` are valid
there.  `t41_low_level_input` looks at one descriptor at a time: it drops those with one of
the four error bits of its mask and makes a packet of every other one.

`enetRxNext_whole_iff` says exactly for which descriptors the packets that go up are whole,
error-free frames.  The mask does not have the overrun bit, and neither the last bit nor
the position in a frame is looked at.
-/

namespace Teensy41Ethernet.Driver

open Lib Lwip

/-- The receive-error bits of `enet_rx_bd_control_status_t`. -/
def rxErrorBits : BitVec 16 :=
  kEnetRxBdTrunc ||| kEnetRxBdOverRun ||| kEnetRxBdCrc ||| kEnetRxBdNoOctet |||
    kEnetRxBdLengthViolation

/-- A descriptor as the DMA leaves it, with the frame it belongs to and whether an earlier
descriptor has the start of the frame.  The only descriptor of an error-free frame has all
of its bytes; nothing is assumed about the others. -/
structure Piece (b : Board) extends RxFill where
  frame : List UInt8
  continuation : Bool
  full : hasFlag status kEnetRxBdEmpty = false
  fits : data.length ≤ b.bfsize
  complete : hasFlag status kEnetRxBdLast = true → continuation = false →
    hasFlag status rxErrorBits = false → length = frame.length ∧ data = frame

namespace Piece

variable {b : Board} {s s' : RxSys} {e : RxEvent} {bd : ℕ} {g : Piece b}

/-- The descriptor is the only one of a frame received without an error. -/
def Whole (g : Piece b) : Prop :=
  hasFlag g.status kEnetRxBdLast = true ∧ g.continuation = false ∧
    hasFlag g.status rxErrorBits = false

/-- The descriptor `bd` and its buffer hold what the DMA wrote. -/
structure In (g : Piece b) (s : RxSys) (bd : ℕ) : Prop where
  status_eq : (s.ring bd).status = g.status
  length_eq : (s.ring bd).length = g.length
  data_eq : load s.rxbufs (bd * b.bfsize) g.data.length = g.data

lemma in_rxFilled (g : Piece b) (s : RxSys) : g.In (rxFilled b s g.toRxFill) s.dma where
  status_eq := by simp [rxFilled]
  length_eq := by simp [rxFilled]
  data_eq := load_store _ _ _

lemma In.step (hg : g.In s bd) (h : rxStep b s e = some s') (hkeep : ∀ p, s.pc ≠ .release bd p) :
    g.In s' bd := by
  have hfilled : s.filled bd = true := by
    rw [filled_eq_true, hg.status_eq, g.full]
    exact Bool.false_ne_true
  cases RxMove.of_step h with
  | @release bd' p _ hpc =>
    have hne : bd ≠ bd' := by
      rintro rfl
      exact hkeep p hpc
    exact ⟨by simpa [rxGiveBack, hne] using hg.status_eq,
      by simpa [rxGiveBack, hne] using hg.length_eq, hg.data_eq⟩
  | @fill f hempty _ _ hfit =>
    have hne : bd ≠ s.dma := by
      rintro rfl
      rw [hempty] at hfilled
      exact Bool.false_ne_true hfilled
    refine ⟨by simpa [rxFilled, hne] using hg.status_eq,
      by simpa [rxFilled, hne] using hg.length_eq, ?_⟩
    refine Eq.trans ?_ hg.data_eq
    refine load_store_of_disjoint s.rxbufs ?_
    have hlen := g.fits
    rcases block_disjoint b.bfsize hne with h | h <;> omega
  | _ => exact ⟨hg.status_eq, hg.length_eq, hg.data_eq⟩

/-- What the DMA wrote is there until `t41_low_level_input` gives the descriptor back. -/
theorem in_of_run (g : Piece b) {es : List RxEvent} {t : RxSys}
    (hkeep : Admits (rxStep b) (fun s' _ => ∀ p, s'.pc ≠ .release s.dma p)
      (rxFilled b s g.toRxFill) es)
    (hrun : exec (rxStep b) (rxFilled b s g.toRxFill) es = some t) : g.In t s.dma :=
  exec_inv_of_admits (P := fun t => g.In t s.dma) (fun _ _ _ hg hkeep h => hg.step h hkeep)
    (g.in_rxFilled s) hkeep hrun

/-- The packet that `t41_low_level_input` makes has the bytes from the start of the buffer
on, as many as the length field says. -/
lemma In.flatten_input (hg : g.In s bd) {free : ℕ} {p : Chain}
    (h : t41LowLevelInput b s bd free = some p) :
    p.flatten = load s.rxbufs (bd * b.bfsize) g.length := by
  rw [t41LowLevelInput] at h
  split at h
  · exact absurd h (by simp)
  · obtain ⟨q, hq, rfl⟩ := Option.map_eq_some_iff.mp h
    have hlen := totLen_pbufAlloc hq
    rw [hg.length_eq] at hlen
    obtain ⟨q', hq', hflat⟩ := flatten_pbufTake
      (length_load s.rxbufs (bd * b.bfsize) (totLen q))
    rw [hq', Option.getD_some, hflat, hlen]

lemma In.input_eq_none_iff (hg : g.In s bd) (free : ℕ) :
    t41LowLevelInput b s bd free = none ↔
      hasFlag g.status rxErrMask = true ∨ pbufAlloc g.length free = none := by
  rw [t41LowLevelInput_eq_none_iff, hg.status_eq, hg.length_eq]

lemma hasFlag_rxErrorBits (status : BitVec 16) :
    hasFlag status rxErrorBits =
      (hasFlag status rxErrMask || hasFlag status kEnetRxBdOverRun) := by
  rw [← hasFlag_or_right]
  congr 1

lemma exec_input (hpc : s.pc = .input bd) (free : ℕ) :
    ∃ s', exec (rxStep b) s [.step free, .step free, .step free] = some s' ∧
      s'.pc = .returned (t41LowLevelInput b s bd free) := by
  simp only [exec, rxStep, rxStatement, rxGiveBack, hpc, Option.bind_some]
  exact ⟨_, rfl, rfl⟩

end Piece

/-- **Which descriptors are dealt with correctly.**  A packet that `enet_rx_next` returns
for the descriptor is a whole, error-free frame with all its bytes if and only if no packet
is returned, because of a bit of the error mask or for lack of packet buffers, or the
descriptor is the last one of its frame, not a continuation, and without an overrun. -/
theorem enetRxNext_whole_iff {b : Board} {s : RxSys} {bd : ℕ} (g : Piece b)
    (hpc : s.pc = .input bd) (hg : g.In s bd) (free : ℕ) :
    (∀ s' p, exec (rxStep b) s [.step free, .step free, .step free] = some s' →
      s'.pc = .returned (some p) → g.Whole ∧ p.flatten = g.frame) ↔
    (hasFlag g.status rxErrMask = true ∨ pbufAlloc g.length free = none ∨
      (hasFlag g.status kEnetRxBdLast = true ∧ g.continuation = false ∧
        hasFlag g.status kEnetRxBdOverRun = false)) := by
  obtain ⟨s', hrun, hret⟩ := Piece.exec_input (b := b) hpc free
  rw [← or_assoc, ← hg.input_eq_none_iff free]
  constructor
  · intro h
    cases hp : t41LowLevelInput b s bd free with
    | none => exact Or.inl rfl
    | some p =>
      obtain ⟨⟨hlast, hcont, herr⟩, -⟩ := h s' p hrun (by rw [hret, hp])
      rw [Piece.hasFlag_rxErrorBits, Bool.or_eq_false_iff] at herr
      exact Or.inr ⟨hlast, hcont, herr.2⟩
  · intro h s'' p hrun' hret'
    rw [hrun, Option.some.injEq] at hrun'
    subst hrun'
    have hp : t41LowLevelInput b s bd free = some p := by
      rw [hret, RxPc.returned.injEq] at hret'
      exact hret'
    obtain ⟨hlast, hcont, hover⟩ := h.resolve_left (by rw [hp]; simp)
    have hmask : hasFlag g.status rxErrMask = false := by
      rw [← Bool.not_eq_true]
      intro herr
      have := (hg.input_eq_none_iff free).mpr (Or.inl herr)
      rw [hp] at this
      exact absurd this (by simp)
    have herr : hasFlag g.status rxErrorBits = false := by
      rw [Piece.hasFlag_rxErrorBits, hmask, hover]
      rfl
    obtain ⟨hlen, hdata⟩ := g.complete hlast hcont herr
    refine ⟨⟨hlast, hcont, herr⟩, ?_⟩
    rw [hg.flatten_input hp, hlen, ← hdata, hg.data_eq]

/-- A whole frame of two bytes goes up. -/
theorem enetRxNext_whole_two_bytes :
    let g : Piece t41 := ⟨⟨kEnetRxBdLast, 2, [8, 9]⟩, [8, 9], false, by decide, by decide,
      fun _ _ _ => ⟨rfl, rfl⟩⟩
    let s := { rxFilled t41 (rxInit t41) g.toRxFill with pc := .input 0 }
    ∀ s' p, exec (rxStep t41) s [.step 1, .step 1, .step 1] = some s' →
      s'.pc = .returned (some p) → g.Whole ∧ p.flatten = g.frame := by
  intro g s
  have hg : g.In s 0 := ⟨(g.in_rxFilled (rxInit t41)).status_eq,
    (g.in_rxFilled (rxInit t41)).length_eq, (g.in_rxFilled (rxInit t41)).data_eq⟩
  exact (enetRxNext_whole_iff g rfl hg 1).mpr (Or.inr (Or.inr ⟨by decide, rfl, by decide⟩))

/-- A descriptor with the overrun bit, which the hardware sets without any other error bit,
goes up like a good frame. -/
theorem enetRxNext_returns_overrun :
    ∃ g : Piece t41, hasFlag g.status kEnetRxBdOverRun = true ∧ ¬ g.Whole ∧
      ∃ t, exec (rxStep t41) (rxInit t41)
          [.fill g.toRxFill, .call, .step 1, .step 1, .step 1, .step 1, .step 1] = some t ∧
        t.pc = .returned (some [[7]]) := by
  refine ⟨⟨⟨kEnetRxBdLast ||| kEnetRxBdOverRun, 1, [7]⟩, [1, 2], false, by decide, by decide,
    fun _ _ h => absurd h (by decide)⟩, by decide, fun h => absurd h.2.2 (by decide), ?_⟩
  rw [← Option.map_eq_some_iff]
  decide +kernel

end Teensy41Ethernet.Driver
