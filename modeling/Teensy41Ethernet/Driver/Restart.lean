import Teensy41Ethernet.Driver.Receive

/-!
# Stopping and restarting the receiver

The receiver stops when the descriptor that the DMA is about to fill is not empty, and only
a write of `ENET_RDAR` starts it again.  `t41_low_level_input` writes the register after it
has given a descriptor back, whether or not the frame in it was good and a packet buffer
could be had for it.  In between there is a state in which the receiver has stopped although
its descriptor is empty again; the write that ends it is still to come.

The descriptor given back need not be the one at which the DMA waits, as the search of
`rxbd_next` takes the first full one it meets.  The write is then in vain and the receiver
stops again; the one that matters follows when that descriptor is given back.
-/

namespace Teensy41Ethernet.Driver

open Lib Lwip

/-! ### The system -/

/-- The receive ring and the receiver: `active` is the bit that is read from `ENET_RDAR`. -/
structure RxLine where
  rx : RxSys
  active : Bool

/-- `t41_low_level_init` ends with a write of `ENET_RDAR`. -/
def rxLineInit (b : Board) : RxLine := ⟨rxInit b, true⟩

/-- An event at the ring, or the receiver stops. -/
inductive RxLineEvent where
  | ring (e : RxEvent)
  | stop

/-- Only the DMA of an active receiver fills descriptors. -/
def RxLine.allows (s : RxLine) : RxEvent → Bool
  | .fill _ => s.active
  | _ => true

/-- The event is the statement `ENET_RDAR = ENET_RDAR_RDAR;`. -/
def RxSys.writesRdar (s : RxSys) : RxEvent → Bool
  | .step _ =>
      match s.pc with
      | .rdar _ => true
      | _ => false
  | _ => false

/-- One event.  The receiver stops at a descriptor that is not empty. -/
def rxLineStep (b : Board) (s : RxLine) : RxLineEvent → Option RxLine
  | .ring e =>
      if s.allows e then
        (rxStep b s.rx e).map fun rx => { rx := rx, active := s.active || s.rx.writesRdar e }
      else none
  | .stop =>
      if s.active = true ∧ s.rx.filled s.rx.dma = true then some { s with active := false }
      else none

lemma rxLineStep_cases {b : Board} {s s' : RxLine} {e : RxLineEvent}
    (h : rxLineStep b s e = some s') :
    (∃ e', e = .ring e' ∧ s.allows e' = true ∧ rxStep b s.rx e' = some s'.rx ∧
      s'.active = (s.active || s.rx.writesRdar e')) ∨
    (e = .stop ∧ s.rx.filled s.rx.dma = true ∧ s' = { s with active := false }) := by
  cases e with
  | ring e' =>
    simp only [rxLineStep, Option.ite_none_right_eq_some, Option.map_eq_some_iff] at h
    obtain ⟨hallows, rx, hstep, rfl⟩ := h
    exact Or.inl ⟨e', rfl, hallows, hstep, rfl⟩
  | stop =>
    simp only [rxLineStep, Option.ite_none_right_eq_some, Option.some.injEq] at h
    obtain ⟨⟨-, hfilled⟩, rfl⟩ := h
    exact Or.inr ⟨rfl, hfilled, rfl⟩

/-! ### A restart is never missed -/

/-- The receiver is active, or stands at a full descriptor, or is about to be restarted. -/
def RxLine.Live (s : RxLine) : Prop :=
  s.active = true ∨ s.rx.filled s.rx.dma = true ∨ ∃ p, s.rx.pc = .rdar p

namespace RxLine.Live

variable {b : Board} {s s' : RxLine} {e : RxLineEvent}

lemma ring (hs : s.Live) {e : RxEvent} (hallows : s.allows e = true)
    (hstep : rxStep b s.rx e = some s'.rx) (hactive : s'.active = (s.active || s.rx.writesRdar e)) :
    s'.Live := by
  -- a receiver that was active stays so
  by_cases hact : s.active = true
  · exact Or.inl (by rw [hactive, hact, Bool.true_or])
  have hlive : s.rx.filled s.rx.dma = true ∨ ∃ p, s.rx.pc = .rdar p := hs.resolve_left hact
  obtain ⟨rx, act⟩ := s'
  simp only at hstep hactive
  -- the statements between `rxbd_next` and the release leave the ring as it is
  have hsame : ∀ pc, s.rx.pc = pc → (∀ p, pc ≠ .rdar p) → rx.dma = s.rx.dma →
      rx.ring = s.rx.ring → RxLine.Live ⟨rx, act⟩ := by
    intro pc hpc hne hdma hring
    refine Or.inr (Or.inl ?_)
    rcases hlive with hfilled | ⟨p, hp⟩
    · simpa only [RxSys.filled, hdma, hring] using hfilled
    · exact absurd (hpc.symm.trans hp) (hne p)
  cases RxMove.of_step hstep with
  | call hpc => exact hsame _ hpc (by simp) rfl rfl
  | pass hpc => exact hsame _ hpc (by simp) rfl rfl
  | found hpc => exact hsame _ hpc (by simp) rfl rfl
  | round hpc => exact hsame _ hpc (by simp) rfl rfl
  | next hpc => exact hsame _ hpc (by simp) rfl rfl
  | advance hpc => exact hsame _ hpc (by simp) rfl rfl
  | input hpc => exact hsame _ hpc (by simp) rfl rfl
  | release hpc => exact Or.inr (Or.inr ⟨_, rfl⟩)
  | rdar hpc => exact Or.inl (by rw [hactive]; simp [RxSys.writesRdar, hpc])
  | fill => exact absurd hallows hact

lemma step (hs : s.Live) (h : rxLineStep b s e = some s') : s'.Live := by
  rcases rxLineStep_cases h with ⟨e', rfl, hallows, hring, hactive⟩ | ⟨rfl, hfilled, rfl⟩
  · exact hs.ring hallows hring hactive
  · exact Or.inr (Or.inl hfilled)

end RxLine.Live

/-- **The receiver is not left stopped with a free descriptor.**  For fills, stops and
statements of `enet_rx_next` in any order: outside the function, if the descriptor that the
DMA fills next is empty, the receiver is active. -/
theorem receiver_active_of_empty (b : Board) (es : List RxLineEvent) {t : RxLine}
    {p : Option Chain} (hrun : exec (rxLineStep b) (rxLineInit b) es = some t)
    (hpc : t.rx.pc = .returned p) (hempty : t.rx.filled t.rx.dma = false) : t.active = true := by
  have hlive : t.Live := exec_inv (fun _ _ _ hs hstep => hs.step hstep) (Or.inl rfl) hrun
  rcases hlive with hactive | hfilled | ⟨q, hq⟩
  · exact hactive
  · exact absurd (hempty.symm.trans hfilled) Bool.false_ne_true
  · exact absurd (hpc.symm.trans hq) (by simp)

/-- Five frames fill the ring, the receiver stops, and a call that finds no packet buffer
gives the first descriptor back and restarts it. -/
theorem receiver_active_of_empty_full_ring :
    let f : RxFill := ⟨kEnetRxBdLast, 1, [7]⟩
    let last : RxFill := ⟨kEnetRxBdLast ||| kEnetRxBdWrap, 1, [7]⟩
    let es : List RxLineEvent :=
      List.replicate 4 (.ring (.fill f)) ++ [.ring (.fill last), .stop, .ring .call] ++
        List.replicate 5 (.ring (.step 0))
    ∃ t, exec (rxLineStep t41) (rxLineInit t41) es = some t ∧ t.rx.pc = .returned none ∧
      t.rx.filled t.rx.dma = false ∧ t.rx.filled 1 = true ∧ t.active = true := by
  intro f last es
  have hrun : (exec (rxLineStep t41) (rxLineInit t41) es).map
      (fun t => (t.rx.pc, t.rx.filled t.rx.dma, t.rx.filled 1)) =
        some (.returned none, false, true) := by
    decide +kernel
  obtain ⟨t, ht, hview⟩ := Option.map_eq_some_iff.mp hrun
  simp only [Prod.mk.injEq] at hview
  obtain ⟨hpc, hempty, hfull⟩ := hview
  exact ⟨t, ht, hpc, hempty, hfull, receiver_active_of_empty t41 es ht hpc hempty⟩

end Teensy41Ethernet.Driver
