import Teensy41Ethernet.Lib.Run
import Teensy41Ethernet.Lib.Memory
import Teensy41Ethernet.Lib.Ring
import Teensy41Ethernet.Lib.Word

/-!
# The sketches that poll the receive ring

`teensy41_ethernet.ino` and `etherraw.ino` use the Ethernet controller without a driver.
They look at one descriptor of the receive ring at a time, the one with number `rxnum`; if
its empty flag is clear they hand the buffer to a parser, give the descriptor back to the
DMA and go on to the next one.  In `etherraw.ino` the same lines stand in `check_rx` and in
`loop`.

The DMA takes one frame at a time and stores it in pieces of `ENET_MRBR` bytes, one to a
descriptor.  The receiver stops when the descriptor that the DMA is about to fill is not
empty; only a write of `ENET_RDAR` would start it again, and the sketches write that
register in their set-up only.
-/

namespace Teensy41Ethernet.Sketch

open Lib

/-! ### Frames and descriptors -/

/-- `RXSIZE`, the same in both sketches. -/
def rxsize : ℕ := 12

/-- A frame that the receiver takes: `ENET_RCR_MAX_FL(1522)`. -/
structure Frame where
  bytes : List UInt8
  pos : 0 < bytes.length
  le_max : bytes.length ≤ 1522

/-- The pieces in which the DMA stores a frame when a buffer has `mrbr` bytes. -/
def Frame.pieces (mrbr : ℕ) (f : Frame) : List (List UInt8) :=
  (List.range ((f.bytes.length + mrbr - 1) / mrbr)).map fun j => (f.bytes.drop (j * mrbr)).take mrbr

/-- The fields of `enetbufferdesc_t` that the receive side uses.  The `buffer` field never
changes. -/
structure RxDesc where
  length : ℕ
  flags : BitVec 16

def emptyFlag : BitVec 16 := 0x8000
def wrapFlag : BitVec 16 := 0x2000
def lastFlag : BitVec 16 := 0x0800

/-! ### The system -/

/-- The two parsers. -/
inductive Parser where
  | incoming
  | handleFrame
deriving DecidableEq

/-- One place at which a sketch polls the ring: the parser it calls, and whether it looks at
`ENET_RDAR` afterwards. -/
structure Poll where
  parser : Parser
  reports : Bool
deriving DecidableEq

/-- A sketch: `ENET_MRBR`, which is also the size of a buffer, and the places where it
polls. -/
structure Source where
  mrbr : ℕ
  polls : List Poll
  mrbr_pos : 0 < mrbr

/-- `loop` of `teensy41_ethernet.ino`; the receive part of `loop` of `etherraw.ino` is the
same. -/
def loop : Poll := ⟨.incoming, true⟩

/-- `check_rx` of `etherraw.ino`. -/
def checkRx : Poll := ⟨.handleFrame, false⟩

def teensy41 : Source := ⟨512, [loop], by decide⟩

/-- In `etherraw.ino` a buffer has `BWORDS` words of four bytes. -/
def etherraw : Source := ⟨384 * 4, [checkRx, loop], by decide⟩

/-- Where the code of a poll is, with its local variable `buf`. -/
inductive PollPc where
  /-- Between calls. -/
  | idle
  /-- At `if ((buf->flags & 0x8000) == 0)`. -/
  | test (p : Poll) (buf : ℕ)
  /-- At the call of the parser. -/
  | parse (p : Poll) (buf : ℕ)
  /-- At `if (rxnum < RXSIZE-1)`. -/
  | release (p : Poll) (buf : ℕ)
  /-- At `if (!(ENET_RDAR & ENET_RDAR_RDAR))`, or at the end of a function without it. -/
  | report (p : Poll)
deriving DecidableEq

/-- A call of a parser: the buffer, the length that the descriptor gives, and what the
buffer holds. -/
structure Parse where
  parser : Parser
  buf : ℕ
  len : ℕ
  data : List UInt8

/-- The ring with its two users.  `dma` is the descriptor that the DMA fills next, `active`
the bit that is read from `ENET_RDAR`, and `todo` the pieces of the frame that the DMA is
storing.  The last fields record the run: how often the sketch has printed that the receiver
is not active, the frames received, the pieces stored, the calls of a parser, and the
number of descriptors given back. -/
structure PollSys where
  ring : ℕ → RxDesc
  rxbufs : ℕ → UInt8
  rxnum : ℕ
  dma : ℕ
  active : Bool
  todo : List (List UInt8)
  pc : PollPc
  notices : ℕ
  frames : List Frame
  stored : List (List UInt8)
  parses : List Parse
  released : ℕ

/-- The state after the set-up, `setup` or `e_init`. -/
def pollInit : PollSys where
  ring i := { length := 0, flags := if i + 1 = rxsize then 0xA000 else 0x8000 }
  rxbufs _ := 0
  rxnum := 0
  dma := 0
  active := true
  todo := []
  pc := .idle
  notices := 0
  frames := []
  stored := []
  parses := []
  released := 0

/-- The empty flag of a descriptor. -/
def PollSys.empty (s : PollSys) (i : ℕ) : Bool := hasFlag (s.ring i).flags emptyFlag

/-- The descriptor after `i`: the first one after a descriptor with the wrap flag. -/
def PollSys.next (s : PollSys) (i : ℕ) : ℕ := if hasFlag (s.ring i).flags wrapFlag then 0 else i + 1

/-- What happens: a frame arrives, the DMA stores a piece with the flags and the length it
writes into the descriptor, the receiver stops, the sketch comes to one of its polls, or the
poll goes on by a statement. -/
inductive PollEvent where
  | arrive (f : Frame)
  | store (flags : BitVec 16) (length : ℕ)
  | stop
  | call (p : Poll)
  | step

/-- The state after the DMA has stored `piece`. -/
def pollStored (src : Source) (s : PollSys) (piece : List UInt8) (rest : List (List UInt8))
    (d : RxDesc) : PollSys :=
  { s with
    ring := modifyAt s.ring s.dma fun _ => d
    rxbufs := store s.rxbufs (s.dma * src.mrbr) piece
    dma := s.next s.dma
    todo := rest
    stored := s.stored ++ [piece] }

/-- `if (rxnum < RXSIZE-1) { buf->flags = 0x8000; rxnum++; } else { … }`.  The two
assignments are one step, as the DMA does not see `rxnum`. -/
def pollReleased (s : PollSys) (p : Poll) (buf : ℕ) : PollSys :=
  { s with
    ring := modifyAt s.ring buf fun d =>
      { d with flags := if s.rxnum < rxsize - 1 then 0x8000 else 0xA000 }
    rxnum := if s.rxnum < rxsize - 1 then s.rxnum + 1 else 0
    pc := .report p
    released := s.released + 1 }

/-- The call of the parser. -/
def pollParsed (src : Source) (s : PollSys) (p : Poll) (buf : ℕ) : PollSys :=
  { s with
    pc := .release p buf
    parses := s.parses ++
      [{ parser := p.parser, buf := buf, len := (s.ring buf).length,
         data := load s.rxbufs (buf * src.mrbr) src.mrbr }] }

/-- The next statement of a poll. -/
def pollStatement (src : Source) (s : PollSys) : Option PollSys :=
  match s.pc with
  | .idle => none
  | .test p buf =>
      if hasFlag (s.ring buf).flags emptyFlag = false then some { s with pc := .parse p buf }
      else some { s with pc := .report p }
  | .parse p buf => some (pollParsed src s p buf)
  | .release p buf => some (pollReleased s p buf)
  | .report p =>
      some { s with
        pc := .idle
        notices := if p.reports && !s.active then s.notices + 1 else s.notices }

/-- One event.  The DMA stores into an empty descriptor; the flags it leaves have the empty
flag cleared, the wrap flag as it was, and the last flag on the last piece of a frame. -/
def pollStep (src : Source) (s : PollSys) : PollEvent → Option PollSys
  | .arrive f =>
      if s.active = true ∧ s.todo = [] then
        some { s with todo := f.pieces src.mrbr, frames := s.frames ++ [f] }
      else none
  | .store flags length =>
      match s.todo with
      | [] => none
      | piece :: rest =>
          if s.active = true ∧ s.empty s.dma = true ∧ hasFlag flags emptyFlag = false ∧
              hasFlag flags wrapFlag = hasFlag (s.ring s.dma).flags wrapFlag ∧
              hasFlag flags lastFlag = rest.isEmpty then
            some (pollStored src s piece rest ⟨length, flags⟩)
          else none
  | .stop =>
      if s.active = true ∧ s.empty s.dma = false then some { s with active := false } else none
  | .call p =>
      if s.pc = .idle ∧ p ∈ src.polls then some { s with pc := .test p s.rxnum } else none
  | .step => pollStatement src s

/-- What one event can do. -/
inductive PollMove (src : Source) (s : PollSys) : PollEvent → PollSys → Prop where
  | arrive {f} (hactive : s.active = true) (htodo : s.todo = []) :
      PollMove src s (.arrive f) { s with todo := f.pieces src.mrbr, frames := s.frames ++ [f] }
  | store {flags length piece rest} (htodo : s.todo = piece :: rest) (hactive : s.active = true)
      (hempty : s.empty s.dma = true) (hfull : hasFlag flags emptyFlag = false)
      (hwrap : hasFlag flags wrapFlag = hasFlag (s.ring s.dma).flags wrapFlag)
      (hlast : hasFlag flags lastFlag = rest.isEmpty) :
      PollMove src s (.store flags length) (pollStored src s piece rest ⟨length, flags⟩)
  | stop (hactive : s.active = true) (hfull : s.empty s.dma = false) :
      PollMove src s .stop { s with active := false }
  | call {p} (hpc : s.pc = .idle) (hp : p ∈ src.polls) :
      PollMove src s (.call p) { s with pc := .test p s.rxnum }
  | found {p buf} (hpc : s.pc = .test p buf) (h : s.empty buf = false) :
      PollMove src s .step { s with pc := .parse p buf }
  | pass {p buf} (hpc : s.pc = .test p buf) (h : s.empty buf = true) :
      PollMove src s .step { s with pc := .report p }
  | parse {p buf} (hpc : s.pc = .parse p buf) : PollMove src s .step (pollParsed src s p buf)
  | release {p buf} (hpc : s.pc = .release p buf) : PollMove src s .step (pollReleased s p buf)
  | report {p} (hpc : s.pc = .report p) :
      PollMove src s .step { s with
        pc := .idle
        notices := if p.reports && !s.active then s.notices + 1 else s.notices }

lemma PollMove.of_step {src : Source} {s s' : PollSys} {e : PollEvent}
    (h : pollStep src s e = some s') : PollMove src s e s' := by
  cases e with
  | arrive f =>
    simp only [pollStep, Option.ite_none_right_eq_some, Option.some.injEq] at h
    obtain ⟨⟨hactive, htodo⟩, rfl⟩ := h
    exact .arrive hactive htodo
  | store flags length =>
    cases htodo : s.todo with
    | nil => exact absurd h (by simp [pollStep, htodo])
    | cons piece rest =>
      simp only [pollStep, htodo, Option.ite_none_right_eq_some, Option.some.injEq] at h
      obtain ⟨⟨hactive, hempty, hfull, hwrap, hlast⟩, rfl⟩ := h
      exact .store htodo hactive hempty hfull hwrap hlast
  | stop =>
    simp only [pollStep, Option.ite_none_right_eq_some, Option.some.injEq] at h
    obtain ⟨⟨hactive, hfull⟩, rfl⟩ := h
    exact .stop hactive hfull
  | call p =>
    simp only [pollStep, Option.ite_none_right_eq_some, Option.some.injEq] at h
    obtain ⟨⟨hpc, hp⟩, rfl⟩ := h
    exact .call hpc hp
  | step =>
    cases hpc : s.pc with
    | idle => exact absurd h (by simp [pollStep, pollStatement, hpc])
    | test p buf =>
      simp only [pollStep, pollStatement, hpc] at h
      split at h
      · exact Option.some.inj h ▸ .found hpc ‹_›
      · exact Option.some.inj h ▸ .pass hpc (Bool.eq_true_of_not_eq_false ‹_›)
    | parse p buf =>
      simp only [pollStep, pollStatement, hpc, Option.some.injEq] at h
      exact h ▸ .parse hpc
    | release p buf =>
      simp only [pollStep, pollStatement, hpc, Option.some.injEq] at h
      exact h ▸ .release hpc
    | report p =>
      simp only [pollStep, pollStatement, hpc, Option.some.injEq] at h
      exact h ▸ .report hpc

/-! ### The invariant -/

/-- One piece has been given to the parser whose descriptor is still to be given back. -/
def PollPc.owes : PollPc → ℕ
  | .release _ _ => 1
  | _ => 0

/-- The local variable `buf`. -/
def PollPc.buf? : PollPc → Option ℕ
  | .test _ buf => some buf
  | .parse _ buf => some buf
  | .release _ buf => some buf
  | _ => none

/-- The place at which the sketch polls. -/
def PollPc.poll? : PollPc → Option Poll
  | .test p _ => some p
  | .parse p _ => some p
  | .release p _ => some p
  | _ => none

/-- The invariant of the polled ring.  The pieces from number `released` on are in the ring,
each in the buffer of its number modulo the size of the ring. -/
structure PollInv (src : Source) (s : PollSys) : Prop where
  wrap : ∀ i < rxsize, hasFlag (s.ring i).flags wrapFlag = true ↔ i + 1 = rxsize
  dma_eq : s.dma = s.stored.length % rxsize
  rxnum_eq : s.rxnum = s.released % rxsize
  buf_eq : ∀ buf, s.pc.buf? = some buf → buf = s.rxnum
  poll_mem : ∀ p, s.pc.poll? = some p → p ∈ src.polls
  found : ∀ p buf, s.pc = .parse p buf → s.released < s.stored.length
  owes : s.parses.length = s.released + s.pc.owes
  parsed_le : s.parses.length ≤ s.stored.length
  full_iff : ∀ i < rxsize, s.empty i = false ↔ Window rxsize s.released s.stored.length i
  le_ring : s.stored.length ≤ s.released + rxsize
  frames_eq : s.frames.flatMap (Frame.pieces src.mrbr) = s.stored ++ s.todo
  data : ∀ k (h : k < s.stored.length), s.released ≤ k →
    s.stored[k] <+: load s.rxbufs (k % rxsize * src.mrbr) src.mrbr
  parsed : List.Forall₂ (fun c piece => piece <+: c.data) s.parses (s.stored.take s.parses.length)
  parser_mem : ∀ c ∈ s.parses, c.parser ∈ src.polls.map Poll.parser

namespace PollInv

variable {src : Source} {s s' : PollSys} {e : PollEvent}

lemma init (src : Source) : PollInv src pollInit := by
  have hempty : ∀ i, pollInit.empty i = true := by
    intro i
    simp only [PollSys.empty, pollInit]
    split <;> decide
  refine { wrap := fun i _ => ?_, dma_eq := rfl, rxnum_eq := rfl, buf_eq := by rintro _ ⟨⟩
           poll_mem := by rintro _ ⟨⟩, found := by rintro _ _ ⟨⟩, owes := rfl
           parsed_le := le_rfl, full_iff := fun i _ => ?_, le_ring := Nat.zero_le _
           frames_eq := rfl, data := fun k h => absurd h (Nat.not_lt_zero k), parsed := .nil
           parser_mem := by simp [pollInit] }
  · by_cases hi : i + 1 = rxsize
    · simp only [pollInit, if_pos hi]
      exact iff_of_true (by decide) hi
    · simp only [pollInit, if_neg hi]
      exact iff_of_false (by decide) hi
  · exact iff_of_false (by simp [hempty]) not_window_self

lemma rxsize_pos : 0 < rxsize := by decide

lemma dma_lt (hi : PollInv src s) : s.dma < rxsize := by
  rw [hi.dma_eq]
  exact Nat.mod_lt _ rxsize_pos

lemma next_eq (hi : PollInv src s) {i : ℕ} (h : i < rxsize) : s.next i = (i + 1) % rxsize := by
  rw [← wrap_eq_mod h, PollSys.next]
  exact if_congr (hi.wrap i h) rfl rfl

lemma setPc (hi : PollInv src s) (pc : PollPc) (howes : pc.owes = s.pc.owes)
    (hbuf : ∀ buf, pc.buf? = some buf → buf = s.rxnum)
    (hpoll : ∀ p, pc.poll? = some p → p ∈ src.polls)
    (hfound : ∀ p buf, pc = .parse p buf → s.released < s.stored.length) :
    PollInv src { s with pc := pc } :=
  { hi with
    buf_eq := hbuf
    poll_mem := hpoll
    found := hfound
    owes := hi.owes.trans (by rw [howes]) }

lemma released_lt (hi : PollInv src s) (hfull : s.empty s.rxnum = false) :
    s.released < s.stored.length := by
  rw [hi.rxnum_eq] at hfull
  obtain ⟨k, hk, hlt, -⟩ := (hi.full_iff _ (Nat.mod_lt _ rxsize_pos)).mp hfull
  omega

lemma length_piece_le (hi : PollInv src s) {piece : List UInt8} (h : piece ∈ s.stored ++ s.todo) :
    piece.length ≤ src.mrbr := by
  rw [← hi.frames_eq, List.mem_flatMap] at h
  obtain ⟨f, -, hpiece⟩ := h
  obtain ⟨j, -, rfl⟩ := List.mem_map.mp hpiece
  rw [List.length_take]
  exact min_le_left _ _

lemma store (hi : PollInv src s) {piece : List UInt8} {rest : List (List UInt8)} {d : RxDesc}
    (htodo : s.todo = piece :: rest) (hempty : s.empty s.dma = true)
    (hfull : hasFlag d.flags emptyFlag = false)
    (hwrap : hasFlag d.flags wrapFlag = hasFlag (s.ring s.dma).flags wrapFlag) :
    PollInv src (pollStored src s piece rest d) := by
  have hlen : (pollStored src s piece rest d).stored.length = s.stored.length + 1 := by
    simp [pollStored]
  have hflag : ∀ i,
      (pollStored src s piece rest d).empty i = (s.empty i && decide (i ≠ s.dma)) := by
    intro i
    by_cases h : i = s.dma
    · simp [PollSys.empty, pollStored, h, hfull]
    · simp [PollSys.empty, pollStored, h]
  have hle : s.released ≤ s.stored.length := by
    have := hi.owes
    have := hi.parsed_le
    omega
  -- the next piece still has room, as its descriptor is empty
  have hroom : s.stored.length < s.released + rxsize := by
    have hnot : ¬ Window rxsize s.released s.stored.length (s.stored.length % rxsize) := by
      rw [← hi.dma_eq, ← hi.full_iff _ hi.dma_lt, hempty]
      simp
    rw [window_next_iff rxsize_pos hle hi.le_ring] at hnot
    have := hi.le_ring
    omega
  have hpiece : piece.length ≤ src.mrbr := hi.length_piece_le (by rw [htodo]; simp)
  refine { rxnum_eq := hi.rxnum_eq, buf_eq := hi.buf_eq, owes := hi.owes
           poll_mem := hi.poll_mem, parser_mem := hi.parser_mem
           wrap := fun i h => ?_, dma_eq := ?_, found := fun p buf h => ?_, parsed_le := ?_
           full_iff := fun i h => ?_, le_ring := ?_, frames_eq := ?_, data := fun k h hk => ?_
           parsed := ?_ }
  · rw [← hi.wrap i h, pollStored,
      apply_modifyAt (fun d => hasFlag d.flags wrapFlag) s.ring hwrap]
  · rw [hlen, pollStored, hi.next_eq hi.dma_lt, hi.dma_eq, mod_succ_eq]
  · exact (hi.found p buf h).trans (by omega)
  · exact hi.parsed_le.trans (by omega)
  · rw [hflag, hlen, show (pollStored src s piece rest d).released = s.released from rfl,
      window_succ hle, ← hi.full_iff i h, ← hi.dma_eq, Bool.and_eq_false_iff,
      decide_eq_false_iff_not, not_not]
  · rw [hlen]
    exact hroom
  · simp only [pollStored, List.append_assoc, List.singleton_append]
    rw [hi.frames_eq, htodo]
  · rw [hlen] at h
    simp only [pollStored] at hk ⊢
    rcases Nat.lt_or_ge k s.stored.length with hold | hnew
    · -- the pieces in the ring are in other buffers
      have hne : k % rxsize ≠ s.dma := by
        rw [hi.dma_eq]
        intro heq
        have := eq_of_mod_eq hk (by omega) hle hroom heq
        omega
      rw [List.getElem_append_left hold, load_store_of_disjoint]
      · exact hi.data k hold hk
      · rcases block_disjoint src.mrbr hne with h' | h'
        · exact Or.inl h'
        · exact Or.inr (by omega)
    · obtain rfl : k = s.stored.length := by omega
      rw [List.getElem_append_right le_rfl, ← hi.dma_eq]
      simp only [Nat.sub_self, List.getElem_cons_zero]
      have hload := load_prefix (Lib.store s.rxbufs (s.dma * src.mrbr) piece) (s.dma * src.mrbr)
        hpiece
      rwa [load_store] at hload
  · simp only [pollStored]
    rw [List.take_append_of_le_length hi.parsed_le]
    exact hi.parsed

lemma parse (hi : PollInv src s) {p : Poll} {buf : ℕ} (hpc : s.pc = .parse p buf) :
    PollInv src (pollParsed src s p buf) := by
  have hlt := hi.found p buf hpc
  have hlen : s.parses.length = s.released := by simpa [hpc, PollPc.owes] using hi.owes
  have hbuf : buf = s.released % rxsize := (hi.buf_eq buf (by rw [hpc]; rfl)).trans hi.rxnum_eq
  have hpoll : p ∈ src.polls := hi.poll_mem p (by rw [hpc]; rfl)
  refine { hi with buf_eq := ?_, poll_mem := ?_, found := by rintro _ _ ⟨⟩, owes := ?_
                   parsed_le := ?_, parsed := ?_, parser_mem := fun c hc => ?_ }
  · rintro _ ⟨⟩
    exact hi.buf_eq buf (by rw [hpc]; rfl)
  · rintro _ ⟨⟩
    exact hpoll
  · simp [pollParsed, PollPc.owes, hlen]
  · simp only [pollParsed, List.length_append, List.length_singleton, hlen]
    exact hlt
  · simp only [pollParsed, List.length_append, List.length_singleton]
    rw [List.take_succ_eq_append_getElem (by omega)]
    refine List.rel_append hi.parsed (.cons ?_ .nil)
    simp only [hlen, hbuf]
    exact hi.data s.released hlt le_rfl
  · rcases List.mem_append.mp hc with h | h
    · exact hi.parser_mem c h
    · obtain rfl := List.mem_singleton.mp h
      exact List.mem_map_of_mem hpoll

lemma release (hi : PollInv src s) {p : Poll} {buf : ℕ} (hpc : s.pc = .release p buf) :
    PollInv src (pollReleased s p buf) := by
  have hrxnum : buf = s.rxnum := hi.buf_eq buf (by rw [hpc]; rfl)
  have hbuf : buf = s.released % rxsize := hrxnum.trans hi.rxnum_eq
  have hlt : buf < rxsize := hbuf ▸ Nat.mod_lt _ rxsize_pos
  have howes : s.parses.length = s.released + 1 := by simpa [hpc, PollPc.owes] using hi.owes
  have hstored : s.released < s.stored.length := by
    have := hi.parsed_le
    omega
  have hflag : ∀ i, (pollReleased s p buf).empty i = (s.empty i || decide (i = buf)) := by
    intro i
    by_cases h : i = buf
    · subst h
      simp only [PollSys.empty, pollReleased, modifyAt_self, decide_true, Bool.or_true]
      split <;> decide
    · simp [PollSys.empty, pollReleased, h]
  refine { hi with wrap := fun i h => ?_, rxnum_eq := ?_, buf_eq := by rintro _ ⟨⟩
                   poll_mem := by rintro _ ⟨⟩
                   found := by rintro _ _ ⟨⟩, owes := ?_, full_iff := fun i h => ?_, le_ring := ?_
                   data := fun k h hk => hi.data k h (Nat.le_of_succ_le hk) }
  · by_cases heq : i = buf
    · subst heq
      simp only [pollReleased, modifyAt_self, ← hrxnum]
      by_cases hlast : i < rxsize - 1
      · rw [if_pos hlast]
        exact iff_of_false (by decide) (by omega)
      · rw [if_neg hlast]
        exact iff_of_true (by decide) (by omega)
    · simp only [pollReleased, modifyAt_of_ne _ _ heq]
      exact hi.wrap i h
  · simp only [pollReleased]
    rw [← mod_succ_eq, ← hbuf, hrxnum, ← wrap_eq_mod (hrxnum ▸ hlt)]
    by_cases hlast : s.rxnum < rxsize - 1
    · rw [if_pos hlast, if_neg (by omega)]
    · rw [if_neg hlast, if_pos (by omega)]
  · simp [pollReleased, PollPc.owes, howes]
  · rw [hflag, Bool.or_eq_false_iff, decide_eq_false_iff_not, hi.full_iff i h, hbuf]
    exact (window_drop hstored hi.le_ring).symm
  · have := hi.le_ring
    simp only [pollReleased]
    omega

lemma step (hi : PollInv src s) (h : pollStep src s e = some s') : PollInv src s' := by
  cases PollMove.of_step h with
  | arrive hactive htodo =>
    refine { hi with frames_eq := ?_ }
    have := hi.frames_eq
    rw [htodo, List.append_nil] at this
    rw [List.flatMap_append, this, List.flatMap_singleton]
  | store htodo hactive hempty hfull hwrap hlast => exact hi.store htodo hempty hfull hwrap
  | stop hactive hfull => exact { hi with }
  | call hpc hp =>
    exact hi.setPc _ (by rw [hpc]; rfl) (by rintro _ ⟨⟩; rfl) (by rintro _ ⟨⟩; exact hp)
      (by rintro _ _ ⟨⟩)
  | found hpc hfull =>
    have hbuf := hi.buf_eq _ (by rw [hpc]; rfl)
    have hpoll := hi.poll_mem _ (by rw [hpc]; rfl)
    refine hi.setPc _ (by rw [hpc]; rfl) (by rintro _ ⟨⟩; exact hbuf)
      (by rintro _ ⟨⟩; exact hpoll) ?_
    rintro _ _ ⟨⟩
    exact hi.released_lt (hbuf ▸ hfull)
  | pass hpc hempty =>
    exact hi.setPc _ (by rw [hpc]; rfl) (by rintro _ ⟨⟩) (by rintro _ ⟨⟩) (by rintro _ _ ⟨⟩)
  | parse hpc => exact hi.parse hpc
  | release hpc => exact hi.release hpc
  | report hpc =>
    have hres := hi.setPc .idle (by rw [hpc]; rfl) (by rintro _ ⟨⟩) (by rintro _ ⟨⟩)
      (by rintro _ _ ⟨⟩)
    exact { hres with }

lemma run {es : List PollEvent} {t : PollSys} (h : exec (pollStep src) pollInit es = some t) :
    PollInv src t :=
  exec_inv (fun _ _ _ hs hstep => hs.step hstep) (init src) h

end PollInv

/-! ### The receiver of `etherraw.ino` -/

/-- A piece that the DMA stores leaves it another empty descriptor. -/
def SpareDescriptor (s : PollSys) : PollEvent → Prop
  | .store _ _ => s.empty (s.next s.dma) = true
  | _ => True

instance (s : PollSys) (e : PollEvent) : Decidable (SpareDescriptor s e) :=
  PollEvent.casesOn e (fun _ => .isTrue trivial)
    (fun _ _ => inferInstanceAs (Decidable (s.empty (s.next s.dma) = true))) (.isTrue trivial)
    (fun _ => .isTrue trivial) (.isTrue trivial)

/-- The receiver is active and its descriptor is empty. -/
structure Receiving (src : Source) (s : PollSys) : Prop extends PollInv src s where
  active : s.active = true
  ready : s.empty s.dma = true

/-- No step stops a receiver that keeps a spare descriptor. -/
lemma Receiving.step {src : Source} {s s' : PollSys} {e : PollEvent} (hs : Receiving src s)
    (hspare : SpareDescriptor s e) (h : pollStep src s e = some s') : Receiving src s' := by
  have hinv := hs.toPollInv.step h
  cases PollMove.of_step h with
  | arrive => exact ⟨hinv, hs.active, hs.ready⟩
  | @store flags length piece rest _ _ _ hfull _ _ =>
    refine ⟨hinv, hs.active, ?_⟩
    have hdma := hs.dma_lt
    have hne : s.next s.dma ≠ s.dma := by
      rw [hs.next_eq hdma]
      simp only [rxsize] at hdma ⊢
      omega
    have hkeep : (pollStored src s piece rest ⟨length, flags⟩).empty (s.next s.dma) =
        s.empty (s.next s.dma) := by
      simp [PollSys.empty, pollStored, hne]
    exact hkeep.trans hspare
  | stop _ hfull => exact absurd (hs.ready.symm.trans hfull) (by simp)
  | call => exact ⟨hinv, hs.active, hs.ready⟩
  | found => exact ⟨hinv, hs.active, hs.ready⟩
  | pass => exact ⟨hinv, hs.active, hs.ready⟩
  | parse => exact ⟨hinv, hs.active, hs.ready⟩
  | @release p buf hpc =>
    refine ⟨hinv, hs.active, ?_⟩
    by_cases hbuf : s.dma = buf
    · simp only [PollSys.empty, pollReleased, hbuf, modifyAt_self]
      split <;> decide
    · simpa only [PollSys.empty, pollReleased, modifyAt_of_ne _ _ hbuf] using hs.ready
  | report => exact ⟨hinv, hs.active, hs.ready⟩

/-- **The receiver of `etherraw.ino` is not left stopped with a free descriptor** in any run
in which no frame takes the last empty descriptor of the ring. -/
theorem etherraw_receiver_active (es : List PollEvent) {t : PollSys}
    (hspare : Admits (pollStep etherraw) SpareDescriptor pollInit es)
    (hrun : exec (pollStep etherraw) pollInit es = some t) :
    t.pc = .idle → t.empty t.dma = true → t.active = true := by
  have hinit : Receiving etherraw pollInit := ⟨PollInv.init etherraw, rfl, by decide⟩
  have hrecv : Receiving etherraw t :=
    exec_inv_of_admits (fun _ _ _ hs hok hstep => hs.step hok hstep) hinit hspare hrun
  exact fun _ _ => hrecv.active

/-- A short frame. -/
def shortFrame : Frame := ⟨List.replicate 60 7, by decide, by decide⟩

/-- A frame arrives and is parsed by `check_rx`. -/
theorem etherraw_receiver_active_one_frame :
    let es : List PollEvent := [.arrive shortFrame, .store lastFlag 64, .call checkRx, .step, .step,
      .step, .step]
    ∃ t, exec (pollStep etherraw) pollInit es = some t ∧ t.pc = .idle ∧ t.empty t.dma = true ∧
      t.parses.length = 1 ∧ t.active = true := by
  intro es
  have hspare : Admits (pollStep etherraw) SpareDescriptor pollInit es := by decide +kernel
  have hrun : (exec (pollStep etherraw) pollInit es).map
      (fun t => (t.pc, t.empty t.dma, t.parses.length)) = some (.idle, true, 1) := by
    decide +kernel
  obtain ⟨t, ht, hview⟩ := Option.map_eq_some_iff.mp hrun
  simp only [Prod.mk.injEq] at hview
  obtain ⟨hpc, hempty, hparses⟩ := hview
  exact ⟨t, ht, hpc, hempty, hparses, etherraw_receiver_active es hspare ht hpc hempty⟩

lemma pollStep_inactive {src : Source} {s s' : PollSys} {e : PollEvent}
    (hs : s.active = false) (h : pollStep src s e = some s') : s'.active = false := by
  cases PollMove.of_step h with
  | stop => rfl
  | _ => exact hs

/-- Twelve frames arrive before the sketch looks at the ring: the receiver stops, and stays
stopped for ever although `check_rx` has given its descriptor back. -/
theorem etherraw_receiver_stuck :
    ∃ es t, exec (pollStep etherraw) pollInit es = some t ∧ t.pc = .idle ∧
      t.empty t.dma = true ∧ t.active = false ∧
      ∀ es' t', exec (pollStep etherraw) t es' = some t' → t'.active = false := by
  let es : List PollEvent :=
    (List.replicate 11 [.arrive shortFrame, .store lastFlag 64]).flatten ++
      [.arrive shortFrame, .store (lastFlag ||| wrapFlag) 64, .stop, .call checkRx, .step, .step,
        .step, .step]
  have hrun : (exec (pollStep etherraw) pollInit es).map
      (fun t => (t.pc, t.empty t.dma, t.active)) = some (.idle, true, false) := by
    decide +kernel
  obtain ⟨t, ht, hview⟩ := Option.map_eq_some_iff.mp hrun
  simp only [Prod.mk.injEq] at hview
  obtain ⟨hpc, hempty, hactive⟩ := hview
  refine ⟨es, t, ht, hpc, hempty, hactive, fun es' t' hrun' => ?_⟩
  exact exec_inv (P := fun s => s.active = false) (fun _ _ _ hs hstep => pollStep_inactive hs hstep)
    hactive hrun'

end Teensy41Ethernet.Sketch
