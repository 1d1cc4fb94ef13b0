import Teensy41Ethernet.Lib.Run
import Teensy41Ethernet.Lib.Memory
import Teensy41Ethernet.Lib.Ring
import Teensy41Ethernet.Lwip.Pbuf
import Teensy41Ethernet.Driver.Descriptor

/-!
# The receive ring

`enet_rx_next` looks for a descriptor that the DMA has filled and copies its frame into a
packet buffer.  The search, `rxbd_next`, starts at `p_rxbd`, goes at most once round the
ring and takes the first descriptor whose empty bit is clear; `p_rxbd` then moves on by one
descriptor, whichever one was taken.  The DMA fills the descriptors in ring order, as long
as they are empty, and may do so between any two statements of the search.

The system of this file takes one statement of `enet_rx_next`, or one fill of the DMA, at a
time.  Its first main result, `rx_ring_handover`, says that no frame is lost or taken twice
and that the two sides agree again whenever the ring is empty: the number of frames filled
and the number of frames taken determine where both are.
-/

namespace Teensy41Ethernet.Driver

open Lib Lwip

/-! ### The system -/

/-- The fields of `enetbufferdesc_t` that the receive side uses.  The `buffer` field of
descriptor `i` is `&rxbufs[i * BFSIZE]` and never changes. -/
structure RxBd where
  length : ℕ
  status : BitVec 16

/-- What the DMA writes when it fills a descriptor. -/
structure RxFill where
  status : BitVec 16
  length : ℕ
  data : List UInt8

/-- Where the code of `enet_rx_next` is, with its local variables. -/
inductive RxPc where
  /-- Outside the function, which last returned `p`. -/
  | returned (p : Option Chain)
  /-- At `while (p_bd->status & kEnetRxBdEmpty)` in `rxbd_next`. -/
  | scan (bd : ℕ)
  /-- At `if (p_bd->status & kEnetRxBdWrap)` and the comparison with `p_rxbd`. -/
  | wrap (bd : ℕ)
  /-- At `if (p_rxbd->status & kEnetRxBdWrap)`, with `p_bd` found. -/
  | advance (bd : ℕ)
  /-- At the start of `t41_low_level_input(bd)`. -/
  | input (bd : ℕ)
  /-- At `bdPtr->status = (bdPtr->status & kEnetRxBdWrap) | kEnetRxBdEmpty;`. -/
  | release (bd : ℕ) (p : Option Chain)
  /-- At `ENET_RDAR = ENET_RDAR_RDAR;`. -/
  | rdar (p : Option Chain)
deriving DecidableEq

/-- What a descriptor goes through. -/
inductive RxAct where
  | fill (i : ℕ)
  | handover (i : ℕ)

/-- The receive ring with its two users.  `dma` is the descriptor the DMA fills next.  The
other fields record the run: the number of fills, the number of the fill that each
descriptor holds, the numbers handed to `t41_low_level_input` and what it made of them, the
number of descriptors given back, and the fills and handovers in order. -/
structure RxSys where
  ring : ℕ → RxBd
  rxbufs : ℕ → UInt8
  pRxbd : ℕ
  dma : ℕ
  pc : RxPc
  fills : ℕ
  serial : ℕ → ℕ
  handed : List ℕ
  results : List (ℕ × Option Chain)
  released : ℕ
  log : List RxAct

/-- The part of `t41_low_level_init` that sets up the receive ring. -/
def rxInit (b : Board) : RxSys where
  ring i :=
    { length := 0
      status := if i + 1 = b.rxSize then kEnetRxBdEmpty ||| kEnetRxBdWrap else kEnetRxBdEmpty }
  rxbufs _ := 0
  pRxbd := 0
  dma := 0
  pc := .returned none
  fills := 0
  serial _ := 0
  handed := []
  results := []
  released := 0
  log := []

/-- The descriptor holds a frame that has not been given back. -/
def RxSys.filled (s : RxSys) (i : ℕ) : Bool := !hasFlag (s.ring i).status kEnetRxBdEmpty

/-- The descriptor after `i`: the first one after a descriptor with the wrap bit. -/
def nextRxbd (s : RxSys) (i : ℕ) : ℕ := if hasFlag (s.ring i).status kEnetRxBdWrap then 0 else i + 1

/-- `err_mask` of `t41_low_level_input`. -/
def rxErrMask : BitVec 16 :=
  kEnetRxBdTrunc ||| kEnetRxBdCrc ||| kEnetRxBdNoOctet ||| kEnetRxBdLengthViolation

/-- The packet that `t41_low_level_input` makes of a descriptor, with `free` members left in
the pool. -/
def t41LowLevelInput (b : Board) (s : RxSys) (bd free : ℕ) : Option Chain :=
  if hasFlag (s.ring bd).status rxErrMask then none
  else
    (pbufAlloc (s.ring bd).length free).map fun p =>
      (pbufTake p (load s.rxbufs (bd * b.bfsize) (totLen p))).getD p

lemma t41LowLevelInput_eq_none_iff (b : Board) (s : RxSys) (bd free : ℕ) :
    t41LowLevelInput b s bd free = none ↔
      hasFlag (s.ring bd).status rxErrMask = true ∨ pbufAlloc (s.ring bd).length free = none := by
  rw [t41LowLevelInput]
  split
  · rename_i herr
    exact iff_of_true rfl (Or.inl herr)
  · rename_i herr
    rw [Option.map_eq_none_iff, or_iff_right herr]

/-- What happens to the receive ring: a call of `enet_rx_next`, its next statement with
`free` members left in the pool, or a fill by the DMA. -/
inductive RxEvent where
  | call
  | step (free : ℕ)
  | fill (f : RxFill)

/-- The state after `t41_low_level_input` has given its descriptor back to the DMA. -/
def rxGiveBack (s : RxSys) (bd : ℕ) (p : Option Chain) : RxSys :=
  { s with
    ring := modifyAt s.ring bd fun d => { d with status := rxReleased d.status }
    pc := .rdar p
    released := s.released + 1 }

/-- The next statement of `enet_rx_next`. -/
def rxStatement (b : Board) (s : RxSys) (free : ℕ) : Option RxSys :=
  match s.pc with
  | .returned _ => none
  | .scan bd =>
      if hasFlag (s.ring bd).status kEnetRxBdEmpty then some { s with pc := .wrap bd }
      else some { s with pc := .advance bd }
  | .wrap bd =>
      if nextRxbd s bd = s.pRxbd then some { s with pc := .returned none }
      else some { s with pc := .scan (nextRxbd s bd) }
  | .advance bd =>
      some { s with
        pRxbd := nextRxbd s s.pRxbd
        pc := .input bd
        handed := s.handed ++ [s.serial bd]
        log := s.log ++ [.handover bd] }
  | .input bd =>
      some { s with
        pc := .release bd (t41LowLevelInput b s bd free)
        results := s.results ++ [(s.serial bd, t41LowLevelInput b s bd free)] }
  | .release bd p => some (rxGiveBack s bd p)
  | .rdar p => some { s with pc := .returned p }

/-- The state after the DMA has filled its descriptor. -/
def rxFilled (b : Board) (s : RxSys) (f : RxFill) : RxSys :=
  { s with
    ring := modifyAt s.ring s.dma fun _ => { length := f.length, status := f.status }
    rxbufs := store s.rxbufs (s.dma * b.bfsize) f.data
    dma := nextRxbd s s.dma
    fills := s.fills + 1
    serial := modifyAt s.serial s.dma fun _ => s.fills
    log := s.log ++ [.fill s.dma] }

/-- One event.  The DMA fills only an empty descriptor; the status it leaves has the empty
bit cleared and the wrap bit as it was, and it writes at most one buffer. -/
def rxStep (b : Board) (s : RxSys) : RxEvent → Option RxSys
  | .call =>
      match s.pc with
      | .returned _ => some { s with pc := .scan s.pRxbd }
      | _ => none
  | .step free => rxStatement b s free
  | .fill f =>
      if hasFlag (s.ring s.dma).status kEnetRxBdEmpty = true ∧
          hasFlag f.status kEnetRxBdEmpty = false ∧
          hasFlag f.status kEnetRxBdWrap = hasFlag (s.ring s.dma).status kEnetRxBdWrap ∧
          f.data.length ≤ b.bfsize then
        some (rxFilled b s f)
      else none

/-- What one event can do. -/
inductive RxMove (b : Board) (s : RxSys) : RxEvent → RxSys → Prop where
  | call {p} (hpc : s.pc = .returned p) : RxMove b s .call { s with pc := .scan s.pRxbd }
  | pass {bd free} (hpc : s.pc = .scan bd) (h : s.filled bd = false) :
      RxMove b s (.step free) { s with pc := .wrap bd }
  | found {bd free} (hpc : s.pc = .scan bd) (h : s.filled bd = true) :
      RxMove b s (.step free) { s with pc := .advance bd }
  | round {bd free} (hpc : s.pc = .wrap bd) (h : nextRxbd s bd = s.pRxbd) :
      RxMove b s (.step free) { s with pc := .returned none }
  | next {bd free} (hpc : s.pc = .wrap bd) (h : nextRxbd s bd ≠ s.pRxbd) :
      RxMove b s (.step free) { s with pc := .scan (nextRxbd s bd) }
  | advance {bd free} (hpc : s.pc = .advance bd) :
      RxMove b s (.step free) { s with
        pRxbd := nextRxbd s s.pRxbd
        pc := .input bd
        handed := s.handed ++ [s.serial bd]
        log := s.log ++ [.handover bd] }
  | input {bd free} (hpc : s.pc = .input bd) :
      RxMove b s (.step free) { s with
        pc := .release bd (t41LowLevelInput b s bd free)
        results := s.results ++ [(s.serial bd, t41LowLevelInput b s bd free)] }
  | release {bd p free} (hpc : s.pc = .release bd p) :
      RxMove b s (.step free) (rxGiveBack s bd p)
  | rdar {p free} (hpc : s.pc = .rdar p) : RxMove b s (.step free) { s with pc := .returned p }
  | fill {f} (hempty : s.filled s.dma = false) (hfull : hasFlag f.status kEnetRxBdEmpty = false)
      (hwrap : hasFlag f.status kEnetRxBdWrap = hasFlag (s.ring s.dma).status kEnetRxBdWrap)
      (hfit : f.data.length ≤ b.bfsize) : RxMove b s (.fill f) (rxFilled b s f)

lemma filled_eq_false {s : RxSys} {i : ℕ} :
    s.filled i = false ↔ hasFlag (s.ring i).status kEnetRxBdEmpty = true := by
  rw [RxSys.filled, Bool.not_eq_false']

lemma filled_eq_true {s : RxSys} {i : ℕ} :
    s.filled i = true ↔ ¬ hasFlag (s.ring i).status kEnetRxBdEmpty = true := by
  rw [RxSys.filled, Bool.not_eq_true', Bool.not_eq_true]

lemma RxMove.of_step {b : Board} {s s' : RxSys} {e : RxEvent} (h : rxStep b s e = some s') :
    RxMove b s e s' := by
  cases e with
  | call =>
    cases hpc : s.pc with
    | returned p =>
      simp only [rxStep, hpc, Option.some.injEq] at h
      exact h ▸ .call hpc
    | _ => exact absurd h (by simp [rxStep, hpc])
  | step free =>
    cases hpc : s.pc with
    | returned p => exact absurd h (by simp [rxStep, rxStatement, hpc])
    | scan bd =>
      simp only [rxStep, rxStatement, hpc] at h
      split at h
      · exact Option.some.inj h ▸ .pass hpc (filled_eq_false.mpr ‹_›)
      · exact Option.some.inj h ▸ .found hpc (filled_eq_true.mpr ‹_›)
    | wrap bd =>
      simp only [rxStep, rxStatement, hpc] at h
      split at h
      · exact Option.some.inj h ▸ .round hpc ‹_›
      · exact Option.some.inj h ▸ .next hpc ‹_›
    | advance bd =>
      simp only [rxStep, rxStatement, hpc, Option.some.injEq] at h
      exact h ▸ .advance hpc
    | input bd =>
      simp only [rxStep, rxStatement, hpc, Option.some.injEq] at h
      exact h ▸ .input hpc
    | release bd p =>
      simp only [rxStep, rxStatement, hpc, Option.some.injEq] at h
      exact h ▸ .release hpc
    | rdar p =>
      simp only [rxStep, rxStatement, hpc, Option.some.injEq] at h
      exact h ▸ .rdar hpc
  | fill f =>
    simp only [rxStep, Option.ite_none_right_eq_some, Option.some.injEq] at h
    obtain ⟨⟨hempty, hfull, hwrap, hfit⟩, rfl⟩ := h
    exact .fill (filled_eq_false.mpr hempty) hfull hwrap hfit

/-! ### What the two ways to change the ring do -/

section Changes

variable {b : Board} {s : RxSys} {i bd : ℕ} {f : RxFill}

lemma filled_rxFilled (hfull : hasFlag f.status kEnetRxBdEmpty = false) :
    (rxFilled b s f).filled i = (s.filled i || decide (i = s.dma)) := by
  by_cases h : i = s.dma
  · simp [RxSys.filled, rxFilled, h, hfull]
  · simp [RxSys.filled, rxFilled, h]

lemma filled_rxGiveBack {p : Option Chain} :
    (rxGiveBack s bd p).filled i = (s.filled i && decide (i ≠ bd)) := by
  by_cases h : i = bd
  · simp [RxSys.filled, rxGiveBack, h]
  · simp [RxSys.filled, rxGiveBack, h]

end Changes

/-! ### The invariant -/

/-- The descriptor that `t41_low_level_input` works on. -/
def RxPc.taken : RxPc → Option ℕ
  | .input bd => some bd
  | .release bd _ => some bd
  | _ => none

/-- The local variable `p_bd` of `rxbd_next`. -/
def RxPc.cursor : RxPc → Option ℕ
  | .scan bd => some bd
  | .wrap bd => some bd
  | .advance bd => some bd
  | _ => none

/-- One entry of the log, seen from descriptor `i`: `some true` if a fill is to be handed
over, `some false` if none is, and `none` once a fill was overwritten or handed over twice. -/
def owedStep (i : ℕ) (o : Option Bool) (a : RxAct) : Option Bool :=
  match o, a with
  | none, _ => none
  | some owed, .fill j => if j ≠ i then some owed else if owed then none else some true
  | some owed, .handover j => if j ≠ i then some owed else if owed then some false else none

/-- The whole log, seen from descriptor `i`. -/
def owed (i : ℕ) (log : List RxAct) : Option Bool := log.foldl (owedStep i) (some false)

lemma owed_concat (i : ℕ) (log : List RxAct) (a : RxAct) :
    owed i (log ++ [a]) = owedStep i (owed i log) a := by
  rw [owed, List.foldl_append]
  rfl

/-- The descriptors that hold a frame. -/
def RxSys.filledSet (b : Board) (s : RxSys) : Finset ℕ :=
  (Finset.range b.rxSize).filter fun i => s.filled i = true

/-- The invariant of the receive ring. -/
structure RxInv (b : Board) (s : RxSys) : Prop where
  wrap : ∀ i < b.rxSize, hasFlag (s.ring i).status kEnetRxBdWrap = true ↔ i + 1 = b.rxSize
  dma_eq : s.dma = s.fills % b.rxSize
  ptr_eq : s.pRxbd = s.handed.length % b.rxSize
  card_eq : (s.filledSet b).card + s.released = s.fills
  handed_eq : s.handed.length = s.released + s.pc.taken.toList.length
  cursor_lt : ∀ bd, s.pc.cursor = some bd → bd < b.rxSize
  found : ∀ bd, s.pc = .advance bd → s.filled bd = true
  taken : ∀ bd, s.pc.taken = some bd → bd < b.rxSize ∧ s.filled bd = true
  owed_eq : ∀ i < b.rxSize, owed i s.log = some (s.filled i && decide (s.pc.taken ≠ some i))

namespace RxInv

variable {b : Board} {s s' : RxSys} {e : RxEvent}

lemma init (b : Board) : RxInv b (rxInit b) := by
  have hempty : ∀ i, (rxInit b).filled i = false := by
    intro i
    rw [filled_eq_false]
    by_cases hi : i + 1 = b.rxSize
    · simp only [rxInit, if_pos hi]
      decide
    · simp only [rxInit, if_neg hi]
      decide
  refine { wrap := fun i _ => ?_, dma_eq := (Nat.zero_mod _).symm, ptr_eq := (Nat.zero_mod _).symm,
           card_eq := ?_, handed_eq := rfl, cursor_lt := by rintro _ ⟨⟩
           found := by rintro _ ⟨⟩, taken := by rintro _ ⟨⟩,
           owed_eq := fun i _ => ?_ }
  · by_cases hi : i + 1 = b.rxSize
    · simp only [rxInit, if_pos hi]
      exact iff_of_true (by decide) hi
    · simp only [rxInit, if_neg hi]
      exact iff_of_false (by decide) hi
  · simp only [RxSys.filledSet, hempty, Bool.false_eq_true, Finset.filter_false, Finset.card_empty]
    rfl
  · rw [hempty]
    rfl

lemma nextRxbd_eq (hi : RxInv b s) {i : ℕ} (h : i < b.rxSize) :
    nextRxbd s i = (i + 1) % b.rxSize := by
  rw [← wrap_eq_mod h, nextRxbd]
  exact if_congr (hi.wrap i h) rfl rfl

lemma nextRxbd_lt (hi : RxInv b s) {i : ℕ} (h : i < b.rxSize) : nextRxbd s i < b.rxSize := by
  rw [hi.nextRxbd_eq h]
  exact Nat.mod_lt _ b.rx_pos

lemma pRxbd_lt (hi : RxInv b s) : s.pRxbd < b.rxSize := by
  rw [hi.ptr_eq]
  exact Nat.mod_lt _ b.rx_pos

lemma dma_lt (hi : RxInv b s) : s.dma < b.rxSize := by
  rw [hi.dma_eq]
  exact Nat.mod_lt _ b.rx_pos

lemma setPc (hi : RxInv b s) (pc : RxPc) (ht : pc.taken = s.pc.taken)
    (hcursor : ∀ bd, pc.cursor = some bd → bd < b.rxSize)
    (hfound : ∀ bd, pc = .advance bd → s.filled bd = true) : RxInv b { s with pc := pc } :=
  { hi with
    handed_eq := by simpa only [ht] using hi.handed_eq
    cursor_lt := hcursor
    found := hfound
    taken := fun bd h => hi.taken bd (ht ▸ h)
    owed_eq := fun i h => (hi.owed_eq i h).trans (by simp only [ht]; rfl) }

lemma advance (hi : RxInv b s) {bd : ℕ} (hpc : s.pc = .advance bd) :
    RxInv b { s with
      pRxbd := nextRxbd s s.pRxbd
      pc := .input bd
      handed := s.handed ++ [s.serial bd]
      log := s.log ++ [.handover bd] } := by
  have hlt := hi.cursor_lt bd (by rw [hpc]; rfl)
  have hfound := hi.found bd hpc
  refine { hi with ptr_eq := ?_, handed_eq := ?_, cursor_lt := by rintro _ ⟨⟩
                   found := by rintro _ ⟨⟩
                   taken := ?_, owed_eq := fun i h => ?_ }
  · rw [hi.nextRxbd_eq hi.pRxbd_lt, hi.ptr_eq, mod_succ_eq]
    simp
  · simpa [hpc, RxPc.taken] using hi.handed_eq
  · rintro _ ⟨⟩
    exact ⟨hlt, hfound⟩
  · have howed := hi.owed_eq i h
    simp only [hpc, RxPc.taken, ne_eq, reduceCtorEq, not_false_eq_true, decide_true,
      Bool.and_true] at howed
    rw [owed_concat, howed]
    by_cases hbd : bd = i
    · subst hbd
      simp [owedStep, hfound, RxPc.taken]
    · simp [owedStep, hbd, RxPc.taken, RxSys.filled]

lemma release (hi : RxInv b s) {bd : ℕ} {p : Option Chain} (hpc : s.pc = .release bd p) :
    RxInv b (rxGiveBack s bd p) := by
  obtain ⟨hlt, hfilled⟩ := hi.taken bd (by rw [hpc]; rfl)
  refine { hi with wrap := fun i h => ?_, card_eq := ?_, handed_eq := ?_
                   cursor_lt := by rintro _ ⟨⟩
                   found := by rintro _ ⟨⟩, taken := by rintro _ ⟨⟩, owed_eq := fun i h => ?_ }
  · rw [← hi.wrap i h, rxGiveBack,
      apply_modifyAt (fun d => hasFlag d.status kEnetRxBdWrap) s.ring (by simp)]
  · have herase : (rxGiveBack s bd p).filledSet b = (s.filledSet b).erase bd := by
      ext i
      simp only [RxSys.filledSet, filled_rxGiveBack, Finset.mem_filter, Finset.mem_erase,
        Bool.and_eq_true, decide_eq_true_eq]
      tauto
    have hmem : bd ∈ s.filledSet b :=
      Finset.mem_filter.mpr ⟨Finset.mem_range.mpr hlt, hfilled⟩
    have hcard := Finset.card_erase_add_one hmem
    have := hi.card_eq
    rw [herase, rxGiveBack]
    simp only
    omega
  · simpa [hpc, RxPc.taken, rxGiveBack] using hi.handed_eq
  · rw [filled_rxGiveBack]
    refine (hi.owed_eq i h).trans ?_
    rw [hpc]
    by_cases hbd : i = bd
    · simp [RxPc.taken, rxGiveBack, hbd]
    · simp [RxPc.taken, rxGiveBack, hbd, Ne.symm hbd]

lemma fill (hi : RxInv b s) {f : RxFill} (hempty : s.filled s.dma = false)
    (hfull : hasFlag f.status kEnetRxBdEmpty = false)
    (hwrap : hasFlag f.status kEnetRxBdWrap = hasFlag (s.ring s.dma).status kEnetRxBdWrap) :
    RxInv b (rxFilled b s f) := by
  have hle : ∀ i, s.filled i = true → (rxFilled b s f).filled i = true := by
    intro i h
    rw [filled_rxFilled hfull, h, Bool.true_or]
  refine { ptr_eq := hi.ptr_eq, handed_eq := hi.handed_eq, cursor_lt := hi.cursor_lt
           wrap := fun i h => ?_, dma_eq := ?_, card_eq := ?_
           found := fun bd h => hle bd (hi.found bd h)
           taken := fun bd h => (hi.taken bd h).imp id (hle bd), owed_eq := fun i h => ?_ }
  · rw [← hi.wrap i h, rxFilled,
      apply_modifyAt (fun d => hasFlag d.status kEnetRxBdWrap) s.ring hwrap]
  · rw [rxFilled, hi.nextRxbd_eq hi.dma_lt, hi.dma_eq, mod_succ_eq]
  · have hinsert : (rxFilled b s f).filledSet b = insert s.dma (s.filledSet b) := by
      ext i
      have hdma := hi.dma_lt
      simp only [RxSys.filledSet, filled_rxFilled hfull, Finset.mem_filter, Finset.mem_insert,
        Finset.mem_range, Bool.or_eq_true, decide_eq_true_eq]
      constructor
      · rintro ⟨h, h' | h'⟩
        · exact Or.inr ⟨h, h'⟩
        · exact Or.inl h'
      · rintro (rfl | ⟨h, h'⟩)
        · exact ⟨hdma, Or.inr rfl⟩
        · exact ⟨h, Or.inl h'⟩
    have hnot : s.dma ∉ s.filledSet b := by simp [RxSys.filledSet, hempty]
    have := hi.card_eq
    rw [hinsert, Finset.card_insert_of_notMem hnot, rxFilled]
    simp only
    omega
  · have htaken : s.pc.taken ≠ some s.dma := by
      intro h'
      rw [(hi.taken _ h').2] at hempty
      exact absurd hempty (by simp)
    rw [filled_rxFilled hfull, rxFilled, owed_concat, hi.owed_eq i h]
    by_cases hdma : i = s.dma
    · subst hdma
      simp [owedStep, hempty, htaken]
    · simp [owedStep, hdma, Ne.symm hdma]

lemma step (hi : RxInv b s) (h : rxStep b s e = some s') : RxInv b s' := by
  cases RxMove.of_step h with
  | call hpc =>
    exact hi.setPc _ (by rw [hpc]; rfl) (by rintro _ ⟨⟩; exact hi.pRxbd_lt) (by rintro _ ⟨⟩)
  | pass hpc _ =>
    have hlt := hi.cursor_lt _ (by rw [hpc]; rfl)
    exact hi.setPc _ (by rw [hpc]; rfl) (by rintro _ ⟨⟩; exact hlt) (by rintro _ ⟨⟩)
  | found hpc hfound =>
    have hlt := hi.cursor_lt _ (by rw [hpc]; rfl)
    exact hi.setPc _ (by rw [hpc]; rfl) (by rintro _ ⟨⟩; exact hlt) (by rintro _ ⟨⟩; exact hfound)
  | round hpc _ => exact hi.setPc _ (by rw [hpc]; rfl) (by rintro _ ⟨⟩) (by rintro _ ⟨⟩)
  | next hpc _ =>
    have hlt := hi.cursor_lt _ (by rw [hpc]; rfl)
    exact hi.setPc _ (by rw [hpc]; rfl) (by rintro _ ⟨⟩; exact hi.nextRxbd_lt hlt) (by rintro _ ⟨⟩)
  | advance hpc => exact hi.advance hpc
  | @input bd free hpc =>
    have hres := hi.setPc (.release bd (t41LowLevelInput b s bd free)) (by rw [hpc]; rfl)
      (by rintro _ ⟨⟩) (by rintro _ ⟨⟩)
    exact { hres with }
  | release hpc => exact hi.release hpc
  | rdar hpc => exact hi.setPc _ (by rw [hpc]; rfl) (by rintro _ ⟨⟩) (by rintro _ ⟨⟩)
  | fill hempty hfull hwrap _ => exact hi.fill hempty hfull hwrap

lemma run {es : List RxEvent} (h : exec (rxStep b) (rxInit b) es = some s) : RxInv b s :=
  exec_inv (fun _ _ _ hs hstep => hs.step hstep) (init b) h

lemma card_le (b : Board) (s : RxSys) : (s.filledSet b).card ≤ b.rxSize :=
  (Finset.card_filter_le _ _).trans (Finset.card_range _).le

/-- If all descriptors are empty, everything filled has been taken and given back. -/
lemma pRxbd_eq_dma (hi : RxInv b s) (hempty : ∀ i < b.rxSize, s.filled i = false) :
    s.pRxbd = s.dma := by
  have hcard : (s.filledSet b).card = 0 := by
    rw [Finset.card_eq_zero, RxSys.filledSet, Finset.filter_eq_empty_iff]
    intro i hi'
    rw [hempty i (Finset.mem_range.mp hi')]
    exact Bool.false_ne_true
  have htaken : s.pc.taken = none := by
    cases ht : s.pc.taken with
    | none => rfl
    | some bd =>
      obtain ⟨hlt, hfilled⟩ := hi.taken bd ht
      rw [hempty bd hlt] at hfilled
      exact absurd hfilled Bool.false_ne_true
  have hfills := hi.card_eq
  have hhanded := hi.handed_eq
  rw [htaken, Option.toList_none, List.length_nil] at hhanded
  rw [hi.ptr_eq, hi.dma_eq, hhanded, ← hfills, hcard]
  simp

end RxInv

/-- **No frame is lost or taken twice, and the two sides meet again.**  In every state
reached by fills of the DMA between any two statements of `enet_rx_next`: every fill of a
descriptor has been handed to `t41_low_level_input` once, or once is still to be, and was
if the descriptor can be filled again; the descriptors that hold a frame are as many as
fills without the frames given back, at most the ring; `p_rxbd` is a descriptor of the ring;
and if all descriptors are empty it is the one that the DMA fills next. -/
theorem rx_ring_handover (b : Board) (es : List RxEvent) {t : RxSys}
    (hrun : exec (rxStep b) (rxInit b) es = some t) :
    (∀ i < b.rxSize, ∃ o, owed i t.log = some o ∧ (t.filled i = false → o = false)) ∧
    ((t.filledSet b).card = t.fills - t.released ∧ t.released ≤ t.fills ∧
      (t.filledSet b).card ≤ b.rxSize) ∧
    t.pRxbd < b.rxSize ∧
    ((∀ i < b.rxSize, t.filled i = false) → t.pRxbd = t.dma) := by
  have hi := RxInv.run hrun
  have hcard := hi.card_eq
  refine ⟨fun i h => ⟨_, hi.owed_eq i h, fun hempty => by rw [hempty, Bool.false_and]⟩,
    ⟨by omega, by omega, RxInv.card_le b t⟩, hi.pRxbd_lt, hi.pRxbd_eq_dma⟩

/-- Three fills, the third during the search of a call, and two frames taken. -/
theorem rx_ring_handover_three_fills :
    let f : RxFill := ⟨kEnetRxBdLast, 1, [7]⟩
    let es : List RxEvent := [.fill f, .fill f, .call, .step 0, .fill f, .step 0, .step 1, .step 0,
      .step 0, .call, .step 0, .step 0, .step 1, .step 0, .step 0]
    ∃ t, exec (rxStep t41) (rxInit t41) es = some t ∧ t.fills = 3 ∧ t.released = 2 ∧
      (t.filledSet t41).card = t.fills - t.released ∧ t.pRxbd < t41.rxSize := by
  intro f es
  have hcount : (exec (rxStep t41) (rxInit t41) es).map (fun t => (t.fills, t.released))
      = some (3, 2) := by
    decide +kernel
  obtain ⟨t, ht, hcount⟩ := Option.map_eq_some_iff.mp hcount
  rw [Prod.mk.injEq] at hcount
  obtain ⟨-, ⟨hcard, -, -⟩, hptr, -⟩ := rx_ring_handover t41 es ht
  exact ⟨t, ht, hcount.1, hcount.2, hcard, hptr⟩

end Teensy41Ethernet.Driver
