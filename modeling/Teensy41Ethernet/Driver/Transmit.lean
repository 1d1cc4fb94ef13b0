import Teensy41Ethernet.Lib.Run
import Teensy41Ethernet.Lib.Memory
import Teensy41Ethernet.Lib.Ring
import Teensy41Ethernet.Lwip.Output
import Teensy41Ethernet.Driver.Descriptor

/-!
# The transmit ring

`t41_low_level_output` waits until the descriptor `p_txbd` is not ready, copies the packet
into its buffer, sets the ready bit and goes on to the next descriptor.  The DMA sends the
ready descriptors in ring order and clears their ready bit.  The two run concurrently: the
system of this file takes the statements of the function one at a time, and a completion of
the DMA may come between any two of them.

The file shows that the ring is an exact queue for packets that fit into a buffer
(`tx_ring_exact_queue`).  The invariant counts: the `k`-th frame that was queued is in
descriptor `k` modulo the ring size, and the descriptors that are ready are those from the
number of frames sent to the number queued.  The last part asks which packets of the IP
layer fit: nothing in the driver checks it, and with the MTU that `t41_netif_init` sets the
two largest sizes do not (`t41_copy_fits_iff`).
-/

namespace Teensy41Ethernet.Driver

open Lib Lwip

/-! ### The system -/

/-- The fields of `enetbufferdesc_t` that the transmit side uses.  The `buffer` field of
descriptor `i` is `&txbufs[i * BFSIZE]` and never changes. -/
structure TxBd where
  length : ℕ
  status : BitVec 16
  extend1 : BitVec 16

/-- Where the code of `t41_low_level_output(netif, p)` is. -/
inductive TxPc where
  /-- Outside the function. -/
  | idle
  /-- At `while (bdPtr->status & kEnetTxBdReady);`. -/
  | wait (p : Chain)
  /-- At `bdPtr->length = pbuf_copy_partial(p, bdPtr->buffer, p->tot_len, 0);`. -/
  | copy (p : Chain)
  /-- At `bdPtr->extend1 &= ...;`. -/
  | extend (p : Chain)
  /-- At `bdPtr->status = ... | kEnetTxBdReady;`. -/
  | publish (p : Chain)
  /-- At `ENET_TDAR = ENET_TDAR_TDAR;`. -/
  | tdar
  /-- At the update of `p_txbd`. -/
  | advance

/-- The transmit ring with its two users.  `dma` is the descriptor the DMA sends next;
`calls`, `queued` and `sent` record the packets of the calls, the frames made ready, and
the frames the DMA has sent. -/
structure TxSys where
  ring : ℕ → TxBd
  txbufs : ℕ → UInt8
  pTxbd : ℕ
  dma : ℕ
  pc : TxPc
  calls : List Chain
  queued : List (List UInt8)
  sent : List (List UInt8)

/-- The part of `t41_low_level_init` that sets up the transmit ring. -/
def txInit (b : Board) : TxSys where
  ring i :=
    { length := 0
      status :=
        if i + 1 = b.txSize then kEnetTxBdTransmitCrc ||| kEnetTxBdWrap else kEnetTxBdTransmitCrc
      extend1 := kEnetTxBdTxInterrupt ||| kEnetTxBdProtChecksum ||| kEnetTxBdIpHdrChecksum }
  txbufs _ := 0
  pTxbd := 0
  dma := 0
  pc := .idle
  calls := []
  queued := []
  sent := []

/-- The bytes of the descriptor's buffer that its length field covers: what the DMA sends. -/
def TxSys.frame (b : Board) (s : TxSys) (i : ℕ) : List UInt8 :=
  load s.txbufs (i * b.bfsize) (s.ring i).length

/-- The memory `txbufs` after `pbuf_copy_partial(p, bdPtr->buffer, p->tot_len, 0)` into the
buffer of descriptor `i`. -/
def copyFrame (b : Board) (txbufs : ℕ → UInt8) (i : ℕ) (p : Chain) : ℕ → UInt8 :=
  store txbufs (i * b.bfsize) (pbufCopyPartial p (totLen p) 0)

/-- What happens to the transmit ring: a call of `t41_low_level_output`, its next statement,
or the DMA sending a descriptor and leaving `status` in it. -/
inductive TxEvent where
  | call (p : Chain)
  | step
  | complete (status : BitVec 16)

/-- The descriptor `p_txbd`, or the one of the DMA, moves on. -/
def nextTxbd (s : TxSys) (i : ℕ) : ℕ := if hasFlag (s.ring i).status kEnetTxBdWrap then 0 else i + 1

/-- The next statement of `t41_low_level_output`. -/
def txStatement (b : Board) (s : TxSys) : Option TxSys :=
  match s.pc with
  | .idle => none
  | .wait p =>
      if hasFlag (s.ring s.pTxbd).status kEnetTxBdReady then some s
      else some { s with pc := .copy p }
  | .copy p =>
      some { s with
        txbufs := copyFrame b s.txbufs s.pTxbd p
        ring := modifyAt s.ring s.pTxbd fun bd =>
          { bd with length := (pbufCopyPartial p (totLen p) 0).length }
        pc := .extend p }
  | .extend p =>
      some { s with
        ring := modifyAt s.ring s.pTxbd fun bd =>
          { bd with extend1 := bd.extend1 &&& (kEnetTxBdIpHdrChecksum ||| kEnetTxBdProtChecksum) }
        pc := .publish p }
  | .publish _ =>
      some { s with
        ring := modifyAt s.ring s.pTxbd fun bd => { bd with status := txPublished bd.status }
        pc := .tdar
        queued := s.queued ++ [s.frame b s.pTxbd] }
  | .tdar => some { s with pc := .advance }
  | .advance => some { s with pc := .idle, pTxbd := nextTxbd s s.pTxbd }

/-- One event.  The DMA sends only a ready descriptor; the status it leaves has the ready
bit cleared and the wrap bit as it was. -/
def txStep (b : Board) (s : TxSys) : TxEvent → Option TxSys
  | .call p =>
      match s.pc with
      | .idle => some { s with pc := .wait p, calls := s.calls ++ [p] }
      | _ => none
  | .step => txStatement b s
  | .complete status =>
      if hasFlag (s.ring s.dma).status kEnetTxBdReady = true ∧
          hasFlag status kEnetTxBdReady = false ∧
          hasFlag status kEnetTxBdWrap = hasFlag (s.ring s.dma).status kEnetTxBdWrap then
        some { s with
          ring := modifyAt s.ring s.dma fun bd => { bd with status := status }
          dma := nextTxbd s s.dma
          sent := s.sent ++ [s.frame b s.dma] }
      else none

/-! ### Buffers -/

section Buffers

variable {b : Board} {s : TxSys} {i j : ℕ} {p : Chain}

lemma copyFrame_of_ne (mem : ℕ → UInt8) (hp : totLen p ≤ b.bfsize) (hij : i ≠ j) {a : ℕ}
    (ha : a < b.bfsize) : copyFrame b mem i p (j * b.bfsize + a) = mem (j * b.bfsize + a) := by
  refine store_of_notMem mem ?_
  rw [pbufCopyPartial_all, length_flatten_eq_totLen]
  rcases block_disjoint b.bfsize hij with h | h <;> omega

lemma load_copyFrame_self (mem : ℕ → UInt8) :
    load (copyFrame b mem i p) (i * b.bfsize) (pbufCopyPartial p (totLen p) 0).length
      = p.flatten := by
  rw [copyFrame, load_store, pbufCopyPartial_all]

lemma load_copyFrame_of_ne (mem : ℕ → UInt8) (hp : totLen p ≤ b.bfsize) (hij : i ≠ j) {len : ℕ}
    (hlen : len ≤ b.bfsize) :
    load (copyFrame b mem i p) (j * b.bfsize) len = load mem (j * b.bfsize) len := by
  refine load_store_of_disjoint mem ?_
  rw [pbufCopyPartial_all, length_flatten_eq_totLen]
  rcases block_disjoint b.bfsize hij with h | h <;> omega

end Buffers

/-! ### The invariant -/

/-- What holds at each statement of `t41_low_level_output`. -/
def TxStage (b : Board) (s : TxSys) : Prop :=
  match s.pc with
  | .idle => s.pTxbd = s.queued.length % b.txSize ∧ s.calls.map List.flatten = s.queued
  | .wait p =>
      s.pTxbd = s.queued.length % b.txSize ∧ totLen p ≤ b.bfsize ∧
      s.calls.map List.flatten = s.queued ++ [p.flatten]
  | .copy p =>
      s.pTxbd = s.queued.length % b.txSize ∧ totLen p ≤ b.bfsize ∧
      s.calls.map List.flatten = s.queued ++ [p.flatten] ∧
      s.queued.length < s.sent.length + b.txSize
  | .extend p | .publish p =>
      s.pTxbd = s.queued.length % b.txSize ∧ totLen p ≤ b.bfsize ∧
      s.calls.map List.flatten = s.queued ++ [p.flatten] ∧
      s.queued.length < s.sent.length + b.txSize ∧
      s.frame b s.pTxbd = p.flatten ∧ (s.ring s.pTxbd).length ≤ b.bfsize
  | .tdar | .advance =>
      s.calls.map List.flatten = s.queued ∧
      ∃ k, s.queued.length = k + 1 ∧ s.pTxbd = k % b.txSize

/-- The invariant of the transmit ring. -/
structure TxInv (b : Board) (s : TxSys) : Prop where
  sent_le : s.sent.length ≤ s.queued.length
  sent_eq : s.sent = s.queued.take s.sent.length
  room : s.queued.length ≤ s.sent.length + b.txSize
  dma_eq : s.dma = s.sent.length % b.txSize
  ready : ∀ i < b.txSize, hasFlag (s.ring i).status kEnetTxBdReady = true ↔
    Window b.txSize s.sent.length s.queued.length i
  wrap : ∀ i < b.txSize, hasFlag (s.ring i).status kEnetTxBdWrap = true ↔ i + 1 = b.txSize
  fits : ∀ k, s.sent.length ≤ k → k < s.queued.length →
    (s.ring (k % b.txSize)).length ≤ b.bfsize
  frame : ∀ k, s.sent.length ≤ k → k < s.queued.length →
    s.queued[k]? = some (s.frame b (k % b.txSize))
  stage : TxStage b s

namespace TxInv

variable {b : Board} {s s' : TxSys} {p : Chain}

lemma init (b : Board) : TxInv b (txInit b) where
  sent_le := le_rfl
  sent_eq := rfl
  room := Nat.zero_le _
  dma_eq := (Nat.zero_mod _).symm
  ready i _ := by
    constructor
    · intro h
      by_cases hi : i + 1 = b.txSize
      · simp only [txInit, if_pos hi] at h
        exact absurd h (by decide)
      · simp only [txInit, if_neg hi] at h
        exact absurd h (by decide)
    · exact fun h => absurd h not_window_self
  wrap i _ := by
    by_cases hi : i + 1 = b.txSize
    · simp only [txInit, if_pos hi]
      exact iff_of_true (by decide) hi
    · simp only [txInit, if_neg hi]
      exact iff_of_false (by decide) hi
  fits k _ hk := absurd hk (Nat.not_lt_zero k)
  frame k _ hk := absurd hk (Nat.not_lt_zero k)
  stage := ⟨(Nat.zero_mod _).symm, rfl⟩

lemma nextTxbd_eq (hi : TxInv b s) (k : ℕ) : nextTxbd s (k % b.txSize) = (k + 1) % b.txSize := by
  have hlt : k % b.txSize < b.txSize := Nat.mod_lt k b.tx_pos
  rw [← mod_succ_eq, ← wrap_eq_mod hlt, nextTxbd]
  exact if_congr (hi.wrap _ hlt) rfl rfl

lemma ready_next (hi : TxInv b s) :
    hasFlag (s.ring (s.queued.length % b.txSize)).status kEnetTxBdReady = true ↔
      s.queued.length = s.sent.length + b.txSize :=
  (hi.ready _ (Nat.mod_lt _ b.tx_pos)).trans (window_next_iff b.tx_pos hi.sent_le hi.room)

lemma next_ne (hi : TxInv b s) (hroom : s.queued.length < s.sent.length + b.txSize) {k : ℕ}
    (hk : s.sent.length ≤ k) (hkq : k < s.queued.length) :
    s.queued.length % b.txSize ≠ k % b.txSize := by
  intro h
  have := eq_of_mod_eq (a := s.sent.length) hi.sent_le (by omega) hk (by omega) h
  omega

/-! One lemma for each statement of the function, and one for the DMA. -/

lemma call (hi : TxInv b s) (hpc : s.pc = .idle) (hp : totLen p ≤ b.bfsize) :
    TxInv b { s with pc := .wait p, calls := s.calls ++ [p] } := by
  have hst := hi.stage
  simp only [TxStage, hpc] at hst
  exact { hi with stage := ⟨hst.1, hp, by simp [hst.2]⟩ }

lemma wait (hi : TxInv b s) (hpc : s.pc = .wait p)
    (hready : ¬ hasFlag (s.ring s.pTxbd).status kEnetTxBdReady = true) :
    TxInv b { s with pc := .copy p } := by
  have hst := hi.stage
  simp only [TxStage, hpc] at hst
  obtain ⟨hptr, hp, hcalls⟩ := hst
  rw [hptr, hi.ready_next] at hready
  have hroom := hi.room
  exact { hi with stage := ⟨hptr, hp, hcalls, by simp only; omega⟩ }

/-- The copy goes to a descriptor that is not in use, so the frames in use stay. -/
lemma copy (hi : TxInv b s) (hpc : s.pc = .copy p) :
    TxInv b { s with
      txbufs := copyFrame b s.txbufs s.pTxbd p
      ring := modifyAt s.ring s.pTxbd fun bd =>
        { bd with length := (pbufCopyPartial p (totLen p) 0).length }
      pc := .extend p } := by
  have hst := hi.stage
  simp only [TxStage, hpc] at hst
  obtain ⟨hptr, hp, hcalls, hroom⟩ := hst
  have hne : ∀ k, s.sent.length ≤ k → k < s.queued.length → k % b.txSize ≠ s.pTxbd := by
    intro k hk hkq
    rw [hptr]
    exact (hi.next_ne hroom hk hkq).symm
  refine { hi with ready := fun i h => ?_, wrap := fun i h => ?_, fits := fun k hk hkq => ?_,
                   frame := fun k hk hkq => ?_, stage := ⟨hptr, hp, hcalls, hroom, ?_, ?_⟩ }
  · rw [← hi.ready i h, apply_modifyAt TxBd.status s.ring rfl]
  · rw [← hi.wrap i h, apply_modifyAt TxBd.status s.ring rfl]
  · simpa only [modifyAt_of_ne s.ring _ (hne k hk hkq)] using hi.fits k hk hkq
  · simp only [hi.frame k hk hkq, TxSys.frame, modifyAt_of_ne s.ring _ (hne k hk hkq)]
    rw [load_copyFrame_of_ne s.txbufs hp (hne k hk hkq).symm (hi.fits k hk hkq)]
  · simp only [TxSys.frame, modifyAt_self]
    exact load_copyFrame_self s.txbufs
  · simpa only [modifyAt_self, pbufCopyPartial_all, length_flatten_eq_totLen] using hp

lemma extend (hi : TxInv b s) (hpc : s.pc = .extend p) :
    TxInv b { s with
      ring := modifyAt s.ring s.pTxbd fun bd =>
        { bd with extend1 := bd.extend1 &&& (kEnetTxBdIpHdrChecksum ||| kEnetTxBdProtChecksum) }
      pc := .publish p } := by
  have hst := hi.stage
  simp only [TxStage, hpc] at hst
  obtain ⟨hptr, hp, hcalls, hroom, hframe, hfit⟩ := hst
  have hlen := fun j => apply_modifyAt (j := j) TxBd.length s.ring (i := s.pTxbd) (f := fun bd =>
    { bd with extend1 := bd.extend1 &&& (kEnetTxBdIpHdrChecksum ||| kEnetTxBdProtChecksum) }) rfl
  refine { hi with ready := fun i h => ?_, wrap := fun i h => ?_,
                   fits := fun k hk hkq => (hlen _).trans_le (hi.fits k hk hkq),
                   frame := fun k hk hkq => ?_,
                   stage := ⟨hptr, hp, hcalls, hroom, ?_, (hlen _).trans_le hfit⟩ }
  · rw [← hi.ready i h, apply_modifyAt TxBd.status s.ring rfl]
  · rw [← hi.wrap i h, apply_modifyAt TxBd.status s.ring rfl]
  · simpa only [TxSys.frame, hlen] using hi.frame k hk hkq
  · simpa only [TxSys.frame, hlen] using hframe

/-- Setting the ready bit appends the frame to the queue. -/
lemma publish (hi : TxInv b s) (hpc : s.pc = .publish p) :
    TxInv b { s with
      ring := modifyAt s.ring s.pTxbd fun bd => { bd with status := txPublished bd.status }
      pc := .tdar
      queued := s.queued ++ [s.frame b s.pTxbd] } := by
  have hst := hi.stage
  simp only [TxStage, hpc] at hst
  obtain ⟨hptr, hp, hcalls, hroom, hframe, hfit⟩ := hst
  have hle := hi.sent_le
  have hlen := fun j => apply_modifyAt (j := j) TxBd.length s.ring (i := s.pTxbd) (f := fun bd =>
    { bd with status := txPublished bd.status }) rfl
  have hq : (s.queued ++ [s.frame b s.pTxbd]).length = s.queued.length + 1 := by simp
  refine { sent_le := by simp only [hq]; omega
           sent_eq := hi.sent_eq.trans (List.take_append_of_le_length hle).symm
           room := by simp only [hq]; omega
           dma_eq := hi.dma_eq, ready := fun i h => ?_, wrap := fun i h => ?_
           fits := fun k hk hkq => ?_, frame := fun k hk hkq => ?_
           stage := ⟨?_, s.queued.length, hq, hptr⟩ }
  · simp only [hq, window_succ hle, ← hi.ready i h, ← hptr]
    by_cases h' : i = s.pTxbd <;> simp [h']
  · rw [← hi.wrap i h, apply_modifyAt (fun bd => hasFlag bd.status kEnetTxBdWrap) s.ring (by simp)]
  · refine (hlen _).trans_le ?_
    rw [hq] at hkq
    rcases Nat.lt_succ_iff_lt_or_eq.mp hkq with h | rfl
    · exact hi.fits k hk h
    · rwa [← hptr]
  · simp only [TxSys.frame, hlen]
    rw [hq] at hkq
    rcases Nat.lt_succ_iff_lt_or_eq.mp hkq with h | rfl
    · exact (List.getElem?_append_left h).trans (hi.frame k hk h)
    · rw [← hptr]
      exact List.getElem?_concat_length
  · simpa only [hframe] using hcalls

lemma advance (hi : TxInv b s) (hpc : s.pc = .advance) :
    TxInv b { s with pc := .idle, pTxbd := nextTxbd s s.pTxbd } := by
  have hst := hi.stage
  simp only [TxStage, hpc] at hst
  obtain ⟨hcalls, k, hk, hptr⟩ := hst
  exact { hi with stage := ⟨by simp only [hptr, hi.nextTxbd_eq, hk], hcalls⟩ }

lemma complete (hi : TxInv b s) {status : BitVec 16}
    (hready : hasFlag (s.ring s.dma).status kEnetTxBdReady = true)
    (hdone : hasFlag status kEnetTxBdReady = false)
    (hwrap : hasFlag status kEnetTxBdWrap = hasFlag (s.ring s.dma).status kEnetTxBdWrap) :
    TxInv b { s with
      ring := modifyAt s.ring s.dma fun bd => { bd with status := status }
      dma := nextTxbd s s.dma
      sent := s.sent ++ [s.frame b s.dma] } := by
  have hle := hi.sent_le
  have hroom := hi.room
  have hdma : s.dma < b.txSize := hi.dma_eq ▸ Nat.mod_lt _ b.tx_pos
  have hlt : s.sent.length < s.queued.length := by
    obtain ⟨k, h₁, h₂, -⟩ := (hi.ready s.dma hdma).mp hready
    omega
  have hlen := fun j => apply_modifyAt (j := j) TxBd.length s.ring (i := s.dma) (f := fun bd =>
    { bd with status := status }) rfl
  have hsent : (s.sent ++ [s.frame b s.dma]).length = s.sent.length + 1 := by simp
  have hfirst : s.queued[s.sent.length]? = some (s.frame b s.dma) :=
    (hi.frame _ le_rfl hlt).trans (by rw [← hi.dma_eq])
  refine { sent_le := by simp only [hsent]; omega
           sent_eq := ?_
           room := by simp only [hsent]; omega
           dma_eq := by rw [hsent, ← hi.nextTxbd_eq, ← hi.dma_eq]
           ready := fun i h => ?_, wrap := fun i h => ?_, fits := fun k hk hkq => ?_
           frame := fun k hk hkq => ?_, stage := ?_ }
  · simp only [hsent, List.take_add_one, hfirst, ← hi.sent_eq, Option.toList_some]
  · simp only [hsent, window_drop hlt hroom, ← hi.ready i h, ← hi.dma_eq]
    by_cases h' : i = s.dma <;> simp [h', hdone]
  · rw [← hi.wrap i h, apply_modifyAt (fun bd => hasFlag bd.status kEnetTxBdWrap) s.ring hwrap]
  · simp only [hsent] at hk
    exact (hlen _).trans_le (hi.fits k (by omega) hkq)
  · simp only [hsent] at hk
    simpa only [TxSys.frame, hlen] using hi.frame k (by omega) hkq
  · -- of the queue, the statements of the function rely on the frames made ready and on room
    have hst := hi.stage
    cases hpc : s.pc with
    | idle | wait _ | tdar | advance => simpa only [TxStage, hpc] using hst
    | copy p =>
      simp only [TxStage, hpc] at hst ⊢
      obtain ⟨hptr, hp, hcalls, hroom'⟩ := hst
      exact ⟨hptr, hp, hcalls, by rw [hsent]; omega⟩
    | extend p | publish p =>
      simp only [TxStage, hpc, TxSys.frame, hlen] at hst ⊢
      obtain ⟨hptr, hp, hcalls, hroom', hrest⟩ := hst
      exact ⟨hptr, hp, hcalls, by simp; omega, hrest⟩

lemma statement (hi : TxInv b s) (h : txStatement b s = some s') : TxInv b s' := by
  cases hpc : s.pc with
  | idle => exact absurd h (by simp [txStatement, hpc])
  | wait p =>
    by_cases hready : hasFlag (s.ring s.pTxbd).status kEnetTxBdReady = true
    · simp only [txStatement, hpc, hready, if_true, Option.some.injEq] at h
      exact h ▸ hi
    · simp only [txStatement, hpc, if_neg hready, Option.some.injEq] at h
      exact h ▸ hi.wait hpc hready
  | copy p =>
    simp only [txStatement, hpc, Option.some.injEq] at h
    exact h ▸ hi.copy hpc
  | extend p =>
    simp only [txStatement, hpc, Option.some.injEq] at h
    exact h ▸ hi.extend hpc
  | publish p =>
    simp only [txStatement, hpc, Option.some.injEq] at h
    exact h ▸ hi.publish hpc
  | tdar =>
    simp only [txStatement, hpc, Option.some.injEq] at h
    have hst := hi.stage
    simp only [TxStage, hpc] at hst
    exact h ▸ { hi with stage := hst }
  | advance =>
    simp only [txStatement, hpc, Option.some.injEq] at h
    exact h ▸ hi.advance hpc

lemma step (hi : TxInv b s) {e : TxEvent} (hfit : ∀ p, e = .call p → totLen p ≤ b.bfsize)
    (h : txStep b s e = some s') : TxInv b s' := by
  cases e with
  | call p =>
    cases hpc : s.pc with
    | idle =>
      simp only [txStep, hpc, Option.some.injEq] at h
      exact h ▸ hi.call hpc (hfit p rfl)
    | _ => exact absurd h (by simp [txStep, hpc])
  | step => exact hi.statement h
  | complete status =>
    simp only [txStep, Option.ite_none_right_eq_some, Option.some.injEq] at h
    obtain ⟨⟨hready, hdone, hwrap⟩, rfl⟩ := h
    exact hi.complete hready hdone hwrap

lemma run (es : List TxEvent) (hfit : ∀ p, .call p ∈ es → totLen p ≤ b.bfsize)
    (h : exec (txStep b) (txInit b) es = some s) : TxInv b s := by
  have hok : Admits (txStep b) (fun _ e => ∀ p, e = .call p → totLen p ≤ b.bfsize)
      (txInit b) es := by
    refine admits_of_forall ?_
    rintro e he - p rfl
    exact hfit p he
  exact exec_inv_of_admits (fun _ _ _ hs hfits hstep => hs.step hfits hstep) (init b) hok h

/-- The function writes only to the descriptor `p_txbd`, and only while it is not ready. -/
lemma statement_frame (hi : TxInv b s) (h : txStatement b s = some s') {i : ℕ}
    (hready : hasFlag (s.ring i).status kEnetTxBdReady = true) (hlt : i < b.txSize) :
    s'.ring i = s.ring i ∧
      ∀ a < b.bfsize, s'.txbufs (i * b.bfsize + a) = s.txbufs (i * b.bfsize + a) := by
  have hst := hi.stage
  have hne : s.pTxbd = s.queued.length % b.txSize →
      s.queued.length < s.sent.length + b.txSize → i ≠ s.pTxbd := by
    rintro hptr hroom rfl
    rw [hptr, hi.ready_next] at hready
    omega
  cases hpc : s.pc with
  | idle => exact absurd h (by simp [txStatement, hpc])
  | wait p =>
    simp only [txStatement, hpc] at h
    split at h <;> (rw [← Option.some.inj h]; exact ⟨rfl, fun _ _ => rfl⟩)
  | copy p =>
    simp only [TxStage, hpc] at hst
    simp only [txStatement, hpc, Option.some.injEq] at h
    have hi' := hne hst.1 hst.2.2.2
    rw [← h]
    exact ⟨by simp only [modifyAt_of_ne s.ring _ hi'],
      fun a ha => copyFrame_of_ne s.txbufs hst.2.1 hi'.symm ha⟩
  | extend p | publish p =>
    simp only [TxStage, hpc] at hst
    simp only [txStatement, hpc, Option.some.injEq] at h
    rw [← h]
    exact ⟨by simp only [modifyAt_of_ne s.ring _ (hne hst.1 hst.2.2.2.1)], fun _ _ => rfl⟩
  | tdar | advance =>
    simp only [txStatement, hpc, Option.some.injEq] at h
    rw [← h]
    exact ⟨rfl, fun _ _ => rfl⟩

/-- As long as the DMA does not act, ready descriptors and their buffers stay. -/
lemma step_frame (hi : TxInv b s) {e : TxEvent} (he : ∀ status, e ≠ .complete status)
    (h : txStep b s e = some s') {i : ℕ}
    (hready : hasFlag (s.ring i).status kEnetTxBdReady = true) (hlt : i < b.txSize) :
    s'.ring i = s.ring i ∧
      ∀ a < b.bfsize, s'.txbufs (i * b.bfsize + a) = s.txbufs (i * b.bfsize + a) := by
  cases e with
  | call p =>
    cases hpc : s.pc with
    | idle =>
      simp only [txStep, hpc, Option.some.injEq] at h
      rw [← h]
      exact ⟨rfl, fun _ _ => rfl⟩
    | _ => exact absurd h (by simp [txStep, hpc])
  | step => exact hi.statement_frame h hready hlt
  | complete status => exact absurd rfl (he status)

/-- The frames of the calls so far begin with the frames queued. -/
lemma queued_prefix (hi : TxInv b s) : s.queued <+: s.calls.map List.flatten := by
  have hst := hi.stage
  cases hpc : s.pc with
  | idle =>
    simp only [TxStage, hpc] at hst
    rw [hst.2]
  | wait p =>
    simp only [TxStage, hpc] at hst
    exact ⟨_, hst.2.2.symm⟩
  | copy p | extend p | publish p =>
    simp only [TxStage, hpc] at hst
    exact ⟨_, hst.2.2.1.symm⟩
  | tdar | advance =>
    simp only [TxStage, hpc] at hst
    rw [hst.1]

lemma pTxbd_lt (hi : TxInv b s) : s.pTxbd < b.txSize := by
  have hst := hi.stage
  have hmod : ∀ k, k % b.txSize < b.txSize := fun k => Nat.mod_lt k b.tx_pos
  cases hpc : s.pc with
  | idle | wait _ | copy _ | extend _ | publish _ =>
    simp only [TxStage, hpc] at hst
    rw [hst.1]
    exact hmod _
  | tdar | advance =>
    simp only [TxStage, hpc] at hst
    obtain ⟨-, k, -, hptr⟩ := hst
    rw [hptr]
    exact hmod k

end TxInv

/-! ### The exact queue -/

/-- **The transmit ring is an exact queue.**  In every state that is reached by calls with
packets that fit into a buffer, and by completions of the DMA between any two statements:
the frames sent are the first of the flattened packets, in the order of the calls; after a
call has returned, the frames of the other calls are in the ready descriptors, in ring
order; the statements of the function change neither a ready descriptor nor its buffer;
exactly the last descriptor has the wrap bit; and `p_txbd` is a descriptor of the ring,
between two calls the one after the last one queued. -/
theorem tx_ring_exact_queue (b : Board) (es : List TxEvent)
    (hfit : ∀ p, .call p ∈ es → totLen p ≤ b.bfsize) {t : TxSys}
    (hrun : exec (txStep b) (txInit b) es = some t) :
    t.sent <+: t.calls.map List.flatten ∧
    (t.pc = .idle →
      (∀ i < b.txSize, hasFlag (t.ring i).status kEnetTxBdReady = true ↔
        Window b.txSize t.sent.length t.calls.length i) ∧
      (∀ k, t.sent.length ≤ k → k < t.calls.length →
        (t.calls.map List.flatten)[k]? = some (t.frame b (k % b.txSize))) ∧
      t.pTxbd = t.calls.length % b.txSize) ∧
    (∀ e t', (∀ status, e ≠ .complete status) → txStep b t e = some t' → ∀ i < b.txSize,
      hasFlag (t.ring i).status kEnetTxBdReady = true → t'.ring i = t.ring i ∧
        ∀ a < b.bfsize, t'.txbufs (i * b.bfsize + a) = t.txbufs (i * b.bfsize + a)) ∧
    (∀ i < b.txSize, hasFlag (t.ring i).status kEnetTxBdWrap = true ↔ i + 1 = b.txSize) ∧
    t.pTxbd < b.txSize := by
  have hi := TxInv.run es hfit hrun
  refine ⟨?_, fun hpc => ?_, fun e t' he ht' i hlt hready => hi.step_frame he ht' hready hlt,
    hi.wrap, hi.pTxbd_lt⟩
  · rw [hi.sent_eq]
    exact (List.take_prefix _ _).trans hi.queued_prefix
  · have hst := hi.stage
    simp only [TxStage, hpc] at hst
    have hlen : t.calls.length = t.queued.length := by rw [← hst.2, List.length_map]
    rw [hlen, hst.2]
    exact ⟨hi.ready, hi.frame, hst.1⟩

/-- Two calls on the Teensy 4.1 ring, the first frame sent during the second call. -/
theorem tx_ring_exact_queue_two_calls :
    let es : List TxEvent := [.call [[1], [2]], .step, .step, .step, .step, .step, .step,
      .call [[3]], .step, .complete 0, .step, .step, .step, .step, .step]
    ∃ t, exec (txStep t41) (txInit t41) es = some t ∧ t.sent = [[1, 2]] ∧
      t.sent <+: t.calls.map List.flatten ∧ t.pTxbd < t41.txSize := by
  intro es
  have hsent : (exec (txStep t41) (txInit t41) es).map TxSys.sent = some [[1, 2]] := by
    decide +kernel
  have hfit : ∀ p, .call p ∈ es → totLen p ≤ t41.bfsize := by
    intro p hp
    simp only [es, List.mem_cons, TxEvent.call.injEq, reduceCtorEq, List.not_mem_nil, or_false,
      false_or] at hp
    rcases hp with rfl | rfl <;> decide
  obtain ⟨t, ht, hsent⟩ := Option.map_eq_some_iff.mp hsent
  obtain ⟨hpre, -, -, -, hptr⟩ := tx_ring_exact_queue t41 es hfit ht
  exact ⟨t, ht, hsent, hpre, hptr⟩

/-! ### Packets of the IP layer -/

/-- `netif->mtu` as `t41_netif_init` and `k6x_netif_init` set it. -/
def netifMtu : ℕ := 1522

/-- `ETHTYPE_IP`. -/
def ethtypeIP : ℕ := 0x0800

/-- The frames that a packet at the end of `ip4_output_if` becomes: the chains given to
`netif->linkoutput`. -/
def linkFrames (mtu : ℕ) (p : Packet) (budget : ℕ) (hdr : List UInt8) : List Chain :=
  (ip4OutputIf mtu p budget).filterMap fun q => ethernetOutput q hdr

/-- The copy of the frame into the buffer of descriptor `i` writes at most a buffer, and the
other buffers stay. -/
def CopyFits (b : Board) (txbufs : ℕ → UInt8) (i : ℕ) (f : Chain) : Prop :=
  (pbufCopyPartial f (totLen f) 0).length ≤ b.bfsize ∧
    ∀ j, j ≠ i → ∀ a < b.bfsize,
      copyFrame b txbufs i f (j * b.bfsize + a) = txbufs (j * b.bfsize + a)

section CopyFits

variable {b : Board} {txbufs : ℕ → UInt8} {i mtu budget : ℕ} {f : Chain} {p : Packet}
  {hdr : List UInt8}

lemma copyFits_iff : CopyFits b txbufs i f ↔ totLen f ≤ b.bfsize := by
  rw [CopyFits, pbufCopyPartial_all, length_flatten_eq_totLen]
  exact ⟨And.left, fun h => ⟨h, fun j hj a ha => copyFrame_of_ne txbufs h hj.symm ha⟩⟩

/-- A frame is a fragment of a long packet, or the whole of a short one. -/
lemma mem_linkFrames (hmtu : 0 < mtu) (hf : f ∈ linkFrames mtu p budget hdr) :
    (mtu < totLen p.chain ∧ totLen f ≤ hdr.length + (ipHlen + (mtu - ipHlen) / 8 * 8)) ∨
      (totLen p.chain ≤ mtu ∧ sizeofEthHdr ≤ p.headroom ∧
        totLen f = hdr.length + totLen p.chain) := by
  obtain ⟨q, hq, hout⟩ := List.mem_filterMap.mp hf
  have hlen := totLen_ethernetOutput hout
  rw [ip4OutputIf] at hq
  split at hq
  · rename_i hlong
    have := totLen_ip4Frag_le hq
    exact Or.inl ⟨hlong.2, by omega⟩
  · rename_i hshort
    rw [List.mem_singleton] at hq
    subst hq
    refine Or.inr ⟨by omega, ?_, hlen⟩
    by_contra hroom
    rw [ethernetOutput, if_pos (by omega)] at hout
    exact absurd hout (by simp)

/-- A packet that is not cut becomes one frame, if there is room for the link header. -/
lemma exists_mem_linkFrames (hshort : totLen p.chain ≤ mtu) (hroom : sizeofEthHdr ≤ p.headroom) :
    ∃ f ∈ linkFrames mtu p budget hdr, totLen f = hdr.length + totLen p.chain := by
  have hout : ∃ f, ethernetOutput p hdr = some f := by
    rw [ethernetOutput, if_neg (by omega)]
    split <;> exact ⟨_, rfl⟩
  obtain ⟨f, hf⟩ := hout
  refine ⟨f, List.mem_filterMap.mpr ⟨p, ?_, hf⟩, totLen_ethernetOutput hf⟩
  rw [ip4OutputIf, if_neg (by omega)]
  exact List.mem_singleton_self p

lemma linkFrames_singleton {headroom : ℕ} {seg : List UInt8} (hshort : seg.length ≤ mtu)
    (hroom : sizeofEthHdr ≤ headroom) :
    linkFrames mtu ⟨headroom, [seg]⟩ budget hdr = [[hdr ++ seg]] := by
  rw [linkFrames, ip4OutputIf, if_neg (by simp only [totLen_cons, totLen_nil]; omega),
    List.filterMap_cons_some (b := [hdr ++ seg]), List.filterMap_nil]
  rw [ethernetOutput, if_neg (by simp only; omega)]

end CopyFits

/-- The larger buffers of `lwip_k6x.c` hold every frame. -/
theorem k6x_copy_fits (p : Packet) (budget : ℕ) (pad : Vector UInt8 2) (dst src : EthAddr)
    (txbufs : ℕ → UInt8) (i : ℕ) :
    ∀ f ∈ linkFrames netifMtu p budget (ethHdr pad dst src ethtypeIP),
      CopyFits k6x txbufs i f := by
  intro f hf
  rw [copyFits_iff]
  have := mem_linkFrames (by decide) hf
  simp only [length_ethHdr, netifMtu, sizeofEthHdr, ipHlen, k6x] at this ⊢
  omega

/-- **Which packets fit into the buffers of the Teensy 4.1 driver.**  The frames of a packet
all fit, unless the packet is too long for the buffer and too short to be cut: its length
is 1521 or 1522, and there is room for the link header. -/
theorem t41_copy_fits_iff (p : Packet) (budget : ℕ) (pad : Vector UInt8 2) (dst src : EthAddr)
    (txbufs : ℕ → UInt8) (i : ℕ) :
    (∀ f ∈ linkFrames netifMtu p budget (ethHdr pad dst src ethtypeIP),
      CopyFits t41 txbufs i f) ↔
    ¬ (1520 < totLen p.chain ∧ totLen p.chain ≤ 1522 ∧ sizeofEthHdr ≤ p.headroom) := by
  constructor
  · rintro h ⟨hlong, hshort, hroom⟩
    obtain ⟨f, hf, hlen⟩ : ∃ f ∈ linkFrames netifMtu p budget (ethHdr pad dst src ethtypeIP),
        totLen f = (ethHdr pad dst src ethtypeIP).length + totLen p.chain :=
      exists_mem_linkFrames hshort hroom
    have hfit := copyFits_iff.mp (h f hf)
    simp only [length_ethHdr, sizeofEthHdr, t41] at hlen hfit
    omega
  · intro h f hf
    rw [copyFits_iff]
    have := mem_linkFrames (by decide) hf
    simp only [length_ethHdr, netifMtu, sizeofEthHdr, ipHlen, t41] at this h ⊢
    omega

/-- A packet of 1522 bytes in the first buffer writes two bytes into the second one. -/
theorem t41_copy_overruns_next_buffer :
    ∃ f ∈ linkFrames netifMtu ⟨pbufLinkHlen, [0x45 :: List.replicate 1521 0xaa]⟩ 0
        (ethHdr (Vector.replicate 2 0) (Vector.replicate 6 0) (Vector.replicate 6 0) ethtypeIP),
      (pbufCopyPartial f (totLen f) 0).length = t41.bfsize + 2 ∧
      copyFrame t41 (fun _ => 0) 0 f (1 * t41.bfsize + 1) = 0xaa := by
  have hlen : (0x45 :: List.replicate 1521 0xaa : List UInt8).length = 1522 := by
    rw [List.length_cons, List.length_replicate]
  generalize hhdr : ethHdr (Vector.replicate 2 0) (Vector.replicate 6 0) (Vector.replicate 6 0)
    ethtypeIP = hdr
  have hhlen : hdr.length = 16 := by rw [← hhdr, length_ethHdr, sizeofEthHdr]
  rw [linkFrames_singleton (by rw [hlen, netifMtu]) (by decide)]
  refine ⟨_, List.mem_singleton_self _, ?_, ?_⟩
  · rw [pbufCopyPartial_all, length_flatten_eq_totLen, totLen_cons, List.length_append, hlen,
      hhlen]
    rfl
  · rw [copyFrame, pbufCopyPartial_all, List.flatten_cons, List.flatten_nil, List.append_nil,
      show 1 * t41.bfsize + 1 = 0 * t41.bfsize + 1537 from rfl,
      store_getElem _ _ _ (by rw [List.length_append, hlen, hhlen]; decide),
      List.getElem_append_right (by omega)]
    simp only [hhlen, List.getElem_cons, List.getElem_replicate]
    decide

end Teensy41Ethernet.Driver
