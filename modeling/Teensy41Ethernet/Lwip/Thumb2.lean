import Teensy41Ethernet.Lib.Thumb
import Teensy41Ethernet.Lwip.InetChksum

/-!
# The checksum routine of the port

`thumb2_checksum` of `arch/checksum.c` is written in Thumb-2 assembly language, after version 3
of `lwip_standard_chksum`, which `cc.h` replaces by it.  It adds words of 32 bits with the carry
added at the low end, two in each round of its loop, after a byte and a half-word that make the
address a multiple of four, and then the half-words and the byte that are left.

The program is taken apart at its labels.  Between two labels it is straight but for the branch
that leaves it, and what a piece does to the registers is found by computation.  What the pieces
keep is `Summing`: the sum so far and the bytes that are left are the whole block.
-/

namespace Teensy41Ethernet.Lwip

open Lib Thumb

/-! ### The program -/

/-- `thumb2_checksum` -/
def thumb2Checksum : List Line :=
  [.instr (.push [.r4, .lr]),
   .instr (.movs .r2 0),
   .instr (.ands .r3 .r0 1),
   .instr (.beq 1),
   .instr (.cbz .r1 9),
   -- 2-byte align
   .instr (.ldrb .r2 (.post .r0 1)),
   .instr (.lsls .r2 .r2 8),
   .instr (.subs .r1 .r1 1),
   .label 1,
   .instr (.ands .r4 .r0 3),
   .instr (.beq 2),
   .instr (.cmp .r1 2),
   .instr (.blt 7),
   -- 4-byte align
   .instr (.ldrh .r4 (.post .r0 2)),
   .instr (.adds .r2 .r2 .r4),
   .instr (.subs .r1 .r1 2),
   -- main summing loop
   .label 2,
   .instr (.cmp .r1 8),
   .instr (.blt 3),
   .instr (.ldr .r4 (.post .r0 4)),
   .instr (.adds .r2 .r2 .r4),
   .instr (.adc .r2 .r2 0),
   .instr (.ldr .r4 (.post .r0 4)),
   .instr (.adds .r2 .r2 .r4),
   .instr (.adc .r2 .r2 0),
   .instr (.subs .r1 .r1 8),
   .instr (.b 2),
   -- remaining half-words
   .label 3,
   .instr (.cmp .r1 2),
   .instr (.blt 7),
   .instr (.ldrh .r4 (.post .r0 2)),
   .instr (.adds .r2 .r2 .r4),
   .instr (.adc .r2 .r2 0),
   .instr (.subs .r1 .r1 2),
   .instr (.b 3),
   -- trailing byte
   .label 7,
   .instr (.cbz .r1 8),
   .instr (.ldrb .r4 (.base .r0)),
   .instr (.adds .r2 .r2 .r4),
   .instr (.adc .r2 .r2 0),
   -- fold
   .label 8,
   .instr (.ubfx .r4 .r2 16 16),
   .instr (.ubfx .r2 .r2 0 16),
   .instr (.adds .r2 .r2 .r4),
   .instr (.ubfx .r4 .r2 16 16),
   .instr (.ubfx .r2 .r2 0 16),
   .instr (.adds .r2 .r2 .r4),
   .instr (.cbz .r3 9),
   .instr (.rev16 .r2 .r2),
   .label 9,
   .instr (.mov .r0 .r2),
   .instr (.popPc [.r4])]

/-! ### The pieces -/

section Pieces

variable (mem : Word → UInt8) {s : State}

/-- `push` to `beq 1$` -/
lemma run_entry (hpc : s.pc = .line 0) : run thumb2Checksum mem 4 s = some { s with
    pc := bif s.r0 &&& 1 == 0 then .line 8 else .line 4
    r2 := 0
    r3 := s.r0 &&& 1
    flags := (s.flags.setNZ 0).setNZ (s.r0 &&& 1)
    stack := s.r4 :: s.lr :: s.stack } := by
  cases s; cases hpc; rfl

/-- `cbz r1, 9$` -/
lemma run_empty (hpc : s.pc = .line 4) : run thumb2Checksum mem 1 s = some { s with
    pc := bif s.r1 == 0 then .line 49 else .line 5 } := by
  cases s; cases hpc; rfl

/-- The byte at an odd address. -/
lemma run_headByte (hpc : s.pc = .line 5) :
    ∃ f, run thumb2Checksum mem 3 s = some { s with
      pc := .line 8
      r0 := s.r0 + 1
      r1 := s.r1 - 1
      r2 := wordAt mem s.r0 1 <<< 8
      flags := f
      reads := s.reads ++ addrs s.r0 1 } := by
  cases s; cases hpc; exact ⟨_, rfl⟩

/-- `1$` to `beq 2$` -/
lemma run_aligned (hpc : s.pc = .line 8) : run thumb2Checksum mem 3 s = some { s with
    pc := bif s.r0 &&& 3 == 0 then .line 16 else .line 11
    r4 := s.r0 &&& 3
    flags := s.flags.setNZ (s.r0 &&& 3) } := by
  cases s; cases hpc; rfl

/-- `cmp r1, #2` and `blt 7$` -/
lemma run_short (hpc : s.pc = .line 11) : run thumb2Checksum mem 2 s = some { s with
    pc := bif (subFlags s.r1 2).lt then .line 35 else .line 13
    flags := subFlags s.r1 2 } := by
  cases s; cases hpc; rfl

/-- The half-word at an address that is no multiple of four. -/
lemma run_headHalf (hpc : s.pc = .line 13) : run thumb2Checksum mem 3 s = some { s with
    pc := .line 16
    r0 := s.r0 + 2
    r1 := s.r1 - 2
    r2 := s.r2 + wordAt mem s.r0 2
    r4 := wordAt mem s.r0 2
    flags := subFlags s.r1 2
    reads := s.reads ++ addrs s.r0 2 } := by
  cases s; cases hpc; rfl

/-- `2$` to `blt 3$` -/
lemma run_testWords (hpc : s.pc = .line 16) : run thumb2Checksum mem 3 s = some { s with
    pc := bif (subFlags s.r1 8).lt then .line 27 else .line 19
    flags := subFlags s.r1 8 } := by
  cases s; cases hpc; rfl

/-- Two words. -/
lemma run_words (hpc : s.pc = .line 19) : run thumb2Checksum mem 8 s = some { s with
    pc := .line 16
    r0 := s.r0 + 4 + 4
    r1 := s.r1 - 8
    r2 := addCarry (addCarry s.r2 (wordAt mem s.r0 4)) (wordAt mem (s.r0 + 4) 4)
    r4 := wordAt mem (s.r0 + 4) 4
    flags := subFlags s.r1 8
    reads := s.reads ++ addrs s.r0 4 ++ addrs (s.r0 + 4) 4 } := by
  cases s; cases hpc; rfl

/-- `3$` to `blt 7$` -/
lemma run_testHalf (hpc : s.pc = .line 27) : run thumb2Checksum mem 3 s = some { s with
    pc := bif (subFlags s.r1 2).lt then .line 35 else .line 30
    flags := subFlags s.r1 2 } := by
  cases s; cases hpc; rfl

/-- A half-word. -/
lemma run_half (hpc : s.pc = .line 30) : run thumb2Checksum mem 5 s = some { s with
    pc := .line 27
    r0 := s.r0 + 2
    r1 := s.r1 - 2
    r2 := addCarry s.r2 (wordAt mem s.r0 2)
    r4 := wordAt mem s.r0 2
    flags := subFlags s.r1 2
    reads := s.reads ++ addrs s.r0 2 } := by
  cases s; cases hpc; rfl

/-- `7$` and `cbz r1, 8$` -/
lemma run_testByte (hpc : s.pc = .line 35) : run thumb2Checksum mem 2 s = some { s with
    pc := bif s.r1 == 0 then .line 40 else .line 37 } := by
  cases s; cases hpc; rfl

/-- The last byte. -/
lemma run_byte (hpc : s.pc = .line 37) : run thumb2Checksum mem 3 s = some { s with
    pc := .line 40
    r2 := addCarry s.r2 (wordAt mem s.r0 1)
    r4 := wordAt mem s.r0 1
    flags := addFlags s.r2 (wordAt mem s.r0 1)
    reads := s.reads ++ addrs s.r0 1 } := by
  cases s; cases hpc; rfl

/-- The two halves of a word added up. -/
def addHalves (v : Word) : Word :=
  (v.extractLsb' 0 16).setWidth 32 + (v.extractLsb' 16 16).setWidth 32

/-- `8$` to `cbz r3, 9$` -/
lemma run_fold (hpc : s.pc = .line 40) :
    ∃ w f, run thumb2Checksum mem 8 s = some { s with
      pc := bif s.r3 == 0 then .line 49 else .line 48
      r2 := addHalves (addHalves s.r2)
      r4 := w
      flags := f } := by
  cases s; cases hpc; exact ⟨_, _, rfl⟩

/-- `rev16 r2, r2` -/
lemma run_swap (hpc : s.pc = .line 48) : run thumb2Checksum mem 1 s = some { s with
    pc := .line 49
    r2 := rev16 s.r2 } := by
  cases s; cases hpc; rfl

/-- `9$` and the return. -/
lemma run_return {w a : Word} {stack : List Word} (hpc : s.pc = .line 49)
    (hstack : s.stack = w :: a :: stack) : run thumb2Checksum mem 3 s = some { s with
    pc := .left a
    r0 := s.r2
    r4 := w
    stack := stack } := by
  cases s; cases hpc; cases hstack; rfl

end Pieces

/-! ### What is kept -/

/-- A call: its arguments and what the caller finds again. -/
structure Call where
  pData : Word
  length : Word
  lr : Word
  r4 : Word
  stack : List Word
  nonneg : length.toNat < 2 ^ 31

/-- The memory as a function of natural numbers, which go round at `2 ^ 32`. -/
def flat (mem : Word → UInt8) (a : ℕ) : UInt8 := mem (BitVec.ofNat 32 a)

lemma bytesAt_eq_load (mem : Word → UInt8) (a k : ℕ) :
    bytesAt mem (BitVec.ofNat 32 a) k = load (flat mem) a k := by
  induction k generalizing a with
  | zero => rfl
  | succ k ih =>
    have hnext : BitVec.ofNat 32 a + 1 = BitVec.ofNat 32 (a + 1) := (BitVec.ofNat_add a 1).symm
    rw [bytesAt, addrs, List.map_cons, hnext, load, ← ih]
    rfl

/-- The sum that the block has to give. -/
def Call.total (c : Call) (mem : Word → UInt8) : ℕ :=
  alignedSum (flat mem) c.pData.toNat c.length.toNat

/-- The program was called and has not done anything. -/
structure Entered (c : Call) (s : State) : Prop where
  pc : s.pc = .line 0
  r0_eq : s.r0 = c.pData
  r1_eq : s.r1 = c.length
  lr_eq : s.lr = c.lr
  r4_eq : s.r4 = c.r4
  stack_eq : s.stack = c.stack
  reads_eq : s.reads = []

/-- What stays the same until the return. -/
structure Running (c : Call) (s : State) : Prop where
  r3_eq : s.r3 = c.pData &&& 1
  stack_eq : s.stack = c.r4 :: c.lr :: c.stack
  reads_in : ∀ a ∈ s.reads, (a - c.pData).toNat < c.length.toNat

/-- Before line `i` nothing is read yet. -/
structure Started (c : Call) (i : ℕ) (s : State) : Prop extends Running c s where
  pc : s.pc = .line i
  r0_eq : s.r0 = c.pData
  r1_eq : s.r1 = c.length
  r2_eq : s.r2 = 0

/-- Before line `i` the sum so far, in `r2`, and the `r1` bytes at `r0` are the block. -/
structure Summing (c : Call) (mem : Word → UInt8) (i : ℕ) (s : State) : Prop extends
    Running c s where
  pc : s.pc = .line i
  left_le : s.r1.toNat ≤ c.length.toNat
  r0_eq : s.r0 = c.pData + (c.length - s.r1)
  sum : ∃ a, Gathers a s.r2.toNat ∧ a + leSum (bytesAt mem s.r0 s.r1.toNat) = c.total mem

/-- All bytes are summed up. -/
structure Summed (c : Call) (mem : Word → UInt8) (s : State) : Prop extends Running c s where
  pc : s.pc = .line 40
  sum : Gathers (c.total mem) s.r2.toNat

/-- The result is in `r2`. -/
structure Folded (c : Call) (mem : Word → UInt8) (s : State) : Prop extends Running c s where
  pc : s.pc = .line 49
  isChksum : IsChksum (flat mem) c.pData.toNat c.length.toNat s.r2.toNat

/-- The program has returned: the result is in `r0`, and it has read bytes of the block only. -/
structure Returned (c : Call) (mem : Word → UInt8) (s : State) : Prop where
  pc : s.pc = .left c.lr
  r4_eq : s.r4 = c.r4
  stack_eq : s.stack = c.stack
  isChksum : IsChksum (flat mem) c.pData.toNat c.length.toNat s.r0.toNat
  reads_in : ∀ a ∈ s.reads, (a - c.pData).toNat < c.length.toNat

lemma sub_add_eq_sub_sub (a b k : Word) : a - b + k = a - (b - k) := by
  bv_omega

section Kept

variable {c : Call} {mem : Word → UInt8} {i : ℕ} {s : State}

/-- A test changes the `pc`, the flags and `r4` only. -/
lemma Summing.goto (h : Summing c mem i s) (j : ℕ) (w : Word) (f : Flags) :
    Summing c mem j { s with pc := .line j, r4 := w, flags := f } :=
  { h with pc := rfl }

/-- The bytes at `r0` belong to the block. -/
lemma Summing.addrs_in (h : Summing c mem i s) {k : ℕ} (hk : k ≤ s.r1.toNat) {a : Word}
    (ha : a ∈ addrs s.r0 k) : (a - c.pData).toNat < c.length.toNat := by
  obtain ⟨n, hn, rfl⟩ := mem_addrs ha
  have hlen := c.nonneg
  have hle := h.left_le
  have hoff : c.pData + (c.length - s.r1) + BitVec.ofNat 32 n - c.pData =
      c.length - s.r1 + BitVec.ofNat 32 n := by
    rw [BitVec.add_assoc, BitVec.add_comm, BitVec.add_sub_cancel]
  rw [h.r0_eq, hoff, BitVec.toNat_add, BitVec.toNat_sub_of_le hle, BitVec.toNat_ofNat]
  omega

/-- The first `k` bytes at `r0` are added to the sum, an even number of them or all. -/
lemma Summing.advance (h : Summing c mem i s) {k : ℕ} (hk : k ≤ s.r1.toNat)
    (heven : k % 2 = 0 ∨ k = s.r1.toNat) {j : ℕ} {t : State} (hpc : t.pc = .line j)
    (hr0 : t.r0 = s.r0 + BitVec.ofNat 32 k) (hr1 : t.r1 = s.r1 - BitVec.ofNat 32 k)
    (hr3 : t.r3 = s.r3) (hstack : t.stack = s.stack)
    (hreads : ∀ a ∈ t.reads, a ∈ s.reads ∨ a ∈ addrs s.r0 k)
    (hsum : ∀ a, Gathers a s.r2.toNat → Gathers (a + leSum (bytesAt mem s.r0 k)) t.r2.toNat) :
    Summing c mem j t := by
  have hlt := s.r1.isLt
  have hleft := h.left_le
  have hkNat : (BitVec.ofNat 32 k).toNat = k := by
    rw [BitVec.toNat_ofNat]
    omega
  have hr1Nat : t.r1.toNat = s.r1.toNat - k := by
    rw [hr1, BitVec.toNat_sub_of_le (hkNat.trans_le hk), hkNat]
  obtain ⟨a, ha, htotal⟩ := h.sum
  -- the bytes that are left when `k` are taken
  have hsplit : leSum (bytesAt mem s.r0 s.r1.toNat) =
      leSum (bytesAt mem s.r0 k) + leSum (bytesAt mem t.r0 t.r1.toNat) := by
    rw [hr0, hr1Nat]
    rcases heven with heven | hall
    · rw [← leSum_append (by rwa [length_bytesAt]), ← bytesAt_add, Nat.add_sub_cancel' hk]
    · rw [← hall, Nat.sub_self]
      rfl
  exact
    { pc := hpc
      r3_eq := hr3.trans h.r3_eq
      stack_eq := hstack.trans h.stack_eq
      left_le := by omega
      r0_eq := by
        rw [hr0, hr1, h.r0_eq, BitVec.add_assoc, sub_add_eq_sub_sub]
      reads_in := fun b hb => (hreads b hb).elim (h.reads_in b) (h.addrs_in hk)
      sum := ⟨_, hsum a ha, by rw [add_assoc, ← hsplit, htotal]⟩ }

/-- The halves of a word of at most four bytes add up to their sum. -/
lemma halves_leValue (bs : List UInt8) (h : bs.length ≤ 4) :
    leValue bs % 65536 + leValue bs / 65536 = leSum bs := by
  match bs, h with
  | [], _ => rfl
  | [a], _ =>
    have := a.toNat_lt
    simp only [leValue, leSum]
    omega
  | [a, b], _ =>
    have := a.toNat_lt
    have := b.toNat_lt
    simp only [leValue, leSum]
    omega
  | [a, b, c], _ =>
    have := a.toNat_lt
    have := b.toNat_lt
    have := c.toNat_lt
    simp only [leValue, leSum]
    omega
  | [a, b, c, d], _ =>
    have := a.toNat_lt
    have := b.toNat_lt
    have := c.toNat_lt
    have := d.toNat_lt
    simp only [leValue, leSum]
    omega

/-- A byte or a half-word is its own sum. -/
lemma toNat_wordAt_eq_leSum (mem : Word → UInt8) (a : Word) {k : ℕ} (hk : k ≤ 2) :
    (wordAt mem a k).toNat = leSum (bytesAt mem a k) := by
  have hlt := leValue_lt (bytesAt mem a k)
  have hpow : 256 ^ k ≤ 256 ^ 2 := Nat.pow_le_pow_right (by decide) hk
  have hlen := length_bytesAt mem a k
  have hhalves := halves_leValue (bytesAt mem a k) (by omega)
  rw [hlen] at hlt
  rw [toNat_wordAt mem a (by omega)]
  omega

/-- An addition with its carry. -/
lemma gathers_addCarry {a : ℕ} {r p : Word} {k : ℕ} (hk : k ≤ 4) (h : Gathers a r.toNat) :
    Gathers (a + leSum (bytesAt mem p k)) (addCarry r (wordAt mem p k)).toNat := by
  have hword := (wordAt mem p k).isLt
  have hcarry := h.addCarry hword
  rw [toNat_addCarry]
  rwa [toNat_wordAt mem p hk, halves_leValue _ (by rwa [length_bytesAt]),
    ← toNat_wordAt mem p hk] at hcarry

end Kept

/-! ### From label to label -/

section Labels

variable {c : Call} {mem : Word → UInt8}

lemma and_one_beq_zero (a : Word) : (a &&& 1 == 0) = decide (a.toNat % 2 = 0) := by
  rw [beq_eq_decide, decide_eq_decide, ← BitVec.toNat_inj, BitVec.toNat_and]
  exact Nat.and_two_pow_sub_one_eq_mod _ 1 ▸ Iff.rfl

lemma beq_zero (a : Word) : (a == 0) = decide (a.toNat = 0) := by
  rw [beq_eq_decide, decide_eq_decide, ← BitVec.toNat_inj]
  rfl

/-- To the test for an odd address. -/
lemma leads_started : Leads thumb2Checksum mem (Entered c)
    fun s => Started c (if c.pData.toNat % 2 = 0 then 8 else 4) s := by
  refine Leads.of_run 4 fun s hs => ⟨_, run_entry mem hs.pc, ?_⟩
  exact
    { pc := by
        rw [hs.r0_eq, and_one_beq_zero]
        split
        · rw [decide_eq_true ‹_›]; rfl
        · rw [decide_eq_false ‹_›]; rfl
      r3_eq := by rw [hs.r0_eq]
      stack_eq := by rw [hs.r4_eq, hs.lr_eq, hs.stack_eq]
      reads_in := by simp [hs.reads_eq]
      r0_eq := hs.r0_eq
      r1_eq := hs.r1_eq
      r2_eq := rfl }

/-- A block at an even address. -/
lemma Started.summing {s : State} (hs : Started c 8 s) (heven : c.pData.toNat % 2 = 0) :
    Summing c mem 8 s :=
  { hs with
    left_le := by rw [hs.r1_eq]
    r0_eq := by rw [hs.r0_eq, hs.r1_eq, BitVec.sub_self, BitVec.add_zero]
    sum := by
      refine ⟨0, hs.r2_eq ▸ gathers_of_lt (Nat.two_pow_pos 32), ?_⟩
      rw [Nat.zero_add, hs.r0_eq, hs.r1_eq, Call.total, alignedSum, if_neg (by omega),
        ← bytesAt_eq_load, BitVec.ofNat_toNat, BitVec.setWidth_eq] }

/-- An empty block at an odd address: `cbz r1, 9$` -/
lemma Started.folded {s : State} (hs : Started c 4 s) (hodd : c.pData.toNat % 2 = 1)
    (hlen : s.r1.toNat = 0) : Folded c mem { s with pc := .line 49 } := by
  have hzero : alignedSum (flat mem) c.pData.toNat c.length.toNat = 0 := by
    rw [← hs.r1_eq, hlen, alignedSum, if_neg (by omega)]
    rfl
  have hchksum : IsChksum (flat mem) c.pData.toNat c.length.toNat 0 :=
    ⟨0, by rw [hzero]; exact folds_of_lt (by decide), by rw [if_pos hodd]; rfl⟩
  exact { hs with pc := rfl, isChksum := by rw [hs.r2_eq]; exact hchksum }

/-- The first byte of a block at an odd address. -/
lemma Started.summing_odd {s t : State} (hs : Started c 4 s) (hodd : c.pData.toNat % 2 = 1)
    (hlen : s.r1.toNat ≠ 0) (hpc : t.pc = .line 8) (hr0 : t.r0 = s.r0 + 1) (hr1 : t.r1 = s.r1 - 1)
    (hr2 : t.r2.toNat = 256 * (mem s.r0).toNat) (hr3 : t.r3 = s.r3) (hstack : t.stack = s.stack)
    (hreads : t.reads = s.reads ++ addrs s.r0 1) : Summing c mem 8 t := by
  have hnext : c.pData + 1 = BitVec.ofNat 32 (c.pData.toNat + 1) := by
    rw [BitVec.ofNat_add, BitVec.ofNat_toNat, BitVec.setWidth_eq]
    rfl
  have hleft : t.r1.toNat = c.length.toNat - 1 := by
    rw [hr1, ← hs.r1_eq]
    exact BitVec.toNat_sub_of_le (Nat.one_le_iff_ne_zero.mpr hlen)
  have hbyte := (mem s.r0).toNat_lt
  rw [hs.r1_eq] at hlen
  exact
    { pc := hpc
      r3_eq := hr3.trans hs.r3_eq
      stack_eq := hstack.trans hs.stack_eq
      reads_in := by
        intro a ha
        rw [hreads, List.mem_append] at ha
        rcases ha with ha | ha
        · exact hs.reads_in a ha
        · obtain rfl : a = s.r0 := List.mem_singleton.mp ha
          rw [hs.r0_eq, BitVec.sub_self]
          exact Nat.pos_of_ne_zero hlen
      left_le := by omega
      r0_eq := by
        rw [hr0, hr1, hs.r0_eq, hs.r1_eq, ← sub_add_eq_sub_sub, BitVec.sub_self, BitVec.zero_add]
      sum := by
        refine ⟨_, gathers_of_lt (by omega), ?_⟩
        rw [hr2, hr0, hs.r0_eq, hleft, Call.total, alignedSum,
          if_pos ⟨hodd, Nat.pos_of_ne_zero hlen⟩, hnext, bytesAt_eq_load, flat, BitVec.ofNat_toNat,
          BitVec.setWidth_eq] }

lemma toNat_wordAt_shiftLeft (mem : Word → UInt8) (a : Word) :
    (wordAt mem a 1 <<< 8).toNat = 256 * (mem a).toNat := by
  have hbyte := (mem a).toNat_lt
  have hword : (wordAt mem a 1).toNat = (mem a).toNat := toNat_wordAt mem a (by decide)
  rw [BitVec.toNat_shiftLeft, hword, Nat.shiftLeft_eq]
  omega

/-- To the first label: the byte at an odd address is taken. -/
lemma leads_entry : Leads thumb2Checksum mem (Entered c)
    fun s => Summing c mem 8 s ∧ s.r2.toNat ≤ 0xff00 ∨ Folded c mem s := by
  refine leads_started.trans fun s hs => ?_
  by_cases heven : c.pData.toNat % 2 = 0
  · rw [if_pos heven] at hs
    exact ⟨0, s, rfl, Or.inl ⟨hs.summing heven, by rw [hs.r2_eq]; exact Nat.zero_le _⟩⟩
  have hodd : c.pData.toNat % 2 = 1 := by omega
  rw [if_neg heven] at hs
  have hempty := run_empty mem hs.pc
  rw [beq_zero] at hempty
  by_cases hlen : s.r1.toNat = 0
  · rw [decide_eq_true hlen] at hempty
    exact ⟨1, _, hempty, Or.inr (hs.folded hodd hlen)⟩
  · rw [decide_eq_false hlen] at hempty
    obtain ⟨f, hbyte⟩ := run_headByte mem (s := { s with pc := .line 5 }) rfl
    have hr2 := toNat_wordAt_shiftLeft mem s.r0
    have hlt := (mem s.r0).toNat_lt
    refine ⟨1 + 3, _, run_trans hempty hbyte, Or.inl ⟨?_, by rw [hr2]; omega⟩⟩
    exact hs.summing_odd hodd hlen rfl rfl rfl hr2 rfl rfl rfl

/-- A comparison of the length that is left, from line `i` on. -/
def Compares (mem : Word → UInt8) (i j l : ℕ) (w : Word) : Prop :=
  ∃ n, ∀ s : State, s.pc = .line i → run thumb2Checksum mem n s = some { s with
    pc := bif (subFlags s.r1 w).lt then .line l else .line j
    flags := subFlags s.r1 w }

variable {i j l : ℕ} {w : Word} {s : State}

lemma Compares.of_lt (htest : Compares mem i j l w) (hw : w.toNat < 2 ^ 31) (hs : Summing c mem i s)
    (hlt : s.r1.toNat < w.toNat) :
    ∃ n t, run thumb2Checksum mem n s = some t ∧ Summing c mem l t ∧ t.r1 = s.r1 := by
  obtain ⟨n, hrun⟩ := htest
  have hs' := hrun s hs.pc
  rw [lt_subFlags (hs.left_le.trans_lt c.nonneg) hw, decide_eq_true hlt] at hs'
  exact ⟨n, _, hs', hs.goto l _ _, rfl⟩

lemma Compares.of_ge (htest : Compares mem i j l w) (hw : w.toNat < 2 ^ 31) (hs : Summing c mem i s)
    (hle : w.toNat ≤ s.r1.toNat) : ∃ n t, run thumb2Checksum mem n s = some t ∧
      Summing c mem j t ∧ t.r1 = s.r1 ∧ t.r2 = s.r2 := by
  obtain ⟨n, hrun⟩ := htest
  have hs' := hrun s hs.pc
  rw [lt_subFlags (hs.left_le.trans_lt c.nonneg) hw, decide_eq_false (Nat.not_lt.mpr hle)] at hs'
  exact ⟨n, _, hs', hs.goto j _ _, rfl, rfl⟩

/-- A loop that goes on while `w` bytes are left. -/
lemma Compares.leads_while (htest : Compares mem i j l w) (hpos : 0 < w.toNat)
    (hw : w.toNat < 2 ^ 31)
    (hbody : ∀ s, Summing c mem j s → w.toNat ≤ s.r1.toNat →
      ∃ n t, run thumb2Checksum mem n s = some t ∧ Summing c mem i t ∧ t.r1 = s.r1 - w) :
    Leads thumb2Checksum mem (Summing c mem i)
      fun s => Summing c mem l s ∧ s.r1.toNat < w.toNat := by
  refine Leads.loop (fun s => s.r1.toNat) (fun s => w.toNat ≤ s.r1.toNat) (fun k => ?_) ?_
  · rintro s ⟨hs, hle, rfl⟩
    obtain ⟨n, t, hrun, ht, hr1, -⟩ := htest.of_ge hw hs hle
    rw [← hr1] at hle
    obtain ⟨n', u, hrun', hu, hr1'⟩ := hbody t ht hle
    refine ⟨n + n', u, run_trans hrun hrun', hu, ?_⟩
    rw [hr1', BitVec.toNat_sub_of_le hle, hr1]
    rw [hr1] at hle
    exact Nat.sub_lt (hpos.trans_le hle) hpos
  · rintro s ⟨hs, hlt⟩
    obtain ⟨n, t, hrun, ht, hr1⟩ := htest.of_lt hw hs (Nat.not_le.mp hlt)
    exact ⟨n, t, hrun, ht, hr1 ▸ Nat.not_le.mp hlt⟩

/-- To the main loop, or to the trailing byte. -/
lemma leads_align : Leads thumb2Checksum mem (fun s => Summing c mem 8 s ∧ s.r2.toNat ≤ 0xff00)
    fun s => Summing c mem 16 s ∨ Summing c mem 35 s ∧ s.r1.toNat < 2 := by
  rintro s ⟨hs, hr2⟩
  have haligned := run_aligned mem hs.pc
  cases hz : s.r0 &&& 3 == 0 with
  | true =>
    rw [hz] at haligned
    exact ⟨3, _, haligned, Or.inl (hs.goto 16 _ _)⟩
  | false =>
    rw [hz] at haligned
    have htest : Compares mem 11 13 35 2 := ⟨2, fun s => run_short mem⟩
    have hs₁ := hs.goto 11 (s.r0 &&& 3) (s.flags.setNZ (s.r0 &&& 3))
    by_cases hlt : s.r1.toNat < 2
    · obtain ⟨n, t, hrun, ht, hr1⟩ := htest.of_lt (by decide) hs₁ hlt
      exact ⟨3 + n, t, run_trans haligned hrun, Or.inr ⟨ht, hr1 ▸ hlt⟩⟩
    · obtain ⟨n, t, hrun, ht, hr1, hr2'⟩ := htest.of_ge (by decide) hs₁ (Nat.not_lt.mp hlt)
      have hle : 2 ≤ t.r1.toNat := hr1 ▸ Nat.not_lt.mp hlt
      refine ⟨3 + n + 3, _, run_trans (run_trans haligned hrun) (run_headHalf mem ht.pc), Or.inl ?_⟩
      refine ht.advance (k := 2) hle (Or.inl rfl) rfl rfl rfl rfl rfl ?_ ?_
      · exact fun a ha => List.mem_append.mp ha
      · -- there is no carry yet
        intro a ha
        have hword := toNat_wordAt_eq_leSum mem t.r0 le_rfl
        have hbound : (wordAt mem t.r0 2).toNat < 65536 := by
          have hlt := leValue_lt (bytesAt mem t.r0 2)
          rwa [length_bytesAt, ← toNat_wordAt mem t.r0 (by decide)] at hlt
        rw [← hr2'] at hr2
        have hsum : (t.r2 + wordAt mem t.r0 2).toNat = t.r2.toNat + leSum (bytesAt mem t.r0 2) := by
          rw [BitVec.toNat_add, ← hword]
          omega
        have hadd := ha.add (w := leSum (bytesAt mem t.r0 2)) (by omega)
        rwa [← hsum] at hadd

/-- The main loop. -/
lemma leads_words : Leads thumb2Checksum mem (Summing c mem 16)
    fun s => Summing c mem 27 s ∧ s.r1.toNat < 8 := by
  have htest : Compares mem 16 19 27 8 := ⟨3, fun s => run_testWords mem⟩
  refine htest.leads_while (by decide) (by decide) fun s hs hle =>
    ⟨8, _, run_words mem hs.pc, ?_, rfl⟩
  refine hs.advance (k := 8) hle (Or.inl rfl) rfl (BitVec.add_assoc _ _ _) rfl rfl rfl ?_ ?_
  · intro a ha
    have haddrs : addrs s.r0 8 = addrs s.r0 4 ++ addrs (s.r0 + 4) 4 := addrs_add s.r0 4 4
    rwa [List.append_assoc, ← haddrs, List.mem_append] at ha
  · intro a ha
    have hbytes : bytesAt mem s.r0 8 = bytesAt mem s.r0 4 ++ bytesAt mem (s.r0 + 4) 4 :=
      bytesAt_add mem s.r0 4 4
    rw [hbytes, leSum_append (by rw [length_bytesAt]), ← add_assoc]
    exact gathers_addCarry le_rfl (gathers_addCarry le_rfl ha)

/-- The loop over half-words. -/
lemma leads_halves : Leads thumb2Checksum mem (Summing c mem 27)
    fun s => Summing c mem 35 s ∧ s.r1.toNat < 2 := by
  have htest : Compares mem 27 30 35 2 := ⟨3, fun s => run_testHalf mem⟩
  refine htest.leads_while (by decide) (by decide) fun s hs hle =>
    ⟨5, _, run_half mem hs.pc, ?_, rfl⟩
  refine hs.advance (k := 2) hle (Or.inl rfl) rfl rfl rfl rfl rfl ?_ ?_
  · exact fun a ha => List.mem_append.mp ha
  · exact fun a ha => gathers_addCarry (by decide) ha

/-- The trailing byte. -/
lemma leads_byte : Leads thumb2Checksum mem (fun s => Summing c mem 35 s ∧ s.r1.toNat < 2)
    (Summed c mem) := by
  rintro s ⟨hs, hlt⟩
  obtain ⟨a, ha, htotal⟩ := hs.sum
  have htest := run_testByte mem hs.pc
  rw [beq_zero] at htest
  by_cases hzero : s.r1.toNat = 0
  · rw [decide_eq_true hzero] at htest
    rw [hzero] at htotal
    exact ⟨2, _, htest, { hs with pc := rfl, sum := htotal ▸ ha }⟩
  · have hone : s.r1.toNat = 1 := by omega
    rw [decide_eq_false hzero] at htest
    rw [hone] at htotal
    refine ⟨2 + 3, _, run_trans htest (run_byte mem rfl), ?_⟩
    exact
      { r3_eq := hs.r3_eq
        stack_eq := hs.stack_eq
        pc := rfl
        sum := htotal ▸ gathers_addCarry (by decide) ha
        reads_in := fun b hb => (List.mem_append.mp hb).elim (hs.reads_in b)
          (hs.addrs_in hone.ge) }

lemma toNat_addHalves (v : Word) : (addHalves v).toNat = v.toNat / 65536 + v.toNat % 65536 := by
  have hlt := v.isLt
  have hhigh : v.toNat / 2 ^ 16 < 2 ^ 16 := by omega
  rw [addHalves, BitVec.toNat_add, toNat_ubfx (by decide), toNat_ubfx (by decide), pow_zero,
    Nat.div_one, Nat.mod_eq_of_lt hhigh]
  omega

/-- The fold, and the exchange of bytes for a block at an odd address. -/
lemma leads_fold : Leads thumb2Checksum mem (Summed c mem) (Folded c mem) := by
  intro s hs
  have hfolds := hs.sum.folds
  rw [← toNat_addHalves, ← toNat_addHalves] at hfolds
  obtain ⟨w, f, hrun⟩ := run_fold mem hs.pc
  have hodd : (s.r3 == 0) = decide (c.pData.toNat % 2 = 0) := by
    rw [hs.r3_eq, and_one_beq_zero]
  rw [hodd] at hrun
  by_cases heven : c.pData.toNat % 2 = 0
  · rw [decide_eq_true heven] at hrun
    refine ⟨8, _, hrun, ?_⟩
    exact { hs with pc := rfl, isChksum := ⟨_, hfolds, by rw [if_neg (by omega)]⟩ }
  · rw [decide_eq_false heven] at hrun
    refine ⟨8 + 1, _, run_trans hrun (run_swap mem rfl), ?_⟩
    have hswap := toNat_rev16 (Nat.lt_succ_of_le hfolds.le)
    exact { hs with pc := rfl, isChksum := ⟨_, hfolds, by rw [if_pos (by omega)]; exact hswap⟩ }

lemma leads_return : Leads thumb2Checksum mem (Folded c mem) (Returned c mem) := by
  refine Leads.of_run 3 fun s hs => ⟨_, run_return mem hs.pc hs.stack_eq, ?_⟩
  exact ⟨rfl, rfl, rfl, hs.isChksum, hs.reads_in⟩

/-- The whole program. -/
lemma leads_thumb2Checksum (c : Call) (mem : Word → UInt8) :
    Leads thumb2Checksum mem (Entered c) (Returned c mem) := by
  have htail : Leads thumb2Checksum mem (fun s => Summing c mem 35 s ∧ s.r1.toNat < 2)
      (Folded c mem) := leads_byte.trans leads_fold
  have hloops : Leads thumb2Checksum mem (Summing c mem 16) (Folded c mem) :=
    (leads_words.trans fun s hs => leads_halves s hs.1).trans htail
  have hsum := leads_align.trans (hloops.or htail)
  exact (leads_entry.trans (hsum.or fun s hs => ⟨0, s, rfl, hs⟩)).trans leads_return

end Labels

/-- **The port's checksum is lwIP's.**  From its call at any address, with any length that is not
negative and any memory, `thumb2_checksum` returns to its caller with the value of version 3 of
`lwip_standard_chksum` in `r0`, and for a length up to 0x20000 with the value of version 2.  It
reads bytes of the block only. -/
theorem thumb2Checksum_eq_lwipStandardChksum (mem : Word → UInt8) (c : Call) {s : State}
    (hs : Entered c s) :
    ∃ n t, run thumb2Checksum mem n s = some t ∧
      t.pc = .left c.lr ∧ t.r4 = c.r4 ∧ t.stack = c.stack ∧
      t.r0.toNat = lwipStandardChksum3 (flat mem) c.pData.toNat c.length.toNat ∧
      (c.length.toNat ≤ 0x20000 →
        t.r0.toNat = lwipStandardChksum2 (flat mem) c.pData.toNat c.length.toNat) ∧
      ∀ a ∈ t.reads, (a - c.pData).toNat < c.length.toNat := by
  obtain ⟨n, t, hrun, ht⟩ := leads_thumb2Checksum c mem s hs
  refine ⟨n, t, hrun, ht.pc, ht.r4_eq, ht.stack_eq, ?_, fun hlen => ?_, ht.reads_in⟩
  · exact ht.isChksum.unique (isChksum_lwipStandardChksum3 (flat mem) _ _)
  · exact ht.isChksum.unique (isChksum_lwipStandardChksum2 (flat mem) _ hlen)

/-- A call for the eleven bytes from an odd address on. -/
def sampleCall : Call where
  pData := 0x20001001
  length := 11
  lr := 0x60001235
  r4 := 0xCAFE
  stack := []
  nonneg := by decide

/-- A memory of bytes that count up. -/
def countingMem (a : Word) : UInt8 := UInt8.ofNat a.toNat

/-- The state when it is called. -/
def sampleEntry : State where
  pc := .line 0
  r0 := 0x20001001
  r1 := 11
  r2 := 7
  r3 := 7
  r4 := 0xCAFE
  lr := 0x60001235
  flags := ⟨false, false, false, false⟩
  stack := []
  reads := []

theorem thumb2Checksum_eq_sample :
    ∃ n t, run thumb2Checksum countingMem n sampleEntry = some t ∧ t.pc = .left 0x60001235 ∧
      t.r0.toNat = 0x1E24 := by
  have hentered : Entered sampleCall sampleEntry := ⟨rfl, rfl, rfl, rfl, rfl, rfl, rfl⟩
  obtain ⟨n, t, hrun, hpc, -, -, hr0, -, -⟩ :=
    thumb2Checksum_eq_lwipStandardChksum countingMem sampleCall hentered
  refine ⟨n, t, hrun, hpc, hr0.trans ?_⟩
  decide +kernel

end Teensy41Ethernet.Lwip
