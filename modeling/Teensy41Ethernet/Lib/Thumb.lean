import Teensy41Ethernet.Lib.LittleEndian

/-!
# A fragment of Thumb-2

A program is a list of lines, each a label or an instruction.  The machine has registers of 32
bits, the flags and a memory of bytes, the low byte of a word first, which the programs here
only read.  The words that are pushed are kept apart from that memory, as a list.  The machine
also records the addresses of the bytes that it reads.

A straight piece of a program is executed by computation: `run` counts the steps, and what a
number of steps makes of a state whose `pc` is known is found by reduction.  `Leads` puts the
pieces together, with a rule for loops.
-/

namespace Teensy41Ethernet.Lib.Thumb

/-! ### Programs and states -/

abbrev Word := BitVec 32

inductive Reg where
  | r0
  | r1
  | r2
  | r3
  | r4
  | lr

/-- The address `[rn]`, or `[rn], #imm`, which adds `imm` to the register after the access. -/
inductive Address where
  | base (rn : Reg)
  | post (rn : Reg) (imm : Word)

/-- Instructions.  `popPc` takes the registers and then the `pc` from the stack. -/
inductive Instr where
  | push (rs : List Reg)
  | popPc (rs : List Reg)
  | movs (rd : Reg) (imm : Word)
  | mov (rd rm : Reg)
  | ands (rd rn : Reg) (imm : Word)
  | lsls (rd rm : Reg) (k : ℕ)
  | adds (rd rn rm : Reg)
  | adc (rd rn : Reg) (imm : Word)
  | subs (rd rn : Reg) (imm : Word)
  | cmp (rn : Reg) (imm : Word)
  | ubfx (rd rn : Reg) (lsb width : ℕ)
  | rev16 (rd rm : Reg)
  | ldrb (rt : Reg) (a : Address)
  | ldrh (rt : Reg) (a : Address)
  | ldr (rt : Reg) (a : Address)
  | b (l : ℕ)
  | beq (l : ℕ)
  | blt (l : ℕ)
  | cbz (rn : Reg) (l : ℕ)

inductive Line where
  | label (l : ℕ)
  | instr (i : Instr)

/-- Where the machine is: before a line of the program, or outside of it, at an address. -/
inductive Pc where
  | line (i : ℕ)
  | left (a : Word)

structure Flags where
  n : Bool
  z : Bool
  c : Bool
  v : Bool

structure State where
  pc : Pc
  r0 : Word
  r1 : Word
  r2 : Word
  r3 : Word
  r4 : Word
  lr : Word
  flags : Flags
  stack : List Word
  reads : List Word

def State.get (s : State) : Reg → Word
  | .r0 => s.r0
  | .r1 => s.r1
  | .r2 => s.r2
  | .r3 => s.r3
  | .r4 => s.r4
  | .lr => s.lr

def State.set (s : State) (v : Word) : Reg → State
  | .r0 => { s with r0 := v }
  | .r1 => { s with r1 := v }
  | .r2 => { s with r2 := v }
  | .r3 => { s with r3 := v }
  | .r4 => { s with r4 := v }
  | .lr => { s with lr := v }

/-! ### Instructions -/

/-- The flags of an addition. -/
def addFlags (a b : Word) : Flags where
  n := (a + b).msb
  z := a + b == 0
  c := decide (2 ^ 32 ≤ a.toNat + b.toNat)
  v := BitVec.saddOverflow a b

/-- The flags of a subtraction; the carry is set if there is no borrow. -/
def subFlags (a b : Word) : Flags where
  n := (a - b).msb
  z := a - b == 0
  c := decide (b.toNat ≤ a.toNat)
  v := BitVec.ssubOverflow a b

/-- The flags that every result sets. -/
def Flags.setNZ (f : Flags) (v : Word) : Flags := { f with n := v.msb, z := v == 0 }

/-- The condition `lt`. -/
def Flags.lt (f : Flags) : Bool := f.n != f.v

def Line.isLabel (l : ℕ) : Line → Bool
  | .label l' => l == l'
  | .instr _ => false

/-- Go to a label if `c`. -/
def State.branch (s : State) (code : List Line) (l : ℕ) (c : Bool) : State :=
  { s with pc := bif c then .line (code.findIdx (Line.isLabel l)) else s.pc }

/-- `k` addresses from `a` on. -/
def addrs : Word → ℕ → List Word
  | _, 0 => []
  | a, k + 1 => a :: addrs (a + 1) k

/-- The bytes at these addresses. -/
def bytesAt (mem : Word → UInt8) (a : Word) (k : ℕ) : List UInt8 := (addrs a k).map mem

/-- The number whose bytes these are, the low one first. -/
def leValue : List UInt8 → ℕ
  | [] => 0
  | b :: bs => b.toNat + 256 * leValue bs

/-- The `k` bytes at an address as a word. -/
def wordAt (mem : Word → UInt8) (a : Word) (k : ℕ) : Word :=
  BitVec.ofNat 32 (leValue (bytesAt mem a k))

/-- Load `k` bytes into `rt`. -/
def State.load (s : State) (mem : Word → UInt8) (k : ℕ) (rt : Reg) : Address → State
  | .base rn =>
      let a := s.get rn
      { s with reads := s.reads ++ addrs a k }.set (wordAt mem a k) rt
  | .post rn imm =>
      let a := s.get rn
      let s := { s with reads := s.reads ++ addrs a k }.set (a + imm) rn
      s.set (wordAt mem a k) rt

/-- Take registers and the `pc` from the stack. -/
def State.pop (s : State) : List Reg → Option State
  | [] =>
      match s.stack with
      | [] => none
      | w :: stack => some { s with stack := stack, pc := .left w }
  | r :: rs =>
      match s.stack with
      | [] => none
      | w :: stack => State.pop ({ s with stack := stack }.set w r) rs

/-- Exchange the bytes of each half of a word. -/
def rev16 (v : Word) : Word :=
  v.extractLsb' 16 8 ++ v.extractLsb' 24 8 ++ v.extractLsb' 0 8 ++ v.extractLsb' 8 8

/-- What an instruction does, with the `pc` already behind it. -/
def execInstr (code : List Line) (mem : Word → UInt8) (s : State) : Instr → Option State
  | .push rs => some { s with stack := rs.map s.get ++ s.stack }
  | .popPc rs => s.pop rs
  | .movs rd imm => some ({ s with flags := s.flags.setNZ imm }.set imm rd)
  | .mov rd rm => some (s.set (s.get rm) rd)
  | .ands rd rn imm =>
      let v := s.get rn &&& imm
      some ({ s with flags := s.flags.setNZ v }.set v rd)
  | .lsls rd rm k =>
      let v := s.get rm <<< k
      let c := if k = 0 then s.flags.c else (s.get rm).getLsbD (32 - k)
      some ({ s with flags := { s.flags.setNZ v with c := c } }.set v rd)
  | .adds rd rn rm =>
      some ({ s with flags := addFlags (s.get rn) (s.get rm) }.set (s.get rn + s.get rm) rd)
  | .adc rd rn imm => some (s.set (s.get rn + imm + BitVec.ofNat 32 s.flags.c.toNat) rd)
  | .subs rd rn imm =>
      some ({ s with flags := subFlags (s.get rn) imm }.set (s.get rn - imm) rd)
  | .cmp rn imm => some { s with flags := subFlags (s.get rn) imm }
  | .ubfx rd rn lsb width => some (s.set (((s.get rn).extractLsb' lsb width).setWidth 32) rd)
  | .rev16 rd rm => some (s.set (rev16 (s.get rm)) rd)
  | .ldrb rt a => some (s.load mem 1 rt a)
  | .ldrh rt a => some (s.load mem 2 rt a)
  | .ldr rt a => some (s.load mem 4 rt a)
  | .b l => some (s.branch code l true)
  | .beq l => some (s.branch code l s.flags.z)
  | .blt l => some (s.branch code l s.flags.lt)
  | .cbz rn l => some (s.branch code l (s.get rn == 0))

/-- One step; `none` outside of the program. -/
def step (code : List Line) (mem : Word → UInt8) (s : State) : Option State :=
  match s.pc with
  | .left _ => none
  | .line i =>
      match code[i]? with
      | none => none
      | some (.label _) => some { s with pc := .line (i + 1) }
      | some (.instr ins) => execInstr code mem { s with pc := .line (i + 1) } ins

/-- A number of steps. -/
def run (code : List Line) (mem : Word → UInt8) : ℕ → State → Option State
  | 0, s => some s
  | n + 1, s => (step code mem s).bind (run code mem n)

/-! ### Programs in pieces -/

section Pieces

variable {code : List Line} {mem : Word → UInt8} {P Q R : State → Prop}

lemma run_add (m n : ℕ) (s : State) :
    run code mem (m + n) s = (run code mem m s).bind (run code mem n) := by
  induction m generalizing s with
  | zero => rw [Nat.zero_add, run, Option.bind_some]
  | succ m ih =>
    rw [Nat.succ_add, run, run]
    cases step code mem s with
    | none => rfl
    | some t => exact ih t

lemma run_trans {m n : ℕ} {s t u : State} (h : run code mem m s = some t)
    (h' : run code mem n t = some u) : run code mem (m + n) s = some u := by
  rw [run_add, h, Option.bind_some, h']

/-- From every state with `P` the program comes to a state with `Q`. -/
def Leads (code : List Line) (mem : Word → UInt8) (P Q : State → Prop) : Prop :=
  ∀ s, P s → ∃ n t, run code mem n s = some t ∧ Q t

/-- A piece that takes `n` steps. -/
lemma Leads.of_run (n : ℕ) (h : ∀ s, P s → ∃ t, run code mem n s = some t ∧ Q t) :
    Leads code mem P Q :=
  fun s hs => ⟨n, h s hs⟩

lemma Leads.trans (h : Leads code mem P Q) (h' : Leads code mem Q R) : Leads code mem P R := by
  intro s hs
  obtain ⟨m, t, hrun, ht⟩ := h s hs
  obtain ⟨n, u, hrun', hu⟩ := h' t ht
  exact ⟨m + n, u, run_trans hrun hrun', hu⟩

/-- Two ways that come to the same end. -/
lemma Leads.or (h : Leads code mem P R) (h' : Leads code mem Q R) :
    Leads code mem (fun s => P s ∨ Q s) R :=
  fun s hs => hs.elim (h s) (h' s)

/-- **The rule for loops.**  While `c` holds, the body comes back to `P` and lessens the
measure `μ`. -/
theorem Leads.loop (μ : State → ℕ) (c : State → Prop)
    (hbody : ∀ k, Leads code mem (fun s => P s ∧ c s ∧ μ s = k) fun s => P s ∧ μ s < k)
    (hend : Leads code mem (fun s => P s ∧ ¬ c s) Q) : Leads code mem P Q := by
  -- by induction on a bound of the measure
  have hbound : ∀ k, Leads code mem (fun s => P s ∧ μ s < k) Q := by
    intro k
    induction k with
    | zero =>
      rintro s ⟨-, hlt⟩
      exact absurd hlt (Nat.not_lt_zero _)
    | succ k ih =>
      rintro s ⟨hs, hlt⟩
      by_cases hc : c s
      · exact (hbody (μ s)).trans (fun t ht => ih t ⟨ht.1, by omega⟩) s ⟨hs, hc, rfl⟩
      · exact hend s ⟨hs, hc⟩
  exact fun s hs => hbound (μ s + 1) s ⟨hs, Nat.lt_succ_self _⟩

end Pieces

/-! ### Numbers in registers -/

/-- A signed comparison of two numbers that are not negative. -/
lemma lt_subFlags {a b : Word} (ha : a.toNat < 2 ^ 31) (hb : b.toNat < 2 ^ 31) :
    (subFlags a b).lt = decide (a.toNat < b.toNat) := by
  have hover : BitVec.ssubOverflow a b = false := by
    simp only [BitVec.ssubOverflow, BitVec.toInt_eq_toNat_cond]
    simp only [Bool.or_eq_false_iff, decide_eq_false_iff_not]
    omega
  have hmsb : (a - b).msb = decide (a.toNat < b.toNat) := by
    rw [BitVec.msb_eq_decide, BitVec.toNat_sub]
    simp only [decide_eq_decide]
    omega
  rw [Flags.lt, subFlags, hover, hmsb, Bool.bne_false]

/-- `adds` and `adc`: an addition whose carry is added at the low end. -/
def addCarry (a b : Word) : Word :=
  a + b + 0 + BitVec.ofNat 32 (decide (2 ^ 32 ≤ a.toNat + b.toNat)).toNat

lemma toNat_addCarry (a b : Word) : (addCarry a b).toNat =
    if a.toNat + b.toNat < 2 ^ 32 then a.toNat + b.toNat else a.toNat + b.toNat - (2 ^ 32 - 1) := by
  have ha := a.isLt
  have hb := b.isLt
  rw [addCarry, BitVec.ofNat_eq_ofNat, BitVec.add_zero, BitVec.toNat_add, BitVec.toNat_add,
    BitVec.toNat_ofNat]
  by_cases h : a.toNat + b.toNat < 2 ^ 32
  · rw [if_pos h, decide_eq_false (by omega), Bool.toNat_false]
    omega
  · rw [if_neg h, decide_eq_true (by omega), Bool.toNat_true]
    omega

lemma toNat_ubfx {v : Word} {lsb width : ℕ} (h : width ≤ 32) :
    ((v.extractLsb' lsb width).setWidth 32).toNat = v.toNat / 2 ^ lsb % 2 ^ width := by
  rw [BitVec.toNat_setWidth, BitVec.extractLsb'_toNat, Nat.shiftRight_eq_div_pow]
  refine Nat.mod_eq_of_lt ((Nat.mod_lt _ (Nat.two_pow_pos width)).trans_le ?_)
  exact Nat.pow_le_pow_right (by decide) h

lemma toNat_rev16 {v : Word} (h : v.toNat < 65536) : (rev16 v).toNat = swap2 v.toNat := by
  have hbyte : ∀ k, (v.extractLsb' k 8).toNat = v.toNat / 2 ^ k % 256 := by
    intro k
    rw [BitVec.extractLsb'_toNat, Nat.shiftRight_eq_div_pow]
  have happ : ∀ {n : ℕ} (x : BitVec n) (y : BitVec 8),
      (x ++ y).toNat = x.toNat * 256 + y.toNat := by
    intro n x y
    rw [BitVec.toNat_append, ← Nat.shiftLeft_add_eq_or_of_lt y.isLt, Nat.shiftLeft_eq]
  rw [rev16, happ, happ, happ, hbyte, hbyte, hbyte, hbyte, swap2]
  omega

lemma leValue_lt (bs : List UInt8) : leValue bs < 256 ^ bs.length := by
  induction bs with
  | nil => decide
  | cons b bs ih =>
    have hb := b.toNat_lt
    rw [leValue, List.length_cons, pow_succ]
    omega

@[simp] lemma length_addrs (a : Word) (k : ℕ) : (addrs a k).length = k := by
  induction k generalizing a with
  | zero => rfl
  | succ k ih => rw [addrs, List.length_cons, ih]

@[simp] lemma length_bytesAt (mem : Word → UInt8) (a : Word) (k : ℕ) :
    (bytesAt mem a k).length = k := by
  rw [bytesAt, List.length_map, length_addrs]

/-- A word that is loaded has the value of its bytes. -/
lemma toNat_wordAt (mem : Word → UInt8) (a : Word) {k : ℕ} (h : k ≤ 4) :
    (wordAt mem a k).toNat = leValue (bytesAt mem a k) := by
  have hlt := leValue_lt (bytesAt mem a k)
  have hpow : 256 ^ k ≤ 256 ^ 4 := Nat.pow_le_pow_right (by decide) h
  rw [length_bytesAt] at hlt
  rw [wordAt, BitVec.toNat_ofNat, Nat.mod_eq_of_lt (by omega)]

lemma add_one_add (a : Word) (k : ℕ) : a + 1 + BitVec.ofNat 32 k = a + BitVec.ofNat 32 (k + 1) := by
  rw [BitVec.ofNat_add, BitVec.add_assoc, BitVec.add_comm 1]
  rfl

/-- Two blocks, one behind the other. -/
lemma addrs_add (a : Word) (k m : ℕ) :
    addrs a (k + m) = addrs a k ++ addrs (a + BitVec.ofNat 32 k) m := by
  induction k generalizing a with
  | zero => rw [Nat.zero_add, BitVec.add_zero, addrs, List.nil_append]
  | succ k ih => rw [Nat.succ_add, addrs, addrs, ih, add_one_add, List.cons_append]

lemma bytesAt_add (mem : Word → UInt8) (a : Word) (k m : ℕ) :
    bytesAt mem a (k + m) = bytesAt mem a k ++ bytesAt mem (a + BitVec.ofNat 32 k) m := by
  rw [bytesAt, addrs_add, List.map_append, bytesAt, bytesAt]

lemma mem_addrs {a b : Word} {k : ℕ} (h : b ∈ addrs a k) : ∃ i < k, b = a + BitVec.ofNat 32 i := by
  induction k generalizing a with
  | zero => exact absurd h List.not_mem_nil
  | succ k ih =>
    rcases List.mem_cons.mp h with rfl | h
    · exact ⟨0, Nat.succ_pos k, (BitVec.add_zero _).symm⟩
    · obtain ⟨i, hi, rfl⟩ := ih h
      exact ⟨i + 1, by omega, add_one_add a i⟩

end Teensy41Ethernet.Lib.Thumb
