import Teensy41Ethernet.Lib.LittleEndian
import Mathlib.Data.Nat.ModEq
import Mathlib.Algebra.BigOperators.Group.List.Basic

/-!
# One's-complement sums

The Internet checksum is a sum of 16-bit words in one's-complement arithmetic: a carry out of
the word is added at its low end.  Up to the two representations of zero this is arithmetic
modulo `65535`.  A number that is at most `65535`, congruent to a sum and zero only if the sum
is zero is determined by the sum; `Folds` says this of a number, and every way to add up the
words, with the carries at once or at the end, has this property.

Exchanging the bytes of every word multiplies the sum by 256 modulo `65535`.  So a sum of
words with the low byte first is all ones exactly if the sum of the words in network order
is.
-/

namespace Teensy41Ethernet.Lib

/-! ### Folded sums -/

/-- `x` is a 16-bit representative of the sum `s` in one's-complement arithmetic, zero only
for the sum zero. -/
structure Folds (s x : ℕ) : Prop where
  le : x ≤ 65535
  modEq : x ≡ s [MOD 65535]
  zero_iff : x = 0 ↔ s = 0

namespace Folds

variable {s x y : ℕ}

/-- All ones is the representative of the multiples of 65535 but zero. -/
lemma eq_ones_iff (hx : Folds s x) : x = 65535 ↔ s % 65535 = 0 ∧ s ≠ 0 := by
  have hmod : x % 65535 = s % 65535 := hx.modEq
  have := hx.le
  have := hx.zero_iff
  omega

/-- The representative is determined by the sum. -/
lemma unique (hx : Folds s x) (hy : Folds s y) : x = y := by
  have hmodx : x % 65535 = s % 65535 := hx.modEq
  have hmody : y % 65535 = s % 65535 := hy.modEq
  have := hx.le
  have := hy.le
  have := hx.zero_iff
  have := hy.zero_iff
  omega

/-- A part of a sum may be folded first. -/
lemma of_add_left {w : ℕ} (hx : Folds s x) (hy : Folds (x + w) y) : Folds (s + w) y where
  le := hy.le
  modEq := hy.modEq.trans (hx.modEq.add_right w)
  zero_iff := by
    have := hx.zero_iff
    rw [hy.zero_iff]
    omega

end Folds

/-- One addition of the carries. -/
lemma fold_modEq (s : ℕ) : s / 65536 + s % 65536 ≡ s [MOD 65535] := by
  change (s / 65536 + s % 65536) % 65535 = s % 65535
  omega

lemma folds_of_lt {s : ℕ} (h : s < 65536) : Folds s s := ⟨by omega, Nat.ModEq.refl s, Iff.rfl⟩

/-- A representative of the sum with its carries added is one of the sum. -/
lemma Folds.of_fold {s x : ℕ} (h : Folds (s / 65536 + s % 65536) x) : Folds s x where
  le := h.le
  modEq := h.modEq.trans (fold_modEq s)
  zero_iff := by
    rw [h.zero_iff]
    omega

/-! ### Accumulators of 32 bits -/

/-- `x` is what an accumulator of 32 bits holds of the sum `s`: a number that is congruent to it,
zero only for the sum zero. -/
structure Gathers (s x : ℕ) : Prop where
  lt : x < 2 ^ 32
  modEq : x ≡ s [MOD 65535]
  zero_iff : x = 0 ↔ s = 0

lemma gathers_of_lt {s : ℕ} (h : s < 2 ^ 32) : Gathers s s := ⟨h, Nat.ModEq.refl s, Iff.rfl⟩

namespace Gathers

variable {s x w : ℕ}

/-- An addition that does not overflow. -/
lemma add (h : Gathers s x) (hlt : x + w < 2 ^ 32) : Gathers (s + w) (x + w) where
  lt := hlt
  modEq := h.modEq.add_right w
  zero_iff := by
    have := h.zero_iff
    omega

/-- An addition of a word of 32 bits, whose carry is added at the low end.  The word counts as
the sum of its halves. -/
lemma addCarry (h : Gathers s x) (hw : w < 2 ^ 32) : Gathers (s + (w % 65536 + w / 65536))
    (if x + w < 2 ^ 32 then x + w else x + w - (2 ^ 32 - 1)) := by
  have hlt := h.lt
  have hmod : x % 65535 = s % 65535 := h.modEq
  have hzero := h.zero_iff
  split
  · refine ⟨by omega, ?_, by omega⟩
    change (x + w) % 65535 = (s + (w % 65536 + w / 65536)) % 65535
    omega
  · refine ⟨by omega, ?_, by omega⟩
    change (x + w - (2 ^ 32 - 1)) % 65535 = (s + (w % 65536 + w / 65536)) % 65535
    omega

/-- The carries may be added in between. -/
lemma fold (h : Gathers s x) : Gathers s (x / 65536 + x % 65536) where
  lt := by
    have := h.lt
    omega
  modEq := (fold_modEq x).trans h.modEq
  zero_iff := by
    have := h.zero_iff
    omega

/-- When the carries are added twice, none is left. -/
lemma folds (h : Gathers s x) : Folds s
    ((x / 65536 + x % 65536) / 65536 + (x / 65536 + x % 65536) % 65536) where
  le := by
    have := h.lt
    omega
  modEq := h.fold.fold.modEq
  zero_iff := h.fold.fold.zero_iff

end Gathers

/-! ### The sum of a list of words -/

/-- Addition of 16-bit words with end-around carry. -/
def onesAdd (a b : ℕ) : ℕ := if a + b < 65536 then a + b else a + b - 65535

/-- The one's-complement sum of a list of words. -/
def onesSum (ws : List ℕ) : ℕ := ws.foldl onesAdd 0

lemma folds_onesAdd {s a b : ℕ} (h : Folds s a) (hb : b ≤ 65535) : Folds (s + b) (onesAdd a b) := by
  have hmod : a % 65535 = s % 65535 := h.modEq
  have := h.le
  have := h.zero_iff
  rw [onesAdd]
  split
  · refine ⟨by omega, ?_, by omega⟩
    change (a + b) % 65535 = (s + b) % 65535
    omega
  · refine ⟨by omega, ?_, by omega⟩
    change (a + b - 65535) % 65535 = (s + b) % 65535
    omega

/-- The one's-complement sum represents the sum. -/
lemma folds_onesSum {ws : List ℕ} (hws : ∀ w ∈ ws, w ≤ 65535) : Folds ws.sum (onesSum ws) := by
  have hfold : ∀ s a, Folds s a → Folds (s + ws.sum) (ws.foldl onesAdd a) := by
    induction ws with
    | nil => exact fun s a h => h
    | cons w ws ih =>
      intro s a h
      rw [List.sum_cons, ← add_assoc]
      exact ih (fun v hv => hws v (List.mem_cons_of_mem w hv)) _ _
        (folds_onesAdd h (hws w List.mem_cons_self))
  have := hfold 0 0 (folds_of_lt (by omega))
  rwa [zero_add] at this

/-! ### The words of a packet -/

/-- The words of a packet in network order; an odd byte at the end is a high byte. -/
def beWords : List UInt8 → List ℕ
  | [] => []
  | [b] => [256 * b.toNat]
  | b :: c :: bs => (256 * b.toNat + c.toNat) :: beWords bs

/-- The sum of the words with the low byte first; an odd byte at the end is a low byte. -/
def leSum : List UInt8 → ℕ
  | [] => 0
  | [b] => b.toNat
  | b :: c :: bs => b.toNat + 256 * c.toNat + leSum bs

lemma leSum_load_two (mem : ℕ → UInt8) (p len : ℕ) :
    leSum (load mem p (len + 2)) = get16 mem p + leSum (load mem (p + 2) len) := rfl

/-- A packet in two parts, the first one of whole words. -/
lemma leSum_append {bs : List UInt8} (h : bs.length % 2 = 0) (bs' : List UInt8) :
    leSum (bs ++ bs') = leSum bs + leSum bs' := by
  induction bs using beWords.induct with
  | case1 => exact (Nat.zero_add _).symm
  | case2 b => exact absurd h (by simp)
  | case3 b c bs ih =>
    have hrest : bs.length % 2 = 0 := by
      rw [List.length_cons, List.length_cons] at h
      omega
    rw [List.cons_append, List.cons_append, leSum, leSum, ih hrest, ← add_assoc]

/-- A block has at most half as many words as bytes, rounded up. -/
lemma leSum_load_le (mem : ℕ → UInt8) (p len : ℕ) :
    leSum (load mem p len) ≤ 65535 * ((len + 1) / 2) := by
  induction len using Nat.strong_induction_on generalizing p with
  | _ len ih =>
    match len with
    | 0 => exact Nat.zero_le _
    | 1 =>
      have := (mem p).toNat_lt
      change (mem p).toNat ≤ _
      omega
    | len + 2 =>
      have hword := get16_lt mem p
      have hrest := ih len (by omega) (p + 2)
      change get16 mem p + leSum (load mem (p + 2) len) ≤ _
      omega

lemma beWords_le {bs : List UInt8} {w : ℕ} (h : w ∈ beWords bs) : w ≤ 65535 := by
  induction bs using beWords.induct with
  | case1 => exact absurd h (by simp [beWords])
  | case2 b =>
    have := b.toNat_lt
    rw [beWords, List.mem_singleton] at h
    omega
  | case3 b c bs ih =>
    have := b.toNat_lt
    have := c.toNat_lt
    rw [beWords, List.mem_cons] at h
    rcases h with rfl | h
    · omega
    · exact ih h

/-- The two byte orders differ by the factor 256. -/
lemma leSum_mod (bs : List UInt8) : leSum bs % 65535 = 256 * (beWords bs).sum % 65535 := by
  induction bs using beWords.induct with
  | case1 => rfl
  | case2 b => simp only [leSum, beWords, List.sum_singleton]; omega
  | case3 b c bs ih => simp only [leSum, beWords, List.sum_cons]; omega

lemma leSum_eq_zero_iff (bs : List UInt8) : leSum bs = 0 ↔ (beWords bs).sum = 0 := by
  induction bs using beWords.induct with
  | case1 => exact Iff.rfl
  | case2 b => simp only [leSum, beWords, List.sum_singleton]; omega
  | case3 b c bs ih => simp only [leSum, beWords, List.sum_cons]; omega

lemma swap2_modEq {x : ℕ} (h : x ≤ 65535) : swap2 x ≡ 256 * x [MOD 65535] := by
  have hcarry : 256 * x = 65535 * (x / 256) + swap2 x := by
    rw [swap2]
    omega
  rw [hcarry]
  exact Nat.ModEq.modulus_mul_add.symm

/-- The sum of a packet in the byte order of the machine is the one in network order, with the
bytes exchanged. -/
lemma folds_leSum (bs : List UInt8) : Folds (leSum bs) (swap2 (onesSum (beWords bs))) := by
  have hbe := folds_onesSum fun w (hw : w ∈ beWords bs) => beWords_le hw
  refine ⟨Nat.le_of_lt_succ (swap2_lt _), ?_, ?_⟩
  · calc swap2 (onesSum (beWords bs))
        ≡ 256 * onesSum (beWords bs) [MOD 65535] := swap2_modEq hbe.le
      _ ≡ 256 * (beWords bs).sum [MOD 65535] := hbe.modEq.mul_left 256
      _ ≡ leSum bs [MOD 65535] := (leSum_mod bs).symm
  · have hle := hbe.le
    rw [leSum_eq_zero_iff bs, ← hbe.zero_iff, swap2]
    omega

/-- **A packet checks** if the sum of its words, in the byte order of the machine, is a
multiple of 65535 and not zero. -/
lemma onesSum_beWords_eq_ones_iff (bs : List UInt8) :
    onesSum (beWords bs) = 65535 ↔ leSum bs % 65535 = 0 ∧ leSum bs ≠ 0 := by
  rw [(folds_onesSum fun w hw => beWords_le hw).eq_ones_iff, leSum_mod]
  simp only [ne_eq, leSum_eq_zero_iff]
  omega

end Teensy41Ethernet.Lib
