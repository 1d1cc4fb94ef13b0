import Mathlib.Tactic
import Mathlib.Data.Int.ModEq

/-!
# Machine words

Facts about fixed-width words that the models below rest on: the bitwise conjunction of two C
`int`s with a mask of the form `2 ^ k - 1` is the remainder modulo `2 ^ k`, also for a negative
left operand; fields that shifts and `|` put side by side are the digits of a number; and the flag
tests `word & flag` of a status word are tests of single bits, which the conjunctions and
disjunctions of a status update leave alone or set.
-/

namespace Teensy41Ethernet.Lib

/-- The operator `&` on two values of the 32-bit type `int`. -/
def land32 (a b : ℤ) : ℤ := (BitVec.ofInt 32 a &&& BitVec.ofInt 32 b).toInt

/-- Masking with `2 ^ k - 1` is the remainder modulo `2 ^ k`, whatever the sign of `a`. -/
lemma land32_mask (a : ℤ) {k : ℕ} (hk : k ≤ 30) : land32 a (2 ^ k - 1) = a % 2 ^ k := by
  have hpow : (2 : ℕ) ^ k ≤ 2 ^ 30 := Nat.pow_le_pow_right (by decide) hk
  have hmask : (BitVec.ofInt 32 (2 ^ k - 1)).toNat = 2 ^ k - 1 := by
    have hcast : (2 : ℤ) ^ k - 1 = ((2 ^ k - 1 : ℕ) : ℤ) := by
      rw [Nat.cast_sub Nat.one_le_two_pow]
      simp
    rw [hcast, BitVec.ofInt_natCast, BitVec.toNat_ofNat]
    exact Nat.mod_eq_of_lt (by omega)
  have hnat : (BitVec.ofInt 32 a &&& BitVec.ofInt 32 (2 ^ k - 1)).toNat
      = (a % 2 ^ k).toNat := by
    rw [BitVec.toNat_and, hmask, Nat.and_two_pow_sub_one_eq_mod, BitVec.toNat_ofInt]
    have hd : ((2 : ℤ) ^ k) ∣ 2 ^ 32 := pow_dvd_pow 2 (by omega)
    have hmod : (((a % (2 ^ 32 : ℕ)).toNat % 2 ^ k : ℕ) : ℤ) = a % 2 ^ k := by
      push_cast
      rw [Int.toNat_of_nonneg (Int.emod_nonneg _ (by norm_num))]
      exact Int.emod_emod_of_dvd a hd
    omega
  have hnn : 0 ≤ a % 2 ^ k := Int.emod_nonneg _ (by positivity)
  have hlt : a % 2 ^ k < 2 ^ k := Int.emod_lt_of_pos _ (by positivity)
  have hpowZ : (2 : ℤ) ^ k ≤ 2 ^ 30 := by exact_mod_cast hpow
  rw [land32, BitVec.toInt_eq_toNat_cond, hnat, if_pos (by omega), Int.toNat_of_nonneg hnn]

/-- The bits from `k` on of a word of `k + w` bits. -/
lemma and_high {x k w : ℕ} (hx : x < 2 ^ (k + w)) :
    x &&& (2 ^ w - 1) <<< k = x / 2 ^ k * 2 ^ k := by
  refine Nat.eq_of_testBit_eq fun i => ?_
  rw [Nat.testBit_and, Nat.testBit_shiftLeft, Nat.testBit_two_pow_sub_one, Nat.testBit_mul_two_pow,
    Nat.testBit_div_two_pow]
  by_cases hi : k ≤ i
  · simp only [hi, decide_true, Bool.true_and, Nat.sub_add_cancel]
    by_cases hw : i - k < w
    · simp [hw]
    · have hlt : x < 2 ^ i := hx.trans_le (Nat.pow_le_pow_right (by decide) (by omega))
      simp [hw, Nat.testBit_lt_two_pow hlt]
  · simp [hi]

/-- Bits put over the bits of a smaller number. -/
lemma or_shiftLeft {x y k : ℕ} (hx : x < 2 ^ k) : x ||| y <<< k = x + 2 ^ k * y := by
  rw [Nat.or_comm, ← Nat.shiftLeft_add_eq_or_of_lt hx, Nat.shiftLeft_eq, Nat.add_comm, Nat.mul_comm]

/-- A word of three fields, the lowest of `j` bits and the next of `k` bits. -/
lemma or_fields {a b c j k : ℕ} (hc : c < 2 ^ j) (hb : b < 2 ^ k) :
    a <<< (j + k) ||| b <<< j ||| c = c + 2 ^ j * (b + 2 ^ k * a) := by
  have hlow : c + 2 ^ j * b < 2 ^ (j + k) := by
    calc c + 2 ^ j * b < 2 ^ j * (b + 1) := by rw [Nat.mul_succ]; omega
      _ ≤ 2 ^ j * 2 ^ k := Nat.mul_le_mul_left _ hb
      _ = 2 ^ (j + k) := (Nat.pow_add 2 j k).symm
  rw [Nat.or_assoc, Nat.or_comm, Nat.or_comm (b <<< j), or_shiftLeft hc, or_shiftLeft hlow,
    Nat.pow_add, Nat.mul_add, Nat.mul_assoc, Nat.add_assoc]

/-- The test `s & f` of a status word, as a condition of an `if` or a `while`. -/
def hasFlag (s f : BitVec 16) : Bool := s &&& f != 0#16

/-- A disjunction has the flags of both sides. -/
lemma hasFlag_or (a b f : BitVec 16) : hasFlag (a ||| b) f = (hasFlag a f || hasFlag b f) := by
  rw [hasFlag, BitVec.and_or_distrib_right, hasFlag, hasFlag, Bool.eq_iff_iff]
  simp only [bne_iff_ne, ne_eq, Bool.or_eq_true, BitVec.or_eq_zero_iff]
  tauto

/-- A test of several flags at once. -/
lemma hasFlag_or_right (s f g : BitVec 16) :
    hasFlag s (f ||| g) = (hasFlag s f || hasFlag s g) := by
  rw [hasFlag, BitVec.and_comm, hasFlag, BitVec.and_comm s f, hasFlag, BitVec.and_comm s g]
  exact hasFlag_or f g s

/-- A conjunction with a mask keeps the flags of the mask. -/
lemma hasFlag_and (s m f : BitVec 16) : hasFlag (s &&& m) f = hasFlag s (m &&& f) := by
  rw [hasFlag, hasFlag, BitVec.and_assoc]

end Teensy41Ethernet.Lib
