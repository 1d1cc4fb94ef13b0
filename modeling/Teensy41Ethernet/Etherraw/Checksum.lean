import Teensy41Ethernet.Lib.OnesComplement

/-!
# The checksum routine of `etherraw.ino`

`chksum` adds up the 16-bit words of a block of memory, as the machine loads them, in a
32-bit accumulator and adds the carries; `inet_chksum` adds the carries that are left and
complements the result.
-/

namespace Teensy41Ethernet.Etherraw

open Lib

/-! ### The code -/

/-- The loop of `chksum`, with the odd byte after it.  `unsigned long` has 32 bits. -/
def chksumLoop (mem : ℕ → UInt8) : ℕ → ℕ → ℕ → ℕ
  | _, 0, acc => acc
  | p, 1, acc => (acc + (mem p).toNat) % 2 ^ 32
  | p, len + 2, acc => chksumLoop mem (p + 2) len ((acc + get16 mem p) % 2 ^ 32)

/-- `acc = (acc >> 16) + (acc & 0xFFFF)`. -/
def addCarries (acc : ℕ) : ℕ := acc >>> 16 + (acc &&& 0xFFFF)

/-- `chksum`. -/
def chksum (mem : ℕ → UInt8) (dataptr len : ℕ) : ℕ :=
  let acc := addCarries (chksumLoop mem dataptr len 0)
  if acc &&& 0xFFFF0000 ≠ 0 then addCarries acc else acc

lemma and_ffff (x : ℕ) : x &&& 0xFFFF = x % 65536 := Nat.and_two_pow_sub_one_eq_mod x 16

lemma addCarries_eq (acc : ℕ) : addCarries acc = acc / 65536 + acc % 65536 := by
  rw [addCarries, Nat.shiftRight_eq_div_pow, and_ffff]

/-- `while (acc >> 16) acc = (acc & 0xFFFF) + (acc >> 16);` -/
def whileCarries (acc : ℕ) : ℕ :=
  if acc >>> 16 = 0 then acc else whileCarries (addCarries acc)
termination_by acc
decreasing_by
  rename_i h
  rw [Nat.shiftRight_eq_div_pow] at h
  rw [addCarries_eq]
  omega

/-- `inet_chksum`. -/
def inetChksum (mem : ℕ → UInt8) (dataptr len : ℕ) : ℕ :=
  0xFFFF - (whileCarries (chksum mem dataptr len) &&& 0xFFFF)

/-! ### What it computes -/

/-- As long as the accumulator does not overflow, the loop adds up the words of the block. -/
lemma chksumLoop_eq {mem : ℕ → UInt8} {p len acc : ℕ}
    (h : acc + leSum (load mem p len) < 2 ^ 32) :
    chksumLoop mem p len acc = acc + leSum (load mem p len) := by
  induction p, len, acc using chksumLoop.induct mem with
  | case1 p acc => rfl
  | case2 p acc => exact Nat.mod_eq_of_lt h
  | case3 p len acc ih =>
    rw [leSum_load_two] at h
    rw [chksumLoop, leSum_load_two]
    rw [Nat.mod_eq_of_lt (by omega)] at ih ⊢
    rw [ih (by omega)]
    omega

lemma folds_of_addCarries {acc x : ℕ} (h : Folds (addCarries acc) x) : Folds acc x := by
  rw [addCarries_eq] at h
  exact h.of_fold

lemma folds_whileCarries (acc : ℕ) : Folds acc (whileCarries acc) := by
  induction acc using whileCarries.induct with
  | case1 acc h =>
    rw [whileCarries, if_pos h]
    rw [Nat.shiftRight_eq_div_pow] at h
    exact folds_of_lt (by omega)
  | case2 acc h ih =>
    rw [whileCarries, if_neg h]
    exact folds_of_addCarries ih

lemma folds_of_chksum {mem : ℕ → UInt8} {p len x : ℕ} (h : Folds (chksum mem p len) x) :
    Folds (chksumLoop mem p len 0) x := by
  rw [chksum] at h
  split at h
  · exact folds_of_addCarries (folds_of_addCarries h)
  · exact folds_of_addCarries h

lemma chksumLoop_zero (mem : ℕ → UInt8) (p : ℕ) {len : ℕ} (hlen : len ≤ 65535) :
    chksumLoop mem p len 0 = leSum (load mem p len) := by
  have hsum := leSum_load_le mem p len
  rw [chksumLoop_eq (by omega), zero_add]

/-- With the carries added, `chksum` is the one's-complement sum of the block. -/
lemma folds_whileCarries_chksum (mem : ℕ → UInt8) (p : ℕ) {len : ℕ} (hlen : len ≤ 65535) :
    Folds (leSum (load mem p len)) (whileCarries (chksum mem p len)) :=
  chksumLoop_zero mem p hlen ▸ folds_of_chksum (folds_whileCarries (chksum mem p len))

/-- `(unsigned short) ~(acc & 0xFFFF)` of a folded sum. -/
lemma complement_and_ffff {s x : ℕ} (h : Folds s x) : 0xFFFF - (x &&& 0xFFFF) = 65535 - x := by
  have hle := h.le
  rw [and_ffff, Nat.mod_eq_of_lt (by omega)]

/-- The checksum is the complement of the one's-complement sum of the block. -/
lemma inetChksum_eq (mem : ℕ → UInt8) (p : ℕ) {len : ℕ} (hlen : len ≤ 65535) :
    ∃ x, Folds (leSum (load mem p len)) x ∧ inetChksum mem p len = 65535 - x :=
  ⟨whileCarries (chksum mem p len), folds_whileCarries_chksum mem p hlen,
    complement_and_ffff (folds_whileCarries_chksum mem p hlen)⟩

/-- Writing one word of a block changes the sum by the difference of the words. -/
lemma leSum_load_put16 (mem : ℕ → UInt8) (p v : ℕ) {k len : ℕ} (hk : 2 * k + 2 ≤ len) :
    leSum (load (put16 mem (p + 2 * k) v) p len) + get16 mem (p + 2 * k) =
      leSum (load mem p len) + v % 65536 := by
  induction k generalizing p len with
  | zero =>
    obtain ⟨len, rfl⟩ : ∃ l, len = l + 2 := ⟨len - 2, by omega⟩
    have hload : load (put16 mem p v) (p + 2) len = load mem (p + 2) len :=
      load_congr fun b hb _ => put16_of_notMem (Or.inr hb)
    rw [mul_zero, add_zero, leSum_load_two, leSum_load_two, get16_put16, hload]
    omega
  | succ k ih =>
    obtain ⟨len, rfl⟩ : ∃ l, len = l + 2 := ⟨len - 2, by omega⟩
    have hrest := ih (p + 2) (by omega : 2 * k + 2 ≤ len)
    rw [show p + 2 + 2 * k = p + 2 * (k + 1) by omega] at hrest
    rw [leSum_load_two, leSum_load_two, get16_put16_of_disjoint (by omega)]
    omega

/-- **A block into which its checksum is written checks**, if the field was zero before. -/
theorem onesSum_put16_inetChksum {mem : ℕ → UInt8} {p k len : ℕ} (hk : 2 * k + 2 ≤ len)
    (hlen : len ≤ 65535) (hzero : get16 mem (p + 2 * k) = 0) :
    onesSum (beWords (load (put16 mem (p + 2 * k) (inetChksum mem p len)) p len)) = 0xFFFF := by
  obtain ⟨x, hx, hchksum⟩ := inetChksum_eq mem p hlen
  have hsum := leSum_load_put16 mem p (inetChksum mem p len) hk
  have hmod : x % 65535 = leSum (load mem p len) % 65535 := hx.modEq
  have hx0 := hx.zero_iff
  have hle := hx.le
  rw [onesSum_beWords_eq_ones_iff]
  omega

end Teensy41Ethernet.Etherraw
