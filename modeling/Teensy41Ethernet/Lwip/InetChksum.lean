import Teensy41Ethernet.Lib.OnesComplement

/-!
# The checksum routines of lwIP

`inet_chksum.c` has three versions of `lwip_standard_chksum`, of which the port selects none:
it has a routine of its own.  Versions 2 and 3 are modelled here.  They load half-words and
words at aligned addresses only.  If the block begins at an odd address, its first byte is
thus the high byte of a half-word, and the bytes of the result are exchanged at the end.  The
first and the last byte are put together in `t` and added after the rest.

Pointers and lengths are natural numbers; `u32_t` sums are taken modulo `2 ^ 32`.
-/

namespace Teensy41Ethernet.Lwip

open Lib

/-! ### The code -/

/-- `FOLD_U32T` -/
def foldU32t (u : ℕ) : ℕ := u >>> 16 + (u &&& 0x0000ffff)

/-- `SWAP_BYTES_IN_WORD` -/
def swapBytesInWord (w : ℕ) : ℕ := (w &&& 0xff) <<< 8 ||| (w &&& 0xff00) >>> 8

/-- Get aligned to `u16_t`: the high byte of `t`, `pb` and `len`. -/
def headByte (mem : ℕ → UInt8) (dataptr len : ℕ) : UInt8 × ℕ × ℕ :=
  if dataptr &&& 1 ≠ 0 ∧ len > 0 then (mem dataptr, dataptr + 1, len - 1) else (0, dataptr, len)

/-- `while (len > 1)`: `ps`, `len` and `sum`. -/
def sumHalfwords (mem : ℕ → UInt8) : ℕ → ℕ → ℕ → ℕ × ℕ × ℕ
  | ps, len + 2, sum => sumHalfwords mem (ps + 2) len ((sum + get16 mem ps) % 2 ^ 32)
  | ps, len, sum => (ps, len, sum)

/-- Get aligned to `u32_t`: `ps`, `len` and `sum`. -/
def alignWord (mem : ℕ → UInt8) (ps len : ℕ) : ℕ × ℕ × ℕ :=
  if ps &&& 3 ≠ 0 ∧ len > 1 then (ps + 2, len - 2, get16 mem ps) else (ps, len, 0)

/-- `tmp = sum + *pl++; if (tmp < sum) tmp++;` -/
def addBackCarry (sum w : ℕ) : ℕ :=
  let tmp := (sum + w) % 2 ^ 32
  if tmp < sum then (tmp + 1) % 2 ^ 32 else tmp

/-- `while (len > 7)`, with "ping" and "pong": `pl`, `len` and `sum`. -/
def sumWords (mem : ℕ → UInt8) : ℕ → ℕ → ℕ → ℕ × ℕ × ℕ
  | pl, len + 8, sum =>
      sumWords mem (pl + 4 + 4) len
        (addBackCarry (addBackCarry sum (get32 mem pl)) (get32 mem (pl + 4)))
  | pl, len, sum => (pl, len, sum)

/-- The lines from `if (len > 0)` on: the low byte of `t`, and the end of both versions. -/
def finish (mem : ℕ → UInt8) (dataptr : ℕ) (t₁ : UInt8) (ps len sum : ℕ) : ℕ :=
  let t₀ := if len > 0 then mem ps else 0
  let sum := (sum + (t₀.toNat + 256 * t₁.toNat)) % 2 ^ 32
  let sum := foldU32t sum
  let sum := foldU32t sum
  let sum := if dataptr &&& 1 ≠ 0 then swapBytesInWord sum else sum
  sum % 2 ^ 16

/-- `lwip_standard_chksum`, version 2. -/
def lwipStandardChksum2 (mem : ℕ → UInt8) (dataptr len : ℕ) : ℕ :=
  let (t₁, pb, len) := headByte mem dataptr len
  let (ps, len, sum) := sumHalfwords mem pb len 0
  finish mem dataptr t₁ ps len sum

/-- `lwip_standard_chksum`, version 3. -/
def lwipStandardChksum3 (mem : ℕ → UInt8) (dataptr len : ℕ) : ℕ :=
  let (t₁, ps, len) := headByte mem dataptr len
  let (pl, len, sum) := alignWord mem ps len
  let (pl, len, sum) := sumWords mem pl len sum
  let sum := foldU32t sum
  let (ps, len, sum) := sumHalfwords mem pl len sum
  finish mem dataptr t₁ ps len sum

/-! ### What is summed up -/

/-- The sum of the half-words of a block as they lie at even addresses: at an odd address the
first byte is a high byte. -/
def alignedSum (mem : ℕ → UInt8) (p len : ℕ) : ℕ :=
  if p % 2 = 1 ∧ len > 0 then 256 * (mem p).toNat + leSum (load mem (p + 1) (len - 1))
  else leSum (load mem p len)

/-- `r` is the folded sum of the block, with its bytes exchanged for a block at an odd address. -/
def IsChksum (mem : ℕ → UInt8) (p len r : ℕ) : Prop :=
  ∃ x, Folds (alignedSum mem p len) x ∧ r = if p % 2 = 1 then swap2 x else x

lemma IsChksum.unique {mem : ℕ → UInt8} {p len r r' : ℕ} (h : IsChksum mem p len r)
    (h' : IsChksum mem p len r') : r = r' := by
  obtain ⟨x, hx, rfl⟩ := h
  obtain ⟨x', hx', rfl⟩ := h'
  rw [hx.unique hx']

section Parts

variable {mem : ℕ → UInt8} {len sum : ℕ}

lemma foldU32t_eq (u : ℕ) : foldU32t u = u / 65536 + u % 65536 := by
  rw [foldU32t, Nat.shiftRight_eq_div_pow, show (0x0000ffff : ℕ) = 2 ^ 16 - 1 by rfl,
    Nat.and_two_pow_sub_one_eq_mod]

lemma swapBytesInWord_eq {w : ℕ} (h : w < 65536) : swapBytesInWord w = swap2 w := by
  have hhi : (w &&& 0xff00) >>> 8 = w / 256 := by
    rw [Nat.shiftRight_and_distrib, Nat.shiftRight_eq_div_pow,
      show (0xff00 : ℕ) >>> 8 = 2 ^ 8 - 1 by rfl, Nat.and_two_pow_sub_one_eq_mod]
    omega
  have hlt : w / 256 < 2 ^ 8 := by omega
  rw [swapBytesInWord, hhi, show (0xff : ℕ) = 2 ^ 8 - 1 by rfl, Nat.and_two_pow_sub_one_eq_mod,
    ← Nat.shiftLeft_add_eq_or_of_lt hlt, Nat.shiftLeft_eq, swap2]
  omega

lemma and_one_ne_zero_iff (p : ℕ) : p &&& 1 ≠ 0 ↔ p % 2 = 1 := by
  rw [Nat.and_one_is_mod]
  omega

/-- The first byte, if it is apart, and the rest are the block. -/
lemma headByte_spec (mem : ℕ → UInt8) (p len : ℕ) :
    alignedSum mem p len = 256 * (headByte mem p len).1.toNat +
        leSum (load mem (headByte mem p len).2.1 (headByte mem p len).2.2) ∧
      (headByte mem p len).2.2 ≤ len := by
  simp only [headByte, alignedSum, and_one_ne_zero_iff]
  split
  · exact ⟨rfl, Nat.sub_le _ _⟩
  · exact ⟨(Nat.zero_add _).symm, le_rfl⟩

/-- As long as nothing overflows, the loop adds up the half-words and leaves an odd byte. -/
lemma sumHalfwords_spec (mem : ℕ → UInt8) (p len sum : ℕ)
    (h : sum + leSum (load mem p len) < 2 ^ 32) :
    ∃ w, (sumHalfwords mem p len sum).2.2 = sum + w ∧
      w + (if (sumHalfwords mem p len sum).2.1 > 0 then mem (sumHalfwords mem p len sum).1
          else 0).toNat = leSum (load mem p len) := by
  induction p, len, sum using sumHalfwords.induct mem with
  | case1 ps len sum ih =>
    rw [leSum_load_two] at h ⊢
    rw [Nat.mod_eq_of_lt (by omega)] at ih
    rw [sumHalfwords, Nat.mod_eq_of_lt (by omega)]
    obtain ⟨w, hsum, hw⟩ := ih (by omega)
    exact ⟨get16 mem ps + w, by rw [hsum, add_assoc], by rw [add_assoc, hw]⟩
  | case2 ps len sum hlen =>
    rw [sumHalfwords.eq_2 mem ps len sum hlen]
    refine ⟨0, rfl, ?_⟩
    match len, hlen with
    | 0, _ => rfl
    | 1, _ => exact Nat.zero_add _
    | len + 2, hlen => exact absurd rfl (hlen len)

lemma addBackCarry_eq {w : ℕ} (hsum : sum < 2 ^ 32) (hw : w < 2 ^ 32) : addBackCarry sum w =
    if sum + w < 2 ^ 32 then sum + w else sum + w - (2 ^ 32 - 1) := by
  rw [addBackCarry]
  by_cases h : sum + w < 2 ^ 32
  · rw [if_pos h, Nat.mod_eq_of_lt h, if_neg (by omega)]
  · have hmod : (sum + w) % 2 ^ 32 = sum + w - 2 ^ 32 := by omega
    rw [if_neg h, hmod, if_pos (by omega)]
    omega

/-- A word counts as its two half-words. -/
lemma gathers_addBackCarry (mem : ℕ → UInt8) {s : ℕ} (h : Gathers s sum) (p : ℕ) :
    Gathers (s + (get16 mem p + get16 mem (p + 2))) (addBackCarry sum (get32 mem p)) := by
  have hlo := get16_lt mem p
  have hword := get32_lt mem p
  have hcarry := h.addCarry hword
  rw [addBackCarry_eq h.lt hword]
  have hhalves : get32 mem p % 65536 + get32 mem p / 65536 = get16 mem p + get16 mem (p + 2) := by
    rw [get32]
    omega
  rwa [hhalves] at hcarry

/-- The loop over the words leaves less than eight bytes. -/
lemma sumWords_spec (mem : ℕ → UInt8) (p len : ℕ) {sum s : ℕ} (h : Gathers s sum) :
    (sumWords mem p len sum).2.1 < 8 ∧
      ∃ s', Gathers s' (sumWords mem p len sum).2.2 ∧
        s' + leSum (load mem (sumWords mem p len sum).1 (sumWords mem p len sum).2.1) =
          s + leSum (load mem p len) := by
  induction p, len, sum using sumWords.induct mem generalizing s with
  | case1 pl len sum ih =>
    have hping := gathers_addBackCarry mem h pl
    have hpong := gathers_addBackCarry mem hping (pl + 4)
    obtain ⟨hlen, s', hs', heq⟩ := ih hpong
    refine ⟨hlen, s', hs', heq.trans ?_⟩
    change _ = s + leSum (load mem pl (len + 2 + 2 + 2 + 2))
    rw [leSum_load_two, leSum_load_two, leSum_load_two, leSum_load_two]
    simp only [Nat.add_assoc, Nat.reduceAdd]
  | case2 pl len sum hlen =>
    have hshort : len < 8 := by
      by_contra hge
      exact hlen (len - 8) (by omega)
    rw [sumWords.eq_2 mem pl len sum hlen]
    exact ⟨hshort, s, h, rfl⟩

/-- The half-word in front of the words, if there is one, and the rest are the block. -/
lemma alignWord_spec (mem : ℕ → UInt8) (ps len : ℕ) :
    Gathers (alignWord mem ps len).2.2 (alignWord mem ps len).2.2 ∧
      (alignWord mem ps len).2.2 +
          leSum (load mem (alignWord mem ps len).1 (alignWord mem ps len).2.1) =
        leSum (load mem ps len) := by
  simp only [alignWord]
  split
  · next h =>
    obtain ⟨k, rfl⟩ : ∃ k, len = k + 2 := ⟨len - 2, by omega⟩
    exact ⟨gathers_of_lt ((get16_lt mem ps).trans (by decide)), (leSum_load_two mem ps k).symm⟩
  · exact ⟨gathers_of_lt (Nat.two_pow_pos 32), Nat.zero_add _⟩

/-- The end of both versions. -/
lemma isChksum_finish {t₁ : UInt8} {ps s : ℕ} (dataptr : ℕ) {total : ℕ} (h : Gathers s sum)
    (hlt : sum + ((if len > 0 then mem ps else 0).toNat + 256 * t₁.toNat) < 2 ^ 32)
    (htotal : s + ((if len > 0 then mem ps else 0).toNat + 256 * t₁.toNat) =
      alignedSum mem dataptr total) :
    IsChksum mem dataptr total (finish mem dataptr t₁ ps len sum) := by
  have hfolds := (h.add hlt).folds
  rw [htotal] at hfolds
  refine ⟨_, hfolds, ?_⟩
  simp only [finish, and_one_ne_zero_iff, foldU32t_eq, Nat.mod_eq_of_lt hlt]
  have hlt' := Nat.lt_succ_of_le hfolds.le
  split
  · rw [swapBytesInWord_eq hlt']
    exact Nat.mod_eq_of_lt (swap2_lt _)
  · exact Nat.mod_eq_of_lt hlt'

end Parts

/-- **Version 2** is the checksum of a block of up to 0x20000 bytes. -/
theorem isChksum_lwipStandardChksum2 (mem : ℕ → UInt8) (p : ℕ) {len : ℕ} (hlen : len ≤ 0x20000) :
    IsChksum mem p len (lwipStandardChksum2 mem p len) := by
  obtain ⟨htotal, hle⟩ := headByte_spec mem p len
  simp only [lwipStandardChksum2]
  generalize headByte mem p len = head at htotal hle ⊢
  obtain ⟨t₁, pb, len'⟩ := head
  have hbound := leSum_load_le mem pb len'
  have ht₁ := t₁.toNat_lt
  dsimp only at htotal hle hbound ⊢
  -- an odd address costs a byte of the block, so that the last sum does not overflow either
  have hfit : 256 * t₁.toNat + leSum (load mem pb len') < 2 ^ 32 := by omega
  obtain ⟨w, hsum, hw⟩ := sumHalfwords_spec mem pb len' 0 (by omega)
  generalize sumHalfwords mem pb len' 0 = tail at hsum hw ⊢
  obtain ⟨ps, len'', sum⟩ := tail
  dsimp only at hsum hw ⊢
  exact isChksum_finish p (gathers_of_lt (by omega)) (by omega) (by omega)

/-- **Version 3** is the checksum of a block of any length. -/
theorem isChksum_lwipStandardChksum3 (mem : ℕ → UInt8) (p len : ℕ) :
    IsChksum mem p len (lwipStandardChksum3 mem p len) := by
  obtain ⟨htotal, -⟩ := headByte_spec mem p len
  simp only [lwipStandardChksum3]
  generalize headByte mem p len = head at htotal ⊢
  obtain ⟨t₁, ps, len'⟩ := head
  dsimp only at htotal ⊢
  obtain ⟨hgathers, hrest⟩ := alignWord_spec mem ps len'
  generalize alignWord mem ps len' = start at hgathers hrest ⊢
  obtain ⟨pl, len₁, sum₁⟩ := start
  dsimp only at hgathers hrest ⊢
  obtain ⟨hshort, s, hs, hsum⟩ := sumWords_spec mem pl len₁ hgathers
  generalize sumWords mem pl len₁ sum₁ = mid at hshort hs hsum ⊢
  obtain ⟨pl', len₂, sum₂⟩ := mid
  dsimp only at hshort hs hsum ⊢
  have hfold := hs.fold
  rw [← foldU32t_eq] at hfold
  have hbound := leSum_load_le mem pl' len₂
  have ht₁ := t₁.toNat_lt
  have hroom : foldU32t sum₂ < 0x20000 := by
    have := hs.lt
    rw [foldU32t_eq]
    omega
  obtain ⟨w, hsum', hw⟩ := sumHalfwords_spec mem pl' len₂ (foldU32t sum₂) (by omega)
  generalize sumHalfwords mem pl' len₂ (foldU32t sum₂) = tail at hsum' hw ⊢
  obtain ⟨ps', len₃, sum₃⟩ := tail
  dsimp only at hsum' hw ⊢
  subst hsum'
  exact isChksum_finish p (hfold.add (by omega)) (by omega) (by omega)

end Teensy41Ethernet.Lwip
