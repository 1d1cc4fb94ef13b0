import Mathlib.Data.Nat.Digits.Lemmas
import Mathlib.Tactic

/-!
# Numerals

The numeral of a number in a base is the list of its digits, the highest first and without leading
zeros, except that the numeral of 0 has one digit.  A program finds the digits from the lowest on,
by division; `divDigits` is what it finds, in this order, and `isNumeral_iff` says that the numeral
is this list in reverse and nothing else.
-/

namespace Teensy41Ethernet.Lib

variable {b n : ℕ}

/-- The digits of `n` in base `b`, the lowest first; 0 has one digit. -/
def divDigits (b n : ℕ) : List ℕ := if n = 0 then [0] else b.digits n

/-- The number that digits stand for, the highest first. -/
def horner (b : ℕ) (l : List ℕ) : ℕ := l.foldl (fun n d => n * b + d) 0

/-- The digits `l`, the highest first, are those of `n` in base `b`. -/
structure IsNumeral (b n : ℕ) (l : List ℕ) : Prop where
  ne_nil : l ≠ []
  digit_lt : ∀ d ∈ l, d < b
  leading : l.head? = some 0 → l = [0]
  value : horner b l = n

lemma divDigits_of_lt (h : n < b) : divDigits b n = [n] := by
  by_cases hn : n = 0
  · rw [divDigits, if_pos hn, hn]
  · rw [divDigits, if_neg hn, Nat.digits_of_lt b n hn h]

/-- One division finds the lowest digit. -/
lemma divDigits_of_le (hb : 1 < b) (h : b ≤ n) :
    divDigits b n = n % b :: divDigits b (n / b) := by
  have hdiv : n / b ≠ 0 := (Nat.div_pos h (by omega)).ne'
  rw [divDigits, if_neg (by omega), divDigits, if_neg hdiv, Nat.digits_def' hb (by omega)]

lemma divDigits_ne_nil : divDigits b n ≠ [] := by
  rw [divDigits]
  split
  · exact List.cons_ne_nil _ _
  · next hn => exact Nat.digits_ne_nil_iff_ne_zero.mpr hn

lemma divDigits_lt (hb : 1 < b) : ∀ d ∈ divDigits b n, d < b := by
  intro d hd
  rw [divDigits] at hd
  split at hd
  · rw [List.mem_singleton.mp hd]
    omega
  · exact Nat.digits_lt_base hb hd

lemma ofDigits_divDigits : Nat.ofDigits b (divDigits b n) = n := by
  rw [divDigits]
  split
  · next hn => rw [hn, Nat.ofDigits_singleton]
  · exact Nat.ofDigits_digits b n

/-- The highest digit is not 0, but for the number 0. -/
lemma getLast?_divDigits (h : (divDigits b n).getLast? = some 0) : divDigits b n = [0] := by
  by_cases hn : n = 0
  · rw [divDigits, if_pos hn]
  · rw [divDigits, if_neg hn, List.getLast?_eq_getLast_of_ne_nil
      (Nat.digits_ne_nil_iff_ne_zero.mpr hn)] at h
    exact absurd (Option.some.inj h) (Nat.getLast_digit_ne_zero b hn)

lemma length_divDigits_le {k : ℕ} (hb : 1 < b) (hk : 0 < k) (h : n < b ^ k) :
    (divDigits b n).length ≤ k := by
  rw [divDigits]
  split
  · exact hk
  · exact (Nat.digits_length_le_iff hb n).mpr h

lemma horner_reverse (l : List ℕ) : horner b l.reverse = Nat.ofDigits b l := by
  rw [horner, List.foldl_reverse, Nat.ofDigits_eq_foldr]
  congr 1
  funext d n
  rw [Nat.cast_id, Nat.mul_comm, Nat.add_comm]

lemma isNumeral_divDigits (hb : 1 < b) : IsNumeral b n (divDigits b n).reverse := by
  refine ⟨?_, ?_, ?_, ?_⟩
  · exact fun h => divDigits_ne_nil (List.reverse_eq_nil_iff.mp h)
  · exact fun d hd => divDigits_lt hb d (List.mem_reverse.mp hd)
  · intro h
    rw [List.head?_reverse] at h
    rw [getLast?_divDigits h, List.reverse_singleton]
  · rw [horner_reverse, ofDigits_divDigits]

/-- **A number has one numeral**, the digits that division finds in reverse. -/
theorem isNumeral_iff (hb : 1 < b) {l : List ℕ} :
    IsNumeral b n l ↔ l = (divDigits b n).reverse := by
  refine ⟨fun h => ?_, fun h => h ▸ isNumeral_divDigits hb⟩
  have hval : Nat.ofDigits b l.reverse = n := by
    rw [← horner_reverse, List.reverse_reverse, h.value]
  rw [← List.reverse_eq_iff, eq_comm]
  by_cases hzero : l.head? = some 0
  · -- the numeral of 0
    obtain rfl := h.leading hzero
    obtain rfl : 0 = n := hval
    rfl
  · have hlast : ∀ hne : l.reverse ≠ [], l.reverse.getLast hne ≠ 0 := by
      intro hne hlast
      rw [← List.getLast?_reverse, List.getLast?_eq_getLast_of_ne_nil hne, hlast] at hzero
      exact hzero rfl
    have hdigits := Nat.digits_ofDigits b hb l.reverse
      (fun d hd => h.digit_lt d (List.mem_reverse.mp hd)) hlast
    rw [hval] at hdigits
    have hn : n ≠ 0 := by
      rintro rfl
      rw [Nat.digits_zero] at hdigits
      exact h.ne_nil (List.reverse_eq_nil_iff.mp hdigits.symm)
    rw [divDigits, if_neg hn, hdigits]

end Teensy41Ethernet.Lib
