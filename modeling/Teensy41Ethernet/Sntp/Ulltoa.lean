import Mathlib.Data.UInt
import Teensy41Ethernet.Lib.CString
import Teensy41Ethernet.Lib.Numeral
import Teensy41Ethernet.Sntp.Clock

/-!
# The numbers that the SNTP sketch prints

`ulltoa` writes the digits of a number to a block in the order in which division finds them, the
lowest first, ends them with a zero and turns them round in place.  It knows nothing of the size of
the block; here it returns `none` if it writes past the end.

* `ulltoa_spec`: what stands in the block afterwards;
* `exec_logged`: `settimeofday` prints the two differences out of its buffers of 24 bytes,
  whatever these held before.
-/

namespace Teensy41Ethernet.Sntp

open Lib

/-! ### The code -/

/-- `d + (d < 10 ? '0' : 'A' - 10)` -/
def digitChar (d : UInt8) : UInt8 := d + if d < 10 then 0x30 else 0x41 - 10

/-- The first loop: the block and the pointer `b` after it. -/
def digitLoop (radix : UInt64) : ℕ → UInt64 → List UInt8 → ℕ → Option (List UInt8 × ℕ)
  | 0, _, _, _ => none
  | fuel + 1, val, buf, b => do
      let d := (val % radix).toUInt8
      let buf ← copyTo buf b [digitChar d]
      if val / radix > 0 then digitLoop radix fuel (val / radix) buf (b + 1) else some (buf, b + 1)

/-- The second loop, from the pointers `s` and `b` on. -/
def reverseLoop : ℕ → List UInt8 → ℕ → ℕ → Option (List UInt8)
  | 0, _, _, _ => none
  | fuel + 1, buf, s, b =>
      if s < b then do
        let t ← buf[b]?
        let c ← buf[s]?
        let buf ← copyTo buf b [c]
        let buf ← copyTo buf s [t]
        reverseLoop fuel buf (s + 1) (b - 1)
      else some buf

/-- `ulltoa`: the block at `buf` afterwards, where each loop may take `fuel` rounds. -/
def ulltoa (fuel : ℕ) (val : UInt64) (buf : List UInt8) (radix : Int32) : Option (List UInt8) := do
  let (buf, b) ← digitLoop radix.toInt64.toUInt64 fuel val buf 0
  let buf ← copyTo buf b [0]
  reverseLoop fuel buf 0 (b - 1)

/-! ### Texts of numbers -/

/-- The digits 0 to 9 and A to Z. -/
def IsDigit (c : UInt8) : Prop := 0x30 ≤ c ∧ c ≤ 0x39 ∨ 0x41 ≤ c ∧ c ≤ 0x5A

/-- What a digit stands for. -/
def charValue (c : UInt8) : ℕ := if c ≤ 0x39 then c.toNat - 0x30 else c.toNat - 0x41 + 10

/-- The text `t` is the numeral of `n`: it has digits only, these stand for digits below the radix,
the highest first and none too many, and reading them back gives `n`. -/
structure Canonical (radix n : ℕ) (t : List UInt8) : Prop where
  digits : ∀ c ∈ t, IsDigit c
  numeral : IsNumeral radix n (t.map charValue)

/-- The text of `n`. -/
def numeralText (radix n : ℕ) : List UInt8 :=
  ((divDigits radix n).map fun d => digitChar (UInt8.ofNat d)).reverse

lemma isDigit_digitChar : ∀ d < 36, IsDigit (digitChar (UInt8.ofNat d)) := by
  unfold IsDigit
  decide +kernel

lemma charValue_digitChar : ∀ d < 36, charValue (digitChar (UInt8.ofNat d)) = d := by
  decide +kernel

lemma digitChar_charValue {c : UInt8} (hc : IsDigit c) :
    digitChar (UInt8.ofNat (charValue c)) = c := by
  have hall : ∀ n < 256, IsDigit (UInt8.ofNat n) →
      digitChar (UInt8.ofNat (charValue (UInt8.ofNat n))) = UInt8.ofNat n := by
    unfold IsDigit
    decide +kernel
  have h := hall c.toNat c.toNat_lt
  rw [UInt8.ofNat_toNat] at h
  exact h hc

section Radix

variable {radix n : ℕ}

lemma canonical_numeralText (hradix : 1 < radix) (hradix' : radix ≤ 36) :
    Canonical radix n (numeralText radix n) := by
  have hlt : ∀ d ∈ divDigits radix n, d < 36 := fun d hd =>
    (divDigits_lt hradix d hd).trans_le hradix'
  constructor
  · intro c hc
    obtain ⟨d, hd, rfl⟩ := List.mem_map.mp (List.mem_reverse.mp hc)
    exact isDigit_digitChar d (hlt d hd)
  · have hmap : (divDigits radix n).map (charValue ∘ fun d => digitChar (UInt8.ofNat d)) =
        divDigits radix n := by
      refine (List.map_congr_left fun d hd => ?_).trans (List.map_id _)
      exact charValue_digitChar d (hlt d hd)
    rw [isNumeral_iff hradix, numeralText, List.map_reverse, List.map_map, hmap]

/-- A number has one text. -/
lemma canonical_iff (hradix : 1 < radix) (hradix' : radix ≤ 36) {t : List UInt8} :
    Canonical radix n t ↔ t = numeralText radix n := by
  refine ⟨fun h => ?_, fun h => h ▸ canonical_numeralText hradix hradix'⟩
  have hmap : t.map ((fun d => digitChar (UInt8.ofNat d)) ∘ charValue) = t :=
    (List.map_congr_left fun c hc => digitChar_charValue (h.digits c hc)).trans (List.map_id _)
  have hvalue := (isNumeral_iff hradix).mp h.numeral
  rw [numeralText, ← List.map_reverse, ← hvalue, List.map_map, hmap]

end Radix

/-! ### The two loops -/

/-- A cell of a block is overwritten. -/
lemma copyTo_cell (pre post : List UInt8) (c x : UInt8) :
    copyTo (pre ++ c :: post) pre.length [x] = some (pre ++ x :: post) := by
  have h := copyTo_append pre [c] post [x] rfl
  rwa [List.append_assoc, List.append_assoc] at h

section DigitLoop

variable {radix : UInt64} (hradix : 1 < radix.toNat)
include hradix

/-- One round of the first loop: it writes the lowest digit, and goes on if there are more. -/
lemma digitLoop_succ (fuel : ℕ) (val : UInt64) (pre post : List UInt8) (c : UInt8) :
    digitLoop radix (fuel + 1) val (pre ++ c :: post) pre.length =
      let buf := pre ++ digitChar (UInt8.ofNat (val.toNat % radix.toNat)) :: post
      if radix.toNat ≤ val.toNat then digitLoop radix fuel (val / radix) buf (pre.length + 1)
      else some (buf, pre.length + 1) := by
  have hdigit : (val % radix).toUInt8 = UInt8.ofNat (val.toNat % radix.toNat) := by
    refine UInt8.toNat_inj.mp ?_
    rw [UInt64.toNat_toUInt8, UInt64.toNat_mod, UInt8.toNat_ofNat']
  have hmore : val / radix > 0 ↔ radix.toNat ≤ val.toNat := by
    rw [gt_iff_lt, UInt64.lt_iff_toNat_lt, UInt64.toNat_div]
    exact Nat.div_pos_iff.trans ⟨fun h => h.2, fun h => ⟨by omega, h⟩⟩
  simp only [digitLoop, copyTo_cell, hdigit, Option.bind_eq_bind, Option.bind_some, hmore]

/-- The round that finds the last digit. -/
lemma digitLoop_last (fuel : ℕ) {val : UInt64} (hval : val.toNat < radix.toNat)
    (pre mid post : List UInt8) (hmid : mid.length = 1) :
    digitLoop radix (fuel + 1) val (pre ++ mid ++ post) pre.length =
      some (pre ++ [digitChar (UInt8.ofNat val.toNat)] ++ post, pre.length + mid.length) := by
  obtain ⟨c, rfl⟩ := List.length_eq_one_iff.mp hmid
  rw [List.append_assoc, List.singleton_append, digitLoop_succ hradix, Nat.mod_eq_of_lt hval]
  simp only [if_neg (not_le.mpr hval), List.append_assoc, List.singleton_append,
    List.length_singleton]

/-- The first loop writes the digits over what stands from `b` on. -/
lemma digitLoop_spec (fuel : ℕ) {val : UInt64} (hval : val.toNat < radix.toNat ^ (fuel + 1))
    (pre mid post : List UInt8) (hmid : mid.length = (divDigits radix.toNat val.toNat).length) :
    digitLoop radix (fuel + 1) val (pre ++ mid ++ post) pre.length =
      some (pre ++ (divDigits radix.toNat val.toNat).map (fun d => digitChar (UInt8.ofNat d)) ++
        post, pre.length + mid.length) := by
  induction fuel generalizing val pre mid with
  | zero =>
    rw [zero_add, pow_one] at hval
    rw [divDigits_of_lt hval] at hmid ⊢
    exact digitLoop_last hradix 0 hval pre mid post hmid
  | succ fuel ih =>
    by_cases hmore : radix.toNat ≤ val.toNat
    · have hdiv : (val / radix).toNat = val.toNat / radix.toNat := UInt64.toNat_div _ _
      have hval' : (val / radix).toNat < radix.toNat ^ (fuel + 1) := by
        rw [hdiv]
        exact Nat.div_lt_of_lt_mul (by rwa [← pow_succ'])
      rw [divDigits_of_le hradix hmore] at hmid ⊢
      obtain ⟨c, mid, rfl⟩ := List.exists_cons_of_length_eq_add_one hmid
      have hloop := ih hval' (pre ++ [digitChar (UInt8.ofNat (val.toNat % radix.toNat))]) mid
        (by rw [hdiv]; simpa using hmid)
      rw [List.append_assoc, List.cons_append, digitLoop_succ hradix]
      simp only [if_pos hmore]
      simpa [hdiv, Nat.add_assoc, Nat.add_comm 1] using hloop
    · have hlt := not_le.mp hmore
      rw [divDigits_of_lt hlt] at hmid ⊢
      exact digitLoop_last hradix (fuel + 1) hlt pre mid post hmid

end DigitLoop

/-- A cell of a block is read. -/
lemma getElem?_cell (pre post : List UInt8) (c : UInt8) :
    (pre ++ c :: post)[pre.length]? = some c := by
  rw [List.getElem?_append_right le_rfl, Nat.sub_self, List.getElem?_cons_zero]

/-- One round of the second loop: the cells at the two pointers change places. -/
lemma reverseLoop_succ (fuel : ℕ) (pre mid post : List UInt8) (x y : UInt8) :
    reverseLoop (fuel + 1) (pre ++ x :: (mid ++ y :: post)) pre.length (pre ++ x :: mid).length =
      reverseLoop fuel (pre ++ y :: (mid ++ x :: post)) (pre.length + 1)
        (pre.length + mid.length) := by
  have hlast : ∀ c, pre ++ x :: (mid ++ c :: post) = (pre ++ x :: mid) ++ c :: post := by
    intro c
    rw [List.append_assoc, List.cons_append]
  have hlt : pre.length < (pre ++ x :: mid).length := by simp
  have hb : (pre ++ x :: mid).length - 1 = pre.length + mid.length := by simp
  rw [reverseLoop, if_pos hlt, getElem?_cell, hlast y, getElem?_cell]
  simp only [Option.bind_eq_bind, Option.bind_some, copyTo_cell]
  rw [← hlast x, copyTo_cell, Option.bind_some, hb]

/-- The second loop turns round what stands between the pointers. -/
lemma reverseLoop_spec (fuel : ℕ) (pre mid post : List UInt8) (hfuel : mid.length < 2 * fuel) :
    reverseLoop fuel (pre ++ mid ++ post) pre.length (pre.length + mid.length - 1) =
      some (pre ++ mid.reverse ++ post) := by
  induction fuel generalizing pre mid post with
  | zero => omega
  | succ fuel ih =>
    rcases mid with _ | ⟨x, mid⟩
    · rw [reverseLoop, if_neg (by simp)]
      rfl
    rcases List.eq_nil_or_concat mid with rfl | ⟨mid, y, rfl⟩
    · rw [reverseLoop, if_neg (by simp)]
      rfl
    · -- the first and the last change places, and the loop goes on between them
      have hlast : pre.length + (x :: mid.concat y).length - 1 = (pre ++ x :: mid).length := by
        simp
      have hblock : pre ++ x :: mid.concat y ++ post = pre ++ x :: (mid ++ y :: post) := by
        simp
      have hloop := ih (pre ++ [y]) mid (x :: post) (by simp at hfuel; omega)
      rw [hlast, hblock, reverseLoop_succ]
      simpa [Nat.add_right_comm] using hloop

/-! ### `ulltoa` -/

lemma length_numeralText (radix n : ℕ) :
    (numeralText radix n).length = (divDigits radix n).length := by
  rw [numeralText, List.length_reverse, List.length_map]

section Ulltoa

variable {radix : Int32} (h2 : 2 ≤ radix) (h36 : radix ≤ 36)
include h2 h36

/-- The radix as a number, before and after its conversion to `unsigned long long`. -/
lemma toNat_radix : 1 < radix.toInt.toNat ∧ radix.toInt.toNat ≤ 36 ∧
    radix.toInt64.toUInt64.toNat = radix.toInt.toNat := by
  have hlo : 2 ≤ radix.toInt := Int32.le_iff_toInt_le.mp h2
  have hhi : radix.toInt ≤ 36 := Int32.le_iff_toInt_le.mp h36
  refine ⟨by omega, by omega, ?_⟩
  rw [toNat_toInt64_toUInt64, Int.emod_eq_of_lt (by omega) (by omega)]

/-- `ulltoa` on a block that is split into the place of the digits, that of the zero, and the
rest. -/
lemma ulltoa_block (val : UInt64) {fuel : ℕ} (hfuel : 64 ≤ fuel) (mid post : List UInt8) (c : UInt8)
    (hmid : mid.length = (divDigits radix.toInt.toNat val.toNat).length) :
    ulltoa fuel val (mid ++ c :: post) radix =
      some (numeralText radix.toInt.toNat val.toNat ++ 0 :: post) := by
  obtain ⟨hlo, -, hconv⟩ := toNat_radix h2 h36
  obtain ⟨fuel, rfl⟩ : ∃ n, fuel = n + 1 := ⟨fuel - 1, by omega⟩
  have hpow : val.toNat < radix.toInt.toNat ^ 64 :=
    val.toNat_lt.trans_le (Nat.pow_le_pow_left hlo 64)
  have hval : val.toNat < radix.toInt64.toUInt64.toNat ^ (fuel + 1) := by
    rw [hconv]
    exact hpow.trans_le (Nat.pow_le_pow_right (by omega) hfuel)
  have hlen := length_divDigits_le hlo (by decide) hpow
  have hfirst := digitLoop_spec (hconv ▸ hlo) fuel hval [] mid (c :: post) (hconv ▸ hmid)
  rw [hconv] at hfirst
  rw [numeralText]
  set digits := (divDigits radix.toInt.toNat val.toNat).map fun d => digitChar (UInt8.ofNat d)
    with hdigits
  have hmid' : mid.length = digits.length := by rw [hmid, hdigits, List.length_map]
  have hsecond := reverseLoop_spec (fuel + 1) [] digits (0 :: post) (by omega)
  simp only [List.nil_append, List.length_nil, Nat.zero_add, hmid'] at hfirst hsecond
  rw [ulltoa, hfirst]
  simp only [Option.bind_eq_bind, Option.bind_some, copyTo_cell, hsecond]

/-- What stands in the block after `ulltoa`: the text of the number, a zero, and behind it what was
there before. -/
theorem ulltoa_spec (val : UInt64) {fuel : ℕ} (hfuel : 64 ≤ fuel) {buf : List UInt8}
    (hbuf : (numeralText radix.toInt.toNat val.toNat).length < buf.length) :
    ulltoa fuel val buf radix =
      some (numeralText radix.toInt.toNat val.toNat ++
        0 :: buf.drop ((numeralText radix.toInt.toNat val.toNat).length + 1)) := by
  rw [length_numeralText] at hbuf ⊢
  have htake : (buf.take (divDigits radix.toInt.toNat val.toNat).length).length =
      (divDigits radix.toInt.toNat val.toNat).length := by
    rw [List.length_take]
    omega
  rw [← ulltoa_block h2 h36 val hfuel _ _ (buf.get ⟨_, hbuf⟩) htake, List.get_eq_getElem,
    ← List.drop_eq_getElem_cons, List.take_append_drop]

end Ulltoa

-- 255 in hexadecimal, in a block of four bytes
example : ulltoa 64 255 [9, 9, 9, 9] 16 = some [0x46, 0x46, 0, 9] := by decide +kernel

/-- **`ulltoa`.**  For every number and every radix from 2 to 36 there is exactly one canonical
text.  `ulltoa` writes it, and a zero behind it, into every block that has room for them, and
leaves the rest of the block alone.  In decimal, 21 bytes are enough. -/
theorem ulltoa_canonical (val : UInt64) (radix : Int32) (h2 : 2 ≤ radix) (h36 : radix ≤ 36) :
    ∃ t, (∀ t', Canonical radix.toInt.toNat val.toNat t' ↔ t' = t) ∧
      (∀ fuel buf, 64 ≤ fuel → t.length < buf.length →
        ulltoa fuel val buf radix = some (t ++ 0 :: buf.drop (t.length + 1))) ∧
      t.length + 1 ≤ 65 ∧ (radix = 10 → t.length + 1 ≤ 21) := by
  obtain ⟨hlo, hhi, -⟩ := toNat_radix h2 h36
  have hlt := val.toNat_lt
  refine ⟨numeralText radix.toInt.toNat val.toNat, fun t' => canonical_iff hlo hhi,
    fun fuel buf hfuel hbuf => ulltoa_spec h2 h36 val hfuel hbuf, ?_, ?_⟩
  · rw [length_numeralText]
    exact Nat.succ_le_succ (length_divDigits_le hlo (by decide)
      (hlt.trans_le (Nat.pow_le_pow_left hlo 64)))
  · rintro rfl
    rw [length_numeralText]
    exact Nat.succ_le_succ (length_divDigits_le hlo (by decide) (hlt.trans (by decide)))

/-- The largest number in decimal, in a block of 24 bytes. -/
theorem ulltoa_largest : ∃ t, Canonical 10 (2 ^ 64 - 1) t ∧
    ulltoa 64 0xFFFFFFFFFFFFFFFF (List.replicate 24 0xFF) 10 =
      some (t ++ 0 :: (List.replicate 24 0xFF).drop (t.length + 1)) := by
  obtain ⟨t, hcanonical, hulltoa, -, hlen⟩ :=
    ulltoa_canonical 0xFFFFFFFFFFFFFFFF 10 (by decide) (by decide)
  refine ⟨t, (hcanonical t).mpr rfl, hulltoa 64 _ le_rfl ?_⟩
  have hshort := hlen rfl
  rw [List.length_replicate]
  omega

/-! ### The message of `settimeofday` -/

/-- The clock and the static buffers of `settimeofday`. -/
structure Logged where
  clock : HwTm
  buf1 : List UInt8
  buf2 : List UInt8

/-- A call, with the arguments `ulltoa(diff_us, buf1, 10)` and `ulltoa(diff_hw_us, buf2, 10)` of
the message that `settimeofday` prints. -/
def Logged.step (signedChar : Bool) (s : Logged) : Call → Option Logged
  | .gettimeofday m => some { s with clock := (gettimeofday s.clock m).1 }
  | .settimeofday m tp => do
      let r := settimeofday signedChar s.clock m tp
      let buf1 ← ulltoa 64 r.2.diffUs s.buf1 10
      let buf2 ← ulltoa 64 r.2.diffHwUs s.buf2 10
      some ⟨r.1, buf1, buf2⟩

/-- The buffers have 24 bytes. -/
structure Logged.Sized (s : Logged) : Prop where
  length_buf1 : s.buf1.length = 24
  length_buf2 : s.buf2.length = 24

/-- A buffer of 24 bytes takes every number in decimal, and is read back as its text. -/
lemma ulltoa_buffer (val : UInt64) {buf : List UInt8} (hbuf : buf.length = 24) :
    ∃ buf' t, ulltoa 64 val buf 10 = some buf' ∧ buf'.length = 24 ∧ text buf' = some t ∧
      Canonical 10 val.toNat t := by
  have hten : (10 : Int32).toInt.toNat = 10 := by decide
  have hcanonical := canonical_numeralText (n := val.toNat) (show 1 < 10 by decide) (by decide)
  have hlen : (numeralText 10 val.toNat).length ≤ 20 := by
    rw [length_numeralText]
    exact length_divDigits_le (by decide) (by decide) (val.toNat_lt.trans (by decide))
  have hspec := ulltoa_spec (show (2 : Int32) ≤ 10 by decide) (by decide) val le_rfl
    (show (numeralText (10 : Int32).toInt.toNat val.toNat).length < buf.length by
      rw [hten, hbuf]; omega)
  rw [hten] at hspec
  refine ⟨_, _, hspec, ?_, text_append (fun hzero => ?_) _, hcanonical⟩
  · rw [List.length_append, List.length_cons, List.length_drop, hbuf]
    omega
  · -- a digit is not a zero
    rcases hcanonical.digits 0 hzero with ⟨h, -⟩ | ⟨h, -⟩
    · exact absurd h (by decide)
    · exact absurd h (by decide)

/-- `settimeofday` prints the numerals of the two differences. -/
lemma settimeofday_log (signedChar : Bool) {s : Logged} (h : s.Sized) (m : UInt32) (tp : Timeval) :
    ∃ s' t₁ t₂, s.step signedChar (.settimeofday m tp) = some s' ∧ s'.Sized ∧
      s'.clock = (settimeofday signedChar s.clock m tp).1 ∧
      text s'.buf1 = some t₁ ∧
      Canonical 10 (settimeofday signedChar s.clock m tp).2.diffUs.toNat t₁ ∧
      text s'.buf2 = some t₂ ∧
      Canonical 10 (settimeofday signedChar s.clock m tp).2.diffHwUs.toNat t₂ := by
  obtain ⟨buf1, t₁, hbuf1, hlen1, htext1, ht₁⟩ :=
    ulltoa_buffer (settimeofday signedChar s.clock m tp).2.diffUs h.length_buf1
  obtain ⟨buf2, t₂, hbuf2, hlen2, htext2, ht₂⟩ :=
    ulltoa_buffer (settimeofday signedChar s.clock m tp).2.diffHwUs h.length_buf2
  refine ⟨⟨_, buf1, buf2⟩, t₁, t₂, ?_, ⟨hlen1, hlen2⟩, rfl, htext1, ht₁, htext2, ht₂⟩
  simp only [Logged.step, hbuf1, hbuf2, Option.bind_eq_bind, Option.bind_some]

/-- One call with the message is one call of the clock, and no buffer overflows. -/
lemma Logged.Sized.step (signedChar : Bool) {s : Logged} (h : s.Sized) (e : Call) :
    ∃ s', s.step signedChar e = some s' ∧ s'.Sized ∧
      Sntp.step signedChar s.clock e = some s'.clock := by
  cases e with
  | gettimeofday m => exact ⟨_, rfl, ⟨h.length_buf1, h.length_buf2⟩, rfl⟩
  | settimeofday m tp =>
    obtain ⟨s', -, -, hstep, hsized, hclock, -⟩ := settimeofday_log signedChar h m tp
    exact ⟨s', hstep, hsized, by rw [hclock]; rfl⟩

/-- **The buffers of `settimeofday`.**  Whatever the calls and whatever is set, no message ever
overflows a buffer, and the clock is the one without messages. -/
theorem exec_logged (signedChar : Bool) {s : Logged} (h : s.Sized) (es : List Call) :
    ∃ s', exec (Logged.step signedChar) s es = some s' ∧ s'.Sized ∧
      exec (Sntp.step signedChar) s.clock es = some s'.clock := by
  induction es generalizing s with
  | nil => exact ⟨s, rfl, h, rfl⟩
  | cons e es ih =>
    obtain ⟨s₁, hstep, hsized, hclock⟩ := h.step signedChar e
    obtain ⟨s', hrun, hsized', hclock'⟩ := ih hsized
    refine ⟨s', ?_, hsized', ?_⟩
    · rw [exec_cons, hstep, Option.bind_some, hrun]
    · rw [exec_cons, hclock, Option.bind_some, hclock']

end Teensy41Ethernet.Sntp
