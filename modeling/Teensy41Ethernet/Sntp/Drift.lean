import Teensy41Ethernet.Sntp.Clock

/-!
# The drift correction

From one `settimeofday` to the next, a clock that is slow has lost one microsecond in `tcv`, and
`_gettimeofday` adds one for every `tcv` microseconds that it counts.  A clock that is fast was to
be corrected by a negative `tcv`.  But the sign is in a `char`, and where `char` is unsigned it is
255; and `_gettimeofday` divides by `tcv` as a `uint64_t`, which makes a negative one so large that
the share is zero.
-/

namespace Teensy41Ethernet.Sntp

open Lib

/-! ### What the correction is for -/

/-- The reading of a clock that gains (or loses, when it is slow) one microsecond in `q`. -/
def intended (fast : Bool) (q : ℕ) (c : HwTm) : UInt64 :=
  if fast then c.us - (c.us - c.syncUs) / UInt64.ofNat q
  else c.us + (c.us - c.syncUs) / UInt64.ofNat q

/-- `tcv` is the number of microseconds in which the clock is off by one, with its sign, and every
reading until the next synchronisation is corrected by it. -/
structure Corrects (c : HwTm) (fast : Bool) (q : ℕ) : Prop where
  tcv_eq : c.tcv.toInt = if fast then -(q : ℤ) else q
  value_eq : ∀ ms m, (gettimeofday (counts c ms) m).2.value =
    (intended fast q (count (counts c ms) m)).toNat

/-! ### Readings -/

section Readings

variable {c : HwTm} {q : ℕ}

lemma tcv_counts (c : HwTm) (ms : List UInt32) : (counts c ms).tcv = c.tcv := by
  induction ms generalizing c with
  | nil => rfl
  | cons m ms ih => exact ih (gettimeofday c m).1

lemma syncUs_counts (c : HwTm) (ms : List UInt32) : (counts c ms).syncUs = c.syncUs := by
  induction ms generalizing c with
  | nil => rfl
  | cons m ms ih => exact ih (gettimeofday c m).1

lemma corrected_of_tcv_eq (h : c.tcv.toInt = q) :
    corrected c = intended false q c := by
  rw [corrected, intended, if_neg Bool.false_ne_true]
  split
  · have hdiv : c.tcv.toInt64.toUInt64 = UInt64.ofNat q := by
      refine UInt64.toNat_inj.mp ?_
      rw [toNat_toInt64_toUInt64, h, UInt64.toNat_ofNat']
      omega
    rw [hdiv]
  · next htcv =>
    have hzero : c.tcv = 0 := by simpa using htcv
    have hq0 : q = 0 := by
      rw [hzero] at h
      exact (Int.natCast_eq_zero.mp h.symm)
    rw [hq0]
    simp

/-- A clock whose `micros()` has advanced by any number below `2 ^ 32 - 1`. -/
lemma exists_elapsed_eq (c : HwTm) {e : ℕ} (he : e < 2 ^ 32 - 1) :
    ∃ m, (elapsed c m).toNat = e := by
  have hc := c.micros.toNat_lt
  by_cases h : c.micros.toNat + e < 2 ^ 32
  · refine ⟨UInt32.ofNat (c.micros.toNat + e), ?_⟩
    rw [toNat_elapsed, UInt32.toNat_ofNat', Nat.mod_eq_of_lt h, if_neg (by omega)]
    omega
  · -- one microsecond is lost where `micros()` begins anew
    refine ⟨UInt32.ofNat (c.micros.toNat + e + 1 - 2 ^ 32), ?_⟩
    rw [toNat_elapsed, UInt32.toNat_ofNat', Nat.mod_eq_of_lt (by omega), if_pos (by omega)]
    omega

lemma us_count_sub (hus : c.us = c.syncUs) (m : UInt32) :
    (count c m).us - (count c m).syncUs = (elapsed c m).toUInt64 := by
  have h : (count c m).us - (count c m).syncUs = c.us + (elapsed c m).toUInt64 - c.syncUs := rfl
  rw [h, hus, add_sub_cancel_left]

/-- With a negative `tcv` nothing is taken off, when the first microsecond should be. -/
lemma not_corrects_fast (hus : c.us = c.syncUs) (hpos : 0 < q) (hq : q < 2 ^ 31) :
    ¬ Corrects c true q := by
  intro h
  obtain ⟨m, hm⟩ := exists_elapsed_eq c (e := q) (by omega)
  have hshare : (count c m).us - (count c m).syncUs = UInt64.ofNat q := by
    refine (us_count_sub hus m).trans (UInt64.toNat_inj.mp ?_)
    rw [UInt32.toNat_toUInt64, hm, UInt64.toNat_ofNat_of_lt' (by simp [UInt64.size]; omega)]
  have htcv : (count c m).tcv.toInt = -(q : ℤ) := h.tcv_eq
  have hne : (count c m).tcv ≠ 0 := by
    intro h0
    rw [h0] at htcv
    have : (0 : ℤ) = -(q : ℤ) := htcv
    omega
  have hdiv : UInt64.ofNat q / (count c m).tcv.toInt64.toUInt64 = 0 := by
    refine UInt64.toNat_inj.mp ?_
    rw [UInt64.toNat_div, toNat_toInt64_toUInt64, htcv, UInt64.toNat_ofNat']
    exact Nat.div_eq_of_lt (by omega)
  have hself : UInt64.ofNat q / UInt64.ofNat q = 1 := by
    refine UInt64.toNat_inj.mp ?_
    rw [UInt64.toNat_div, UInt64.toNat_ofNat', Nat.mod_eq_of_lt (by omega)]
    exact Nat.div_self hpos
  have hvalue := h.value_eq [] m
  rw [value_gettimeofday] at hvalue
  have heq : corrected (count c m) = intended true q (count c m) :=
    UInt64.toNat_inj.mp (Int.natCast_inj.mp hvalue)
  rw [corrected, if_pos hne, intended, if_pos rfl, hshare, hdiv, hself, add_zero] at heq
  exact absurd (sub_eq_self.mp heq.symm) (by decide)

/-- When a clock that has just been set corrects its readings. -/
lemma corrects_iff (hus : c.us = c.syncUs) (hq : q < 2 ^ 31) (fast : Bool) :
    Corrects c fast q ↔ c.tcv.toInt = q ∧ (fast = true → q = 0) := by
  have hslow : c.tcv.toInt = q → Corrects c false q := by
    intro h
    refine ⟨h, fun ms m => ?_⟩
    have htcv : (count (counts c ms) m).tcv.toInt = q := (congrArg _ (tcv_counts c ms)).trans h
    rw [value_gettimeofday, corrected_of_tcv_eq htcv]
  cases fast with
  | false => exact ⟨fun h => ⟨h.tcv_eq, fun hf => absurd hf Bool.false_ne_true⟩, fun h => hslow h.1⟩
  | true =>
    constructor
    · intro h
      have hzero : q = 0 := by
        by_contra hne
        exact not_corrects_fast hus (by omega) hq h
      have htcv := h.tcv_eq
      subst hzero
      exact ⟨htcv, fun _ => rfl⟩
    · rintro ⟨htcv, hzero⟩
      obtain rfl := hzero rfl
      have h := hslow htcv
      -- one microsecond in 0 stands for no correction, whatever its sign
      refine ⟨htcv, fun ms m => (h.value_eq ms m).trans ?_⟩
      simp [intended]

end Readings

/-! ### Synchronisation -/

/-- The hardware clock is `d` microseconds ahead of the time that is set, or behind it. -/
def IsOff (hw us : UInt64) (fast : Bool) (d : ℕ) : Prop :=
  if fast then hw.toNat = us.toNat + d else hw.toNat + d = us.toNat

section Synchronisation

variable {fast : Bool} {c : HwTm} {hw us : UInt64} {d : ℕ}

lemma change_of_isOff (signedChar : Bool) (hoff : IsOff hw us fast d) (hpos : 0 < d) :
    (change signedChar hw us).1 = (if fast then minusOne signedChar else 1) ∧
      (change signedChar hw us).2.toNat = d := by
  cases fast with
  | true =>
    have hoff : hw.toNat = us.toNat + d := hoff
    have hlt : hw > us := UInt64.lt_iff_toNat_lt.mpr (by omega)
    rw [change, if_pos hlt, UInt64.toNat_sub_of_le _ _ (UInt64.le_of_lt hlt)]
    exact ⟨rfl, by omega⟩
  | false =>
    have hoff : hw.toNat + d = us.toNat := hoff
    have hle : hw ≤ us := UInt64.le_iff_toNat_le.mpr (by omega)
    have hnot : ¬ hw > us := UInt64.not_lt.mpr hle
    rw [change, if_neg hnot, UInt64.toNat_sub_of_le _ _ hle]
    exact ⟨rfl, by omega⟩

/-- `tcv` of a clock that was slow, or whose error is too large to share out. -/
lemma toInt_adjusted {T : ℕ} {hwSign : ℤ} {diffHwUs : UInt64} (hsync : c.syncUs ≠ 0)
    (hset : c.syncUs.toNat + T = us.toNat) (hdiff : diffHwUs.toNat = d) (hpos : 0 < d)
    (hhour : d < 3600000000) (hq : T / d < 2 ^ 31) (hsign : hwSign = 1 ∨ T < d) :
    (adjusted c us hwSign diffHwUs).toInt = (T / d : ℕ) := by
  have hne : diffHwUs ≠ 0 := by
    rintro rfl
    exact absurd hdiff hpos.ne
  have hlt : diffHwUs < secPerHour * usecPerSec :=
    UInt64.lt_iff_toNat_lt.mpr (hdiff.trans_lt hhour)
  have hle : c.syncUs ≤ us := UInt64.le_iff_toNat_le.mpr (by omega)
  have hshare : ((us - c.syncUs) / diffHwUs).toNat = T / d := by
    rw [UInt64.toNat_div, UInt64.toNat_sub_of_le _ _ hle, hdiff, ← hset, Nat.add_sub_cancel_left]
  have hproduct : (us - c.syncUs) / diffHwUs * UInt64.ofInt hwSign =
      (us - c.syncUs) / diffHwUs := by
    rcases hsign with rfl | hsmall
    · exact mul_one _
    · have hzero : (us - c.syncUs) / diffHwUs = 0 :=
        UInt64.toNat_inj.mp (hshare.trans (Nat.div_eq_of_lt hsmall))
      rw [hzero, zero_mul]
  rw [adjusted, if_pos ⟨hsync, hne, hlt⟩, hproduct, toInt_toInt32_of_lt (by omega), hshare]

end Synchronisation

/-- **The drift correction.**  Let the times of two successive calls of `settimeofday` be `T`
microseconds apart, with the hardware clock `d` microseconds off at the second.  Then `tcv` becomes
`T / d` with the sign of the error and every later reading is corrected by one microsecond in
`T / d`, if and only if the clock was not fast, or too much so to be corrected (`T < d`), and the
first call did not set the time 0, which counts as no synchronisation, unless `tcv` is right
already. -/
theorem settimeofday_corrects_iff (signedChar fast : Bool) (c : HwTm) (m₁ m₂ : UInt32)
    (tp₁ tp₂ : Timeval) (ms : List UInt32) (T d : ℕ) (hset : tp₁.us.toNat + T = tp₂.us.toNat)
    (hoff : IsOff (count (counts (settimeofday signedChar c m₁ tp₁).1 ms) m₂).us tp₂.us fast d)
    (hpos : 0 < d) (hhour : d < 3600000000) (hq : T / d < 2 ^ 31) :
    Corrects (settimeofday signedChar (counts (settimeofday signedChar c m₁ tp₁).1 ms) m₂ tp₂).1
        fast (T / d) ↔
      (fast = true → T < d) ∧
        (tp₁.us ≠ 0 ∨ (settimeofday signedChar c m₁ tp₁).1.tcv.toInt = (T / d : ℕ)) := by
  generalize hc' : counts (settimeofday signedChar c m₁ tp₁).1 ms = c' at hoff ⊢
  have hsync : (count c' m₂).syncUs = tp₁.us := by
    rw [← hc']
    exact syncUs_counts _ ms
  have htcv : (count c' m₂).tcv = (settimeofday signedChar c m₁ tp₁).1.tcv := by
    rw [← hc']
    exact tcv_counts _ ms
  have hzero : T / d = 0 ↔ T < d := Nat.div_eq_zero_iff_lt hpos
  obtain ⟨hsign, hdiff⟩ := change_of_isOff signedChar hoff hpos
  have hnew : (settimeofday signedChar c' m₂ tp₂).1.tcv = adjusted (count c' m₂) tp₂.us
      (change signedChar (count c' m₂).us tp₂.us).1
      (change signedChar (count c' m₂).us tp₂.us).2 := rfl
  rw [corrects_iff rfl hq, hnew, hzero, and_comm]
  refine and_congr_right fun hfast => ?_
  by_cases h0 : tp₁.us = 0
  · -- the time 0 stands for a clock that has not been set
    have hskip : ¬ (count c' m₂).syncUs ≠ 0 := by
      rw [hsync]
      exact not_not.mpr h0
    rw [adjusted, if_neg fun h => hskip h.1, htcv]
    exact ⟨Or.inr, fun h => h.resolve_left (not_not.mpr h0)⟩
  · refine iff_of_true ?_ (Or.inl h0)
    refine toInt_adjusted (by rwa [hsync]) (by rwa [hsync]) hdiff hpos hhour hq ?_
    rw [hsign]
    cases fast with
    | true => exact Or.inr (hfast rfl)
    | false => exact Or.inl rfl

/-- Two synchronisations 10 seconds apart, of which the second finds the clock 500 microseconds
behind: one microsecond in 20000 is added. -/
theorem settimeofday_corrects_slow : Corrects (settimeofday false
    (counts (settimeofday false HwTm.init 0 ⟨1, 0⟩).1 []) 9999500 ⟨11, 0⟩).1 false 20000 := by
  have hoff : IsOff (count (counts (settimeofday false HwTm.init 0 ⟨1, 0⟩).1 []) 9999500).us
      (Timeval.us ⟨11, 0⟩) false 500 := by
    rw [IsOff, if_neg Bool.false_ne_true]
    decide +kernel
  exact (settimeofday_corrects_iff false false HwTm.init 0 9999500 ⟨1, 0⟩ ⟨11, 0⟩ [] 10000000 500
    (by decide +kernel) hoff (by decide) (by decide) (by decide)).mpr
    ⟨fun h => absurd h Bool.false_ne_true, Or.inl (by decide)⟩

/-- The second synchronisation finds the clock 500 microseconds ahead.  With an unsigned `char`
`tcv` becomes 5100000 instead of -20000, and a second later the clock is not put back by the 50
microseconds; with a signed `char` `tcv` is right and the clock is not put back either. -/
theorem settimeofday_fast :
    (settimeofday false (settimeofday false HwTm.init 0 ⟨1, 0⟩).1 10000500 ⟨11, 0⟩).1 =
        ⟨10000500, 11000000, 11000000, 5100000⟩ ∧
      (settimeofday true (settimeofday true HwTm.init 0 ⟨1, 0⟩).1 10000500 ⟨11, 0⟩).1 =
        ⟨10000500, 11000000, 11000000, -20000⟩ ∧
      (gettimeofday ⟨10000500, 11000000, 11000000, 5100000⟩ 11000500).2 = ⟨12, 0⟩ ∧
      (gettimeofday ⟨10000500, 11000000, 11000000, -20000⟩ 11000500).2 = ⟨12, 0⟩ ∧
      intended true 20000 (count ⟨10000500, 11000000, 11000000, -20000⟩ 11000500) = 11999950 := by
  decide +kernel

end Teensy41Ethernet.Sntp
