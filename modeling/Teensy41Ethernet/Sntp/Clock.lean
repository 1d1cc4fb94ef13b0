import Mathlib.Data.UInt
import Teensy41Ethernet.Lib.Run

/-!
# The clock of the SNTP sketch

`_gettimeofday` counts the microseconds that `micros()` has advanced since the last call, and adds
a share of what has been counted since the last `settimeofday` to correct the drift of the
hardware clock.  `settimeofday` finds this share from how far the count was off.

The time of a call is the value of `micros()` in it.  `time_t` has 64 bits here and `suseconds_t`
has 32; whether `char` is signed depends on the target and is a parameter.  `settimeofday` calls
`_gettimeofday` at its beginning, and if the message that it prints begins a new line, this is one
more call of `_gettimeofday`, after it.
-/

namespace Teensy41Ethernet.Sntp

open Lib

/-! ### The code -/

/-- `USEC_PER_SEC`. -/
def usecPerSec : UInt64 := 1000000

/-- `SEC_PER_HOUR`. -/
def secPerHour : UInt64 := 3600

/-- `struct timeval`. -/
structure Timeval where
  tvSec : Int64
  tvUsec : Int32
deriving DecidableEq

/-- `(uint64_t)tv_sec * USEC_PER_SEC + tv_usec`. -/
def Timeval.us (tv : Timeval) : UInt64 :=
  tv.tvSec.toUInt64 * usecPerSec + tv.tvUsec.toInt64.toUInt64

/-- `hw_tm`. -/
structure HwTm where
  micros : UInt32
  us : UInt64
  syncUs : UInt64
  tcv : Int32
deriving DecidableEq

/-- `hw_tm` before the first call. -/
def HwTm.init : HwTm := ⟨0, 0, 0, 0⟩

/-- What `_gettimeofday` adds to `us`, in 32 bits. -/
def elapsed (c : HwTm) (m : UInt32) : UInt32 :=
  if m < c.micros then 0xFFFFFFFF - c.micros + m else m - c.micros

/-- `_gettimeofday` up to the drift correction. -/
def count (c : HwTm) (m : UInt32) : HwTm :=
  { c with micros := m, us := c.us + (elapsed c m).toUInt64 }

/-- The corrected time. -/
def corrected (c : HwTm) : UInt64 :=
  if c.tcv ≠ 0 then c.us + (c.us - c.syncUs) / c.tcv.toInt64.toUInt64 else c.us

/-- `_gettimeofday`. -/
def gettimeofday (c : HwTm) (m : UInt32) : HwTm × Timeval :=
  let c := count c m
  (c, ⟨(corrected c / usecPerSec).toInt64, (corrected c % usecPerSec).toUInt32.toInt32⟩)

/-- A `char` to which -1 has been assigned. -/
def minusOne (signedChar : Bool) : ℤ := if signedChar then -1 else 255

/-- A sign and a difference, as `settimeofday` finds them twice: of the time that was returned last
and the time that is set, and of the count and the time that is set. -/
def change (signedChar : Bool) (prev us : UInt64) : ℤ × UInt64 :=
  if prev > us then (minusOne signedChar, prev - us) else (1, us - prev)

/-- `sign`, `diff_us`, `hw_sign` and `diff_hw_us`, which `settimeofday` prints. -/
structure Report where
  sign : ℤ
  diffUs : UInt64
  hwSign : ℤ
  diffHwUs : UInt64

/-- The new `tcv`. -/
def adjusted (c : HwTm) (us : UInt64) (hwSign : ℤ) (diffHwUs : UInt64) : Int32 :=
  if c.syncUs ≠ 0 ∧ diffHwUs ≠ 0 ∧ diffHwUs < secPerHour * usecPerSec then
    ((us - c.syncUs) / diffHwUs * UInt64.ofInt hwSign).toUInt32.toInt32
  else c.tcv

/-- `settimeofday`. -/
def settimeofday (signedChar : Bool) (c : HwTm) (m : UInt32) (tp : Timeval) : HwTm × Report :=
  let tv := (gettimeofday c m).2
  let c := (gettimeofday c m).1
  let prevUs := tv.us
  let prevHwUs := c.us
  let us := tp.us
  let d := change signedChar prevUs us
  let hw := change signedChar prevHwUs us
  ({ c with us := us, tcv := adjusted c us hw.1 hw.2, syncUs := us }, ⟨d.1, d.2, hw.1, hw.2⟩)

/-- The calls, with the value of `micros()`. -/
inductive Call where
  | gettimeofday (m : UInt32)
  | settimeofday (m : UInt32) (tp : Timeval)

/-- A call. -/
def step (signedChar : Bool) (c : HwTm) : Call → Option HwTm
  | .gettimeofday m => some (gettimeofday c m).1
  | .settimeofday m tp => some (settimeofday signedChar c m tp).1

/-- The value of `micros()` in a call. -/
def Call.micros : Call → UInt32
  | .gettimeofday m => m
  | .settimeofday m _ => m

/-- `hw_tm` after calls of `_gettimeofday`. -/
def counts : HwTm → List UInt32 → HwTm
  | c, [] => c
  | c, m :: ms => counts (gettimeofday c m).1 ms

/-- What calls of `_gettimeofday` return. -/
def readings : HwTm → List UInt32 → List Timeval
  | _, [] => []
  | c, m :: ms => (gettimeofday c m).2 :: readings (gettimeofday c m).1 ms

/-! ### One call -/

/-- An `int` as a `uint64_t`. -/
lemma toNat_toInt64_toUInt64 (x : Int32) : x.toInt64.toUInt64.toNat = (x.toInt % 2 ^ 64).toNat := by
  have h : x.toInt64.toUInt64.toNat = (BitVec.ofInt 64 x.toInt).toNat := rfl
  rw [h, BitVec.toNat_ofInt]
  rfl

section OneCall

variable (c : HwTm) (m : UInt32)

lemma toNat_elapsed : (elapsed c m).toNat =
    if m.toNat < c.micros.toNat then 2 ^ 32 - 1 - c.micros.toNat + m.toNat
    else m.toNat - c.micros.toNat := by
  have hm := m.toNat_lt
  have hc := c.micros.toNat_lt
  rw [elapsed]
  by_cases h : m < c.micros
  · have hlt : m.toNat < c.micros.toNat := UInt32.lt_iff_toNat_lt.mp h
    have hle : c.micros ≤ 0xFFFFFFFF := UInt32.le_iff_toNat_le.mpr (Nat.le_of_lt_succ hc)
    rw [if_pos h, if_pos hlt, UInt32.toNat_add, UInt32.toNat_sub_of_le _ _ hle]
    exact Nat.mod_eq_of_lt (by change 4294967295 - _ + _ < _; omega)
  · have hle : c.micros ≤ m := UInt32.not_lt.mp h
    have hnot : ¬ m.toNat < c.micros.toNat := mt UInt32.lt_iff_toNat_lt.mpr h
    rw [if_neg h, if_neg hnot, UInt32.toNat_sub_of_le _ _ hle]

lemma toNat_us_count : (count c m).us.toNat = (c.us.toNat + (elapsed c m).toNat) % 2 ^ 64 := by
  rw [count, UInt64.toNat_add, UInt32.toNat_toUInt64]

/-- The microseconds of a `timeval`. -/
def Timeval.value (tv : Timeval) : ℤ := tv.tvSec.toInt * 1000000 + tv.tvUsec.toInt

lemma toInt_toInt64_div (x : UInt64) : (x / usecPerSec).toInt64.toInt = x.toNat / 1000000 := by
  have hx := x.toNat_lt
  have hdiv : (x / usecPerSec).toBitVec.toNat = x.toNat / 1000000 := UInt64.toNat_div x usecPerSec
  have hlt : 2 * (x / usecPerSec).toBitVec.toNat < 2 ^ 64 := by omega
  have h : (x / usecPerSec).toInt64.toInt = (x / usecPerSec).toBitVec.toInt := rfl
  rw [h, BitVec.toInt_eq_toNat_of_lt hlt, hdiv]
  rfl

/-- A number that fits an `int32_t` is not changed by the assignment to one. -/
lemma toInt_toInt32_of_lt {x : UInt64} (hx : x.toNat < 2 ^ 31) :
    x.toUInt32.toInt32.toInt = x.toNat := by
  have hlow : x.toUInt32.toBitVec.toNat = x.toNat := by
    have h : x.toUInt32.toBitVec.toNat = x.toNat % 2 ^ 32 := rfl
    omega
  have h : x.toUInt32.toInt32.toInt = x.toUInt32.toBitVec.toInt := rfl
  rw [h, BitVec.toInt_eq_toNat_of_lt (by omega), hlow]

lemma toInt_toInt32_mod (x : UInt64) :
    (x % usecPerSec).toUInt32.toInt32.toInt = x.toNat % 1000000 := by
  have hmod : (x % usecPerSec).toNat = x.toNat % 1000000 := UInt64.toNat_mod x usecPerSec
  rw [toInt_toInt32_of_lt (by omega), hmod]
  rfl

/-- The two fields are the corrected time. -/
lemma value_gettimeofday : (gettimeofday c m).2.value = (corrected (count c m)).toNat := by
  have h : (gettimeofday c m).2.value =
    (corrected (count c m) / usecPerSec).toInt64.toInt * 1000000 +
    (corrected (count c m) % usecPerSec).toUInt32.toInt32.toInt := rfl
  rw [h, toInt_toInt64_div, toInt_toInt32_mod]
  omega

lemma tvUsec_gettimeofday : 0 ≤ (gettimeofday c m).2.tvUsec.toInt ∧
    (gettimeofday c m).2.tvUsec.toInt < 1000000 := by
  have h : (gettimeofday c m).2.tvUsec.toInt =
    (corrected (count c m) % usecPerSec).toUInt32.toInt32.toInt := rfl
  rw [h, toInt_toInt32_mod]
  omega

end OneCall

/-! ### Elapsed time -/

/-- The value of `micros()` at a time. -/
def microsAt (t : ℕ) : UInt32 := UInt32.ofNat t

/-- One time is the next after another: later by less than a period of `micros()`. -/
def Follows (s t : ℕ) : Prop := s < t ∧ t < s + 2 ^ 32

/-- The microseconds that are counted between two calls: where `micros()` begins anew between
them, one is lost. -/
lemma elapsed_add_wraps {c : HwTm} {s t : ℕ} (hc : c.micros = microsAt s) (hst : Follows s t) :
    (elapsed c (microsAt t)).toNat + (t / 2 ^ 32 - s / 2 ^ 32) = t - s := by
  have hs : (microsAt s).toNat = s % 2 ^ 32 := UInt32.toNat_ofNat'
  have ht : (microsAt t).toNat = t % 2 ^ 32 := UInt32.toNat_ofNat'
  obtain ⟨hlt, hnear⟩ := hst
  rw [toNat_elapsed, hc, hs, ht]
  split <;> omega

lemma wraps_le {s t : ℕ} (h : s ≤ t) : t / 2 ^ 32 - s / 2 ^ 32 ≤ t - s := by omega

/-- What a sequence of calls counts, from a call at time `t₀` on. -/
lemma toNat_us_counts {c : HwTm} {t₀ : ℕ} {ts : List ℕ} (hc : c.micros = microsAt t₀)
    (hts : (t₀ :: ts).IsChain Follows) :
    t₀ ≤ ts.getLastD t₀ ∧ (counts c (ts.map microsAt)).us.toNat =
      (c.us.toNat + (ts.getLastD t₀ - t₀ - (ts.getLastD t₀ / 2 ^ 32 - t₀ / 2 ^ 32))) % 2 ^ 64 := by
  induction ts generalizing c t₀ with
  | nil =>
    have hlt := c.us.toNat_lt
    refine ⟨le_rfl, ?_⟩
    simp only [List.map_nil, counts, List.getLastD_nil]
    omega
  | cons t ts ih =>
    obtain ⟨hfollows, hrest⟩ := List.isChain_cons_cons.mp hts
    have hcount := toNat_us_count c (microsAt t)
    have hloss := elapsed_add_wraps hc hfollows
    obtain ⟨hle, ih⟩ := ih (c := count c (microsAt t)) rfl hrest
    have hmono : t₀ / 2 ^ 32 ≤ t / 2 ^ 32 := Nat.div_le_div_right hfollows.1.le
    have hmono' : t / 2 ^ 32 ≤ ts.getLastD t / 2 ^ 32 := Nat.div_le_div_right hle
    have hwraps := wraps_le hle
    have hle₀ := hfollows.1.le
    rw [List.map_cons, counts, List.getLastD_cons]
    refine ⟨hle₀.trans hle, ih.trans ?_⟩
    rw [hcount, Nat.mod_add_mod, Nat.add_assoc]
    congr 2
    omega

/-- **Elapsed time.**  In a sequence of calls of `_gettimeofday` at times that follow one another,
the first at `t₀`, the count advances by the time that has passed if and only if `micros()` does
not begin anew in this time and the count fits 64 bits: every period of `micros()` costs a
microsecond. -/
theorem us_counts_eq_iff (c : HwTm) (t₀ : ℕ) (ts : List ℕ) (hts : (t₀ :: ts).IsChain Follows) :
    (counts c ((t₀ :: ts).map microsAt)).us.toNat =
        (gettimeofday c (microsAt t₀)).1.us.toNat + (ts.getLastD t₀ - t₀) ↔
      ts.getLastD t₀ / 2 ^ 32 = t₀ / 2 ^ 32 ∧
        (gettimeofday c (microsAt t₀)).1.us.toNat + (ts.getLastD t₀ - t₀) < 2 ^ 64 := by
  obtain ⟨hle, hus⟩ := toNat_us_counts (c := (gettimeofday c (microsAt t₀)).1) rfl hts
  have hmono : t₀ / 2 ^ 32 ≤ ts.getLastD t₀ / 2 ^ 32 := Nat.div_le_div_right hle
  have hwraps := wraps_le hle
  rw [List.map_cons, counts, hus]
  generalize (gettimeofday c (microsAt t₀)).1.us.toNat = u
  generalize ts.getLastD t₀ = t at *
  omega

theorem us_counts_eq_within_period :
    (counts HwTm.init ([10, 20, 4294967295].map microsAt)).us.toNat =
      (gettimeofday HwTm.init (microsAt 10)).1.us.toNat + 4294967285 :=
  (us_counts_eq_iff HwTm.init 10 [20, 4294967295] (by simp [Follows])).mpr
    ⟨by decide, by decide⟩

/-- Two calls 16 microseconds apart, between which `micros()` begins anew, count 15. -/
theorem us_counts_across_period :
    (gettimeofday HwTm.init (microsAt 4294967290)).1.us = 4294967290 ∧
      (counts HwTm.init ([4294967290, 4294967306].map microsAt)).us = 4294967290 + 15 := by
  decide +kernel

/-! ### Time between synchronisations -/

/-- The count does not leave its 64 bits. -/
def CountFits (c : HwTm) (call : Call) : Prop :=
  c.us.toNat + (elapsed c call.micros).toNat < 2 ^ 64

/-- The share of the time since the last `settimeofday`; the divisor is `tcv` as a `uint64_t`. -/
def drift (c : HwTm) : ℕ :=
  (c.us.toNat - c.syncUs.toNat) / c.tcv.toInt64.toUInt64.toNat

/-- Nor does the corrected time. -/
def ReadingFits (c : HwTm) (call : Call) : Prop :=
  CountFits c call ∧ (count c call.micros).us.toNat + drift (count c call.micros) < 2 ^ 64

instance (c : HwTm) (call : Call) : Decidable (CountFits c call) :=
  inferInstanceAs (Decidable (_ < _))

instance (c : HwTm) (call : Call) : Decidable (ReadingFits c call) :=
  inferInstanceAs (Decidable (_ ∧ _))

/-- The count has not fallen behind the time that was set. -/
def Synced (c : HwTm) : Prop := c.syncUs ≤ c.us

section Monotone

variable {signedChar : Bool} {c : HwTm} {m : UInt32}

lemma toNat_us_count_of_fits (h : CountFits c (.gettimeofday m)) :
    (count c m).us.toNat = c.us.toNat + (elapsed c m).toNat :=
  (toNat_us_count c m).trans (Nat.mod_eq_of_lt h)

lemma Synced.count (hc : Synced c) (h : CountFits c (.gettimeofday m)) : Synced (count c m) := by
  have hle : c.syncUs.toNat ≤ c.us.toNat := UInt64.le_iff_toNat_le.mp hc
  refine UInt64.le_iff_toNat_le.mpr ?_
  rw [toNat_us_count_of_fits h]
  exact hle.trans (Nat.le_add_right _ _)

/-- Every call keeps the count from falling behind. -/
lemma synced_step {c' : HwTm} {call : Call} (hc : Synced c) (h : CountFits c call)
    (hstep : step signedChar c call = some c') : Synced c' := by
  cases call with
  | gettimeofday m =>
    obtain rfl := Option.some.inj hstep
    exact hc.count h
  | settimeofday m tp =>
    obtain rfl := Option.some.inj hstep
    exact UInt64.le_refl tp.us

/-- Without a `tcv` the divisor is 0, and so is the share. -/
lemma toNat_corrected (hc : Synced c) (hfits : c.us.toNat + drift c < 2 ^ 64) :
    (corrected c).toNat = c.us.toNat + drift c := by
  rw [corrected]
  split
  · rw [UInt64.toNat_add, UInt64.toNat_div, UInt64.toNat_sub_of_le _ _ hc]
    exact Nat.mod_eq_of_lt hfits
  · next htcv =>
    have hzero : c.tcv = 0 := by simpa using htcv
    have hdiv : drift c = 0 := by
      rw [drift, hzero]
      exact Nat.div_zero _
    rw [hdiv, Nat.add_zero]

lemma drift_le_drift_count (h : CountFits c (.gettimeofday m)) : drift c ≤ drift (count c m) := by
  have hus := toNat_us_count_of_fits h
  have htcv : (count c m).tcv = c.tcv := rfl
  have hsync : (count c m).syncUs = c.syncUs := rfl
  rw [drift, drift, htcv, hsync]
  exact Nat.div_le_div_right (by omega)

lemma value_gettimeofday_of_fits (hc : Synced c) (h : ReadingFits c (.gettimeofday m)) :
    (gettimeofday c m).2.value = ((count c m).us.toNat + drift (count c m) : ℕ) := by
  rw [value_gettimeofday, toNat_corrected (hc.count h.1) h.2]

/-- No reading is earlier than the time corrected before. -/
lemma le_readings {ms : List UInt32} (hc : Synced c)
    (hms : Admits (step signedChar) ReadingFits c (ms.map .gettimeofday)) :
    ∀ tv ∈ readings c ms, ((c.us.toNat + drift c : ℕ) : ℤ) ≤ tv.value := by
  induction ms generalizing c with
  | nil =>
    intro tv htv
    exact absurd htv List.not_mem_nil
  | cons m ms ih =>
    obtain ⟨hfits, hrest⟩ := hms
    have hus := toNat_us_count_of_fits hfits.1
    have hdrift := drift_le_drift_count hfits.1
    intro tv htv
    rcases List.mem_cons.mp htv with rfl | htv
    · rw [value_gettimeofday_of_fits hc hfits]
      omega
    · have h := ih (hc.count hfits.1) (hrest _ rfl) tv htv
      have hcount : (gettimeofday c m).1 = count c m := rfl
      omega

lemma pairwise_readings {ms : List UInt32} (hc : Synced c)
    (hms : Admits (step signedChar) ReadingFits c (ms.map .gettimeofday)) :
    (readings c ms).Pairwise fun tv tv' => tv.value ≤ tv'.value := by
  induction ms generalizing c with
  | nil => exact List.Pairwise.nil
  | cons m ms ih =>
    obtain ⟨hfits, hrest⟩ := hms
    refine List.Pairwise.cons (fun tv htv => ?_) (ih (hc.count hfits.1) (hrest _ rfl))
    rw [value_gettimeofday_of_fits hc hfits]
    exact le_readings (hc.count hfits.1) (hrest _ rfl) tv htv

lemma tvUsec_readings {c : HwTm} {ms : List UInt32} :
    ∀ tv ∈ readings c ms, 0 ≤ tv.tvUsec.toInt ∧ tv.tvUsec.toInt < 1000000 := by
  induction ms generalizing c with
  | nil =>
    intro tv htv
    exact absurd htv List.not_mem_nil
  | cons m ms ih =>
    intro tv htv
    rcases List.mem_cons.mp htv with rfl | htv
    · exact tvUsec_gettimeofday c m
    · exact ih tv htv

lemma synced_counts {ms : List UInt32} (hc : Synced c)
    (hms : Admits (step signedChar) ReadingFits c (ms.map .gettimeofday)) (k : ℕ) :
    Synced (counts c (ms.take k)) := by
  induction ms generalizing c k with
  | nil =>
    rw [List.take_nil]
    exact hc
  | cons m ms ih =>
    cases k with
    | zero => exact hc
    | succ k => exact ih (hc.count hms.1.1) (hms.2 _ rfl) k

end Monotone

/-- **Time does not go back between synchronisations.**  After any calls of `settimeofday` and
`_gettimeofday`, further calls of `_gettimeofday` return times that never decrease, their
microseconds are below a million, and the count never falls behind the time that was set,
whatever the sign of `tcv`, as long as the 64-bit counters do not overflow. -/
theorem gettimeofday_monotone (signedChar : Bool) (calls : List Call) (ms : List UInt32) (c : HwTm)
    (hrun : exec (step signedChar) HwTm.init calls = some c)
    (hcalls : Admits (step signedChar) CountFits HwTm.init calls)
    (hms : Admits (step signedChar) ReadingFits c (ms.map .gettimeofday)) :
    (readings c ms).Pairwise (fun tv tv' => tv.value ≤ tv'.value) ∧
      (∀ tv ∈ readings c ms, 0 ≤ tv.tvUsec.toInt ∧ tv.tvUsec.toInt < 1000000) ∧
      ∀ k, (counts c (ms.take k)).syncUs ≤ (counts c (ms.take k)).us := by
  have hinit : Synced HwTm.init := UInt64.le_refl 0
  have hc : Synced c := exec_inv_of_admits (fun s e s' => synced_step) hinit hcalls hrun
  exact ⟨pairwise_readings hc hms, tvUsec_readings, synced_counts hc hms⟩

/-- Two synchronisations, of which the second finds the clock 500 microseconds ahead, and two
readings; `char` is signed. -/
theorem gettimeofday_monotone_negative :
    exec (step true) HwTm.init
        [.settimeofday 0 ⟨1, 0⟩, .settimeofday 10000500 ⟨11, 0⟩] =
        some ⟨10000500, 11000000, 11000000, -20000⟩ ∧
      (readings ⟨10000500, 11000000, 11000000, -20000⟩ [10000600, 20000]).Pairwise
        fun tv tv' => tv.value ≤ tv'.value := by
  have hrun : exec (step true) HwTm.init
      [.settimeofday 0 ⟨1, 0⟩, .settimeofday 10000500 ⟨11, 0⟩] =
      some ⟨10000500, 11000000, 11000000, -20000⟩ := by decide +kernel
  exact ⟨hrun, (gettimeofday_monotone true _ [10000600, 20000] _ hrun (by decide +kernel)
    (by decide +kernel)).1⟩

end Teensy41Ethernet.Sntp
