import Teensy41Ethernet.Ftpd.Sfifo

/-!
# The sizing loop of `sfifo_init`

`sfifo_init` doubles the size, from 1 on, until it is larger than the size asked for.  Its check
lets every `int` through.  For a size from `2 ^ 30` on the doubling leaves the positive `int`s:
`2 ^ 30` shifted is negative, the next shift gives 0, and 0 stays 0, so that the loop never ends.
-/

namespace Teensy41Ethernet.Ftpd

open Lib

/-! ### Rounds of the loop -/

/-- `f->size <<= 1` on a 32-bit `int`. -/
def shiftSize (cur : ℤ) : ℤ := (BitVec.ofInt 32 cur <<< 1).toInt

/-- The values of `f->size` that the loop shifts, in as many rounds as there is fuel. -/
def sfifoShifted : ℕ → ℤ → ℤ → List ℤ
  | 0, _, _ => []
  | fuel + 1, cur, size =>
      if cur ≤ size then cur :: sfifoShifted fuel (shiftSize cur) size else []

/-- `sfifo_init` finds a size for the FIFO: no shift overflows, and whatever `malloc` returns, the
loop ends with the least power of two that is greater than the size asked for, so that the FIFO
has room for as many bytes. -/
structure Sizes (size : ℤ) : Prop where
  fits : ∀ fuel, ∀ cur ∈ sfifoShifted fuel 1 size, 0 ≤ cur ∧ cur * 2 ≤ sfifoMaxBufferSize
  least : ∀ malloc, ∃ rc f k, sfifoInit size malloc = some (rc, f) ∧ f.size = 2 ^ k ∧
    size < 2 ^ k ∧ (∀ j : ℕ, size < 2 ^ j → (2 : ℤ) ^ k ≤ 2 ^ j) ∧ size ≤ sfifoSpace f

section Small

variable {size : ℤ}

/-- Below `2 ^ 30` the values that are shifted are powers of two below `2 ^ 30`. -/
lemma sfifoShifted_small (hsize : size < 2 ^ 30) (fuel j : ℕ) :
    ∀ cur ∈ sfifoShifted fuel (2 ^ j) size, ∃ i < 30, cur = 2 ^ i := by
  induction fuel generalizing j with
  | zero =>
    intro cur hcur
    exact absurd hcur List.not_mem_nil
  | succ fuel ih =>
    intro cur hcur
    rw [sfifoShifted] at hcur
    split at hcur
    · next hle =>
      have hj30 : j < 30 := by
        by_contra hge
        have hpow : (2 : ℤ) ^ 30 ≤ 2 ^ j := pow_le_pow_right₀ (by norm_num) (by omega)
        omega
      rcases List.mem_cons.mp hcur with rfl | hcur
      · exact ⟨j, hj30, rfl⟩
      · rw [shiftSize, shl_two_pow j hj30] at hcur
        exact ih (j + 1) cur hcur
    · exact absurd hcur List.not_mem_nil

lemma sizes_of_lt (hsize : size < 2 ^ 30) : Sizes size := by
  constructor
  · intro fuel cur hcur
    obtain ⟨i, hi, rfl⟩ := sfifoShifted_small hsize fuel 0 cur (by simpa using hcur)
    have hpow : (2 : ℤ) ^ i ≤ 2 ^ 29 := pow_le_pow_right₀ (by norm_num) (by omega)
    exact ⟨by positivity, by rw [sfifoMaxBufferSize]; omega⟩
  · intro malloc
    obtain ⟨rc, k, hinit, hk, hlt, hmin⟩ := sfifoInit_eq hsize malloc
    have hspace : sfifoSpace ⟨malloc, 2 ^ k, 0, 0⟩ = 2 ^ k - 1 := by
      rw [sfifoSpace, sfifoUsed, land32_mask _ hk]
      simp
    exact ⟨rc, _, k, hinit, rfl, hlt, fun j hj => pow_le_pow_right₀ (by norm_num) (hmin j hj),
      by omega⟩

end Small

section Large

variable {size : ℤ}

/-- The values that `f->size` can have in the loop when the size is large: all of them keep it
running. -/
def Doubled (cur : ℤ) : Prop := (∃ j ≤ 30, cur = 2 ^ j) ∨ cur = -2 ^ 31 ∨ cur = 0

lemma Doubled.le {cur : ℤ} (h : Doubled cur) (hsize : 2 ^ 30 ≤ size) : cur ≤ size := by
  rcases h with ⟨j, hj, rfl⟩ | rfl | rfl
  · have hpow : (2 : ℤ) ^ j ≤ 2 ^ 30 := pow_le_pow_right₀ (by norm_num) hj
    omega
  · omega
  · omega

lemma Doubled.shiftSize {cur : ℤ} (h : Doubled cur) : Doubled (shiftSize cur) := by
  rcases h with ⟨j, hj, rfl⟩ | rfl | rfl
  · rcases Nat.lt_or_eq_of_le hj with hlt | rfl
    · exact Or.inl ⟨j + 1, by omega, shl_two_pow j hlt⟩
    · exact Or.inr (Or.inl (by decide))
  · exact Or.inr (Or.inr (by decide))
  · exact Or.inr (Or.inr (by decide))

/-- From `2 ^ 30` on the loop never ends. -/
lemma sfifoSizeLoop_large (hsize : 2 ^ 30 ≤ size) (fuel : ℕ) {cur : ℤ} (h : Doubled cur) :
    sfifoSizeLoop fuel cur size = none := by
  induction fuel generalizing cur with
  | zero => rfl
  | succ fuel ih =>
    rw [sfifoSizeLoop, if_pos (h.le hsize)]
    exact ih h.shiftSize

/-- `2 ^ 30` is shifted after 30 rounds. -/
lemma mem_sfifoShifted_large (hsize : 2 ^ 30 ≤ size) (n j : ℕ) (hj : j + n = 30) :
    (2 : ℤ) ^ 30 ∈ sfifoShifted (n + 1) (2 ^ j) size := by
  have hle : (2 : ℤ) ^ j ≤ size := Doubled.le (Or.inl ⟨j, by omega, rfl⟩) hsize
  induction n generalizing j with
  | zero =>
    obtain rfl : j = 30 := by omega
    rw [sfifoShifted, if_pos hle]
    exact List.mem_cons_self
  | succ n ih =>
    have hnext : (2 : ℤ) ^ (j + 1) ≤ size := Doubled.le (Or.inl ⟨j + 1, by omega, rfl⟩) hsize
    rw [sfifoShifted, if_pos hle, shiftSize, shl_two_pow j (by omega)]
    exact List.mem_cons_of_mem _ (ih (j + 1) (by omega) hnext)

end Large

/-- **The size of a FIFO.**  For every size that the check of `sfifo_init` admits, negative ones
too, the sizing loop ends without overflow and with the least power of two that is greater than
the size, if and only if the size is below `2 ^ 30`; from there on it never ends. -/
theorem sfifoInit_sizes_iff (size : ℤ) (hsize : size ≤ sfifoMaxBufferSize) :
    (Sizes size ↔ size < 2 ^ 30) ∧
      (2 ^ 30 ≤ size → ∀ malloc, (∀ fuel, sfifoSizeLoop fuel 1 size = none) ∧
        sfifoInit size malloc = none) := by
  refine ⟨⟨fun h => ?_, sizes_of_lt⟩, fun hlarge malloc => ?_⟩
  · by_contra hlarge
    have hmem := mem_sfifoShifted_large (not_lt.mp hlarge) 30 0 (by omega)
    rw [pow_zero] at hmem
    have hfits := (h.fits 31 _ hmem).2
    rw [sfifoMaxBufferSize] at hfits
    omega
  · have hloop := fun fuel => sfifoSizeLoop_large hlarge fuel (Or.inl ⟨0, by omega, rfl⟩)
    refine ⟨hloop, ?_⟩
    rw [sfifoInit, if_neg (not_lt.mpr hsize), ← pow_zero (2 : ℤ), hloop 33, Option.map_none]

/-- The largest size that works, and the smallest that does not. -/
theorem sfifoInit_sizes_boundary :
    Sizes (2 ^ 30 - 1) ∧ sfifoInit (2 ^ 30) none = none :=
  ⟨(sfifoInit_sizes_iff (2 ^ 30 - 1) (by decide)).1.mpr (by decide),
    ((sfifoInit_sizes_iff (2 ^ 30) (by decide)).2 (by decide) none).2⟩

/-- A FIFO of `2 ^ 30` bytes passes the check of `sfifo_init`; the last doubling of its size
overflows, and the loop runs for ever. -/
theorem sfifoInit_overflows :
    (2 : ℤ) ^ 30 ≤ sfifoMaxBufferSize ∧ ¬ Sizes (2 ^ 30) ∧ shiftSize (2 ^ 30) = -2 ^ 31 ∧
      ∀ fuel, sfifoSizeLoop fuel 1 (2 ^ 30) = none := by
  refine ⟨by decide, fun h => ?_, by decide, fun fuel => ?_⟩
  · have hfits := (h.fits 31 (2 ^ 30) (by decide +kernel)).2
    exact absurd hfits (by decide)
  · exact sfifoSizeLoop_large le_rfl fuel (Or.inl ⟨0, by omega, rfl⟩)

end Teensy41Ethernet.Ftpd
