import Mathlib.Tactic
import Mathlib.Data.Int.ModEq

/-!
# Positions in a ring of cells

A ring of `n` cells is used by two parties that go round it in step with counters: the
cell of the `k`-th use is `k % n`.  `Window n a b` is the set of cells of the uses
`a, …, b - 1`; as long as there are at most `n` of them, the cells are distinct, and the
window grows and shrinks by single cells at its two ends.  `offset n p i` is the number of
steps forward from cell `p` to cell `i`.
-/

namespace Teensy41Ethernet.Lib

variable {n a b i p : ℕ}

/-- The step that goes back to the first cell at the end of the ring. -/
lemma wrap_eq_mod (hi : i < n) : (if i + 1 = n then 0 else i + 1) = (i + 1) % n := by
  split
  · rename_i h
    rw [h, Nat.mod_self]
  · exact (Nat.mod_eq_of_lt (by omega)).symm

lemma mod_succ_eq (k : ℕ) : (k % n + 1) % n = (k + 1) % n := Nat.mod_add_mod k n 1

/-! ### Windows -/

/-- The cells of the uses `a, …, b - 1` of a ring of `n` cells. -/
def Window (n a b i : ℕ) : Prop := ∃ k, a ≤ k ∧ k < b ∧ k % n = i

lemma not_window_self : ¬ Window n a a i := by
  rintro ⟨k, h₁, h₂, -⟩
  omega

/-- Two uses less than one round apart that have the same cell are the same use. -/
lemma eq_of_mod_eq {k l : ℕ} (hk : a ≤ k) (hkb : k < a + n) (hl : a ≤ l) (hlb : l < a + n)
    (h : k % n = l % n) : k = l := by
  rcases le_total k l with hkl | hkl
  · have hd := (Nat.modEq_iff_dvd' hkl).mp h
    by_contra hne
    have := Nat.le_of_dvd (by omega) hd
    omega
  · have hd := (Nat.modEq_iff_dvd' hkl).mp h.symm
    by_contra hne
    have := Nat.le_of_dvd (by omega) hd
    omega

/-- The window grows at its front end by the cell of the next use. -/
lemma window_succ (hab : a ≤ b) : Window n a (b + 1) i ↔ Window n a b i ∨ i = b % n := by
  constructor
  · rintro ⟨k, h₁, h₂, rfl⟩
    by_cases hk : k = b
    · exact Or.inr (by rw [hk])
    · exact Or.inl ⟨k, h₁, by omega, rfl⟩
  · rintro (⟨k, h₁, h₂, h₃⟩ | rfl)
    · exact ⟨k, h₁, by omega, h₃⟩
    · exact ⟨b, hab, by omega, rfl⟩

/-- The window shrinks at its rear end by the cell of its oldest use. -/
lemma window_drop (hab : a < b) (hb : b ≤ a + n) :
    Window n (a + 1) b i ↔ Window n a b i ∧ i ≠ a % n := by
  constructor
  · rintro ⟨k, h₁, h₂, rfl⟩
    refine ⟨⟨k, by omega, h₂, rfl⟩, fun h => ?_⟩
    have := eq_of_mod_eq (a := a) (by omega) (by omega) le_rfl (by omega) h
    omega
  · rintro ⟨⟨k, h₁, h₂, rfl⟩, hne⟩
    have : k ≠ a := fun h => hne (by rw [h])
    exact ⟨k, by omega, h₂, rfl⟩

lemma window_first (hab : a < b) : Window n a b (a % n) := ⟨a, le_rfl, hab, rfl⟩

/-- The cell of the next use is free exactly when the window is not the whole ring. -/
lemma window_next_iff (hn : 0 < n) (hab : a ≤ b) (hb : b ≤ a + n) :
    Window n a b (b % n) ↔ b = a + n := by
  constructor
  · rintro ⟨k, h₁, h₂, h₃⟩
    by_contra hne
    have := eq_of_mod_eq (a := a) h₁ (by omega) hab (by omega) h₃
    omega
  · rintro rfl
    exact ⟨a, le_rfl, by omega, by rw [Nat.add_mod_right]⟩

/-! ### Offsets -/

/-- The number of steps forward from cell `p` to cell `i`. -/
def offset (n p i : ℕ) : ℕ := (i + n - p) % n

lemma offset_lt (hn : 0 < n) : offset n p i < n := Nat.mod_lt _ hn

lemma offset_self : offset n p p = 0 := by
  rw [offset, Nat.add_sub_cancel_left, Nat.mod_self]

lemma add_offset (hp : p < n) (hi : i < n) : (p + offset n p i) % n = i := by
  rw [offset, Nat.add_mod_mod, show p + (i + n - p) = i + n by omega, Nat.add_mod_right,
    Nat.mod_eq_of_lt hi]

/-- The cell `k` steps after `p` has offset `k`. -/
lemma offset_add {k : ℕ} (hp : p < n) (hk : k < n) : offset n p ((p + k) % n) = k := by
  have hn : 0 < n := by omega
  have hmod := add_offset hp (Nat.mod_lt (p + k) hn)
  have hlt := offset_lt (p := p) (i := (p + k) % n) hn
  exact eq_of_mod_eq (a := 0) (Nat.zero_le _) (by omega) (Nat.zero_le _) (by omega)
    (Nat.ModEq.add_left_cancel' p hmod)

/-- The next cell is one step further, unless it is where the steps began. -/
lemma offset_succ (hp : p < n) (hi : i < n) (h : (i + 1) % n ≠ p) :
    offset n p ((i + 1) % n) = offset n p i + 1 := by
  have hlt := offset_lt (p := p) (i := i) (by omega : 0 < n)
  have hcell : (p + (offset n p i + 1)) % n = (i + 1) % n := by
    rw [← add_assoc, ← mod_succ_eq, add_offset hp hi]
  have hne : offset n p i + 1 ≠ n := by
    intro hfull
    rw [hfull, Nat.add_mod_right, Nat.mod_eq_of_lt hp] at hcell
    exact h hcell.symm
  rw [← hcell, offset_add hp (by omega)]

/-- The last cell of a round that began at `p` has the largest offset. -/
lemma offset_last (hp : p < n) (hi : i < n) (h : (i + 1) % n = p) : offset n p i + 1 = n := by
  have hlt := offset_lt (p := p) (i := i) (by omega : 0 < n)
  by_contra hne
  have hcell : (p + (offset n p i + 1)) % n = (i + 1) % n := by
    rw [← add_assoc, ← mod_succ_eq, add_offset hp hi]
  have hoff := offset_add hp (k := offset n p i + 1) (by omega)
  rw [hcell, h, offset_self] at hoff
  omega

/-- Cells with the same offset are the same. -/
lemma offset_inj {j : ℕ} (hp : p < n) (hi : i < n) (hj : j < n)
    (h : offset n p i = offset n p j) : i = j := by
  rw [← add_offset hp hi, h, add_offset hp hj]

end Teensy41Ethernet.Lib
