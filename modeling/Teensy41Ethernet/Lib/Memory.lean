import Mathlib.Logic.Function.Basic
import Mathlib.Tactic.Common
import Mathlib.Data.Int.ModEq

/-!
# Cell memories and circular buffers

A memory is a function from addresses to cells.  `store` and `load` are the two halves of a
block copy.  A circular buffer of `n` cells is a memory that is read and written at
addresses modulo `n`: `ring` is the content of `k` cells from a position on and `ringStore`
writes cells from a position on.  Each is defined by recursion on the block, so that a copy
that is cut in two at the end of the buffer is related to the circular operation by one
append lemma and one wrap lemma.
-/

namespace Teensy41Ethernet.Lib

variable {α : Type*}

/-! ### Linear blocks -/

/-- Write the block `xs` at address `a`. -/
def store (mem : ℕ → α) : ℕ → List α → ℕ → α
  | _, [] => mem
  | a, x :: xs => store (Function.update mem a x) (a + 1) xs

/-- The `k` cells from address `a` on. -/
def load (mem : ℕ → α) : ℕ → ℕ → List α
  | _, 0 => []
  | a, k + 1 => mem a :: load mem (a + 1) k

@[simp] lemma length_load (mem : ℕ → α) (a k : ℕ) : (load mem a k).length = k := by
  induction k generalizing a with
  | zero => rfl
  | succ k ih => simp [load, ih]

/-- A block write leaves every address outside the block as it was. -/
lemma store_of_notMem (mem : ℕ → α) {a b : ℕ} {xs : List α}
    (h : b < a ∨ a + xs.length ≤ b) : store mem a xs b = mem b := by
  induction xs generalizing mem a with
  | nil => rfl
  | cons x xs ih =>
    rw [List.length_cons] at h
    have hb : b ≠ a := by omega
    rw [store, ih _ (by omega), Function.update_of_ne hb]

/-- A cell inside a block write holds the written value. -/
lemma store_getElem (mem : ℕ → α) (a : ℕ) (xs : List α) {i : ℕ} (hi : i < xs.length) :
    store mem a xs (a + i) = xs[i] := by
  induction xs generalizing mem a i with
  | nil => exact absurd hi (by simp)
  | cons x xs ih =>
    cases i with
    | zero =>
      rw [store, store_of_notMem _ (Or.inl (by omega))]
      exact Function.update_self a x mem
    | succ i =>
      have hi' : i < xs.length := by simpa using hi
      rw [store, show a + (i + 1) = a + 1 + i by omega, ih _ _ hi']
      rfl

/-- Two blocks are equal if they agree cell by cell. -/
lemma load_eq_load {mem mem' : ℕ → α} {a b k : ℕ} (h : ∀ i < k, mem (a + i) = mem' (b + i)) :
    load mem a k = load mem' b k := by
  induction k generalizing a b with
  | zero => rfl
  | succ k ih =>
    rw [load, load, show mem a = mem' b from h 0 (Nat.succ_pos k)]
    congr 1
    refine ih fun i hi => ?_
    rw [show a + 1 + i = a + (i + 1) by omega, show b + 1 + i = b + (i + 1) by omega]
    exact h (i + 1) (by omega)

lemma load_congr {mem mem' : ℕ → α} {a k : ℕ}
    (h : ∀ b, a ≤ b → b < a + k → mem b = mem' b) : load mem a k = load mem' a k :=
  load_eq_load fun i hi => h (a + i) (by omega) (by omega)

/-- A cell of a copied block holds the cell that was copied. -/
lemma store_load_of_mem (mem mem' : ℕ → α) {a b c k : ℕ} (h : a ≤ c) (h' : c < a + k) :
    store mem a (load mem' b k) c = mem' (b + (c - a)) := by
  induction k generalizing mem a b with
  | zero => exact absurd h' (by omega)
  | succ k ih =>
    rw [load, store]
    by_cases hc : c = a
    · subst hc
      rw [store_of_notMem _ (Or.inl (by omega)), Function.update_self, Nat.sub_self, add_zero]
    · rw [ih (Function.update mem a (mem' b)) (by omega) (by omega)]
      congr 1
      omega

/-- Reading a block back gives what was written. -/
lemma load_store (mem : ℕ → α) (a : ℕ) (xs : List α) :
    load (store mem a xs) a xs.length = xs := by
  induction xs generalizing mem a with
  | nil => rfl
  | cons x xs ih =>
    rw [List.length_cons, load, store, ih, store_of_notMem _ (Or.inl (by omega)),
      Function.update_self]

/-- A read that does not meet a block write is not affected by it. -/
lemma load_store_of_disjoint (mem : ℕ → α) {a b k : ℕ} {xs : List α}
    (h : b + k ≤ a ∨ a + xs.length ≤ b) : load (store mem a xs) b k = load mem b k := by
  refine load_congr fun c hc hc' => store_of_notMem mem ?_
  omega

/-- A block in two parts. -/
lemma load_add (mem : ℕ → α) (a k l : ℕ) :
    load mem a (k + l) = load mem a k ++ load mem (a + k) l := by
  induction k generalizing a with
  | zero => rw [Nat.zero_add, load, List.nil_append, Nat.add_zero]
  | succ k ih =>
    rw [Nat.succ_add, load, load, ih, List.cons_append, Nat.add_right_comm]
    rfl

/-- A block whose end was written. -/
lemma load_store_end (mem : ℕ → α) (a k : ℕ) (xs : List α) :
    load (store mem (a + k) xs) a (k + xs.length) = load mem a k ++ xs := by
  rw [load_add, load_store_of_disjoint mem (Or.inl le_rfl), load_store]

/-- Two of the blocks of `m` cells that a memory is cut into are disjoint. -/
lemma block_disjoint (m : ℕ) {i j : ℕ} (hij : i ≠ j) : i * m + m ≤ j * m ∨ j * m + m ≤ i * m := by
  rcases Nat.lt_or_gt_of_ne hij with h | h
  · exact Or.inl (by simpa [Nat.succ_mul] using Nat.mul_le_mul_right m (Nat.succ_le_of_lt h))
  · exact Or.inr (by simpa [Nat.succ_mul] using Nat.mul_le_mul_right m (Nat.succ_le_of_lt h))

/-- A longer read begins with a shorter one. -/
lemma load_prefix (mem : ℕ → α) (a : ℕ) {k l : ℕ} (h : k ≤ l) : load mem a k <+: load mem a l := by
  induction k generalizing a l with
  | zero => exact List.nil_prefix
  | succ k ih =>
    obtain ⟨l, rfl⟩ := Nat.exists_eq_succ_of_ne_zero (by omega : l ≠ 0)
    exact List.cons_prefix_cons.mpr ⟨rfl, ih (a + 1) (by omega)⟩

/-- A part of a read is a read. -/
lemma take_drop_load (mem : ℕ → α) {a i k n : ℕ} (h : i + k ≤ n) :
    ((load mem a n).drop i).take k = load mem (a + i) k := by
  induction i generalizing a n with
  | zero =>
    obtain ⟨r, hr⟩ := load_prefix mem a (Nat.zero_add k ▸ h)
    rw [List.drop_zero, ← hr, Nat.add_zero]
    exact List.take_left' (length_load mem a k)
  | succ i ih =>
    obtain ⟨n, rfl⟩ := Nat.exists_eq_succ_of_ne_zero (by omega : n ≠ 0)
    rw [load, List.drop_succ_cons, ih (by omega), show a + 1 + i = a + (i + 1) by omega]

/-- A part of a list that the memory begins with. -/
lemma take_drop_of_load {mem : ℕ → α} {l : List α} (hl : load mem 0 l.length = l) {i k : ℕ}
    (h : i + k ≤ l.length) : (l.drop i).take k = load mem i k := by
  have hpart := take_drop_load mem (a := 0) h
  rwa [hl, Nat.zero_add] at hpart

/-! ### Circular blocks -/

/-- The `k` cells of a circular buffer of `n` cells from position `p` on. -/
def ring (mem : ℕ → α) (n : ℕ) : ℕ → ℕ → List α
  | _, 0 => []
  | p, k + 1 => mem (p % n) :: ring mem n (p + 1) k

/-- Write the block `xs` into a circular buffer of `n` cells from position `p` on. -/
def ringStore (mem : ℕ → α) (n : ℕ) : ℕ → List α → ℕ → α
  | _, [] => mem
  | p, x :: xs => ringStore (Function.update mem (p % n) x) n (p + 1) xs

@[simp] lemma ring_zero (mem : ℕ → α) (n p : ℕ) : ring mem n p 0 = [] := rfl

@[simp] lemma ringStore_nil (mem : ℕ → α) (n p : ℕ) : ringStore mem n p [] = mem := rfl

@[simp] lemma length_ring (mem : ℕ → α) (n p k : ℕ) : (ring mem n p k).length = k := by
  induction k generalizing p with
  | zero => rfl
  | succ k ih => simp [ring, ih]

lemma ring_add (mem : ℕ → α) (n p k l : ℕ) :
    ring mem n p (k + l) = ring mem n p k ++ ring mem n (p + k) l := by
  induction k generalizing p with
  | zero => simp
  | succ k ih =>
    rw [show k + 1 + l = (k + l) + 1 by omega, ring, ring, ih, List.cons_append]
    congr 3
    omega

/-- Only the position modulo the size of the buffer matters. -/
lemma ring_mod (mem : ℕ → α) {n p q : ℕ} (k : ℕ) (h : p % n = q % n) :
    ring mem n p k = ring mem n q k := by
  induction k generalizing p q with
  | zero => rfl
  | succ k ih =>
    rw [ring, ring, h]
    congr 1
    exact ih (Nat.ModEq.add_right 1 h)

/-- A block that does not cross the end of the buffer is a linear block. -/
lemma ring_eq_load (mem : ℕ → α) {n p k : ℕ} (h : p + k ≤ n) :
    ring mem n p k = load mem p k := by
  induction k generalizing p with
  | zero => rfl
  | succ k ih => rw [ring, load, Nat.mod_eq_of_lt (by omega), ih (by omega)]

lemma ringStore_append (mem : ℕ → α) (n p : ℕ) (xs ys : List α) :
    ringStore mem n p (xs ++ ys) = ringStore (ringStore mem n p xs) n (p + xs.length) ys := by
  induction xs generalizing mem p with
  | nil => rfl
  | cons x xs ih =>
    rw [List.cons_append, ringStore, ih, ringStore, List.length_cons]
    congr 1
    omega

lemma ringStore_mod (mem : ℕ → α) {n p q : ℕ} (xs : List α) (h : p % n = q % n) :
    ringStore mem n p xs = ringStore mem n q xs := by
  induction xs generalizing mem p q with
  | nil => rfl
  | cons x xs ih =>
    rw [ringStore, ringStore, h]
    exact ih _ (Nat.ModEq.add_right 1 h)

lemma ringStore_eq_store (mem : ℕ → α) {n p : ℕ} {xs : List α} (h : p + xs.length ≤ n) :
    ringStore mem n p xs = store mem p xs := by
  induction xs generalizing mem p with
  | nil => rfl
  | cons x xs ih =>
    rw [List.length_cons] at h
    rw [ringStore, store, Nat.mod_eq_of_lt (by omega), ih _ (by omega)]

/-- Two offsets below the size of the buffer are different cells. -/
lemma add_mod_ne {n p i j : ℕ} (hij : i < j) (hj : j < n) : (p + i) % n ≠ (p + j) % n := by
  intro h
  have hd : n ∣ (p + j) - (p + i) := (Nat.modEq_iff_dvd' (by omega)).mp h
  have := Nat.le_of_dvd (by omega) hd
  omega

/-- Writing one cell outside the block that is read does not affect the block. -/
lemma ring_update_of_notMem (mem : ℕ → α) {n p k a : ℕ} {x : α}
    (h : ∀ i < k, (p + i) % n ≠ a) : ring (Function.update mem a x) n p k = ring mem n p k := by
  induction k generalizing p with
  | zero => rfl
  | succ k ih =>
    have h0 : p % n ≠ a := by simpa using h 0 (by omega)
    rw [ring, ring, Function.update_of_ne h0]
    congr 1
    refine ih fun i hi => ?_
    rw [show p + 1 + i = p + (i + 1) by omega]
    exact h (i + 1) (by omega)

/-- **Writing behind the content of a circular buffer appends to it**, as long as the buffer
has room for the whole block. -/
lemma ring_ringStore (mem : ℕ → α) {n p k : ℕ} (xs : List α) (h : k + xs.length ≤ n) :
    ring (ringStore mem n (p + k) xs) n p (k + xs.length) = ring mem n p k ++ xs := by
  induction xs generalizing mem k with
  | nil => simp
  | cons x xs ih =>
    rw [List.length_cons] at h
    have hone : ring (Function.update mem ((p + k) % n) x) n p (k + 1)
        = ring mem n p k ++ [x] := by
      rw [ring_add, ring_update_of_notMem _ fun i hi => add_mod_ne hi (by omega)]
      simp [ring]
    rw [ringStore, List.length_cons, show k + (xs.length + 1) = k + 1 + xs.length by omega,
      show p + k + 1 = p + (k + 1) by omega, ih _ (by omega), hone]
    simp

/-! ### Records in place -/

/-- Change the cell at address `i` by `f`. -/
def modifyAt (mem : ℕ → α) (i : ℕ) (f : α → α) : ℕ → α := Function.update mem i (f (mem i))

@[simp] lemma modifyAt_self (mem : ℕ → α) (i : ℕ) (f : α → α) : modifyAt mem i f i = f (mem i) :=
  Function.update_self i _ mem

@[simp] lemma modifyAt_of_ne (mem : ℕ → α) {i j : ℕ} (f : α → α) (h : j ≠ i) :
    modifyAt mem i f j = mem j :=
  Function.update_of_ne h _ mem

/-- A part of the record that `f` keeps is kept in every cell. -/
lemma apply_modifyAt {β : Type*} (π : α → β) (mem : ℕ → α) {i j : ℕ} {f : α → α}
    (h : π (f (mem i)) = π (mem i)) : π (modifyAt mem i f j) = π (mem j) := by
  by_cases hj : j = i
  · rw [hj, modifyAt_self, h]
  · rw [modifyAt_of_ne mem f hj]

end Teensy41Ethernet.Lib
