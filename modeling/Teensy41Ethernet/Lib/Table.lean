import Mathlib.Order.Basic
import Mathlib.Tactic.Common

/-!
# Tables of numbered objects

Objects that are allocated and freed live in a table: an object has a number, which is never
used again, and a number without an object belongs to one that was freed or not allocated yet.
Pointers between objects are numbers.  This file has the two facts that a program with
pointers must keep: numbers from the next one on are unused, and every pointer of a live
object points to a live one; for each of them, and for a property of all live objects, there is
a lemma for every change of a table.
-/

namespace Teensy41Ethernet.Lib

variable {σ τ : Type*}

/-! ### Unused numbers -/

/-- The numbers from `n` on belong to no object. -/
def FreshFrom (n : ℕ) (table : ℕ → Option τ) : Prop := ∀ i, n ≤ i → table i = none

section Fresh

variable {n i : ℕ} {table : ℕ → Option τ}

lemma FreshFrom.lt (h : FreshFrom n table) (hi : table i ≠ none) : i < n := by
  by_contra hn
  exact hi (h i (Nat.not_lt.mp hn))

lemma FreshFrom.put (h : FreshFrom n table) (hi : table i ≠ none) (x : τ) :
    FreshFrom n (Function.update table i (some x)) := by
  intro j hj
  have hne : j ≠ i := by
    rintro rfl
    exact hi (h j hj)
  rw [Function.update_of_ne hne, h j hj]

lemma FreshFrom.drop (h : FreshFrom n table) (i : ℕ) :
    FreshFrom n (Function.update table i none) := by
  intro j hj
  by_cases hne : j = i
  · rw [hne, Function.update_self]
  · rw [Function.update_of_ne hne, h j hj]

lemma FreshFrom.alloc (h : FreshFrom n table) (x : τ) :
    FreshFrom (n + 1) (Function.update table n (some x)) := by
  intro j hj
  rw [Function.update_of_ne (by omega), h j (by omega)]

end Fresh

/-! ### A property of all objects -/

/-- Every object of the table has the property. -/
def AllLive (P : τ → Prop) (table : ℕ → Option τ) : Prop := ∀ i x, table i = some x → P x

section All

variable {P : τ → Prop} {table : ℕ → Option τ}

lemma AllLive.put (h : AllLive P table) (i : ℕ) {x : τ} (hx : P x) :
    AllLive P (Function.update table i (some x)) := by
  intro j y hy
  by_cases hne : j = i
  · rw [hne, Function.update_self, Option.some.injEq] at hy
    exact hy ▸ hx
  · rw [Function.update_of_ne hne] at hy
    exact h j y hy

lemma AllLive.drop (h : AllLive P table) (i : ℕ) : AllLive P (Function.update table i none) := by
  intro j y hy
  by_cases hne : j = i
  · rw [hne, Function.update_self] at hy
    cases hy
  · rw [Function.update_of_ne hne] at hy
    exact h j y hy

end All

/-! ### Pointers from one table to another -/

/-- Every pointer of an object in `sources` points to an object in `targets`. -/
def RefsLive (ref : σ → Option ℕ) (sources : ℕ → Option σ) (targets : ℕ → Option τ) : Prop :=
  AllLive (fun x => ∀ d, ref x = some d → targets d ≠ none) sources

section Refs

variable {ref : σ → Option ℕ} {sources : ℕ → Option σ} {targets : ℕ → Option τ} {i d : ℕ}

lemma RefsLive.put_target (h : RefsLive ref sources targets) (d : ℕ) (y : τ) :
    RefsLive ref sources (Function.update targets d (some y)) := by
  intro j x hx d' hd'
  by_cases hne : d' = d
  · rw [hne, Function.update_self]
    exact Option.some_ne_none y
  · rw [Function.update_of_ne hne]
    exact h j x hx d' hd'

/-- An object is freed that nothing points to. -/
lemma RefsLive.drop_target (h : RefsLive ref sources targets)
    (hd : ∀ i x, sources i = some x → ref x ≠ some d) :
    RefsLive ref sources (Function.update targets d none) := by
  intro j x hx d' hd'
  have hne : d' ≠ d := by
    rintro rfl
    exact hd j x hx hd'
  rw [Function.update_of_ne hne]
  exact h j x hx d' hd'

lemma RefsLive.put_source (h : RefsLive ref sources targets) (i : ℕ) {x : σ}
    (hx : ∀ d, ref x = some d → targets d ≠ none) :
    RefsLive ref (Function.update sources i (some x)) targets :=
  AllLive.put h i hx

lemma RefsLive.drop_source (h : RefsLive ref sources targets) (i : ℕ) :
    RefsLive ref (Function.update sources i none) targets :=
  AllLive.drop h i

/-- An object is freed together with the only one that points to it. -/
lemma RefsLive.drop_both (h : RefsLive ref sources targets)
    (honly : ∀ j x, sources j = some x → ref x = some d → j = i) :
    RefsLive ref (Function.update sources i none) (Function.update targets d none) := by
  refine (h.drop_source i).drop_target fun j x hx hd => ?_
  by_cases hne : j = i
  · rw [hne, Function.update_self] at hx
    cases hx
  · rw [Function.update_of_ne hne] at hx
    exact hne (honly j x hx hd)

end Refs

end Teensy41Ethernet.Lib
