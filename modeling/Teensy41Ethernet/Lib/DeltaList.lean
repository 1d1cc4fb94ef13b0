import Mathlib.Algebra.GroupWithZero.Nat
import Mathlib.Data.List.TakeWhile
import Mathlib.Tactic.Common

/-!
# Delta lists

A list of events in the order of their deadlines, where each entry holds the time from the
entry before it.  The deadlines are the partial sums from a base time.  Inserting and removing
only touch one neighbour; here is what they do to the deadlines.
-/

namespace Teensy41Ethernet.Lib.DeltaList

variable {α : Type*} {a : α} {b k t : ℕ} {l xs ys : List (ℕ × α)}

/-- The deadlines of a delta list that starts at time `b`. -/
def deadlines : ℕ → List (ℕ × α) → List (ℕ × α)
  | _, [] => []
  | b, (d, a) :: l => (b + d, a) :: deadlines (b + d) l

/-- The time from the start to the last deadline. -/
def span (l : List (ℕ × α)) : ℕ := (l.map Prod.fst).sum

@[simp] lemma deadlines_nil : deadlines b ([] : List (ℕ × α)) = [] := rfl

lemma deadlines_cons (d : ℕ) :
    deadlines b ((d, a) :: l) = (b + d, a) :: deadlines (b + d) l := rfl

@[simp] lemma span_nil : span ([] : List (ℕ × α)) = 0 := rfl

@[simp] lemma span_cons (x : ℕ × α) : span (x :: l) = x.1 + span l := by simp [span]

/-- A later start moves every deadline. -/
lemma deadlines_add : deadlines (b + k) l = (deadlines b l).map fun x => (x.1 + k, x.2) := by
  induction l generalizing b with
  | nil => rfl
  | cons x l ih =>
    obtain ⟨d, a⟩ := x
    rw [deadlines_cons, deadlines_cons, List.map_cons, Nat.add_right_comm b k d, ih]

lemma le_of_mem_deadlines {x : ℕ × α} (h : x ∈ deadlines b l) : b ≤ x.1 := by
  induction l generalizing b with
  | nil => exact absurd h List.not_mem_nil
  | cons y l ih =>
    obtain ⟨d, a⟩ := y
    rcases List.mem_cons.mp h with rfl | h
    · exact Nat.le_add_right b d
    · exact (Nat.le_add_right b d).trans (ih h)

/-- A new entry, `t` after the start of the list, behind the entries with the same deadline. -/
def insertDelta (a : α) : ℕ → List (ℕ × α) → List (ℕ × α)
  | t, [] => [(t, a)]
  | t, (d, c) :: l => if t < d then (t, a) :: (d - t, c) :: l else (d, c) :: insertDelta a (t - d) l

/-- The deadlines after an insertion: the new one is in its place, the others are as before. -/
lemma deadlines_insertDelta :
    deadlines b (insertDelta a t l) =
      ((deadlines b l).takeWhile fun x => x.1 ≤ b + t) ++
        (b + t, a) :: (deadlines b l).dropWhile fun x => x.1 ≤ b + t := by
  induction l generalizing b t with
  | nil => rfl
  | cons x l ih =>
    obtain ⟨d, c⟩ := x
    rw [insertDelta, deadlines_cons]
    by_cases ht : t < d
    · have hd : ¬ (b + d, c).1 ≤ b + t := by
        dsimp only
        omega
      rw [if_pos ht, List.takeWhile_cons_of_neg (by simpa using hd),
        List.dropWhile_cons_of_neg (by simpa using hd), deadlines_cons, deadlines_cons,
        Nat.add_assoc, Nat.add_sub_cancel' ht.le]
      rfl
    · have hd : (b + d, c).1 ≤ b + t := by
        dsimp only
        omega
      have hbt : b + d + (t - d) = b + t := by omega
      rw [if_neg ht, List.takeWhile_cons_of_pos (by simpa using hd),
        List.dropWhile_cons_of_pos (by simpa using hd), deadlines_cons, ih, hbt]
      rfl

/-- A new entry after the end of the list. -/
lemma deadlines_append :
    deadlines b (xs ++ ys) = deadlines b xs ++ deadlines (b + span xs) ys := by
  induction xs generalizing b with
  | nil => simp
  | cons x xs ih =>
    obtain ⟨d, c⟩ := x
    rw [List.cons_append, deadlines_cons, deadlines_cons, ih, span_cons, Nat.add_assoc]
    rfl

/-- More time before the first entry. -/
def carryDelta (d : ℕ) : List (ℕ × α) → List (ℕ × α)
  | [] => []
  | (e, c) :: l => (e + d, c) :: l

lemma deadlines_carryDelta : deadlines b (carryDelta k l) = deadlines (b + k) l := by
  cases l with
  | nil => rfl
  | cons x l =>
    obtain ⟨d, a⟩ := x
    rw [carryDelta, deadlines_cons, deadlines_cons, Nat.add_assoc, Nat.add_comm d k]

/-- The first entry that satisfies `p` is taken out, and its time is added to the next one. -/
def removeDelta (p : α → Bool) : List (ℕ × α) → List (ℕ × α)
  | [] => []
  | (d, a) :: l => if p a then carryDelta d l else (d, a) :: removeDelta p l

/-- Taking an entry out leaves the other deadlines as they are. -/
lemma deadlines_removeDelta {p : α → Bool} :
    deadlines b (removeDelta p l) = (deadlines b l).eraseP fun x => p x.2 := by
  induction l generalizing b with
  | nil => rfl
  | cons x l ih =>
    obtain ⟨d, a⟩ := x
    rw [removeDelta, deadlines_cons]
    by_cases hp : p a
    · rw [if_pos hp, List.eraseP_cons_of_pos (by exact hp), deadlines_carryDelta]
    · rw [if_neg hp, List.eraseP_cons_of_neg (by exact hp), deadlines_cons, ih]

end Teensy41Ethernet.Lib.DeltaList
