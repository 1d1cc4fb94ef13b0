import Mathlib.Data.List.TakeWhile

/-!
# Texts read up to a character

A scanner takes characters as long as they satisfy a predicate.  What it takes is decided by the
first character that does not satisfy it, whatever follows.
-/

namespace Teensy41Ethernet.Lib

variable {α : Type*} {p : α → Bool} {l r : List α}

lemma head_cons {c : α} (hc : p c = false) (l : List α) : ∀ b ∈ (c :: l).head?, p b = false := by
  intro b hb
  rwa [← Option.some.inj hb]

/-- A text that goes on with another character adds nothing. -/
lemma takeWhile_append_of_head (hr : ∀ c ∈ r.head?, p c = false) :
    (l ++ r).takeWhile p = l.takeWhile p := by
  induction l with
  | nil =>
    cases r with
    | nil => rfl
    | cons c r =>
      rw [List.nil_append, List.takeWhile_cons_of_neg, List.takeWhile_nil]
      rw [hr c rfl]
      exact Bool.false_ne_true
  | cons b l ih => rw [List.cons_append, List.takeWhile_cons, List.takeWhile_cons, ih]

lemma takeWhile_append_eq_left (hl : ∀ c ∈ l, p c = true) (hr : ∀ c ∈ r.head?, p c = false) :
    (l ++ r).takeWhile p = l := by
  rw [takeWhile_append_of_head hr, List.takeWhile_eq_self_iff.mpr hl]

lemma dropWhile_append_eq_right (hl : ∀ c ∈ l, p c = true) (hr : ∀ c ∈ r.head?, p c = false) :
    (l ++ r).dropWhile p = r := by
  rw [List.dropWhile_append_of_pos hl]
  cases r with
  | nil => rfl
  | cons c r =>
    rw [List.dropWhile_cons_of_neg]
    rw [hr c rfl]
    exact Bool.false_ne_true

/-- What is left goes on with another character. -/
lemma head_dropWhile (l : List α) : ∀ c ∈ (l.dropWhile p).head?, p c = false := by
  intro c hc
  have hnot := List.head?_dropWhile_not p l
  rw [Option.mem_def.mp hc] at hnot
  exact hnot

lemma drop_length_takeWhile (l : List α) : l.drop (l.takeWhile p).length = l.dropWhile p := by
  calc l.drop (l.takeWhile p).length
      = (l.takeWhile p ++ l.dropWhile p).drop (l.takeWhile p).length := by
        rw [List.takeWhile_append_dropWhile]
    _ = l.dropWhile p := List.drop_left

lemma takeWhile_take (l : List α) (n : ℕ) : (l.take n).takeWhile p = (l.takeWhile p).take n := by
  induction n generalizing l with
  | zero => rfl
  | succ n ih =>
    cases l with
    | nil => rfl
    | cons b l =>
      rw [List.take_succ_cons, List.takeWhile_cons, List.takeWhile_cons, ih]
      split
      · rfl
      · rfl

end Teensy41Ethernet.Lib
