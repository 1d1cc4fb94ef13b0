import Mathlib.Data.List.Count
import Mathlib.Order.BooleanAlgebra.Set
import Mathlib.Tactic.Common

/-!
# Accounts of resources

An account is the list of what was acquired and released, in order.  It is balanced with a set
of resources if each resource was acquired at most once, and what was acquired and not
released is in the set, and nothing else.  When nothing is held any more, a balanced account
says that every resource was released exactly as often as it was acquired.
-/

namespace Teensy41Ethernet.Lib

variable {ρ : Type*}

/-- An entry of an account. -/
inductive Entry (ρ : Type*) where
  | acquire (r : ρ)
  | release (r : ρ)
deriving DecidableEq

variable [DecidableEq ρ]

/-- What is held was acquired once and not released; everything else was released as often as
it was acquired, which is at most once. -/
structure Balanced (account : List (Entry ρ)) (held : Set ρ) : Prop where
  open_of_mem : ∀ r ∈ held, account.count (.acquire r) = 1 ∧ account.count (.release r) = 0
  closed_of_notMem : ∀ r ∉ held, account.count (.acquire r) ≤ 1 ∧
    account.count (.release r) = account.count (.acquire r)

variable {account : List (Entry ρ)} {held : Set ρ} {r r' : ρ}

lemma balanced_nil : Balanced ([] : List (Entry ρ)) ∅ :=
  ⟨fun _ hr => (by cases hr), fun _ _ => ⟨Nat.zero_le 1, rfl⟩⟩

/-- The same resources, described in another way. -/
lemma Balanced.congr (h : Balanced account held) {held' : Set ρ}
    (hheld : ∀ r, r ∈ held ↔ r ∈ held') : Balanced account held' :=
  Set.ext hheld ▸ h

/-- The order of the entries does not matter. -/
lemma Balanced.perm (h : Balanced account held) {account' : List (Entry ρ)}
    (hperm : account.Perm account') : Balanced account' held := by
  refine ⟨fun r hr => ?_, fun r hr => ?_⟩
  · rw [← hperm.count_eq, ← hperm.count_eq]
    exact h.open_of_mem r hr
  · rw [← hperm.count_eq, ← hperm.count_eq]
    exact h.closed_of_notMem r hr

lemma count_append_acquire (account : List (Entry ρ)) (r r' : ρ) :
    (account ++ [Entry.acquire r]).count (Entry.acquire r') =
        account.count (.acquire r') + (if r = r' then 1 else 0) ∧
      (account ++ [Entry.acquire r]).count (Entry.release r') = account.count (.release r') := by
  simp [List.count_append, List.count_singleton]

lemma count_append_release (account : List (Entry ρ)) (r r' : ρ) :
    (account ++ [Entry.release r]).count (Entry.acquire r') = account.count (.acquire r') ∧
      (account ++ [Entry.release r]).count (Entry.release r') =
        account.count (.release r') + (if r = r' then 1 else 0) := by
  simp [List.count_append, List.count_singleton]

/-- A resource that is new to the account is acquired. -/
lemma Balanced.acquire (h : Balanced account held) (hr : .acquire r ∉ account) :
    Balanced (account ++ [.acquire r]) (insert r held) := by
  have hzero : account.count (.acquire r) = 0 := List.count_eq_zero_of_not_mem hr
  have hnew : r ∉ held := by
    intro hmem
    have := (h.open_of_mem r hmem).1
    omega
  refine ⟨fun r' hr' => ?_, fun r' hr' => ?_⟩
  · obtain ⟨hacquire, hrelease⟩ := count_append_acquire account r r'
    rw [hacquire, hrelease]
    rcases Set.mem_insert_iff.mp hr' with rfl | hmem
    · have hclosed := h.closed_of_notMem r' hnew
      rw [if_pos rfl]
      omega
    · have hne : r ≠ r' := fun heq => hnew (heq ▸ hmem)
      rw [if_neg hne]
      exact h.open_of_mem r' hmem
  · obtain ⟨hacquire, hrelease⟩ := count_append_acquire account r r'
    rw [Set.mem_insert_iff, not_or] at hr'
    rw [hacquire, hrelease, if_neg (Ne.symm hr'.1)]
    exact h.closed_of_notMem r' hr'.2

/-- A resource that is held is released. -/
lemma Balanced.release (h : Balanced account held) (hr : r ∈ held) :
    Balanced (account ++ [.release r]) (held \ {r}) := by
  refine ⟨fun r' hr' => ?_, fun r' hr' => ?_⟩
  · obtain ⟨hacquire, hrelease⟩ := count_append_release account r r'
    have hne : r ≠ r' := fun heq => hr'.2 heq.symm
    rw [hacquire, hrelease, if_neg hne]
    exact h.open_of_mem r' hr'.1
  · obtain ⟨hacquire, hrelease⟩ := count_append_release account r r'
    rw [hacquire, hrelease]
    by_cases heq : r = r'
    · subst heq
      have hopen := h.open_of_mem r hr
      rw [if_pos rfl]
      omega
    · have hmem : r' ∉ held := fun hmem => hr' ⟨hmem, Ne.symm heq⟩
      rw [if_neg heq]
      exact h.closed_of_notMem r' hmem

/-- A resource that is new to the account is acquired and released at once. -/
lemma Balanced.borrow (h : Balanced account held) (hr : .acquire r ∉ account) (hheld : r ∉ held) :
    Balanced (account ++ [.acquire r] ++ [.release r]) held := by
  have hreleased := (h.acquire hr).release (Set.mem_insert r held)
  rwa [Set.insert_sdiff_self_of_notMem hheld] at hreleased

/-- **An account with nothing held** has released what it acquired, once. -/
theorem Balanced.settled (h : Balanced account ∅) (r : ρ) :
    account.count (.acquire r) ≤ 1 ∧ account.count (.release r) = account.count (.acquire r) :=
  h.closed_of_notMem r (Set.notMem_empty r)

end Teensy41Ethernet.Lib
