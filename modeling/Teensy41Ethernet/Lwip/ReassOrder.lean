import Teensy41Ethernet.Lwip.Reass
import Mathlib.Data.List.Range
import Mathlib.Data.List.Sort
import Mathlib.Data.List.TakeWhile

/-!
# The order in which fragments arrive

A datagram is cut into fragments, which arrive in some order, one after the other.
`ip_reass_chain_frag_into_datagram_and_validate` looks for holes before the place of the new
fragment and behind it, but when the new fragment is put between two others it does not look
at the hole directly before it.

* `reass_exact_iff`: the datagram comes out with the last of its fragments, whole, exactly for
  those orders in which no fragment arrives behind such a hole when there is no other hole
  (`Skips`).
-/

namespace Teensy41Ethernet.Lwip

/-! ### Numbers in a row -/

/-- Each number is one more than the one before. -/
def Consec (l : List ℕ) : Prop := l.IsChain fun a b => b = a + 1

instance (l : List ℕ) : Decidable (Consec l) := inferInstanceAs (Decidable (List.IsChain _ l))

variable {n j k : ℕ} {l r : List ℕ}

lemma consec_cons_cons {a b : ℕ} : Consec (a :: b :: l) ↔ b = a + 1 ∧ Consec (b :: l) :=
  List.isChain_cons_cons

lemma consec_range' (a m : ℕ) : Consec (List.range' a m) := List.isChain_range' a m 1

lemma eq_range'_of_consec {a : ℕ} (h : Consec (a :: l)) :
    a :: l = List.range' a (l.length + 1) := by
  induction l generalizing a with
  | nil => rfl
  | cons b l ih =>
    obtain ⟨rfl, hl⟩ := consec_cons_cons.mp h
    rw [List.range'_succ, List.length_cons, ← ih hl]

/-- A sorted list is known by its members. -/
lemma eq_range'_of_mem {a m : ℕ} (hl : l.Pairwise (· < ·))
    (h : ∀ i, i ∈ l ↔ a ≤ i ∧ i < a + m) : l = List.range' a m := by
  have hperm : l.Perm (List.range' a m) := by
    refine (List.perm_ext_iff_of_nodup (hl.imp fun h => h.ne) List.nodup_range').mpr fun i => ?_
    rw [h, List.mem_range'_1]
  exact List.Perm.eq_of_pairwise (fun _ _ _ _ h₁ h₂ => absurd h₁ h₂.asymm) hl
    List.pairwise_lt_range' hperm

/-- The number `j` in its place. -/
def placed (j : ℕ) (l : List ℕ) : List ℕ := l.takeWhile (· < j) ++ j :: l.dropWhile (· < j)

lemma placed_perm : (placed j l).Perm (j :: l) := by
  refine List.perm_middle.trans ?_
  rw [List.takeWhile_append_dropWhile]

lemma mem_takeWhile_lt {i : ℕ} (h : i ∈ l.takeWhile (· < j)) : i < j := by
  simpa using List.mem_takeWhile_imp h

lemma lt_of_mem_dropWhile {i : ℕ} (hl : l.Pairwise (· < ·)) (hj : j ∉ l)
    (h : i ∈ l.dropWhile (· < j)) : j < i := by
  induction l with
  | nil => cases h
  | cons a l ih =>
    obtain ⟨ha, hl'⟩ := List.pairwise_cons.mp hl
    rw [List.mem_cons, not_or] at hj
    rw [List.dropWhile_cons] at h
    split at h
    next => exact ih hl' hj.2 h
    next hlt =>
      have hlt : ¬ a < j := fun h => hlt (decide_eq_true h)
      rcases List.mem_cons.mp h with rfl | h
      · omega
      · have := ha i h
        omega

lemma placed_sorted (hl : l.Pairwise (· < ·)) (hj : j ∉ l) : (placed j l).Pairwise (· < ·) := by
  have hsub : l = l.takeWhile (· < j) ++ l.dropWhile (· < j) :=
    List.takeWhile_append_dropWhile.symm
  refine List.pairwise_append.mpr ⟨hl.sublist (List.takeWhile_sublist _), ?_, ?_⟩
  · exact List.pairwise_cons.mpr
      ⟨fun i hi => lt_of_mem_dropWhile hl hj hi, hl.sublist (List.dropWhile_sublist _)⟩
  · intro a ha b hb
    rcases List.mem_cons.mp hb with rfl | hb
    · exact mem_takeWhile_lt ha
    · exact (mem_takeWhile_lt ha).trans (lt_of_mem_dropWhile hl hj hb)

/-! ### When the code takes a datagram for complete -/

/-- `j` arrives when the fragments `l` of a datagram of `n` fragments are there: all behind it are
there, at least one, and of those before it exactly the first `k` for some `k` between 1 and
`j - 1`, so that directly before it something is missing. -/
def Skips (n : ℕ) (l : List ℕ) (j : ℕ) : Prop :=
  j + 1 < n ∧ (∀ i < n, j < i → i ∈ l) ∧ ∃ k < j, 0 < k ∧ ∀ i < j, (i ∈ l ↔ i < k)

instance : Decidable (Skips n l j) := inferInstanceAs (Decidable (_ ∧ _ ∧ _))

/-- The checks of the code when the fragment `j` comes to those in the sorted list `l`. -/
def Passes (n : ℕ) (l : List ℕ) (j : ℕ) : Prop :=
  n - 1 ∈ j :: l ∧
    Consec (l.takeWhile (· < j) ++ if l.dropWhile (· < j) = [] then [j] else []) ∧
    (placed j l).head? = some 0 ∧ Consec (j :: l.dropWhile (· < j))

instance : Decidable (Passes n l j) := inferInstanceAs (Decidable (_ ∧ _ ∧ _ ∧ _))

lemma mem_takeWhile_iff (hl : l.Pairwise (· < ·)) (hj : j ∉ l) {i : ℕ} :
    i ∈ l.takeWhile (· < j) ↔ i ∈ l ∧ i < j := by
  refine ⟨fun h => ⟨(List.takeWhile_sublist _).subset h, mem_takeWhile_lt h⟩, fun ⟨h, hi⟩ => ?_⟩
  rw [← List.takeWhile_append_dropWhile (p := (· < j)) (l := l), List.mem_append] at h
  refine h.resolve_right fun h => ?_
  have := lt_of_mem_dropWhile hl hj h
  omega

lemma mem_dropWhile_iff (hl : l.Pairwise (· < ·)) (hj : j ∉ l) {i : ℕ} :
    i ∈ l.dropWhile (· < j) ↔ i ∈ l ∧ j < i := by
  refine ⟨fun h => ⟨(List.dropWhile_sublist _).subset h, lt_of_mem_dropWhile hl hj h⟩,
    fun ⟨h, hi⟩ => ?_⟩
  rw [← List.takeWhile_append_dropWhile (p := (· < j)) (l := l), List.mem_append] at h
  refine h.resolve_left fun h => ?_
  have := mem_takeWhile_lt h
  omega

/-- The fragments behind `j` are all there. -/
lemma consec_above_iff (hl : l.Pairwise (· < ·)) (hj : j ∉ l) (hn : ∀ i ∈ j :: l, i < n) :
    n - 1 ∈ j :: l ∧ Consec (j :: l.dropWhile (· < j)) ↔ ∀ i < n, j < i → i ∈ l := by
  have hjn : j < n := hn j List.mem_cons_self
  constructor
  · rintro ⟨hlast, hcon⟩ i hi hji
    have hrow := eq_range'_of_consec hcon
    have hmem : n - 1 ∈ j :: l.dropWhile (· < j) := by
      rcases List.mem_cons.mp hlast with h | h
      · exact h ▸ List.mem_cons_self
      · refine List.mem_cons_of_mem _ ((mem_dropWhile_iff hl hj).mpr ⟨h, ?_⟩)
        have : n - 1 ≠ j := fun he => hj (he ▸ h)
        omega
    have hi' : i ∈ j :: l.dropWhile (· < j) := by
      rw [hrow, List.mem_range'_1] at hmem ⊢
      omega
    rcases List.mem_cons.mp hi' with rfl | hi'
    · omega
    · exact ((mem_dropWhile_iff hl hj).mp hi').1
  · intro hall
    have hrow : l.dropWhile (· < j) = List.range' (j + 1) (n - (j + 1)) := by
      refine eq_range'_of_mem (hl.sublist (List.dropWhile_sublist _)) fun i => ?_
      rw [mem_dropWhile_iff hl hj]
      constructor
      · rintro ⟨hi, hji⟩
        have := hn i (List.mem_cons_of_mem _ hi)
        omega
      · rintro ⟨hji, hi⟩
        exact ⟨hall i (by omega) hji, hji⟩
    refine ⟨?_, ?_⟩
    · by_cases hlast : j = n - 1
      · exact hlast ▸ List.mem_cons_self
      · exact List.mem_cons_of_mem _ (hall _ (by omega) (by omega))
    · rw [hrow, ← List.range'_succ]
      exact consec_range' _ _

/-- The fragments before `j` are the first ones. -/
lemma consec_below_iff (hl : l.Pairwise (· < ·)) (hj : j ∉ l) :
    Consec (l.takeWhile (· < j)) ∧ (placed j l).head? = some 0 ↔
      ∃ k ≤ j, (k = 0 → j = 0) ∧ ∀ i < j, (i ∈ l ↔ i < k) := by
  constructor
  · rintro ⟨hcon, hhead⟩
    have hrow : l.takeWhile (· < j) = List.range' 0 (l.takeWhile (· < j)).length := by
      rw [placed] at hhead
      cases hb : l.takeWhile (· < j) with
      | nil => rfl
      | cons a t =>
        rw [hb] at hcon hhead
        obtain rfl : a = 0 := by simpa using hhead
        exact eq_range'_of_consec hcon
    have hmem : ∀ i, i ∈ l ∧ i < j ↔ i < (l.takeWhile (· < j)).length := by
      intro i
      rw [← mem_takeWhile_iff hl hj, hrow, List.mem_range'_1, List.length_range']
      omega
    refine ⟨(l.takeWhile (· < j)).length, Nat.le_of_not_lt fun hlt => ?_, fun hzero => ?_,
      fun i hi => ?_⟩
    · exact lt_irrefl j ((hmem j).mpr hlt).2
    · rw [placed, List.length_eq_zero_iff.mp hzero] at hhead
      simpa using hhead
    · rw [← hmem i]
      exact (and_iff_left hi).symm
  · rintro ⟨k, hk, hzero, hmem⟩
    have hrow : l.takeWhile (· < j) = List.range' 0 k := by
      refine eq_range'_of_mem (hl.sublist (List.takeWhile_sublist _)) fun i => ?_
      rw [mem_takeWhile_iff hl hj]
      constructor
      · rintro ⟨hi, hij⟩
        have := (hmem i hij).mp hi
        omega
      · rintro ⟨-, hi⟩
        exact ⟨(hmem i (by omega)).mpr (by omega), by omega⟩
    refine ⟨hrow ▸ consec_range' _ _, ?_⟩
    rw [placed, hrow]
    cases k with
    | zero => simp [hzero rfl]
    | succ k => simp [List.range'_succ]

/-- **What the checks mean.** They pass if the datagram is complete, and also if the fragment
skips a hole. -/
lemma passes_iff (hl : l.Pairwise (· < ·)) (hj : j ∉ l) (hn : ∀ i ∈ j :: l, i < n) :
    Passes n l j ↔ (∀ i < n, i ∈ j :: l) ∨ Skips n l j := by
  have habove := consec_above_iff hl hj hn
  have hbelow := consec_below_iff hl hj
  have hjn : j < n := hn j List.mem_cons_self
  constructor
  · rintro ⟨hlast, hcon, hhead, hcon'⟩
    have hall := habove.mp ⟨hlast, hcon'⟩
    obtain ⟨k, hk, hzero, hmem⟩ := hbelow.mp ⟨(List.isChain_append.mp hcon).1, hhead⟩
    by_cases hkj : k = j
    · -- nothing is missing before `j`
      refine .inl fun i hi => ?_
      rcases Nat.lt_trichotomy i j with hij | rfl | hji
      · exact List.mem_cons_of_mem _ ((hmem i hij).mpr (by omega))
      · exact List.mem_cons_self
      · exact List.mem_cons_of_mem _ (hall i hi hji)
    · refine .inr ⟨?_, hall, k, by omega, by omega, hmem⟩
      -- if `j` is the last fragment, then the code does look at the hole before it
      by_contra hlt
      have hnil : l.dropWhile (· < j) = [] := by
        refine List.eq_nil_iff_forall_not_mem.mpr fun i hi => ?_
        have h := (mem_dropWhile_iff hl hj).mp hi
        have := hn i (List.mem_cons_of_mem _ h.1)
        omega
      rw [if_pos hnil] at hcon
      rw [placed, hnil] at hhead
      have hrow : l.takeWhile (· < j) ++ [j] =
          List.range' 0 (l.takeWhile (· < j) ++ [j]).length := by
        cases hb : l.takeWhile (· < j) ++ [j] with
        | nil => exact absurd hb (by simp)
        | cons a t =>
          rw [hb] at hcon hhead
          obtain rfl : a = 0 := by simpa using hhead
          exact eq_range'_of_consec hcon
      have hkmem : k ∈ l.takeWhile (· < j) ++ [j] := by
        have hj' : j ∈ l.takeWhile (· < j) ++ [j] := by simp
        rw [hrow, List.mem_range'_1] at hj' ⊢
        omega
      rcases List.mem_append.mp hkmem with h | h
      · exact absurd ((hmem k (by omega)).mp ((mem_takeWhile_iff hl hj).mp h).1) (lt_irrefl k)
      · exact hkj (List.mem_singleton.mp h)
  · rintro (hfull | ⟨hjn', hall, k, hkj, hk, hmem⟩)
    · obtain ⟨hlast, hcon'⟩ := habove.mpr fun i hi hji =>
        (List.mem_cons.mp (hfull i hi)).resolve_left (by omega)
      have hmem : ∀ i < j, (i ∈ l ↔ i < j) := fun i hi =>
        ⟨fun _ => hi, fun _ => (List.mem_cons.mp (hfull i (by omega))).resolve_left (by omega)⟩
      obtain ⟨hcon, hhead⟩ := hbelow.mpr ⟨j, le_rfl, id, hmem⟩
      refine ⟨hlast, ?_, hhead, hcon'⟩
      split
      · have hrow : l.takeWhile (· < j) = List.range' 0 j := by
          refine eq_range'_of_mem (hl.sublist (List.takeWhile_sublist _)) fun i => ?_
          rw [mem_takeWhile_iff hl hj]
          constructor
          · rintro ⟨-, hi⟩
            omega
          · rintro ⟨-, hi⟩
            exact ⟨(hmem i (by omega)).mpr (by omega), by omega⟩
        have := consec_range' 0 (j + 1)
        rwa [List.range'_1_concat, Nat.zero_add, ← hrow] at this
      · rwa [List.append_nil]
    · obtain ⟨hlast, hcon'⟩ := habove.mpr hall
      obtain ⟨hcon, hhead⟩ := hbelow.mpr ⟨k, hkj.le, by omega, hmem⟩
      refine ⟨hlast, ?_, hhead, hcon'⟩
      have hne : l.dropWhile (· < j) ≠ [] := List.ne_nil_of_mem
        ((mem_dropWhile_iff hl hj).mpr ⟨hall (j + 1) hjn' (Nat.lt_succ_self j), Nat.lt_succ_self j⟩)
      rwa [if_neg hne, List.append_nil]

/-! ### The fragments of a datagram -/

/-- Where a piece starts. -/
def startOf (ps : List (List UInt8)) (i : ℕ) : ℕ := (ps.take i).flatten.length

/-- A received chain is the fragment number `i` of a datagram with the pieces `ps`. -/
structure IsFrag (key : List UInt8) (ps : List (List UInt8)) (i : ℕ) (p : Chain) : Prop where
  hl : iphHL (p.headD []) * 4 = ipHlen
  header : ipHlen ≤ (p.headD []).length
  key_eq : iphKey (p.headD []) = key
  offset : fragOffset (p.headD []) = startOf ps i
  last : iphOffset (p.headD []) / ipMF % 2 = 0 ↔ i + 1 = ps.length
  len : fragLen (p.headD []) = (ps.getD i []).length
  data : p.flatten.drop ipHlen = ps.getD i []

/-- The chains `frag 0`, `frag 1`, … are the fragments of a datagram with the pieces `ps`. -/
structure Fragmented (key : List UInt8) (ps : List (List UInt8)) (frag : ℕ → Chain) : Prop where
  nonempty : ∀ piece ∈ ps, piece ≠ []
  length_lt : ps.flatten.length + ipHlen < 65536
  isFrag : ∀ i < ps.length, IsFrag key ps i (frag i)

section Fragments

variable {key : List UInt8} {ps : List (List UInt8)} {frag : ℕ → Chain} {i : ℕ}

@[simp] lemma startOf_zero : startOf ps 0 = 0 := rfl

lemma startOf_length : startOf ps ps.length = ps.flatten.length := by
  rw [startOf, List.take_length]

lemma startOf_succ (hi : i < ps.length) :
    startOf ps (i + 1) = startOf ps i + (ps.getD i []).length := by
  rw [startOf, startOf, List.take_succ_eq_append_getElem hi, List.flatten_append,
    List.length_append, List.flatten_singleton, List.getD_eq_getElem?_getD,
    List.getElem?_eq_getElem hi, Option.getD_some]

/-- The place of a fragment in the queue. -/
def queuedAt (ps : List (List UInt8)) (frag : ℕ → Chain) (i : ℕ) : Queued :=
  ⟨startOf ps i, startOf ps (i + 1), frag i⟩

namespace Fragmented

lemma startOf_lt_succ (h : Fragmented key ps frag) (hi : i < ps.length) :
    startOf ps i < startOf ps (i + 1) := by
  rw [startOf_succ hi, List.getD_eq_getElem?_getD, List.getElem?_eq_getElem hi, Option.getD_some]
  have := List.length_pos_iff.mpr (h.nonempty _ (List.getElem_mem hi))
  omega

lemma startOf_lt (h : Fragmented key ps frag) (hik : i < k) (hk : k ≤ ps.length) :
    startOf ps i < startOf ps k := by
  induction k, hik using Nat.le_induction with
  | base => exact h.startOf_lt_succ hk
  | succ k hik ih => exact (ih (by omega)).trans (h.startOf_lt_succ hk)

lemma startOf_le (h : Fragmented key ps frag) (hik : i ≤ k) (hk : k ≤ ps.length) :
    startOf ps i ≤ startOf ps k := by
  rcases hik.eq_or_lt with rfl | hik
  · exact le_rfl
  · exact (h.startOf_lt hik hk).le

lemma startOf_eq_iff (h : Fragmented key ps frag) (hi : i ≤ ps.length) (hk : k ≤ ps.length) :
    startOf ps i = startOf ps k ↔ i = k := by
  refine ⟨fun heq => ?_, fun heq => heq ▸ rfl⟩
  rcases Nat.lt_trichotomy i k with hlt | rfl | hlt
  · exact absurd heq (h.startOf_lt hlt hk).ne
  · rfl
  · exact absurd heq (h.startOf_lt hlt hi).ne'

end Fragmented

/-- The new fragment is put before the next one of the queue. -/
lemma chainFragLoop_before {new tmp : Queued} {prev : Option ℕ} {valid : Bool} {q : List Queued}
    (hlt : new.start < tmp.start) (hprev : ∀ e ∈ prev, e ≤ new.start)
    (hstop : new.stop ≤ tmp.start) :
    chainFragLoop new prev valid (tmp :: q) = some (new :: tmp :: q, valid, tmp :: q) := by
  have hno : ¬ (prev.any fun e => decide (new.start < e) || decide (tmp.start < new.stop)) := by
    cases prev with
    | none => exact Bool.false_ne_true
    | some e =>
      have := hprev e rfl
      simp
      omega
  rw [chainFragLoop, if_pos hlt, if_neg hno]

/-- It belongs behind it. -/
lemma chainFragLoop_past {new tmp : Queued} {prev : Option ℕ} {valid : Bool} {q : List Queued}
    (hlt : tmp.start < new.start) (hstop : tmp.stop ≤ new.start) :
    chainFragLoop new prev valid (tmp :: q) =
      (chainFragLoop new (some tmp.stop) (valid && prev.all (· = tmp.start)) q).map fun r =>
        (tmp :: r.1, r.2) := by
  rw [chainFragLoop, if_neg hlt.not_gt, if_neg hlt.ne', if_neg hstop.not_gt]

namespace Fragmented

/-- The loop over the queue. -/
lemma chainFragLoop_eq (h : Fragmented key ps frag) (hl : l.Pairwise (· < ·)) (hj : j ∉ l)
    (hn : ∀ i ∈ j :: l, i < ps.length) {prev : Option ℕ}
    (hprev : ∀ k ∈ prev, ∀ i ∈ j :: l, k < i) (valid : Bool) :
    chainFragLoop (queuedAt ps frag j) (prev.map fun k => startOf ps (k + 1)) valid
        (l.map (queuedAt ps frag)) =
      some ((placed j l).map (queuedAt ps frag),
        valid && decide (Consec (prev.toList ++ (l.takeWhile (· < j) ++
          if l.dropWhile (· < j) = [] then [j] else []))),
        (l.dropWhile (· < j)).map (queuedAt ps frag)) := by
  have hjn : j < ps.length := hn j List.mem_cons_self
  induction l generalizing prev valid with
  | nil =>
    cases prev with
    | none => simp [chainFragLoop, placed, Consec]
    | some k =>
      have hkj := hprev k rfl j List.mem_cons_self
      have heq : startOf ps (k + 1) = startOf ps j ↔ j = k + 1 := by
        rw [h.startOf_eq_iff (by omega) (by omega), eq_comm]
      simp [chainFragLoop, placed, Consec, queuedAt, heq]
  | cons i l ih =>
    obtain ⟨hil, hl'⟩ := List.pairwise_cons.mp hl
    rw [List.mem_cons, not_or] at hj
    have hin : i < ps.length := hn i (by simp)
    rcases Nat.lt_or_gt_of_ne hj.1 with hji | hij
    · -- the fragment is put before this one
      have htake : (i :: l).takeWhile (· < j) = [] := by simp [hji.le]
      have hdrop : (i :: l).dropWhile (· < j) = i :: l := by simp [hji.le]
      have hcon : Consec (prev.toList ++ ([] ++ [])) := by
        cases prev
        · exact List.isChain_nil
        · exact List.isChain_singleton _
      rw [List.map_cons, chainFragLoop_before (h.startOf_lt hji hin.le) ?_
        (h.startOf_le hji hin.le), placed, htake, hdrop, if_neg (List.cons_ne_nil _ _),
        decide_eq_true hcon, Bool.and_true]
      · rfl
      · intro e he
        obtain ⟨k, hk, rfl⟩ := Option.map_eq_some_iff.mp he
        exact h.startOf_le (hprev k hk j List.mem_cons_self) hjn.le
    · -- it belongs behind it
      have htake : (i :: l).takeWhile (· < j) = i :: l.takeWhile (· < j) := by simp [hij]
      have hdrop : (i :: l).dropWhile (· < j) = l.dropWhile (· < j) := by simp [hij]
      have hplaced : placed j (i :: l) = i :: placed j l := by
        rw [placed, htake, hdrop]
        rfl
      have hn' : ∀ m ∈ j :: l, m < ps.length := fun m hm => hn m (by
        rcases List.mem_cons.mp hm with rfl | hm
        · exact List.mem_cons_self
        · exact List.mem_cons_of_mem _ (List.mem_cons_of_mem _ hm))
      have hprev' : ∀ k ∈ some i, ∀ m ∈ j :: l, k < m := by
        intro k hk m hm
        obtain rfl := Option.some.inj hk
        rcases List.mem_cons.mp hm with rfl | hm
        · exact hij
        · exact hil m hm
      have hvalid : (prev.map fun k => startOf ps (k + 1)).all (· = startOf ps i) =
          decide (∀ k ∈ prev, i = k + 1) := by
        cases prev with
        | none => simp
        | some k =>
          have hki := hprev k rfl i (by simp)
          simp [h.startOf_eq_iff (i := k + 1) (k := i) (by omega) hin.le, eq_comm]
      rw [List.map_cons, chainFragLoop_past (h.startOf_lt hij hjn.le) (h.startOf_le hij hjn.le)]
      have hrest := ih hl' hj.2 hn' hprev' (valid && decide (∀ k ∈ prev, i = k + 1))
      rw [← hvalid] at hrest
      refine (congrArg _ hrest).trans ?_
      rw [Option.map_some, hplaced, htake, hdrop, List.map_cons, hvalid, Bool.and_assoc,
        ← Bool.decide_and]
      cases prev with
      | none => simp
      | some k => simp [consec_cons_cons]

/-- The look at the fragments behind. -/
lemma noHoles_eq (h : Fragmented key ps frag) (hl : (j :: l).Pairwise (· < ·))
    (hn : ∀ i ∈ j :: l, i < ps.length) :
    noHoles (startOf ps (j + 1)) (l.map (queuedAt ps frag)) = decide (Consec (j :: l)) := by
  induction l generalizing j with
  | nil => rfl
  | cons i l ih =>
    obtain ⟨hji, hl'⟩ := List.pairwise_cons.mp hl
    have hj := hn j List.mem_cons_self
    have hi := hn i (by simp)
    change (decide (startOf ps (j + 1) = startOf ps i) &&
      noHoles (startOf ps (i + 1)) (l.map (queuedAt ps frag))) = _
    rw [ih hl' fun m hm => hn m (List.mem_cons_of_mem _ hm), ← Bool.decide_and]
    simp only [consec_cons_cons, h.startOf_eq_iff (i := j + 1) (k := i) hj hi.le, eq_comm]

/-- The helper of a fragment. -/
lemma queued_of (h : Fragmented key ps frag) (hj : j < ps.length) :
    Queued.of (frag j) = queuedAt ps frag j := by
  have hf := h.isFrag j hj
  have hle : startOf ps (j + 1) ≤ _ := h.startOf_le hj le_rfl
  have hlt := h.length_lt
  rw [startOf_length] at hle
  rw [Queued.of, hf.offset, hf.len, ← startOf_succ hj, Nat.mod_eq_of_lt (by omega), queuedAt]

/-- What the function makes of the queue, and when it takes the datagram for complete. -/
lemma ipReassChainFrag_eq (h : Fragmented key ps frag) (hl : l.Pairwise (· < ·)) (hj : j ∉ l)
    (hn : ∀ i ∈ j :: l, i < ps.length) {d : IpReassdata} (hd : d.p = l.map (queuedAt ps frag))
    (hlast : d.lastfrag = decide (ps.length - 1 ∈ j :: l)) :
    ipReassChainFrag d (frag j) =
      some ((placed j l).map (queuedAt ps frag), decide (Passes ps.length l j)) := by
  have hprev : ∀ k ∈ (none : Option ℕ), ∀ i ∈ j :: l, k < i := fun k hk => by cases hk
  have hloop : chainFragLoop (queuedAt ps frag j) none true (l.map (queuedAt ps frag)) =
      some ((placed j l).map (queuedAt ps frag), decide (Consec (l.takeWhile (· < j) ++
        if l.dropWhile (· < j) = [] then [j] else [])),
        (l.dropWhile (· < j)).map (queuedAt ps frag)) :=
    h.chainFragLoop_eq hl hj hn hprev true
  have hhead : (((placed j l).map (queuedAt ps frag)).head?.any (·.start = 0)) =
      decide ((placed j l).head? = some 0) := by
    cases hp : placed j l with
    | nil => rfl
    | cons a t =>
      have ha : a < ps.length := hn a (placed_perm.subset (hp ▸ List.mem_cons_self))
      have := h.startOf_eq_iff (i := a) (k := 0) ha.le (Nat.zero_le _)
      simpa [queuedAt] using this
  have hdrop : (j :: l.dropWhile (· < j)).Pairwise (· < ·) :=
    (placed_sorted hl hj).sublist (List.sublist_append_right _ _)
  have hholes : noHoles (queuedAt ps frag j).stop ((l.dropWhile (· < j)).map (queuedAt ps frag)) =
      decide (Consec (j :: l.dropWhile (· < j))) :=
    h.noHoles_eq hdrop fun i hi => hn i (by
      rcases List.mem_cons.mp hi with rfl | hi
      · exact List.mem_cons_self
      · exact List.mem_cons_of_mem _ ((List.dropWhile_sublist _).subset hi))
  rw [ipReassChainFrag, h.queued_of (hn j List.mem_cons_self), hd, hloop, Option.map_some]
  dsimp only
  rw [hhead, hlast, hholes, ← Bool.decide_and, ← Bool.decide_and, ← Bool.decide_and]
  refine congrArg (fun b => some ((placed j l).map (queuedAt ps frag), b))
    (decide_eq_decide.mpr ?_)
  rw [Passes, and_assoc, and_assoc]

end Fragmented

/-! ### One fragment -/

/-- The entry `d` has the fragments `r` in its queue, and what it says about the datagram is
what the fragments `l` say. -/
structure Holds (key : List UInt8) (ps : List (List UInt8)) (frag : ℕ → Chain) (r l : List ℕ)
    (d : IpReassdata) : Prop where
  queue : d.p = r.map (queuedAt ps frag)
  key_eq : iphKey d.iphdr = key
  first : 0 ∈ l → d.iphdr = ((frag 0).headD []).take ipHlen
  other : 0 ∉ l → fragOffset d.iphdr ≠ 0
  last : d.lastfrag = decide (ps.length - 1 ∈ l)
  len : ps.length - 1 ∈ l → d.datagramLen = ps.flatten.length

lemma fragOffset_take (hdr : List UInt8) : fragOffset (hdr.take ipHlen) = fragOffset hdr := by
  simp [fragOffset, iphOffset, ipHlen]

lemma fragHeader_take (hdr : List UInt8) (offset len : ℕ) :
    fragHeader (hdr.take ipHlen) offset len = fragHeader hdr offset len := by
  simp [fragHeader, ipHlen, List.take_take, List.drop_take]

/-- The bytes of a fragment whose header is written over. -/
lemma flatten_restoreHeader {p : Chain} (hp : ipHlen ≤ (p.headD []).length) (hdr : List UInt8) :
    (restoreHeader hdr p).flatten = hdr ++ p.flatten.drop ipHlen := by
  cases p with
  | nil => exact absurd hp (by decide)
  | cons seg p =>
    rw [List.headD_cons] at hp
    rw [restoreHeader, List.flatten_cons, List.flatten_cons, List.drop_append_of_le_length hp,
      List.append_assoc]

namespace Fragmented

/-- The bytes of fragments whose headers are hidden. -/
lemma flatten_hidden (h : Fragmented key ps frag) (hn : ∀ i ∈ r, i < ps.length) :
    (r.flatMap fun i => pbufHeader (frag i) ipHlen).flatten =
      (r.map fun i => ps.getD i []).flatten := by
  induction r with
  | nil => rfl
  | cons i r ih =>
    have hi := h.isFrag i (hn i List.mem_cons_self)
    rw [List.flatMap_cons, List.flatten_append, flatten_pbufHeader hi.header, hi.data,
      ih fun k hk => hn k (List.mem_cons_of_mem _ hk), List.map_cons, List.flatten_cons]

/-- The bytes of a datagram that was taken for complete. -/
lemma flatten_reassembled (h : Fragmented key ps frag) {d : IpReassdata}
    (hn : ∀ i ∈ r, i < ps.length) (hzero : r.head? = some 0) (hlast : ps.length - 1 ∈ l)
    (hl : 0 ∈ l) (hd : Holds key ps frag r l d) :
    (reassembled d).flatten = fragHeader ((frag 0).headD []) 0 (ps.flatten.length + ipHlen) ++
      (r.map fun i => ps.getD i []).flatten := by
  cases r with
  | nil => cases hzero
  | cons i r =>
    obtain rfl : i = 0 := Option.some.inj hzero
    have hf := h.isFrag 0 (hn 0 List.mem_cons_self)
    rw [reassembled, hd.queue]
    simp only [List.map_cons, queuedAt, List.flatMap_map, List.flatten_append]
    rw [flatten_restoreHeader hf.header, hf.data, hd.first hl, fragHeader_take, hd.len hlast,
      Nat.mod_eq_of_lt h.length_lt, h.flatten_hidden fun k hk => hn k (List.mem_cons_of_mem _ hk),
      List.append_assoc]
    rfl

/-- A fragment other than the first does not start at zero. -/
lemma fragOffset_eq_zero_iff (h : Fragmented key ps frag) (hj : j < ps.length) :
    fragOffset ((frag j).headD []) = 0 ↔ j = 0 := by
  rw [(h.isFrag j hj).offset]
  exact h.startOf_eq_iff (k := 0) hj.le (Nat.zero_le _)

/-- The last fragment says how long the datagram is. -/
lemma holds_note (h : Fragmented key ps frag) (hj : j < ps.length) {d : IpReassdata}
    (hqueue : d.p = r.map (queuedAt ps frag)) (hkey : iphKey d.iphdr = key)
    (hfirst : 0 ∈ j :: l → d.iphdr = ((frag 0).headD []).take ipHlen)
    (hother : 0 ∉ j :: l → fragOffset d.iphdr ≠ 0)
    (hlast : d.lastfrag = decide (ps.length - 1 ∈ l))
    (hlen : ps.length - 1 ∈ l → d.datagramLen = ps.flatten.length) :
    Holds key ps frag r (j :: l) (d.note ((frag j).headD [])) := by
  have hf := h.isFrag j hj
  rw [IpReassdata.note]
  split
  next hmf =>
    have hj' : j + 1 = ps.length := hf.last.mp hmf
    have hstop : (Queued.of (frag j)).stop = ps.flatten.length := by
      rw [h.queued_of hj, queuedAt, hj', startOf_length]
    have hmem : ps.length - 1 ∈ j :: l := by
      rw [← hj', Nat.add_sub_cancel]
      exact List.mem_cons_self
    exact ⟨hqueue, hkey, hfirst, hother, (decide_eq_true hmem).symm, fun _ => hstop⟩
  next hmf =>
    have hj' : ps.length - 1 ≠ j := by
      intro he
      exact hmf (hf.last.mpr (by omega))
    have hmem : ps.length - 1 ∈ j :: l ↔ ps.length - 1 ∈ l := by simp [hj']
    exact ⟨hqueue, hkey, hfirst, hother, hlast.trans (decide_eq_decide.mpr hmem.symm),
      fun hm => hlen (hmem.mp hm)⟩

/-- A further fragment of the datagram. -/
lemma holds_takeHeader (h : Fragmented key ps frag) (hj : j < ps.length) {d : IpReassdata}
    (hd : Holds key ps frag r r d) :
    Holds key ps frag r (j :: r)
      ((d.takeHeader ((frag j).headD [])).note ((frag j).headD [])) := by
  have hf := h.isFrag j hj
  have hzero := h.fragOffset_eq_zero_iff hj
  rw [IpReassdata.takeHeader]
  split
  next htake =>
    obtain rfl := hzero.mp htake.1
    refine h.holds_note hj hd.queue ?_ (fun _ => rfl) (fun hnot => ?_) hd.last hd.len
    · rw [← hf.key_eq]
      exact iphKey_take _
    · exact absurd List.mem_cons_self hnot
  next htake =>
    refine h.holds_note hj hd.queue hd.key_eq (fun hmem => ?_) (fun hnot => ?_) hd.last hd.len
    · refine hd.first ?_
      by_contra hnot
      rcases List.mem_cons.mp hmem with hj0 | hmem
      · exact htake ⟨hzero.mpr hj0.symm, hd.other hnot⟩
      · exact hnot hmem
    · exact hd.other fun hmem => hnot (List.mem_cons_of_mem _ hmem)

/-- The first fragment of the datagram to arrive. -/
lemma holds_new (h : Fragmented key ps frag) (hj : j < ps.length) :
    Holds key ps frag [] [j]
      (IpReassdata.note ⟨[], ((frag j).headD []).take ipHlen, 0, false, ipReassMaxage⟩
        ((frag j).headD [])) := by
  have hf := h.isFrag j hj
  refine h.holds_note hj rfl ?_ (fun hmem => ?_) (fun hnot => ?_) rfl (fun hmem => by cases hmem)
  · rw [← hf.key_eq]
    exact iphKey_take _
  · obtain rfl := List.mem_singleton.mp hmem
    rfl
  · rw [fragOffset_take, ne_eq, h.fragOffset_eq_zero_iff hj]
    exact fun hj0 => hnot (hj0 ▸ List.mem_cons_self)

/-- The end of `ip4_reass`. -/
lemma accept_eq (h : Fragmented key ps frag) (hr : r.Pairwise (· < ·)) (hj : j ∉ r)
    (hn : ∀ i ∈ j :: r, i < ps.length) {t : Reass} {d : IpReassdata} {ds : List IpReassdata}
    (ht : t.datagrams = d :: ds) (hd : Holds key ps frag r (j :: r) (d.note ((frag j).headD []))) :
    (Passes ps.length r j → ∃ c : Chain,
      t.accept 0 (frag j) = ({ t with
        datagrams := ds
        pbufcount := t.pbufcount + (frag j).length - clen ((placed j r).map (queuedAt ps frag)) },
        some c) ∧
      c.flatten = fragHeader ((frag 0).headD []) 0 (ps.flatten.length + ipHlen) ++
        ((placed j r).map fun i => ps.getD i []).flatten) ∧
    (¬ Passes ps.length r j → ∃ d' : IpReassdata,
      t.accept 0 (frag j) = ({ t with
        datagrams := d' :: ds
        pbufcount := t.pbufcount + (frag j).length }, none) ∧
      Holds key ps frag (placed j r) (placed j r) d') := by
  have hget : t.datagrams[0]? = some d := by rw [ht]; rfl
  have hchain := h.ipReassChainFrag_eq hr hj hn hd.queue hd.last
  have hplaced : ∀ i, i ∈ placed j r ↔ i ∈ j :: r := fun i => placed_perm.mem_iff
  rw [Reass.accept, hget]
  dsimp only
  rw [hchain, ht]
  constructor
  · intro hpass
    rw [decide_eq_true hpass]
    refine ⟨_, rfl, h.flatten_reassembled (fun i hi => hn i ((hplaced i).mp hi)) hpass.2.2.1
      hpass.1 ?_ ⟨rfl, hd.key_eq, hd.first, hd.other, hd.last, hd.len⟩⟩
    exact (hplaced 0).mp (List.mem_of_mem_head? hpass.2.2.1)
  · intro hpass
    rw [decide_eq_false hpass]
    refine ⟨_, rfl, rfl, hd.key_eq, fun h0 => hd.first ((hplaced _).mp h0),
      fun h0 => hd.other fun h => h0 ((hplaced _).mpr h),
      hd.last.trans (decide_eq_decide.mpr (hplaced _).symm), fun hm => hd.len ((hplaced _).mp hm)⟩

end Fragmented

/-! ### All fragments -/

/-- Chains arrive one after the other: the state at the end, and what `ip4_reass` returned. -/
def deliver : Reass → List Chain → Reass × List (Option Chain)
  | s, [] => (s, [])
  | s, p :: ps =>
      ((deliver (ip4Reass p s).1 ps).1, (ip4Reass p s).2 :: (deliver (ip4Reass p s).1 ps).2)

lemma deliver_cons {s s' : Reass} {p : Chain} {q : List Chain} {o : Option Chain}
    (h : ip4Reass p s = (s', o)) :
    deliver s (p :: q) = ((deliver s' q).1, o :: (deliver s' q).2) := by
  rw [deliver, h]

/-- The number of buffers of some fragments. -/
def buffers (frag : ℕ → Chain) (l : List ℕ) : ℕ := (l.map fun i => (frag i).length).sum

/-- The state `t` after the fragments `l` have come in the state `s`. -/
def Collecting (key : List UInt8) (ps : List (List UInt8)) (frag : ℕ → Chain) (s : Reass)
    (l : List ℕ) (t : Reass) : Prop :=
  (l = [] ∧ t = s) ∨
    ∃ r d, r.Perm l ∧ r.Pairwise (· < ·) ∧ Holds key ps frag r r d ∧
      t = { s with
        datagrams := d :: s.datagrams
        pbufcount := s.pbufcount + buffers frag l }

/-- A state in which the datagram can be taken in: no entry is for it, and there is room. -/
structure Reass.Ready (key : List UInt8) (buffers : ℕ) (s : Reass) : Prop where
  fresh : key ∉ keys s.datagrams
  entry : s.datagrams.length < mempNumReassdata
  room : s.pbufcount + buffers ≤ ipReassMaxPbufs

lemma clen_map_queuedAt : clen (r.map (queuedAt ps frag)) = buffers frag r := by
  simp [clen, buffers, queuedAt, Function.comp_def]

lemma buffers_perm (h : r.Perm l) : buffers frag r = buffers frag l := (h.map _).sum_eq

lemma buffers_cons : buffers frag (j :: l) = (frag j).length + buffers frag l := by
  simp [buffers]

lemma skips_congr (h : r.Perm l) : Skips n r j ↔ Skips n l j := by
  simp only [Skips, h.mem_iff]

namespace Fragmented

/-- How `ip4_reass` comes to its end: with the entry of the datagram in front. -/
lemma ip4Reass_eq_accept (h : Fragmented key ps frag) {s t : Reass}
    (hs : s.Ready key (buffers frag (j :: l))) (ht : Collecting key ps frag s l t)
    (hn : ∀ i ∈ j :: l, i < ps.length) :
    ∃ r d, r.Perm l ∧ r.Pairwise (· < ·) ∧
      Holds key ps frag r (j :: r) (d.note ((frag j).headD [])) ∧
      ip4Reass (frag j) t =
        ({ s with
            datagrams := d :: s.datagrams
            pbufcount := s.pbufcount + buffers frag l } : Reass).accept 0 (frag j) := by
  have hjn := hn j List.mem_cons_self
  have hf := h.isFrag j hjn
  have hroom := hs.room
  rw [buffers_cons] at hroom
  obtain ⟨rfl, rfl⟩ | ⟨r, d, hperm, hsorted, hd, rfl⟩ := ht
  · refine ⟨[], ⟨[], ((frag j).headD []).take ipHlen, 0, false, ipReassMaxage⟩, List.Perm.refl _,
      List.Pairwise.nil, h.holds_new hjn, ?_⟩
    have hnone : t.datagrams.findIdx? (fun r => ipMatch r.iphdr ((frag j).headD [])) = none := by
      refine List.findIdx?_eq_none_iff.mpr fun d hd => decide_eq_false fun hkey => ?_
      refine hs.fresh (List.mem_map.mpr ⟨d, hd, ?_⟩)
      rw [hkey, hf.key_eq]
    have hnew : ipReassEnqueueNewDatagram ((frag j).headD []) (frag j).length t =
        (t.push ((frag j).headD []), true) := if_pos hs.entry
    rw [ip4Reass]
    dsimp only
    rw [if_neg (not_not.mpr hf.hl), if_neg (by omega), Reass.enqueue]
    dsimp only
    rw [hnone, hnew]
    rfl
  · refine ⟨r, d.takeHeader ((frag j).headD []), hperm, hsorted, h.holds_takeHeader hjn hd, ?_⟩
    have hfound : (d :: s.datagrams).findIdx? (fun r => ipMatch r.iphdr ((frag j).headD [])) =
        some 0 := by
      rw [List.findIdx?_cons, if_pos]
      exact decide_eq_true (hd.key_eq.trans hf.key_eq.symm)
    rw [ip4Reass]
    dsimp only
    rw [if_neg (not_not.mpr hf.hl), if_neg (by omega), Reass.enqueue]
    dsimp only
    rw [hfound]
    rfl

/-- **One fragment.** The datagram is returned, and its entry is gone, if it is complete or the
fragment skips a hole; otherwise the fragment is queued. -/
lemma ip4Reass_step (h : Fragmented key ps frag) {s t : Reass}
    (hs : s.Ready key (buffers frag (j :: l))) (ht : Collecting key ps frag s l t) (hj : j ∉ l)
    (hn : ∀ i ∈ j :: l, i < ps.length) :
    ((∀ i < ps.length, i ∈ j :: l) ∨ Skips ps.length l j → ∃ (r : List ℕ) (c : Chain),
      r.Perm (j :: l) ∧ r.Pairwise (· < ·) ∧ ip4Reass (frag j) t = (s, some c) ∧
      c.flatten = fragHeader ((frag 0).headD []) 0 (ps.flatten.length + ipHlen) ++
        (r.map fun i => ps.getD i []).flatten) ∧
    (¬ ((∀ i < ps.length, i ∈ j :: l) ∨ Skips ps.length l j) → ∃ t',
      ip4Reass (frag j) t = (t', none) ∧ Collecting key ps frag s (l ++ [j]) t') := by
  obtain ⟨r, d, hperm, hsorted, hd, heq⟩ := h.ip4Reass_eq_accept hs ht hn
  have hjr : j ∉ r := fun hmem => hj (hperm.mem_iff.mp hmem)
  have hperm' : (placed j r).Perm (j :: l) := placed_perm.trans (hperm.cons j)
  have hnr : ∀ i ∈ j :: r, i < ps.length := fun i hi => hn i ((hperm.cons j).mem_iff.mp hi)
  have hpass : Passes ps.length r j ↔ (∀ i < ps.length, i ∈ j :: l) ∨ Skips ps.length l j := by
    rw [passes_iff hsorted hjr hnr, skips_congr hperm]
    simp only [(hperm.cons j).mem_iff]
  obtain ⟨hyes, hno⟩ := h.accept_eq (t := { s with
      datagrams := d :: s.datagrams
      pbufcount := s.pbufcount + buffers frag l }) hsorted hjr hnr rfl hd
  rw [hpass] at hyes hno
  rw [heq]
  constructor
  · intro hc
    obtain ⟨c, hacc, hflat⟩ := hyes hc
    refine ⟨placed j r, c, hperm', placed_sorted hsorted hjr, ?_, hflat⟩
    rw [hacc, clen_map_queuedAt, buffers_perm hperm', buffers_cons]
    simp only [Prod.mk.injEq, and_true]
    congr 1
    omega
  · intro hc
    obtain ⟨d', hacc, hd'⟩ := hno hc
    refine ⟨_, hacc, .inr ⟨placed j r, d', hperm'.trans (List.perm_append_singleton j l).symm,
      placed_sorted hsorted hjr, hd', ?_⟩⟩
    rw [buffers_perm (List.perm_append_singleton j l), buffers_cons]
    congr 1
    dsimp only
    omega

/-- The bytes of the datagram, with its header restored. -/
def datagram (ps : List (List UInt8)) (frag : ℕ → Chain) : List UInt8 :=
  fragHeader ((frag 0).headD []) 0 (ps.flatten.length + ipHlen) ++ ps.flatten

lemma eq_range_of_perm (hr : r.Pairwise (· < ·)) (hperm : r.Perm (List.range n)) :
    r = List.range n := by
  rw [List.range_eq_range']
  refine eq_range'_of_mem hr fun i => ?_
  rw [hperm.mem_iff, List.mem_range]
  omega

lemma map_getD_range (ps : List (List UInt8)) :
    ((List.range ps.length).map fun i => ps.getD i []) = ps := by
  refine List.ext_getElem (by simp) fun i h₁ h₂ => ?_
  simp [List.getD_eq_getElem?_getD, h₂]

lemma forall_split_cons {α : Type*} {P : List α → α → Prop} {y : α} {m : List α} :
    (∀ a x b, y :: m = a ++ x :: b → P a x) ↔
      P [] y ∧ ∀ a x b, m = a ++ x :: b → P (y :: a) x := by
  refine ⟨fun h => ⟨h [] y m rfl, fun a x b hm => h (y :: a) x b (hm ▸ rfl)⟩, ?_⟩
  rintro ⟨h₁, h₂⟩ a x b hab
  cases a with
  | nil =>
    obtain ⟨rfl, -⟩ := List.cons.inj hab
    exact h₁
  | cons z a =>
    obtain ⟨rfl, hm⟩ := List.cons.inj hab
    exact h₂ a x b hm

/-- The fragments `r` arrive after the fragments `l`. -/
lemma deliver_iff (h : Fragmented key ps frag) {s t : Reass}
    (hperm : (l ++ r).Perm (List.range ps.length)) (hs : s.Ready key (buffers frag (l ++ r)))
    (ht : Collecting key ps frag s l t) (hr : r ≠ []) :
    (∃ c : Chain, deliver t (r.map frag) = (s, List.replicate (r.length - 1) none ++ [some c]) ∧
        c.flatten = datagram ps frag) ↔
      ∀ a j b, r = a ++ j :: b → ¬ Skips ps.length (l ++ a) j := by
  induction r generalizing l t with
  | nil => exact absurd rfl hr
  | cons j r ih =>
    have hmem : ∀ i, i ∈ j :: l ∨ i ∈ r ↔ i < ps.length := by
      intro i
      rw [← List.mem_range, ← hperm.mem_iff]
      simp only [List.mem_append, List.mem_cons]
      tauto
    have hnodup := hperm.nodup_iff.mpr List.nodup_range
    have hjl : j ∉ l := fun hj => List.disjoint_of_nodup_append hnodup hj List.mem_cons_self
    have hrest : ∀ i ∈ r, i ∉ j :: l := by
      intro i hi hi'
      rcases List.mem_cons.mp hi' with rfl | hi'
      · exact (List.nodup_cons.mp hnodup.of_append_right).1 hi
      · exact List.disjoint_of_nodup_append hnodup hi' (List.mem_cons_of_mem _ hi)
    have hs' : s.Ready key (buffers frag (j :: l)) := by
      refine ⟨hs.fresh, hs.entry, le_trans (Nat.add_le_add_left ?_ _) hs.room⟩
      simp only [buffers, List.map_append, List.map_cons, List.sum_append, List.sum_cons]
      omega
    obtain ⟨hyes, hno⟩ := h.ip4Reass_step hs' ht hjl fun i hi => (hmem i).mp (.inl hi)
    by_cases hc : (∀ i < ps.length, i ∈ j :: l) ∨ Skips ps.length l j
    · obtain ⟨r₀, c, hr₀, hsorted, hstep, hflat⟩ := hyes hc
      rw [List.map_cons, deliver_cons hstep]
      cases r with
      | nil =>
        -- the last fragment completes the datagram
        have hfull : r₀ = List.range ps.length :=
          eq_range_of_perm hsorted (hr₀.trans ((List.perm_append_singleton j l).symm.trans hperm))
        rw [hfull, map_getD_range] at hflat
        refine iff_of_true ⟨c, rfl, hflat⟩ fun a j' b hab hskip => ?_
        obtain ⟨rfl, rfl⟩ : a = [] ∧ j' = j := by
          cases a with
          | nil => exact ⟨rfl, (List.cons.inj hab).1.symm⟩
          | cons x a => exact absurd (congrArg List.length hab) (by simp)
        obtain ⟨hj, -, k, hkj, -, hk⟩ := hskip
        rw [List.append_nil] at hk
        have hkl : k ∈ l := by
          have hk' := ((hmem k).mpr (by omega)).resolve_right (by simp)
          exact (List.mem_cons.mp hk').resolve_left hkj.ne
        exact absurd ((hk k hkj).mp hkl) (lt_irrefl k)
      | cons i r =>
        -- something is returned too early
        have hi := hrest i List.mem_cons_self
        have hskip : Skips ps.length l j :=
          hc.resolve_left fun hall => hi (hall i ((hmem i).mp (.inr List.mem_cons_self)))
        refine iff_of_false ?_ fun hall => ?_
        · rintro ⟨c', heq, -⟩
          have := congrArg (fun x => x.2.head?) heq
          simp [List.replicate_succ] at this
        · exact hall [] j (i :: r) rfl (by rwa [List.append_nil])
    · obtain ⟨t', hstep, ht'⟩ := hno hc
      rw [List.map_cons, deliver_cons hstep]
      cases r with
      | nil =>
        exact absurd (.inl fun i hi => ((hmem i).mpr hi).resolve_right (by simp)) hc
      | cons i r =>
        have hassoc : l ++ [j] ++ (i :: r) = l ++ j :: i :: r := by simp
        have hiff := ih (by rwa [hassoc]) (by rwa [hassoc]) ht' (List.cons_ne_nil i r)
        have hrun : ∀ c : Chain,
            ((deliver t' ((i :: r).map frag)).1, none :: (deliver t' ((i :: r).map frag)).2) =
                (s, List.replicate ((j :: i :: r).length - 1) none ++ [some c]) ↔
              deliver t' ((i :: r).map frag) =
                (s, List.replicate ((i :: r).length - 1) none ++ [some c]) := by
          intro c
          simp [List.replicate_succ, Prod.ext_iff]
        simp only [hrun, hiff, forall_split_cons, List.append_nil, List.append_assoc,
          List.singleton_append]
        exact (and_iff_right fun hskip => hc (.inr hskip)).symm

/-- **Which orders of arrival are good.** The fragments of a datagram arrive, each once, in
the order `order`, in a state with room for them and no entry for the datagram.  The calls for
all but the last return nothing, the last returns the datagram with all its bytes in order and
leaves the state as it was before the first, if and only if no fragment skips a hole when it
arrives.  In particular a fragment that arrives out of order can make the code return a datagram
with a piece missing. -/
theorem reass_exact_iff (h : Fragmented key ps frag) {s : Reass} {order : List ℕ}
    (horder : order.Perm (List.range ps.length)) (hs : s.Ready key (buffers frag order))
    (hps : ps ≠ []) :
    (∃ c : Chain,
      deliver s (order.map frag) = (s, List.replicate (ps.length - 1) none ++ [some c]) ∧
      c.flatten = datagram ps frag) ↔
    ∀ before j after, order = before ++ j :: after → ¬ Skips ps.length before j := by
  have hlen : order.length = ps.length := by rw [horder.length_eq, List.length_range]
  have hne : order ≠ [] := by
    rintro rfl
    exact hps (List.length_eq_zero_iff.mp hlen.symm)
  have hiff := h.deliver_iff (l := []) horder hs (.inl ⟨rfl, rfl⟩) hne
  rwa [hlen] at hiff

end Fragmented

/-- A datagram in four fragments. -/
def sampleFour (i : ℕ) : Chain := ReassSys.sampleFrag 7 (if i = 3 then 3 else 0x2000 + i)

lemma sampleFour_fragmented :
    Fragmented [0, 7, 10, 0, 0, 1, 10, 0, 0, 2] (List.replicate 4 [1, 2, 3, 4, 5, 6, 7, 8])
      sampleFour := by
  refine ⟨by decide, by decide, fun i hi => ?_⟩
  have hi : i < 4 := hi
  interval_cases i
  all_goals exact ⟨by decide, by decide, by decide, by decide, by decide, by decide, by decide⟩

namespace Fragmented

theorem reass_exact_iff_sample :
    (∃ c : Chain, deliver ⟨[], 0, 0, []⟩ ([3, 1, 0, 2].map sampleFour) =
      (⟨[], 0, 0, []⟩, [none, none, none, some c])) ∧
    ¬ ∃ c : Chain, deliver ⟨[], 0, 0, []⟩ ([0, 3, 2, 1].map sampleFour) =
        (⟨[], 0, 0, []⟩, [none, none, none, some c]) ∧
      c.flatten = datagram (List.replicate 4 [1, 2, 3, 4, 5, 6, 7, 8]) sampleFour := by
  have hready : ∀ order ∈ [[3, 1, 0, 2], [0, 3, 2, 1]], (⟨[], 0, 0, []⟩ : Reass).Ready
      [0, 7, 10, 0, 0, 1, 10, 0, 0, 2] (buffers sampleFour order) := by
    intro order horder
    refine ⟨by simp [keys], by decide, ?_⟩
    revert order
    decide
  constructor
  · have hiff := reass_exact_iff sampleFour_fragmented (s := ⟨[], 0, 0, []⟩)
      (by decide : [3, 1, 0, 2].Perm _) (hready _ (by simp)) (by simp)
    have hgood : ∀ before j after, [3, 1, 0, 2] = before ++ j :: after → ¬ Skips 4 before j := by
      simp only [forall_split_cons]
      exact ⟨by decide, by decide, by decide, by decide, fun _ _ _ h => absurd h (by simp)⟩
    obtain ⟨c, hrun, -⟩ := hiff.mpr hgood
    exact ⟨c, hrun⟩
  · have hiff := reass_exact_iff sampleFour_fragmented (s := ⟨[], 0, 0, []⟩)
      (by decide : [0, 3, 2, 1].Perm _) (hready _ (by simp)) (by simp)
    exact fun hrun => hiff.mp hrun [0, 3] 2 [1] rfl (by decide)

end Fragmented

end Fragments

end Teensy41Ethernet.Lwip
