import Teensy41Ethernet.Lwip.Mem
import Teensy41Ethernet.Lib.Run

/-!
# The heap over a whole run

The rest of the stack calls `mem_malloc`, `mem_free` and `mem_trim` in any order, and writes
into the blocks it was given.  Here is what such a run may rely on: what has been handed out
is kept in a ledger, from pointers to the sizes asked for, and the blocks in use of the heap
are exactly those of the ledger.

* `mem_run_disjoint`: no assertion fails, the headers always describe a coalesced row of
  blocks, and the regions handed out are aligned, inside of the heap and apart from each other.
* `mem_call_frame`: no call writes into a region that is handed out after it.
* `memMalloc_null_iff`: `mem_malloc` gives up only if there is no gap of the size it needs.
* `mem_run_released`: when everything has been given back, the heap is one free block again.

The blocks hold headers and data side by side, so a write by the owner of a block may change
whatever is read as a header inside of the block: `MemCall.store` allows all of that.
-/

namespace Teensy41Ethernet.Lwip

open Lib Lib.Tiling

/-- The heap and what has been handed out: the size that was asked for, for each pointer. -/
structure MemSys where
  heap : Heap
  owned : ℕ → Option ℕ

/-- What the users of the heap do. -/
inductive MemCall where
  | malloc (size : ℕ)
  | free (p : ℕ)
  | trim (p size : ℕ)
  /-- The owner of the block at `p` writes to it; `ram` is what the array holds then. -/
  | store (p : ℕ) (ram : ℕ → Link)

/-- The ledger after a call that returned a pointer for a region of `n` bytes. -/
def MemSys.grant (owned : ℕ → Option ℕ) (n : ℕ) : Option ℕ → ℕ → Option ℕ
  | none => owned
  | some p => Function.update owned p (some n)

/-- One call. -/
def MemSys.step (s : MemSys) : MemCall → Option MemSys
  | .malloc n => (memMalloc n s.heap).map fun r => ⟨r.2, grant s.owned n r.1⟩
  | .free p => (memFree p s.heap).map fun h => ⟨h, Function.update s.owned p none⟩
  | .trim p n => (memTrim p n s.heap).map fun r => ⟨r.2, grant s.owned n r.1⟩
  | .store _ ram => some { s with heap := { s.heap with ram := ram } }

/-- The rules of the users: only what is owned is given back, shrunk or written to.  The
header read at `a` has the bytes `a` to `a + 5`. -/
def MemSys.Ok (s : MemSys) : MemCall → Prop
  | .malloc n => n ≤ 65532
  | .free p => s.owned p ≠ none
  | .trim p n => ∃ m, s.owned p = some m ∧ n ≤ m
  | .store p ram => ∃ m, s.owned p = some m ∧
      ∀ a, a + 6 ≤ p ∨ p + m ≤ a → ram a = s.heap.ram a

/-- The state after `mem_init`. -/
def MemSys.init (ram : ℕ → Link) (stats : StatsMem) : MemSys := ⟨memInit ram stats, fun _ => none⟩

/-- The blocks in use are those handed out, each with room for what was asked for. -/
structure Ledger (bs : List Block) (owned : ℕ → Option ℕ) : Prop where
  low : ∀ p < sizeofStructMem, owned p = none
  granted : ∀ o n, owned (o + sizeofStructMem) = some n →
    ∃ t, sizeAt 0 bs o = some t ∧ n + sizeofStructMem ≤ t
  used : ∀ o t, sizeAt 0 bs o = some t → owned (o + sizeofStructMem) ≠ none

variable {s s' : MemSys} {bs bs' : List Block} {owned : ℕ → Option ℕ} {o p n t : ℕ}

/-- The block of a pointer in the ledger. -/
lemma Ledger.exists_block (hl : Ledger bs owned) (hp : owned p = some n) :
    ∃ o t, p = o + sizeofStructMem ∧ sizeAt 0 bs o = some t ∧ n + sizeofStructMem ≤ t := by
  have hle : sizeofStructMem ≤ p := by
    by_contra hlt
    rw [hl.low p (by omega)] at hp
    cases hp
  obtain ⟨o, rfl⟩ := Nat.exists_eq_add_of_le' hle
  obtain ⟨t, ht, hn⟩ := hl.granted o n hp
  exact ⟨o, t, rfl, ht, hn⟩

/-- A block is handed out, or its size changes. -/
lemma Ledger.set (hl : Ledger bs owned) (hn : n + sizeofStructMem ≤ t)
    (hbs : sizeAt 0 bs' = Function.update (sizeAt 0 bs) o (some t)) :
    Ledger bs' (Function.update owned (o + sizeofStructMem) (some n)) where
  low q hq := by rw [Function.update_of_ne (by omega), hl.low q hq]
  granted a m ha := by
    by_cases hao : a = o
    · subst hao
      rw [Function.update_self] at ha
      obtain rfl := Option.some.inj ha
      exact ⟨t, by rw [hbs, Function.update_self], hn⟩
    · rw [Function.update_of_ne (by omega)] at ha
      rw [hbs, Function.update_of_ne hao]
      exact hl.granted a m ha
  used a u ha := by
    by_cases hao : a = o
    · rw [hao, Function.update_self]
      simp
    · rw [hbs, Function.update_of_ne hao] at ha
      rw [Function.update_of_ne (by omega)]
      exact hl.used a u ha

/-- A block is given back. -/
lemma Ledger.clear (hl : Ledger bs owned)
    (hbs : sizeAt 0 bs' = Function.update (sizeAt 0 bs) o none) :
    Ledger bs' (Function.update owned (o + sizeofStructMem) none) where
  low q hq := by rw [Function.update_of_ne (by omega), hl.low q hq]
  granted a m ha := by
    by_cases hao : a = o
    · rw [hao, Function.update_self] at ha
      cases ha
    · rw [Function.update_of_ne (by omega)] at ha
      rw [hbs, Function.update_of_ne hao]
      exact hl.granted a m ha
  used a u ha := by
    by_cases hao : a = o
    · rw [hbs, hao, Function.update_self] at ha
      cases ha
    · rw [hbs, Function.update_of_ne hao] at ha
      rw [Function.update_of_ne (by omega)]
      exact hl.used a u ha

/-- The invariant of a run. -/
def MemSys.Good (s : MemSys) : Prop := ∃ bs, Tiled s.heap bs ∧ Ledger bs s.owned

/-- What a call may write: nothing inside of a region that is handed out after it. -/
def MemSys.Frame (s s' : MemSys) : Prop :=
  ∀ p n, s'.owned p = some n → ∀ a, s'.heap.ram a ≠ s.heap.ram a →
    a + sizeofStructMem ≤ p ∨ p + n ≤ a

/-- Writes at the borders of blocks are outside of what is handed out. -/
lemma MemSys.frame_of_cut (hl : Ledger bs s'.owned)
    (hcut : ∀ a, s'.heap.ram a ≠ s.heap.ram a → Cut bs a) : s.Frame s' := by
  intro p n hp a ha
  obtain ⟨o, t, rfl, ho, hn⟩ := hl.exists_block hp
  have := sizeAt_cut ho (hcut a ha)
  omega

/-! ### One call -/

lemma MemSys.step_malloc (hs : s.Good) (hok : s.Ok (.malloc n)) :
    ∃ s', s.step (.malloc n) = some s' ∧ s'.Good ∧ s.Frame s' := by
  obtain ⟨bs, ht, hl⟩ := hs
  by_cases h0 : n = 0
  · refine ⟨s, ?_, ⟨bs, ht, hl⟩, fun p m _ a ha => absurd rfl ha⟩
    rw [h0, MemSys.step, memMalloc, if_pos rfl]
    rfl
  have hreq : n ≤ memRequest n := le_memRequest hok
  rcases memMalloc_spec ht h0 with ⟨h', hcall, ht', hram, -⟩ |
    ⟨h', xs, k, ys, t, zs, hcall, rfl, -, -, hkt, hsame, ht', hcut⟩
  · refine ⟨⟨h', s.owned⟩, ?_, ⟨bs, ht', hl⟩, fun p m _ a ha => absurd (by rw [hram]) ha⟩
    rw [MemSys.step, hcall]
    rfl
  · have hl' : Ledger (xs ++ ⟨t, true⟩ :: zs)
        (Function.update s.owned (total xs + sizeofStructMem) (some n)) := by
      refine hl.set (t := t) (by omega) ?_
      have := sizeAt_set (o := 0) (u := true) ht.toLinked.solid (hsame (0 + total xs))
      rwa [if_pos rfl, Nat.zero_add] at this
    refine ⟨⟨h', _⟩, ?_, ⟨_, ht', hl'⟩, MemSys.frame_of_cut hl' hcut⟩
    rw [MemSys.step, hcall]
    rfl

lemma MemSys.step_free (hs : s.Good) (hok : s.Ok (.free p)) :
    ∃ s', s.step (.free p) = some s' ∧ s'.Good ∧ s.Frame s' := by
  obtain ⟨bs, ht, hl⟩ := hs
  obtain ⟨n, hp⟩ := Option.ne_none_iff_exists'.mp hok
  obtain ⟨o, t, rfl, ho, hn⟩ := hl.exists_block hp
  obtain ⟨xs, ys, rfl, rfl⟩ := exists_eq_append_of_sizeAt ho
  rw [Nat.zero_add] at *
  obtain ⟨h', xs', l, r, ys', hcall, rfl, rfl, hfree, ht', hcut⟩ := memFree_spec ht
  have hl' : Ledger (xs' ++ ⟨total l + t + total r, false⟩ :: ys')
      (Function.update s.owned (total (xs' ++ l) + sizeofStructMem) none) := by
    refine hl.clear ?_
    -- free blocks do not count, so the neighbours may be merged or not
    have hset := sizeAt_set (o := 0) (u := false) ht.toLinked.solid
      (rfl : sizeAt (0 + total (xs' ++ l) + t) (r ++ ys') = _)
    rw [Nat.zero_add, if_neg (by simp)] at hset
    rw [← hset]
    funext a
    rw [List.append_assoc, sizeAt_append, sizeAt_append, sizeAt_cons_free,
      sizeAt_append_free fun b hb => hfree b (by simp [hb]), sizeAt_cons_free,
      sizeAt_append_free fun b hb => hfree b (by simp [hb])]
    simp only [Nat.zero_add, Nat.add_assoc]
  have hold : ∀ q m, Function.update s.owned (total (xs' ++ l) + sizeofStructMem) none q = some m →
      s.owned q = some m := by
    intro q m hq
    by_cases hqo : q = total (xs' ++ l) + sizeofStructMem
    · rw [hqo, Function.update_self] at hq
      cases hq
    · rwa [Function.update_of_ne hqo] at hq
  refine ⟨⟨h', _⟩, ?_, ⟨_, ht', hl'⟩, fun q m hq a ha => ?_⟩
  · rw [MemSys.step, hcall]
    rfl
  · obtain ⟨o, u, rfl, ho', hm⟩ := hl.exists_block (hold q m hq)
    have := sizeAt_cut ho' (hcut a ha)
    omega

lemma MemSys.step_trim (hs : s.Good) (hok : s.Ok (.trim p n)) :
    ∃ s', s.step (.trim p n) = some s' ∧ s'.Good ∧ s.Frame s' := by
  obtain ⟨bs, ht, hl⟩ := hs
  obtain ⟨m, hp, hnm⟩ := hok
  obtain ⟨o, t, rfl, ho, hn⟩ := hl.exists_block hp
  obtain ⟨xs, ys, rfl, rfl⟩ := exists_eq_append_of_sizeAt ho
  rw [Nat.zero_add] at *
  have hbt := ht.toLinked.sizes ⟨t, true⟩ (by simp)
  have htot := ht.toLinked.total_eq
  simp only [total_append, total_cons, sizeofStructMem_eq, minSizeAligned_eq,
    memSizeAligned_eq] at hbt htot hn
  have hreq : memRequest n + sizeofStructMem ≤ t := by
    rw [memRequest, lwipMemAlignSize, minSizeAligned_eq, sizeofStructMem_eq]
    split <;> omega
  have hle : n ≤ memRequest n := le_memRequest (by omega)
  obtain ⟨h', t', zs, hcall, ht', hsame, htile, hcut⟩ := memTrim_spec ht hreq
  have hl' : Ledger (xs ++ ⟨t', true⟩ :: zs)
      (Function.update s.owned (total xs + sizeofStructMem) (some n)) := by
    refine hl.set (t := t') (by omega) ?_
    have := sizeAt_set (o := 0) (u := true) ht.toLinked.solid (hsame (0 + total xs))
    rwa [if_pos rfl, Nat.zero_add] at this
  refine ⟨⟨h', _⟩, ?_, ⟨_, htile, hl'⟩, MemSys.frame_of_cut hl' hcut⟩
  rw [MemSys.step, hcall]
  rfl

lemma MemSys.step_store {ram : ℕ → Link} (hs : s.Good) (hok : s.Ok (.store p ram)) :
    ∃ s', s.step (.store p ram) = some s' ∧ s'.Good := by
  obtain ⟨bs, ht, hl⟩ := hs
  obtain ⟨m, hp, hram⟩ := hok
  obtain ⟨o, t, rfl, ho, hn⟩ := hl.exists_block hp
  have hcut : ∀ a, Cut bs a → ram a = s.heap.ram a := by
    intro a ha
    have := sizeAt_cut ho ha
    rw [sizeofStructMem_eq] at hn hram
    exact hram a (by omega)
  have hlk := ht.toLinked
  have hstop : (ram memSizeAligned).used = true := by
    rw [hcut memSizeAligned ⟨bs, [], by simp, hlk.total_eq.symm⟩]
    exact hlk.stop
  have hlaid : Laid ram 0 0 bs := hlk.laid.congr_cut fun a ha => by rw [Nat.zero_add, hcut a ha]
  exact ⟨_, rfl, bs, ⟨⟨hlaid, hstop, hlk.total_eq, hlk.sizes, hlk.lfree_eq, hlk.used_eq,
    hlk.used_le_max, hlk.max_le, hlk.asserts_eq⟩, ht.coalesced⟩, hl⟩

/-- Every call that keeps to the rules returns and keeps the invariant. -/
lemma MemSys.step_good {e : MemCall} (hs : s.Good) (hok : s.Ok e) :
    ∃ s', s.step e = some s' ∧ s'.Good := by
  cases e with
  | malloc n => exact (step_malloc hs hok).imp fun _ h => ⟨h.1, h.2.1⟩
  | free p => exact (step_free hs hok).imp fun _ h => ⟨h.1, h.2.1⟩
  | trim p n => exact (step_trim hs hok).imp fun _ h => ⟨h.1, h.2.1⟩
  | store p ram => exact step_store hs hok

/-! ### Whole runs -/

lemma MemSys.good_init {ram : ℕ → Link} {stats : StatsMem} (hu : stats.used = 0)
    (hm : stats.max ≤ memSizeAligned) : (MemSys.init ram stats).Good :=
  ⟨_, tiled_memInit ram stats hu hm, fun _ _ => rfl, fun _ _ h => absurd h (by simp [init]),
    fun _ _ h => absurd h (by simp [sizeAt])⟩

/-- A run that keeps to the rules returns from every call and keeps the invariant. -/
lemma MemSys.exec_good {es : List MemCall} (hs : s.Good) (hok : Admits MemSys.step MemSys.Ok s es) :
    ∃ s', exec MemSys.step s es = some s' ∧ s'.Good :=
  exec_total_of_admits (fun _ _ hs hok => MemSys.step_good hs hok) hs hok

variable {ram : ℕ → Link} {stats : StatsMem} {es : List MemCall}

/-- **What is handed out.**  After every run of calls that keeps to the rules, in whatever
order and with whatever is written into the blocks, every loop over the headers has ended, no
assertion of `mem.c` has failed, the headers describe a row of blocks without two free
neighbours, the statistics count the bytes in use, and the regions that are handed out are
aligned, inside of the array and apart from each other, with room for a header between. -/
theorem mem_run_disjoint (hu : stats.used = 0) (hm : stats.max ≤ memSizeAligned)
    (hok : Admits MemSys.step MemSys.Ok (MemSys.init ram stats) es) :
    ∃ s bs, exec MemSys.step (MemSys.init ram stats) es = some s ∧ Tiled s.heap bs ∧
      (∀ p n, s.owned p = some n →
        sizeofStructMem ≤ p ∧ p % 4 = 0 ∧ p + n ≤ memSizeAligned) ∧
      ∀ p q n m, s.owned p = some n → s.owned q = some m → p ≠ q →
        p + n + sizeofStructMem ≤ q ∨ q + m + sizeofStructMem ≤ p := by
  obtain ⟨s, hrun, bs, ht, hl⟩ := MemSys.exec_good (MemSys.good_init hu hm) hok
  refine ⟨s, bs, hrun, ht, fun p n hp => ?_, fun p q n m hp hq hne => ?_⟩
  · obtain ⟨o, t, rfl, ho, hn⟩ := hl.exists_block hp
    have hb := sizeAt_bounds ho
    have htot := ht.total_eq
    obtain ⟨xs, ys, rfl, rfl⟩ := exists_eq_append_of_sizeAt ho
    have hmod := ht.toLinked.total_mod
    rw [sizeofStructMem_eq] at hn ⊢
    omega
  · obtain ⟨o, t, rfl, ho, hn⟩ := hl.exists_block hp
    obtain ⟨o', t', rfl, ho', hn'⟩ := hl.exists_block hq
    have := sizeAt_disjoint ho ho' (by omega)
    omega

/-- A run for the examples below: two blocks, of which the first is given back. -/
def sampleCalls : List MemCall := [.malloc 100, .malloc 50, .free 8]

/-- The heap for the examples, of zeros. -/
def sampleInit : MemSys := MemSys.init (fun _ => ⟨0, 0, false⟩) ⟨0, 0, 0, 0, 0⟩

lemma admits_sampleCalls : Admits MemSys.step MemSys.Ok sampleInit sampleCalls := by
  have h₁ : 100 ≤ 65532 := by decide
  have h₂ : 50 ≤ 65532 := by decide
  refine ⟨h₁, fun s hs => ⟨h₂, fun s' hs' => ⟨?_, fun _ _ => trivial⟩⟩⟩
  cases hs
  cases hs'
  exact Option.some_ne_none 100

theorem mem_run_disjoint_sample :
    ∃ s bs, exec MemSys.step sampleInit sampleCalls = some s ∧ Tiled s.heap bs ∧
      s.owned 116 = some 50 := by
  obtain ⟨s, bs, hrun, ht, -⟩ := mem_run_disjoint rfl (by decide) admits_sampleCalls
  refine ⟨s, bs, hrun, ht, ?_⟩
  cases hrun
  rfl

/-- **What a call writes.**  After every such run, a call to `mem_malloc`, `mem_free` or
`mem_trim` changes no header that reaches into a region that is handed out after the call. -/
theorem mem_call_frame {e : MemCall} (hu : stats.used = 0) (hm : stats.max ≤ memSizeAligned)
    (hok : Admits MemSys.step MemSys.Ok (MemSys.init ram stats) es)
    (hrun : exec MemSys.step (MemSys.init ram stats) es = some s) (he : s.Ok e)
    (hcall : ∀ p r, e ≠ .store p r) (hstep : s.step e = some s') :
    ∀ p n, s'.owned p = some n → ∀ a, s'.heap.ram a ≠ s.heap.ram a →
      a + sizeofStructMem ≤ p ∨ p + n ≤ a := by
  obtain ⟨t, hrun', hs⟩ := MemSys.exec_good (MemSys.good_init hu hm) hok
  obtain rfl : s = t := Option.some.inj (hrun.symm.trans hrun')
  have hframe : ∃ s', s.step e = some s' ∧ s'.Good ∧ s.Frame s' := by
    cases e with
    | malloc n => exact MemSys.step_malloc hs he
    | free p => exact MemSys.step_free hs he
    | trim p n => exact MemSys.step_trim hs he
    | store p r => exact absurd rfl (hcall p r)
  obtain ⟨s'', hstep', -, hf⟩ := hframe
  obtain rfl : s' = s'' := Option.some.inj (hstep.symm.trans hstep')
  exact hf

theorem mem_call_frame_sample :
    ∃ s s', exec MemSys.step sampleInit sampleCalls = some s ∧ s.step (.trim 116 20) = some s' ∧
      ∀ p n, s'.owned p = some n → ∀ a, s'.heap.ram a ≠ s.heap.ram a →
        a + sizeofStructMem ≤ p ∨ p + n ≤ a := by
  obtain ⟨s, hrun⟩ : ∃ s, exec MemSys.step sampleInit sampleCalls = some s := ⟨_, rfl⟩
  have hok : s.Ok (.trim 116 20) := by
    cases hrun
    exact ⟨50, rfl, by decide⟩
  obtain ⟨s', hstep⟩ : ∃ s', s.step (.trim 116 20) = some s' := by
    cases hrun
    exact ⟨_, rfl⟩
  exact ⟨s, s', hrun, hstep, mem_call_frame rfl (by decide) admits_sampleCalls hrun hok
    (fun _ _ h => by cases h) hstep⟩

/-- **When `mem_malloc` gives up.**  After every such run, a request that is not for zero
bytes is answered with `NULL` if and only if every range of the array that could hold a header
and the aligned request meets a block in use. -/
theorem memMalloc_null_iff (hu : stats.used = 0) (hm : stats.max ≤ memSizeAligned)
    (hok : Admits MemSys.step MemSys.Ok (MemSys.init ram stats) es)
    (hrun : exec MemSys.step (MemSys.init ram stats) es = some s) (hn : n ≠ 0) :
    ∃ bs r h', Tiled s.heap bs ∧ memMalloc n s.heap = some (r, h') ∧
      (r = none ↔ ∀ g, g + (memRequest n + sizeofStructMem) ≤ memSizeAligned →
        ∃ a t, sizeAt 0 bs a = some t ∧ g < a + t ∧
          a < g + (memRequest n + sizeofStructMem)) := by
  obtain ⟨t, hrun', bs, ht, hl⟩ := MemSys.exec_good (MemSys.good_init hu hm) hok
  obtain rfl : s = t := Option.some.inj (hrun.symm.trans hrun')
  have hlk := ht.toLinked
  rcases memMalloc_spec ht hn with ⟨h', hcall, -, -, hsmall⟩ |
    ⟨h', xs, k, ys, t, zs, hcall, rfl, hk, -⟩
  · refine ⟨bs, none, h', ht, hcall, iff_of_true rfl fun g hg => ?_⟩
    by_contra hgap
    push Not at hgap
    obtain ⟨b, hb, hfree, hle⟩ := exists_free_of_gap (o := 0) (g := g)
      (n := memRequest n + sizeofStructMem) ht.coalesced hlk.solid
      (by rw [sizeofStructMem_eq]; omega) (Nat.zero_le g) (by rw [hlk.total_eq]; omega)
      fun a u ha => by
        by_contra hcon
        have := hgap a u ha (by omega)
        omega
    have := hsmall b hb hfree
    omega
  · refine ⟨_, _, h', ht, hcall, iff_of_false (by simp) fun hall => ?_⟩
    -- the free block itself is a range that no block in use meets
    have htot := hlk.total_eq
    rw [total_append, total_cons] at htot
    dsimp only at htot
    obtain ⟨a, u, ha, h₁, h₂⟩ := hall (total xs) (by omega)
    rw [sizeAt_append, sizeAt_cons_free, Option.or_eq_some_iff] at ha
    rcases ha with ha | ⟨-, ha⟩
    · have := sizeAt_bounds ha
      omega
    · have := sizeAt_bounds ha
      omega

theorem memMalloc_null_iff_sample :
    ∃ s bs r h', exec MemSys.step sampleInit sampleCalls = some s ∧ Tiled s.heap bs ∧
      memMalloc 23000 s.heap = some (r, h') ∧
      (r = none ↔ ∀ g, g + (memRequest 23000 + sizeofStructMem) ≤ memSizeAligned →
        ∃ a t, sizeAt 0 bs a = some t ∧ g < a + t ∧
          a < g + (memRequest 23000 + sizeofStructMem)) := by
  obtain ⟨s, hrun⟩ : ∃ s, exec MemSys.step sampleInit sampleCalls = some s := ⟨_, rfl⟩
  obtain ⟨bs, r, h', hrest⟩ :=
    memMalloc_null_iff (n := 23000) rfl (by decide) admits_sampleCalls hrun (by decide)
  exact ⟨s, bs, r, h', hrun, hrest⟩

/-- **Nothing is lost.**  When a run has given back everything it was handed, the heap is one
free block again, as after `mem_init`: no byte counts as used, and every request that an empty
heap can serve is served from its start. -/
theorem mem_run_released (hu : stats.used = 0) (hm : stats.max ≤ memSizeAligned)
    (hok : Admits MemSys.step MemSys.Ok (MemSys.init ram stats) es)
    (hrun : exec MemSys.step (MemSys.init ram stats) es = some s)
    (hall : ∀ p, s.owned p = none) :
    Tiled s.heap [⟨memSizeAligned, false⟩] ∧ s.heap.lfree = 0 ∧ s.heap.stats.used = 0 ∧
      ∀ n, n ≠ 0 → n ≤ memSizeAligned - sizeofStructMem →
        ∃ h', memMalloc n s.heap = some (some sizeofStructMem, h') := by
  obtain ⟨t, hrun', bs, ht, hl⟩ := MemSys.exec_good (MemSys.good_init hu hm) hok
  obtain rfl : s = t := Option.some.inj (hrun.symm.trans hrun')
  have hfree : ∀ b ∈ bs, b.used = false := by
    intro b hb
    by_contra hu
    obtain ⟨xs, ys, rfl⟩ := List.append_of_mem hb
    have hb' : b = ⟨b.size, true⟩ := by
      cases b
      simpa using hu
    have hat : sizeAt 0 (xs ++ b :: ys) (0 + total xs) = some b.size := by
      rw [hb']
      exact sizeAt_append_cons (solid_append.mp ht.toLinked.solid).1
    exact hl.used _ _ hat (hall _)
  have h0 : bs ≠ [] := by
    rintro rfl
    exact absurd ht.total_eq (by decide)
  obtain rfl : bs = [⟨memSizeAligned, false⟩] := by
    rw [← ht.total_eq]
    exact eq_singleton_of_coalesced ht.coalesced h0 hfree
  refine ⟨ht, ht.lfree_eq, ht.used_eq, fun n hn hle => ?_⟩
  rcases memMalloc_spec ht hn with ⟨h', -, -, -, hsmall⟩ |
    ⟨h', xs, k, ys, t, zs, hcall, hbs, -⟩
  · exfalso
    have := hsmall ⟨memSizeAligned, false⟩ (by simp) rfl
    rw [memRequest, lwipMemAlignSize, sizeofStructMem_eq, minSizeAligned_eq] at this
    rw [sizeofStructMem_eq] at hle
    simp only [memSizeAligned_eq] at this hle
    split at this <;> omega
  · have hxs : xs = [] := by
      cases xs with
      | nil => rfl
      | cons c cs =>
        have := congrArg List.length hbs
        simp at this
    subst hxs
    rw [total_nil, Nat.zero_add] at hcall
    exact ⟨h', hcall⟩

theorem mem_run_released_sample :
    ∃ s, exec MemSys.step sampleInit [.malloc 100, .free 8] = some s ∧
      Tiled s.heap [⟨memSizeAligned, false⟩] := by
  obtain ⟨s, hrun⟩ : ∃ s, exec MemSys.step sampleInit [.malloc 100, .free 8] = some s := ⟨_, rfl⟩
  have hok : Admits MemSys.step MemSys.Ok sampleInit [.malloc 100, .free 8] := by
    have h₁ : 100 ≤ 65532 := by decide
    refine ⟨h₁, fun s hs => ⟨?_, fun _ _ => trivial⟩⟩
    cases hs
    exact Option.some_ne_none 100
  have hall : ∀ p, s.owned p = none := by
    cases hrun
    intro p
    by_cases hp : p = 8
    · rw [hp]
      rfl
    · exact (Function.update_of_ne hp _ _).trans (Function.update_of_ne hp _ _)
  exact ⟨s, hrun, (mem_run_released rfl (by decide) hok hrun hall).1⟩

end Teensy41Ethernet.Lwip
