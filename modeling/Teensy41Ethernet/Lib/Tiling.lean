import Mathlib.Algebra.GroupWithZero.Nat
import Mathlib.Data.List.Chain
import Mathlib.Logic.Function.Basic
import Mathlib.Tactic.Common

/-!
# Heaps as tilings by blocks

A heap with boundary tags is a row of adjacent blocks, each with a header at its start: the
offset of the next block, the offset of the previous one and a flag for "in use".  The row is
a list of `Block`s; `Laid` says that the headers in memory describe the list.  Nothing here
knows an allocation policy: there is the lowest free offset of a tiling, the blocks in use as
a map from offsets to sizes, and what happens to all of these when the middle of the list is
replaced by something of the same total size, which is what every operation of an allocator
does.
-/

namespace Teensy41Ethernet.Lib.Tiling

/-- A block of a tiling: its size, header included, and whether it is in use. -/
structure Block where
  size : ℕ
  used : Bool
deriving DecidableEq, Repr

/-- A header in memory. -/
structure Link where
  /-- The offset of the next header. -/
  next : ℕ
  /-- The offset of the previous header. -/
  prev : ℕ
  used : Bool
deriving DecidableEq, Repr

variable {ram : ℕ → Link} {p q o a : ℕ} {b c : Block} {bs xs ys : List Block}

/-- The number of bytes a row of blocks takes. -/
def total (bs : List Block) : ℕ := (bs.map Block.size).sum

@[simp] lemma total_nil : total [] = 0 := rfl

@[simp] lemma total_cons : total (b :: bs) = b.size + total bs := by simp [total]

@[simp] lemma total_append : total (xs ++ ys) = total xs + total ys := by simp [total]

lemma size_le_total (h : b ∈ bs) : b.size ≤ total bs := by
  obtain ⟨xs, ys, rfl⟩ := List.append_of_mem h
  rw [total_append, total_cons]
  omega

/-- A row of blocks starts or ends at `a`, counted from the start of `bs`. -/
def Cut (bs : List Block) (a : ℕ) : Prop := ∃ xs ys, bs = xs ++ ys ∧ a = total xs

/-- No block is empty, so that every block has an offset of its own. -/
def Solid (bs : List Block) : Prop := ∀ b ∈ bs, 0 < b.size

lemma solid_cons : Solid (b :: bs) ↔ 0 < b.size ∧ Solid bs := List.forall_mem_cons

lemma Solid.length_le (h : Solid bs) : bs.length ≤ total bs := by
  induction bs with
  | nil => simp
  | cons b bs ih =>
    obtain ⟨hb, hbs⟩ := solid_cons.mp h
    have := ih hbs
    rw [List.length_cons, total_cons]
    omega

lemma solid_append : Solid (xs ++ ys) ↔ Solid xs ∧ Solid ys := List.forall_mem_append

/-- Of two neighbours at least one is in use. -/
def Coalesced (bs : List Block) : Prop := bs.IsChain fun b c => b.used ∨ c.used

/-- The free blocks at the end of a coalesced row are at most one. -/
lemma exists_append_free (hc : Coalesced bs) :
    ∃ xs l, bs = xs ++ l ∧ (l = [] ∨ ∃ t, l = [⟨t, false⟩]) ∧
      ∀ b ∈ xs.getLast?, b.used = true := by
  rcases List.eq_nil_or_concat' bs with rfl | ⟨xs, ⟨t, u⟩, rfl⟩
  · exact ⟨[], [], rfl, Or.inl rfl, by simp⟩
  cases u with
  | true => exact ⟨xs ++ [⟨t, true⟩], [], by simp, Or.inl rfl, by simp⟩
  | false =>
    refine ⟨xs, [⟨t, false⟩], rfl, Or.inr ⟨t, rfl⟩, fun b hb => ?_⟩
    simpa using (List.isChain_append.mp hc).2.2 b hb

/-- The free blocks at the start of a coalesced row are at most one. -/
lemma exists_free_append (hc : Coalesced bs) :
    ∃ l ys, bs = l ++ ys ∧ (l = [] ∨ ∃ t, l = [⟨t, false⟩]) ∧ ∀ b ∈ ys.head?, b.used = true := by
  match bs, hc with
  | [], _ => exact ⟨[], [], rfl, Or.inl rfl, by simp⟩
  | ⟨t, true⟩ :: ys, _ => exact ⟨[], ⟨t, true⟩ :: ys, rfl, Or.inl rfl, by simp⟩
  | ⟨t, false⟩ :: ys, hc =>
    refine ⟨[⟨t, false⟩], ys, rfl, Or.inr ⟨t, rfl⟩, fun b hb => ?_⟩
    simpa using (List.isChain_cons.mp hc).1 b hb

/-- A free block between rows that end and start with blocks in use. -/
lemma coalesced_free {t : ℕ} (hxs : Coalesced xs) (hys : Coalesced ys)
    (hl : ∀ b ∈ xs.getLast?, b.used = true) (hr : ∀ b ∈ ys.head?, b.used = true) :
    Coalesced (xs ++ ⟨t, false⟩ :: ys) := by
  refine List.isChain_append.mpr ⟨hxs, ?_, fun b hb c _ => Or.inl (hl b hb)⟩
  exact List.isChain_cons.mpr ⟨fun b hb => Or.inr (hr b hb), hys⟩

/-- A block in use between any two rows. -/
lemma coalesced_used {t : ℕ} (hxs : Coalesced xs) (hys : Coalesced ys) :
    Coalesced (xs ++ ⟨t, true⟩ :: ys) := by
  refine List.isChain_append.mpr ⟨hxs, ?_, ?_⟩
  · exact List.isChain_cons.mpr ⟨fun b _ => Or.inl rfl, hys⟩
  · intro b _ c hc
    obtain rfl : ⟨t, true⟩ = c := by simpa using hc
    exact Or.inr rfl

lemma Coalesced.parts (h : Coalesced (xs ++ b :: ys)) : Coalesced xs ∧ Coalesced ys := by
  obtain ⟨hxs, hb, -⟩ := List.isChain_append.mp h
  exact ⟨hxs, hb.tail⟩

/-! ### Headers in memory -/

/-- The headers from offset `o` on describe the blocks `bs`; `p` is what the first one has as
its predecessor. -/
def Laid (ram : ℕ → Link) : ℕ → ℕ → List Block → Prop
  | _, _, [] => True
  | p, o, b :: bs => ram o = ⟨o + b.size, p, b.used⟩ ∧ Laid ram o (o + b.size) bs

/-- The offset of the last block of a row, `p` if there is none. -/
def lastOff : ℕ → ℕ → List Block → ℕ
  | p, _, [] => p
  | _, o, b :: bs => lastOff o (o + b.size) bs

@[simp] lemma laid_nil : Laid ram p o [] := trivial

lemma laid_cons :
    Laid ram p o (b :: bs) ↔ ram o = ⟨o + b.size, p, b.used⟩ ∧ Laid ram o (o + b.size) bs :=
  Iff.rfl

lemma laid_append :
    Laid ram p o (xs ++ ys) ↔
      Laid ram p o xs ∧ Laid ram (lastOff p o xs) (o + total xs) ys := by
  induction xs generalizing p o with
  | nil => simp [lastOff]
  | cons x xs ih =>
    rw [List.cons_append, laid_cons, laid_cons, ih, lastOff, total_cons, Nat.add_assoc]
    exact and_assoc.symm

lemma lastOff_append_singleton : lastOff p o (xs ++ [b]) = o + total xs := by
  induction xs generalizing p o with
  | nil => simp [lastOff]
  | cons x xs ih => rw [List.cons_append, lastOff, ih, total_cons, Nat.add_assoc]

/-- The rows only read the headers inside of them. -/
lemma Laid.congr {ram' : ℕ → Link} (hs : Solid bs)
    (hram : ∀ a, o ≤ a → a < o + total bs → ram' a = ram a) (h : Laid ram p o bs) :
    Laid ram' p o bs := by
  induction bs generalizing p o with
  | nil => trivial
  | cons b bs ih =>
    rw [total_cons] at hram
    obtain ⟨hb, hbs⟩ := solid_cons.mp hs
    refine ⟨?_, ih hbs (fun a ha ha' => hram a (by omega) (by omega)) h.2⟩
    rw [hram o le_rfl (by omega), h.1]

/-- More precisely they only read the headers at the borders of the blocks. -/
lemma Laid.congr_cut {ram' : ℕ → Link}
    (hram : ∀ a, Cut bs a → ram' (o + a) = ram (o + a)) (h : Laid ram p o bs) :
    Laid ram' p o bs := by
  induction bs generalizing p o with
  | nil => trivial
  | cons b bs ih =>
    refine ⟨?_, ih ?_ h.2⟩
    · have := hram 0 ⟨[], b :: bs, rfl, rfl⟩
      rw [Nat.add_zero] at this
      rw [this, h.1]
    · rintro a ⟨xs, ys, rfl, rfl⟩
      have := hram (total (b :: xs)) ⟨b :: xs, ys, rfl, rfl⟩
      rwa [total_cons, ← Nat.add_assoc] at this

/-- A write outside of a row leaves it as it is. -/
lemma Laid.update {v : Link} (hs : Solid bs) (ha : a < o ∨ o + total bs ≤ a)
    (h : Laid ram p o bs) : Laid (Function.update ram a v) p o bs :=
  h.congr hs fun c hc hc' => Function.update_of_ne (by omega) _ _

/-- The header at `o` with a new predecessor. -/
def setPrev (ram : ℕ → Link) (o q : ℕ) : ℕ → Link :=
  Function.update ram o { ram o with prev := q }

/-- The header at `o` with a new successor. -/
def setNext (ram : ℕ → Link) (o q : ℕ) : ℕ → Link :=
  Function.update ram o { ram o with next := q }

/-- The header at `o` with a new flag. -/
def setUsed (ram : ℕ → Link) (o : ℕ) (u : Bool) : ℕ → Link :=
  Function.update ram o { ram o with used := u }

@[simp] lemma setPrev_used (x : ℕ) : (setPrev ram o q x).used = (ram x).used := by
  by_cases hx : x = o
  · rw [hx, setPrev, Function.update_self]
  · rw [setPrev, Function.update_of_ne hx]

@[simp] lemma setNext_used (x : ℕ) : (setNext ram o q x).used = (ram x).used := by
  by_cases hx : x = o
  · rw [hx, setNext, Function.update_self]
  · rw [setNext, Function.update_of_ne hx]

/-- A new predecessor for the first block of a row, or for what follows an empty row. -/
lemma Laid.setPrev (hs : Solid bs) (h : Laid ram p o bs) : Laid (setPrev ram o q) q o bs := by
  cases bs with
  | nil => trivial
  | cons b bs =>
    obtain ⟨hb, hbs⟩ := solid_cons.mp hs
    refine ⟨?_, Laid.update hbs (Or.inl (by omega)) h.2⟩
    rw [Tiling.setPrev, Function.update_self, h.1]

/-- The block at the end of `xs` and the one after it become one block: the first header and
the one behind the second block are linked with each other. -/
lemma Laid.merge {s t : ℕ} {u v : Bool} (hs : Solid (xs ++ ⟨s, u⟩ :: ⟨t, v⟩ :: ys))
    (h : Laid ram p o (xs ++ ⟨s, u⟩ :: ⟨t, v⟩ :: ys)) :
    Laid (Tiling.setPrev (setNext ram (o + total xs) (o + total xs + s + t))
      (o + total xs + s + t) (o + total xs)) p o (xs ++ ⟨s + t, u⟩ :: ys) := by
  obtain ⟨hxs, hb, hc, hys⟩ := laid_append.mp h
  obtain ⟨hsx, hsb⟩ := solid_append.mp hs
  obtain ⟨hpos, hsc⟩ := solid_cons.mp hsb
  obtain ⟨hpos', hsy⟩ := solid_cons.mp hsc
  dsimp only at hpos hpos' hb hc hys
  refine laid_append.mpr ⟨?_, ?_, ?_⟩
  · exact (hxs.update hsx (Or.inr (by omega))).update hsx (Or.inr (by omega))
  · rw [Tiling.setPrev, Function.update_of_ne (by omega), setNext, Function.update_self, hb]
    simp [Nat.add_assoc]
  · rw [← Nat.add_assoc]
    exact (hys.update hsy (Or.inl (by omega))).setPrev hsy

/-! ### The lowest free block -/

/-- The offset of the first block that is not in use, or the end of the row. -/
def lowestFree : ℕ → List Block → ℕ
  | o, [] => o
  | o, b :: bs => if b.used then lowestFree (o + b.size) bs else o

/-- Every block of the row is in use. -/
def Full (bs : List Block) : Prop := ∀ b ∈ bs, b.used = true

lemma full_cons : Full (b :: bs) ↔ b.used = true ∧ Full bs := List.forall_mem_cons

lemma lowestFree_le : lowestFree o bs ≤ o + total bs := by
  induction bs generalizing o with
  | nil => simp [lowestFree]
  | cons b bs ih =>
    rw [lowestFree, total_cons]
    split
    · exact ih.trans (by omega)
    · omega

lemma le_lowestFree (o : ℕ) (bs : List Block) : o ≤ lowestFree o bs := by
  induction bs generalizing o with
  | nil => simp [lowestFree]
  | cons b bs ih =>
    rw [lowestFree]
    split
    · exact (Nat.le_add_right _ _).trans (ih _)
    · exact le_rfl

lemma lowestFree_append_of_full (h : Full xs) :
    lowestFree o (xs ++ ys) = lowestFree (o + total xs) ys := by
  induction xs generalizing o with
  | nil => simp
  | cons x xs ih =>
    obtain ⟨hx, hxs⟩ := full_cons.mp h
    rw [List.cons_append, lowestFree, if_pos hx, ih hxs, total_cons, Nat.add_assoc]

lemma lowestFree_append_of_not_full (h : ¬ Full xs) :
    lowestFree o (xs ++ ys) = lowestFree o xs := by
  induction xs generalizing o with
  | nil => exact absurd (fun b hb => absurd hb List.not_mem_nil) h
  | cons x xs ih =>
    rw [List.cons_append, lowestFree, lowestFree]
    split
    next hx => exact ih fun hxs => h (full_cons.mpr ⟨hx, hxs⟩)
    next => rfl

lemma lowestFree_lt_of_not_full (hs : Solid xs) (h : ¬ Full xs) :
    lowestFree o xs < o + total xs := by
  induction xs generalizing o with
  | nil => exact absurd (fun b hb => absurd hb List.not_mem_nil) h
  | cons x xs ih =>
    obtain ⟨hx, hxs⟩ := solid_cons.mp hs
    rw [lowestFree, total_cons]
    split
    next hu =>
      have := ih hxs (o := o + x.size) fun hf => h (full_cons.mpr ⟨hu, hf⟩)
      omega
    next => omega

/-- A free block bounds the lowest free offset. -/
lemma lowestFree_append_free_le (hb : b.used = false) :
    lowestFree o (xs ++ b :: ys) ≤ o + total xs := by
  by_cases h : Full xs
  · rw [lowestFree_append_of_full h, lowestFree, if_neg (by simp [hb])]
  · rw [lowestFree_append_of_not_full h]
    exact lowestFree_le

/-- Behind a free block nothing matters. -/
lemma lowestFree_append_free (hb : b.used = false) (hc : c.used = false) (ys' : List Block) :
    lowestFree o (xs ++ b :: ys) = lowestFree o (xs ++ c :: ys') := by
  by_cases h : Full xs
  · rw [lowestFree_append_of_full h, lowestFree_append_of_full h, lowestFree, lowestFree,
      if_neg (by simp [hb]), if_neg (by simp [hc])]
  · rw [lowestFree_append_of_not_full h, lowestFree_append_of_not_full h]

/-- Freeing a block: the lowest free offset is the smaller of the old one and the block's. -/
lemma lowestFree_free (hs : Solid (xs ++ b :: ys)) (hb : b.used = true) (hc : c.used = false) :
    lowestFree o (xs ++ c :: ys) =
      if o + total xs < lowestFree o (xs ++ b :: ys) then o + total xs
      else lowestFree o (xs ++ b :: ys) := by
  by_cases h : Full xs
  · rw [lowestFree_append_of_full h, lowestFree_append_of_full h, lowestFree, lowestFree,
      if_neg (by simp [hc]), if_pos hb, if_pos]
    have hpos : 0 < b.size := hs b (by simp)
    exact lt_of_lt_of_le (by omega) (le_lowestFree _ _)
  · have := lowestFree_lt_of_not_full (o := o) (solid_append.mp hs).1 h
    rw [lowestFree_append_of_not_full h, lowestFree_append_of_not_full h, if_neg (by omega)]

/-! ### The blocks in use -/

/-- The size of the block in use that starts at offset `a`. -/
def sizeAt : ℕ → List Block → ℕ → Option ℕ
  | _, [], _ => none
  | o, b :: bs, a => if a = o ∧ b.used then some b.size else sizeAt (o + b.size) bs a

/-- A block in use lies inside of the row. -/
lemma sizeAt_bounds {s : ℕ} (h : sizeAt o bs a = some s) : o ≤ a ∧ a + s ≤ o + total bs := by
  induction bs generalizing o with
  | nil => exact absurd h (by simp [sizeAt])
  | cons b bs ih =>
    rw [sizeAt] at h
    rw [total_cons]
    split at h
    next hb =>
      obtain rfl := Option.some.inj h
      omega
    next =>
      have := ih h
      omega

lemma sizeAt_of_lt (h : a < o) : sizeAt o bs a = none := by
  refine Option.eq_none_iff_forall_ne_some.mpr fun s hs => ?_
  have := (sizeAt_bounds hs).1
  omega

lemma sizeAt_append :
    sizeAt o (xs ++ ys) a = (sizeAt o xs a).or (sizeAt (o + total xs) ys a) := by
  induction xs generalizing o with
  | nil => simp [sizeAt]
  | cons x xs ih =>
    rw [List.cons_append, sizeAt, sizeAt, total_cons, ← Nat.add_assoc]
    split
    · rfl
    · exact ih

lemma mem_of_sizeAt {s : ℕ} (h : sizeAt o bs a = some s) : ⟨s, true⟩ ∈ bs := by
  induction bs generalizing o with
  | nil => exact absurd h (by simp [sizeAt])
  | cons b bs ih =>
    rw [sizeAt] at h
    split at h
    next hb =>
      obtain rfl := Option.some.inj h
      rw [← hb.2]
      exact List.mem_cons_self
    next => exact List.mem_cons_of_mem b (ih h)

/-- Two blocks in use do not overlap. -/
lemma sizeAt_disjoint {a' s s' : ℕ} (h : sizeAt o bs a = some s) (h' : sizeAt o bs a' = some s')
    (hne : a ≠ a') : a + s ≤ a' ∨ a' + s' ≤ a := by
  induction bs generalizing o with
  | nil => exact absurd h (by simp [sizeAt])
  | cons b bs ih =>
    rw [sizeAt] at h h'
    split at h <;> split at h'
    next hb hb' => omega
    next hb hb' =>
      obtain rfl := Option.some.inj h
      have := (sizeAt_bounds h').1
      omega
    next hb hb' =>
      obtain rfl := Option.some.inj h'
      have := (sizeAt_bounds h).1
      omega
    next => exact ih h h'

/-- The border between two blocks is not inside of a third. -/
lemma sizeAt_cut {s : ℕ} (h : sizeAt 0 bs a = some s) (hc : Cut bs p) : p ≤ a ∨ a + s ≤ p := by
  obtain ⟨xs, ys, rfl, rfl⟩ := hc
  rw [sizeAt_append, Option.or_eq_some_iff] at h
  rcases h with h | ⟨-, h⟩
  · have := sizeAt_bounds h
    omega
  · have := sizeAt_bounds h
    omega

/-- The place of a block in use. -/
lemma exists_eq_append_of_sizeAt {s : ℕ} (h : sizeAt o bs a = some s) :
    ∃ xs ys, bs = xs ++ ⟨s, true⟩ :: ys ∧ a = o + total xs := by
  induction bs generalizing o with
  | nil => exact absurd h (by simp [sizeAt])
  | cons b bs ih =>
    rw [sizeAt] at h
    split at h
    next hb =>
      obtain rfl := Option.some.inj h
      exact ⟨[], bs, by simp [← hb.2], by simp [hb.1]⟩
    next =>
      obtain ⟨xs, ys, rfl, rfl⟩ := ih h
      exact ⟨b :: xs, ys, rfl, by simp [Nat.add_assoc]⟩

lemma sizeAt_append_cons (hs : Solid xs) :
    sizeAt o (xs ++ ⟨b.size, true⟩ :: ys) (o + total xs) = some b.size := by
  induction xs generalizing o with
  | nil => simp [sizeAt]
  | cons x xs ih =>
    obtain ⟨hx, hxs⟩ := solid_cons.mp hs
    rw [List.cons_append, sizeAt, total_cons, if_neg (by omega), ← Nat.add_assoc, ih hxs]

lemma sizeAt_cons_free {s : ℕ} : sizeAt o (⟨s, false⟩ :: bs) = sizeAt (o + s) bs := by
  funext a
  rw [sizeAt, if_neg (by simp)]

lemma sizeAt_append_free (h : ∀ b ∈ xs, b.used = false) :
    sizeAt o (xs ++ ys) = sizeAt (o + total xs) ys := by
  induction xs generalizing o with
  | nil => simp
  | cons x xs ih =>
    obtain ⟨hx, hxs⟩ := List.forall_mem_cons.mp h
    cases x
    obtain rfl := hx
    rw [List.cons_append, sizeAt_cons_free, ih hxs, total_cons, Nat.add_assoc]

/-- One block of a row is resized, marked or both, and behind it the blocks in use are the
same: the map of blocks in use changes at the block. -/
lemma sizeAt_set {s t : ℕ} {u v : Bool} {zs : List Block}
    (hs : Solid (xs ++ ⟨s, v⟩ :: ys))
    (hzs : sizeAt (o + total xs + t) zs = sizeAt (o + total xs + s) ys) :
    sizeAt o (xs ++ ⟨t, u⟩ :: zs) =
      Function.update (sizeAt o (xs ++ ⟨s, v⟩ :: ys)) (o + total xs)
        (if u then some t else none) := by
  obtain ⟨hsx, hsb⟩ := solid_append.mp hs
  have hpos : 0 < s := (solid_cons.mp hsb).1
  funext a
  rw [sizeAt_append, sizeAt, hzs]
  by_cases ha : a = o + total xs
  · subst ha
    have hxs : sizeAt o xs (o + total xs) = none := by
      refine Option.eq_none_iff_forall_ne_some.mpr fun s hs' => ?_
      have hb := sizeAt_bounds hs'
      have := hsx _ (mem_of_sizeAt hs')
      dsimp only at this
      omega
    rw [Function.update_self, hxs, Option.none_or, sizeAt_of_lt (by omega)]
    simp
  · rw [Function.update_of_ne ha, sizeAt_append, sizeAt]
    simp [ha]

/-- In a coalesced row a range of bytes that no block in use meets is inside of one free
block. -/
lemma exists_free_of_gap {g n : ℕ} (hc : Coalesced bs) (hs : Solid bs) (hn : 0 < n) (hog : o ≤ g)
    (hg : g + n ≤ o + total bs)
    (hgap : ∀ a s, sizeAt o bs a = some s → a + s ≤ g ∨ g + n ≤ a) :
    ∃ b ∈ bs, b.used = false ∧ n ≤ b.size := by
  induction bs generalizing o with
  | nil =>
    rw [total_nil] at hg
    omega
  | cons b bs ih =>
    obtain ⟨hpos, hsolid⟩ := solid_cons.mp hs
    rw [total_cons] at hg
    have hrec : o + b.size ≤ g → ∃ c ∈ b :: bs, c.used = false ∧ n ≤ c.size := by
      intro hle
      obtain ⟨c, hmem, hfree⟩ := ih (List.isChain_cons.mp hc).2 hsolid hle (by omega)
        fun a s ha => hgap a s <| by
          rw [sizeAt, if_neg fun h => by have := (sizeAt_bounds ha).1; omega, ha]
      exact ⟨c, List.mem_cons_of_mem b hmem, hfree⟩
    by_cases hu : b.used = true
    · have := hgap o b.size (by rw [sizeAt, if_pos ⟨rfl, hu⟩])
      exact hrec (by omega)
    · by_cases hin : g + n ≤ o + b.size
      · exact ⟨b, List.mem_cons_self, by simpa using hu, by omega⟩
      · refine hrec ?_
        -- the range reaches into the next block, which is in use
        cases bs with
        | nil =>
          rw [total_nil] at hg
          omega
        | cons c cs =>
          have hcu : c.used = true := by
            simpa [hu] using (List.isChain_cons_cons.mp hc).1
          have hpos' := (solid_cons.mp hsolid).1
          have := hgap (o + b.size) c.size (by
            rw [sizeAt, if_neg (by omega), sizeAt, if_pos ⟨rfl, hcu⟩])
          omega

/-! ### First fit -/

/-- The offset of the first free block of at least `n` bytes. -/
def firstFit (n : ℕ) : ℕ → List Block → Option ℕ
  | _, [] => none
  | o, b :: bs => if b.used = false ∧ n ≤ b.size then some o else firstFit n (o + b.size) bs

lemma firstFit_eq_none {n : ℕ} :
    firstFit n o bs = none ↔ ∀ b ∈ bs, b.used = false → b.size < n := by
  induction bs generalizing o with
  | nil => simp [firstFit]
  | cons b bs ih =>
    rw [firstFit, List.forall_mem_cons, ← ih (o := o + b.size)]
    split
    next hb => simp [hb.1, hb.2]
    next hb =>
      rw [not_and, not_le] at hb
      exact (and_iff_right hb).symm

lemma exists_eq_append_of_firstFit {n : ℕ} (h : firstFit n o bs = some a) :
    ∃ xs s ys, bs = xs ++ ⟨s, false⟩ :: ys ∧ a = o + total xs ∧ n ≤ s ∧
      ∀ b ∈ xs, b.used = false → b.size < n := by
  induction bs generalizing o with
  | nil => exact absurd h (by simp [firstFit])
  | cons b bs ih =>
    rw [firstFit] at h
    split at h
    next hb =>
      obtain rfl := Option.some.inj h
      refine ⟨[], b.size, bs, ?_, by simp, hb.2, by simp⟩
      rw [← hb.1]
      rfl
    next hb =>
      obtain ⟨xs, s, ys, rfl, rfl, hn, hxs⟩ := ih h
      rw [not_and, not_le] at hb
      exact ⟨b :: xs, s, ys, rfl, by simp [Nat.add_assoc], hn,
        List.forall_mem_cons.mpr ⟨hb, hxs⟩⟩

/-- The blocks before the lowest free one may be passed over. -/
lemma firstFit_lowestFree (n o : ℕ) (bs : List Block) :
    ∃ xs ys, bs = xs ++ ys ∧ lowestFree o bs = o + total xs ∧
      firstFit n o bs = firstFit n (o + total xs) ys := by
  induction bs generalizing o with
  | nil => exact ⟨[], [], rfl, by simp [lowestFree], by simp⟩
  | cons b bs ih =>
    by_cases hb : b.used = true
    · obtain ⟨xs, ys, rfl, hl, hf⟩ := ih (o + b.size)
      refine ⟨b :: xs, ys, rfl, ?_, ?_⟩
      · rw [lowestFree, if_pos hb, hl, total_cons, Nat.add_assoc]
      · rw [firstFit, if_neg (by simp [hb]), hf, total_cons, Nat.add_assoc]
    · exact ⟨[], b :: bs, rfl, by simp [lowestFree, hb], by simp⟩

/-! ### Bytes in use -/

/-- The bytes of the blocks in use. -/
def usedBytes (bs : List Block) : ℕ := total (bs.filter Block.used)

@[simp] lemma usedBytes_append : usedBytes (xs ++ ys) = usedBytes xs + usedBytes ys := by
  simp [usedBytes]

@[simp] lemma usedBytes_cons :
    usedBytes (b :: bs) = (if b.used then b.size else 0) + usedBytes bs := by
  by_cases hb : b.used <;> simp [usedBytes, hb]

@[simp] lemma usedBytes_nil : usedBytes [] = 0 := rfl

lemma usedBytes_le (bs : List Block) : usedBytes bs ≤ total bs := by
  induction bs with
  | nil => simp
  | cons b bs ih =>
    rw [usedBytes_cons, total_cons]
    split <;> omega

/-- A tiling without a block in use that is coalesced is a single free block. -/
lemma eq_singleton_of_coalesced (hc : Coalesced bs) (h0 : bs ≠ [])
    (hfree : ∀ b ∈ bs, b.used = false) : bs = [⟨total bs, false⟩] := by
  obtain ⟨b, bs, rfl⟩ := List.exists_cons_of_ne_nil h0
  cases bs with
  | nil =>
    have hb : b.used = false := hfree b (by simp)
    cases b
    simp_all
  | cons c cs =>
    exfalso
    have hbc := (List.isChain_cons_cons.mp hc).1
    rw [hfree b (by simp), hfree c (by simp)] at hbc
    simp at hbc

end Teensy41Ethernet.Lib.Tiling
