import Teensy41Ethernet.Lib.Tiling

/-!
# The heap of the stack (`core/mem.c`)

`mem_init`, `mem_malloc`, `mem_free` with `plug_holes`, and `mem_trim`, on the array `ram` of
`MEM_SIZE` bytes.  The array is seen through its headers: `ram o` is the `struct mem` that is
read at offset `o`.  Pointers are offsets from the start of the array, and the end marker
`ram_end` is the header at `MEM_SIZE_ALIGNED`.

`LWIP_ASSERT` does nothing in this build (`arch/cc.h` without `LWIP_DEBUG`), and neither does
it here: the conditions are collected in the ghost field `asserts`.  A function returns `none`
when a loop over the headers does not end, or when a pointer has no room for a header before
it.

Every operation is followed by what it does to the row of blocks of `Lib.Tiling` that the
headers describe.
-/

namespace Teensy41Ethernet.Lwip

open Lib.Tiling

/-- `LWIP_MEM_ALIGN_SIZE` with `MEM_ALIGNMENT` 4. -/
def lwipMemAlignSize (size : ℕ) : ℕ := (size + 4 - 1) / 4 * 4

/-- `MEM_SIZE_ALIGNED`, for the `MEM_SIZE` of `lwipopts.h`. -/
def memSizeAligned : ℕ := lwipMemAlignSize 24000

/-- `SIZEOF_STRUCT_MEM`: two offsets of two bytes and a byte, padded to 6, aligned. -/
def sizeofStructMem : ℕ := lwipMemAlignSize 6

/-- `MIN_SIZE_ALIGNED`. -/
def minSizeAligned : ℕ := lwipMemAlignSize 12

lemma memSizeAligned_eq : memSizeAligned = 24000 := rfl

lemma sizeofStructMem_eq : sizeofStructMem = 8 := rfl

lemma minSizeAligned_eq : minSizeAligned = 12 := rfl

/-- `lwip_stats.mem`: counters of 16 bits. -/
structure StatsMem where
  err : ℕ
  avail : ℕ
  used : ℕ
  max : ℕ
  illegal : ℕ
deriving DecidableEq, Repr

/-- `STATS_INC_USED`. -/
def StatsMem.incUsed (s : StatsMem) (y : ℕ) : StatsMem :=
  let used := (s.used + y) % 65536
  { s with used := used, max := if s.max < used then used else s.max }

/-- `MEM_STATS_DEC_USED`. -/
def StatsMem.decUsed (s : StatsMem) (y : ℕ) : StatsMem :=
  { s with used := (s.used + (65536 - y % 65536)) % 65536 }

/-- The static variables of `mem.c`, the statistics, and whether every `LWIP_ASSERT` so far
was right. -/
structure Heap where
  ram : ℕ → Link
  lfree : ℕ
  stats : StatsMem
  asserts : Bool

/-- `LWIP_ASSERT`. -/
def Heap.assert (h : Heap) (c : Prop) [Decidable c] : Heap :=
  { h with asserts := h.asserts && decide c }

/-- An assertion that holds changes nothing. -/
lemma Heap.assert_of (h : Heap) {c : Prop} [Decidable c] (hc : c) : h.assert c = h := by
  simp [Heap.assert, hc]

/-! ### The code -/

/-- `mem_init`; the array may hold anything before. -/
def memInit (ram : ℕ → Link) (stats : StatsMem) : Heap where
  ram := Function.update (Function.update ram 0 ⟨memSizeAligned, 0, false⟩) memSizeAligned
    ⟨memSizeAligned, memSizeAligned, true⟩
  lfree := 0
  stats := { stats with avail := memSizeAligned }
  asserts := sizeofStructMem % 4 = 0

/-- The first half of `plug_holes`: the block after `mem` is merged into it if it is free. -/
def plugForward (mem : ℕ) (h : Heap) : Heap :=
  let nmem := (h.ram mem).next
  if mem ≠ nmem ∧ (h.ram nmem).used = false ∧ nmem ≠ memSizeAligned then
    { h with
      lfree := if h.lfree = nmem then mem else h.lfree
      ram := setPrev (setNext h.ram mem (h.ram nmem).next) (h.ram nmem).next mem }
  else h

/-- The second half: `mem` is merged into the block before it if that is free. -/
def plugBackward (mem : ℕ) (h : Heap) : Heap :=
  let pmem := (h.ram mem).prev
  if pmem ≠ mem ∧ (h.ram pmem).used = false then
    { h with
      lfree := if h.lfree = mem then pmem else h.lfree
      ram := setPrev (setNext h.ram pmem (h.ram mem).next) (h.ram mem).next pmem }
  else h

/-- `plug_holes`. -/
def plugHoles (mem : ℕ) (h : Heap) : Heap :=
  let h := h.assert (mem < memSizeAligned ∧ (h.ram mem).used = false ∧
    (h.ram mem).next ≤ memSizeAligned)
  plugBackward mem (plugForward mem h)

/-- The header of a block that is given back, before the holes are plugged. -/
def memRelease (mem : ℕ) (h : Heap) : Heap :=
  { h with
    ram := setUsed h.ram mem false
    lfree := if mem < h.lfree then mem else h.lfree
    stats := h.stats.decUsed ((h.ram mem).next - mem) }

/-- `mem_free`, for a pointer that is not `NULL`. -/
def memFree (rmem : ℕ) (h : Heap) : Option Heap :=
  let h := h.assert (rmem % 4 = 0 ∧ rmem < memSizeAligned)
  if memSizeAligned ≤ rmem then
    some { h with stats := { h.stats with illegal := (h.stats.illegal + 1) % 65536 } }
  else if rmem < sizeofStructMem then none
  else
    let mem := rmem - sizeofStructMem
    some (plugHoles mem (memRelease mem (h.assert ((h.ram mem).used = true))))

/-- The size of the block that is looked for: aligned, in 16 bits, and at least the minimum. -/
def memRequest (size : ℕ) : ℕ :=
  let size := lwipMemAlignSize size % 65536
  if size < minSizeAligned then minSizeAligned else size

/-- A free header at `ptr2`, behind the block at `ptr` and in front of `next`. -/
def memInsert (ram : ℕ → Link) (ptr ptr2 next : ℕ) (used : Bool) : ℕ → Link :=
  let ram := Function.update ram ptr2 ⟨next, ptr, false⟩
  let ram := Function.update ram ptr ⟨ptr2, (ram ptr).prev, used⟩
  if next ≠ memSizeAligned then setPrev ram next ptr2 else ram

/-- `mem_trim`: the pointer it returns, `none` for `NULL`. -/
def memTrim (rmem newsize : ℕ) (h : Heap) : Option (Option ℕ × Heap) :=
  let newsize := memRequest newsize
  if memSizeAligned < newsize then some (none, h) else
  let h := h.assert (rmem < memSizeAligned)
  if memSizeAligned ≤ rmem then
    some (some rmem,
      { h with stats := { h.stats with illegal := (h.stats.illegal + 1) % 65536 } })
  else if rmem < sizeofStructMem then none
  else
    let ptr := rmem - sizeofStructMem
    let size := (h.ram ptr).next - ptr - sizeofStructMem
    let h := h.assert (newsize ≤ size)
    if size < newsize then some (none, h)
    else if newsize = size then some (some rmem, h)
    else
      let mem2 := (h.ram ptr).next
      let ptr2 := ptr + sizeofStructMem + newsize
      if (h.ram mem2).used = false then
        -- the next block is free: it is moved down
        some (some rmem,
          { h with
            lfree := if h.lfree = mem2 then ptr2 else h.lfree
            ram := memInsert h.ram ptr ptr2 (h.ram mem2).next (h.ram ptr).used
            stats := h.stats.decUsed (size - newsize) })
      else if newsize + sizeofStructMem + minSizeAligned ≤ size then
        some (some rmem,
          { h with
            lfree := if ptr2 < h.lfree then ptr2 else h.lfree
            ram := memInsert h.ram ptr ptr2 mem2 (h.ram ptr).used
            stats := h.stats.decUsed (size - newsize) })
      else some (some rmem, h)

/-- The loop of `mem_malloc` over the headers from `ptr` on: the first free block with room
for `size` bytes, `some none` if there is none. -/
def memScan (ram : ℕ → Link) (size : ℕ) : ℕ → ℕ → Option (Option ℕ)
  | 0, _ => none
  | fuel + 1, ptr =>
      if ptr < memSizeAligned - size then
        if (ram ptr).used = false ∧ size ≤ (ram ptr).next - (ptr + sizeofStructMem) then
          some (some ptr)
        else memScan ram size fuel (ram ptr).next
      else some none

/-- The block at `ptr` is taken, and split if the rest can hold a block. -/
def memTake (ptr size : ℕ) (h : Heap) : Heap :=
  let next := (h.ram ptr).next
  if size + sizeofStructMem + minSizeAligned ≤ next - (ptr + sizeofStructMem) then
    { h with
      ram := memInsert h.ram ptr (ptr + sizeofStructMem + size) next true
      stats := h.stats.incUsed (size + sizeofStructMem) }
  else
    { h with
      ram := setUsed h.ram ptr true
      stats := h.stats.incUsed (next - ptr) }

/-- The loop that looks for the next free block after the lowest one was taken. -/
def memAdvance (ram : ℕ → Link) : ℕ → ℕ → Option ℕ
  | 0, _ => none
  | fuel + 1, cur =>
      if (ram cur).used = true ∧ cur ≠ memSizeAligned then memAdvance ram fuel (ram cur).next
      else some cur

/-- `lfree` after the block at `mem` was taken. -/
def memAdjustLfree (mem : ℕ) (h : Heap) : Option Heap :=
  if mem = h.lfree then
    (memAdvance h.ram (memSizeAligned + 1) h.lfree).map fun cur =>
      { h with lfree := cur }.assert (cur = memSizeAligned ∨ (h.ram cur).used = false)
  else some h

/-- `mem_malloc`: the pointer it returns, `none` for `NULL`. -/
def memMalloc (size : ℕ) (h : Heap) : Option (Option ℕ × Heap) :=
  if size = 0 then some (none, h) else
  let size := memRequest size
  if memSizeAligned < size then some (none, h) else
  (memScan h.ram size (memSizeAligned + 1) h.lfree).bind fun r =>
    match r with
    | none =>
        some (none, { h with stats := { h.stats with err := (h.stats.err + 1) % 65536 } })
    | some mem =>
        (memAdjustLfree mem (memTake mem size h)).map fun h =>
          (some (mem + sizeofStructMem),
            h.assert (mem + sizeofStructMem + size ≤ memSizeAligned ∧
              (mem + sizeofStructMem) % 4 = 0 ∧ mem % 4 = 0))

/-! ### The row of blocks -/

variable {h : Heap} {bs xs ys : List Block} {b : Block} {s t : ℕ}

/-- The headers describe the blocks `bs`, and `lfree` is the lowest free one.  Two free blocks
may be neighbours. -/
structure Linked (h : Heap) (bs : List Block) : Prop where
  laid : Laid h.ram 0 0 bs
  /-- The end marker is never free. -/
  stop : (h.ram memSizeAligned).used = true
  total_eq : total bs = memSizeAligned
  /-- Every block has room for its header and the minimum of data, and is aligned. -/
  sizes : ∀ b ∈ bs, sizeofStructMem + minSizeAligned ≤ b.size ∧ b.size % 4 = 0
  lfree_eq : h.lfree = lowestFree 0 bs
  /-- The statistics count the blocks in use. -/
  used_eq : h.stats.used = usedBytes bs
  used_le_max : h.stats.used ≤ h.stats.max
  max_le : h.stats.max ≤ memSizeAligned
  asserts_eq : h.asserts = true

/-- The state between two calls: in addition, no two neighbours are free. -/
structure Tiled (h : Heap) (bs : List Block) : Prop extends Linked h bs where
  coalesced : Coalesced bs

lemma Linked.solid (hl : Linked h bs) : Solid bs := fun b hb => by
  have := (hl.sizes b hb).1
  rw [sizeofStructMem_eq] at this
  omega

/-- The parts of the row around a block. -/
lemma Linked.split (hl : Linked h (xs ++ b :: ys)) :
    Laid h.ram 0 0 xs ∧ h.ram (total xs) = ⟨total xs + b.size, lastOff 0 0 xs, b.used⟩ ∧
      Laid h.ram (total xs) (total xs + b.size) ys ∧ total xs + b.size + total ys = memSizeAligned ∧
      Solid xs ∧ Solid ys ∧ sizeofStructMem + minSizeAligned ≤ b.size := by
  obtain ⟨hxs, hb, hys⟩ := laid_append.mp hl.laid |>.imp_right laid_cons.mp
  obtain ⟨hsx, hsb⟩ := solid_append.mp hl.solid
  rw [Nat.zero_add] at hb hys
  have ht := hl.total_eq
  rw [total_append, total_cons] at ht
  exact ⟨hxs, hb, hys, by omega, hsx, (solid_cons.mp hsb).2, (hl.sizes b (by simp)).1⟩

/-- After `mem_init` the heap is one free block. -/
lemma tiled_memInit (ram : ℕ → Link) (stats : StatsMem) (hu : stats.used = 0)
    (hm : stats.max ≤ memSizeAligned) :
    Tiled (memInit ram stats) [⟨memSizeAligned, false⟩] where
  laid := by
    refine ⟨?_, trivial⟩
    simp only [memInit]
    rw [Function.update_of_ne (by decide), Function.update_self, Nat.zero_add]
  stop := by simp [memInit]
  total_eq := rfl
  sizes := by decide
  lfree_eq := rfl
  used_eq := hu
  used_le_max := by
    change stats.used ≤ stats.max
    omega
  max_le := hm
  asserts_eq := rfl
  coalesced := List.isChain_singleton _

/-! ### `mem_free` -/

/-- The two halves of `plug_holes` do the same to a row of blocks: they merge two free
neighbours, of which `o` is the first. -/
def memMerge (o next : ℕ) (h : Heap) : Heap :=
  { h with ram := setPrev (setNext h.ram o next) next o }

lemma linked_memMerge (hl : Linked h (xs ++ ⟨s, false⟩ :: ⟨t, false⟩ :: ys)) :
    Linked (memMerge (total xs) (total xs + s + t) h) (xs ++ ⟨s + t, false⟩ :: ys) where
  laid := by simpa [memMerge] using hl.laid.merge hl.solid
  stop := by simpa [memMerge] using hl.stop
  total_eq := by
    have := hl.total_eq
    simp only [total_append, total_cons] at this ⊢
    omega
  sizes := by
    have h₁ := hl.sizes ⟨s, false⟩ (by simp)
    have h₂ := hl.sizes ⟨t, false⟩ (by simp)
    intro c hc
    rcases List.mem_append.mp hc with hc | hc
    · exact hl.sizes c (by simp [hc])
    rcases List.mem_cons.mp hc with rfl | hc
    · dsimp only at h₁ h₂ ⊢
      omega
    · exact hl.sizes c (by simp [hc])
  lfree_eq := by
    rw [lowestFree_append_free (b := ⟨s + t, false⟩) (c := ⟨s, false⟩) rfl rfl]
    exact hl.lfree_eq
  used_eq := by simpa [memMerge] using hl.used_eq
  used_le_max := hl.used_le_max
  max_le := hl.max_le
  asserts_eq := hl.asserts_eq

lemma Linked.lfree_le (hl : Linked h (xs ++ ⟨s, false⟩ :: ys)) : h.lfree ≤ total xs := by
  rw [hl.lfree_eq]
  simpa using lowestFree_append_free_le (o := 0) (b := ⟨s, false⟩) rfl

lemma plugForward_free (hl : Linked h (xs ++ ⟨s, false⟩ :: ⟨t, false⟩ :: ys)) :
    plugForward (total xs) h = memMerge (total xs) (total xs + s + t) h := by
  obtain ⟨-, ho, ⟨hn, -⟩, ht, -, hsy, hs⟩ := hl.split
  have hst := (solid_cons.mp hsy).1
  have hlf := hl.lfree_le
  simp only [total_cons, sizeofStructMem_eq] at ht hn ho hs hst
  simp only [plugForward, ho, hn]
  rw [if_pos ⟨by omega, trivial, by omega⟩, if_neg (by omega)]
  rfl

/-- A block that is in use, or the end marker, stops the merge. -/
lemma plugForward_used (hl : Linked h (xs ++ ⟨s, false⟩ :: ys))
    (hys : ∀ b ∈ ys.head?, b.used = true) : plugForward (total xs) h = h := by
  obtain ⟨-, ho, hlaid, ht, -⟩ := hl.split
  simp only [plugForward, ho]
  rw [if_neg]
  rintro ⟨-, hu, hne⟩
  cases ys with
  | nil => exact hne (by simpa using ht)
  | cons c cs =>
    rw [hlaid.1, hys c rfl] at hu
    exact Bool.noConfusion hu

lemma plugBackward_free (hl : Linked h (xs ++ ⟨s, false⟩ :: ⟨t, false⟩ :: ys)) :
    plugBackward (total xs + s) h = memMerge (total xs) (total xs + s + t) h := by
  obtain ⟨-, ho, ⟨hn, -⟩, -, -, -, hs⟩ := hl.split
  have hlf := hl.lfree_le
  simp only [sizeofStructMem_eq] at hn ho hs
  simp only [plugBackward, ho, hn]
  rw [if_pos ⟨by omega, trivial⟩, if_neg (by omega)]
  rfl

/-- A block that is in use, or the start of the heap, stops the merge. -/
lemma plugBackward_used (hl : Linked h (xs ++ ⟨s, false⟩ :: ys))
    (hxs : ∀ b ∈ xs.getLast?, b.used = true) : plugBackward (total xs) h = h := by
  obtain ⟨hlaid, ho, -⟩ := hl.split
  simp only [plugBackward, ho]
  rw [if_neg]
  rintro ⟨hne, hu⟩
  rcases List.eq_nil_or_concat' xs with rfl | ⟨zs, c, rfl⟩
  · exact hne rfl
  · obtain ⟨-, hc, -⟩ := laid_append.mp hlaid
    rw [lastOff_append_singleton, hc, hxs c (by simp)] at hu
    exact Bool.noConfusion hu

lemma StatsMem.incUsed_used {st : StatsMem} {y : ℕ} (h : st.used + y ≤ memSizeAligned) :
    (st.incUsed y).used = st.used + y := by
  rw [memSizeAligned_eq] at h
  exact Nat.mod_eq_of_lt (by omega)

lemma StatsMem.decUsed_used {st : StatsMem} {y : ℕ} (h : y ≤ st.used)
    (h' : st.used ≤ memSizeAligned) : (st.decUsed y).used = st.used - y := by
  rw [memSizeAligned_eq] at h'
  simp only [StatsMem.decUsed]
  omega

/-- The header of a block is marked free: the holes are not plugged yet. -/
lemma linked_memRelease (hl : Linked h (xs ++ ⟨s, true⟩ :: ys)) :
    Linked (memRelease (total xs) h) (xs ++ ⟨s, false⟩ :: ys) := by
  obtain ⟨hxs, ho, hys, ht, hsx, hsy, hs⟩ := hl.split
  have hused := hl.used_eq
  have hmax := hl.max_le
  have hum := hl.used_le_max
  simp only [usedBytes_append, usedBytes_cons, if_true, sizeofStructMem_eq] at hused ho hs ht
  have hdec : (h.stats.decUsed s).used = h.stats.used - s :=
    StatsMem.decUsed_used (by omega) (hum.trans hmax)
  refine ⟨?_, ?_, ?_, ?_, ?_, ?_, ?_, hmax, hl.asserts_eq⟩
  · refine laid_append.mpr ⟨hxs.update hsx (Or.inr (by omega)), ?_, ?_⟩
    · simp [memRelease, setUsed, ho]
    · rw [Nat.zero_add]
      exact hys.update hsy (Or.inl (by dsimp only; omega))
  · simp only [memRelease, setUsed]
    rw [Function.update_of_ne (by omega)]
    exact hl.stop
  · simpa using hl.total_eq
  · intro c hc
    rcases List.mem_append.mp hc with hc | hc
    · exact hl.sizes c (by simp [hc])
    rcases List.mem_cons.mp hc with rfl | hc
    · exact hl.sizes ⟨s, true⟩ (by simp)
    · exact hl.sizes c (by simp [hc])
  · rw [lowestFree_free hl.solid rfl rfl, ← hl.lfree_eq, Nat.zero_add]
    rfl
  · simp only [memRelease, ho, Nat.add_sub_cancel_left, hdec]
    simp
    omega
  · simp only [memRelease, ho, Nat.add_sub_cancel_left, hdec]
    exact (Nat.sub_le _ _).trans hum

lemma memMerge_ram_of_ne {o next a : ℕ} (ho : a ≠ o) (hn : a ≠ next) :
    (memMerge o next h).ram a = h.ram a := by
  simp only [memMerge, setPrev, setNext]
  rw [Function.update_of_ne hn, Function.update_of_ne ho]

/-- The first half of `plug_holes`, for the free blocks `r` that follow. -/
lemma linked_plugForward {r : List Block} (hl : Linked h (xs ++ ⟨s, false⟩ :: (r ++ ys)))
    (hr : r = [] ∨ ∃ t, r = [⟨t, false⟩]) (hys : ∀ b ∈ ys.head?, b.used = true) :
    Linked (plugForward (total xs) h) (xs ++ ⟨s + total r, false⟩ :: ys) ∧
      ∀ a, a ≠ total xs → a ≠ total xs + s + total r →
        (plugForward (total xs) h).ram a = h.ram a := by
  rcases hr with rfl | ⟨t, rfl⟩
  · rw [plugForward_used hl hys]
    exact ⟨by simpa using hl, fun a _ _ => rfl⟩
  · rw [plugForward_free hl]
    exact ⟨by simpa using linked_memMerge hl,
      fun a ha ha' => memMerge_ram_of_ne ha (by simpa using ha')⟩

/-- The second half, for the free blocks `l` before. -/
lemma linked_plugBackward {l : List Block} (hl : Linked h (xs ++ l ++ ⟨s, false⟩ :: ys))
    (hl' : l = [] ∨ ∃ t, l = [⟨t, false⟩]) (hxs : ∀ b ∈ xs.getLast?, b.used = true) :
    Linked (plugBackward (total (xs ++ l)) h) (xs ++ ⟨total l + s, false⟩ :: ys) ∧
      ∀ a, a ≠ total xs → a ≠ total (xs ++ l) + s →
        (plugBackward (total (xs ++ l)) h).ram a = h.ram a := by
  rcases hl' with rfl | ⟨t, rfl⟩
  · rw [List.append_nil] at hl ⊢
    rw [plugBackward_used hl hxs]
    exact ⟨by simpa using hl, fun a _ _ => rfl⟩
  · rw [List.append_assoc] at hl
    have ht : total (xs ++ [⟨t, false⟩]) = total xs + t := by simp
    rw [ht, plugBackward_free hl]
    exact ⟨by simpa using linked_memMerge hl, fun a ha ha' => memMerge_ram_of_ne ha ha'⟩

/-- `plug_holes` at a free block: it becomes one block with its free neighbours, and at most
three headers change. -/
lemma plugHoles_spec (hl : Linked h (xs ++ ⟨s, false⟩ :: ys)) (hxs : Coalesced xs)
    (hys : Coalesced ys) :
    ∃ xs' l r ys', xs = xs' ++ l ∧ ys = r ++ ys' ∧ (∀ b ∈ l ++ r, b.used = false) ∧
      Tiled (plugHoles (total xs) h) (xs' ++ ⟨total l + s + total r, false⟩ :: ys') ∧
      ∀ a, a ≠ total xs' → a ≠ total xs → a ≠ total xs + s + total r →
        (plugHoles (total xs) h).ram a = h.ram a := by
  obtain ⟨xs', l, rfl, hl', hlast⟩ := exists_append_free hxs
  obtain ⟨r, ys', rfl, hr, hhead⟩ := exists_free_append hys
  have hplug : plugHoles (total (xs' ++ l)) h =
      plugBackward (total (xs' ++ l)) (plugForward (total (xs' ++ l)) h) := by
    obtain ⟨-, ho, -, ht, -, -, hs⟩ := hl.split
    rw [sizeofStructMem_eq] at hs
    dsimp only at ht hs ho
    rw [plugHoles, Heap.assert_of h ⟨by omega, by rw [ho], by rw [ho]; dsimp only; omega⟩]
  obtain ⟨hf, hframe⟩ := linked_plugForward hl hr hhead
  obtain ⟨hb, hframe'⟩ := linked_plugBackward hf hl' hlast
  refine ⟨xs', l, r, ys', rfl, rfl, ?_, ⟨?_, ?_⟩, fun a h₁ h₂ h₃ => ?_⟩
  · intro b hb
    rcases hl' with rfl | ⟨t, rfl⟩ <;> rcases hr with rfl | ⟨t', rfl⟩ <;> aesop
  · rwa [hplug, Nat.add_assoc]
  · have hxs' := (List.isChain_append.mp hxs).1
    have hys' := (List.isChain_append.mp hys).2.1
    exact coalesced_free hxs' hys' hlast hhead
  · rw [hplug, hframe' a h₁ (by omega), hframe a h₂ h₃]

lemma Linked.total_mod (hl : Linked h (xs ++ ys)) : total xs % 4 = 0 := by
  have hsizes : ∀ b ∈ xs, b.size % 4 = 0 := fun b hb => (hl.sizes b (by simp [hb])).2
  clear hl
  induction xs with
  | nil => rfl
  | cons b xs ih =>
    have h₁ := hsizes b (by simp)
    have h₂ := ih fun c hc => hsizes c (by simp [hc])
    rw [total_cons]
    omega

/-- `mem_free` of a block: it becomes one free block with its free neighbours, and only
headers at the borders of the old row are written. -/
lemma memFree_spec (ht : Tiled h (xs ++ ⟨s, true⟩ :: ys)) :
    ∃ h' xs' l r ys', memFree (total xs + sizeofStructMem) h = some h' ∧
      xs = xs' ++ l ∧ ys = r ++ ys' ∧ (∀ b ∈ l ++ r, b.used = false) ∧
      Tiled h' (xs' ++ ⟨total l + s + total r, false⟩ :: ys') ∧
      ∀ a, h'.ram a ≠ h.ram a → Cut (xs ++ ⟨s, true⟩ :: ys) a := by
  obtain ⟨-, ho, -, htot, -, -, hs⟩ := ht.toLinked.split
  have hmod := ht.toLinked.total_mod
  obtain ⟨hcx, hcy⟩ := ht.coalesced.parts
  obtain ⟨xs', l, r, ys', rfl, rfl, hfree, htile, hframe⟩ :=
    plugHoles_spec (linked_memRelease ht.toLinked) hcx hcy
  simp only [sizeofStructMem_eq, minSizeAligned_eq] at hs htot
  refine ⟨_, xs', l, r, ys', ?_, rfl, rfl, hfree, htile, fun a ha => ?_⟩
  · rw [sizeofStructMem_eq, memFree, Heap.assert_of h ⟨by omega, by omega⟩, sizeofStructMem_eq]
    dsimp only
    rw [if_neg (by omega), if_neg (by omega), Nat.add_sub_cancel,
      Heap.assert_of h (by rw [ho])]
  · by_contra hcut
    refine ha ?_
    have hx : a ≠ total (xs' ++ l) := by
      rintro rfl
      exact hcut ⟨xs' ++ l, _, rfl, rfl⟩
    rw [hframe a ?_ hx ?_]
    · exact Function.update_of_ne hx _ _
    · rintro rfl
      exact hcut ⟨xs', l ++ ⟨s, true⟩ :: (r ++ ys'), by simp, rfl⟩
    · rintro rfl
      exact hcut ⟨xs' ++ l ++ ⟨s, true⟩ :: r, ys', by simp, by simp; omega⟩

/-! ### `mem_malloc` -/

variable {ram : ℕ → Link} {p o size : ℕ}

/-- The search from a header on finds what `firstFit` finds. -/
lemma memScan_spec {fuel : ℕ} (hl : Laid ram p o bs) (hs : Solid bs)
    (ht : o + total bs = memSizeAligned) (hfuel : bs.length < fuel) (h0 : 0 < size) :
    memScan ram size fuel o = some (firstFit (size + sizeofStructMem) o bs) := by
  -- past `MEM_SIZE_ALIGNED - size` no block can be large enough
  have hfar : ∀ cs : List Block, total cs ≤ size →
      firstFit (size + sizeofStructMem) (memSizeAligned - total cs) cs = none := by
    intro cs hcs
    refine firstFit_eq_none.mpr fun c hc _ => ?_
    have := size_le_total hc
    rw [sizeofStructMem_eq]
    omega
  induction bs generalizing p o fuel with
  | nil =>
    obtain ⟨fuel, rfl⟩ := Nat.exists_eq_add_of_lt hfuel
    rw [total_nil] at ht
    rw [memScan, if_neg (by omega), firstFit]
  | cons b bs ih =>
    obtain ⟨fuel, rfl⟩ : ∃ f, fuel = f + 1 := ⟨fuel - 1, by omega⟩
    obtain ⟨hb, hbs⟩ := laid_cons.mp hl
    obtain ⟨hpos, hsolid⟩ := solid_cons.mp hs
    rw [total_cons] at ht
    rw [List.length_cons] at hfuel
    rw [memScan, hb]
    by_cases hptr : o < memSizeAligned - size
    · rw [if_pos hptr, firstFit, ih hbs hsolid (by omega) (by omega)]
      rw [sizeofStructMem_eq]
      dsimp only
      by_cases hfit : b.used = false ∧ size + 8 ≤ b.size
      · rw [if_pos hfit, if_pos ⟨hfit.1, by omega⟩]
      · rw [if_neg hfit, if_neg fun hc => hfit ⟨hc.1, by omega⟩]
    · rw [if_neg hptr]
      have ho : o = memSizeAligned - total (b :: bs) := by
        rw [total_cons]
        omega
      rw [ho, hfar (b :: bs) (by rw [total_cons]; omega)]

/-- The loop that moves `lfree` stops at the first free block, or at the end. -/
lemma memAdvance_spec (fuel : ℕ) (hl : Laid ram p o bs) (hs : Solid bs)
    (ht : o + total bs = memSizeAligned) (hfuel : bs.length < fuel) :
    memAdvance ram fuel o = some (lowestFree o bs) ∧
      (lowestFree o bs = memSizeAligned ∨ (ram (lowestFree o bs)).used = false) := by
  induction bs generalizing p o fuel with
  | nil =>
    obtain ⟨fuel, rfl⟩ := Nat.exists_eq_add_of_lt hfuel
    rw [total_nil, Nat.add_zero] at ht
    rw [memAdvance, lowestFree, ht]
    simp
  | cons b bs ih =>
    obtain ⟨fuel, rfl⟩ : ∃ f, fuel = f + 1 := ⟨fuel - 1, by omega⟩
    obtain ⟨hb, hbs⟩ := laid_cons.mp hl
    obtain ⟨hpos, hsolid⟩ := solid_cons.mp hs
    rw [total_cons] at ht
    rw [List.length_cons] at hfuel
    rw [memAdvance, hb, lowestFree]
    by_cases hu : b.used = true
    · rw [if_pos ⟨hu, by omega⟩, if_pos hu]
      dsimp only
      exact ih fuel hbs hsolid (by omega) (by omega)
    · rw [if_neg fun hc => hu hc.1, if_neg hu, hb]
      exact ⟨rfl, Or.inr (by simpa using hu)⟩

/-- `lfree` after a block behind `xs` was taken and the row continues with `zs`. -/
lemma memAdjustLfree_spec {zs : List Block} (hl : Laid h.ram 0 0 (xs ++ zs))
    (hs : Solid (xs ++ zs)) (ht : total (xs ++ zs) = memSizeAligned)
    (hlf : h.lfree = lowestFree 0 (xs ++ ⟨s, false⟩ :: ys)) :
    memAdjustLfree (total xs) h = some { h with lfree := lowestFree 0 (xs ++ zs) } := by
  by_cases hfull : Full xs
  · have hlf' : h.lfree = total xs := by
      rw [hlf, lowestFree_append_of_full hfull, lowestFree, if_neg (by simp), Nat.zero_add]
    obtain ⟨-, hzs⟩ := laid_append.mp hl
    have hlen := (solid_append.mp hs).2.length_le
    rw [total_append] at ht
    obtain ⟨hadv, hfree⟩ := memAdvance_spec (memSizeAligned + 1) hzs
      (solid_append.mp hs).2 (by omega) (by omega)
    rw [Nat.zero_add] at hadv hfree
    rw [memAdjustLfree, if_pos hlf'.symm, hlf', hadv, Option.map_some,
      Heap.assert_of _ hfree, lowestFree_append_of_full hfull, Nat.zero_add]
  · have hlt : h.lfree < total xs := by
      rw [hlf, lowestFree_append_of_not_full hfull]
      simpa using lowestFree_lt_of_not_full (o := 0) (solid_append.mp hs).1 hfull
    rw [lowestFree_append_of_not_full hfull] at hlf
    rw [memAdjustLfree, if_neg (by omega), lowestFree_append_of_not_full hfull, ← hlf]

/-- A free header between a block and the next one. -/
lemma laid_memInsert (ptr2 : ℕ) {next q : ℕ} {u : Bool} (hxs : Laid ram 0 0 xs) (hsx : Solid xs)
    (ho : (ram (total xs)).prev = lastOff 0 0 xs) (hys : Laid ram q next ys) (hsy : Solid ys)
    (hptr2 : total xs < ptr2) (hnext : ptr2 < next) (ht : next + total ys = memSizeAligned) :
    Laid (memInsert ram (total xs) ptr2 next u) 0 0
      (xs ++ ⟨ptr2 - total xs, u⟩ :: ⟨next - ptr2, false⟩ :: ys) := by
  -- the row without the link back from `next`, which is the only one that may be missing
  have hfront : ∀ ram' : ℕ → Link, (∀ a < next, ram' a =
      Function.update (Function.update ram ptr2 ⟨next, total xs, false⟩) (total xs)
        ⟨ptr2, lastOff 0 0 xs, u⟩ a) → Laid ram' ptr2 next ys →
      Laid ram' 0 0 (xs ++ ⟨ptr2 - total xs, u⟩ :: ⟨next - ptr2, false⟩ :: ys) := by
    intro ram' hram' hys'
    refine laid_append.mpr ⟨hxs.congr hsx fun a _ ha => ?_, ?_, ?_, ?_⟩
    · rw [hram' a (by omega), Function.update_of_ne (by omega),
        Function.update_of_ne (by omega)]
    · rw [Nat.zero_add, hram' _ (by omega), Function.update_self]
      congr 1
      dsimp only
      omega
    · rw [Nat.zero_add]
      dsimp only
      rw [Nat.add_sub_cancel' hptr2.le, hram' _ hnext, Function.update_of_ne (by omega),
        Function.update_self, Nat.add_sub_cancel' hnext.le]
    · rw [Nat.zero_add]
      dsimp only
      rwa [Nat.add_sub_cancel' hptr2.le, Nat.add_sub_cancel' hnext.le]
  have hprev : (Function.update ram ptr2 (⟨next, total xs, false⟩ : Link) (total xs)).prev =
      lastOff 0 0 xs := by
    rw [Function.update_of_ne (by omega), ho]
  rw [memInsert, hprev]
  by_cases hend : next = memSizeAligned
  · rw [if_neg (by simpa using hend)]
    obtain rfl : ys = [] := by
      cases ys with
      | nil => rfl
      | cons c cs =>
        have := (solid_cons.mp hsy).1
        rw [total_cons] at ht
        omega
    exact hfront _ (fun _ _ => rfl) trivial
  · rw [if_pos hend]
    refine hfront _ (fun a ha => Function.update_of_ne (by omega) _ _) ?_
    exact ((hys.update hsy (Or.inl hnext)).update hsy (Or.inl (by omega))).setPrev hsy

lemma memInsert_of_ne {ptr ptr2 next a : ℕ} {u : Bool} (h₁ : a ≠ ptr) (h₂ : a ≠ ptr2)
    (h₃ : a ≠ next) : memInsert ram ptr ptr2 next u a = ram a := by
  rw [memInsert]
  split
  · rw [setPrev, Function.update_of_ne h₃, Function.update_of_ne h₁, Function.update_of_ne h₂]
  · rw [Function.update_of_ne h₁, Function.update_of_ne h₂]

lemma memInsert_end_used {ptr ptr2 next : ℕ} {u : Bool} (h₁ : ptr < memSizeAligned)
    (h₂ : ptr2 < memSizeAligned) :
    (memInsert ram ptr ptr2 next u memSizeAligned).used = (ram memSizeAligned).used := by
  rw [memInsert]
  split
  · rw [setPrev_used, Function.update_of_ne h₁.ne', Function.update_of_ne h₂.ne']
  · rw [Function.update_of_ne h₁.ne', Function.update_of_ne h₂.ne']

/-- The headers that `memInsert` writes stand at borders of the new row. -/
lemma cut_memInsert {ptr2 next t v a : ℕ} {u : Bool} (hptr2 : ptr2 = total xs + t)
    (hnext : next = total xs + t + v)
    (ha : memInsert ram (total xs) ptr2 next u a ≠ ram a) :
    Cut (xs ++ ⟨t, true⟩ :: ⟨v, false⟩ :: ys) a := by
  by_contra hcut
  refine ha (memInsert_of_ne ?_ ?_ ?_)
  · rintro rfl
    exact hcut ⟨xs, _, rfl, rfl⟩
  · rintro rfl
    exact hcut ⟨xs ++ [⟨t, true⟩], ⟨v, false⟩ :: ys, by simp, by simp [hptr2]⟩
  · rintro rfl
    exact hcut ⟨xs ++ [⟨t, true⟩, ⟨v, false⟩], ys, by simp, by simp [hnext]; omega⟩

/-- The blocks of a row have their sizes when one of them is replaced. -/
lemma Linked.sizes_replace {zs : List Block} {c : Block} (hl : Linked h (xs ++ b :: ys))
    (hc : sizeofStructMem + minSizeAligned ≤ c.size ∧ c.size % 4 = 0)
    (hzs : ∀ d ∈ zs, sizeofStructMem + minSizeAligned ≤ d.size ∧ d.size % 4 = 0) :
    ∀ d ∈ xs ++ c :: zs, sizeofStructMem + minSizeAligned ≤ d.size ∧ d.size % 4 = 0 := by
  intro d hd
  rcases List.mem_append.mp hd with hd | hd
  · exact hl.sizes d (by simp [hd])
  rcases List.mem_cons.mp hd with rfl | hd
  · exact hc
  · exact hzs d hd

/-- More bytes in use. -/
lemma StatsMem.incUsed_max {st : StatsMem} {y : ℕ} (h : st.used + y ≤ memSizeAligned)
    (hm : st.max ≤ memSizeAligned) :
    (st.incUsed y).used ≤ (st.incUsed y).max ∧ (st.incUsed y).max ≤ memSizeAligned := by
  have hu := StatsMem.incUsed_used h
  have hmax : (st.incUsed y).max =
      if st.max < (st.incUsed y).used then (st.incUsed y).used else st.max := rfl
  rw [hmax]
  split <;> omega

/-- The block that was found is taken, and split if the rest can hold a block. -/
lemma memTake_spec (ht : Tiled h (xs ++ ⟨s, false⟩ :: ys)) (hfit : size + sizeofStructMem ≤ s)
    (hmin : minSizeAligned ≤ size) (hmod : size % 4 = 0) :
    ∃ t zs, size + sizeofStructMem ≤ t ∧ (∀ o, sizeAt (o + t) zs = sizeAt (o + s) ys) ∧
      Tiled { memTake (total xs) size h with lfree := lowestFree 0 (xs ++ ⟨t, true⟩ :: zs) }
        (xs ++ ⟨t, true⟩ :: zs) ∧
      (∀ a, (memTake (total xs) size h).ram a ≠ h.ram a → Cut (xs ++ ⟨t, true⟩ :: zs) a) ∧
      (memTake (total xs) size h).lfree = h.lfree := by
  have hl := ht.toLinked
  obtain ⟨hxs, ho, hys, htot, hsx, hsy, -⟩ := hl.split
  obtain ⟨hcx, hcy⟩ := ht.coalesced.parts
  have hused := hl.used_eq
  have hbytes := usedBytes_le xs
  have hbytes' := usedBytes_le ys
  have hsz := hl.sizes ⟨s, false⟩ (by simp)
  have hsizes : ∀ d ∈ ys, sizeofStructMem + minSizeAligned ≤ d.size ∧ d.size % 4 = 0 :=
    fun d hd => hl.sizes d (by simp [hd])
  simp only [usedBytes_append, usedBytes_cons, Bool.false_eq_true, if_false, Nat.zero_add] at hused
  simp only [sizeofStructMem_eq, minSizeAligned_eq] at hsz htot ho hys hfit hmin
  have hnext : (h.ram (total xs)).next - (total xs + 8) = s - 8 := by
    rw [ho]
    dsimp only
    omega
  by_cases hsplit : size + 8 + 12 ≤ s - 8
  · have htake : memTake (total xs) size h =
        { h with
          ram := memInsert h.ram (total xs) (total xs + 8 + size) (total xs + s) true
          stats := h.stats.incUsed (size + 8) } := by
      simp only [memTake]
      rw [if_pos (by rwa [sizeofStructMem_eq, minSizeAligned_eq, hnext]), ho]
      rfl
    obtain ⟨v, hv⟩ : ∃ v, s = size + 8 + v := ⟨s - (size + 8), by omega⟩
    have hinc : h.stats.used + (size + 8) ≤ memSizeAligned := by omega
    have hlaid := laid_memInsert (total xs + 8 + size) (u := true) hxs hsx (by rw [ho]) hys hsy
      (by omega) (by omega) (by omega)
    have e₁ : total xs + 8 + size - total xs = size + 8 := by omega
    have e₂ : total xs + s - (total xs + 8 + size) = v := by omega
    rw [e₁, e₂] at hlaid
    rw [htake, sizeofStructMem_eq]
    refine ⟨size + 8, ⟨v, false⟩ :: ys, le_rfl, fun o => ?_, ⟨⟨hlaid, ?_, ?_, ?_, rfl, ?_, ?_, ?_,
      hl.asserts_eq⟩, ?_⟩, fun a ha => ?_, rfl⟩
    · rw [sizeAt_cons_free, hv, Nat.add_assoc]
    · dsimp only
      rw [memInsert_end_used (by omega) (by omega)]
      exact hl.stop
    · simp only [total_append, total_cons]
      omega
    · refine hl.sizes_replace ?_ (List.forall_mem_cons.mpr ⟨?_, hsizes⟩) <;>
        simp only [sizeofStructMem_eq, minSizeAligned_eq] <;> omega
    · simp only [StatsMem.incUsed_used hinc, usedBytes_append, usedBytes_cons, if_true,
        Bool.false_eq_true, if_false]
      omega
    · exact (StatsMem.incUsed_max hinc hl.max_le).1
    · exact (StatsMem.incUsed_max hinc hl.max_le).2
    · refine coalesced_used hcx (List.isChain_cons.mpr ⟨fun b hb => Or.inr ?_, hcy⟩)
      simpa using (List.isChain_cons.mp (List.isChain_append.mp ht.coalesced).2.1).1 b hb
    · exact cut_memInsert (by omega) (by omega) ha
  · have htake : memTake (total xs) size h =
        { h with
          ram := setUsed h.ram (total xs) true
          stats := h.stats.incUsed s } := by
      simp only [memTake]
      rw [if_neg (by rwa [sizeofStructMem_eq, minSizeAligned_eq, hnext]), ho]
      simp
    have hinc : h.stats.used + s ≤ memSizeAligned := by omega
    rw [htake, sizeofStructMem_eq]
    refine ⟨s, ys, hfit, fun _ => rfl, ⟨⟨?_, ?_, ?_, ?_, rfl, ?_, ?_, ?_, hl.asserts_eq⟩,
      coalesced_used hcx hcy⟩, fun a ha => ?_, rfl⟩
    · refine laid_append.mpr ⟨hxs.update hsx (Or.inr (by omega)), ?_, ?_⟩
      · simp [setUsed, ho]
      · rw [Nat.zero_add]
        exact hys.update hsy (Or.inl (by dsimp only; omega))
    · dsimp only [setUsed]
      rw [Function.update_of_ne (by omega)]
      exact hl.stop
    · simpa using hl.total_eq
    · exact hl.sizes_replace (hl.sizes ⟨s, false⟩ (by simp)) hsizes
    · simp only [StatsMem.incUsed_used hinc, usedBytes_append, usedBytes_cons, if_true]
      omega
    · exact (StatsMem.incUsed_max hinc hl.max_le).1
    · exact (StatsMem.incUsed_max hinc hl.max_le).2
    · by_contra hcut
      refine ha (Function.update_of_ne ?_ _ _)
      rintro rfl
      exact hcut ⟨xs, _, rfl, rfl⟩

/-- What is looked for is aligned and holds the minimum. -/
lemma memRequest_spec (size : ℕ) : minSizeAligned ≤ memRequest size ∧ memRequest size % 4 = 0 := by
  rw [memRequest, lwipMemAlignSize, minSizeAligned_eq]
  split <;> omega

/-- The block that is looked for holds what was asked for, except for the three largest
requests, which wrap around when they are aligned. -/
lemma le_memRequest (h : size ≤ 65532) : size ≤ memRequest size := by
  rw [memRequest, lwipMemAlignSize, minSizeAligned_eq]
  split <;> omega

lemma Linked.withErr (hl : Linked h bs) (e : ℕ) :
    Linked { h with stats := { h.stats with err := e } } bs :=
  ⟨hl.laid, hl.stop, hl.total_eq, hl.sizes, hl.lfree_eq, hl.used_eq, hl.used_le_max, hl.max_le,
    hl.asserts_eq⟩

/-- **`mem_malloc` on a row of blocks.**  Either no free block is large enough, and the row
is as before, or the first one that is becomes a block in use, with what it does not need
split off, and only headers at the borders of the new row are written. -/
lemma memMalloc_spec (ht : Tiled h bs) (h0 : size ≠ 0) :
    (∃ h', memMalloc size h = some (none, h') ∧ Tiled h' bs ∧ h'.ram = h.ram ∧
      ∀ b ∈ bs, b.used = false → b.size < memRequest size + sizeofStructMem) ∨
    ∃ h' xs s ys t zs, memMalloc size h = some (some (total xs + sizeofStructMem), h') ∧
      bs = xs ++ ⟨s, false⟩ :: ys ∧ memRequest size + sizeofStructMem ≤ s ∧
      (∀ b ∈ xs, b.used = false → b.size < memRequest size + sizeofStructMem) ∧
      memRequest size + sizeofStructMem ≤ t ∧ (∀ o, sizeAt (o + t) zs = sizeAt (o + s) ys) ∧
      Tiled h' (xs ++ ⟨t, true⟩ :: zs) ∧
      ∀ a, h'.ram a ≠ h.ram a → Cut (xs ++ ⟨t, true⟩ :: zs) a := by
  obtain ⟨hmin, hmod⟩ := memRequest_spec size
  have hl := ht.toLinked
  by_cases hbig : memSizeAligned < memRequest size
  · refine Or.inl ⟨h, ?_, ht, rfl, fun b hb _ => ?_⟩
    · simp only [memMalloc]
      rw [if_neg h0, if_pos hbig]
    · have := size_le_total hb
      rw [hl.total_eq] at this
      omega
  -- the search starts at `lfree`, before which nothing is free
  obtain ⟨pre, suf, hbs, hlow, hfirst⟩ :=
    firstFit_lowestFree (memRequest size + sizeofStructMem) 0 bs
  have hscan : memScan h.ram (memRequest size) (memSizeAligned + 1) h.lfree =
      some (firstFit (memRequest size + sizeofStructMem) 0 bs) := by
    obtain ⟨-, hsuf⟩ := laid_append.mp (hbs ▸ hl.laid)
    have hsolid := (solid_append.mp (hbs ▸ hl.solid)).2
    have htot := hl.total_eq
    have hlen := hsolid.length_le
    rw [hbs, total_append] at htot
    rw [minSizeAligned_eq] at hmin
    rw [hl.lfree_eq, hlow, hfirst]
    exact memScan_spec hsuf hsolid (by omega) (by omega) (by omega)
  have hcode : memMalloc size h =
      match firstFit (memRequest size + sizeofStructMem) 0 bs with
      | none => some (none, { h with stats := { h.stats with err := (h.stats.err + 1) % 65536 } })
      | some mem =>
          (memAdjustLfree mem (memTake mem (memRequest size) h)).map fun h =>
            (some (mem + sizeofStructMem),
              h.assert (mem + sizeofStructMem + memRequest size ≤ memSizeAligned ∧
                (mem + sizeofStructMem) % 4 = 0 ∧ mem % 4 = 0)) := by
    simp only [memMalloc]
    rw [if_neg h0, if_neg hbig, hscan]
    rfl
  cases hfit : firstFit (memRequest size + sizeofStructMem) 0 bs with
  | none =>
    rw [hfit] at hcode
    exact Or.inl ⟨_, hcode, ⟨hl.withErr _, ht.coalesced⟩, rfl, firstFit_eq_none.mp hfit⟩
  | some mem =>
    obtain ⟨xs, s, ys, rfl, rfl, hs, hxs⟩ := exists_eq_append_of_firstFit hfit
    rw [Nat.zero_add] at hfit
    obtain ⟨t, zs, hts, hsame, htile, hframe, hlf⟩ := memTake_spec ht hs hmin hmod
    have hadj := memAdjustLfree_spec (h := memTake (total xs) (memRequest size) h)
      htile.laid htile.toLinked.solid htile.total_eq (hlf.trans hl.lfree_eq)
    rw [hfit] at hcode
    refine Or.inr ⟨_, xs, s, ys, t, zs, ?_, rfl, hs, hxs, hts, hsame, htile, hframe⟩
    have hmod' := htile.toLinked.total_mod
    have htot := htile.total_eq
    simp only [total_append, total_cons, sizeofStructMem_eq] at htot hts
    rw [hcode]
    dsimp only
    rw [hadj, Option.map_some, Heap.assert_of _ (by rw [sizeofStructMem_eq]; omega)]

/-! ### `mem_trim` -/

/-- The end of a block is cut off and becomes, with the free block `r` behind it if there is
one, a free block of `v` bytes. -/
lemma tiled_trim {r : List Block} {t v lfree : ℕ} {ptr2 next q : ℕ}
    (ht : Tiled h (xs ++ ⟨s, true⟩ :: (r ++ ys))) (hr : ∀ b ∈ r, b.used = false)
    (hptr2 : ptr2 = total xs + t) (hnext : next = total xs + t + v)
    (hys : Laid h.ram q next ys) (hsum : t + v = s + total r) (hts : t < s)
    (htb : sizeofStructMem + minSizeAligned ≤ t ∧ t % 4 = 0)
    (hvb : sizeofStructMem + minSizeAligned ≤ v ∧ v % 4 = 0)
    (hhead : ∀ b ∈ ys.head?, b.used = true)
    (hlf : lfree = lowestFree 0 (xs ++ ⟨t, true⟩ :: ⟨v, false⟩ :: ys)) :
    Tiled { h with
        lfree := lfree
        ram := memInsert h.ram (total xs) ptr2 next true
        stats := h.stats.decUsed (s - t) } (xs ++ ⟨t, true⟩ :: ⟨v, false⟩ :: ys) := by
  have hl := ht.toLinked
  obtain ⟨hxs, ho, -, htot, hsx, hsy, -⟩ := hl.split
  obtain ⟨hcx, hcy⟩ := ht.coalesced.parts
  have hused := hl.used_eq
  have hum := hl.used_le_max
  have hr0 : usedBytes r = 0 := by
    clear * - hr
    induction r with
    | nil => rfl
    | cons c r ih =>
      obtain ⟨hc, hr⟩ := List.forall_mem_cons.mp hr
      simp [hc, ih hr]
  have hsy' := (solid_append.mp hsy).2
  simp only [usedBytes_append, usedBytes_cons, if_true] at hused
  simp only [total_append, sizeofStructMem_eq, minSizeAligned_eq] at htot htb hvb
  have hdec : (h.stats.decUsed (s - t)).used = h.stats.used - (s - t) :=
    StatsMem.decUsed_used (by omega) (hum.trans hl.max_le)
  have hlaid := laid_memInsert ptr2 (u := true) hxs hsx (by rw [ho]) hys hsy' (by omega)
    (by omega) (by omega)
  have e₁ : ptr2 - total xs = t := by omega
  have e₂ : next - ptr2 = v := by omega
  rw [e₁, e₂] at hlaid
  refine ⟨⟨hlaid, ?_, ?_, ?_, hlf, ?_, ?_, hl.max_le, hl.asserts_eq⟩, ?_⟩
  · dsimp only
    rw [memInsert_end_used (by omega) (by omega)]
    exact hl.stop
  · simp only [total_append, total_cons]
    omega
  · refine hl.sizes_replace htb (List.forall_mem_cons.mpr ⟨hvb, fun d hd => ?_⟩)
    exact hl.sizes d (by simp [hd])
  · simp only [hdec, usedBytes_append, usedBytes_cons, if_true, Bool.false_eq_true, if_false]
    omega
  · exact hdec.le.trans ((Nat.sub_le _ _).trans hum)
  · exact coalesced_used hcx (coalesced_free (List.isChain_nil : Coalesced [])
      (List.isChain_append.mp hcy).2.1 (by simp) hhead)

/-- The lowest free offset of a row with a block in use and a free one behind `xs`, from that
of a row with another block in use at the same place. -/
lemma lowestFree_trim (s t v : ℕ) (ys zs : List Block) (hsx : Solid xs) :
    (Full xs ∧ lowestFree 0 (xs ++ ⟨s, true⟩ :: zs) = lowestFree (total xs + s) zs ∧
      lowestFree 0 (xs ++ ⟨t, true⟩ :: ⟨v, false⟩ :: ys) = total xs + t) ∨
    (lowestFree 0 (xs ++ ⟨s, true⟩ :: zs) < total xs ∧
      lowestFree 0 (xs ++ ⟨t, true⟩ :: ⟨v, false⟩ :: ys) =
        lowestFree 0 (xs ++ ⟨s, true⟩ :: zs)) := by
  by_cases hfull : Full xs
  · refine Or.inl ⟨hfull, ?_, ?_⟩
    · rw [lowestFree_append_of_full hfull, lowestFree, if_pos rfl, Nat.zero_add]
    · rw [lowestFree_append_of_full hfull, lowestFree, if_pos rfl, lowestFree, if_neg (by simp),
        Nat.zero_add]
  · refine Or.inr ⟨?_, ?_⟩
    · rw [lowestFree_append_of_not_full hfull]
      simpa using lowestFree_lt_of_not_full (o := 0) hsx hfull
    · rw [lowestFree_append_of_not_full hfull, lowestFree_append_of_not_full hfull]

/-- `mem_trim` of a block in use to a size that is not larger: the block keeps its place. -/
lemma memTrim_spec {n : ℕ} (ht : Tiled h (xs ++ ⟨s, true⟩ :: ys))
    (hn : memRequest n + sizeofStructMem ≤ s) :
    ∃ h' t zs, memTrim (total xs + sizeofStructMem) n h =
        some (some (total xs + sizeofStructMem), h') ∧
      memRequest n + sizeofStructMem ≤ t ∧ (∀ o, sizeAt (o + t) zs = sizeAt (o + s) ys) ∧
      Tiled h' (xs ++ ⟨t, true⟩ :: zs) ∧
      ∀ a, h'.ram a ≠ h.ram a → Cut (xs ++ ⟨t, true⟩ :: zs) a := by
  obtain ⟨hmin, hmod⟩ := memRequest_spec n
  have hl := ht.toLinked
  obtain ⟨-, ho, hys, htot, hsx, hsy, -⟩ := hl.split
  have hsb := hl.sizes ⟨s, true⟩ (by simp)
  have hsize : (h.ram (total xs)).next - total xs - sizeofStructMem = s - sizeofStructMem := by
    rw [ho]
    simp
  have hlf := hl.lfree_eq
  generalize hm : memRequest n = m at hmin hmod hn ⊢
  simp only [sizeofStructMem_eq, minSizeAligned_eq] at hmin hn htot hsb hys
  -- the code up to the point where the next block is looked at
  have hcode : memTrim (total xs + sizeofStructMem) n h =
      if m = s - sizeofStructMem then some (some (total xs + sizeofStructMem), h)
      else if (h.ram (total xs + s)).used = false then
        some (some (total xs + sizeofStructMem),
          { h with
            lfree := if h.lfree = total xs + s then total xs + sizeofStructMem + m else h.lfree
            ram := memInsert h.ram (total xs) (total xs + sizeofStructMem + m)
              (h.ram (total xs + s)).next true
            stats := h.stats.decUsed (s - sizeofStructMem - m) })
      else if m + sizeofStructMem + minSizeAligned ≤ s - sizeofStructMem then
        some (some (total xs + sizeofStructMem),
          { h with
            lfree := if total xs + sizeofStructMem + m < h.lfree then
              total xs + sizeofStructMem + m else h.lfree
            ram := memInsert h.ram (total xs) (total xs + sizeofStructMem + m)
              (total xs + s) true
            stats := h.stats.decUsed (s - sizeofStructMem - m) })
      else some (some (total xs + sizeofStructMem), h) := by
    simp only [memTrim]
    rw [hm, if_neg (by omega), Heap.assert_of h (by rw [sizeofStructMem_eq]; omega),
      if_neg (by rw [sizeofStructMem_eq]; omega), if_neg (by omega), Nat.add_sub_cancel, hsize,
      Heap.assert_of h (by rw [sizeofStructMem_eq]; omega),
      if_neg (by rw [sizeofStructMem_eq]; omega), ho]
  rw [hcode]
  by_cases heq : m = s - sizeofStructMem
  · rw [if_pos heq]
    rw [sizeofStructMem_eq] at heq ⊢
    exact ⟨h, s, ys, rfl, by omega, fun _ => rfl, ht, fun a ha => absurd rfl ha⟩
  rw [if_neg heq]
  have hdec : s - sizeofStructMem - m = s - (m + 8) := by
    rw [sizeofStructMem_eq]
    omega
  have hptr2 : total xs + sizeofStructMem + m = total xs + (m + 8) := by
    rw [sizeofStructMem_eq]
    omega
  rw [sizeofStructMem_eq] at heq
  rw [hdec, hptr2]
  obtain ⟨hcx, hcy⟩ := ht.coalesced.parts
  obtain ⟨r, ys', rfl, hr, hhead⟩ := exists_free_append hcy
  rcases hr with rfl | ⟨u, rfl⟩
  · -- the next block is in use, or the end of the heap
    rw [List.nil_append] at *
    have hu : (h.ram (total xs + s)).used ≠ false := by
      cases ys' with
      | nil =>
        rw [total_nil, Nat.add_zero] at htot
        rw [htot, hl.stop]
        simp
      | cons c cs =>
        rw [hys.1]
        simp [hhead c rfl]
    rw [if_neg hu]
    by_cases hroom : m + sizeofStructMem + minSizeAligned ≤ s - sizeofStructMem
    · rw [if_pos hroom]
      simp only [sizeofStructMem_eq, minSizeAligned_eq] at hroom
      have hv : s = m + 8 + (s - (m + 8)) := by omega
      refine ⟨_, m + 8, ⟨s - (m + 8), false⟩ :: ys', rfl, by rw [sizeofStructMem_eq],
        fun o => ?_, tiled_trim (r := []) (q := total xs) ht (by simp) rfl (by omega) hys
          (by simp; omega) (by omega) ?_ ?_ hhead ?_, fun a ha =>
            cut_memInsert (v := s - (m + 8)) rfl (by omega) ha⟩
      · rw [sizeAt_cons_free, Nat.add_assoc, ← hv]
      · simp only [sizeofStructMem_eq, minSizeAligned_eq]
        omega
      · simp only [sizeofStructMem_eq, minSizeAligned_eq]
        omega
      · rcases lowestFree_trim s (m + 8) (s - (m + 8)) ys' ys' hsx
          with ⟨-, h₁, h₂⟩ | ⟨h₁, h₂⟩
        · have := le_lowestFree (total xs + s) ys'
          rw [h₂, if_pos (by omega)]
        · rw [h₂, if_neg (by omega), hlf]
    · rw [if_neg hroom]
      exact ⟨h, s, ys', rfl, by rw [sizeofStructMem_eq]; omega, fun _ => rfl, ht,
        fun a ha => absurd rfl ha⟩
  · -- the next block is free
    obtain ⟨hn', hys'⟩ := laid_cons.mp hys
    have hub := hl.sizes ⟨u, false⟩ (by simp)
    simp only [sizeofStructMem_eq, minSizeAligned_eq] at hub
    rw [hn', if_pos rfl]
    dsimp only
    refine ⟨_, m + 8, ⟨s - (m + 8) + u, false⟩ :: ys', rfl, by rw [sizeofStructMem_eq],
      fun o => ?_, tiled_trim (r := [⟨u, false⟩]) (q := total xs + s) ht (by simp) rfl (by omega)
        hys' (by simp; omega) (by omega) ?_ ?_ hhead ?_, fun a ha =>
          cut_memInsert (v := s - (m + 8) + u) rfl (by omega) ha⟩
    · rw [List.cons_append, List.nil_append, sizeAt_cons_free, sizeAt_cons_free]
      congr 1
      omega
    · simp only [sizeofStructMem_eq, minSizeAligned_eq]
      omega
    · simp only [sizeofStructMem_eq, minSizeAligned_eq]
      omega
    · rcases lowestFree_trim s (m + 8) (s - (m + 8) + u) ys' ([⟨u, false⟩] ++ ys') hsx
        with ⟨-, h₁, h₂⟩ | ⟨h₁, h₂⟩
      · have h₃ : h.lfree = total xs + s := by
          rw [hlf, h₁, List.cons_append, lowestFree, if_neg (by simp)]
        rw [h₂, if_pos h₃]
      · rw [h₂, if_neg (by omega), hlf]

end Teensy41Ethernet.Lwip
