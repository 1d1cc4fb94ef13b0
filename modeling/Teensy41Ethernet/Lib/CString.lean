import Mathlib.Tactic

/-!
# Strings in blocks of memory

A C string lives in a block of memory: it is what stands before the first zero.  The
functions of `string.h` know nothing of the size of the block, so that each of them may run
past its end; here they return `none` when they do.  A block is the list of its cells, and a
string the list of its characters without the terminating zero.  What the functions do is
said for a block that is split at the terminator, `t ++ 0 :: rest`.
-/

namespace Teensy41Ethernet.Lib

variable {α : Type*}

/-! ### Copying into a block -/

/-- Write `src` into the block at index `i`, one cell after the other; `none` as soon as a
cell lies outside. -/
def copyTo : List α → ℕ → List α → Option (List α)
  | block, _, [] => some block
  | block, i, b :: src =>
      if i < block.length then copyTo (block.set i b) (i + 1) src else none

/-- A copy that fits replaces the cells at its place. -/
lemma copyTo_append (pre mid post src : List α) (hlen : mid.length = src.length) :
    copyTo (pre ++ mid ++ post) pre.length src = some (pre ++ src ++ post) := by
  induction src generalizing pre mid with
  | nil =>
    rw [List.length_nil, List.length_eq_zero_iff] at hlen
    rw [copyTo, hlen]
  | cons b src ih =>
    obtain ⟨c, mid, rfl⟩ := List.exists_cons_of_length_eq_add_one hlen
    have hlen' : mid.length = src.length := by simpa using hlen
    have hset : (pre ++ c :: mid ++ post).set pre.length b = (pre ++ [b]) ++ mid ++ post := by
      simp
    have hcopy := ih (pre ++ [b]) mid hlen'
    rw [List.length_append, List.length_singleton] at hcopy
    rw [copyTo, if_pos (by simp), hset, hcopy]
    simp

/-- A copy that does not fit runs past the end. -/
lemma copyTo_eq_none {block src : List α} {i : ℕ} (hi : i ≤ block.length)
    (hlen : block.length < i + src.length) : copyTo block i src = none := by
  induction src generalizing block i with
  | nil => exact absurd hlen (by simpa using hi)
  | cons b src ih =>
    rw [copyTo]
    split
    · rw [List.length_cons] at hlen
      exact ih (by rw [List.length_set]; omega) (by rw [List.length_set]; omega)
    · rfl

/-- `realloc` to a larger size: the cells that are added hold anything. -/
def realloc (block : List α) (size : ℕ) (junk : ℕ → α) : List α :=
  block ++ (List.range (size - block.length)).map junk

lemma length_realloc {block : List α} {size : ℕ} (junk : ℕ → α) (h : block.length ≤ size) :
    (realloc block size junk).length = size := by
  simp only [realloc, List.length_append, List.length_map, List.length_range]
  omega

/-! ### The string in a block -/

section Text

variable [Zero α] [DecidableEq α]

/-- The string in a block; `none` if nothing ends it, and reading it runs past the block. -/
def text : List α → Option (List α)
  | [] => none
  | b :: block => if b = 0 then some [] else (text block).map (b :: ·)

lemma text_append {t : List α} (ht : (0 : α) ∉ t) (rest : List α) :
    text (t ++ 0 :: rest) = some t := by
  induction t with
  | nil => rw [List.nil_append, text, if_pos rfl]
  | cons b t ih =>
    rw [List.mem_cons, not_or] at ht
    rw [List.cons_append, text, if_neg (Ne.symm ht.1), ih ht.2, Option.map_some]

/-- A block that holds a string is split by its terminator. -/
lemma text_eq_some {block t : List α} (h : text block = some t) :
    (0 : α) ∉ t ∧ ∃ rest, block = t ++ 0 :: rest := by
  induction block generalizing t with
  | nil => exact absurd h (by simp [text])
  | cons b block ih =>
    rw [text] at h
    split at h
    · next hb =>
      obtain rfl : [] = t := Option.some.inj h
      exact ⟨by simp, block, by rw [hb, List.nil_append]⟩
    · next hb =>
      obtain ⟨t, ht, rfl⟩ := Option.map_eq_some_iff.mp h
      obtain ⟨hmem, rest, rfl⟩ := ih ht
      refine ⟨?_, rest, rfl⟩
      rw [List.mem_cons, not_or]
      exact ⟨Ne.symm hb, hmem⟩

lemma text_realloc {block t : List α} (h : text block = some t) (size : ℕ) (junk : ℕ → α) :
    text (realloc block size junk) = some t := by
  obtain ⟨hmem, rest, rfl⟩ := text_eq_some h
  rw [realloc, List.append_assoc, List.cons_append]
  exact text_append hmem _

/-- The string and its terminator fit in the block. -/
lemma length_lt_of_text {block t : List α} (h : text block = some t) :
    t.length < block.length := by
  obtain ⟨-, rest, rfl⟩ := text_eq_some h
  simp

/-- The terminator is the first zero. -/
lemma findIdx?_zero (block : List α) : block.findIdx? (· = 0) = (text block).map List.length := by
  induction block with
  | nil => rfl
  | cons b block ih =>
    rw [List.findIdx?_cons, text]
    by_cases hb : b = 0
    · rw [if_pos (decide_eq_true hb), if_pos hb]
      rfl
    · rw [if_neg (by simpa using hb), if_neg hb, ih, Option.map_map, Option.map_map]
      rfl

end Text

/-! ### The functions of `string.h` -/

/-- `strcpy`. -/
def strcpy [Zero α] (block src : List α) : Option (List α) := copyTo block 0 (src ++ [0])

/-- `strcat`. -/
def strcat [Zero α] [DecidableEq α] (block src : List α) : Option (List α) :=
  (text block).bind fun t => copyTo block t.length (src ++ [0])

/-- What `strncpy` reads of its source: at most `n` cells up to the terminator, with zeros for
those behind it. -/
def readPadded [Zero α] [DecidableEq α] : List α → ℕ → Option (List α)
  | _, 0 => some []
  | [], _ + 1 => none
  | b :: src, n + 1 =>
      if b = 0 then some (List.replicate (n + 1) 0) else (readPadded src n).map (b :: ·)

/-- `strncpy`; there is no terminator behind `n` characters. -/
def strncpy [Zero α] [DecidableEq α] (block src : List α) (n : ℕ) : Option (List α) :=
  (readPadded src n).bind (copyTo block 0)

section Functions

variable [Zero α] [DecidableEq α] {block t src : List α}

/-- **`strcpy`** stays inside a block with a cell for each character and the terminator. -/
theorem strcpy_spec (hsrc : (0 : α) ∉ src) (hlen : src.length < block.length) :
    ∃ block', strcpy block src = some block' ∧ block'.length = block.length ∧
      text block' = some src := by
  obtain ⟨mid, post, rfl, hmid⟩ : ∃ mid post, block = mid ++ post ∧
      mid.length = (src ++ [0]).length :=
    ⟨block.take (src.length + 1), block.drop (src.length + 1), by simp, by simp; omega⟩
  have hcopy := copyTo_append [] mid post (src ++ [0]) hmid
  rw [List.nil_append, List.nil_append, List.length_nil] at hcopy
  refine ⟨_, hcopy, by simp only [List.length_append, hmid], ?_⟩
  rw [List.append_assoc, List.singleton_append]
  exact text_append hsrc post

/-- **`strcat`** stays inside a block with room behind the string it holds. -/
theorem strcat_spec (ht : text block = some t) (hsrc : (0 : α) ∉ src)
    (hlen : t.length + src.length < block.length) :
    ∃ block', strcat block src = some block' ∧ block'.length = block.length ∧
      text block' = some (t ++ src) := by
  obtain ⟨hmem, rest, hblock⟩ := text_eq_some ht
  -- the terminator and the first cells behind it are overwritten
  obtain ⟨mid, post, hrest, hmid⟩ : ∃ mid post, 0 :: rest = mid ++ post ∧
      mid.length = (src ++ [0]).length := by
    refine ⟨(0 :: rest).take (src.length + 1), (0 :: rest).drop (src.length + 1), by simp, ?_⟩
    rw [hblock] at hlen
    simp only [List.length_append, List.length_cons, List.length_take, List.length_nil] at hlen ⊢
    omega
  have hsplit : block = t ++ mid ++ post := by rw [hblock, hrest, List.append_assoc]
  refine ⟨t ++ (src ++ [0]) ++ post, ?_, by simp only [hsplit, List.length_append, hmid], ?_⟩
  · rw [strcat, ht, Option.bind_some, hsplit]
    exact copyTo_append t mid post _ hmid
  · have hmem' : (0 : α) ∉ t ++ src := by simp [hmem, hsrc]
    have happ := text_append hmem' post
    simpa using happ

lemma readPadded_eq (ht : text src = some t) (n : ℕ) :
    readPadded src n = some (t.take n ++ List.replicate (n - t.length) 0) := by
  induction n generalizing src t with
  | zero => rw [readPadded, List.take_zero, Nat.zero_sub, List.replicate_zero, List.append_nil]
  | succ n ih =>
    cases src with
    | nil => cases ht
    | cons b src =>
      rw [text] at ht
      rw [readPadded]
      split at ht
      · next hb =>
        obtain rfl : [] = t := Option.some.inj ht
        rw [if_pos hb, List.take_nil, List.nil_append, List.length_nil, Nat.sub_zero]
      · next hb =>
        obtain ⟨t, ht', rfl⟩ := Option.map_eq_some_iff.mp ht
        rw [if_neg hb, ih ht', Option.map_some, List.take_succ_cons, List.length_cons,
          Nat.add_sub_add_right, List.cons_append]

/-- **`strncpy`** writes `n` cells: the string, cut off or filled up. -/
theorem strncpy_spec (hsrc : text src = some t) {n : ℕ} (hn : n ≤ block.length) :
    strncpy block src n =
      some (t.take n ++ List.replicate (n - t.length) 0 ++ block.drop n) := by
  have hlen : (block.take n).length = (t.take n ++ List.replicate (n - t.length) 0).length := by
    simp only [List.length_append, List.length_take, List.length_replicate]
    omega
  have hcopy := copyTo_append [] (block.take n) (block.drop n) _ hlen
  rw [List.nil_append, List.take_append_drop, List.length_nil, List.nil_append] at hcopy
  rw [strncpy, readPadded_eq hsrc, Option.bind_some, hcopy]

/-- A zero written into the string, or on its terminator, cuts it there. -/
theorem copyTo_zero_spec (ht : text block = some t) {i : ℕ} (hi : i ≤ t.length) :
    ∃ block', copyTo block i [0] = some block' ∧ block'.length = block.length ∧
      text block' = some (t.take i) := by
  obtain ⟨hmem, rest, hblock⟩ := text_eq_some ht
  obtain ⟨c, post, hpost⟩ : ∃ c post, t.drop i ++ 0 :: rest = c :: post := by
    cases h : t.drop i with
    | nil => exact ⟨0, rest, rfl⟩
    | cons c l => exact ⟨c, l ++ 0 :: rest, rfl⟩
  have hsplit : block = t.take i ++ [c] ++ post := by
    rw [List.append_assoc, List.singleton_append, ← hpost, ← List.append_assoc,
      List.take_append_drop, hblock]
  have hcopy := copyTo_append (t.take i) [c] post [0] rfl
  rw [← hsplit, List.length_take, min_eq_left hi] at hcopy
  refine ⟨_, hcopy, by rw [hsplit]; simp, ?_⟩
  rw [List.append_assoc, List.singleton_append]
  exact text_append (fun h => hmem (List.mem_of_mem_take h)) post

end Functions

/-! ### The last occurrence of a character -/

section Last

variable [DecidableEq α] {t : List α}

/-- `strrchr`: the index of the last `c`. -/
def strrchr (c : α) : List α → Option ℕ
  | [] => none
  | b :: t =>
      match strrchr c t with
      | some i => some (i + 1)
      | none => if b = c then some 0 else none

lemma strrchr_eq_none {c : α} (h : strrchr c t = none) : c ∉ t := by
  induction t with
  | nil => simp
  | cons b t ih =>
    rw [strrchr] at h
    split at h
    · exact absurd h (by simp)
    · next hnone =>
      split at h
      · exact absurd h (by simp)
      · next hb =>
        rw [List.mem_cons, not_or]
        exact ⟨Ne.symm hb, ih hnone⟩

/-- The last `c` splits the string, and there is none behind it. -/
lemma strrchr_eq_some {c : α} {i : ℕ} (h : strrchr c t = some i) :
    ∃ pre post, t = pre ++ c :: post ∧ c ∉ post ∧ pre.length = i := by
  induction t generalizing i with
  | nil => exact absurd h (by simp [strrchr])
  | cons b t ih =>
    rw [strrchr] at h
    split at h
    · next j hj =>
      obtain rfl : j + 1 = i := Option.some.inj h
      obtain ⟨pre, post, rfl, hpost, hlen⟩ := ih hj
      exact ⟨b :: pre, post, rfl, hpost, by rw [List.length_cons, hlen]⟩
    · next hnone =>
      split at h
      · next hb =>
        obtain rfl : 0 = i := Option.some.inj h
        exact ⟨[], t, by rw [hb, List.nil_append], strrchr_eq_none hnone, rfl⟩
      · exact absurd h (by simp)

end Last

end Teensy41Ethernet.Lib
