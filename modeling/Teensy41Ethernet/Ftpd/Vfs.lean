import Mathlib.Tactic

/-!
# The file layer of the FTP daemon

`vfs.cpp` puts the calls of the daemon on top of the SD library.  What the library answers
(whether a path can be opened, how many bytes a call reads or writes) comes in as arguments;
what the layer makes of it is modelled: open files with their position, directory entries,
and the one working directory that all control sessions share.

A C string is the list of its bytes without the terminating zero.
-/

namespace Teensy41Ethernet.Ftpd

/-- A C string. -/
abbrev Str := List UInt8

/-- The bytes of a string literal. -/
def lit (s : String) : Str := s.toList.map fun c => UInt8.ofNat c.toNat

/-- The output of `%d`, `%i` or `%u` for a number that is not negative. -/
def dec (n : ℕ) : Str := (Nat.toDigits 10 n).map fun c => UInt8.ofNat c.toNat

/-- The output of `%d` or `%i` for a number that is passed in 32 bits and taken as an `int`. -/
def decInt (n : ℕ) : Str :=
  let v := (BitVec.ofNat 32 n).toInt
  if v < 0 then lit "-" ++ dec v.natAbs else dec v.natAbs

/-! ### Files and directories -/

/-- An open file: its content and the position of the next access. -/
structure VfsFile where
  content : List UInt8
  pos : ℕ
deriving DecidableEq

/-- The bytes from the position to the end. -/
def VfsFile.unread (f : VfsFile) : List UInt8 := f.content.drop f.pos

/-- `vfs_read` of up to `len` bytes, of which the library returns at most `k`. -/
def vfsRead (f : VfsFile) (len k : ℕ) : List UInt8 × VfsFile :=
  let bytes := f.unread.take (min len k)
  (bytes, { f with pos := f.pos + bytes.length })

/-- `vfs_eof`: nothing is left to read. -/
def vfsEof (f : VfsFile) : Bool := f.unread.isEmpty

/-- `vfs_write` of `data`, of which the library writes at most `k` bytes: their number and
the file afterwards. -/
def vfsWrite (f : VfsFile) (data : List UInt8) (k : ℕ) : ℕ × VfsFile :=
  let bytes := data.take k
  (bytes.length,
    { content := f.content.take f.pos ++ bytes ++ f.content.drop (f.pos + bytes.length)
      pos := f.pos + bytes.length })

/-- A file as `openNextFile` returns it from a directory. -/
structure DirEntry where
  name : Str
  isDirectory : Bool
  size : ℕ
deriving DecidableEq

/-- Reading takes the bytes off the front of what is unread. -/
lemma vfsRead_unread (f : VfsFile) (len k : ℕ) :
    f.unread = (vfsRead f len k).1 ++ (vfsRead f len k).2.unread := by
  have hlen : (f.unread.take (min len k)).length ≤ f.unread.length := by simp
  rw [vfsRead, VfsFile.unread, VfsFile.unread, ← List.drop_drop]
  simp only [VfsFile.unread] at hlen ⊢
  conv_lhs => rw [← List.take_append_drop (min len k) (f.content.drop f.pos)]
  congr 1
  rw [List.length_take]
  rcases le_total (min len k) (f.content.drop f.pos).length with h | h
  · rw [min_eq_left h]
  · rw [min_eq_right h, List.drop_eq_nil_of_le h, List.drop_length]

lemma vfsEof_iff (f : VfsFile) : vfsEof f = true ↔ f.unread = [] := List.isEmpty_iff

/-! ### The working directory -/

/-- The byte `'/'`. -/
def slash : UInt8 := 47

/-- The path that `vfs_chdir` builds in `cwd`, `none` if it builds none: up to the last
separator for `".."`, the path itself if it is absolute, else the path behind the working
directory; a separator at the end is dropped.  `grow` is the outcome of `check_cwd`. -/
def chdirPath (cwd path : Str) (grow : Bool) : Option Str :=
  if path = lit ".." then
    match cwd.reverse.dropWhile (· ≠ slash) with
    | [] => none
    -- the separator at the start of the path stays
    | [_] => some [slash]
    | _ :: rest => some rest.reverse
  else if grow then
    let full :=
      if path.head? = some slash then path
      else (if cwd = [slash] then cwd else cwd ++ [slash]) ++ path
    some (if full.getLast? = some slash ∧ full.length ≠ 1 then full.dropLast else full)
  else none

/-- The path built from an argument that is not `".."`, before a separator at its end is cut
off. -/
def fullPath (path cwd : Str) : Str :=
  if path.head? = some slash then path
  else (if cwd = [slash] then cwd else cwd ++ [slash]) ++ path

/-- A path without the separator at its end. -/
def trimmed (path : Str) : Str :=
  if path.getLast? = some slash ∧ path.length ≠ 1 then path.dropLast else path

lemma chdirPath_of_ne (cwd : Str) {path : Str} (hup : path ≠ lit "..") (grow : Bool) :
    chdirPath cwd path grow = if grow then some (trimmed (fullPath path cwd)) else none := by
  rw [chdirPath, if_neg hup]
  rfl

/-- The last separator and what follows it are cut off, but a path is never empty. -/
lemma chdirPath_up (pre post : Str) (hpost : slash ∉ post) (grow : Bool) :
    chdirPath (pre ++ slash :: post) (lit "..") grow =
      some (if pre = [] then [slash] else pre) := by
  have hne : ∀ b ∈ post.reverse, decide (b ≠ slash) = true := by
    intro b hb
    rw [decide_eq_true_eq]
    rintro rfl
    exact hpost (List.mem_reverse.mp hb)
  have hdrop : (pre ++ slash :: post).reverse.dropWhile (fun b => decide (b ≠ slash)) =
      slash :: pre.reverse := by
    rw [List.reverse_append, List.reverse_cons, List.append_assoc, List.dropWhile_append_of_pos hne,
      List.singleton_append, List.dropWhile_cons_of_neg (by simp)]
  rw [chdirPath, if_pos rfl, hdrop]
  cases pre using List.reverseRec with
  | nil => rfl
  | append_singleton pre b => simp

/-- A path that starts with a separator has a last one. -/
lemma exists_last_slash {cwd : Str} (hcwd : cwd.head? = some slash) :
    ∃ pre post, cwd = pre ++ slash :: post ∧ slash ∉ post := by
  have hmem : slash ∈ cwd.reverse := List.mem_reverse.mpr (List.mem_of_mem_head? hcwd)
  obtain ⟨post, pre, hsplit, hpost⟩ := List.eq_append_cons_of_mem hmem
  refine ⟨pre.reverse, post.reverse, ?_, mt List.mem_reverse.mp hpost⟩
  rw [← List.reverse_reverse cwd, hsplit]
  simp

lemma head_up (pre post : Str) (h : (pre ++ slash :: post).head? = some slash) :
    (if pre = [] then [slash] else pre).head? = some slash := by
  cases pre with
  | nil => rfl
  | cons b pre => simpa using h

lemma fullPath_head (path : Str) {cwd : Str} (hcwd : cwd.head? = some slash) :
    (fullPath path cwd).head? = some slash := by
  unfold fullPath
  by_cases habs : path.head? = some slash
  · rw [if_pos habs, habs]
  · rw [if_neg habs]
    cases cwd with
    | nil => exact absurd hcwd (by simp)
    | cons b cwd =>
      split
      · simpa using hcwd
      · simpa using hcwd

lemma trimmed_head {path : Str} (hpath : path.head? = some slash) :
    (trimmed path).head? = some slash := by
  unfold trimmed
  split
  · next hlast =>
    match path with
    | [] => exact absurd hpath (by simp)
    | [b] => exact absurd rfl hlast.2
    | b :: c :: path => simpa using hpath
  · exact hpath

/-- A path that starts with a separator is turned into one that does. -/
lemma chdirPath_head {cwd path p : Str} {grow : Bool} (hcwd : cwd.head? = some slash)
    (h : chdirPath cwd path grow = some p) : p.head? = some slash := by
  by_cases hup : path = lit ".."
  · obtain ⟨pre, post, rfl, hpost⟩ := exists_last_slash hcwd
    rw [hup, chdirPath_up pre post hpost, Option.some.injEq] at h
    exact h ▸ head_up pre post hcwd
  · rw [chdirPath_of_ne cwd hup] at h
    split at h
    · exact Option.some.inj h ▸ trimmed_head (fullPath_head path hcwd)
    · exact absurd h (by simp)

/-- `vfs_chdir`: whether it succeeds, and the working directory afterwards.  `isDir` says
whether the path it built can be opened as a directory. -/
def vfsChdir (cwd path : Str) (grow : Bool) (isDir : Str → Bool) : Bool × Str :=
  match chdirPath cwd path grow with
  | none => (false, cwd)
  | some p => if isDir p then (true, p) else (false, cwd)

end Teensy41Ethernet.Ftpd
