import Mathlib.Data.UInt
import Teensy41Ethernet.Lib.CString
import Teensy41Ethernet.Lib.Program
import Teensy41Ethernet.Lib.Run
import Teensy41Ethernet.Ftpd.Vfs

/-!
# The store of the working directory

`vfs.cpp` keeps the working directory in a block of memory that `check_cwd` enlarges and
that `vfs_chdir` edits in place: it builds the new path there, asks the SD library about it,
and copies the old path back if the library does not like it.  Here the block is modelled
cell by cell, and a write outside it is a fault.  The result is that none of the writes
leaves the block, and that the string in the block is what `vfsChdir` of `Ftpd.Vfs` computes
on strings.
-/

namespace Teensy41Ethernet.Ftpd

open Lib

/-! ### The store -/

/-- The variables `cwd` and `cwd_size`, and the paths that `SD.open` was asked for. -/
structure Cwd where
  /-- The block that `cwd` points to, `none` for the null pointer. -/
  cwd : Option (List UInt8)
  cwdSize : ℕ
  opened : List Str

/-- How a C function on the store goes wrong. -/
inductive CwdFault
  /-- `cwd` is the null pointer -/
  | nullCwd
  /-- the copy of `cwd` is the null pointer -/
  | nullCopy
  /-- a write outside the block -/
  | overrun
  /-- a string without an end is read -/
  | unterminated
  /-- the character before the block is read -/
  | underrun
deriving DecidableEq

/-- One call of `vfs_chdir`: its argument, and what the libraries answer to it. -/
structure Chdir where
  path : Str
  /-- The argument is a C string. -/
  noNul : (0 : UInt8) ∉ path
  strdup : Bool
  realloc : Bool
  /-- What a cell that `realloc` adds holds. -/
  junk : ℕ → UInt8
  /-- The file that `SD.open` returns: whether it is a directory, `none` if it is invalid. -/
  sdOpen : Str → Option Bool

namespace Cwd

/-- `CWD_INC`. -/
def cwdInc : ℕ := 256

/-- The block behind `cwd`. -/
def block : Prog Cwd CwdFault (List UInt8) := do
  match (← get).cwd with
  | some b => pure b
  | none => throw .nullCwd

/-- The string in `cwd`. -/
def read : Prog Cwd CwdFault Str := do
  match text (← block) with
  | some t => pure t
  | none => throw .unterminated

/-- Change the block by a function of `string.h`. -/
def write (f : List UInt8 → Option (List UInt8)) : Prog Cwd CwdFault PUnit := do
  match f (← block) with
  | some b => modify fun s => { s with cwd := some b }
  | none => throw .overrun

/-- `check_cwd`. -/
def checkCwd (size : ℕ) (ok : Bool) (junk : ℕ → UInt8) : Prog Cwd CwdFault Bool := do
  let s ← get
  if s.cwdSize < size then
    let size := (size / cwdInc + 1) * cwdInc
    if ok then
      set { s with cwd := some (realloc (s.cwd.getD []) size junk), cwdSize := size }
      pure true
    else pure false
  else pure true

/-- `vfs_init`, from the null pointer and the size 0 of the static variables. -/
def vfsInit (ok : Bool) (junk : ℕ → UInt8) : Prog Cwd CwdFault PUnit := do
  let _ ← checkCwd 2 ok junk
  write (strcpy · [slash])

/-- The separator at the end of the path is cut off, unless it is the path. -/
def dropSeparator : Prog Cwd CwdFault PUnit := do
  let path ← read
  if path.length = 0 then throw .underrun
  else if path.getLast? = some slash ∧ path.length - 1 ≠ 0 then
    write (copyTo · (path.length - 1) [0])
  else pure ⟨⟩

/-- The path that `check_cwd` made room for. -/
def writePath (path cwd : Str) : Prog Cwd CwdFault PUnit := do
  if path.head? = some slash then write (strcpy · path)
  else
    if cwd ≠ [slash] then write (strcat · [slash])
    write (strcat · path)

/-- The size that `vfs_chdir` asks `check_cwd` for. -/
def pathSize (path cwd : Str) : ℕ :=
  path.length + if path.head? = some slash then 1 else cwd.length + 2

/-- The part of `vfs_chdir` that builds the path in `cwd`; the result is `res`. -/
def buildPath (c : Chdir) : Prog Cwd CwdFault Bool := do
  let cwd ← read
  if c.path = lit ".." then
    match strrchr slash cwd with
    | some p =>
      -- the separator at the start of the path stays
      write (copyTo · (if p = 0 then p + 1 else p) [0])
      pure true
    | none => pure false
  else
    if ← checkCwd (pathSize c.path cwd) c.realloc c.junk then
      writePath c.path cwd
      dropSeparator
      pure true
    else pure false

/-- `vfs_chdir`. -/
def vfsChdir (c : Chdir) : Prog Cwd CwdFault ℕ := do
  let old ← read
  let cpy := if c.strdup then some old else none
  let res ← buildPath c
  let path ← read
  modify fun s => { s with opened := s.opened ++ [path] }
  if res = true ∧ c.sdOpen path = some true then pure 0
  else
    match cpy with
    | some old =>
      write (strcpy · old)
      pure 1
    | none => throw .nullCopy

/-- The store before `vfs_init`. -/
def static : Cwd := { cwd := none, cwdSize := 0, opened := [] }

/-- One call of `vfs_chdir`; `none` if it goes wrong. -/
def step (s : Cwd) (c : Chdir) : Option Cwd :=
  match (vfsChdir c).run s with
  | .ok (_, s') => some s'
  | .error _ => none

/-! ### The parts of `vfs_chdir` -/

/-- The block has `cwd_size` cells and holds the string `t`. -/
def Holds (s : Cwd) (t : Str) : Prop :=
  ∃ b, s.cwd = some b ∧ b.length = s.cwdSize ∧ text b = some t

/-- What an edit in place leaves: the string `t`, in a block of the same size. -/
def Edited (s : Cwd) (t : Str) (s' : Cwd) : Prop :=
  s'.Holds t ∧ s'.cwdSize = s.cwdSize ∧ s'.opened = s.opened

variable {s : Cwd} {t : Str} {c : Chdir} {E : CwdFault → Prop}

lemma Holds.noNul (h : s.Holds t) : (0 : UInt8) ∉ t := by
  obtain ⟨b, -, -, htext⟩ := h
  exact (text_eq_some htext).1

lemma Holds.length_lt (h : s.Holds t) : t.length < s.cwdSize := by
  obtain ⟨b, -, hlen, htext⟩ := h
  exact hlen ▸ length_lt_of_text htext

lemma Holds.read {Q : Str → Cwd → Prop} (h : s.Holds t) : wp Cwd.read Q E s ↔ Q t s := by
  obtain ⟨b, hb, -, htext⟩ := h
  simp [Cwd.read, Cwd.block, hb, htext]

/-- A function that turns every block with the string `t` into one with `t'`. -/
lemma Holds.write {t' : Str} {f : List UInt8 → Option (List UInt8)} (h : s.Holds t)
    (hf : ∀ b : List UInt8, b.length = s.cwdSize → text b = some t →
      ∃ b', f b = some b' ∧ b'.length = b.length ∧ text b' = some t') :
    wp (Cwd.write f) (fun _ s' => s.Edited t' s') E s := by
  obtain ⟨b, hb, hlen, htext⟩ := h
  obtain ⟨b', hb', hlen', htext'⟩ := hf b hlen htext
  have hedited : s.Edited t' { s with cwd := some b' } :=
    ⟨⟨b', rfl, hlen'.trans hlen, htext'⟩, rfl, rfl⟩
  simpa [Cwd.write, Cwd.block, hb, hb'] using hedited

/-- Whether `check_cwd` succeeds. -/
def grows (s : Cwd) (size : ℕ) (ok : Bool) : Bool := decide (size ≤ s.cwdSize) || ok

/-- `check_cwd` keeps the string, and if it succeeds the block has the size asked for. -/
lemma Holds.checkCwd (h : s.Holds t) (size : ℕ) (ok : Bool) (junk : ℕ → UInt8) :
    wp (Cwd.checkCwd size ok junk)
      (fun r s' => r = s.grows size ok ∧ s'.Holds t ∧ s.cwdSize ≤ s'.cwdSize ∧
        s'.opened = s.opened ∧ (r = true → size ≤ s'.cwdSize)) E s := by
  obtain ⟨b, hb, hlen, htext⟩ := h
  by_cases hsize : s.cwdSize < size
  · have hbound : size < (size / cwdInc + 1) * cwdInc := by
      have := Nat.div_add_mod size cwdInc
      have := Nat.mod_lt size (show 0 < cwdInc by decide)
      rw [Nat.add_mul, Nat.mul_comm]
      omega
    have hlen' : b.length ≤ (size / cwdInc + 1) * cwdInc := by omega
    cases ok with
    | false =>
      have hgrows : s.grows size false = false := by simp [grows, hsize]
      simp only [Cwd.checkCwd, wp_bind, wp_get, if_pos hsize, if_neg Bool.false_ne_true, wp_pure]
      exact ⟨hgrows.symm, ⟨b, hb, hlen, htext⟩, le_rfl, trivial, fun hr => absurd hr (by simp)⟩
    | true =>
      simp only [Cwd.checkCwd, wp_bind, wp_get, if_pos hsize, if_true, wp_set, wp_pure, hb,
        Option.getD_some]
      refine ⟨by simp [grows], ⟨_, rfl, length_realloc junk hlen', text_realloc htext _ junk⟩,
        ?_, trivial, fun _ => ?_⟩
      · show s.cwdSize ≤ (size / cwdInc + 1) * cwdInc
        omega
      · exact hbound.le
  · have hgrows : s.grows size ok = true := by simp [grows]; omega
    simp only [Cwd.checkCwd, wp_bind, wp_get, if_neg hsize, wp_pure]
    exact ⟨hgrows.symm, ⟨b, hb, hlen, htext⟩, le_rfl, trivial, fun _ => by omega⟩

lemma Holds.writePath {path : Str} (h : s.Holds t) (hpath : (0 : UInt8) ∉ path)
    (hsize : pathSize path t ≤ s.cwdSize) :
    wp (Cwd.writePath path t) (fun _ s' => s.Edited (fullPath path t) s') E s := by
  unfold Cwd.writePath fullPath
  unfold pathSize at hsize
  by_cases habs : path.head? = some slash
  · rw [if_pos habs] at hsize
    rw [if_pos habs, if_pos habs]
    exact h.write fun b hb _ => strcpy_spec hpath (by omega)
  · rw [if_neg habs] at hsize
    rw [if_neg habs, if_neg habs]
    by_cases hroot : t = [slash]
    · rw [if_neg (not_not.mpr hroot), if_pos hroot]
      exact h.write fun b hb htext => strcat_spec htext hpath (by omega)
    · rw [if_pos hroot, if_neg hroot]
      have hsep : wp (Cwd.write (strcat · [slash]))
          (fun _ s' => s.Edited (t ++ [slash]) s') E s :=
        h.write fun b hb htext => strcat_spec htext (by decide) (by simp; omega)
      refine wp_seq hsep fun _ s₁ ⟨h₁, hs₁, ho₁⟩ => ?_
      have hcat : wp (Cwd.write (strcat · path))
          (fun _ s' => s₁.Edited (t ++ [slash] ++ path) s') E s₁ :=
        h₁.write fun b hb htext => strcat_spec htext hpath (by simp; omega)
      exact wp_mono hcat (fun _ s₂ ⟨h₂, hs₂, ho₂⟩ => ⟨h₂, hs₂.trans hs₁, ho₂.trans ho₁⟩)
        fun _ he => he

lemma Holds.dropSeparator (h : s.Holds t) (ht : t ≠ []) :
    wp Cwd.dropSeparator (fun _ s' => s.Edited (trimmed t) s') E s := by
  have hpos : 0 < t.length := List.length_pos_iff.mpr ht
  rw [Cwd.dropSeparator, wp_bind, h.read, if_neg (by omega)]
  unfold trimmed
  by_cases hlast : t.getLast? = some slash ∧ t.length ≠ 1
  · rw [if_pos ⟨hlast.1, by omega⟩, if_pos hlast, List.dropLast_eq_take]
    exact h.write fun b _ htext => copyTo_zero_spec htext (by omega)
  · rw [if_neg fun hc => hlast ⟨hc.1, by omega⟩, if_neg hlast]
    exact ⟨h, rfl, rfl⟩

/-- The path that a call builds in place of `t`, if any. -/
def newPath (s : Cwd) (t : Str) (c : Chdir) : Option Str :=
  chdirPath t c.path (s.grows (pathSize c.path t) c.realloc)

/-- What `buildPath` leaves: the new path, or the old string if there is none. -/
def Built (s : Cwd) (t : Str) (path : Option Str) (r : Bool) (s' : Cwd) : Prop :=
  s.cwdSize ≤ s'.cwdSize ∧ s'.opened = s.opened ∧ r = path.isSome ∧ s'.Holds (path.getD t)

lemma Edited.built {s' : Cwd} {p : Str} (h : s.Edited p s') : s.Built t (some p) true s' := by
  obtain ⟨hholds, hsize, hopened⟩ := h
  exact ⟨hsize.ge, hopened, rfl, hholds⟩

/-- The parent directory. -/
lemma Holds.buildPath_up (h : s.Holds t) (ht : t.head? = some slash) (hup : c.path = lit "..") :
    wp (buildPath c) (fun r s' => s.Built t (s.newPath t c) r s') E s := by
  rw [buildPath, wp_bind, h.read, if_pos hup, newPath, hup]
  cases hp : strrchr slash t with
  | none => exact absurd (List.mem_of_mem_head? ht) (strrchr_eq_none hp)
  | some p =>
    obtain ⟨pre, post, rfl, hpost, rfl⟩ := strrchr_eq_some hp
    rw [chdirPath_up pre post hpost]
    have hcut : (if pre.length = 0 then pre.length + 1 else pre.length) ≤
        (pre ++ slash :: post).length := by
      rw [List.length_append, List.length_cons]
      split
      · omega
      · omega
    refine wp_seq (h.write fun b _ htext => copyTo_zero_spec htext hcut)
      fun _ s' hs' => Edited.built ?_
    by_cases hpre : pre = []
    · subst hpre
      simpa using hs'
    · rw [if_neg (mt List.length_eq_zero_iff.mp hpre), List.take_left] at hs'
      rwa [if_neg hpre]

/-- Any other directory. -/
lemma Holds.buildPath_of_ne (h : s.Holds t) (ht : t.head? = some slash)
    (hup : c.path ≠ lit "..") :
    wp (buildPath c) (fun r s' => s.Built t (s.newPath t c) r s') E s := by
  rw [buildPath, wp_bind, h.read, if_neg hup, newPath, chdirPath_of_ne t hup]
  refine wp_seq (h.checkCwd (pathSize c.path t) c.realloc c.junk) ?_
  rintro r s₁ ⟨hr, h₁, hle₁, ho₁, hroom⟩
  rw [← hr]
  cases r with
  | false => exact ⟨hle₁, ho₁, rfl, h₁⟩
  | true =>
    have hne : fullPath c.path t ≠ [] :=
      List.ne_nil_of_mem (List.mem_of_mem_head? (fullPath_head c.path ht))
    refine wp_seq (h₁.writePath c.noNul (hroom rfl)) fun _ s₂ ⟨h₂, hs₂, ho₂⟩ => ?_
    refine wp_seq (h₂.dropSeparator hne) fun _ s₃ ⟨h₃, hs₃, ho₃⟩ => ?_
    exact ⟨by omega, ho₃.trans (ho₂.trans ho₁), rfl, h₃⟩

lemma Holds.buildPath (h : s.Holds t) (ht : t.head? = some slash) :
    wp (buildPath c) (fun r s' => s.Built t (s.newPath t c) r s') E s := by
  by_cases hup : c.path = lit ".."
  · exact h.buildPath_up ht hup
  · exact h.buildPath_of_ne ht hup

/-! ### The whole call -/

/-- What `vfs_chdir` computes on strings, in the state of the store. -/
def chdir (s : Cwd) (t : Str) (c : Chdir) : Bool × Str :=
  Ftpd.vfsChdir t c.path (s.grows (pathSize c.path t) c.realloc)
    fun p => decide (c.sdOpen p = some true)

lemma chdir_eq (s : Cwd) (t : Str) (c : Chdir) :
    s.chdir t c =
      if (s.newPath t c).isSome = true ∧ c.sdOpen ((s.newPath t c).getD t) = some true then
        (true, (s.newPath t c).getD t)
      else (false, t) := by
  rw [chdir, Ftpd.vfsChdir, ← newPath]
  cases s.newPath t c with
  | none => simp
  | some p => simp

/-- What a call leaves: the path it built was shown to `SD.open`, and the string in the
store and the answer are those of the string function. -/
structure Called (s : Cwd) (t : Str) (c : Chdir) (r : ℕ) (s' : Cwd) : Prop where
  opened : s'.opened = s.opened ++ [(s.newPath t c).getD t]
  holds : s'.Holds (s.chdir t c).2
  answer : r = if (s.chdir t c).1 then 0 else 1

/-- **The store refines the strings.** With a copy of the old path at hand, a call never goes
wrong, and it does what the string function says. -/
theorem vfsChdir_refines (h : s.Holds t) (ht : t.head? = some slash) (hdup : c.strdup = true) :
    wp (vfsChdir c) (fun r s' => s.Called t c r s') (fun _ => False) s := by
  rw [Cwd.vfsChdir, wp_bind, h.read, if_pos hdup]
  refine wp_seq (h.buildPath ht) ?_
  rintro res s₁ ⟨hle, hopened, rfl, h₁⟩
  rw [wp_bind, h₁.read, wp_bind, wp_modify]
  have hchdir := chdir_eq s t c
  split at hchdir
  · next hdir =>
    rw [if_pos hdir, wp_pure]
    exact ⟨by rw [hopened], by rw [hchdir]; exact h₁, by rw [hchdir]; rfl⟩
  · next hdir =>
    rw [if_neg hdir]
    -- the block has not become smaller, so that the old path still fits
    set p := (s.newPath t c).getD t
    have h₂ : Holds { s₁ with opened := s₁.opened ++ [p] } p := h₁
    have hroom : t.length < s₁.cwdSize := h.length_lt.trans_le hle
    refine wp_seq (h₂.write fun b hb _ => strcpy_spec h.noNul (hroom.trans_eq hb.symm)) ?_
    rintro _ s₃ ⟨h₃, -, ho₃⟩
    exact ⟨by rw [ho₃, hopened], by rw [hchdir]; exact h₃, by rw [hchdir]; rfl⟩

/-- The string function keeps paths absolute. -/
lemma chdir_head (ht : t.head? = some slash) : (s.chdir t c).2.head? = some slash := by
  rw [chdir_eq]
  split
  · next hdir =>
    obtain ⟨p, hp⟩ := Option.isSome_iff_exists.mp hdir.1
    rw [hp, Option.getD_some]
    exact chdirPath_head ht hp
  · exact ht

/-! ### Runs -/

/-- The store holds an absolute path. -/
def Stored (s : Cwd) : Prop := ∃ t, s.Holds t ∧ t.head? = some slash

/-- `vfs_init` stores the root, unless it gets no memory. -/
lemma vfsInit_spec (ok : Bool) (junk : ℕ → UInt8) :
    wp (vfsInit ok junk) (fun _ s => s.Holds [slash]) (fun _ => ok = false) static := by
  cases ok with
  | false => simp [vfsInit, checkCwd, write, block, static]
  | true =>
    obtain ⟨b, hb, hlen, htext⟩ : ∃ b, strcpy (realloc [] 256 junk) [slash] = some b ∧
        b.length = (realloc [] 256 junk).length ∧ text b = some [slash] :=
      strcpy_spec (by decide) (by rw [length_realloc junk (by simp)]; decide)
    rw [length_realloc junk (by simp)] at hlen
    have hholds : Holds { static with cwd := some b, cwdSize := 256 } [slash] :=
      ⟨b, rfl, hlen, htext⟩
    simpa [vfsInit, checkCwd, write, block, static, cwdInc, hb] using hholds

lemma vfsInit_ok (junk : ℕ → UInt8) :
    ∃ s₀, (vfsInit true junk).run static = .ok (⟨⟩, s₀) := by
  cases hrun : (vfsInit true junk).run static with
  | error e => exact absurd (wp_error (vfsInit_spec true junk) hrun) (by decide)
  | ok r => exact ⟨r.2, rfl⟩

/-- A call goes through, and the answer says what became of the path. -/
lemma Holds.vfsChdir (h : s.Holds t) (ht : t.head? = some slash) (hdup : c.strdup = true) :
    ∃ r s' t', (Cwd.vfsChdir c).run s = .ok (r, s') ∧ s'.Holds t' ∧ t'.head? = some slash ∧
      (c.path = lit ".." → t = [slash] → t' = [slash]) ∧ (r = 0 ∨ r = 1) ∧ (r = 1 → t' = t) ∧
      (r = 0 → s'.opened = s.opened ++ [t'] ∧ c.sdOpen t' = some true) := by
  have hcall := vfsChdir_refines h ht hdup
  obtain ⟨r, s', hrun, hopened, hholds, hanswer⟩ := wp_returns hcall
  have hhead := chdir_head (s := s) (c := c) ht
  have hroot : c.path = lit ".." → t = [slash] → (s.chdir t c).2 = [slash] := by
    rintro hup rfl
    have hnew : s.newPath [slash] c = some [slash] := by
      rw [newPath, hup]
      exact chdirPath_up [] [] (by simp) _
    rw [chdir_eq, hnew]
    split
    · rfl
    · rfl
  have hchdir := chdir_eq s t c
  refine ⟨r, s', _, hrun, hholds, hhead, hroot, ?_⟩
  split at hchdir
  · next hdir =>
    rw [hchdir] at hanswer ⊢
    have hr : r = 0 := hanswer
    exact ⟨Or.inl hr, fun h1 => absurd (hr.symm.trans h1) (by decide),
      fun _ => ⟨hopened, hdir.2⟩⟩
  · rw [hchdir] at hanswer ⊢
    have hr : r = 1 := hanswer
    exact ⟨Or.inr hr, fun _ => rfl, fun h0 => absurd (hr.symm.trans h0) (by decide)⟩

/-- A call keeps an absolute path in the store. -/
lemma Stored.step (h : s.Stored) (hdup : c.strdup = true) :
    ∃ s', s.step c = some s' ∧ s'.Stored := by
  obtain ⟨t, hholds, ht⟩ := h
  obtain ⟨r, s', t', hrun, hholds', ht', -⟩ := hholds.vfsChdir ht hdup
  exact ⟨s', by rw [Cwd.step, hrun], t', hholds', ht'⟩

/-- **The store of the working directory.** After `vfs_init`, whatever paths `vfs_chdir` is
called with and whatever the libraries answer, as long as the old path can be copied: no call
writes outside the `cwd_size` cells of the block, which always holds an absolute path with
its terminator.  The parent of a directory is never empty, and the root is its own parent.  A
call that returns 1 leaves the path as it was; one that returns 0 leaves the path that
`SD.open` accepted as a directory. -/
theorem cwd_always_stored {ok : Bool} {junk : ℕ → UInt8} {s₀ : Cwd}
    (hinit : (vfsInit ok junk).run static = .ok (⟨⟩, s₀)) {cs : List Chdir}
    (hcs : ∀ c ∈ cs, c.strdup = true) :
    ∃ s t, exec Cwd.step s₀ cs = some s ∧ s.Holds t ∧ t.head? = some slash ∧
      t.length + 1 ≤ s.cwdSize ∧
      ∀ c : Chdir, c.strdup = true →
        ∃ r s' t', (vfsChdir c).run s = .ok (r, s') ∧ s'.Holds t' ∧ t'.head? = some slash ∧
          (c.path = lit ".." → t' ≠ [] ∧ (t = [slash] → t' = [slash])) ∧
          (r = 0 ∨ r = 1) ∧ (r = 1 → t' = t) ∧
          (r = 0 → s'.opened = s.opened ++ [t'] ∧ c.sdOpen t' = some true) := by
  have hstart : s₀.Stored := ⟨[slash], wp_ok (vfsInit_spec ok junk) hinit, rfl⟩
  have hadmits : Admits Cwd.step (fun _ c => c.strdup = true) s₀ cs :=
    admits_of_forall fun c hc _ => hcs c hc
  obtain ⟨s, hrun, t, hholds, ht⟩ :=
    exec_total_of_admits (fun s c hs hc => hs.step hc) hstart hadmits
  refine ⟨s, t, hrun, hholds, ht, hholds.length_lt, fun c hc => ?_⟩
  obtain ⟨r, s', t', hcall, hholds', ht', hroot, hanswer⟩ := hholds.vfsChdir ht hc
  refine ⟨r, s', t', hcall, hholds', ht', fun hup => ⟨?_, hroot hup⟩, hanswer⟩
  exact List.ne_nil_of_mem (List.mem_of_mem_head? ht')

/-- A call of `vfs_chdir` with the argument `"a"` on a card where every path is a directory. -/
def chdirA : Chdir :=
  { path := lit "a", noNul := by decide, strdup := true, realloc := true, junk := fun _ => 1,
    sdOpen := fun _ => some true }

theorem cwd_always_stored_of_chdirA :
    ∃ s₀, (vfsInit true fun _ => 1).run static = .ok (⟨⟩, s₀) ∧
      (∀ c ∈ [chdirA, chdirA], c.strdup = true) ∧
      ∃ s t, exec Cwd.step s₀ [chdirA, chdirA] = some s ∧ s.Holds t ∧ t.head? = some slash := by
  have hdup : ∀ c ∈ [chdirA, chdirA], c.strdup = true := by simp [chdirA]
  obtain ⟨s₀, hinit⟩ := vfsInit_ok fun _ => 1
  obtain ⟨s, t, hexec, hholds, ht, -⟩ := cwd_always_stored hinit hdup
  exact ⟨s₀, hinit, hdup, s, t, hexec, hholds, ht⟩

end Cwd

end Teensy41Ethernet.Ftpd
