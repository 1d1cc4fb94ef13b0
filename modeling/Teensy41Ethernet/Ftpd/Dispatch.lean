import Mathlib.Data.List.DropRight
import Mathlib.Data.UInt
import Teensy41Ethernet.Ftpd.Faults
import Teensy41Ethernet.Lib.CString
import Teensy41Ethernet.Lib.TakeWhile

/-!
# From a packet to a handler

`ftpd_msgrecv` copies a packet into a block of memory, removes the line ends at its end, copies
the first four bytes into a second block `cmd` for the verb, and looks the verb up in its table.
In the blocks it goes wrong in one way: a line with nothing but line ends before its first zero
makes it read the byte before the text.  The handlers it calls go wrong if they need an argument
and the line is a bare verb.

The verb of a line is its run of letters, but `cmd` has room for four of them only: a longer verb
is taken for the one that its first four letters are.
-/

namespace Teensy41Ethernet.Ftpd

open Lib Lwip

/-! ### The text and the verb in memory -/

/-- A carriage return or a line feed. -/
def isLineEnd (c : UInt8) : Bool := c = 13 ∨ c = 10

/-- The packet is copied into the block, part by part, from the index on, with a zero behind
it. -/
def copyChain : Chain → ℕ → List UInt8 → Option (List UInt8)
  | [], i, block => copyTo block i [0]
  | q :: p, i, block => (copyTo block i q).bind (copyChain p (i + q.length))

/-- The loop that trims the text, with `i` for `pt = &text[i - 1]`.  It reads the byte before it
tests whether there is one. -/
def trimLoop : ℕ → List UInt8 → Option (List UInt8)
  | 0, _ => none
  | i + 1, block => block[i]?.bind fun c =>
      if isLineEnd c then trimLoop i (block.set i 0) else some block

/-- The loop over `cmd` from a pointer on, with `n` cells before `&cmd[4]`, and the terminator
behind it.  It reads the cell before it tests the bound. -/
def upperLoop : ℕ → List UInt8 → Option (List UInt8)
  | _, [] => none
  | 0, _ :: cmd => some (0 :: cmd)
  | n + 1, c :: cmd => if isAlpha c then (upperLoop n cmd).map (toUpper c :: ·) else some (0 :: cmd)

/-- The text and the verb of a packet in their two blocks of memory, with whatever is in them at
first; `none` if something is read or written outside. -/
def parseLine (p : Chain) (textBlock cmdBlock : List UInt8) :
    Option (List UInt8 × List UInt8) := do
  let block ← copyChain p 0 textBlock
  let t ← text block
  let block ← trimLoop t.length block
  let cmd ← strncpy cmdBlock block 4
  let cmd ← upperLoop 4 cmd
  pure (block, cmd)

/-- The text of `tot_len + 1` bytes and the verb of five are enough. -/
def StaysInside (p : Chain) : Prop :=
  ∀ textBlock cmdBlock : List UInt8, textBlock.length = p.flatten.length + 1 →
    cmdBlock.length = 5 → (parseLine p textBlock cmdBlock).isSome

/-! ### What the loops do -/

lemma copyChain_append (p : Chain) (pre mid : List UInt8)
    (hmid : mid.length = p.flatten.length + 1) :
    copyChain p pre.length (pre ++ mid) = some (pre ++ p.flatten ++ [0]) := by
  induction p generalizing pre mid with
  | nil =>
    have hcopy := copyTo_append pre mid [] [0] hmid
    rw [List.append_nil, List.append_nil] at hcopy
    rw [copyChain, hcopy, List.flatten_nil, List.append_nil]
  | cons q p ih =>
    rw [List.flatten_cons, List.length_append] at hmid
    have hq : (mid.take q.length).length = q.length := by
      rw [List.length_take]
      omega
    have hcopy := copyTo_append pre (mid.take q.length) (mid.drop q.length) q hq
    rw [List.append_assoc, List.take_append_drop] at hcopy
    have hrest := ih (pre ++ q) (mid.drop q.length) (by rw [List.length_drop]; omega)
    rw [List.length_append] at hrest
    rw [copyChain, hcopy, Option.bind_some, hrest, List.flatten_cons, List.append_assoc pre q]

/-- One round of the trimming loop. -/
lemma trimLoop_concat (t : Str) (c : UInt8) (rest : List UInt8) :
    trimLoop (t ++ [c]).length (t ++ [c] ++ 0 :: rest) =
      if isLineEnd c then trimLoop t.length (t ++ 0 :: 0 :: rest)
      else some (t ++ [c] ++ 0 :: rest) := by
  have hget : (t ++ [c] ++ 0 :: rest)[t.length]? = some c := by simp
  have hset : (t ++ [c] ++ 0 :: rest).set t.length 0 = t ++ 0 :: 0 :: rest := by simp
  rw [List.length_append, List.length_singleton, trimLoop, hget, Option.bind_some, hset]

/-- With nothing but line ends the loop reads before the text. -/
lemma trimLoop_eq_none {t : Str} (rest : List UInt8) (h : ∀ c ∈ t, isLineEnd c = true) :
    trimLoop t.length (t ++ 0 :: rest) = none := by
  induction t using List.reverseRecOn generalizing rest with
  | nil => rfl
  | append_singleton t c ih =>
    rw [trimLoop_concat, if_pos (h c (by simp))]
    exact ih (0 :: rest) fun b hb => h b (List.mem_append_left _ hb)

/-- Otherwise it stops in the text and cuts off the line ends. -/
lemma trimLoop_eq_some {t : Str} (rest : List UInt8) (h0 : 0 ∉ t)
    (h : t.rdropWhile isLineEnd ≠ []) :
    ∃ block, trimLoop t.length (t ++ 0 :: rest) = some block ∧
      text block = some (t.rdropWhile isLineEnd) := by
  induction t using List.reverseRecOn generalizing rest with
  | nil => exact absurd (List.rdropWhile_nil _) h
  | append_singleton t c ih =>
    rw [trimLoop_concat]
    by_cases hc : isLineEnd c = true
    · rw [List.rdropWhile_concat_pos _ _ _ hc] at h ⊢
      rw [if_pos hc]
      exact ih (0 :: rest) (fun hmem => h0 (List.mem_append_left _ hmem)) h
    · rw [List.rdropWhile_concat_neg _ _ _ hc, if_neg hc]
      exact ⟨_, rfl, text_append h0 rest⟩

lemma toUpper_ne_zero {c : UInt8} (h : isAlpha c = true) : toUpper c ≠ 0 := by
  simp only [isAlpha, toUpper, decide_eq_true_eq] at *
  grind

/-- The loop over `cmd` leaves the letters at its start, in upper case. -/
lemma text_upperLoop (l : Str) (c : UInt8) (rest : List UInt8) :
    ∃ cmd, upperLoop l.length (l ++ c :: rest) = some cmd ∧
      text cmd = some ((l.takeWhile isAlpha).map toUpper) := by
  induction l with
  | nil => exact ⟨0 :: rest, rfl, if_pos rfl⟩
  | cons b l ih =>
    rw [List.length_cons, List.cons_append, upperLoop]
    by_cases hb : isAlpha b = true
    · obtain ⟨cmd, hcmd, htext⟩ := ih
      refine ⟨toUpper b :: cmd, by rw [if_pos hb, hcmd, Option.map_some], ?_⟩
      rw [text, if_neg (toUpper_ne_zero hb), htext, List.takeWhile_cons_of_pos hb, Option.map_some,
        List.map_cons]
    · refine ⟨0 :: (l ++ c :: rest), if_neg hb, ?_⟩
      rw [List.takeWhile_cons_of_neg hb]
      exact if_pos rfl

/-! ### What is in the blocks -/

/-- The text of a packet is what stands before its first zero. -/
def lineOf (p : Chain) : Str := p.flatten.takeWhile (· ≠ 0)

lemma commandText_eq (p : Chain) : commandText p = (lineOf p).rdropWhile isLineEnd := rfl

lemma zero_notMem_lineOf (p : Chain) : 0 ∉ lineOf p := by
  intro h
  have hne := List.mem_takeWhile_imp h
  simp at hne

/-- A zero behind a text splits it at the first zero. -/
lemma exists_takeWhile_append (l : Str) :
    ∃ rest, l ++ [0] = l.takeWhile (· ≠ 0) ++ 0 :: rest := by
  induction l with
  | nil => exact ⟨[], rfl⟩
  | cons b l ih =>
    by_cases hb : b = 0
    · exact ⟨l ++ [0], by rw [List.takeWhile_cons_of_neg (by simp [hb]), hb]; rfl⟩
    · obtain ⟨rest, hrest⟩ := ih
      exact ⟨rest, by rw [List.takeWhile_cons_of_pos (by simp [hb]), List.cons_append, hrest]; rfl⟩

/-- The block with the packet holds its line. -/
lemma exists_copyChain {p : Chain} {block : List UInt8}
    (hlen : block.length = p.flatten.length + 1) :
    ∃ rest, copyChain p 0 block = some (lineOf p ++ 0 :: rest) := by
  obtain ⟨rest, hrest⟩ := exists_takeWhile_append p.flatten
  refine ⟨rest, ?_⟩
  have hcopy : copyChain p 0 block = some (p.flatten ++ [0]) := copyChain_append p [] block hlen
  rw [hcopy, hrest]
  rfl

/-- The verb in a block of five cells: four are copied, and there is one for the zero behind
them. -/
lemma exists_verb {block cmdBlock : List UInt8} {t : Str} (ht : text block = some t)
    (hlen : cmdBlock.length = 5) :
    ∃ cmd, (strncpy cmdBlock block 4).bind (upperLoop 4) = some cmd ∧
      text cmd = some (commandVerb t) := by
  obtain ⟨c, hc⟩ : ∃ c, cmdBlock.drop 4 = [c] :=
    List.length_eq_one_iff.mp (by rw [List.length_drop, hlen])
  have hcopy : strncpy cmdBlock block 4 = _ := strncpy_spec ht (by rw [hlen]; decide)
  obtain ⟨cmd, hupper, htext⟩ := text_upperLoop (t.take 4 ++ List.replicate (4 - t.length) 0) c []
  have hfour : (t.take 4 ++ List.replicate (4 - t.length) (0 : UInt8)).length = 4 := by
    simp only [List.length_append, List.length_take, List.length_replicate]
    omega
  rw [hfour, ← hc] at hupper
  refine ⟨cmd, by rw [hcopy, Option.bind_some, hupper], ?_⟩
  -- the zeros that fill up the copy are not letters
  have hzeros : ∀ c ∈ (List.replicate (4 - t.length) (0 : UInt8)).head?, isAlpha c = false := by
    intro c hc
    rw [List.eq_of_mem_replicate (List.mem_of_mem_head? hc)]
    rfl
  rw [htext, takeWhile_append_of_head hzeros, commandVerb]

/-- **The blocks hold the command line and its verb** if the line has more than line ends. -/
theorem parseLine_eq_some {p : Chain} {textBlock cmdBlock : List UInt8}
    (htext : textBlock.length = p.flatten.length + 1) (hcmd : cmdBlock.length = 5)
    (hline : commandText p ≠ []) :
    ∃ block cmd, parseLine p textBlock cmdBlock = some (block, cmd) ∧
      text block = some (commandText p) ∧ text cmd = some (commandVerb (commandText p)) := by
  obtain ⟨rest, hcopy⟩ := exists_copyChain htext
  have hlen : text (lineOf p ++ 0 :: rest) = some (lineOf p) :=
    text_append (zero_notMem_lineOf p) rest
  obtain ⟨block, htrim, hblock⟩ := trimLoop_eq_some rest (zero_notMem_lineOf p) hline
  obtain ⟨cmd, hverb, hcmd'⟩ := exists_verb hblock hcmd
  obtain ⟨cmd₁, hcmd₁, hupper⟩ := Option.bind_eq_some_iff.mp hverb
  refine ⟨block, cmd, ?_, hblock, hcmd'⟩
  simp only [parseLine, Option.bind_eq_bind, Option.bind_some, hcopy, hlen, htrim, hcmd₁, hupper]
  rfl

/-- The byte before the text is read if the line has nothing but line ends. -/
lemma parseLine_eq_none {p : Chain} {textBlock : List UInt8} (cmdBlock : List UInt8)
    (htext : textBlock.length = p.flatten.length + 1) (hline : commandText p = []) :
    parseLine p textBlock cmdBlock = none := by
  obtain ⟨rest, hcopy⟩ := exists_copyChain htext
  have hlen : text (lineOf p ++ 0 :: rest) = some (lineOf p) :=
    text_append (zero_notMem_lineOf p) rest
  have htrim : trimLoop (lineOf p).length (lineOf p ++ 0 :: rest) = none :=
    trimLoop_eq_none rest (List.rdropWhile_eq_nil_iff.mp hline)
  simp only [parseLine, Option.bind_eq_bind, Option.bind_some, hcopy, hlen, htrim, Option.bind_none]

lemma staysInside_iff (p : Chain) : StaysInside p ↔ ∃ c ∈ lineOf p, isLineEnd c = false := by
  have hline : commandText p ≠ [] ↔ ∃ c ∈ lineOf p, isLineEnd c = false := by
    rw [commandText_eq, ne_eq, List.rdropWhile_eq_nil_iff]
    simp
  rw [← hline]
  constructor
  · intro hinside hnil
    have hsome := hinside (List.replicate _ 0) (List.replicate 5 0) List.length_replicate rfl
    rw [parseLine_eq_none _ List.length_replicate hnil] at hsome
    cases hsome
  · intro hne textBlock cmdBlock htext hcmd
    obtain ⟨block, cmd, hparse, -⟩ := parseLine_eq_some htext hcmd hne
    rw [hparse]
    rfl

/-! ### Bare verbs -/

/-- The verbs whose handlers use their argument without a test. -/
def argVerbs : List Str := [lit "PORT", lit "CWD", lit "RETR", lit "STOR", lit "TYPE"]

/-- The line has such a verb and nothing behind it but line ends. -/
def BareVerb (line : Str) : Prop :=
  ∃ verb ends, line = verb ++ ends ∧ (∀ c ∈ ends, isLineEnd c = true) ∧
    verb.map toUpper ∈ argVerbs

lemma isAlpha_of_toUpper {c : UInt8} (h : isAlpha (toUpper c) = true) : isAlpha c = true := by
  simp only [isAlpha, toUpper, decide_eq_true_eq] at *
  grind

/-- The verb of a line in `cmd`: its run of letters, of which four are kept. -/
lemma commandVerb_eq (t : Str) : commandVerb t = ((t.takeWhile isAlpha).take 4).map toUpper := by
  rw [commandVerb, takeWhile_take]

/-- There is no argument if the line is the verb and nothing else. -/
lemma commandArg_eq_none_iff (t : Str) :
    commandArg t = none ↔ (t.takeWhile isAlpha).take 4 = t := by
  have hpre : (t.takeWhile isAlpha).take 4 <+: t :=
    List.IsPrefix.trans ( List.take_prefix _ _) ( List.takeWhile_prefix _)
  have hlen : (commandVerb t).length = ((t.takeWhile isAlpha).take 4).length := by
    rw [commandVerb_eq, List.length_map]
  simp only [commandArg, ite_eq_left_iff, reduceCtorEq, imp_false, not_not, hlen]
  constructor
  · intro hlt
    exact hpre.eq_of_length_le (Nat.lt_succ_iff.mp hlt)
  · intro heq
    rw [heq]
    exact Nat.lt_succ_self _

lemma isLineEnd_of_isAlpha {c : UInt8} (h : isAlpha c = true) : isLineEnd c = false := by
  simp only [isAlpha, isLineEnd, decide_eq_true_eq, decide_eq_false_iff_not] at *
  grind

/-- Letters before line ends. -/
lemma rdropWhile_append_lineEnds {verb ends : Str} (hverb : ∀ c ∈ verb, isAlpha c = true)
    (hends : ∀ c ∈ ends, isLineEnd c = true) : (verb ++ ends).rdropWhile isLineEnd = verb := by
  have hends' : ∀ c ∈ ends.reverse, isLineEnd c = true := fun c hc =>
    hends c (List.mem_reverse.mp hc)
  rw [List.rdropWhile, List.reverse_append, List.dropWhile_append_of_pos hends']
  refine List.rdropWhile_eq_self_iff.mpr fun hne => ?_
  rw [isLineEnd_of_isAlpha (hverb _ (List.getLast_mem hne))]
  exact Bool.false_ne_true

lemma argVerbs_spec {verb : Str} (h : verb ∈ argVerbs) :
    verb.length ≤ 4 ∧ (∀ c ∈ verb, isAlpha c = true) ∧
      ∃ e, ftpdCommands.find? (fun e => e.1 = verb) = some e ∧ e.2.NeedsArg := by
  simp only [argVerbs, List.mem_cons, List.not_mem_nil, or_false] at h
  rcases h with rfl | rfl | rfl | rfl | rfl
  · exact ⟨by decide, by decide +kernel, _, rfl, trivial⟩
  · exact ⟨by decide, by decide +kernel, _, rfl, trivial⟩
  · exact ⟨by decide, by decide +kernel, _, rfl, trivial⟩
  · exact ⟨by decide, by decide +kernel, _, rfl, trivial⟩
  · exact ⟨by decide, by decide +kernel, _, rfl, trivial⟩

/-- A handler that needs an argument gets none exactly for a bare verb. -/
lemma executed_null_iff (p : Chain) :
    (∃ c, executed p = some (c, none) ∧ c.NeedsArg) ↔ BareVerb (lineOf p) := by
  constructor
  · rintro ⟨c, hc, hneeds⟩
    obtain ⟨c', hlookup, hpair⟩ := Option.map_eq_some_iff.mp hc
    obtain ⟨rfl, harg⟩ := Prod.mk.inj hpair
    obtain ⟨e, hfind, rfl⟩ := Option.map_eq_some_iff.mp hlookup
    have hname := List.find?_some hfind
    rw [decide_eq_true_eq] at hname
    have hverbs : ∀ e ∈ ftpdCommands, e.2.NeedsArg → e.1 ∈ argVerbs := by decide
    refine ⟨commandText p, (lineOf p).rtakeWhile isLineEnd, ?_, ?_, ?_⟩
    · exact (List.rdropWhile_append_rtakeWhile ..).symm
    · exact fun c hc => List.mem_rtakeWhile_imp hc
    · have hmem := hverbs e (List.mem_of_find?_eq_some hfind) hneeds
      rwa [hname, commandVerb_eq, (commandArg_eq_none_iff _).mp harg] at hmem
  · rintro ⟨verb, ends, hline, hends, hverb⟩
    obtain ⟨hlen, halpha, e, hfind, hneeds⟩ := argVerbs_spec hverb
    rw [List.length_map] at hlen
    have hletters : ∀ c ∈ verb, isAlpha c = true := fun c hc =>
      isAlpha_of_toUpper (halpha _ (List.mem_map_of_mem hc))
    have htext : commandText p = verb := by
      rw [commandText_eq, hline, rdropWhile_append_lineEnds hletters hends]
    have hfour : (verb.takeWhile isAlpha).take 4 = verb := by
      rw [List.takeWhile_eq_self_iff.mpr hletters, List.take_of_length_le hlen]
    refine ⟨e.2, ?_, hneeds⟩
    rw [executed, lookupCommand, htext, (commandArg_eq_none_iff verb).mpr hfour, commandVerb_eq,
      hfour, hfind]
    rfl

/-! ### Safe command lines -/

/-- Memory is respected while the line is taken apart, and the handler does not use an argument
that is not there. -/
def SafeLine (e : Event) (p : Chain) (s : Sys) : Prop :=
  (e.env.mallocText = true → StaysInside p) ∧ stops e s ≠ some .nullArg

lemma Command.run_nullArg {c : Command} (hneeds : c.NeedsArg) (env : Env) (s : Sys) :
    wp (c.run none env) (fun _ _ => False) (fun f => f = .nullArg) s := by
  cases c with
  | port | cwd | retr | stor | type => rfl
  | _ => exact hneeds.elim

lemma stops_nullArg_iff {s : Sys} {m : MsgState} (hm : s.fsm = some m) {e : Event} {p : Chain}
    (hcb : e.callback = .msgrecv p) :
    stops e s = some .nullArg ↔ ∃ c, e.executed = some (c, none) ∧ c.NeedsArg := by
  rw [stops_eq_some_iff]
  constructor
  · intro hrun
    by_contra hno
    rw [not_exists] at hno
    have hwp : wp (handle e) (fun _ _ => True) (fun f => f ≠ .nullArg) s :=
      handle_faults (fun f h _ => h) hm (fun h => absurd (by decide) h) hcb
        (fun c he hneeds => absurd ⟨he, hneeds⟩ (hno c)) fun _ _ _ _ _ _ => by decide
    exact wp_error hwp hrun rfl
  · rintro ⟨c, he, hneeds⟩
    have hwp : wp (handle e) (fun _ _ => False) (fun f => f = .nullArg) s := by
      rw [wp_handle_executed hm he]
      exact Command.run_nullArg hneeds e.env s
    obtain ⟨f, hrun, rfl⟩ := wp_fails hwp
    exact hrun

/-- **A packet is safe exactly if** its text before the first zero has more than line ends and is
not a bare verb whose handler needs an argument. -/
theorem safeLine_iff {s : Sys} {m : MsgState} (hm : s.fsm = some m) {e : Event} {p : Chain}
    (hcb : e.callback = .msgrecv p) :
    SafeLine e p s ↔ (e.env.mallocText = true →
      (∃ c ∈ lineOf p, isLineEnd c = false) ∧ ¬ BareVerb (lineOf p)) := by
  have hexec : e.executed = if e.env.mallocText then executed p else none := by
    rw [Event.executed, hcb]
  rw [SafeLine, staysInside_iff, ne_eq, stops_nullArg_iff hm hcb, hexec]
  by_cases hmalloc : e.env.mallocText = true
  · rw [if_pos hmalloc, executed_null_iff]
    tauto
  · simp [hmalloc]

theorem safeLine_retr : SafeLine (line "RETR a\r\n") [lit "RETR a\r\n"] session := by
  obtain ⟨m, hm⟩ := exists_fsm_session
  refine (safeLine_iff hm rfl).mpr fun _ => ⟨⟨82, by decide, by decide⟩, ?_⟩
  rw [← executed_null_iff]
  rintro ⟨c, ⟨⟩, -⟩

/-- A line end alone, or a zero at the start, makes the daemon read the byte before the text; a
bare `CWD` passes a null pointer to `vfs_chdir`. -/
theorem crashing_lines :
    Accepted session ∧
    parseLine [lit "\r\n"] (List.replicate 3 0) (List.replicate 5 0) = none ∧
    parseLine [[0, 65]] (List.replicate 3 0) (List.replicate 5 0) = none ∧
    stops (line "CWD\r\n") session = some .nullArg ∧
    ¬ SafeLine (line "\r\n") [lit "\r\n"] session ∧
    ¬ SafeLine (line "CWD\r\n") [lit "CWD\r\n"] session := by
  have hcwd : stops (line "CWD\r\n") session = some .nullArg := by decide +kernel
  have hends : parseLine [lit "\r\n"] (List.replicate 3 0) (List.replicate 5 0) = none := by
    decide
  refine ⟨accepted_session, hends, by decide, hcwd, fun h => ?_, fun h => h.2 hcwd⟩
  have hsome := h.1 rfl (List.replicate 3 0) (List.replicate 5 0) rfl rfl
  rw [hends] at hsome
  cases hsome

/-! ### The verb of a line -/

/-- The verb of a line: its letters up to the first byte that is none, in upper case. -/
def lineVerb (line : Str) : Str := (line.takeWhile isAlpha).map toUpper

/-- The argument in a line: what follows the verb and one more byte, without the line ends at the
end; there is none if nothing follows the verb. -/
def lineArg (line : Str) : Option Str :=
  match (line.rdropWhile isLineEnd).drop (lineVerb line).length with
  | [] => none
  | _ :: arg => some arg

/-- The handler that a line asks for, with its argument. -/
def recognised (line : Str) : Option (Command × Option Str) :=
  (ftpdCommands.find? fun e => e.1 = lineVerb line).map fun e => (e.2, lineArg line)

/-- `ftpd_msgrecv` calls this handler with this argument; if it is none, it answers 502. -/
def Dispatches (p : Chain) (r : Option (Command × Option Str)) : Prop :=
  executed p = r ∧ ∀ env : Env, env.mallocText = true →
    ftpdMsgrecv p env =
      match r with
      | some (c, arg) => c.run arg env
      | none => sendMsg env.msg₁ msg502

/-- The line ends are behind the verb. -/
lemma takeWhile_rdropWhile (line : Str) :
    (line.rdropWhile isLineEnd).takeWhile isAlpha = line.takeWhile isAlpha := by
  have hends : ∀ c ∈ (line.rtakeWhile isLineEnd).head?, isAlpha c = false := by
    intro c hc
    rw [← Bool.not_eq_true]
    intro halpha
    have hend := List.mem_rtakeWhile_imp (List.mem_of_mem_head? hc)
    rw [isLineEnd_of_isAlpha halpha] at hend
    cases hend
  rw [← takeWhile_append_of_head hends, List.rdropWhile_append_rtakeWhile]

/-- The verb in `cmd` is made of the first four letters of the verb of the line. -/
lemma commandVerb_commandText (p : Chain) :
    commandVerb (commandText p) = (lineVerb (lineOf p)).take 4 := by
  rw [commandVerb_eq, commandText_eq, takeWhile_rdropWhile, lineVerb, List.map_take]

/-- A verb of at most four letters is taken as it is. -/
lemma executed_eq_recognised {p : Chain} (hshort : (lineVerb (lineOf p)).length ≤ 4) :
    executed p = recognised (lineOf p) := by
  have hverb : commandVerb (commandText p) = lineVerb (lineOf p) := by
    rw [commandVerb_commandText, List.take_of_length_le hshort]
  have harg : commandArg (commandText p) = lineArg (lineOf p) := by
    rw [commandArg, lineArg, hverb, ← commandText_eq]
    cases hrest : (commandText p).drop (lineVerb (lineOf p)).length with
    | nil => rw [if_pos (Nat.lt_succ_iff.mpr (List.drop_eq_nil_iff.mp hrest))]
    | cons b arg =>
      have hlen : ¬ (commandText p).length < (lineVerb (lineOf p)).length + 1 := by
        intro hlt
        rw [List.drop_eq_nil_iff.mpr (Nat.lt_succ_iff.mp hlt)] at hrest
        cases hrest
      rw [if_neg hlen, ← List.drop_drop, hrest]
      rfl
  rw [executed, recognised, lookupCommand, hverb, harg, Option.map_map]
  rfl

/-- No command of the table has more than four letters. -/
lemma recognised_eq_none {line : Str} (hlong : 4 < (lineVerb line).length) :
    recognised line = none := by
  have hnames : ∀ e ∈ ftpdCommands, e.1.length ≤ 4 := by decide
  rw [recognised, List.find?_eq_none.mpr, Option.map_none]
  intro e he hname
  rw [decide_eq_true_eq] at hname
  exact absurd (hnames e he) (by rw [hname]; exact not_le.mpr hlong)

/-- **When a command is recognised**: unless the verb has more than four letters of which the first
four are a command. -/
theorem dispatches_recognised_iff {p : Chain} (hp : 0 ∉ p.flatten) :
    Dispatches p (recognised p.flatten) ↔
      ¬ (4 < (lineVerb p.flatten).length ∧
        (lineVerb p.flatten).take 4 ∈ ftpdCommands.map Prod.fst) := by
  have hline : lineOf p = p.flatten := by
    refine List.takeWhile_eq_self_iff.mpr fun b hb => decide_eq_true ?_
    rintro rfl
    exact hp hb
  have hdispatch : Dispatches p (recognised p.flatten) ↔ executed p = recognised p.flatten :=
    ⟨fun h => h.1, fun h => ⟨h, fun env hmalloc => h ▸ ftpdMsgrecv_eq p hmalloc⟩⟩
  rw [hdispatch, ← hline]
  by_cases hshort : (lineVerb (lineOf p)).length ≤ 4
  · exact ⟨fun _ h => absurd h.1 (not_lt.mpr hshort), fun _ => executed_eq_recognised hshort⟩
  · rw [not_le] at hshort
    -- the line asks for no handler, and one is called if the first four letters are a command
    rw [recognised_eq_none hshort, executed, Option.map_eq_none_iff, lookupCommand,
      Option.map_eq_none_iff, List.find?_eq_none, commandVerb_commandText]
    simp only [hshort, true_and, List.mem_map, not_exists, not_and, decide_eq_true_eq]

theorem dispatches_cwd : Dispatches [lit "cwd d\r\n"] (some (.cwd, some (lit "d"))) :=
  (dispatches_recognised_iff (by decide)).mpr (by decide)

/-- `LISTX` is taken for `LIST`. -/
theorem listx_dispatched :
    recognised (lit "LISTX\r\n") = none ∧
    executed [lit "LISTX\r\n"] = some (.list, some []) ∧
    ¬ Dispatches [lit "LISTX\r\n"] (recognised (lit "LISTX\r\n")) := by
  have hexec : executed [lit "LISTX\r\n"] = some (.list, some []) := by decide
  refine ⟨by decide, hexec, fun h => ?_⟩
  have hnone : executed [lit "LISTX\r\n"] = none := h.1
  rw [hexec] at hnone
  cases hnone

end Teensy41Ethernet.Ftpd
