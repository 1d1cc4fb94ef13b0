import Teensy41Ethernet.Lib.TakeWhile
import Teensy41Ethernet.Ftpd.Commands

/-!
# Command lines and packets

A client sends command lines, each ended by a carriage return and a line feed; TCP delivers
the stream in packets that it may cut anywhere.  `ftpd_msgrecv` keeps nothing from one packet
to the next: it takes what a packet holds, up to the line ends at its end, for one command
line.  So the commands it executes are those of the stream as long as every packet has the
text of one line at most, all of it, and only line ends behind it; if a line is cut in two,
they are not.
-/

namespace Teensy41Ethernet.Ftpd

open Lib Lwip

/-! ### What a packet executes -/

/-- A carriage return and a line feed. -/
def crlf : Str := [13, 10]

/-- The handler that a packet executes, and the argument it gets. -/
def executed (p : Chain) : Option (Command × Option Str) :=
  (lookupCommand (commandText p)).map fun c => (c, commandArg (commandText p))

/-- The handler that a callback executes, and the argument it gets. -/
def Event.executed (e : Event) : Option (Command × Option Str) :=
  match e.callback with
  | .msgrecv p => if e.env.mallocText then Ftpd.executed p else none
  | _ => none

lemma Event.executed_eq_some {e : Event} {r : Command × Option Str} (h : e.executed = some r) :
    ∃ p, e.callback = .msgrecv p ∧ e.env.mallocText = true ∧ Ftpd.executed p = some r := by
  unfold Event.executed at h
  split at h
  · next p hcb =>
    split at h
    · next hmalloc => exact ⟨p, hcb, hmalloc, h⟩
    · cases h
  · cases h

lemma Event.command_eq (e : Event) : e.command = e.executed.map Prod.fst := by
  unfold Event.command Event.executed
  cases e.callback with
  | msgrecv p =>
    dsimp only
    split
    · unfold Ftpd.executed
      cases lookupCommand (commandText p) with
      | none => rfl
      | some c => rfl
    · rfl
  | _ => rfl

/-- `ftpd_msgrecv` calls this handler with this argument and no other. -/
lemma ftpdMsgrecv_eq (p : Chain) {env : Env} (hmalloc : env.mallocText = true) :
    ftpdMsgrecv p env =
      match executed p with
      | some (c, arg) => c.run arg env
      | none => sendMsg env.msg₁ msg502 := by
  rw [ftpdMsgrecv, if_pos hmalloc, executed]
  dsimp only
  cases lookupCommand (commandText p) with
  | none => rfl
  | some c => rfl

/-- A zero in a text hides what follows. -/
lemma takeWhile_append_of_mem {text ends : Str} (h : 0 ∈ text) :
    (text ++ ends).takeWhile (· ≠ 0) = text.takeWhile (· ≠ 0) := by
  obtain ⟨pre, post, rfl⟩ := List.append_of_mem h
  rw [List.append_assoc, List.cons_append, takeWhile_append_of_head (head_cons rfl _),
    takeWhile_append_of_head (head_cons rfl _)]

/-- Line ends behind a text are not part of the command line. -/
lemma commandText_append {text ends : Str} (hends : ∀ b ∈ ends, b = 13 ∨ b = 10) {p : Chain}
    (hp : p.flatten = text ++ ends) : commandText p = commandText [text] := by
  unfold commandText
  rw [hp, List.flatten_singleton]
  by_cases hnul : 0 ∈ text
  · rw [takeWhile_append_of_mem hnul]
  · have htext : ∀ b ∈ text, decide (b ≠ 0) = true := by
      intro b hb
      rw [decide_eq_true_eq]
      rintro rfl
      exact hnul hb
    have hends₀ : ∀ b ∈ ends, decide (b ≠ 0) = true := by
      intro b hb
      rcases hends b hb with rfl | rfl
      · rfl
      · rfl
    have hends₁ : ∀ b ∈ ends.reverse, decide (b = 13 ∨ b = 10) = true := fun b hb =>
      decide_eq_true (hends b (List.mem_reverse.mp hb))
    rw [List.takeWhile_append_of_pos htext, List.takeWhile_eq_self_iff.mpr hends₀,
      List.takeWhile_eq_self_iff.mpr htext, List.reverse_append,
      List.dropWhile_append_of_pos hends₁]

lemma executed_append {text ends : Str} (hends : ∀ b ∈ ends, b = 13 ∨ b = 10) {p : Chain}
    (hp : p.flatten = text ++ ends) : executed p = executed [text] := by
  rw [executed, executed, commandText_append hends hp]

/-! ### Streams of command lines -/

/-- The packets `ps` carry the command lines one at a time: they are a cutting of the stream,
and each has the text of one line, or none, with only line ends behind it. -/
structure LineByLine (lines : List Str) (ps : List Chain) : Prop where
  cut : (ps.map List.flatten).flatten = (lines.map (· ++ crlf)).flatten
  whole : ∃ parts : List (Str × Str), ps.map List.flatten = parts.map (fun x => x.1 ++ x.2) ∧
    (∀ x ∈ parts, ∀ b ∈ x.2, b = 13 ∨ b = 10) ∧
    (parts.map Prod.fst).filter (· ≠ []) = lines.filter (· ≠ [])

/-- A line without text executes nothing. -/
lemma filterMap_executed_filter (lines : List Str) :
    (lines.filter (· ≠ [])).filterMap (fun l => executed [l]) =
      lines.filterMap fun l => executed [l] := by
  induction lines with
  | nil => rfl
  | cons l lines ih =>
    by_cases hl : l = []
    · have hnone : executed [l] = none := by rw [hl]; rfl
      rw [List.filter_cons_of_neg (by simpa using hl), ih, List.filterMap_cons, hnone]
    · rw [List.filter_cons_of_pos (by simpa using hl), List.filterMap_cons, List.filterMap_cons, ih]

/-- Packets that carry a stream line by line execute what the lines say. -/
lemma LineByLine.filterMap_executed {lines : List Str} {ps : List Chain}
    (h : LineByLine lines ps) :
    ps.filterMap executed = lines.filterMap fun l => executed [l] := by
  obtain ⟨parts, hps, hends, hlines⟩ := h.whole
  have hparts : parts.filterMap (fun x => executed [x.1 ++ x.2]) =
      parts.filterMap fun x => executed [x.1] :=
    List.filterMap_congr fun x hx =>
      executed_append (hends x hx) (List.flatten_singleton)
  have hflat : ps.filterMap executed = (ps.map List.flatten).filterMap fun t => executed [t] := by
    rw [List.filterMap_map]
    exact List.filterMap_congr fun p _ => executed_append (by simp) (List.append_nil _).symm
  rw [hflat, hps, List.filterMap_map]
  refine hparts.trans ?_
  rw [← filterMap_executed_filter lines, ← hlines, filterMap_executed_filter, List.filterMap_map]
  rfl

/-! ### Two ways to cut a stream -/

/-- The callbacks `es` are the calls of `ftpd_msgrecv` for the packets `ps`, with memory for a
copy of each. -/
def Deliveries (es : List Event) (ps : List Chain) : Prop :=
  List.Forall₂ (fun e p => e.callback = .msgrecv p ∧ e.env.mallocText = true) es ps

lemma Deliveries.filterMap_executed {es : List Event} {ps : List Chain} (h : Deliveries es ps) :
    es.filterMap Event.executed = ps.filterMap executed := by
  induction h with
  | nil => rfl
  | @cons e p es ps hp _ ih =>
    have he : e.executed = executed p := by
      rw [Event.executed, hp.1]
      exact if_pos hp.2
    rw [List.filterMap_cons, List.filterMap_cons, he, ih]

/-- A line that is cut in two executes nothing. -/
theorem executed_ne_of_cut_line :
    ∃ (lines : List Str) (ps qs : List Chain) (es fs : List Event),
      Deliveries es ps ∧ Deliveries fs qs ∧
      (ps.map List.flatten).flatten = (lines.map (· ++ crlf)).flatten ∧
      (qs.map List.flatten).flatten = (lines.map (· ++ crlf)).flatten ∧
      es.filterMap Event.executed ≠ fs.filterMap Event.executed := by
  refine ⟨[lit "NOOP"], [[lit "NOOP\r\n"]], [[lit "NO"], [lit "OP\r\n"]],
    [line "NOOP\r\n"], [line "NO", line "OP\r\n"], ?_, ?_, by decide, by decide, by decide⟩
  · exact .cons ⟨rfl, rfl⟩ .nil
  · exact .cons ⟨rfl, rfl⟩ (.cons ⟨rfl, rfl⟩ .nil)

/-- **Packets and command lines.** Any two ways of cutting a stream of command lines into
packets that carry it line by line execute the same handlers with the same arguments. -/
theorem executed_eq_of_lineByLine {lines : List Str} {ps qs : List Chain} {es fs : List Event}
    (hes : Deliveries es ps) (hfs : Deliveries fs qs) (hps : LineByLine lines ps)
    (hqs : LineByLine lines qs) :
    es.filterMap Event.executed = fs.filterMap Event.executed := by
  rw [hes.filterMap_executed, hfs.filterMap_executed, hps.filterMap_executed,
    hqs.filterMap_executed]

/-- A line in two buffers of one packet, and the same line with its end in two packets. -/
theorem executed_eq_of_lineByLine_noop :
    LineByLine [lit "NOOP"] [[lit "NO", lit "OP\r\n"]] ∧
      LineByLine [lit "NOOP"] [[lit "NOOP\r"], [lit "\n"]] ∧
      [⟨.msgrecv [lit "NO", lit "OP\r\n"], calm⟩].filterMap Event.executed =
        [line "NOOP\r", line "\n"].filterMap Event.executed := by
  have hps : LineByLine [lit "NOOP"] [[lit "NO", lit "OP\r\n"]] :=
    ⟨by decide, [(lit "NOOP", crlf)], by decide, by simp [crlf], by decide⟩
  have hqs : LineByLine [lit "NOOP"] [[lit "NOOP\r"], [lit "\n"]] :=
    ⟨by decide, [(lit "NOOP", [13]), ([], [10])], by decide, by simp, by decide⟩
  refine ⟨hps, hqs, executed_eq_of_lineByLine ?_ ?_ hps hqs⟩
  · exact .cons ⟨rfl, rfl⟩ .nil
  · exact .cons ⟨rfl, rfl⟩ (.cons ⟨rfl, rfl⟩ .nil)

end Teensy41Ethernet.Ftpd
