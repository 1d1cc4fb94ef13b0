import Teensy41Ethernet.Ftpd.Voice

/-!
# Which commands get a reply

A client waits for the reply to each command.  This file says exactly when it gets one: the
condition `Answerable` is on the packet, on what the environment answers and on the state of
the control session, and it holds if and only if the callback returns and has put one
complete reply line, and no other, into the control FIFO.
-/

namespace Teensy41Ethernet.Ftpd

open Lib Lwip

/-! ### Reply lines -/

/-- A text without the end of a line. -/
def OneLine (text : Str) : Prop := ∀ b ∈ text, b ≠ 13 ∧ b ≠ 10

instance : DecidablePred OneLine := List.decidableBAll fun b => b ≠ 13 ∧ b ≠ 10

/-- The text of a reply: one line that starts with three digits. -/
def IsReply (text : Str) : Prop :=
  3 ≤ text.length ∧ (∀ b ∈ text.take 3, isDigit b = true) ∧ OneLine text

instance : DecidablePred IsReply := fun text =>
  have := List.decidableBAll (fun b => isDigit b = true) (text.take 3)
  inferInstanceAs (Decidable (3 ≤ text.length ∧ (∀ b ∈ text.take 3, isDigit b = true) ∧
    OneLine text))

@[simp] lemma oneLine_append {t t' : Str} : OneLine (t ++ t') ↔ OneLine t ∧ OneLine t' :=
  List.forall_mem_append

/-- A reply that begins with a fixed text. -/
lemma isReply_append {pre : Str} (hpre : IsReply pre) (text : Str) :
    IsReply (pre ++ text) ↔ OneLine text := by
  obtain ⟨hlen, hcode, hline⟩ := hpre
  have htake : (pre ++ text).take 3 = pre.take 3 := List.take_append_of_le_length hlen
  unfold IsReply
  rw [htake, oneLine_append]
  refine ⟨fun h => h.2.2.2, fun htext => ⟨?_, hcode, hline, htext⟩⟩
  rw [List.length_append]
  omega

/-- The digits of a number do not end a line. -/
lemma oneLine_dec (n : ℕ) : OneLine (dec n) := by
  intro b hb
  obtain ⟨c, hc, rfl⟩ := List.mem_map.mp hb
  have hdigit := Nat.isDigit_of_mem_toDigits (by decide) (by decide) hc
  simp only [Char.isDigit, Bool.and_eq_true, decide_eq_true_eq] at hdigit
  have hlow : 48 ≤ c.toNat := hdigit.1
  have hhigh : c.toNat ≤ 57 := hdigit.2
  have hne : ∀ k < 48, UInt8.ofNat c.toNat ≠ UInt8.ofNat k := by
    intro k hk h
    have htoNat := congrArg UInt8.toNat h
    simp only [UInt8.toNat_ofNat'] at htoNat
    omega
  exact ⟨hne 13 (by decide), hne 10 (by decide)⟩

lemma oneLine_decInt (n : ℕ) : OneLine (decInt n) := by
  unfold decInt
  dsimp only
  split
  · exact oneLine_append.mpr ⟨by decide, oneLine_dec _⟩
  · exact oneLine_dec _

lemma isReply_msg227 (ip : List UInt8) (port : UInt16) : IsReply (msg227 ip port) := by
  have hip : OneLine (ip.map fun b => dec b.toNat ++ lit ",").flatten := by
    intro b hb
    obtain ⟨t, ht, hbt⟩ := List.mem_flatten.mp hb
    obtain ⟨n, -, rfl⟩ := List.mem_map.mp ht
    exact oneLine_append.mpr ⟨oneLine_dec n.toNat, by decide⟩ b hbt
  unfold msg227
  simp only [List.append_assoc]
  rw [isReply_append (by decide)]
  simp only [oneLine_append]
  exact ⟨hip, oneLine_dec _, by decide, oneLine_dec _, by decide⟩

/-! ### The reply to a command -/

/-- The text with which a command answers, if it answers. -/
def Command.reply (c : Command) (arg : Option Str) (env : Env) (s : Sys) : Str :=
  let a := arg.getD []
  let changed (path : Str) := (vfsChdir s.cwd path env.realloc env.isDir).1
  match c with
  | .user => msg331
  | .pass => msg230
  | .port => match scanPort a with
      | some [_, _, _, _, _, _] => msg200
      | _ => msg501
  | .quit => msg221
  | .cwd => if changed a then msg250 else msg550
  | .cdup => if changed (lit "..") then msg250 else msg550
  | .pwd => lit "257 \"" ++ s.cwd ++ lit "\" is current directory."
  | .nlst | .list =>
      if env.strdup ∧ env.opendir.isSome ∧ s.opening env = some true then msg150 else msg451
  | .retr => if (retrStat env).1 ∧ env.openFile.isSome then retrText a env else msg550
  | .stor => if env.openFile.isSome then storText a else msg550
  | .noop => msg200
  | .syst => msg214SYST (lit "UNIX")
  | .abrt => []
  | .type => if a ≠ lit "A" ∧ a ≠ lit "I" then msg502 else msg200
  | .mode => msg502
  | .rnfr | .rnto => lit "TODO"
  | .mkd =>
      if a = [] then msg501
      else if env.mkdir then lit "257 \"" ++ a ++ lit "\" created." else msg550
  | .rmd => if a = [] then msg501 else if env.stat.isSome ∧ env.rmdir then msg250 else msg550
  | .dele => if a = [] then msg501 else if env.stat.isSome ∧ env.remove then msg250 else msg550
  | .pasv =>
      if env.mallocData ∧ env.tcpNew then
        msg227 s.localIp ((bindLoop env.tcpBind s.port (2 ^ 16) s.port).map Prod.fst |>.getD 0)
      else msg451

/-- The directory can be changed to `path`, or else there is memory for the copy of the old
one. -/
def ChangesDir (path : Str) (env : Env) (s : Sys) : Prop :=
  (vfsChdir s.cwd path env.realloc env.isDir).1 = true ∨ env.strdup = true

/-- The command gives exactly one reply, which may be dropped for lack of room: `ABOR`, `RNFR`
and `RNTO` never do; some commands need their argument, some need memory; a transfer that can
open its directory or file must get a data session, and `PASV` a port. -/
def Command.Answers (c : Command) (arg : Option Str) (env : Env) (s : Sys) : Prop :=
  match c with
  | .abrt | .rnfr | .rnto => False
  | .port | .type => arg.isSome = true
  | .cwd => ∃ path ∈ arg, ChangesDir path env s
  | .cdup => ChangesDir (lit "..") env s
  | .pwd => env.strdup = true
  | .nlst | .list => env.strdup = true → env.opendir.isSome = true → s.opening env ≠ none
  | .retr => arg.isSome = true ∧
      ((retrStat env).1 = true → env.openFile.isSome = true → s.opening env = some true)
  | .stor => arg.isSome = true ∧ (env.openFile.isSome = true → s.opening env = some true)
  | .pasv => env.mallocData = true → env.tcpNew = true → env.tcpListen = true ∧
      ∃ r ∈ bindLoop env.tcpBind s.port (2 ^ 16) s.port, r.2 = true
  | _ => True

instance (c : Command) (arg : Option Str) (env : Env) (s : Sys) :
    Decidable (c.Answers arg env s) := by
  unfold Command.Answers ChangesDir
  cases c <;> infer_instance

/-- What a reply repeats of what the client sent: the working directory or a file name. -/
def Command.quoted (c : Command) (arg : Option Str) (env : Env) (s : Sys) : Str :=
  match c with
  | .pwd => s.cwd
  | .retr => if (retrStat env).1 ∧ env.openFile.isSome then arg.getD [] else []
  | .stor => if env.openFile.isSome then arg.getD [] else []
  | .mkd => if env.mkdir then arg.getD [] else []
  | _ => []

/-! ### The reply among the deeds -/

/-- The deeds end with the reply `text`, and nothing is said before. -/
def Answer (env : Env) (text : Str) (o : Option (List Deed)) : Prop :=
  ∃ l, said l = [] ∧ o = (say env.msg₁ text).map (l ++ ·)

lemma answer_say (env : Env) (text : Str) : Answer env text (say env.msg₁ text) :=
  ⟨[], rfl, Option.map_id'.symm⟩

lemma Answer.before {env : Env} {text : Str} {o : Option (List Deed)} (h : Answer env text o)
    {d : Deed} (hd : d.text = none) : Answer env text (d.before o) := by
  obtain ⟨l, hl, rfl⟩ := h
  refine ⟨d :: l, ?_, ?_⟩
  · rw [said, List.filterMap_cons, hd]
    exact hl
  · rw [Deed.before, Option.map_map]
    rfl

section Deeds

variable {arg : Option Str} {env : Env} {s : Sys}

lemma answer_changeDir {path : Str} (h : ChangesDir path env s) :
    Answer env (if (vfsChdir s.cwd path env.realloc env.isDir).1 then msg250 else msg550)
      (changeDirDeeds path env s) := by
  have hcopy : ¬ (!(vfsChdir s.cwd path env.realloc env.isDir).1 ∧ !env.strdup) := by
    rintro ⟨hfail, hnodup⟩
    rcases h with h | h
    · rw [h] at hfail
      cases hfail
    · rw [h] at hnodup
      cases hnodup
  refine Answer.before ?_ rfl
  rw [if_neg hcopy]
  exact (answer_say env _).before rfl

lemma answer_list (h : env.strdup = true → env.opendir.isSome = true → s.opening env ≠ none) :
    Answer env (if env.strdup ∧ env.opendir.isSome ∧ s.opening env = some true then msg150
      else msg451) (listDeeds env s) := by
  unfold listDeeds
  cases hdup : env.strdup with
  | false =>
    rw [if_neg (fun h => Bool.false_ne_true h.1), if_pos Bool.not_false]
    exact answer_say env msg451
  | true =>
    rw [Bool.not_true, if_neg (c := false = true) Bool.false_ne_true]
    refine Answer.before ?_ rfl
    cases hdir : env.opendir with
    | none =>
      rw [if_neg (fun h => Bool.false_ne_true h.2.1)]
      exact answer_say env msg451
    | some es =>
      obtain ⟨ready, hready⟩ := Option.ne_none_iff_exists'.mp (h hdup (by rw [hdir]; rfl))
      rw [hready]
      cases ready with
      | true =>
        rw [if_pos ⟨rfl, rfl, rfl⟩]
        exact answer_say env msg150
      | false =>
        rw [if_neg (fun h => Bool.false_ne_true (Option.some.inj h.2.2))]
        exact answer_say env msg451

lemma answer_openFile {a text : Str}
    (h : env.openFile.isSome = true → s.opening env = some true) :
    Answer env (if env.openFile.isSome then text else msg550) (openFileDeeds a text env s) := by
  unfold openFileDeeds
  refine Answer.before ?_ rfl
  cases hfile : env.openFile with
  | none => exact answer_say env _
  | some file =>
    rw [h (by rw [hfile]; rfl)]
    obtain ⟨l, hl, hsay⟩ := answer_say env text
    refine ⟨l, hl, Eq.trans ?_ hsay⟩
    cases say env.msg₁ text with
    | _ => rfl

lemma answer_withArg {body : Str → Option (List Deed)} {text : Str → Str}
    (h : ∀ a, Answer env (text a) (body a)) :
    Answer env (if arg.getD [] = [] then msg501 else text (arg.getD []))
      (argDeeds arg env body) := by
  unfold argDeeds
  cases arg with
  | none => exact answer_say env _
  | some a =>
    dsimp only [Option.getD_some]
    split
    · exact answer_say env _
    · exact h a

lemma answer_remove (a : Str) (call : Call) (ok : Bool) :
    Answer env (if env.stat.isSome ∧ ok then msg250 else msg550) (removeDeeds a call ok env) := by
  unfold removeDeeds
  refine Answer.before ?_ rfl
  cases env.stat with
  | none => exact answer_say env _
  | some size =>
    refine Answer.before ?_ rfl
    cases ok with
    | true => exact answer_say env msg250
    | false => exact answer_say env msg550

/-- **A command that answers** does what it has to do and then gives its reply. -/
lemma Command.answer {c : Command} (h : c.Answers arg env s) :
    Answer env (c.reply arg env s) (c.deeds arg env s) := by
  cases c with
  | abrt | rnfr | rnto => exact h.elim
  | user | pass | quit | noop | syst | mode => exact answer_say env _
  | port =>
    obtain ⟨a, rfl⟩ := Option.isSome_iff_exists.mp h
    rw [Command.reply, Option.getD_some]
    split
    · next hscan =>
      rw [port_deeds_of_scan hscan]
      exact answer_say env _
    · next hscan =>
      rw [port_deeds_of_not_scan hscan]
      exact answer_say env _
  | type =>
    obtain ⟨a, rfl⟩ := Option.isSome_iff_exists.mp h
    exact answer_say env _
  | cwd =>
    obtain ⟨path, rfl, hpath⟩ := h
    exact answer_changeDir hpath
  | cdup => exact answer_changeDir h
  | pwd =>
    have hdeeds : Command.pwd.deeds arg env s = say env.msg₁ (Command.pwd.reply arg env s) :=
      if_pos h
    exact hdeeds ▸ answer_say env _
  | nlst | list => exact answer_list h
  | retr =>
    obtain ⟨hsome, hopening⟩ := h
    obtain ⟨a, rfl⟩ := Option.isSome_iff_exists.mp hsome
    refine Answer.before ?_ rfl
    simp only [Command.reply, Option.getD_some]
    cases hreg : (retrStat env).1 with
    | false => exact answer_say env _
    | true =>
      simp only [true_and]
      exact answer_openFile (hopening hreg)
  | stor =>
    obtain ⟨hsome, hopening⟩ := h
    obtain ⟨a, rfl⟩ := Option.isSome_iff_exists.mp hsome
    exact answer_openFile hopening
  | mkd => exact answer_withArg fun a => (answer_say env _).before rfl
  | rmd => exact answer_withArg fun a => answer_remove a _ _
  | dele => exact answer_withArg fun a => answer_remove a _ _
  | pasv =>
    simp only [Command.deeds, pasvDeeds, Command.reply]
    cases hmalloc : env.mallocData with
    | false =>
      rw [if_neg (fun h => Bool.false_ne_true h.1), if_pos Bool.not_false]
      exact answer_say env msg451
    | true =>
      cases hnew : env.tcpNew with
      | false =>
        rw [if_neg (fun h => Bool.false_ne_true h.2), Bool.not_true, if_neg Bool.false_ne_true,
          if_pos Bool.not_false]
        exact answer_say env msg451
      | true =>
        obtain ⟨hlisten, ⟨port, bound⟩, hport, rfl⟩ := h hmalloc hnew
        rw [hport, hlisten, if_pos ⟨rfl, rfl⟩]
        exact answer_say env (msg227 s.localIp port)

lemma not_isReply_todo : ¬ IsReply (lit "TODO") := by decide

/-- A file that is opened without a data session for it: there are two replies. -/
lemma said_openFile {a text text' : Str} (hfile : env.openFile.isSome = true)
    (hopening : s.opening env ≠ some true) {l : List Deed}
    (hl : openFileDeeds a text env s = some l) : said l ≠ [text'] := by
  obtain ⟨file, hfile⟩ := Option.isSome_iff_exists.mp hfile
  obtain ⟨l₁, hl₁, rfl⟩ := Deed.before_eq_some hl
  rw [hfile] at hl₁
  obtain ⟨l₂, hsay, hl₂⟩ := Option.bind_eq_some_iff.mp hl₁
  obtain ⟨ready, hready, rfl⟩ := Option.map_eq_some_iff.mp hl₂
  cases ready with
  | true => exact absurd hready hopening
  | false =>
    rw [(say_eq_some hsay).1]
    exact fun h => (by cases h)

/-- A command that does not answer stops with a fault, says nothing, says two things, or says
something that is no reply. -/
lemma Command.no_answer {c : Command} (h : ¬ c.Answers arg env s) {l : List Deed} {text : Str}
    (hl : c.deeds arg env s = some l) (hsaid : said l = [text]) : ¬ IsReply text := by
  -- without an argument, or without a copy of the old directory, there is no result
  have hchange : ∀ path, ¬ ChangesDir path env s → changeDirDeeds path env s ≠ some l := by
    intro path hpath hsome
    obtain ⟨hfail, hnodup⟩ := not_or.mp hpath
    obtain ⟨l', hl', -⟩ := Deed.before_eq_some hsome
    rw [Bool.not_eq_true] at hfail hnodup
    rw [hfail, hnodup, if_pos ⟨rfl, rfl⟩] at hl'
    cases hl'
  cases c with
  | user | pass | quit | noop | syst | mode | mkd | rmd | dele => exact absurd trivial h
  | rnfr | rnto =>
    rw [said_say hl, List.singleton_inj] at hsaid
    exact hsaid ▸ not_isReply_todo
  | abrt =>
    unfold Command.deeds at hl
    dsimp only at hl
    split at hl
    · cases hl
    · cases hl
      cases hsaid
  | port | type =>
    rw [Command.Answers, Bool.not_eq_true, Option.isSome_eq_false_iff,
      Option.isNone_iff_eq_none] at h
    rw [h] at hl
    cases hl
  | cwd =>
    cases arg with
    | none => cases hl
    | some path => exact absurd hl (hchange path fun hpath => h ⟨path, rfl, hpath⟩)
  | cdup => exact absurd hl (hchange _ h)
  | pwd =>
    have hdeeds : Command.pwd.deeds arg env s = some [] := if_neg h
    rw [hdeeds] at hl
    cases hl
    cases hsaid
  | nlst | list =>
    simp only [Command.Answers, Classical.not_imp, not_not] at h
    obtain ⟨hdup, hdir, hopening⟩ := h
    obtain ⟨es, hes⟩ := Option.isSome_iff_exists.mp hdir
    have hnone : listDeeds env s = none := by
      rw [listDeeds, hdup, hes, hopening]
      rfl
    exact absurd (hnone.symm.trans hl) (fun h => by cases h)
  | retr =>
    cases arg with
    | none => cases hl
    | some a =>
      simp only [Command.Answers, Option.isSome_some, true_and, Classical.not_imp] at h
      obtain ⟨hreg, hfile, hopening⟩ := h
      obtain ⟨l₁, hl₁, rfl⟩ := Deed.before_eq_some hl
      rw [hreg] at hl₁
      exact absurd (show said l₁ = [text] from hsaid) (said_openFile hfile hopening hl₁)
  | stor =>
    cases arg with
    | none => cases hl
    | some a =>
      simp only [Command.Answers, Option.isSome_some, true_and, Classical.not_imp] at h
      exact absurd hsaid (said_openFile h.1 h.2 hl)
  | pasv =>
    simp only [Command.Answers, Classical.not_imp] at h
    obtain ⟨hmalloc, hnew, h⟩ := h
    simp only [Command.deeds, pasvDeeds, hmalloc, hnew, Bool.not_true, Bool.false_eq_true,
      if_false] at hl
    split at hl
    · cases hl
    · cases hl
    · next port hport =>
      split at hl
      · next hlisten => exact absurd ⟨hlisten, _, hport, rfl⟩ h
      · cases hl
        cases hsaid

/-- The replies that repeat nothing have their form. -/
lemma fixedReplies_isReply : ∀ text ∈ fixedReplies, IsReply text := by decide +kernel

/-- The text of a command that answers is a reply, unless what it repeats has more lines. -/
lemma Command.isReply {c : Command} (h : c.Answers arg env s) :
    IsReply (c.reply arg env s) ↔ OneLine (c.quoted arg env s) := by
  have hnil : OneLine [] := by decide
  have hiff : ∀ {text : Str}, IsReply text → (IsReply text ↔ OneLine []) :=
    fun h => iff_of_true h hnil
  have hfixed : ∀ {text : Str}, text ∈ fixedReplies → (IsReply text ↔ OneLine []) :=
    fun h => hiff (fixedReplies_isReply _ h)
  cases c with
  | abrt | rnfr | rnto => exact h.elim
  | user | pass | quit | noop | syst | mode =>
    refine hfixed ?_
    simp [Command.reply, fixedReplies]
  | port =>
    refine hfixed ?_
    simp only [Command.reply]
    split
    · simp [fixedReplies]
    · simp [fixedReplies]
  | type | cwd | cdup | nlst | list =>
    refine hfixed ?_
    simp only [Command.reply]
    split
    · simp [fixedReplies]
    · simp [fixedReplies]
  | rmd | dele =>
    refine hfixed ?_
    simp only [Command.reply]
    split
    · simp [fixedReplies]
    · split
      · simp [fixedReplies]
      · simp [fixedReplies]
  | pasv =>
    simp only [Command.reply]
    split
    · exact hiff (isReply_msg227 _ _)
    · exact hfixed (by simp [fixedReplies])
  | pwd =>
    simp only [Command.reply, Command.quoted, List.append_assoc]
    rw [isReply_append (by decide), oneLine_append]
    exact and_iff_left (by decide)
  | retr =>
    simp only [Command.reply, Command.quoted]
    split
    · unfold retrText
      simp only [List.append_assoc]
      rw [isReply_append (by decide)]
      simp only [oneLine_append]
      exact and_iff_left ⟨by decide, oneLine_decInt _, by decide⟩
    · exact hfixed (by simp [fixedReplies])
  | stor =>
    simp only [Command.reply, Command.quoted]
    split
    · unfold storText
      simp only [List.append_assoc]
      rw [isReply_append (by decide), oneLine_append]
      exact and_iff_left (by decide)
    · exact hfixed (by simp [fixedReplies])
  | mkd =>
    simp only [Command.reply, Command.quoted]
    split
    · next harg =>
      rw [harg, ite_self]
      exact hfixed (by simp [fixedReplies])
    · split
      · simp only [List.append_assoc]
        rw [isReply_append (by decide), oneLine_append]
        exact and_iff_left (by decide)
      · exact hfixed (by simp [fixedReplies])

end Deeds

/-! ### The control FIFO -/

/-- The bytes of the control session that TCP has accepted. -/
def controlBytes (log : List Action) : Str :=
  (log.filterMap fun
    | .control bytes => some bytes
    | _ => none).flatten

/-- All bytes that have been put into the control FIFO: those that TCP has accepted and those
that are still in it. -/
def Front.enqueued (v : Front) : Str :=
  controlBytes v.log ++ (v.fifo.map Sfifo.contents).getD []

/-- The control FIFO is in order. -/
def Front.Wf (v : Front) : Prop := ∀ f ∈ v.fifo, f.Wf

/-- The control FIFO has its buffer and room for a reply line. -/
def Front.Room (v : Front) (text : Str) : Prop :=
  ∃ f ∈ v.fifo, f.buffer.isSome = true ∧ ((text ++ lit "\r\n").length : ℤ) ≤ sfifoSpace f

lemma controlBytes_append (log log' : List Action) :
    controlBytes (log ++ log') = controlBytes log ++ controlBytes log' := by
  rw [controlBytes, List.filterMap_append, List.flatten_append]
  rfl

namespace Front

variable {v : Front} {dr : Drain} {text : Str}

/-- Every deed keeps the control FIFO in order. -/
lemma Wf.act (hv : v.Wf) (d : Deed) : (v.act d).Wf := by
  cases d with
  | ask c => exact hv
  | enter cwd => exact hv
  | say dr text =>
    cases hfifo : v.fifo with
    | none =>
      rw [Front.act, hfifo]
      exact hv
    | some f =>
      by_cases hroom : sfifoSpace f < (text ++ lit "\r\n").length
      · rw [act_say_full hfifo dr hroom]
        exact hv
      · rw [act_say_room hfifo dr hroom]
        rintro g ⟨⟩
        exact (sfifoDrain_spec (sfifoWrite_wf (hv f hfifo) _) dr).1

lemma Wf.acts (hv : v.Wf) (l : List Deed) : (v.acts l).Wf := by
  induction l generalizing v with
  | nil => exact hv
  | cons d l ih => exact ih (hv.act d)

/-- Draining the FIFO enqueues nothing. -/
lemma enqueued_drain {f : Sfifo} (hf : f.Wf) (log : List Action) (dr : Drain) (calls : List Call)
    (cwd : Str) :
    (⟨some (sendMsgdata f dr).2, log ++ [.control (sendMsgdata f dr).1.flatten], calls, cwd⟩ :
      Front).enqueued = controlBytes log ++ f.contents := by
  have hspec := (sfifoDrain_spec hf dr).2.2
  simp only [enqueued, controlBytes_append, Option.map_some, Option.getD_some, List.append_assoc]
  rw [hspec]
  simp [controlBytes, sendMsgdata]

/-- A reply is enqueued with the end of its line if there is room, and not at all otherwise. -/
lemma enqueued_say (hv : v.Wf) (dr : Drain) (text : Str) :
    v.Room text ∧ (v.act (.say dr text)).enqueued = v.enqueued ++ (text ++ lit "\r\n") ∨
      ¬ v.Room text ∧ (v.act (.say dr text)).enqueued = v.enqueued := by
  cases hfifo : v.fifo with
  | none =>
    refine .inr ⟨?_, by rw [Front.act, hfifo]⟩
    rintro ⟨f, hf, -⟩
    rw [hfifo] at hf
    cases hf
  | some f =>
    have hf := hv f hfifo
    have henq : v.enqueued = controlBytes v.log ++ f.contents := by
      rw [enqueued, hfifo]
      rfl
    by_cases hroom : sfifoSpace f < (text ++ lit "\r\n").length
    · refine .inr ⟨?_, ?_⟩
      · rintro ⟨g, hg, -, hspace⟩
        obtain rfl := Option.some.inj (hfifo.symm.trans hg)
        omega
      · rw [act_say_full hfifo dr hroom, enqueued, controlBytes_append, henq, hfifo]
        simp [controlBytes]
    -- the reply goes through the FIFO
    have hsay : (v.act (.say dr text)).enqueued =
        controlBytes v.log ++ (sfifoWrite f (text ++ lit "\r\n")).2.contents := by
      rw [act_say_room hfifo dr hroom]
      generalize hqueued : decide ((sfifoWrite f (text ++ lit "\r\n")).1 =
        (text ++ lit "\r\n").length) = queued
      have hdrain := enqueued_drain (sfifoWrite_wf hf (text ++ lit "\r\n"))
        (v.log ++ [.reply text queued]) dr v.calls v.cwd
      have hreply : controlBytes [.reply text queued] = [] := rfl
      rw [controlBytes_append, hreply, List.append_nil, List.append_assoc] at hdrain
      exact hdrain
    by_cases hbuffer : f.buffer = none
    · refine .inr ⟨?_, by rw [hsay, sfifoWrite_null hbuffer, henq]⟩
      rintro ⟨g, hg, hsome, -⟩
      obtain rfl := Option.some.inj (hfifo.symm.trans hg)
      rw [hbuffer] at hsome
      cases hsome
    · have hspace : ((text ++ lit "\r\n").length : ℤ) ≤ sfifoSpace f := by omega
      refine .inl ⟨⟨f, hfifo, Option.isSome_iff_ne_none.mpr hbuffer, hspace⟩, ?_⟩
      rw [hsay, (sfifoWrite_fits hf hbuffer hspace).2.2, henq, List.append_assoc]

/-- Deeds that say nothing. -/
lemma acts_of_said_nil {l : List Deed} (hl : said l = []) (v : Front) :
    (v.acts l).fifo = v.fifo ∧ (v.acts l).log = v.log := by
  induction l generalizing v with
  | nil => exact ⟨rfl, rfl⟩
  | cons d l ih =>
    cases d with
    | say dr text => cases hl
    | ask c => exact ih hl (v.act (.ask c))
    | enter cwd => exact ih hl (v.act (.enter cwd))

/-- Deeds that say one thing. -/
lemma enqueued_acts {l : List Deed} (hl : said l = [text]) (hv : v.Wf) :
    v.Room text ∧ (v.acts l).enqueued = v.enqueued ++ (text ++ lit "\r\n") ∨
      ¬ v.Room text ∧ (v.acts l).enqueued = v.enqueued := by
  induction l generalizing v with
  | nil => cases hl
  | cons d l ih =>
    cases d with
    | ask c => exact ih hl (hv.act (.ask c))
    | enter cwd => exact ih hl (hv.act (.enter cwd))
    | say dr text' =>
      obtain ⟨rfl, hrest⟩ := List.cons.inj hl
      obtain ⟨hfifo, hlog⟩ := acts_of_said_nil hrest (v.act (.say dr text'))
      have hsame : (v.acts (.say dr text' :: l)).enqueued = (v.act (.say dr text')).enqueued :=
        congrArg₂ (fun log fifo => controlBytes log ++ (Option.map Sfifo.contents fifo).getD [])
          hlog hfifo
      rw [hsame]
      exact enqueued_say hv dr text'

end Front

/-! ### Packets -/

/-- The callback has enqueued exactly one reply line, completely. -/
structure Answered (s s' : Sys) (text : Str) : Prop where
  reply : replies s'.log = replies s.log ++ [text]
  isReply : IsReply text
  line : s'.front.enqueued = s.front.enqueued ++ (text ++ lit "\r\n")

/-- The reply fits in the buffer of `send_msg` and in the control FIFO. -/
def Sys.Takes (s : Sys) (text : Str) : Prop :=
  (text ++ lit "\r\n").length + 1 ≤ 1024 ∧ s.front.Room text

/-- The packet gets its reply. -/
def Answerable (p : Chain) (env : Env) (s : Sys) : Prop :=
  env.mallocText = true ∧
    match executed p with
    | none => s.Takes msg502
    | some (c, arg) =>
      c.Answers arg env s ∧ OneLine (c.quoted arg env s) ∧ s.Takes (c.reply arg env s)

instance (s : Sys) (text : Str) : Decidable (s.Takes text) := by
  unfold Sys.Takes Front.Room
  infer_instance

instance (p : Chain) (env : Env) (s : Sys) : Decidable (Answerable p env s) := by
  unfold Answerable
  split <;> infer_instance

/-- Whether the one reply of a list of deeds is enqueued. -/
lemma answered_iff {s s' : Sys} {l : List Deed} {text : Str} (hs : s.front.Wf)
    (hfifo : s.front.fifo ≠ none) (hfront : s'.front = s.front.acts l) :
    Answered s s' text ↔ said l = [text] ∧ IsReply text ∧ s.front.Room text := by
  have hreplies : replies s'.log = replies s.log ++ said l := by
    rw [← replies_front s', hfront, Front.acts_replies l s.front hfifo, replies_front]
  constructor
  · rintro ⟨hreply, hisReply, hline⟩
    have hl : said l = [text] := List.append_cancel_left (hreplies.symm.trans hreply)
    rw [hfront] at hline
    rcases Front.enqueued_acts hl hs with ⟨hroom, -⟩ | ⟨-, hsame⟩
    · exact ⟨hl, hisReply, hroom⟩
    · have hlen := congrArg List.length (hsame.symm.trans hline)
      have hcrlf : (lit "\r\n").length = 2 := rfl
      simp only [List.length_append] at hlen
      omega
  · rintro ⟨hl, hisReply, hroom⟩
    refine ⟨by rw [hreplies, hl], hisReply, ?_⟩
    rw [hfront]
    rcases Front.enqueued_acts hl hs with ⟨-, hline⟩ | ⟨hfull, -⟩
    · exact hline
    · exact absurd hroom hfull

/-- What is said at the end of deeds that answer. -/
lemma Answer.said {env : Env} {text : Str} {o : Option (List Deed)} (h : Answer env text o)
    {l : List Deed} (hl : o = some l) :
    said l = [text] ∧ (text ++ lit "\r\n").length + 1 ≤ 1024 := by
  obtain ⟨l₀, hl₀, rfl⟩ := h
  obtain ⟨l₁, hsay, rfl⟩ := Option.map_eq_some_iff.mp hl
  refine ⟨?_, (say_eq_some hsay).2⟩
  rw [Ftpd.said, List.filterMap_append]
  show Ftpd.said l₀ ++ Ftpd.said l₁ = [text]
  rw [hl₀, said_say hsay, List.nil_append]

lemma Answer.exists {env : Env} {text : Str} {o : Option (List Deed)} (h : Answer env text o)
    (hlen : (text ++ lit "\r\n").length + 1 ≤ 1024) : ∃ l, o = some l := by
  obtain ⟨l₀, -, rfl⟩ := h
  rw [say, if_neg (not_lt.mpr hlen)]
  exact ⟨_, rfl⟩

/-- The deeds of a packet have one reply, for which there is room, if the packet is
answerable. -/
lemma recvDeeds_iff (p : Chain) (env : Env) (s : Sys) :
    (∃ l text, recvDeeds p env s = some l ∧ said l = [text] ∧ IsReply text ∧
      s.front.Room text) ↔ Answerable p env s := by
  unfold recvDeeds Answerable
  cases hmalloc : env.mallocText with
  | false =>
    refine iff_of_false ?_ fun h => by cases h.1
    rintro ⟨l, text, hl, hsaid, -⟩
    rw [if_neg Bool.false_ne_true] at hl
    cases hl
    cases hsaid
  | true =>
    rw [if_pos rfl, eq_self_iff_true, true_and]
    -- deeds that answer with `text`
    have hanswer : ∀ {o : Option (List Deed)} {text : Str}, Answer env text o →
        ((∃ l text', o = some l ∧ said l = [text'] ∧ IsReply text' ∧ s.front.Room text') ↔
          IsReply text ∧ s.Takes text) := by
      intro o text ho
      constructor
      · rintro ⟨l, text', hl, hsaid, hreply, hroom⟩
        obtain ⟨htext, hlen⟩ := ho.said hl
        obtain rfl := List.singleton_inj.mp (htext.symm.trans hsaid)
        exact ⟨hreply, hlen, hroom⟩
      · rintro ⟨hreply, hlen, hroom⟩
        obtain ⟨l, hl⟩ := ho.exists hlen
        exact ⟨l, text, hl, (ho.said hl).1, hreply, hroom⟩
    cases executed p with
    | none =>
      rw [hanswer (answer_say env msg502)]
      exact and_iff_right (by decide)
    | some r =>
      obtain ⟨c, arg⟩ := r
      dsimp only
      by_cases hc : c.Answers arg env s
      · rw [hanswer (Command.answer hc), Command.isReply hc]
        exact (and_iff_right hc).symm
      · refine iff_of_false ?_ fun h => hc h.1
        rintro ⟨l, text, hl, hsaid, hreply, -⟩
        exact Command.no_answer hc hl hsaid hreply

/-- **A packet is answered if and only if it is answerable**, if the control FIFO is in
order. -/
theorem answered_iff_answerable {s : Sys} {e : Event} {p : Chain} (hs : s.front.Wf)
    (hcb : e.callback = .msgrecv p) :
    (∃ s' text, ftpdStep s e = some s' ∧ Answered s s' text) ↔ Answerable p e.env s := by
  rw [← recvDeeds_iff]
  constructor
  · rintro ⟨s', text, hs', hanswered⟩
    obtain ⟨m, l, hm, hl, hfront⟩ := ftpdStep_packet hcb hs'
    have hfifo : s.front.fifo ≠ none := by simp [Sys.front, hm]
    exact ⟨l, text, hl, (answered_iff hs hfifo hfront).mp hanswered⟩
  · rintro ⟨l, text, hl, hsaid, hreply, hroom⟩
    obtain ⟨m, hm⟩ : ∃ m, s.fsm = some m := by
      obtain ⟨f, hfifo, -⟩ := hroom
      obtain ⟨m, hm, -⟩ := Option.map_eq_some_iff.mp hfifo
      exact ⟨m, hm⟩
    have hfifo : s.front.fifo ≠ none := by simp [Sys.front, hm]
    rcases ftpdStep_msgrecv hm hcb with ⟨l', s', hl', hs', hfront⟩ | ⟨hnone, -⟩
    · obtain rfl := Option.some.inj (hl.symm.trans hl')
      exact ⟨s', text, hs', (answered_iff hs hfifo hfront).mpr ⟨hsaid, hreply, hroom⟩⟩
    · rw [hnone] at hl
      cases hl

/-! ### The control FIFO is always in order -/

lemma Accepted.frontWf {s : Sys} (h : Accepted s) : s.front.Wf := by
  obtain ⟨localIp, malloc, dr, hrun⟩ := h
  obtain ⟨rc, f, hinit, hwf, -⟩ :=
    sfifoInit_spec (show (2000 : ℤ) < 2 ^ 30 by norm_num) malloc
  have haccept : wp (ftpdMsgaccept malloc dr) (fun _ s' => s'.front.Wf) (fun _ => True)
      (boot localIp) := by
    unfold ftpdMsgaccept
    rw [hinit]
    dsimp only
    rw [wp_bind, wp_record, wp_bind, wp_modify]
    refine wp_mono (sendMsg_does rfl dr msg220) ?_ fun _ _ => trivial
    rintro _ s' ⟨-, hs', -⟩
    rw [hs']
    refine Front.Wf.act ?_ _
    rintro g ⟨⟩
    exact hwf
  exact wp_ok haccept hrun

/-- **Every callback keeps the control FIFO in order.** -/
lemma ftpdStep_frontWf {s s' : Sys} {e : Event} (hs : s.front.Wf) (h : ftpdStep s e = some s') :
    s'.front.Wf := by
  by_cases hcb : ∃ p, e.callback = .msgrecv p
  · obtain ⟨p, hcb⟩ := hcb
    obtain ⟨m, l, -, -, hfront⟩ := ftpdStep_packet hcb h
    rw [hfront]
    exact hs.acts l
  · cases ftpdStep_heard (not_exists.mp hcb) h with
    | nothing hfront =>
      rw [hfront]
      exact hs
    | ended _ _ hfront =>
      rw [hfront]
      exact hs.act _
    | drained hm hfront =>
      rw [hfront]
      rintro f ⟨⟩
      exact (sfifoDrain_spec (hs _ (by rw [Sys.front, hm]; rfl)) e.env.msg₁).1
    | gone hfront =>
      rw [hfront]
      rintro f ⟨⟩

end Teensy41Ethernet.Ftpd
