import Teensy41Ethernet.Ftpd.Deeds

/-!
# Regular files

`RETR` and `DELE` are for regular files.  Both ask `vfs_stat` first, which opens the path and
reports the mode of a regular file for everything that can be opened; so a directory passes the
test.  `cmd_retr` does not look at the return value of `vfs_stat`: if the path could not be
opened, the mode it tests is what the stack held.

The content of the card is a function from paths.  What the SD library answers about a path
reflects what is there, but each call may fail.
-/

namespace Teensy41Ethernet.Ftpd

open Lib

/-! ### The card -/

/-- What a path can name. -/
inductive CardNode where
  | dir
  | file (content : List UInt8)
deriving DecidableEq

/-- What the card holds at each path. -/
abbrev Card := Str → Option CardNode

/-- The card after a call with the outcome that `env` says.  Opening a file to read it changes
nothing. -/
def Card.call (env : Env) (card : Card) : Call → Card
  | .mkdir path => if env.mkdir then Function.update card path (some .dir) else card
  | .rmdir path => if env.rmdir then Function.update card path none else card
  | .remove path => if env.remove then Function.update card path none else card
  | _ => card

/-- The path names a regular file. -/
def Card.IsRegular (card : Card) (path : Str) : Prop := ∃ content, card path = some (.file content)

/-- The answers about `path` reflect what is there: nothing can be opened where nothing is, and a
file is opened with its content.  Each call may fail. -/
structure Reflects (card : Card) (path : Str) (env : Env) : Prop where
  absent : card path = none → env.stat = none ∧ env.openFile = none ∧ env.remove = false
  file : ∀ content, card path = some (.file content) →
    (∀ size ∈ env.stat, size = content.length) ∧ ∀ f ∈ env.openFile, f = ⟨content, 0⟩

/-! ### What the commands are to do -/

/-- The program answers 550 and changes neither the card nor the data sessions, their control
blocks or the control session, except for its FIFO. -/
def Refuses (prog : FtpdM Unit) (card : Card) (env : Env) (s : Sys) : Prop :=
  ∃ s' m fifo, prog.run s = .ok ((), s') ∧ replies s'.log = replies s.log ++ [msg550] ∧
    (∃ new, s'.calls = s.calls ++ new ∧ new.foldl (Card.call env) card = card) ∧
    s'.data = s.data ∧ s'.pcbs = s.pcbs ∧ s.fsm = some m ∧ s'.fsm = some { m with fifo := fifo }

/-- `RETR` refuses what is not a regular file, and whether it refuses does not depend on what the
stack held. -/
def RetrActsOnFiles (card : Card) (path : Str) (env : Env) (s : Sys) : Prop :=
  (¬ card.IsRegular path →
    ∀ junk, Refuses (cmdRetr (some path) { env with junk := junk }) card env s) ∧
  ∀ junk junk', Refuses (cmdRetr (some path) { env with junk := junk }) card env s ↔
    Refuses (cmdRetr (some path) { env with junk := junk' }) card env s

/-- `DELE` refuses what is not a regular file, and whether it refuses does not depend on what the
stack held. -/
def DeleActsOnFiles (card : Card) (path : Str) (env : Env) (s : Sys) : Prop :=
  (¬ card.IsRegular path →
    ∀ junk, Refuses (cmdDele (some path) { env with junk := junk }) card env s) ∧
  ∀ junk junk', Refuses (cmdDele (some path) { env with junk := junk }) card env s ↔
    Refuses (cmdDele (some path) { env with junk := junk' }) card env s

/-! ### When they refuse -/

section Refusals

variable {s : Sys} {m : MsgState} {card : Card} {path : Str} {env env' : Env}

/-- A program that makes calls without an effect and answers 550. -/
lemma refuses_of_calls (hm : s.fsm = some m) {prog : FtpdM Unit} (new : List Call) (dr : Drain)
    (hprog : ∀ Q E, wp (sendMsg dr msg550) Q E { s with calls := s.calls ++ new } → wp prog Q E s)
    (hnew : new.foldl (Card.call env) card = card) : Refuses prog card env s := by
  have hwp := hprog _ _ (sendMsg_replies (s := { s with calls := s.calls ++ new }) hm dr
    (fixedReplies_short msg550 (by simp [fixedReplies])))
  obtain ⟨_, s', hrun, fifo, log, hlog, rfl⟩ := wp_returns hwp
  exact ⟨_, m, fifo, hrun, hlog, ⟨new, rfl, hnew⟩, rfl, rfl, hm, rfl⟩

/-- A program whose first reply is another one does not refuse. -/
lemma not_refuses_of_said (hm : s.fsm = some m) {prog : FtpdM Unit} {o : Option (List Deed)}
    (hdoes : Does s.front prog s o) (hsaid : ∀ l, o = some l → (said l).head? ≠ some msg550) :
    ¬ Refuses prog card env s := by
  rintro ⟨s', -, -, hrun, hreplies, -⟩
  obtain ⟨l, hl, hfront⟩ := wp_ok hdoes hrun
  have hfifo : s.front.fifo ≠ none := by simp [Sys.front, hm]
  rw [← replies_front, hfront, Front.acts_replies l _ hfifo, replies_front] at hreplies
  have hl550 : said l = [msg550] := List.append_cancel_left hreplies
  exact hsaid l hl (congrArg List.head? hl550)

/-- `RETR` refuses if the test fails or the file cannot be opened. -/
lemma cmdRetr_refuses_iff (hm : s.fsm = some m) :
    Refuses (cmdRetr (some path) env') card env s ↔
      (retrStat env').1 = false ∨ env'.openFile = none := by
  constructor
  · intro hrefuses
    by_contra hno
    rw [not_or, Bool.not_eq_false] at hno
    obtain ⟨hreg, hopen⟩ := hno
    obtain ⟨file, hfile⟩ := Option.ne_none_iff_exists'.mp hopen
    refine not_refuses_of_said hm (cmdRetr_does hm (some path)) (fun l hl => ?_) hrefuses
    -- the first reply is 150
    simp only [Command.deeds, Option.bind_some, hreg, Bool.not_true, Bool.false_eq_true, if_false,
      openFileDeeds, hfile] at hl
    obtain ⟨l₁, hl₁, rfl⟩ := Deed.before_eq_some hl
    obtain ⟨l₂, hl₂, rfl⟩ := Deed.before_eq_some hl₁
    obtain ⟨l₃, hl₃, hready⟩ := Option.bind_eq_some_iff.mp hl₂
    obtain ⟨ready, -, rfl⟩ := Option.map_eq_some_iff.mp hready
    obtain ⟨rfl, -⟩ := say_eq_some hl₃
    cases ready with
    | true => exact fun h => absurd (Option.some.inj h) (by simp [retrText, msg550, lit])
    | false => exact fun h => absurd (Option.some.inj h) (by simp [retrText, msg550, lit])
  · intro hno
    by_cases hreg : (retrStat env').1 = true
    · have hopen : env'.openFile = none := hno.resolve_left (by rw [hreg]; exact Bool.noConfusion)
      refine refuses_of_calls hm [.stat path, .openFile path] env'.msg₁ (fun Q E h => ?_) rfl
      simp only [cmdRetr, checkStr, pure_bind]
      rw [wp_bind, wp_note, hreg, Bool.not_true, if_neg Bool.false_ne_true, wp_bind, wp_vfsOpen]
      refine ⟨fun _ => ?_, fun file hfile => ?_⟩
      · simpa only [List.append_assoc, List.singleton_append] using h
      · rw [hopen] at hfile
        cases hfile
    · rw [Bool.not_eq_true] at hreg
      refine refuses_of_calls hm [.stat path] env'.msg₁ (fun Q E h => ?_) rfl
      simp only [cmdRetr, checkStr, pure_bind]
      rw [wp_bind, wp_note, hreg, Bool.not_false, if_pos rfl]
      exact h

/-- `DELE` refuses if there is a path and it cannot be opened or the library does not remove
it. -/
lemma cmdDele_refuses_iff (hm : s.fsm = some m) (henv : env'.remove = env.remove) :
    Refuses (cmdDele (some path) env') card env s ↔
      path ≠ [] ∧ (env'.stat = none ∨ env.remove = false) := by
  constructor
  · intro hrefuses
    by_contra hno
    refine not_refuses_of_said hm (Command.run_does hm .dele (some path) env') (fun l hl => ?_)
      hrefuses
    by_cases hpath : path = []
    · -- without a path the reply is 501
      simp only [Command.deeds, argDeeds, if_pos hpath] at hl
      obtain ⟨rfl, -⟩ := say_eq_some hl
      exact fun h => absurd (Option.some.inj h) (by decide)
    · rw [not_and, not_or, Bool.not_eq_false] at hno
      obtain ⟨hstat, hremove⟩ := hno hpath
      -- the reply is 250
      simp only [Command.deeds, argDeeds, if_neg hpath, removeDeeds,
        Option.isSome_iff_ne_none.mpr hstat, if_true, henv, hremove] at hl
      obtain ⟨l₁, hl₁, rfl⟩ := Deed.before_eq_some hl
      obtain ⟨l₂, hl₂, rfl⟩ := Deed.before_eq_some hl₁
      obtain ⟨rfl, -⟩ := say_eq_some hl₂
      exact fun h => absurd (Option.some.inj h) (by decide)
  · rintro ⟨hpath, hno⟩
    cases hstat : env'.stat with
    | none =>
      refine refuses_of_calls hm [.stat path] env'.msg₁ (fun Q E h => ?_) rfl
      simp only [cmdDele, withArg, if_neg hpath, removePath]
      rw [wp_bind, wp_note, hstat, Option.isSome_none, if_neg Bool.false_ne_true]
      exact h
    | some size =>
      have hremove : env.remove = false :=
        hno.resolve_left (by rw [hstat]; exact Option.some_ne_none _)
      refine refuses_of_calls hm [.stat path, .remove path] env'.msg₁ (fun Q E h => ?_) ?_
      · simp only [cmdDele, withArg, if_neg hpath, removePath]
        rw [wp_bind, wp_note, hstat, Option.isSome_some, if_pos rfl, wp_bind, wp_note, henv,
          hremove, if_neg Bool.false_ne_true]
        simpa only [List.append_assoc, List.singleton_append] using h
      · simp [Card.call, hremove]

end Refusals

/-! ### What they act on -/

section

variable {s : Sys} {m : MsgState} {card : Card} {path : Str} {env : Env}

/-- What is at a path that names no regular file: nothing or a directory. -/
lemma Card.not_isRegular (h : ¬ card.IsRegular path) :
    card path = none ∨ card path = some .dir := by
  rcases hp : card path with _ | _ | content
  · exact Or.inl rfl
  · exact Or.inr rfl
  · exact absurd ⟨content, hp⟩ h

lemma Card.not_isRegular_of_dir (h : card path = some .dir) : ¬ card.IsRegular path := by
  rintro ⟨content, hp⟩
  rw [h] at hp
  cases hp

/-- The test of `cmd_retr` passes if the path can be opened or if the stack held the mode of a
regular file. -/
lemma retrStat_junk (env : Env) (junk : UInt8 × ℕ) :
    (retrStat { env with junk := junk }).1 = (env.stat.isSome || junk.1 &&& 8 != 0) := by
  rw [retrStat]
  cases env.stat with
  | none => rfl
  | some size => rfl

lemma retrActsOnFiles_iff (hm : s.fsm = some m) (hcard : Reflects card path env) :
    RetrActsOnFiles card path env s ↔
      (card path = some .dir → env.openFile = none) ∧
        (env.openFile ≠ none → env.stat ≠ none) := by
  have hrefuses (junk) : Refuses (cmdRetr (some path) { env with junk := junk }) card env s ↔
      (env.stat.isSome || junk.1 &&& 8 != 0) = false ∨ env.openFile = none := by
    rw [cmdRetr_refuses_iff hm, retrStat_junk]
  simp only [RetrActsOnFiles, hrefuses]
  constructor
  · rintro ⟨hfiles, hjunk⟩
    refine ⟨fun hdir => ?_, fun hopen hstat => ?_⟩
    · refine (hfiles (Card.not_isRegular_of_dir hdir) (8, 0)).resolve_left ?_
      rw [show ((8 : UInt8) &&& 8 != 0) = true from by decide, Bool.or_true]
      exact Bool.noConfusion
    · -- the path could not be opened for the test, but can be opened for the transfer
      rw [hstat] at hjunk
      exact ((hjunk (0, 0) (8, 0)).mp (Or.inl (by decide))).elim (by decide) hopen
  · rintro ⟨hdir, hstat⟩
    refine ⟨fun hreg junk => Or.inr ?_, fun junk junk' => ?_⟩
    · rcases Card.not_isRegular hreg with hnone | hdir'
      · exact (hcard.absent hnone).2.1
      · exact hdir hdir'
    · by_cases hopen : env.openFile = none
      · exact ⟨fun _ => Or.inr hopen, fun _ => Or.inr hopen⟩
      · rw [Option.isSome_iff_ne_none.mpr (hstat hopen), Bool.true_or, Bool.true_or]

lemma deleActsOnFiles_iff (hm : s.fsm = some m) (hcard : Reflects card path env) :
    DeleActsOnFiles card path env s ↔
      (path = [] → card.IsRegular path) ∧
        (card path = some .dir → env.stat = none ∨ env.remove = false) := by
  have hrefuses (junk) : Refuses (cmdDele (some path) { env with junk := junk }) card env s ↔
      path ≠ [] ∧ (env.stat = none ∨ env.remove = false) := cmdDele_refuses_iff hm rfl
  simp only [DeleActsOnFiles, hrefuses, implies_true, and_true, forall_const]
  constructor
  · intro hfiles
    exact ⟨fun hpath => by_contra fun hreg => (hfiles hreg).1 hpath,
      fun hdir => (hfiles (Card.not_isRegular_of_dir hdir)).2⟩
  · rintro ⟨hpath, hdir⟩ hreg
    refine ⟨fun hnil => hreg (hpath hnil), ?_⟩
    rcases Card.not_isRegular hreg with hnone | hdir'
    · exact Or.inl (hcard.absent hnone).1
    · exact hdir hdir'

/-- **When `RETR` and `DELE` act on regular files only**: a directory cannot be opened for the
transfer, and cannot be opened for the test or not be removed; what can be opened for the transfer
can be opened for the test; and there is a path. -/
theorem actsOnFiles_iff (hm : s.fsm = some m) (hcard : Reflects card path env) :
    RetrActsOnFiles card path env s ∧ DeleActsOnFiles card path env s ↔
      (card path = some .dir →
        env.openFile = none ∧ (env.stat = none ∨ env.remove = false)) ∧
      (env.openFile ≠ none → env.stat ≠ none) ∧ (path = [] → card.IsRegular path) := by
  rw [retrActsOnFiles_iff hm hcard, deleActsOnFiles_iff hm hcard, forall_and]
  tauto

end

/-- A card with a directory `d` and a file `a`. -/
def dirCard : Card := fun path =>
  if path = lit "d" then some .dir else if path = lit "a" then some (.file [1, 2, 3]) else none

theorem actsOnFiles_absent :
    RetrActsOnFiles dirCard (lit "b") { calm with stat := none, openFile := none, remove := false }
        session ∧
      DeleActsOnFiles dirCard (lit "b")
        { calm with stat := none, openFile := none, remove := false } session := by
  obtain ⟨m, hm⟩ := exists_fsm_session
  refine (actsOnFiles_iff hm ⟨fun _ => ⟨rfl, rfl, rfl⟩, fun content h => ?_⟩).mpr ?_
  · cases h
  · exact ⟨fun h => absurd h (by decide), fun h => absurd rfl h, fun h => absurd h (by decide)⟩

/-- The directory `d` can be opened, so that `RETR d` does not answer 550: it announces a transfer
and opens a data connection.  If the file `a` can be opened only the second time, the stack decides
whether `RETR a` answers 550. -/
theorem retr_opens_directory :
    Reflects dirCard (lit "d") calm ∧ ¬ RetrActsOnFiles dirCard (lit "d") calm session ∧
    ((cmdRetr (some (lit "d")) calm).run session).toOption.map
        (fun r => (replies r.2.log, (r.2.data 0).isSome)) =
      some (replies session.log ++ [retrText (lit "d") calm], true) ∧
    Reflects dirCard (lit "a")
      { calm with stat := none, openFile := some ⟨[1, 2, 3], 0⟩ } ∧
    ¬ RetrActsOnFiles dirCard (lit "a")
      { calm with stat := none, openFile := some ⟨[1, 2, 3], 0⟩ } session := by
  obtain ⟨m, hm⟩ := exists_fsm_session
  have hdir : Reflects dirCard (lit "d") calm :=
    ⟨fun h => absurd h (by decide), fun content h => by cases h⟩
  have hfile : Reflects dirCard (lit "a") { calm with
      stat := none, openFile := some ⟨[1, 2, 3], 0⟩ } := by
    refine ⟨fun h => absurd h (by decide), fun content h => ?_⟩
    cases h
    exact ⟨fun size hsize => (by cases hsize), fun f hf => (Option.some.inj hf).symm⟩
  refine ⟨hdir, fun hfiles => ?_, by decide +kernel, hfile, fun hfiles => ?_⟩
  · exact absurd (((retrActsOnFiles_iff hm hdir).mp hfiles).1 rfl) (by decide)
  · exact ((retrActsOnFiles_iff hm hfile).mp hfiles).2 (Option.some_ne_none _) rfl

end Teensy41Ethernet.Ftpd
