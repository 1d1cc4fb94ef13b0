import Teensy41Ethernet.Ftpd.Deeds
import Teensy41Ethernet.Ftpd.Moves

/-!
# Two clients

Every control connection has a session of its own, but the file layer has one working
directory for the whole file system, and `cmd_pasv` one port counter.  So two clients share
the directory: what `CWD` and `CDUP` of one session do, the other one sees.  This file has the
daemon with two control sessions, and proves that this is the only way in which one client
changes what the other one sees of the working directory.
-/

namespace Teensy41Ethernet.Ftpd

open Lib Lwip

/-! ### Two control sessions -/

/-- Two control sessions.  Each has its own objects; the working directory and the port counter
exist once. -/
structure Clients where
  a : Sys
  b : Sys
  cwd_eq : b.cwd = a.cwd
  port_eq : b.port = a.port
  port_range : InPortRange a.port

/-- To which of the two sessions a callback belongs. -/
inductive Client where
  | a | b
deriving DecidableEq

lemma ftpdStep_inPortRange {s s' : Sys} {e : Event} (hport : InPortRange s.port)
    (h : ftpdStep s e = some s') : InPortRange s'.port :=
  (ftpdStep_move hport h).inPortRange hport

lemma Clients.port_range_b (t : Clients) : InPortRange t.b.port := by
  rw [t.port_eq]
  exact t.port_range

/-- A callback of the session `a`, after which the other one finds the working directory and the
port counter changed. -/
def Clients.stepA (t : Clients) (e : Event) : Option Clients :=
  match h : ftpdStep t.a e with
  | none => none
  | some a' => some
      { a := a'
        b := { t.b with cwd := a'.cwd, port := a'.port }
        cwd_eq := rfl
        port_eq := rfl
        port_range := ftpdStep_inPortRange t.port_range h }

/-- A callback of the session `b`. -/
def Clients.stepB (t : Clients) (e : Event) : Option Clients :=
  match h : ftpdStep t.b e with
  | none => none
  | some b' => some
      { a := { t.a with cwd := b'.cwd, port := b'.port }
        b := b'
        cwd_eq := rfl
        port_eq := rfl
        port_range := show InPortRange b'.port from ftpdStep_inPortRange t.port_range_b h }

/-- A callback of one of the two sessions. -/
def clientStep (t : Clients) : Client × Event → Option Clients
  | (.a, e) => t.stepA e
  | (.b, e) => t.stepB e

lemma Clients.stepA_eq_some {t t' : Clients} {e : Event} (h : t.stepA e = some t') :
    ftpdStep t.a e = some t'.a := by
  unfold Clients.stepA at h
  split at h
  · cases h
  · next a' ha' =>
    obtain rfl := Option.some.inj h
    exact ha'

lemma Clients.stepB_eq_some {t t' : Clients} {e : Event} (h : t.stepB e = some t') :
    ∃ b', ftpdStep t.b e = some b' ∧ t'.a.cwd = b'.cwd := by
  unfold Clients.stepB at h
  split at h
  · cases h
  · next b' hb' =>
    obtain rfl := Option.some.inj h
    exact ⟨b', hb', rfl⟩

/-! ### The working directory after a callback -/

/-- The working directory after a callback. -/
def Event.nextCwd (e : Event) (cwd : Str) : Str :=
  match e.executed with
  | some (.cwd, some path) => (vfsChdir cwd path e.env.realloc e.env.isDir).2
  | some (.cdup, _) => (vfsChdir cwd (lit "..") e.env.realloc e.env.isDir).2
  | _ => cwd

/-- Only `CWD` and `CDUP` change the working directory. -/
lemma Sys.Move.cwd {s : Sys} {e : Event} {v' : View} (h : s.Move e v')
    (hcwd : e.command ≠ some .cwd) (hcdup : e.command ≠ some .cdup) : v'.cwd = s.cwd := by
  cases h with
  | same | remoteClose | unheardClose | dataerr | unheardError => rfl
  | serve hreached h =>
    cases hreached with
    | _ =>
      cases h with
      | _ => rfl
  | freed _ h =>
    cases h with
    | _ => rfl
  | command hc h =>
    cases h with
    | same | setState => rfl
    | chdir hchdir =>
      rcases hchdir with rfl | rfl
      · exact absurd hc hcwd
      · exact absurd hc hcdup
    | transfer _ h =>
      cases h with
      | _ => rfl
    | pasv _ _ h =>
      cases h with
      | _ => rfl

/-- What the deeds say about the working directory. -/
lemma Front.acts_cwd_of_say {v : Front} {dr : Drain} {text : Str} {l : List Deed}
    (h : say dr text = some l) : (v.acts l).cwd = v.cwd := by
  unfold say at h
  split at h
  · cases h
  · cases h
    show (v.act (.say dr text)).cwd = v.cwd
    cases hfifo : v.fifo with
    | none => rw [Front.act, hfifo]
    | some f =>
      by_cases hroom : sfifoSpace f < (text ++ lit "\r\n").length
      · rw [Front.act_say_full hfifo dr hroom]
      · rw [Front.act_say_room hfifo dr hroom]

lemma changeDir_cwd {path : Str} {env : Env} {s : Sys} {l : List Deed}
    (h : changeDirDeeds path env s = some l) :
    (s.front.acts l).cwd = (vfsChdir s.cwd path env.realloc env.isDir).2 := by
  obtain ⟨l₁, hl₁, rfl⟩ := Deed.before_eq_some h
  split at hl₁
  · cases hl₁
  · obtain ⟨l₂, hl₂, rfl⟩ := Deed.before_eq_some hl₁
    exact Front.acts_cwd_of_say hl₂

/-- **The working directory after a callback is determined by the one before it.** -/
lemma ftpdStep_cwd {s s' : Sys} {e : Event} (hport : InPortRange s.port)
    (h : ftpdStep s e = some s') : s'.cwd = e.nextCwd s.cwd := by
  have hother : e.command ≠ some .cwd → e.command ≠ some .cdup → s'.cwd = s.cwd :=
    (ftpdStep_move hport h).cwd
  cases hexec : e.executed with
  | none =>
    have hcommand : e.command = none := by rw [Event.command_eq, hexec, Option.map_none]
    rw [Event.nextCwd, hexec]
    exact hother (by rw [hcommand]; simp) (by rw [hcommand]; simp)
  | some r =>
    obtain ⟨c, arg⟩ := r
    have hcommand : e.command = some c := by rw [Event.command_eq, hexec, Option.map_some]
    obtain ⟨m, l, -, hl, hfront⟩ := ftpdStep_executed hexec h
    have hcwd : s'.cwd = (s.front.acts l).cwd := congrArg Front.cwd hfront
    rw [Event.nextCwd, hexec]
    cases c with
    | cwd =>
      cases arg with
      | none => cases hl
      | some path => exact hcwd.trans (changeDir_cwd hl)
    | cdup => exact hcwd.trans (changeDir_cwd hl)
    | _ => exact hother (by rw [hcommand]; simp) (by rw [hcommand]; simp)

/-! ### What a client sees -/

/-- What a client sees of the working directory: the replies to `CWD`, `CDUP` and `PWD`, and the
directory that `LIST` and `NLST` open. -/
inductive Sight where
  | replies (texts : List Str)
  | listed (calls : List Call)
deriving DecidableEq

/-- What the client of a session sees of the working directory in a callback. -/
def sight (s : Sys) (e : Event) (s' : Sys) : Option Sight :=
  match e.command with
  | some .cwd | some .cdup | some .pwd =>
      some (.replies ((Ftpd.replies s'.log).drop (Ftpd.replies s.log).length))
  | some .list | some .nlst => some (.listed (s'.calls.drop s.calls.length))
  | _ => none

/-- The same, from the working directory before the callback. -/
def Event.sight (e : Event) (cwd : Str) : Option Sight :=
  match e.executed with
  | some (.cwd, some path) =>
      some (.replies [if (vfsChdir cwd path e.env.realloc e.env.isDir).1 then msg250 else msg550])
  | some (.cdup, _) =>
      some (.replies
        [if (vfsChdir cwd (lit "..") e.env.realloc e.env.isDir).1 then msg250 else msg550])
  | some (.pwd, _) =>
      some (.replies (if e.env.strdup then
        [lit "257 \"" ++ cwd ++ lit "\" is current directory."] else []))
  | some (.list, _) | some (.nlst, _) =>
      some (.listed (if e.env.strdup then [.opendir cwd] else []))
  | _ => none

lemma said_changeDir {path : Str} {env : Env} {s : Sys} {l : List Deed}
    (h : changeDirDeeds path env s = some l) :
    said l = [if (vfsChdir s.cwd path env.realloc env.isDir).1 then msg250 else msg550] := by
  obtain ⟨l₁, hl₁, rfl⟩ := Deed.before_eq_some h
  split at hl₁
  · cases hl₁
  · obtain ⟨l₂, hl₂, rfl⟩ := Deed.before_eq_some hl₁
    show said l₂ = _
    exact said_say hl₂

lemma said_pwd {arg : Option Str} {env : Env} {s : Sys} {l : List Deed}
    (h : Command.pwd.deeds arg env s = some l) :
    said l = if env.strdup then [lit "257 \"" ++ s.cwd ++ lit "\" is current directory."]
      else [] := by
  rw [Command.deeds] at h
  split at h
  · next hdup =>
    rw [if_pos hdup]
    exact said_say h
  · next hdup =>
    rw [if_neg hdup]
    cases h
    rfl

/-- The replies that a callback adds. -/
lemma ftpdStep_said {s s' : Sys} {e : Event} {c : Command} {arg : Option Str}
    (he : e.executed = some (c, arg)) (h : ftpdStep s e = some s') :
    ∃ l, c.deeds arg e.env s = some l ∧ replies s'.log = replies s.log ++ said l := by
  obtain ⟨m, l, hm, hl, hfront⟩ := ftpdStep_executed he h
  refine ⟨l, hl, ?_⟩
  rw [← replies_front, hfront, Front.acts_replies, replies_front]
  rw [Sys.front, hm, Option.map_some]
  exact Option.some_ne_none _

/-- **What a client sees in a callback is determined by the working directory before it.** -/
lemma sight_eq {s s' : Sys} {e : Event} (h : ftpdStep s e = some s') :
    sight s e s' = e.sight s.cwd := by
  unfold sight Event.sight
  rw [Event.command_eq]
  cases hexec : e.executed with
  | none => rfl
  | some r =>
    obtain ⟨c, arg⟩ := r
    obtain ⟨l, hl, hsaid⟩ := ftpdStep_said hexec h
    obtain ⟨l', hl', hasked⟩ := ftpdStep_asked hexec h
    obtain rfl := Option.some.inj (hl.symm.trans hl')
    have hreplies : (replies s'.log).drop (replies s.log).length = said l := by
      rw [hsaid, List.drop_left]
    have hcalls : s'.calls.drop s.calls.length = asked l := by rw [hasked, List.drop_left]
    rw [Option.map_some, hreplies, hcalls]
    cases c with
    | cwd =>
      cases arg with
      | none => cases hl
      | some path => exact congrArg (fun r => some (Sight.replies r)) (said_changeDir hl)
    | cdup => exact congrArg (fun r => some (Sight.replies r)) (said_changeDir hl)
    | pwd => exact congrArg (fun r => some (Sight.replies r)) (said_pwd hl)
    | list | nlst => exact congrArg (fun r => some (Sight.listed r)) (asked_listDeeds hl)
    | _ => rfl

/-! ### The theorem -/

/-- The callback leaves the working directory as it is. -/
def Event.LeavesCwd (e : Event) (cwd : Str) : Prop := e.nextCwd cwd = cwd

instance (e : Event) (cwd : Str) : Decidable (e.LeavesCwd cwd) :=
  inferInstanceAs (Decidable (e.nextCwd cwd = cwd))

/-- The callback belongs to the session `a`, or it leaves the working directory as it is. -/
def SharesCwd (t : Clients) (ev : Client × Event) : Prop :=
  ev.1 = .b → ev.2.LeavesCwd t.b.cwd

instance (t : Clients) (ev : Client × Event) : Decidable (SharesCwd t ev) :=
  inferInstanceAs (Decidable (ev.1 = .b → ev.2.LeavesCwd t.b.cwd))

/-- The callbacks of the session `a`. -/
def Client.ofA : Client × Event → Option Event
  | (.a, e) => some e
  | (.b, _) => none

/-- What the client of the session `a` sees. -/
def sightA (t : Clients) (ev : Client × Event) (t' : Clients) : Option Sight :=
  match ev.1 with
  | .a => sight t.a ev.2 t'.a
  | .b => none

/-- **The other client does not show, unless it changes the working directory.**  In every run of
two sessions in which no `CWD` and no `CDUP` of the session `b` changes the working directory,
the client of the session `a` sees what it sees when all callbacks of `b` are left out. -/
theorem sight_alone {t t' : Clients} {a' : Sys} {es : List (Client × Event)}
    (hes : Admits clientStep SharesCwd t es) (hrun : exec clientStep t es = some t')
    (halone : exec ftpdStep t.a (es.filterMap Client.ofA) = some a') :
    trace clientStep sightA t es = trace ftpdStep sight t.a (es.filterMap Client.ofA) := by
  refine trace_eq_of_unwinding
    (R := fun (t : Clients) (s : Sys) => s.cwd = t.a.cwd ∧ InPortRange s.port) ?_ ?_
    ⟨rfl, t.port_range⟩ hes hrun halone
  · rintro t ⟨c, e⟩ t₁ s ⟨hcwd, hport⟩ hok hproj hstep
    cases c with
    | a => cases hproj
    | b =>
      obtain ⟨b', hb', hcwd'⟩ := Clients.stepB_eq_some hstep
      refine ⟨rfl, ?_, hport⟩
      rw [hcwd', ftpdStep_cwd t.port_range_b hb', hok rfl, t.cwd_eq, hcwd]
  · rintro t ⟨c, e⟩ t₁ s d s' ⟨hcwd, hport⟩ hproj hstep hs'
    cases c with
    | b => cases hproj
    | a =>
      obtain rfl := Option.some.inj hproj
      have ha' := Clients.stepA_eq_some hstep
      refine ⟨?_, ?_, ftpdStep_inPortRange hport hs'⟩
      · show sight t.a e t₁.a = sight s e s'
        rw [sight_eq ha', sight_eq hs', hcwd]
      · rw [ftpdStep_cwd t.port_range ha', ftpdStep_cwd hport hs', hcwd]

/-- Two sessions in the calm environment. -/
def twoSessions : Clients where
  a := session
  b := session
  cwd_eq := rfl
  port_eq := rfl
  port_range := accepted_session.inPortRange

/-- The session `b` lists the working directory and asks for it; `CWD` and `PWD` of `a` do not
show it. -/
theorem sight_alone_listing :
    ∃ t' a', exec clientStep twoSessions [(.b, line "LIST\r\n"), (.a, line "CWD d\r\n"),
        (.b, line "PWD\r\n"), (.a, line "PWD\r\n")] = some t' ∧
      exec ftpdStep twoSessions.a [line "CWD d\r\n", line "PWD\r\n"] = some a' ∧
      trace clientStep sightA twoSessions [(.b, line "LIST\r\n"), (.a, line "CWD d\r\n"),
          (.b, line "PWD\r\n"), (.a, line "PWD\r\n")] =
        trace ftpdStep sight twoSessions.a [line "CWD d\r\n", line "PWD\r\n"] := by
  have hboth : (exec clientStep twoSessions [(.b, line "LIST\r\n"), (.a, line "CWD d\r\n"),
      (.b, line "PWD\r\n"), (.a, line "PWD\r\n")]).isSome = true := by decide +kernel
  have halone : (exec ftpdStep twoSessions.a [line "CWD d\r\n", line "PWD\r\n"]).isSome = true := by
    decide +kernel
  have hes : Admits clientStep SharesCwd twoSessions [(.b, line "LIST\r\n"),
      (.a, line "CWD d\r\n"), (.b, line "PWD\r\n"), (.a, line "PWD\r\n")] := by decide +kernel
  obtain ⟨t', ht'⟩ := Option.isSome_iff_exists.mp hboth
  obtain ⟨a', ha'⟩ := Option.isSome_iff_exists.mp halone
  exact ⟨t', a', ht', ha', sight_alone hes ht' ha'⟩

/-- `CWD` of the session `b` changes what `PWD` of the session `a` replies. -/
theorem sight_changed_by_cwd :
    trace clientStep sightA twoSessions [(.b, line "CWD d\r\n"), (.a, line "PWD\r\n")] =
        [.replies [lit "257 \"/d\" is current directory."]] ∧
      trace ftpdStep sight twoSessions.a [line "PWD\r\n"] =
        [.replies [lit "257 \"/\" is current directory."]] ∧
      trace clientStep sightA twoSessions [(.b, line "CWD d\r\n"), (.a, line "PWD\r\n")] ≠
        trace ftpdStep sight twoSessions.a [line "PWD\r\n"] := by
  have hboth : trace clientStep sightA twoSessions
      [(.b, line "CWD d\r\n"), (.a, line "PWD\r\n")] =
        [.replies [lit "257 \"/d\" is current directory."]] := by decide +kernel
  have halone : trace ftpdStep sight twoSessions.a [line "PWD\r\n"] =
      [.replies [lit "257 \"/\" is current directory."]] := by decide +kernel
  refine ⟨hboth, halone, ?_⟩
  rw [hboth, halone]
  decide

end Teensy41Ethernet.Ftpd
