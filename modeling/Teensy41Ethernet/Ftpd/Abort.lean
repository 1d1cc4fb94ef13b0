import Teensy41Ethernet.Ftpd.Deeds
import Teensy41Ethernet.Ftpd.Moves

/-!
# `ABOR`

`cmd_abrt` is to abort the data connection, but it calls `tcp_abort(pcb)` for the control
connection.  TCP makes the error callback of the control connection at once: `ftpd_msgerr`
closes the data session and frees the control session, and `cmd_abrt` goes on with a pointer
to freed memory.  A data session that is no longer the current one is not aborted at all.  So
`ABOR` does what it should only if there is nothing to abort.
-/

namespace Teensy41Ethernet.Ftpd

open Lib

/-- `ABOR` ends the data transfers and nothing else: the handler returns, the control session is
still there and idle, and every data session that was open has been freed, once, with the
control blocks that carry it. -/
def AbortsTransfer (arg : Option Str) (env : Env) (s : Sys) : Prop :=
  ∃ s' m', (cmdAbrt arg env).run s = .ok ((), s') ∧ s'.fsm = some m' ∧ m'.state = .idle ∧
    m'.datafs = none ∧ ∀ d, s.data d ≠ none → s'.data d = none ∧
      s'.account.count (.release (.session d)) = s.account.count (.release (.session d)) + 1 ∧
      ∀ i p, s.pcbs i = some p → p.arg = some d → s'.pcbs i = none

section Abort

variable {s : Sys} {m : MsgState} {env : Env}

/-- With a data session, the handler does not return. -/
lemma cmdAbrt_ne_ok (hm : s.fsm = some m) (hd : m.datafs ≠ none) (arg : Option Str)
    (r : Unit × Sys) : (cmdAbrt arg env).run s ≠ .ok r := by
  intro hrun
  have hdeeds : Command.abrt.deeds arg env s = none := by
    simp only [Command.deeds, hm, Option.bind_some, Option.isSome_iff_ne_none.mpr hd, if_true]
  obtain ⟨l, hl, -⟩ := wp_ok (cmdAbrt_does hm arg) hrun
  exact absurd (hdeeds.symm.trans hl) (by simp)

/-- Without a data session, the state is set and nothing else happens. -/
lemma cmdAbrt_idle (hm : s.fsm = some m) (hd : m.datafs = none) (arg : Option Str) :
    (cmdAbrt arg env).run s = .ok ((), { s with fsm := some { m with state := .idle } }) := by
  simp only [cmdAbrt, getMsg, setMsg, bind_assoc, StateT.run_bind, StateT.run_get, pure_bind, hm,
    StateT.run_pure, hd]
  rfl

/-- A control session is freed with an open data session. -/
lemma freeMsg_returns {d i : ℕ} {x : DataState} {p : Pcb} (hm : s.fsm = some m)
    (hd : m.datafs = some d) (hx : s.data d = some x) (hmsgfs : x.msgfs = true)
    (hi : m.datapcb = some i) (hp : s.pcbs i = some p) :
    wp freeMsg (fun _ s' => s'.fsm = none) (fun _ => False) s := by
  have hclose : wp (ftpdDataclose (some i) d) (fun _ _ => True) (fun _ => False) s := by
    rw [wp_ftpdDataclose hm hx hp, hmsgfs]
    exact ⟨fun _ => trivial, fun h => absurd h.symm Bool.false_ne_true⟩
  unfold freeMsg
  rw [wp_bind, wp_getMsg_of hm]
  simp only [hd, hi]
  exact wp_seq hclose fun _ _ _ => rfl

/-- **With an open data session `ABOR` uses freed memory**: the control session or, if that is
gone already, the control block of the data connection. -/
theorem cmdAbrt_uses_freed {d i : ℕ} {x : DataState} (hm : s.fsm = some m)
    (hd : m.datafs = some d) (hx : s.data d = some x) (hmsgfs : x.msgfs = true)
    (hi : m.datapcb = some i) (arg : Option Str) :
    (cmdAbrt arg env).run s = .error .freed := by
  have hwp : wp (cmdAbrt arg env) (fun _ _ => False) (fun f => f = .freed) s := by
    unfold cmdAbrt
    rw [wp_bind, wp_getMsg_of hm]
    simp only [hd, hi]
    rw [wp_bind, wp_setPcb]
    refine ⟨fun h => (by cases h), ?_, fun _ _ _ => rfl⟩
    rintro _ ⟨⟩ q hq
    -- the error callback of the control connection frees the control session
    refine wp_seq (wp_mono (freeMsg_returns hm hd hx hmsgfs hi (Function.update_self _ _ _))
      (fun _ _ h => h) fun _ h => h.elim) fun _ s₂ h₂ => ?_
    rw [wp_bind, wp_checkDatafs, h₂]
    exact ⟨fun _ h => (by cases h), fun _ => rfl⟩
  obtain ⟨f, hrun, rfl⟩ := wp_fails hwp
  exact hrun

/-- **`ABOR` ends the data transfers and nothing else exactly if there is no data session**,
neither a current one nor any other. -/
theorem cmdAbrt_aborts_iff (hm : s.fsm = some m) (arg : Option Str) :
    AbortsTransfer arg env s ↔ m.datafs = none ∧ ∀ d, s.data d = none := by
  constructor
  · rintro ⟨s', m', hrun, -, -, -, hfreed⟩
    have hd : m.datafs = none := by
      by_contra hd
      exact cmdAbrt_ne_ok hm hd arg _ hrun
    refine ⟨hd, fun d => ?_⟩
    -- the handler only sets the state, so that a session which was there still is
    obtain rfl := congrArg Prod.snd (Except.ok.inj ((cmdAbrt_idle hm hd arg).symm.trans hrun))
    by_contra hlive
    exact hlive (hfreed d hlive).1
  · rintro ⟨hd, hnone⟩
    exact ⟨_, _, cmdAbrt_idle hm hd arg, rfl, rfl, hd, fun d hlive => absurd (hnone d) hlive⟩

end Abort

/-- A session without a data connection. -/
theorem cmdAbrt_aborts_nothing : AbortsTransfer none calm session := by
  have hdatafs : session.fsm.map MsgState.datafs = some none := by decide +kernel
  obtain ⟨m, hm, hd⟩ := Option.map_eq_some_iff.mp hdatafs
  obtain ⟨buffer, hview⟩ := accepted_session.view
  refine (cmdAbrt_aborts_iff hm none).mpr ⟨hd, fun d => ?_⟩
  have hsessions : session.view.sessions d = none := by
    rw [hview]
    rfl
  simpa [Sys.view] using hsessions

/-- The data connection is connecting, connected and listening: each time the control session is
used after it was freed.  And after the second of two listings the session of the first one is
still connecting, but no longer the current one: `ABOR` leaves it. -/
theorem abor_uses_freed_session :
    Accepted session ∧
    (∀ es ∈ [[line "LIST\r\n"], [line "LIST\r\n", ⟨.connected 0, calm⟩], [line "PASV\r\n"]],
      ∃ s m, exec ftpdStep session es = some s ∧ s.fsm = some m ∧ m.datafs = some 0 ∧
        (handle (line "ABOR\r\n")).run s = .error .freed) ∧
    ∃ es s s', exec ftpdStep session es = some s ∧ s.fsm.map MsgState.datafs = some none ∧
      s.pcbs 0 = some ⟨some 0, .connecting, false, false, false⟩ ∧ (s.data 0).isSome = true ∧
      ftpdStep s (line "ABOR\r\n") = some s' ∧ (s'.data 0).isSome = true := by
  refine ⟨accepted_session, fun es hes => ?_, ?_⟩
  · have hrun : (exec ftpdStep session es).map (fun s => (s.fsm.map MsgState.datafs,
        stops (line "ABOR\r\n") s)) = some (some (some 0), some .freed) := by
      simp only [List.mem_cons, List.not_mem_nil, or_false] at hes
      rcases hes with rfl | rfl | rfl
      · decide +kernel
      · decide +kernel
      · decide +kernel
    obtain ⟨s, hs, hview⟩ := Option.map_eq_some_iff.mp hrun
    obtain ⟨hfsm, hstops⟩ := Prod.mk.inj hview
    obtain ⟨m, hm, hd⟩ := Option.map_eq_some_iff.mp hfsm
    exact ⟨s, m, hs, hm, hd, stops_eq_some hstops⟩
  · have hrun : Option.map (fun s => (s.fsm.map MsgState.datafs, s.pcbs 0, (s.data 0).isSome,
        (ftpdStep s (line "ABOR\r\n")).map fun s' => (s'.data 0).isSome))
        (exec ftpdStep session [line "LIST\r\n", line "LIST\r\n", ⟨.connected 1, calm⟩,
          ⟨.sent 1, calm⟩])
        = some (some none, some ⟨some 0, .connecting, false, false, false⟩, true, some true) := by
      decide +kernel
    obtain ⟨s, hs, hview⟩ := Option.map_eq_some_iff.mp hrun
    simp only [Prod.mk.injEq] at hview
    obtain ⟨hfsm, hpcb, hlive, hstep⟩ := hview
    obtain ⟨s', hs', hlive'⟩ := Option.map_eq_some_iff.mp hstep
    exact ⟨_, s, s', hs, hfsm, hpcb, hlive, hs', hlive'⟩

end Teensy41Ethernet.Ftpd
