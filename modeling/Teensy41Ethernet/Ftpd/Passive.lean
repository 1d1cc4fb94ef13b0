import Teensy41Ethernet.Ftpd.Moves

/-!
# Passive mode

`PASV` creates a data session and sets `fsm->passive`; from then on `open_dataconnection`
returns 0 at once and leaves it to its caller to find the session in `fsm->datafs`.  Nothing
clears `fsm->passive` again.  A session is there for the caller if the last `PASV` has created
one, no other transfer has used it, and no data session has ended since: whichever session
ends, `fsm->datafs` is cleared.  This file shows that these are the only states in which
`open_dataconnection` delivers what its caller needs.

What `PASV` offers is not part of the state of the daemon.  It is recorded beside it, from the
commands that are executed.
-/

namespace Teensy41Ethernet.Ftpd

open Lib

/-! ### What `PASV` offers -/

/-- The data session that the last `PASV` has created, if it has created one and no transfer has
used it since, and whether a data session has ended since then. -/
structure Offer where
  latest : Option ℕ
  ended : Bool
deriving DecidableEq

/-- Before the first `PASV`. -/
def Offer.start : Offer := ⟨none, false⟩

/-- A data session was there in `s` and is not in `s'`. -/
def Sys.ended (s s' : Sys) : Bool :=
  (List.range s.nextData).any fun d => (s.data d).isSome && (s'.data d).isNone

/-- The offer after a callback.  A transfer is a command that comes as far as calling
`open_dataconnection`. -/
def Offer.next (o : Offer) (s : Sys) (e : Event) (s' : Sys) : Offer :=
  if e.command = some .pasv then
    ⟨if (s'.data s.nextData).isSome then some s.nextData else none, false⟩
  else if (e.command.bind (Command.transfer e.env)).isSome then ⟨none, o.ended⟩
  else ⟨o.latest, o.ended || s.ended s'⟩

/-- A callback, with the record of what `PASV` offers. -/
def offerStep (x : Sys × Offer) (e : Event) : Option (Sys × Offer) :=
  (ftpdStep x.1 e).map fun s' => (s', x.2.next x.1 e s')

/-! ### What the caller finds -/

/-- The states in which a command that is executed in `s` calls `open_dataconnection`:
`cmd_list_common` has opened its directory before, `cmd_retr` and `cmd_stor` have opened their
file and sent a reply. -/
inductive CalledIn (s : Sys) : Sys → Prop
  | list {env : Env} {r : List DirEntry × ℕ} {u : Sys}
      (hdir : (vfsOpendir s.cwd env).run s = .ok (some r, u)) : CalledIn s u
  | retr {env : Env} {arg text : Str} {r : VfsFile × ℕ} {u₁ u : Sys}
      (hfile : (do note (.stat arg); vfsOpen arg env : FtpdM _).run s = .ok (some r, u₁))
      (hreply : (sendMsg env.msg₁ text).run u₁ = .ok ((), u)) : CalledIn s u
  | stor {env : Env} {arg text : Str} {r : VfsFile × ℕ} {u₁ u : Sys}
      (hfile : (vfsOpen arg env).run s = .ok (some r, u₁))
      (hreply : (sendMsg env.msg₁ text).run u₁ = .ok ((), u)) : CalledIn s u

/-- If `open_dataconnection` returns 0 in the state `s`, its caller finds a data session, and in
passive mode the one that is on offer. -/
def DeliversSession (o : Offer) (s : Sys) : Prop :=
  ∀ dr env s', (openDataconnection dr env).run s = .ok (true, s') →
    ∃ m d, s'.fsm = some m ∧ m.datafs = some d ∧ s'.data d ≠ none ∧
      (m.passive = true → o.latest = some d)

section Calls

/-- What `open_dataconnection` finds: the pointer to the current data session, the mode, and the
data sessions. -/
def Sys.offering (s : Sys) : Option (Option ℕ × Bool) × (ℕ → Option DataState) :=
  (s.fsm.map fun m => (m.datafs, m.passive), s.data)

abbrev KeepsOffering {α : Type} (m : FtpdM α) : Prop := Keeps Sys.offering (fun _ => True) m

lemma keepsOffering_sendMsg (dr : Drain) (text : Str) : KeepsOffering (sendMsg dr text) := by
  intro s
  refine wp_mono (sendMsg_spec dr text s) ?_ fun _ he => he
  rintro _ s' ⟨hdata, ⟨m, fifo, hm, hm'⟩, -⟩
  simp only [Sys.offering, hm, hm', hdata, Option.map_some]

lemma keepsOffering_vfsOpendir (path : Str) (env : Env) : KeepsOffering (vfsOpendir path env) :=
  fun _ => wp_vfsOpendir.mpr ⟨fun _ => rfl, fun _ _ => rfl⟩

lemma keepsOffering_vfsOpen (path : Str) (env : Env) : KeepsOffering (vfsOpen path env) :=
  fun _ => wp_vfsOpen.mpr ⟨fun _ => rfl, fun _ _ => rfl⟩

/-- What a command does before the call does not change what `open_dataconnection` finds. -/
lemma CalledIn.offering {s u : Sys} (h : CalledIn s u) : u.offering = s.offering := by
  cases h with
  | list hdir => exact wp_ok (keepsOffering_vfsOpendir _ _ s) hdir
  | @retr env arg _ _ _ _ hfile hreply =>
    have hkeeps : KeepsOffering (do note (.stat arg); vfsOpen arg env : FtpdM _) :=
      Keeps.bind (fun _ => rfl) fun _ => keepsOffering_vfsOpen _ _
    exact (wp_ok (keepsOffering_sendMsg _ _ _) hreply).trans (wp_ok (hkeeps s) hfile)
  | stor hfile hreply =>
    exact (wp_ok (keepsOffering_sendMsg _ _ _) hreply).trans
      (wp_ok (keepsOffering_vfsOpen _ _ s) hfile)

/-- Some command calls `open_dataconnection`. -/
lemma exists_calledIn (s : Sys) : ∃ u, CalledIn s u ∧ u.fsm = s.fsm :=
  ⟨_, @CalledIn.list s calm _ _ rfl, rfl⟩

end Calls

/-- In passive mode `open_dataconnection` does nothing. -/
lemma openDataconnection_passive {s : Sys} {m : MsgState} (hm : s.fsm = some m)
    (hp : m.passive = true) (dr : Drain) (env : Env) :
    (openDataconnection dr env).run s = .ok (true, s) := by
  simp only [openDataconnection, getMsg, bind_assoc, StateT.run_bind, StateT.run_get, pure_bind,
    hm, StateT.run_pure, hp, if_true]
  rfl

/-! ### What a callback does to an offer -/

namespace View

variable {v v₁ v' : View} {d : ℕ} {pcb : Option ℕ} {e : Event}

/-- No data session ends, and the pointer to the current one stays. -/
structure Spared (v v' : View) : Prop where
  live : ∀ d, v.sessions d ≠ none → v'.sessions d ≠ none
  current : ∀ c' ∈ v'.control, ∃ c ∈ v.control, c'.current = c.current

/-- A data session ends, and the pointer to the current one is cleared, whichever it was. -/
structure Ended (v v' : View) : Prop where
  dead : ∃ d, v.sessions d ≠ none ∧ v'.sessions d = none
  current : ∀ c' ∈ v'.control, c'.current = none

lemma spared_setControl {f : Control → Control} (hsessions : v'.sessions = v.sessions)
    (hcontrol : v'.control = v.control.map f) (hf : ∀ c, (f c).current = c.current) :
    v.Spared v' where
  live d hd := hsessions ▸ hd
  current c' hc' := by
    rw [hcontrol] at hc'
    obtain ⟨c, hc, rfl⟩ := Option.map_eq_some_iff.mp hc'
    exact ⟨c, hc, hf c⟩

lemma spared_of_eq (hsessions : v'.sessions = v.sessions) (hcontrol : v'.control = v.control) :
    v.Spared v' :=
  ⟨fun _ hd => hsessions ▸ hd, fun c' hc' => ⟨c', hcontrol ▸ hc', rfl⟩⟩

/-- The pointer to the current session is cleared. -/
lemma current_setControl {control : Option Control} {f : Control → Control}
    (hcontrol : v'.control = control.map f) (hf : ∀ c, (f c).current = none) :
    ∀ c' ∈ v'.control, c'.current = none := by
  intro c' hc'
  rw [hcontrol] at hc'
  obtain ⟨c, -, rfl⟩ := Option.map_eq_some_iff.mp hc'
  exact hf c

lemma Reached.spared (hreached : v.Reached e d pcb v₁) : v.Spared v₁ := by
  cases hreached with
  | connected => exact spared_setControl rfl rfl fun _ => rfl
  | accepted => exact spared_setControl rfl rfl fun _ => rfl
  | refused => exact spared_setControl rfl rfl fun _ => rfl
  | sent => exact spared_of_eq rfl rfl
  | poll => exact spared_of_eq rfl rfl

lemma ended_finish {h : Hold} (hd : v.sessions d = some h) (v₁ : View) (i : ℕ) (h₁ : Hold) :
    v.Ended (v₁.finish d i h₁) where
  dead := ⟨d, by rw [hd]; exact Option.some_ne_none h, drop_sessions_self⟩
  current := current_setControl rfl fun _ => rfl

lemma Served.spared_or_ended (hserved : v.Served d pcb v') : v.Spared v' ∨ v.Ended v' := by
  cases hserved with
  | same => exact Or.inl (spared_of_eq rfl rfl)
  | readEnd _ _ hd =>
    refine Or.inl ⟨fun d' hd' => ?_, fun c' hc' => ⟨c', hc', rfl⟩⟩
    by_cases heq : d' = d
    · exact heq ▸ put_sessions_self.trans_ne (Option.some_ne_none _)
    · exact (put_sessions_of_ne heq).trans_ne hd'
  | sentFile _ _ hcloses => exact Or.inr (ended_finish hcloses.session _ _ _)
  | sentDir _ _ hcloses => exact Or.inr (ended_finish hcloses.session _ _ _)

end View

/-- A callback that is neither `PASV` nor a transfer leaves the sessions, or ends one. -/
lemma Sys.Move.spared_or_ended {s : Sys} {e : Event} {v' : View} (hmove : s.Move e v')
    (hpasv : e.command ≠ some .pasv)
    (htransfer : (e.command.bind (Command.transfer e.env)).isSome = false) :
    s.view.Spared v' ∨ s.view.Ended v' := by
  cases hmove with
  | same => exact Or.inl (View.spared_of_eq rfl rfl)
  | command hc h =>
    cases h with
    | same => exact Or.inl (View.spared_of_eq rfl rfl)
    | setState => exact Or.inl (View.spared_setControl rfl rfl fun _ => rfl)
    | chdir => exact Or.inl (View.spared_of_eq rfl rfl)
    | transfer ht => simp [hc, ht] at htransfer
    | pasv hp => exact absurd (hp ▸ hc) hpasv
  | serve hreached hserved =>
    have hspared := hreached.spared
    rcases hserved.spared_or_ended with h | h
    · refine Or.inl ⟨fun d hd => h.live d (hspared.live d hd), fun c' hc' => ?_⟩
      obtain ⟨c₁, hc₁, heq₁⟩ := h.current c' hc'
      obtain ⟨c, hc, heq⟩ := hspared.current c₁ hc₁
      exact ⟨c, hc, heq₁.trans heq⟩
    · obtain ⟨d, hd, hdead⟩ := h.dead
      exact Or.inr ⟨⟨d, hreached.same.1 ▸ hd, hdead⟩, h.current⟩
  | remoteClose _ _ _ _ _ hcloses => exact Or.inr (View.ended_finish hcloses.session _ _ _)
  | unheardClose => exact Or.inl (View.spared_of_eq rfl rfl)
  | @dataerr i d p _ _ _ _ _ howned =>
    obtain ⟨h, hd, -⟩ := howned
    refine Or.inr ⟨⟨d, ?_, View.drop_sessions_self⟩, View.current_setControl rfl fun _ => rfl⟩
    rw [hd]
    exact Option.some_ne_none h
  | unheardError => exact Or.inl (View.spared_of_eq rfl rfl)
  | freed _ h =>
    cases h with
    | alone => exact Or.inl ⟨fun _ hd => hd, by rintro _ ⟨⟩⟩
    | @session c d i h _ _ hcloses =>
      refine Or.inr ⟨⟨d, ?_, View.drop_sessions_self⟩, by rintro _ ⟨⟩⟩
      rw [hcloses.session]
      exact Option.some_ne_none h

/-- `PASV` makes the session that it has created the current one. -/
lemma View.Pasv.current {v v' : View} {env : Env} (h : v.Pasv env v') (hv : v.Fresh)
    (hlive : v'.sessions v.next ≠ none) : ∀ c' ∈ v'.control, c'.current = some v.next := by
  cases h with
  | noMemory => exact absurd (hv v.next le_rfl) hlive
  | noPcb => exact absurd View.drop_sessions_self hlive
  | noListen => exact absurd View.drop_sessions_self hlive
  | listening =>
    intro c' hc'
    simp only [View.setControl, View.newPcb, View.putPcb, View.dropPcb, View.pasvBound,
      View.setPort, View.alloc, View.put, View.record, Option.map_map] at hc'
    obtain ⟨c, -, rfl⟩ := Option.map_eq_some_iff.mp hc'
    rfl

/-! ### Runs -/

/-- What is on offer is the current data session; and once a session has ended, there is no
current one. -/
structure View.Offers (v : View) (o : Offer) : Prop where
  stands : ∀ d, o.latest = some d → o.ended = false →
    v.sessions d ≠ none ∧ ∀ c ∈ v.control, c.current = some d
  lapsed : o.latest ≠ none → o.ended = true → ∀ c ∈ v.control, c.current = none

lemma Sys.isSome_data (s : Sys) (d : ℕ) : (s.data d).isSome = true ↔ s.view.sessions d ≠ none := by
  rw [Option.isSome_iff_ne_none, Sys.view, ne_eq, ne_eq, Option.map_eq_none_iff]

lemma Sys.ended_iff {s : Sys} (hs : s.view.Fresh) (s' : Sys) :
    s.ended s' = true ↔ ∃ d, s.view.sessions d ≠ none ∧ s'.view.sessions d = none := by
  simp only [Sys.ended, List.any_eq_true, List.mem_range, Bool.and_eq_true, Sys.isSome_data,
    ← Option.not_isSome, Bool.not_eq_true', ← Bool.not_eq_true, not_ne_iff]
  exact ⟨fun ⟨d, _, hd⟩ => ⟨d, hd⟩, fun ⟨d, hd⟩ => ⟨d, hs.lt hd.1, hd⟩⟩

lemma offers_next {s s' : Sys} {e : Event} {o : Offer} (hport : InPortRange s.port)
    (hs : s.view.Fresh) (ho : s.view.Offers o) (h : ftpdStep s e = some s') :
    s'.view.Offers (o.next s e s') := by
  unfold Offer.next
  by_cases hpasv : e.command = some .pasv
  · rw [if_pos hpasv]
    have hview : s.view.Pasv e.env s'.view := by
      refine ftpdStep_command (Q := fun s' => s.view.Pasv e.env s'.view) hpasv (fun arg => ?_) h
      exact wp_mono (cmdPasv_view arg e.env hport) (fun _ _ h' => h'.2) fun _ _ => trivial
    refine ⟨fun d hd _ => ?_, by rintro - ⟨⟩⟩
    obtain ⟨hlive, heq⟩ := Option.ite_none_right_eq_some.mp hd
    obtain rfl := Option.some.inj heq
    rw [Sys.isSome_data] at hlive
    exact ⟨hlive, hview.current hs hlive⟩
  rw [if_neg hpasv]
  by_cases htransfer : (e.command.bind (Command.transfer e.env)).isSome = true
  · rw [if_pos htransfer]
    exact ⟨by rintro _ ⟨⟩, fun h => absurd rfl h⟩
  rw [if_neg htransfer]
  rcases (ftpdStep_move hport h).spared_or_ended hpasv (Bool.eq_false_iff.mpr htransfer)
    with hspared | hended
  · have hnot : s.ended s' = false := by
      rw [← Bool.not_eq_true, Sys.ended_iff hs]
      rintro ⟨d, hd, hdead⟩
      exact hspared.live d hd hdead
    rw [hnot, Bool.or_false]
    refine ⟨fun d hd hfalse => ?_, fun hsome htrue c' hc' => ?_⟩
    · obtain ⟨hlive, hcurrent⟩ := ho.stands d hd hfalse
      refine ⟨hspared.live d hlive, fun c' hc' => ?_⟩
      obtain ⟨c, hc, heq⟩ := hspared.current c' hc'
      exact heq.trans (hcurrent c hc)
    · obtain ⟨c, hc, heq⟩ := hspared.current c' hc'
      exact heq.trans (ho.lapsed hsome htrue c hc)
  · rw [(Sys.ended_iff hs s').mpr hended.dead, Bool.or_true]
    exact ⟨by rintro _ - ⟨⟩, fun _ _ => hended.current⟩

/-- The current data session is the one on offer, in every state that is reached. -/
lemma offers_of_exec {s₀ s : Sys} {o : Offer} {es : List Event} (h₀ : Accepted s₀)
    (hrun : exec offerStep (s₀, .start) es = some (s, o)) : s.view.Offers o := by
  have hinv : InPortRange s.port ∧ s.view.Fresh ∧ s.view.Offers o := by
    refine exec_inv (P := fun x => InPortRange x.1.port ∧ x.1.view.Fresh ∧ x.1.view.Offers x.2)
      ?_ ?_ hrun
    · rintro ⟨s, o⟩ e ⟨s', o'⟩ ⟨hport, hfresh, ho⟩ hstep
      obtain ⟨s₁, hs₁, heq⟩ := Option.map_eq_some_iff.mp hstep
      obtain ⟨rfl, rfl⟩ := Prod.mk.inj heq
      have hmove := ftpdStep_move hport hs₁
      exact ⟨hmove.inPortRange hport, hmove.fresh hfresh, offers_next hport hfresh ho hs₁⟩
    · refine ⟨h₀.inPortRange, ?_, by rintro _ ⟨⟩, fun h => absurd rfl h⟩
      obtain ⟨buffer, hview⟩ := h₀.view
      rw [hview]
      exact fun _ _ => rfl
  exact hinv.2.2

/-- In active mode `open_dataconnection` allocates the session that its caller finds. -/
lemma openDataconnection_active {s s' : Sys} {m : MsgState} {dr : Drain} {env : Env}
    (hm : s.fsm = some m) (hp : m.passive = false)
    (h : (openDataconnection dr env).run s = .ok (true, s')) :
    ∃ m', s'.fsm = some m' ∧ m'.datafs = some s.nextData ∧ m'.passive = false ∧
      s'.data s.nextData ≠ none := by
  have hc := Sys.view_control hm
  have hopened := wp_ok (openDataconnection_view dr env s) h
  generalize hv : s'.view = v at hopened
  cases hopened with
  | passive hc' hp' =>
    obtain rfl := Option.some.inj (hc.symm.trans hc')
    exact absurd (hp.symm.trans hp') Bool.false_ne_true
  | active _ _ _ _ =>
    have hcontrol : s'.fsm.map MsgState.control = some { m.control with
        current := some s.nextData, pcb := some s.nextPcb } := by
      rw [show s'.fsm.map MsgState.control = _ from congrArg View.control hv]
      simp only [View.openActive, View.setControl, View.newPcb, View.putPcb, View.alloc, View.put,
        View.record, hc, Option.map_some]
      rfl
    obtain ⟨m', hm', heq⟩ := Option.map_eq_some_iff.mp hcontrol
    refine ⟨m', hm', congrArg Control.current heq, (congrArg Control.passive heq).trans hp, ?_⟩
    rw [← Option.isSome_iff_ne_none, Sys.isSome_data, hv]
    exact (View.alloc_sessions_next (v := s.view)).trans_ne (Option.some_ne_none _)

end Teensy41Ethernet.Ftpd
