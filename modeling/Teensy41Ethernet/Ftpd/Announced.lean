import Teensy41Ethernet.Ftpd.Replies

/-!
# Replies that end a transfer

Only packets are answered; the other callbacks say nothing but reply 226, when they end a data
session.  That this session had its transfer announced with reply 150 needs some care of the
client: in the state `RETR` every data session counts as one whose file is being sent, also one
that `PASV` has just opened.  The history of a run records which sessions were announced.
-/

namespace Teensy41Ethernet.Ftpd

open Lib Lwip

/-! ### The properties -/

/-- The command of the event is one of `LIST`, `NLST`, `RETR` and `STOR`, it is answered with
reply 150, and its transfer has the data session `d`. -/
structure Announces (d : ℕ) (s : Sys) (e : Event) (s' : Sys) : Prop where
  command : ∃ c ∈ e.command, c ∈ [.list, .nlst, .retr, .stor]
  answered : ∃ text, Answered s s' text ∧ lit "150" <+: text
  session : ∃ m, s'.fsm = some m ∧ m.datafs = some d

/-- Nothing is said, or reply 226 with the end of a data session that was announced. -/
def Completes (s₀ : Sys) (es : List Event) (s s' : Sys) : Prop :=
  replies s'.log = replies s.log ∨
    replies s'.log = replies s.log ++ [msg226] ∧
      ∃ d, Happened ftpdStep (Announces d) s₀ es ∧ s.data d ≠ none ∧ s'.data d = none

/-- The packets are answerable, `PASV` is not given while a file is being sent, and a file is
sent only when there is no data session, other than the current one for a passive
connection. -/
def Orderly (s : Sys) (e : Event) : Prop :=
  (match e.callback with
    | .msgrecv p => Answerable p e.env s
    | _ => True) ∧
  ∀ m ∈ s.fsm, (e.command = some .pasv → m.state ≠ .retr) ∧
    ∀ c ∈ e.command, c.transfer e.env = some .retr →
      ∀ d < s.nextData, (s.data d).isSome = true → m.passive = true ∧ m.datafs = some d

instance (s : Sys) (e : Event) : Decidable (Orderly s e) := by
  obtain ⟨callback, env⟩ := e
  unfold Orderly
  refine Callback.casesOn callback ?_ ?_ ?_ ?_ ?_ ?_ ?_ ?_ ?_ ?_ <;> intros <;> infer_instance

/-! ### The invariant -/

namespace View

/-- The end of the data session would be told: it holds a directory or a file, or a file is
being sent. -/
def Finishing (v : View) (d : ℕ) : Prop :=
  ∃ h, v.sessions d = some h ∧
    (h.dir ≠ none ∨ h.file ≠ none ∨ ∃ c, v.control = some c ∧ c.state = .retr)

/-- Every data session whose end would be told was announced. -/
def Told (v : View) (A : Set ℕ) : Prop := ∀ d, v.Finishing d → d ∈ A

variable {v v' : View} {A B : Set ℕ} {d : ℕ} {h : Hold}

/-- Nothing new is held, and no file is being sent unless one was before. -/
lemma Told.of_le (hv : v.Told A)
    (hsessions : ∀ d h', v'.sessions d = some h' → ∃ h, v.sessions d = some h ∧
      (h'.dir ≠ none → h.dir ≠ none) ∧ (h'.file ≠ none → h.file ≠ none))
    (hstate : ∀ c', v'.control = some c' → c'.state = .retr →
      ∃ c, v.control = some c ∧ c.state = .retr) : v'.Told A := by
  rintro d ⟨h', hh', hfin⟩
  obtain ⟨h, hh, hdir, hfile⟩ := hsessions d h' hh'
  refine hv d ⟨h, hh, ?_⟩
  rcases hfin with h | h | ⟨c', hc', hretr⟩
  · exact .inl (hdir h)
  · exact .inr (.inl (hfile h))
  · exact .inr (.inr (hstate c' hc' hretr))

/-- The control session changes, but not to the state `RETR`. -/
lemma Told.setControl (hv : v.Told A) {f : Control → Control}
    (hf : ∀ c, (f c).state = .retr → c.state = .retr) : (v.setControl f).Told A := by
  refine hv.of_le (fun d h' hh' => ⟨h', hh', id, id⟩) fun c' hc' hretr => ?_
  obtain ⟨c, hc, rfl⟩ := Option.map_eq_some_iff.mp hc'
  exact ⟨c, hc, hf c hretr⟩

/-- A data session is freed. -/
lemma Told.drop (hv : v.Told A) (d : ℕ) : (v.drop d).Told A := by
  refine hv.of_le (fun d' h' hh' => ?_) fun c hc hretr => ⟨c, hc, hretr⟩
  by_cases hd : d' = d
  · rw [hd, drop_sessions_self] at hh'
    cases hh'
  · rw [drop_sessions_of_ne hd] at hh'
    exact ⟨h', hh', id, id⟩

lemma Told.close (hv : v.Told A) (d i : ℕ) (h : Hold) : (v.close d i h).Told A :=
  (hv.setControl (f := fun c => { c with current := none }) fun _ => id).drop d

lemma Told.finish (hv : v.Told A) (d i : ℕ) (h : Hold) : (v.finish d i h).Told A :=
  (hv.close d i h).setControl fun _ hretr => (by cases hretr)

lemma Reached.told {v₁ : View} {e : Event} {pcb : Option ℕ} (hreached : v.Reached e d pcb v₁)
    (hv : v.Told A) : v₁.Told A := by
  obtain ⟨hsessions, hcontrol⟩ := hreached.same
  refine hv.of_le (fun d h hh => ⟨h, hsessions ▸ hh, id, id⟩) fun c₁ hc₁ hretr => ?_
  obtain ⟨c, hc, hstate⟩ := hcontrol c₁ hc₁
  exact ⟨c, hc, hstate ▸ hretr⟩

lemma Served.told {pcb : Option ℕ} (hmove : v.Served d pcb v') (hv : v.Told A) : v'.Told A := by
  cases hmove with
  | same => exact hv
  | @readEnd c h f hc hstate hd =>
    refine hv.of_le (fun d' h' hh' => ?_) fun c hc hretr => ⟨c, hc, hretr⟩
    by_cases hdd : d' = d
    · subst hdd
      obtain rfl := Option.some.inj (put_sessions_self.symm.trans hh')
      exact ⟨h, hd, id, fun hne => absurd rfl hne⟩
    · exact ⟨h', (put_sessions_of_ne hdd).symm.trans hh', id, id⟩
  | sentFile => exact hv.finish d _ _
  | @sentDir c h i f => exact hv.finish d i h

/-- A data session becomes one whose end is told, and no file is being sent, or all other
sessions are gone. -/
lemma Told.put (hv : v.Told A) (hAB : A ⊆ B) (hd : d ∈ B)
    (hsessions : ∀ d' h', d' ≠ d → v'.sessions d' = some h' → v.sessions d' = some h')
    (hretr : ∀ c', v'.control = some c' → c'.state = .retr →
      ∀ d' h', v'.sessions d' = some h' → d' = d) : v'.Told B := by
  rintro d' ⟨h', hh', hfin⟩
  by_cases hdd : d' = d
  · exact hdd ▸ hd
  have hh := hsessions d' h' hdd hh'
  rcases hfin with h | h | ⟨c', hc', hstate⟩
  · exact hAB (hv d' ⟨h', hh, .inl h⟩)
  · exact hAB (hv d' ⟨h', hh, .inr (.inl h)⟩)
  · exact absurd (hretr c' hc' hstate d' h' hh') hdd

/-- A transfer starts, and its session is announced. -/
lemma Transfer.told {env : Env} {st : FtpdState} (hmove : v.Transfer env st v')
    (hfresh : v.Fresh) (halone : st = .retr → ∀ c ∈ v.control, ∀ d < v.next,
      (v.sessions d).isSome = true → c.passive = true ∧ c.current = some d)
    (hAB : A ⊆ B) (hannounced : ∀ c c' d, v.control = some c →
      c.passive = true ∨ env.mallocData = true → v'.control = some c' → c'.current = some d → d ∈ B)
    (hv : v.Told A) : v'.Told B := by
  have hlive : st = .retr → ∀ c ∈ v.control, ∀ d h, v.sessions d = some h →
      c.passive = true ∧ c.current = some d := by
    intro hst c hc d h hd
    refine halone hst c hc d (FreshFrom.lt hfresh ?_) (by rw [hd, Option.isSome_some])
    rw [hd]
    exact Option.some_ne_none h
  cases hmove with
  | noMemory =>
    intro d hd
    exact hAB (hv.setControl (f := fun c => { c with current := none }) (fun _ => id) d hd)
  | @passive c d h hc hp hcurrent hd =>
    refine hv.put hAB (d := d) ?_ (fun d' h' hdd hh' => (put_sessions_of_ne hdd).symm.trans hh') ?_
    · refine hannounced c { c with state := st } d hc (.inl hp) ?_ hcurrent
      simp only [setState, setControl, put, opened, record, hc, Option.map_some]
    · intro c' hc' hstate d' h' hh'
      obtain ⟨c₁, -, rfl⟩ := Option.map_eq_some_iff.mp hc'
      by_contra hdd
      have hother := (hlive hstate c hc d' h' ((put_sessions_of_ne hdd).symm.trans hh')).2
      rw [hcurrent, Option.some.injEq] at hother
      exact hdd hother.symm
  | @active c hc hp hm =>
    refine hv.put hAB (d := v.next) ?_
      (fun d' h' hdd hh' => (alloc_sessions_of_ne hdd).symm.trans hh') ?_
    · refine hannounced c { c with state := st, current := some v.next, pcb := some v.nextPcb }
        v.next hc (.inr hm) ?_ rfl
      simp only [setState, setControl, openActive, alloc, newPcb, putPcb, put, opened, record, hc,
        Option.map_some]
    · intro c' hc' hstate d' h' hh'
      obtain ⟨c₁, -, rfl⟩ := Option.map_eq_some_iff.mp hc'
      by_contra hdd
      have hpassive := (hlive hstate c hc d' h' ((alloc_sessions_of_ne hdd).symm.trans hh')).1
      rw [hp] at hpassive
      cases hpassive

/-- `PASV` opens a session that holds nothing, while no file is being sent. -/
lemma Pasv.told {env : Env} (hmove : v.Pasv env v')
    (hretr : ∀ c, v.control = some c → c.state ≠ .retr) (hv : v.Told A) : v'.Told A := by
  have hsessions : ∀ d h', v'.sessions d = some h' →
      v.sessions d = some h' ∨ h'.dir = none ∧ h'.file = none := by
    intro d h' hh'
    -- the other sessions stay as they are, and the new one is freed again or holds nothing
    by_cases hd : d = v.next
    · subst hd
      cases hmove with
      | noMemory => exact .inl hh'
      | noPcb | noListen => cases drop_sessions_self.symm.trans hh'
      | listening =>
        obtain rfl := Option.some.inj (alloc_sessions_next.symm.trans hh')
        exact .inr ⟨rfl, rfl⟩
    · refine .inl ?_
      cases hmove with
      | noMemory => exact hh'
      | noPcb =>
        have halloc : (v.alloc .zero).sessions d = some h' :=
          (drop_sessions_of_ne hd).symm.trans hh'
        exact (alloc_sessions_of_ne hd).symm.trans halloc
      | noListen =>
        have halloc : (v.alloc (.fresh env)).sessions d = some h' :=
          (drop_sessions_of_ne hd).symm.trans hh'
        exact (alloc_sessions_of_ne hd).symm.trans halloc
      | listening => exact (alloc_sessions_of_ne hd).symm.trans hh'
  rintro d ⟨h', hh', hfin⟩
  rcases hfin with hdir | hfile | ⟨c', hc', hstate'⟩
  · rcases hsessions d h' hh' with hh | ⟨hnone, -⟩
    · exact hv d ⟨h', hh, .inl hdir⟩
    · exact absurd hnone hdir
  · rcases hsessions d h' hh' with hh | ⟨-, hnone⟩
    · exact hv d ⟨h', hh, .inr (.inl hfile)⟩
    · exact absurd hnone hfile
  · obtain ⟨c, hc, hstate⟩ := hmove.state hc'
    exact absurd (hstate.symm.trans hstate') (hretr c hc)

end View

/-- **What one callback preserves**, with the sessions that it announces. -/
lemma Sys.Move.told {s : Sys} {v' : View} {e : Event} {A B : Set ℕ} (hmove : s.Move e v')
    (hfresh : s.view.Fresh)
    (hpasv : ∀ c, s.view.control = some c → e.command = some .pasv → c.state ≠ .retr)
    (halone : ∀ c ∈ s.view.control, ∀ cmd ∈ e.command, cmd.transfer e.env = some .retr →
      ∀ d < s.view.next, (s.view.sessions d).isSome = true → c.passive = true ∧ c.current = some d)
    (hAB : A ⊆ B) (hannounced : ∀ cmd st, e.command = some cmd → cmd.transfer e.env = some st →
      ∀ c c' d, s.view.control = some c → c.passive = true ∨ e.env.mallocData = true →
        v'.control = some c' → c'.current = some d → d ∈ B)
    (hs : s.view.Told A) : v'.Told B := by
  have hmono : ∀ {v : View}, v.Told A → v.Told B := fun hv d hd => hAB (hv d hd)
  cases hmove with
  | same => exact hmono hs
  | serve hreached h => exact hmono (h.told (hreached.told hs))
  | @remoteClose i d f p h => exact hmono (hs.finish d i h)
  | unheardClose => exact hmono hs
  | unheardError => exact hmono hs
  | @dataerr i d p =>
    refine hmono (View.Told.drop ?_ d)
    exact hs.setControl (f := fun c => { c with current := none, state := .idle })
      fun _ hretr => (by cases hretr)
  | freed _ h =>
    have hgone : ∀ v : View, v.Told A → ({ v with control := none } : View).Told A :=
      fun v hv => hv.of_le (fun d h hh => ⟨h, hh, id, id⟩) fun c' hc' => (by cases hc')
    cases h with
    | alone => exact hmono (hgone _ hs)
    | @session c d i h => exact hmono (hgone _ (hs.close d i h))
  | @command cmd _ hcommand h =>
    cases h with
    | same => exact hmono hs
    | chdir => exact hmono hs
    | @setState st hst =>
      refine hmono (hs.setControl fun c hretr => ?_)
      -- none of USER, PASS, QUIT and ABOR sets the state RETR
      cases cmd with
      | user | pass | quit | abrt =>
        obtain rfl := Option.some.inj hst
        cases hretr
      | _ => cases hst
    | transfer ht h =>
      refine h.told hfresh (fun hst c hc => ?_) hAB (hannounced cmd _ hcommand ht) hs
      exact halone c hc cmd hcommand (hst ▸ ht)
    | pasv hpasv' _ h =>
      refine hmono (h.told (fun c hc => hpasv c hc ?_) hs)
      rw [hcommand, hpasv']

/-! ### Runs -/

lemma Sys.Finishing.view {s : Sys} {d : ℕ} (h : s.Finishing d) : s.view.Finishing d := by
  obtain ⟨x, hx, hfin⟩ := h
  refine ⟨x.hold, Sys.view_sessions hx, ?_⟩
  rcases hfin with hdir | hfile | ⟨m, hm, hstate⟩
  · exact .inl (by simpa [DataState.hold] using hdir)
  · exact .inr (.inl (by simpa [DataState.hold] using hfile))
  · exact .inr (.inr ⟨m.control, Sys.view_control hm, hstate⟩)

/-- A transfer that gets a data session is answered with reply 150. -/
lemma Command.reply_of_transfer {c : Command} {env : Env} {st : FtpdState}
    (hst : c.transfer env = some st) (arg : Option Str) {s : Sys}
    (hopening : s.opening env = some true) :
    c ∈ [.list, .nlst, .retr, .stor] ∧ lit "150" <+: c.reply arg env s := by
  cases c with
  | list | nlst =>
    refine ⟨by simp, ?_⟩
    simp only [Command.transfer, Option.ite_none_right_eq_some] at hst
    simp only [Command.reply, hst.1, hopening, and_self, if_true]
    decide
  | retr =>
    refine ⟨by simp, ?_⟩
    simp only [Command.transfer, Option.ite_none_right_eq_some] at hst
    simp only [Command.reply, hst.1, and_self, if_true, retrText, List.append_assoc]
    exact List.IsPrefix.trans (by decide) (List.prefix_append _ _)
  | stor =>
    refine ⟨by simp, ?_⟩
    simp only [Command.transfer, Option.ite_none_right_eq_some] at hst
    simp only [Command.reply, hst.1, if_true, storText, List.append_assoc]
    exact List.IsPrefix.trans (by decide) (List.prefix_append _ _)
  | _ => cases hst

/-- A transfer over a passive connection, or with memory for a new session, is not refused. -/
lemma opening_ne_false {s : Sys} {m : MsgState} {env : Env} (hm : s.fsm = some m)
    (h : m.passive = true ∨ env.mallocData = true) : s.opening env ≠ some false := by
  cases hp : m.passive with
  | true =>
    rw [opening_passive hm hp]
    intro hfalse
    obtain ⟨d, -, hd⟩ := Option.bind_eq_some_iff.mp hfalse
    obtain ⟨x, -, hx⟩ := Option.map_eq_some_iff.mp hd
    cases hx
  | false =>
    have hmalloc : env.mallocData = true := by simpa [hp] using h
    rw [opening_active hm hp, hmalloc]
    cases env.tcpNew with
    | _ => exact fun h => (by cases h)

lemma Command.Answers.opening {c : Command} {arg : Option Str} {env : Env} {s : Sys}
    {st : FtpdState} (h : c.Answers arg env s) (hst : c.transfer env = some st)
    (hready : s.opening env ≠ some false) : s.opening env = some true := by
  have hne : s.opening env ≠ none → s.opening env = some true := by
    intro hne
    obtain ⟨ready, hopening⟩ := Option.ne_none_iff_exists'.mp hne
    cases ready with
    | true => exact hopening
    | false => exact absurd hopening hready
  cases c with
  | list | nlst =>
    simp only [Command.transfer, Option.ite_none_right_eq_some] at hst
    exact hne (h hst.1.1 hst.1.2)
  | retr =>
    simp only [Command.transfer, Option.ite_none_right_eq_some] at hst
    exact h.2 hst.1.1 hst.1.2
  | stor =>
    simp only [Command.transfer, Option.ite_none_right_eq_some] at hst
    exact h.2 hst.1
  | _ => cases hst

/-- A transfer that starts in an answerable packet is announced. -/
lemma announces_of_transfer {s s' : Sys} {e : Event} (hs : s.front.Wf)
    (h : ftpdStep s e = some s') (hok : Orderly s e) {c : Command} {st : FtpdState}
    (hc : e.command = some c) (hst : c.transfer e.env = some st) {m m' : MsgState}
    (hm : s.fsm = some m) (hready : m.passive = true ∨ e.env.mallocData = true)
    (hm' : s'.fsm = some m') {d : ℕ} (hd : m'.datafs = some d) : Announces d s e s' := by
  have hcommand := hc
  rw [e.command_eq] at hc
  obtain ⟨⟨c, arg⟩, he, rfl⟩ := Option.map_eq_some_iff.mp hc
  obtain ⟨p, hcb, -, hp⟩ := Event.executed_eq_some he
  have hanswerable : Answerable p e.env s := by
    have hpacket := hok.1
    rwa [hcb] at hpacket
  obtain ⟨s₁, text, hs₁, hanswered⟩ := (answered_iff_answerable hs hcb).mpr hanswerable
  obtain rfl := Option.some.inj (hs₁.symm.trans h)
  obtain ⟨-, hanswers⟩ := hanswerable
  rw [hp] at hanswers
  -- the text of the reply
  obtain ⟨m₁, l, hm₁, hl, hfront⟩ := ftpdStep_executed he h
  have hfifo : s.front.fifo ≠ none := by simp [Sys.front, hm]
  have hsaid := ((answered_iff hs hfifo hfront).mp hanswered).1
  obtain rfl := List.singleton_inj.mp (((Command.answer hanswers.1).said hl).1.symm.trans hsaid)
  have hopening := hanswers.1.opening hst (opening_ne_false hm hready)
  obtain ⟨hmem, hcode⟩ := Command.reply_of_transfer hst arg hopening
  exact ⟨⟨c, hcommand, hmem⟩, ⟨_, hanswered, hcode⟩, m', hm', hd⟩

/-- The invariant of runs with a history. -/
structure Recorded (s : Sys) (A : Set ℕ) : Prop where
  port : InPortRange s.port
  fresh : s.view.Fresh
  fifo : s.front.Wf
  told : s.view.Told A

/-- **What one callback preserves**, in an orderly run. -/
lemma Recorded.step {s s' : Sys} {e : Event} {A : Set ℕ} (hs : Recorded s A) (hok : Orderly s e)
    (h : ftpdStep s e = some s') : Recorded s' (A ∪ {d | Announces d s e s'}) := by
  have hmove := ftpdStep_move hs.port h
  refine ⟨hmove.inPortRange hs.port, hmove.fresh hs.fresh, ftpdStep_frontWf hs.fifo h, ?_⟩
  refine hmove.told hs.fresh ?_ ?_ Set.subset_union_left ?_ hs.told
  · intro c hc hpasv
    obtain ⟨m, hm, rfl⟩ := Option.map_eq_some_iff.mp hc
    exact (hok.2 m hm).1 hpasv
  · intro c hc cmd hcmd hst d hd hlive
    obtain ⟨m, hm, rfl⟩ := Option.map_eq_some_iff.mp hc
    exact (hok.2 m hm).2 cmd hcmd hst d hd (by simpa [Sys.view] using hlive)
  · intro cmd st hcmd hst c c' d hc hready hc' hd
    obtain ⟨m, hm, rfl⟩ := Option.map_eq_some_iff.mp hc
    obtain ⟨m', hm', rfl⟩ := Option.map_eq_some_iff.mp hc'
    exact .inr (announces_of_transfer hs.fifo h hok hcmd hst hm hready hm' hd)

lemma Accepted.recorded {s : Sys} (h : Accepted s) : Recorded s ∅ := by
  obtain ⟨buffer, hview⟩ := h.view
  refine ⟨h.inPortRange, ?_, h.frontWf, ?_⟩
  · rw [hview]
    exact fun d _ => rfl
  · rw [hview]
    rintro d ⟨x, hx, -⟩
    cases hx

/-- The control FIFO is in order in every state that is reached. -/
lemma frontWf_of_exec {s₀ s : Sys} {es : List Event} (h₀ : Accepted s₀)
    (hrun : exec ftpdStep s₀ es = some s) : s.front.Wf :=
  exec_inv (P := fun s => s.front.Wf) (fun _ _ _ hs h => ftpdStep_frontWf hs h) h₀.frontWf hrun

/-- What a callback other than a packet says. -/
lemma Recorded.completes {s₀ s s' : Sys} {es : List Event} {e : Event}
    (hs : Recorded s {d | Happened ftpdStep (Announces d) s₀ es})
    (hcb : ∀ p, e.callback ≠ .msgrecv p) (h : ftpdStep s e = some s') :
    Completes s₀ es s s' := by
  unfold Completes
  rw [← replies_front, ← replies_front]
  cases ftpdStep_heard hcb h with
  | nothing hfront => exact .inl (by rw [hfront])
  | gone hfront => exact .inl (by rw [hfront])
  | drained hm hfront =>
    refine .inl ?_
    rw [hfront, replies_append]
    exact List.append_nil _
  | @ended d hd hgone hfront =>
    have hdata : s.data d ≠ none := by
      obtain ⟨x, hx, -⟩ := hd
      rw [hx]
      exact Option.some_ne_none x
    by_cases hfifo : s.front.fifo = none
    · refine .inl ?_
      rw [hfront, Front.act, hfifo]
    · refine .inr ⟨?_, d, hs.told d hd.view, hdata, hgone⟩
      rw [hfront, (Front.act_replies hfifo _).2]
      rfl

end Teensy41Ethernet.Ftpd
