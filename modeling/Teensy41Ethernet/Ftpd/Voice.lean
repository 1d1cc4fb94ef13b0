import Teensy41Ethernet.Ftpd.Deeds
import Teensy41Ethernet.Ftpd.Moves

/-!
# What the other callbacks say

A packet on the control connection is answered by the command it holds; its replies are in
`Ftpd/Deeds`.  The other callbacks, for the data connections and for the timer, the
acknowledgements and the end of the control connection, say one thing only: reply 226, when
they end a transfer.  `ftpdStep_heard` is the list of what they do on the control connection.
-/

namespace Teensy41Ethernet.Ftpd

open Lib Lwip

/-! ### Functions that say nothing -/

/-- A program that does nothing on the control connection, asks for nothing and leaves the
working directory as it is. -/
abbrev Silent {α : Type} (m : FtpdM α) : Prop := Keeps Sys.front (fun _ => True) m

lemma silent_setMsg {f : MsgState → MsgState} (hf : ∀ m, (f m).fifo = m.fifo) :
    Silent (setMsg f) := fun _ =>
  wp_setMsg.mpr ⟨fun m hm => Sys.front_setMsg hm (hf m), fun _ => trivial⟩

lemma silent_setData (d : ℕ) (f : DataState → DataState) : Silent (setData d f) := fun _ =>
  wp_setData.mpr ⟨fun _ _ => rfl, fun _ => trivial⟩

lemma silent_setPcb (pcb : Option ℕ) (f : Pcb → Pcb) : Silent (setPcb pcb f) := fun _ =>
  wp_setPcb.mpr ⟨fun _ => rfl, fun _ _ _ _ => rfl, fun _ _ _ => trivial⟩

lemma silent_checkPcb (pcb : Option ℕ) : Silent (checkPcb pcb) := fun _ =>
  wp_checkPcb.mpr ⟨fun _ _ _ _ => rfl, fun _ => trivial, fun _ _ _ => trivial⟩

lemma silent_checkMsgfs (d : ℕ) : Silent (checkMsgfs d) := fun _ =>
  wp_checkMsgfs.mpr ⟨fun _ _ => ⟨fun _ => rfl, fun _ => trivial⟩, fun _ => trivial⟩

lemma silent_getData (d : ℕ) : Silent (getData d) := fun _ =>
  wp_getData.mpr ⟨fun _ _ => rfl, fun _ => trivial⟩

lemma silent_freeData (d : ℕ) : Silent (freeData d) := fun _ =>
  wp_freeData.mpr ⟨fun _ _ => rfl, fun _ => trivial⟩

lemma silent_closeFifo (d : ℕ) : Silent (closeFifo d) := fun _ =>
  wp_closeFifo.mpr ⟨fun _ _ => rfl, fun _ => trivial⟩

lemma silent_closeFile (d : ℕ) : Silent (closeFile d) := fun _ =>
  wp_closeFile.mpr ⟨fun _ _ => rfl, fun _ => trivial⟩

lemma silent_closeDir (d : ℕ) : Silent (closeDir d) := fun _ =>
  wp_closeDir.mpr ⟨fun _ _ => rfl, fun _ => trivial⟩

/-- What happens on a data connection does not show on the control connection. -/
lemma front_log_append (s : Sys) {a : Action} (ha : a.onControl = false) :
    ({ s with log := s.log ++ [a] } : Sys).front = s.front := by
  refine Front.ext rfl ?_ rfl rfl
  show (s.log ++ [a]).filter Action.onControl = s.log.filter Action.onControl
  rw [List.filter_append, List.filter_cons_of_neg (by rw [ha]; exact Bool.false_ne_true),
    List.filter_nil, List.append_nil]

lemma silent_tcpClose (pcb : Option ℕ) : Silent (tcpClose pcb) := by
  intro s
  refine wp_tcpClose.mpr ⟨fun i _ p _ => ?_, fun _ => trivial, fun _ _ _ => trivial⟩
  exact front_log_append s rfl

lemma silent_sendDataTo (pcb : Option ℕ) (d : ℕ) (dr : Drain) : Silent (sendDataTo pcb d dr) := by
  refine (silent_getData d).bind fun x => keeps_ite ?_ (keeps_pure _)
  refine (silent_checkPcb pcb).bind fun i => (silent_setData d _).bind fun _ => ?_
  exact fun s => front_log_append s rfl

lemma silent_ftpdDataclose (pcb : Option ℕ) (d : ℕ) : Silent (ftpdDataclose pcb d) := by
  refine (silent_setPcb pcb _).bind fun _ => (silent_checkMsgfs d).bind fun _ => ?_
  refine (silent_setMsg fun _ => by rfl).bind fun _ => (silent_closeFifo d).bind fun _ => ?_
  exact (silent_freeData d).bind fun _ => silent_tcpClose pcb

lemma silent_ftpdDataerr (arg : Option ℕ) : Silent (ftpdDataerr arg) := by
  cases arg with
  | none => exact keeps_pure _
  | some d =>
    refine (silent_checkMsgfs d).bind fun _ => (silent_setMsg fun _ => by rfl).bind fun _ => ?_
    exact silent_freeData d

lemma silent_recvLoop (d : ℕ) (p : Chain) : ∀ ks, Silent (recvLoop d p ks) := by
  induction p with
  | nil => exact fun _ => keeps_pure _
  | cons seg p ih =>
    intro ks
    refine (silent_getData d).bind fun x => ?_
    cases x.vfsFile with
    | none => exact keeps_throw trivial
    | some file =>
      exact (silent_setData d _).bind fun _ => keeps_ite (ih ks.tail) (keeps_pure _)

/-! ### The end of a transfer -/

/-- Nothing is said, or reply 226 with the end of the data session `d`. -/
def Front.Ended (v : Front) (env : Env) (d : ℕ) (s' : Sys) : Prop :=
  s'.front = v ∨ s'.front = v.act (.say env.msg₁ msg226) ∧ s'.data d = none

/-- A silent program. -/
lemma Silent.ended {m : FtpdM Unit} (hm : Silent m) {v : Front} {s : Sys} (hs : s.front = v)
    (env : Env) (d : ℕ) : wp m (fun _ s' => v.Ended env d s') (fun _ => True) s := by
  refine wp_mono (hm s) (fun _ s' h' => ?_) fun _ _ => trivial
  exact .inl (h'.trans hs)

lemma endTransfer_front (d : ℕ) (pcb : Option ℕ) (env : Env) {v : Front} {s : Sys}
    (hs : s.front = v) :
    wp (endTransfer d pcb env) (fun _ s' => v.Ended env d s') (fun _ => True) s := by
  have hclose : wp (ftpdDataclose pcb d) (fun _ s' => s'.front = s.front ∧ s'.data d = none)
      (fun _ => True) s := by
    refine wp_mono (wp_and (silent_ftpdDataclose pcb d s) (ftpdDataclose_spec pcb d s)) ?_
      fun _ _ => trivial
    rintro _ s' ⟨h', hdata, -⟩
    exact ⟨h', by rw [hdata, Function.update_self]⟩
  unfold endTransfer
  refine wp_seq hclose ?_
  rintro _ s₁ ⟨h₁, hgone⟩
  rw [wp_bind, wp_setMsg]
  refine ⟨fun m hm => ?_, fun _ => trivial⟩
  refine wp_mono (sendMsg_does rfl env.msg₁ msg226) ?_ fun _ _ => trivial
  rintro _ s' ⟨-, hs', fifo, log, rfl⟩
  refine .inr ⟨hs'.trans ?_, hgone⟩
  rw [← hs, ← h₁]
  exact congrArg (fun w : Front => w.act (.say env.msg₁ msg226)) (Sys.front_setMsg hm rfl)

lemma sendFile_front (d : ℕ) (pcb : Option ℕ) (env : Env) (s : Sys) :
    wp (sendFile d pcb env) (fun _ s' => s.front.Ended env d s' ∧ s.data d ≠ none)
      (fun _ => True) s := by
  unfold sendFile
  rw [wp_bind, wp_getData]
  refine ⟨fun x hx => ?_, fun _ => trivial⟩
  have hd : s.data d ≠ none := by
    rw [hx]
    exact Option.some_ne_none x
  refine wp_mono (Q := fun _ s' => s.front.Ended env d s') ?_ (fun _ _ h => ⟨h, hd⟩)
    fun _ he => he
  rw [wp_ite]
  refine ⟨fun _ => .inl rfl, fun _ => ?_⟩
  cases x.vfsFile with
  | none =>
    dsimp only
    rw [wp_ite]
    exact ⟨fun _ => (silent_sendDataTo pcb d _).ended rfl env d,
      fun _ => endTransfer_front d pcb env rfl⟩
  | some file =>
    have hsilent : Silent (if sfifoSpace x.fifo = 0 then sendDataTo pcb d env.data
        else
          let len := if sfifoSpace x.fifo > 2048 then 2048 else sfifoSpace x.fifo
          let r := vfsRead file len.toNat env.read
          if r.1 = [] then
            if vfsEof r.2 then closeFile d
            else setData d fun x => { x with vfsFile := some r.2 }
          else do
            setData d fun x => { x with vfsFile := some r.2, fifo := (sfifoWrite x.fifo r.1).2 }
            sendDataTo pcb d env.data) := by
      refine keeps_ite (silent_sendDataTo pcb d _) (keeps_ite ?_ ?_)
      · exact keeps_ite (silent_closeFile d) (silent_setData d _)
      · exact (silent_setData d _).bind fun _ => silent_sendDataTo pcb d _
    exact hsilent.ended rfl env d

/-- What can be seen, and whether the data session `d` holds a directory. -/
def Sys.frontDir (d : ℕ) (s : Sys) : Front × Bool :=
  (s.front, ((s.data d).bind DataState.vfsDir).isSome)

/-- A change of the session that does not take its directory away. -/
lemma keeps_frontDir_setData (d : ℕ) {x : DataState} {f : DataState → DataState} {s : Sys}
    (hx : s.data d = some x) (hf : (f x).vfsDir.isSome = x.vfsDir.isSome) :
    wp (setData d f) (fun _ s' => s'.frontDir d = s.frontDir d) (fun _ => True) s := by
  refine wp_setData.mpr ⟨fun y hy => ?_, fun _ => trivial⟩
  obtain rfl := Option.some.inj (hx.symm.trans hy)
  refine Prod.ext rfl ?_
  simp only [Sys.frontDir, Function.update_self, hx, Option.bind_some]
  exact hf

lemma keeps_frontDir_nextDirent (d : ℕ) :
    Keeps (Sys.frontDir d) (fun _ => True) (nextDirent d) := by
  intro s
  unfold nextDirent
  rw [wp_bind, wp_getData]
  refine ⟨fun x hx => ?_, fun _ => trivial⟩
  cases x.vfsDirent with
  | some ent => exact rfl
  | none =>
    cases hdir : x.vfsDir with
    | none => exact trivial
    | some es => exact wp_seq (keeps_frontDir_setData d hx (by rw [hdir]; rfl)) fun _ _ h => h

/-- The loop over a directory: nothing is said before the last round, for which the session
must hold a directory. -/
lemma sendDirLoop_front (d : ℕ) (pcb : Option ℕ) (env : Env) (fuel : ℕ) :
    ∀ (v : Front) (b : Bool) (s : Sys), s.frontDir d = (v, b) →
      wp (sendDirLoop d pcb env fuel) (fun _ s' => s'.front = v ∨ b = true ∧ v.Ended env d s')
        (fun _ => True) s := by
  induction fuel with
  | zero => exact fun _ _ _ _ => trivial
  | succ fuel ih =>
    intro v b s hs
    have hsend : ∀ s₁ : Sys, s₁.frontDir d = (v, b) → wp (sendDataTo pcb d env.data)
        (fun _ s' => s'.front = v ∨ b = true ∧ v.Ended env d s') (fun _ => True) s₁ := by
      intro s₁ h₁
      refine wp_mono (silent_sendDataTo pcb d env.data s₁) (fun _ s' h' => ?_) fun _ _ => trivial
      exact .inl (h'.trans (congrArg Prod.fst h₁))
    rw [sendDirLoop]
    refine (keeps_frontDir_nextDirent d).wp_seq fun ent s₁ h₁ => ?_
    cases ent with
    | some e =>
      dsimp only
      rw [wp_ite]
      refine ⟨fun _ => trivial, fun _ => ?_⟩
      rw [wp_bind, wp_getData]
      refine ⟨fun x hx => ?_, fun _ => trivial⟩
      rw [wp_ite]
      refine ⟨fun _ => hsend s₁ (h₁.trans hs), fun _ => ?_⟩
      refine wp_seq (keeps_frontDir_setData d hx rfl) fun _ s₃ h₃ => ?_
      exact ih v b s₃ (h₃.trans (h₁.trans hs))
    | none =>
      dsimp only
      rw [wp_bind, wp_getData]
      refine ⟨fun x hx => ?_, fun _ => trivial⟩
      rw [wp_ite]
      refine ⟨fun _ => hsend s₁ (h₁.trans hs), fun _ => ?_⟩
      cases hdir : x.vfsDir with
      | none => exact trivial
      | some es =>
        have hb : b = true := by
          have hsnd := congrArg Prod.snd (h₁.trans hs)
          rw [Sys.frontDir, hx, Option.bind_some, hdir] at hsnd
          exact hsnd.symm
        refine (silent_closeDir d).wp_seq fun _ s₃ h₃ => ?_
        refine wp_mono (endTransfer_front d pcb env (h₃.trans (congrArg Prod.fst (h₁.trans hs))))
          (fun _ _ h => .inr ⟨hb, h⟩) fun _ he => he

/-- The end of the data session `d` is told to the client: the session holds a directory or a
file, or a file is being sent. -/
def Sys.Finishing (s : Sys) (d : ℕ) : Prop :=
  ∃ x, s.data d = some x ∧
    (x.vfsDir ≠ none ∨ x.vfsFile ≠ none ∨ ∃ m, s.fsm = some m ∧ m.state = .retr)

/-- What serving a data connection does on the control connection. -/
lemma serve_front (d : ℕ) (pcb : Option ℕ) (env : Env) (s : Sys) :
    wp (serve d pcb env) (fun _ s' => s'.front = s.front ∨ s.Finishing d ∧ s.front.Ended env d s')
      (fun _ => True) s := by
  unfold serve
  rw [wp_bind, wp_getMsg]
  refine ⟨fun m hm => ?_, fun _ => trivial⟩
  have hlist : ∀ shortlist, wp (sendNextDirectory d pcb shortlist env)
      (fun _ s' => s'.front = s.front ∨ s.Finishing d ∧ s.front.Ended env d s')
      (fun _ => True) s := by
    intro shortlist
    unfold sendNextDirectory
    rw [wp_bind, wp_getData]
    refine ⟨fun x hx => ?_, fun _ => trivial⟩
    refine wp_seq (keeps_frontDir_setData d hx rfl) fun _ s₁ h₁ => ?_
    refine wp_mono (sendDirLoop_front d pcb env _ s.front _ s₁ h₁) ?_ fun _ _ => trivial
    rintro _ s' (h' | ⟨hdir, h'⟩)
    · exact .inl h'
    · rw [hx, Option.bind_some] at hdir
      exact .inr ⟨⟨x, hx, .inl (Option.isSome_iff_ne_none.mp hdir)⟩, h'⟩
  cases hstate : m.state with
  | list => exact hlist false
  | nlst => exact hlist true
  | retr =>
    refine wp_mono (sendFile_front d pcb env s) ?_ fun _ _ => trivial
    rintro _ s' ⟨h', hd⟩
    obtain ⟨x, hx⟩ := Option.ne_none_iff_exists'.mp hd
    exact .inr ⟨⟨x, hx, .inr (.inr ⟨m, hm, hstate⟩)⟩, h'⟩
  | _ => exact .inl rfl

/-! ### Callbacks -/

/-- What a callback other than a packet does on the control connection: nothing; reply 226 at
the end of a data session; bytes go from the FIFO to TCP; or the control session is freed. -/
inductive Sys.Heard (s : Sys) (e : Event) (s' : Sys) : Prop
  | nothing (h : s'.front = s.front) : Heard s e s'
  | ended {d : ℕ} (hd : s.Finishing d) (hgone : s'.data d = none)
      (h : s'.front = s.front.act (.say e.env.msg₁ msg226)) : Heard s e s'
  | drained {m : MsgState} (hm : s.fsm = some m)
      (h : s'.front = { s.front with
        fifo := some (sendMsgdata m.fifo e.env.msg₁).2
        log := s.front.log ++ [.control (sendMsgdata m.fifo e.env.msg₁).1.flatten] }) : Heard s e s'
  | gone (h : s'.front = { s.front with fifo := none }) : Heard s e s'

section Callbacks

variable {s : Sys} {e : Event}

lemma heard_of_ended {d : ℕ} (hd : s.Finishing d) {s' : Sys} (h : s.front.Ended e.env d s') :
    s.Heard e s' := by
  rcases h with h | ⟨h, hgone⟩
  · exact .nothing h
  · exact .ended hd hgone h

/-- The state in which a data connection is served looks like the one before the callback. -/
lemma serve_heard {s₁ : Sys} {d : ℕ} (hfront : s₁.front = s.front)
    (hfinishing : s₁.Finishing d → s.Finishing d) (pcb : Option ℕ) :
    wp (serve d pcb e.env) (fun _ s' => s.Heard e s') (fun _ => True) s₁ := by
  refine wp_mono (serve_front d pcb e.env s₁) ?_ fun _ _ => trivial
  rintro _ s' (h' | ⟨hd, h'⟩)
  · exact .nothing (h'.trans hfront)
  · rw [hfront] at h'
    exact heard_of_ended (hfinishing hd) h'

lemma dataOpened_heard {s₁ : Sys} (hfront : s₁.front = s.front) (hfsm : s₁.fsm = s.fsm)
    (hdata : s₁.data = s.data) (arg pcb : Option ℕ) :
    wp (dataOpened arg pcb e.env) (fun _ s' => s.Heard e s') (fun _ => True) s₁ := by
  unfold dataOpened
  rw [wp_bind, wp_checkArg]
  refine ⟨fun d _ => ?_, fun _ => trivial⟩
  rw [wp_bind, wp_checkMsgfs]
  refine ⟨fun x hx => ⟨fun _ => ?_, fun _ => trivial⟩, fun _ => trivial⟩
  rw [wp_bind, wp_setMsg]
  refine ⟨fun m hm => ?_, fun _ => trivial⟩
  rw [wp_bind, wp_setData]
  refine ⟨fun y hy => ?_, fun _ => trivial⟩
  -- only the connection of the session changes
  have hfinishing : ∀ s₂ : Sys, s₂.fsm = some { m with datapcb := pcb } →
      s₂.data d = some { y with connected := true } → s₂.Finishing d → s.Finishing d := by
    rintro s₂ hfsm₂ hy₂ ⟨z, hz, hfin⟩
    obtain rfl := Option.some.inj (hy₂.symm.trans hz)
    refine ⟨y, hdata ▸ hy, ?_⟩
    rcases hfin with hdir | hfile | ⟨m₂, hm₂, hstate⟩
    · exact .inl hdir
    · exact .inr (.inl hfile)
    · obtain rfl := Option.some.inj (hfsm₂.symm.trans hm₂)
      exact .inr (.inr ⟨m, hfsm ▸ hm, hstate⟩)
  have hfront₂ : ({ s₁ with fsm := some { m with datapcb := pcb } } : Sys).front = s.front :=
    (Sys.front_setMsg hm rfl).trans hfront
  rw [wp_bind, wp_setPcb]
  refine ⟨fun _ => ?_, fun i _ p _ => ?_, fun _ _ _ => trivial⟩
  · refine serve_heard ?_ (hfinishing _ rfl (Function.update_self ..)) pcb
    exact hfront₂
  · refine serve_heard ?_ (hfinishing _ rfl (Function.update_self ..)) pcb
    exact hfront₂

lemma datasent_heard (arg : Option ℕ) (i : ℕ) :
    wp (ftpdDatasent arg i e.env) (fun _ s' => s.Heard e s') (fun _ => True) s := by
  unfold ftpdDatasent
  rw [wp_bind, wp_checkArg]
  refine ⟨fun d _ => ?_, fun _ => trivial⟩
  rw [wp_bind, wp_checkMsgfs]
  exact ⟨fun x hx => ⟨fun _ => serve_heard rfl id _, fun _ => trivial⟩, fun _ => trivial⟩

lemma msgpoll_heard :
    wp (ftpdMsgpoll e.env) (fun _ s' => s.Heard e s') (fun _ => True) s := by
  unfold ftpdMsgpoll
  rw [wp_bind, wp_getMsg]
  refine ⟨fun m _ => ?_, fun _ => trivial⟩
  cases m.datafs with
  | none => exact .nothing rfl
  | some d =>
    dsimp only
    rw [wp_bind, wp_getData]
    refine ⟨fun x _ => ?_, fun _ => trivial⟩
    rw [wp_ite]
    exact ⟨fun _ => serve_heard rfl id _, fun _ => .nothing rfl⟩

lemma freeMsg_heard : wp freeMsg (fun _ s' => s.Heard e s') (fun _ => True) s := by
  unfold freeMsg
  rw [wp_bind, wp_getMsg]
  refine ⟨fun m _ => ?_, fun _ => trivial⟩
  have hgone : ∀ s₁ : Sys, s₁.front = s.front →
      ∀ account, s.Heard e { s₁ with fsm := none, account := account } := by
    intro s₁ h₁ account
    refine .gone ?_
    rw [← h₁]
    rfl
  cases m.datafs with
  | none => exact hgone s rfl _
  | some d => exact (silent_ftpdDataclose m.datapcb d).wp_seq fun _ s₁ h₁ => hgone s₁ h₁ _

lemma msgsent_heard :
    wp (ftpdMsgsent e.env) (fun _ s' => s.Heard e s') (fun _ => True) s := by
  unfold ftpdMsgsent
  rw [wp_bind, wp_getMsg]
  refine ⟨fun m hm => ?_, fun _ => trivial⟩
  rw [wp_ite]
  refine ⟨fun _ => freeMsg_heard, fun _ => ?_⟩
  rw [wp_ite]
  refine ⟨fun _ => ?_, fun _ => .nothing rfl⟩
  rw [wp_bind, wp_setMsg_of hm]
  rw [wp_emit]
  exact .drained hm (Front.ext rfl (List.filter_append _ _) rfl rfl)

lemma datarecv_heard (arg : Option ℕ) (i : ℕ) (q : Option Chain) :
    wp (ftpdDatarecv arg i q e.env) (fun _ s' => s.Heard e s') (fun _ => True) s := by
  unfold ftpdDatarecv
  rw [wp_bind, wp_checkArg]
  refine ⟨fun d _ => ?_, fun _ => trivial⟩
  cases q with
  | some p =>
    exact wp_mono (silent_recvLoop d p e.env.write s) (fun _ _ h' => .nothing h') fun _ _ => trivial
  | none =>
    dsimp only
    rw [wp_bind, wp_getData]
    refine ⟨fun x hx => ?_, fun _ => trivial⟩
    cases hfile : x.vfsFile with
    | none => exact trivial
    | some file =>
      have hfin : s.Finishing d :=
        ⟨x, hx, .inr (.inl (by rw [hfile]; exact Option.some_ne_none file))⟩
      refine (silent_closeFile d).wp_seq fun _ s₁ h₁ => ?_
      refine wp_mono (endTransfer_front d (some i) e.env h₁) (fun _ s' h' => ?_) fun _ _ => trivial
      exact heard_of_ended hfin h'

/-- **What the callbacks other than packets do on the control connection.** -/
theorem ftpdStep_heard {s' : Sys} (hcb : ∀ p, e.callback ≠ .msgrecv p)
    (h : ftpdStep s e = some s') : s.Heard e s' := by
  refine wp_ftpdStep (Q := fun s' => s.Heard e s') (E := fun _ => True) ?_ h
  unfold handle
  cases he : e.callback with
  | msgrecv p => exact absurd he (hcb p)
  | msgclosed => exact wp_onControl freeMsg_heard trivial
  | msgsent => exact wp_onControl msgsent_heard trivial
  | msgpoll => exact wp_onControl msgpoll_heard trivial
  | msgerr => exact wp_onControl freeMsg_heard trivial
  | connected i =>
    rw [wp_bind]
    refine wp_pcbOf (fun p hp _ => ?_) trivial
    rw [wp_bind, wp_setPcb]
    refine ⟨fun h => (by cases h), fun j _ _ _ => ?_, fun _ _ _ => trivial⟩
    exact dataOpened_heard (by rfl) (by rfl) (by rfl) p.arg (some i)
  | accept l memory =>
    rw [wp_bind]
    refine wp_pcbOf (fun p hp _ => ?_) trivial
    rw [wp_ite]
    refine ⟨fun _ => ?_, fun _ => dataOpened_heard rfl rfl rfl p.arg none⟩
    rw [newPcb, wp_bind, wp_bind, wp_get, wp_bind, wp_modify]
    exact dataOpened_heard (by rfl) (by rfl) (by rfl) p.arg (some s.nextPcb)
  | sent i =>
    rw [wp_bind]
    refine wp_pcbOf (fun p hp _ => ?_) trivial
    rw [wp_ite]
    exact ⟨fun _ => datasent_heard _ _, fun _ => .nothing rfl⟩
  | recv i q =>
    rw [wp_bind]
    refine wp_pcbOf (fun p hp _ => ?_) trivial
    rw [wp_ite]
    refine ⟨fun _ => datarecv_heard _ _ _, fun _ => ?_⟩
    rw [wp_ite]
    exact ⟨fun _ => .nothing rfl, fun _ => .nothing rfl⟩
  | dataerr i =>
    rw [wp_bind]
    refine wp_pcbOf (fun p hp _ => ?_) trivial
    rw [wp_bind, wp_modify, wp_ite]
    refine ⟨fun _ => ?_, fun _ => .nothing rfl⟩
    exact wp_mono (silent_ftpdDataerr p.arg _) (fun _ s' h' => .nothing h') fun _ _ => trivial

end Callbacks

end Teensy41Ethernet.Ftpd
