import Teensy41Ethernet.Lib.Table
import Teensy41Ethernet.Ftpd.Handlers

/-!
# What a callback does to the sessions

`Sys.Move` says what one callback of TCP can do to the sessions: a command is executed; a data
connection is opened, acknowledged or polled, and serving its session reads the file to the end
or finishes the session; the end of a connection or an error frees sessions and control blocks.
The main result, `handle_move`, is that every callback is such a move, that a missing directory
or file is used only where a session is served or receives that does not hold it, and that
every loop ends.  Invariants of the daemon are then proved by cases on the moves, with
`view_inv_of_move`.
-/

namespace Teensy41Ethernet.Ftpd

open Lib Lwip

/-! ### The moves -/

/-- The `switch` on the state is entered for the data session `d`. -/
def Serves (s : Sys) (e : Event) (d : ℕ) : Prop :=
  match e.callback with
  | .connected i =>
    s.view.Owned d ∧ ∃ p, s.pcbs i = some p ∧ p.state = .connecting ∧ p.arg = some d
  | .accept i _ =>
    s.view.Owned d ∧ ∃ p, s.pcbs i = some p ∧ p.state = .listening ∧ p.arg = some d
  | .sent i =>
    s.view.Owned d ∧
      ∃ p, s.pcbs i = some p ∧ p.state = .established ∧ p.sent = true ∧ p.arg = some d
  | .msgpoll => ∃ m x, s.fsm = some m ∧ m.datafs = some d ∧ s.data d = some x ∧ x.connected = true
  | _ => False

/-- `ftpd_datarecv` is called for the data session `d`. -/
def Receives (s : Sys) (e : Event) (d : ℕ) : Prop :=
  match e.callback with
  | .recv i _ => ∃ p, s.pcbs i = some p ∧ p.state = .established ∧ p.recv = true ∧ p.arg = some d
  | _ => False

/-- The callback frees the control session: its connection ends or has an error, or everything
has been sent after `QUIT`. -/
def Ends (s : Sys) (e : Event) : Prop :=
  match e.callback with
  | .msgclosed | .msgerr => True
  | .msgsent => ∃ m ∈ s.fsm, sfifoUsed m.fifo = 0 ∧ m.state = .quit
  | _ => False

instance (s : Sys) (e : Event) : Decidable (Ends s e) := by
  obtain ⟨callback, env⟩ := e
  unfold Ends
  refine Callback.casesOn callback ?_ ?_ ?_ ?_ ?_ ?_ ?_ ?_ ?_ ?_ <;> intros <;> infer_instance

/-- What happens before the data session `d` is served over a connection: the connection is
opened or accepted and the callbacks are registered, or nothing. -/
inductive View.Reached (v : View) (e : Event) (d : ℕ) : Option ℕ → View → Prop
  | connected {i : ℕ} {p : Pcb} (hcb : e.callback = .connected i) (hp : v.pcbs i = some p)
      (hstate : p.state = .connecting) (harg : p.arg = some d) (howned : v.Owned d) :
      Reached v e d (some i) ((v.putPcb i ⟨some d, .established, true, true, true⟩).setControl
        fun c => { c with pcb := some i })
  | accepted {l : ℕ} {p : Pcb} (hcb : e.callback = .accept l true) (hp : v.pcbs l = some p)
      (hstate : p.state = .listening) (harg : p.arg = some d) (howned : v.Owned d) :
      Reached v e d (some v.nextPcb)
        ((v.newPcb ⟨some d, .established, true, true, true⟩).setControl
          fun c => { c with pcb := some v.nextPcb })
  | refused {l : ℕ} {p : Pcb} (hcb : e.callback = .accept l false) (hp : v.pcbs l = some p)
      (hstate : p.state = .listening) (harg : p.arg = some d) (howned : v.Owned d) :
      Reached v e d none (v.setControl fun c => { c with pcb := none })
  | sent {i : ℕ} {p : Pcb} (hcb : e.callback = .sent i) (hp : v.pcbs i = some p)
      (hstate : p.state = .established) (hsent : p.sent = true) (harg : p.arg = some d)
      (howned : v.Owned d) : Reached v e d (some i) v
  | poll {c : Control} (hcb : e.callback = .msgpoll) (hc : v.control = some c)
      (hcurrent : c.current = some d) : Reached v e d c.pcb v

/-- What a callback does to the sessions. -/
inductive Sys.Move (s : Sys) (e : Event) : View → Prop
  | same : Move s e s.view
  | command {c : Command} {v' : View} (hc : e.command = some c)
      (h : s.view.Commanded e.env c v') : Move s e v'
  | serve {d : ℕ} {pcb : Option ℕ} {v₁ v' : View} (hreached : s.view.Reached e d pcb v₁)
      (h : v₁.Served d pcb v') : Move s e v'
  | remoteClose {i d f : ℕ} {p : Pcb} {h : Hold} (hcb : e.callback = .recv i none)
      (hp : s.view.pcbs i = some p) (hstate : p.state = .established) (hrecv : p.recv = true)
      (harg : p.arg = some d) (hcloses : s.view.Closes d (some i) i h) (hfile : h.file = some f) :
      Move s e ((s.view.record [.release (.file f)]).finish d i h)
  | unheardClose {i : ℕ} {p : Pcb} (hcb : e.callback = .recv i none)
      (hp : s.view.pcbs i = some p) (hstate : p.state = .established) (hrecv : p.recv = false) :
      Move s e (s.view.dropPcb i)
  | dataerr {i d : ℕ} {p : Pcb} (hcb : e.callback = .dataerr i) (hp : s.view.pcbs i = some p)
      (hstate : p.state ∈ [.connecting, .established]) (herr : p.err = true)
      (harg : p.arg = some d) (howned : s.view.Owned d) (hcontrol : s.view.control ≠ none) :
      Move s e ((((s.view.dropPcb i).setControl fun c => { c with
        current := none, state := .idle }).drop d).record [.release (.session d)])
  | unheardError {i : ℕ} {p : Pcb} (hcb : e.callback = .dataerr i)
      (hp : s.view.pcbs i = some p) (hstate : p.state ∈ [.connecting, .established])
      (herr : p.err = true → p.arg = none) : Move s e (s.view.dropPcb i)
  | freed {v' : View} (hends : Ends s e) (h : s.view.Freed v') : Move s e v'

/-- The faults of a callback: a missing directory or file is used only where a session is
served or receives that does not hold it, and every loop ends. -/
structure CallFault (s : Sys) (e : Event) (f : Fault) : Prop where
  dir : f = .nullDir → ∃ d, Serves s e d ∧ ∃ c h, s.view.control = some c ∧
    c.state ∈ [.list, .nlst] ∧ s.view.sessions d = some h ∧ h.dir = none
  file : f = .nullFile → ∃ d, Receives s e d ∧ ∃ h, s.view.sessions d = some h ∧ h.file = none
  stuck : f ≠ .stuck

/-! ### Callbacks -/

section Callbacks

variable {s : Sys} {e : Event}

lemma OtherFault.callFault {f : Fault} (hf : OtherFault f) : CallFault s e f :=
  ⟨fun h => absurd h hf.1, fun h => absurd h hf.2.1, hf.2.2⟩

lemma wp_callFault {α : Type} {m : FtpdM α} {Q : α → Sys → Prop} {s' : Sys}
    (hm : wp m Q OtherFault s') : wp m Q (CallFault s e) s' :=
  wp_mono hm (fun _ _ h => h) fun _ he => he.callFault

/-- What happens before serving changes neither the state nor the data sessions. -/
lemma View.Reached.same {v v₁ : View} {d : ℕ} {pcb : Option ℕ} (h : v.Reached e d pcb v₁) :
    v₁.sessions = v.sessions ∧
      ∀ c₁, v₁.control = some c₁ → ∃ c, v.control = some c ∧ c₁.state = c.state := by
  have hset : ∀ (f : Control → Control), (∀ c, (f c).state = c.state) →
      ∀ c₁, v.control.map f = some c₁ → ∃ c, v.control = some c ∧ c₁.state = c.state := by
    intro f hf c₁ hc₁
    obtain ⟨c, hc, rfl⟩ := Option.map_eq_some_iff.mp hc₁
    exact ⟨c, hc, hf c⟩
  cases h with
  | connected => exact ⟨rfl, hset _ fun _ => rfl⟩
  | accepted => exact ⟨rfl, hset _ fun _ => rfl⟩
  | refused => exact ⟨rfl, hset _ fun _ => rfl⟩
  | sent => exact ⟨rfl, fun c hc => ⟨c, hc, rfl⟩⟩
  | poll => exact ⟨rfl, fun c hc => ⟨c, hc, rfl⟩⟩

/-- Serving a session is a move. -/
lemma serve_move {d : ℕ} {pcb : Option ℕ} {s₁ : Sys} (hserves : Serves s e d)
    (hreached : s.view.Reached e d pcb s₁.view) :
    wp (serve d pcb e.env) (fun _ s' => s.Move e s'.view) (CallFault s e) s₁ := by
  refine wp_mono (serve_view d pcb e.env s₁) (fun _ s' h' => .serve hreached h') fun f hf => ?_
  refine ⟨fun h => ⟨d, hserves, ?_⟩, fun h => absurd h hf.file, hf.stuck⟩
  obtain ⟨c₁, h, hc₁, hstate, hd, hdir⟩ := hf.dir h
  obtain ⟨hsessions, hcontrol⟩ := hreached.same
  obtain ⟨c, hc, hc₁⟩ := hcontrol c₁ hc₁
  exact ⟨c, h, hc, hc₁ ▸ hstate, hsessions ▸ hd, hdir⟩

/-- A data connection is opened, from the control block that TCP has for it. -/
lemma dataOpened_move {arg : Option ℕ} {i : ℕ} {p : Pcb} {s₁ : Sys}
    (hsessions : s₁.view.sessions = s.view.sessions) (hp : s₁.pcbs i = some p)
    (hserves : ∀ d, arg = some d → s.view.Owned d → Serves s e d)
    (hreached : ∀ d, arg = some d → s.view.Owned d → s.view.Reached e d (some i)
      ((s₁.view.putPcb i { p with recv := true, sent := true, err := true }).setControl
        fun c => { c with pcb := some i })) :
    wp (dataOpened arg (some i) e.env) (fun _ s' => s.Move e s'.view) (CallFault s e) s₁ := by
  unfold dataOpened
  rw [wp_bind, wp_checkArg]
  refine ⟨fun d hd => ?_, fun _ => OtherFault.callFault (by decide)⟩
  refine wp_seq (wp_callFault (checkMsgfs_view d s₁)) ?_
  rintro _ _ ⟨rfl, howned⟩
  replace howned : s.view.Owned d := by rwa [View.Owned, ← hsessions]
  refine wp_seq (wp_callFault (setMsg_view (g := fun c => { c with pcb := some i })
    (fun _ => rfl) _)) ?_
  rintro _ s₂ ⟨-, h₂⟩
  refine wp_seq (wp_callFault (quiet_setData (fun _ => by rfl) _)) fun _ s₃ h₃ => ?_
  refine wp_seq (wp_callFault (setPcb_view _ _ _)) ?_
  rintro _ s₄ ⟨p₄, hp₄, h₄⟩
  refine serve_move (hserves d hd howned) ?_
  rw [h₃, h₂] at hp₄
  obtain rfl := Option.some.inj (hp.symm.trans hp₄)
  rw [h₄, h₃, h₂]
  exact hreached d hd howned

/-- TCP had no memory for the control block of an accepted connection. -/
lemma dataOpened_null_move {arg : Option ℕ}
    (hserves : ∀ d, arg = some d → s.view.Owned d → Serves s e d)
    (hreached : ∀ d, arg = some d → s.view.Owned d → s.view.Reached e d none
      (s.view.setControl fun c => { c with pcb := none })) :
    wp (dataOpened arg none e.env) (fun _ s' => s.Move e s'.view) (CallFault s e) s := by
  unfold dataOpened
  rw [wp_bind, wp_checkArg]
  refine ⟨fun d hd => ?_, fun _ => OtherFault.callFault (by decide)⟩
  refine wp_seq (wp_callFault (checkMsgfs_view d s)) ?_
  rintro _ _ ⟨rfl, howned⟩
  refine wp_seq (wp_callFault (setMsg_view (g := fun c => { c with pcb := none })
    (fun _ => rfl) _)) ?_
  rintro _ s₂ ⟨-, h₂⟩
  refine wp_seq (wp_callFault (quiet_setData (fun _ => by rfl) _)) fun _ s₃ h₃ => ?_
  refine serve_move (hserves d hd howned) ?_
  rw [h₃, h₂]
  exact hreached d hd howned

lemma ftpdMsgrecv_move (hport : InPortRange s.port) {p : Chain} (hp : e.callback = .msgrecv p) :
    wp (ftpdMsgrecv p e.env) (fun _ s' => s.Move e s'.view) (CallFault s e) s := by
  unfold ftpdMsgrecv
  rw [wp_ite]
  refine ⟨fun htext => ?_, fun _ => .same⟩
  have hcommand : e.command = lookupCommand (commandText p) := by
    rw [Event.command, hp]
    exact if_pos htext
  dsimp only
  cases hc : lookupCommand (commandText p) with
  | some c =>
    refine wp_mono (c.run_view _ e.env hport) (fun _ s' h' => ?_) fun _ he => he.callFault
    exact .command (hcommand.trans hc) h'
  | none =>
    refine wp_mono (quiet_sendMsg _ _ s) (fun _ s' h' => ?_) fun _ he => he.callFault
    rw [h']
    exact .same

lemma ftpdMsgsent_move (hcb : e.callback = .msgsent) :
    wp (ftpdMsgsent e.env) (fun _ s' => s.Move e s'.view) (CallFault s e) s := by
  unfold ftpdMsgsent
  rw [wp_bind, wp_getMsg]
  refine ⟨fun m hm => ?_, fun _ => OtherFault.callFault (by decide)⟩
  rw [wp_ite]
  refine ⟨fun hquit => ?_, fun _ => ?_⟩
  · have hends : Ends s e := by
      rw [Ends, hcb]
      exact ⟨m, hm, hquit⟩
    exact wp_mono (freeMsg_view s) (fun _ s' h' => .freed hends h') fun _ he => he.callFault
  · rw [wp_ite]
    refine ⟨fun _ => ?_, fun _ => .same⟩
    have hset : wp (setMsg fun m' => { m' with fifo := (sendMsgdata m.fifo e.env.msg₁).2 })
        (fun _ s' => s'.view = s.view) OtherFault s := by
      refine setMsg_view_same fun m' hm' => ?_
      obtain rfl := Option.some.inj (hm.symm.trans hm')
      rw [MsgState.control, MsgState.control, sendMsgdata, sfifoDrain_buffer]
    refine wp_seq (wp_callFault hset) fun _ s₁ h₁ => ?_
    refine wp_mono (quiet_emit _ s₁) (fun _ s' h' => ?_) fun _ he => he.callFault
    rw [h', h₁]
    exact .same

lemma ftpdMsgpoll_move (hcb : e.callback = .msgpoll) :
    wp (ftpdMsgpoll e.env) (fun _ s' => s.Move e s'.view) (CallFault s e) s := by
  unfold ftpdMsgpoll
  rw [wp_bind, wp_getMsg]
  refine ⟨fun m hm => ?_, fun _ => OtherFault.callFault (by decide)⟩
  cases hd : m.datafs with
  | none => exact .same
  | some d =>
    rw [wp_bind, wp_getData]
    refine ⟨fun x hx => ?_, fun _ => OtherFault.callFault (by decide)⟩
    rw [wp_ite]
    refine ⟨fun hconn => serve_move ?_ ?_, fun _ => .same⟩
    · rw [Serves, hcb]
      exact ⟨m, x, hm, hd, hx, hconn⟩
    · exact .poll hcb (Sys.view_control hm) hd

lemma ftpdDatasent_move {i : ℕ} {p : Pcb} (hcb : e.callback = .sent i)
    (hp : s.pcbs i = some p) (hstate : p.state = .established) (hreg : p.sent = true) :
    wp (ftpdDatasent p.arg i e.env) (fun _ s' => s.Move e s'.view) (CallFault s e) s := by
  unfold ftpdDatasent
  rw [wp_bind, wp_checkArg]
  refine ⟨fun d hd => ?_, fun _ => OtherFault.callFault (by decide)⟩
  refine wp_seq (wp_callFault (checkMsgfs_view d s)) ?_
  rintro _ _ ⟨rfl, howned⟩
  refine serve_move ?_ (.sent hcb hp hstate hreg hd howned)
  rw [Serves, hcb]
  exact ⟨howned, p, hp, hstate, hreg, hd⟩

lemma ftpdDatarecv_move {i : ℕ} {q : Option Chain} {p : Pcb} (hcb : e.callback = .recv i q)
    (hp : s.pcbs i = some p) (hstate : p.state = .established) (hreg : p.recv = true) :
    wp (ftpdDatarecv p.arg i q e.env) (fun _ s' => s.Move e s'.view) (CallFault s e) s := by
  cases hd : p.arg with
  | none =>
    rw [ftpdDatarecv, wp_bind, wp_checkArg]
    exact ⟨fun _ h => (by cases h), fun _ => OtherFault.callFault (by decide)⟩
  | some d =>
    refine wp_mono (ftpdDatarecv_view d i q e.env s) ?_ fun f hf => ?_
    · rintro _ s' (h' | ⟨rfl, h, f, hcloses, hfile, h'⟩)
      · rw [h']
        exact .same
      · rw [h']
        exact .remoteClose hcb hp hstate hreg hd hcloses hfile
    · refine ⟨fun h => absurd h hf.dir, fun h => ⟨d, ?_, hf.file h⟩, hf.stuck⟩
      rw [Receives, hcb]
      exact ⟨p, hp, hstate, hreg, hd⟩

/-- A control block is freed by TCP. -/
lemma dropPcb_view (i : ℕ) (s : Sys) :
    wp (modify fun s => { s with pcbs := Function.update s.pcbs i none } : FtpdM Unit)
      (fun _ s' => s'.view = s.view.dropPcb i) OtherFault s := rfl

lemma dataerr_move {i : ℕ} {p : Pcb} (hcb : e.callback = .dataerr i) (hp : s.pcbs i = some p)
    (hstate : p.state ∈ [.connecting, .established]) :
    wp (do
      modify fun s => { s with pcbs := Function.update s.pcbs i none }
      if p.err then ftpdDataerr p.arg)
      (fun _ s' => s.Move e s'.view) (CallFault s e) s := by
  refine wp_seq (wp_callFault (dropPcb_view i s)) fun _ s₁ h₁ => ?_
  rw [wp_ite]
  refine ⟨fun herr => ?_, fun herr => ?_⟩
  · cases harg : p.arg with
    | none =>
      show s.Move e s₁.view
      rw [h₁]
      exact .unheardError hcb hp hstate fun _ => harg
    | some d =>
      refine wp_mono (ftpdDataerr_view d s₁) ?_ fun _ he => he.callFault
      rintro _ s' ⟨howned, hcontrol, h'⟩
      rw [h₁] at howned hcontrol h'
      rw [h']
      exact .dataerr hcb hp hstate herr harg howned hcontrol
  · rw [wp_pure, h₁]
    exact .unheardError hcb hp hstate fun h => absurd h herr

end Callbacks

/-- **Every callback is a move of the sessions**; it uses a missing directory or file only where
a session is served or receives that does not hold it, and none of its loops goes on forever. -/
theorem handle_move (e : Event) {s : Sys} (hport : InPortRange s.port) :
    wp (handle e) (fun _ s' => s.Move e s'.view) (CallFault s e) s := by
  have hcalled : CallFault s e .notCalled := OtherFault.callFault (by decide)
  have hfree : Ends s e → wp freeMsg (fun _ s' => s.Move e s'.view) (CallFault s e) s :=
    fun hends => wp_mono (freeMsg_view s) (fun _ s' h' => .freed hends h') fun _ he => he.callFault
  unfold handle
  cases hcb : e.callback with
  | msgrecv p => exact wp_onControl (ftpdMsgrecv_move hport hcb) hcalled
  | msgclosed => exact wp_onControl (hfree (by rw [Ends, hcb]; trivial)) hcalled
  | msgsent => exact wp_onControl (ftpdMsgsent_move hcb) hcalled
  | msgpoll => exact wp_onControl (ftpdMsgpoll_move hcb) hcalled
  | msgerr => exact wp_onControl (hfree (by rw [Ends, hcb]; trivial)) hcalled
  | connected i =>
    rw [wp_bind]
    refine wp_pcbOf (fun p hp hstate => ?_) hcalled
    replace hstate := List.mem_singleton.mp hstate
    refine wp_seq (wp_callFault (setPcb_view i _ s)) ?_
    rintro _ s₁ ⟨p₁, hp₁, h₁⟩
    obtain rfl := Option.some.inj (hp.symm.trans hp₁)
    have hpcb : s₁.view.pcbs i = some { p with state := .established } := by
      rw [h₁, View.putPcb_pcbs_self]
    refine dataOpened_move (by rw [h₁]; rfl) hpcb (fun d hd howned => ?_) fun d hd howned => ?_
    · rw [Serves, hcb]
      exact ⟨howned, p, hp, hstate, hd⟩
    · rw [h₁, View.putPcb_putPcb, hd]
      exact .connected hcb hp hstate hd howned
  | accept l memory =>
    rw [wp_bind]
    refine wp_pcbOf (fun p hp hstate => ?_) hcalled
    replace hstate := List.mem_singleton.mp hstate
    have hserves : ∀ d, p.arg = some d → s.view.Owned d → Serves s e d := by
      intro d hd howned
      rw [Serves, hcb]
      exact ⟨howned, p, hp, hstate, hd⟩
    cases memory with
    | false =>
      refine dataOpened_null_move hserves fun d hd howned => ?_
      exact .refused hcb hp hstate hd howned
    | true =>
      refine wp_seq (wp_callFault (newPcb_view _ s)) ?_
      rintro i s₁ ⟨rfl, h₁⟩
      have hpcb : s₁.view.pcbs s.view.nextPcb =
          some ⟨p.arg, .established, false, false, false⟩ := by
        rw [h₁]
        exact View.putPcb_pcbs_self
      refine dataOpened_move (by rw [h₁]; rfl) hpcb hserves fun d hd howned => ?_
      rw [h₁, View.newPcb_putPcb, hd]
      exact .accepted hcb hp hstate hd howned
  | sent i =>
    rw [wp_bind]
    refine wp_pcbOf (fun p hp hstate => ?_) hcalled
    rw [wp_ite]
    exact ⟨fun hreg => ftpdDatasent_move hcb hp (List.mem_singleton.mp hstate) hreg,
      fun _ => .same⟩
  | recv i q =>
    rw [wp_bind]
    refine wp_pcbOf (fun p hp hstate => ?_) hcalled
    replace hstate := List.mem_singleton.mp hstate
    rw [wp_ite]
    refine ⟨fun hreg => ftpdDatarecv_move hcb hp hstate hreg, fun hreg => ?_⟩
    rw [wp_ite]
    refine ⟨fun hq => ?_, fun _ => .same⟩
    exact .unheardClose (hq ▸ hcb) hp hstate (Bool.not_eq_true _ ▸ hreg)
  | dataerr i =>
    rw [wp_bind]
    exact wp_pcbOf (fun p hp hstate => dataerr_move hcb hp hstate) hcalled

/-! ### Runs -/

/-- A callback that comes to an end is a move of the sessions. -/
lemma ftpdStep_move {s s' : Sys} {e : Event} (hport : InPortRange s.port)
    (h : ftpdStep s e = some s') : s.Move e s'.view :=
  wp_ftpdStep (handle_move e hport) h

/-- The sessions when a control session has just been accepted, with a buffer or not. -/
def View.start (buffer : Bool) : View where
  control := some ⟨.idle, none, false, none, buffer⟩
  sessions := fun _ => none
  next := 0
  port := 4096
  pcbs := fun _ => none
  nextPcb := 0
  cwd := lit "/"
  account := if buffer then [.acquire (.buffer none)] else []
  handles := 0

/-- A control session starts without data sessions. -/
lemma Accepted.view {s : Sys} (h : Accepted s) : ∃ buffer, s.view = .start buffer := by
  obtain ⟨localIp, malloc, dr, hrun⟩ := h
  refine ⟨malloc.isSome, ?_⟩
  refine wp_ok (m := ftpdMsgaccept malloc dr) (E := fun _ => True)
    (Q := fun _ s => s.view = .start malloc.isSome) ?_ hrun
  obtain ⟨rc, f, hinit, -, hbuffer, -⟩ :=
    sfifoInit_spec (show (2000 : ℤ) < 2 ^ 30 by norm_num) malloc
  unfold ftpdMsgaccept
  rw [hinit, wp_bind, wp_record, wp_bind, wp_modify]
  refine wp_mono (quiet_sendMsg _ _ _) (fun _ s' h' => ?_) fun _ _ => trivial
  rw [h', View.start, ← hbuffer]
  rfl

/-- The port counter stays in its range. -/
lemma Sys.Move.inPortRange {s : Sys} {v' : View} {e : Event} (hmove : s.Move e v')
    (hs : InPortRange s.port) : InPortRange v'.port := by
  cases hmove with
  | same | remoteClose | unheardClose | dataerr | unheardError => exact hs
  | serve hreached h =>
    cases hreached with
    | _ =>
      cases h with
      | _ => exact hs
  | freed _ h =>
    cases h with
    | _ => exact hs
  | command _ h =>
    cases h with
    | same | setState | chdir => exact hs
    | transfer _ h =>
      cases h with
      | _ => exact hs
    | pasv _ _ h =>
      cases h with
      | noMemory => exact hs
      | noPcb => exact hs
      | noListen _ _ hport => exact hport
      | listening _ _ hport => exact hport

lemma Accepted.inPortRange {s : Sys} (h : Accepted s) : InPortRange s.port := by
  obtain ⟨buffer, hview⟩ := h.view
  rw [show s.port = 4096 from congrArg View.port hview]
  exact ⟨le_rfl, by decide⟩

/-- **What the moves preserve holds in every run.** -/
theorem view_inv_of_move {P : View → Prop} {ok : Sys → Event → Prop}
    (hstep : ∀ s e v', P s.view → ok s e → s.Move e v' → P v') {s₀ s : Sys}
    {es : List Event} (h₀ : Accepted s₀) (hP : P s₀.view) (hes : Admits ftpdStep ok s₀ es)
    (hrun : exec ftpdStep s₀ es = some s) : InPortRange s.port ∧ P s.view := by
  refine exec_inv_of_admits (P := fun s => InPortRange s.port ∧ P s.view) ?_ ⟨h₀.inPortRange, hP⟩
    hes hrun
  rintro s e s' ⟨hport, hs⟩ hok hs'
  have hmove := ftpdStep_move hport hs'
  exact ⟨hmove.inPortRange hport, hstep s e s'.view hs hok hmove⟩

/-! ### Numbers that are not given out yet -/

namespace View

variable {v : View} {d : ℕ} {h : Hold}

/-- Numbers that have not been given out yet belong to no session. -/
def Fresh (v : View) : Prop := FreshFrom v.next v.sessions

lemma Fresh.put (hv : v.Fresh) (hd : v.sessions d = some h) (h' : Hold) : (v.put d h').Fresh :=
  FreshFrom.put hv (by rw [hd]; exact Option.some_ne_none h) h'

end View

lemma Sys.Move.fresh {s : Sys} {v' : View} {e : Event} (hmove : s.Move e v')
    (hs : s.view.Fresh) : v'.Fresh := by
  cases hmove with
  | same => exact hs
  | unheardClose => exact hs
  | unheardError => exact hs
  | remoteClose => exact FreshFrom.drop hs _
  | dataerr => exact FreshFrom.drop hs _
  | @serve d pcb v₁ _ hreached h =>
    have hs₁ : v₁.Fresh := by
      cases hreached with
      | _ => exact hs
    cases h with
    | same => exact hs₁
    | readEnd _ _ hd => exact hs₁.put hd _
    | sentFile => exact FreshFrom.drop hs₁ _
    | sentDir => exact FreshFrom.drop hs₁ _
  | freed _ h =>
    cases h with
    | alone => exact hs
    | session => exact FreshFrom.drop hs _
  | command _ h =>
    cases h with
    | same => exact hs
    | setState => exact hs
    | chdir => exact hs
    | transfer _ h =>
      cases h with
      | passive _ _ _ hd => exact hs.put hd _
      | active => exact FreshFrom.alloc hs _
      | noMemory => exact hs
    | pasv _ _ h =>
      cases h with
      | noMemory => exact hs
      | noPcb => exact (FreshFrom.alloc hs _).drop _
      | noListen => exact (FreshFrom.alloc hs _).drop _
      | listening => exact FreshFrom.alloc hs _

/-- The port counter is in its range in every state that is reached. -/
lemma inPortRange_of_exec {s₀ s : Sys} {es : List Event} (h₀ : Accepted s₀)
    (hrun : exec ftpdStep s₀ es = some s) : InPortRange s.port := by
  have hes : Admits ftpdStep (fun _ _ => True) s₀ es := admits_of_forall fun _ _ _ => trivial
  exact (view_inv_of_move (P := fun _ => True) (fun _ _ _ _ _ _ => trivial) h₀ trivial hes hrun).1

/-- **No callback runs forever**: the loop over a directory and the search for a port end, in
every state that is reached. -/
theorem handle_ne_stuck {s₀ s : Sys} {es : List Event} (h₀ : Accepted s₀)
    (hrun : exec ftpdStep s₀ es = some s) (e : Event) : (handle e).run s ≠ .error .stuck := by
  intro hstuck
  exact (wp_error (handle_move e (inPortRange_of_exec h₀ hrun)) hstuck).stuck rfl

end Teensy41Ethernet.Ftpd
