import Teensy41Ethernet.Ftpd.Moves

/-!
# The state after `QUIT`

`cmd_quit` sets the state in which `ftpd_msgsent` closes the control connection once the
replies have been sent.  The same variable says which transfer is going on, and the end of a
transfer sets it back: `ftpd_datarecv` at a remote close and `ftpd_dataerr` do so in every
state, and so does a command that is given after `QUIT`.  Nothing else does.
-/

namespace Teensy41Ethernet.Ftpd

open Lib

/-! ### The condition -/

/-- A command sets no other state: it is not `USER`, `PASS` or `ABOR`, and it does not come as
far as starting a transfer. -/
def Command.KeepsQuit (c : Command) (passive : Bool) (env : Env) : Prop :=
  (∀ st ∈ c.nextState, st = .quit) ∧
    ((c.transfer env).isSome = true → passive = false ∧ env.mallocData = false)

/-- A callback in the state `QUIT` is not one of those that set another state: a command that
sets one, the remote close of a data connection for which `ftpd_datarecv` is registered, or an
error of one for which `ftpd_dataerr` is registered, with a data session as argument. -/
def KeepsQuit (s : Sys) (e : Event) : Prop :=
  ∀ m ∈ s.fsm, m.state = .quit →
    (∀ c ∈ e.command, c.KeepsQuit m.passive e.env) ∧
    match e.callback with
    | .recv i none => ∀ p ∈ s.pcbs i, p.recv = false
    | .dataerr i => ∀ p ∈ s.pcbs i, p.err = true → p.arg = none
    | _ => True

instance (s : Sys) (e : Event) : Decidable (KeepsQuit s e) := by
  obtain ⟨callback, env⟩ := e
  unfold KeepsQuit Command.KeepsQuit
  refine Callback.casesOn callback ?_ ?_ ?_ ?_ ?_ ?_ ?_ ?_ (fun i p => Option.casesOn p ?_ ?_) ?_
    <;> intros <;> infer_instance

/-! ### The invariant -/

namespace View

/-- The control session is in the state `QUIT`, or gone. -/
def Quitting (v : View) : Prop := ∀ c ∈ v.control, c.state = .quit

variable {v v' : View}

lemma Quitting.setControl (hv : v.Quitting) {f : Control → Control}
    (hf : ∀ c, (f c).state = c.state) : (v.setControl f).Quitting := by
  intro c' hc'
  obtain ⟨c, hc, rfl⟩ := Option.map_eq_some_iff.mp hc'
  rw [hf]
  exact hv c hc

/-- In the state `QUIT` no data connection is served. -/
lemma Quitting.served_eq {d : ℕ} {pcb : Option ℕ} (hv : v.Quitting) (h : v.Served d pcb v') :
    v' = v := by
  cases h with
  | same => rfl
  | readEnd hc hstate =>
    rw [hv _ hc] at hstate
    cases hstate
  | sentFile hc hstate =>
    rw [hv _ hc] at hstate
    cases hstate
  | sentDir hc hstate =>
    rw [hv _ hc] at hstate
    exact absurd hstate (by decide)

lemma Commanded.quitting {env : Env} {c : Command} (hmove : v.Commanded env c v')
    (hc : ∀ m ∈ v.control, c.KeepsQuit m.passive env) (hv : v.Quitting) : v'.Quitting := by
  cases hmove with
  | same => exact hv
  | chdir => exact hv
  | setState hst =>
    intro c' hc'
    obtain ⟨m, hm, rfl⟩ := Option.map_eq_some_iff.mp hc'
    exact (hc m hm).1 _ hst
  | transfer ht h =>
    have hsome : (c.transfer env).isSome = true := by rw [ht, Option.isSome_some]
    cases h with
    | @passive m _ _ hm hp =>
      rw [((hc m hm).2 hsome).1] at hp
      cases hp
    | @active m hm _ hmalloc =>
      rw [((hc m hm).2 hsome).2] at hmalloc
      cases hmalloc
    | noMemory => exact hv.setControl fun _ => rfl
  | pasv _ _ h =>
    intro c' hc'
    obtain ⟨m, hm, hstate⟩ := h.state hc'
    rw [hstate, hv m hm]

end View

/-- **What one callback preserves.** -/
lemma Sys.Move.quitting {s : Sys} {v' : View} {e : Event} (hmove : s.Move e v')
    (he : KeepsQuit s e) (hs : s.view.Quitting) : v'.Quitting := by
  have hquit : ∀ c ∈ s.view.control, ∃ m ∈ s.fsm, m.control = c ∧ m.state = .quit := by
    intro c hc
    obtain ⟨m, hm, rfl⟩ := Option.map_eq_some_iff.mp hc
    exact ⟨m, hm, rfl, hs m.control hc⟩
  cases hmove with
  | same => exact hs
  | unheardClose => exact hs
  | unheardError => exact hs
  | freed _ h =>
    intro c hc
    cases h with
    | alone => cases hc
    | session => cases hc
  | command hcommand h =>
    refine h.quitting (fun c hc => ?_) hs
    obtain ⟨m, hm, rfl, hstate⟩ := hquit c hc
    exact (he m hm hstate).1 _ hcommand
  | serve hreached h =>
    have hs₁ : View.Quitting _ := fun c₁ hc₁ => by
      obtain ⟨c, hc, hstate⟩ := hreached.same.2 c₁ hc₁
      exact hstate.trans (hs c hc)
    rw [hs₁.served_eq h]
    exact hs₁
  | remoteClose hcb hp _ hrecv _ hcloses =>
    obtain ⟨c, hc⟩ := Option.ne_none_iff_exists'.mp hcloses.control
    obtain ⟨m, hm, -, hstate⟩ := hquit c hc
    have hkeeps := (he m hm hstate).2
    rw [hcb] at hkeeps
    rw [hkeeps _ hp] at hrecv
    cases hrecv
  | dataerr hcb hp _ herr harg _ hcontrol =>
    obtain ⟨c, hc⟩ := Option.ne_none_iff_exists'.mp hcontrol
    obtain ⟨m, hm, -, hstate⟩ := hquit c hc
    have hkeeps := (he m hm hstate).2
    rw [hcb] at hkeeps
    rw [hkeeps _ hp herr] at harg
    cases harg

/-! ### The theorem -/

/-- `QUIT` sets the state. -/
lemma ftpdStep_quit {s s' : Sys} {e : Event} (he : e.command = some .quit)
    (h : ftpdStep s e = some s') : s'.view.Quitting := by
  obtain ⟨arg, hrun⟩ := handle_command he
  refine wp_ftpdStep (Q := fun s => s.view.Quitting) (E := fun _ => True) ?_ h
  rw [hrun]
  refine wp_onControl ?_ trivial
  show wp (cmdQuit arg e.env) _ _ s
  unfold cmdQuit
  refine wp_seq (Q := fun _ _ => True) (wp_mono (quiet_sendMsg _ _ s) (fun _ _ _ => trivial)
    fun _ _ => trivial) fun _ s₁ _ => ?_
  refine wp_setMsg.mpr ⟨fun m _ => ?_, fun _ => trivial⟩
  intro c hc
  obtain rfl := Option.some.inj hc
  rfl

/-- In the state `QUIT`, with everything sent, an acknowledgement closes the control
connection. -/
lemma ftpdMsgsent_quit {s : Sys} {m : MsgState} (hm : s.fsm = some m) (hstate : m.state = .quit)
    (hfifo : sfifoUsed m.fifo = 0) (env : Env) :
    (ftpdMsgsent env).run s = ftpdMsgclose.run s := by
  have hget : getMsg.run s = .ok (m, s) := by
    simp only [getMsg, StateT.run_bind, StateT.run_get, pure_bind, hm]
    rfl
  unfold ftpdMsgsent
  rw [StateT.run_bind, hget]
  show (if _ then ftpdMsgclose else _ : FtpdM Unit).run s = _
  rw [if_pos ⟨hfifo, hstate⟩]

end Teensy41Ethernet.Ftpd
