import Teensy41Ethernet.Ftpd.Ports
import Teensy41Ethernet.Ftpd.View

/-!
# What a command does to the sessions

`View.Commanded` says what a command can do to the sessions: it changes the state of the
control session or the working directory, opens a data session, or gives the current one a
directory or a file.  The main result, `Command.run_view`, is that every command of the table
does one of these things; which ones are possible for which command is part of the relation.
-/

namespace Teensy41Ethernet.Ftpd

open Lib Lwip

/-! ### Opening a data connection -/

/-- A data session right after `malloc` and `memset`. -/
def Hold.zero : Hold := ⟨none, none, false, false⟩

/-- A new data session that points back to the control session, with its FIFO. -/
def Hold.fresh (env : Env) : Hold := ⟨none, none, env.mallocFifo.isSome, true⟩

/-- A control block that `tcp_new` returned and that was given an argument. -/
def Pcb.fresh (arg : Option ℕ) (state : PcbState) : Pcb := ⟨arg, state, false, false, false⟩

/-- A data session gets what the new state of the control session needs, under the number `n`. -/
def Hold.give (h : Hold) (n : ℕ) : FtpdState → Hold
  | .list | .nlst => { h with dir := some n }
  | .retr | .stor => { h with file := some n }
  | _ => h

/-- What is opened, under the number `n`, for a state of the control session. -/
def FtpdState.opens (n : ℕ) : FtpdState → Resource
  | .list | .nlst => .dir n
  | _ => .file n

namespace View

/-- A directory or a file is opened. -/
def opened (v : View) (st : FtpdState) : View :=
  { v.record [.acquire (st.opens v.handles)] with handles := v.handles + 1 }

/-- A control block is added. -/
def newPcb (v : View) (p : Pcb) : View := { v.putPcb v.nextPcb p with nextPcb := v.nextPcb + 1 }

/-- A control block is changed right after it was added. -/
lemma newPcb_putPcb (v : View) (p q : Pcb) : (v.newPcb p).putPcb v.nextPcb q = v.newPcb q := by
  simp only [newPcb, putPcb, Function.update_idem]

/-- A new data session with a new control block that tries to connect. -/
def openActive (v : View) (env : Env) (h : Hold) : View :=
  ((v.alloc h).newPcb
    (.fresh (some v.next) (if env.tcpConnect then .connecting else .created))).setControl
      fun c => { c with pcb := some v.nextPcb }

/-- What `open_dataconnection` does, with its result. -/
inductive Opened (v : View) (env : Env) : Bool → View → Prop
  | passive {c : Control} (hc : v.control = some c) (hp : c.passive = true) : Opened v env true v
  | active {c : Control} (hc : v.control = some c) (hp : c.passive = false)
      (hm : env.mallocData = true) (ht : env.tcpNew = true) :
      Opened v env true (v.openActive env (.fresh env))
  | noMemory {c : Control} (hc : v.control = some c) (hp : c.passive = false)
      (hm : env.mallocData = false) : Opened v env false v.forget

end View

lemma newPcb_view (p : Pcb) (s : Sys) :
    wp (newPcb p) (fun i s' => i = s.view.nextPcb ∧ s'.view = s.view.newPcb p) OtherFault s :=
  ⟨rfl, rfl⟩

lemma tcpNew_view (env : Env) (s : Sys) :
    wp (tcpNew env) (fun pcb s' =>
      (env.tcpNew = true ∧ pcb = some s.view.nextPcb ∧
        s'.view = s.view.newPcb (.fresh none .created)) ∨
      (env.tcpNew = false ∧ pcb = none ∧ s'.view = s.view)) OtherFault s := by
  unfold tcpNew
  rw [wp_ite]
  refine ⟨fun h => .inl ⟨h, rfl, rfl⟩, fun h => .inr ⟨?_, rfl, rfl⟩⟩
  exact Bool.not_eq_true _ ▸ h

lemma dataFifo_view (d : ℕ) (env : Env) (s : Sys) :
    wp (dataFifo d env) (fun f s' => f.buffer.isSome = env.mallocFifo.isSome ∧
      s'.view = s.view.record (bufferEntry env.mallocFifo (.acquire (.buffer (some d)))))
      OtherFault s := by
  obtain ⟨rc, f, hinit, -, hbuffer, -⟩ :=
    sfifoInit_spec (show (2000 : ℤ) < 2 ^ 30 by norm_num) env.mallocFifo
  unfold dataFifo
  rw [hinit]
  exact ⟨by rw [hbuffer], rfl⟩

/-- The new session becomes the current one, but does not point back yet. -/
lemma allocData_view (s : Sys) :
    wp allocData (fun d s' => d = s.view.next ∧ s.view.control ≠ none ∧
      s'.view = s.view.alloc .zero) OtherFault s := by
  unfold allocData
  rw [wp_bind, wp_get, wp_bind, wp_record, wp_bind, wp_modify, wp_bind, wp_setMsg]
  refine ⟨fun m hm => ?_, fun _ => by decide⟩
  replace hm : s.fsm = some m := hm
  refine ⟨rfl, ?_, ?_⟩
  · rw [Sys.view_control hm]
    exact Option.some_ne_none _
  · refine View.ext ?_ ?_ rfl rfl rfl rfl rfl rfl rfl
    · simp only [Sys.view, View.alloc, View.setControl, View.put, View.record, hm]
      rfl
    · exact Function.comp_update (Option.map DataState.hold) s.data s.nextData (some .zero)

/-- The session gets its FIFO. -/
lemma View.alloc_fifo (v : View) (env : Env) (b : Bool) :
    (((v.alloc .zero).put v.next { Hold.zero with owned := b }).record
        (bufferEntry env.mallocFifo (.acquire (.buffer (some v.next))))).put v.next
          { Hold.fresh env with owned := b } =
      v.alloc { Hold.fresh env with owned := b } := by
  refine View.ext rfl ?_ rfl rfl rfl rfl rfl ?_ rfl
  · simp only [View.put, View.record, View.alloc, View.setControl, Function.update_idem]
  · exact List.append_assoc _ _ _

/-- The first part of `open_dataconnection`: a new session that points back, with its FIFO. -/
lemma newSession_view {α : Type} {k : ℕ → FtpdM α} {Q : α → Sys → Prop} {env : Env} {s : Sys}
    (hk : ∀ s', s'.view = s.view.alloc (.fresh env) → wp (k s.view.next) Q OtherFault s') :
    wp (do
      let d ← allocData
      setData d fun x => { x with msgfs := true, msgpcb := true }
      let fifo ← dataFifo d env
      setData d fun x => { x with fifo := fifo }
      k d) Q OtherFault s := by
  refine wp_seq (allocData_view s) ?_
  rintro _ s₁ ⟨rfl, -, h₁⟩
  refine wp_seq (setData_view (g := fun h => { h with owned := true }) (fun _ => rfl) s₁) ?_
  rintro _ s₂ ⟨h, hh, h₂⟩
  rw [h₁, View.alloc_sessions_next, Option.some.injEq] at hh
  rw [h₁, ← hh] at h₂
  refine wp_seq (dataFifo_view _ env s₂) ?_
  rintro f s₃ ⟨hf, h₃⟩
  refine wp_seq (setData_view (g := fun h => { h with buffer := f.buffer.isSome })
    (fun _ => rfl) s₃) ?_
  rintro _ s₄ ⟨h', hh', h₄⟩
  rw [h₃, h₂] at hh'
  obtain rfl := Option.some.inj (View.put_sessions_self.symm.trans hh')
  refine hk s₄ ?_
  rw [h₄, h₃, h₂, hf]
  exact View.alloc_fifo s.view env true

/-- The second part: a new control block for the data session `d`. -/
lemma connectPcb_view (d : ℕ) (env : Env) (s : Sys) :
    wp (do
      let pcb ← tcpNew env
      setMsg fun m => { m with datapcb := pcb }
      setPcb pcb fun p => { p with arg := some d }
      let i ← checkPcb pcb
      setPcb (some i) fun p => if env.tcpConnect then { p with state := .connecting } else p
      return true)
      (fun b s' => b = true ∧ env.tcpNew = true ∧ s'.view = (s.view.newPcb
        (.fresh (some d) (if env.tcpConnect then .connecting else .created))).setControl
          fun c => { c with pcb := some s.view.nextPcb }) OtherFault s := by
  refine wp_seq (tcpNew_view env s) ?_
  rintro pcb s₁ (⟨ht, rfl, h₁⟩ | ⟨-, rfl, -⟩)
  swap
  · -- a null pointer is dereferenced by `tcp_connect`, not before
    rw [wp_bind, wp_setMsg]
    refine ⟨fun _ _ => ?_, fun _ => by decide⟩
    rw [wp_bind, wp_setPcb]
    refine ⟨fun _ => ?_, fun _ h => (by cases h), fun _ h => (by cases h)⟩
    rw [wp_bind, wp_checkPcb]
    exact ⟨fun _ h => (by cases h), fun _ => by decide, fun _ h => (by cases h)⟩
  refine wp_seq (setMsg_view (g := fun c => { c with pcb := some s.view.nextPcb })
    (fun _ => rfl) s₁) ?_
  rintro _ s₂ ⟨-, h₂⟩
  refine wp_seq (setPcb_view _ _ s₂) ?_
  rintro _ s₃ ⟨p₃, hp₃, h₃⟩
  rw [wp_bind, wp_checkPcb]
  refine ⟨fun i hi p _ => ?_, fun h => (by cases h), fun _ _ _ => by decide⟩
  obtain rfl := Option.some.inj hi
  refine wp_seq (setPcb_view _ _ s₃) ?_
  rintro _ s₄ ⟨p₄, hp₄, h₄⟩
  refine ⟨rfl, ht, ?_⟩
  -- the control block is the new one, with its argument
  have hnew : s₂.view.pcbs s.view.nextPcb = some (.fresh none .created) := by
    rw [h₂, h₁]
    exact View.putPcb_pcbs_self
  obtain rfl := Option.some.inj (hnew.symm.trans hp₃)
  rw [h₃, View.putPcb_pcbs_self, Option.some.injEq] at hp₄
  rw [h₄, h₃, h₂, h₁, ← hp₄]
  refine View.ext rfl rfl rfl rfl ?_ rfl rfl rfl rfl
  simp only [View.newPcb, View.putPcb, View.setControl, Function.update_idem]
  cases env.tcpConnect with
  | true => rfl
  | false => rfl

lemma openDataconnection_view (dr : Drain) (env : Env) (s : Sys) :
    wp (openDataconnection dr env) (fun b s' => s.view.Opened env b s'.view) OtherFault s := by
  unfold openDataconnection
  rw [wp_bind, wp_getMsg]
  refine ⟨fun m hm => ?_, fun _ => by decide⟩
  have hc : s.view.control = some m.control := Sys.view_control hm
  rw [wp_ite]
  refine ⟨fun hp => .passive hc hp, fun hp => ?_⟩
  replace hp : m.control.passive = false := Bool.not_eq_true _ ▸ hp
  rw [wp_ite]
  refine ⟨fun hmalloc => ?_, fun hmalloc => newSession_view fun s₁ h₁ => ?_⟩
  · refine wp_seq (setMsg_view (g := fun c => { c with current := none }) (fun _ => rfl) s) ?_
    rintro _ s₁ ⟨-, h₁⟩
    refine (quiet_sendMsg _ _).wp_seq fun _ s₂ h₂ => ?_
    show s.view.Opened env false s₂.view
    rw [h₂, h₁]
    exact .noMemory hc hp (by simpa using hmalloc)
  · refine wp_mono (connectPcb_view s.view.next env s₁) ?_ fun _ he => he
    rintro _ s₂ ⟨rfl, ht, h₂⟩
    rw [h₂, h₁]
    exact .active hc hp (by simpa using hmalloc) ht

/-- What a command does that comes as far as opening its data connection. -/
inductive View.Transfer (v : View) (env : Env) (st : FtpdState) : View → Prop
  | passive {c : Control} {d : ℕ} {h : Hold} (hc : v.control = some c) (hp : c.passive = true)
      (hcurrent : c.current = some d) (hd : v.sessions d = some h) :
      Transfer v env st (((v.opened st).put d (h.give v.handles st)).setState st)
  | active {c : Control} (hc : v.control = some c) (hp : c.passive = false)
      (hm : env.mallocData = true) (ht : env.tcpNew = true) :
      Transfer v env st
        (((v.opened st).openActive env ((Hold.fresh env).give v.handles st)).setState st)
  | noMemory {c : Control} (hc : v.control = some c) (hp : c.passive = false)
      (hm : env.mallocData = false) :
      Transfer v env st ((v.opened st).forget.record [.release (st.opens v.handles)])

/-- The current data session is given what the new state needs, under the number `n`. -/
def View.Installed (v : View) (n : ℕ) (st : FtpdState) (v' : View) : Prop :=
  ∃ c d h, v.control = some c ∧ c.current = some d ∧ v.sessions d = some h ∧
    v' = (v.put d (h.give n st)).setState st

lemma installTransfer_view {f : DataState → DataState} {n : ℕ} {st : FtpdState}
    (hf : ∀ x, (f x).hold = x.hold.give n st) (s : Sys) :
    wp (installTransfer f st) (fun _ s' => s.view.Installed n st s'.view) OtherFault s := by
  unfold installTransfer
  rw [wp_bind, wp_checkDatafs]
  refine ⟨fun m hm => ⟨fun d hd => ?_, fun _ => by decide⟩, fun _ => by decide⟩
  refine wp_seq (setData_view (g := fun h => h.give n st) hf s) ?_
  rintro _ s₁ ⟨h, hh, h₁⟩
  refine wp_mono (setMsg_view (g := fun c => { c with state := st }) (fun _ => rfl) s₁) ?_
    fun _ he => he
  rintro _ s' ⟨-, h'⟩
  exact ⟨m.control, d, h, Sys.view_control hm, hd, hh, by rw [h', h₁, View.setState]⟩

/-- Giving a session what it needs as soon as it is allocated. -/
lemma View.openActive_put (v : View) (env : Env) {h h' : Hold} (hh : h'.buffer = h.buffer) :
    (v.openActive env h).put v.next h' = v.openActive env h' := by
  refine View.ext rfl ?_ rfl rfl rfl rfl rfl ?_ rfl
  · simp only [View.openActive, View.newPcb, View.putPcb, View.put, View.record, View.alloc,
      View.setControl, Function.update_idem]
  · simp only [View.openActive, View.newPcb, View.putPcb, View.put, View.record, View.alloc,
      View.setControl, Hold.opening, hh]

lemma Hold.give_buffer (h : Hold) (n : ℕ) (st : FtpdState) : (h.give n st).buffer = h.buffer := by
  cases st with
  | _ => rfl

lemma Hold.give_owned (h : Hold) (n : ℕ) (st : FtpdState) : (h.give n st).owned = h.owned := by
  cases st with
  | _ => rfl

/-- Opening and installing together, after a directory or a file has been opened. -/
lemma openTransfer_view {v : View} {st : FtpdState} {k : FtpdM Unit}
    (hk : ∀ s, wp k (fun _ s' => s.view.Installed v.handles st s'.view) OtherFault s)
    (dr : Drain) (env : Env) {s : Sys} (hs : s.view = v.opened st) :
    wp (do if ← openDataconnection dr env then k else record [.release (st.opens v.handles)])
      (fun _ s' => v.Transfer env st s'.view) OtherFault s := by
  refine wp_seq (openDataconnection_view dr env s) ?_
  intro b s₁ hopened
  rw [hs] at hopened
  rw [wp_ite]
  refine ⟨fun hb => ?_, fun hb => ?_⟩
  · refine wp_mono (hk s₁) ?_ fun _ he => he
    rintro _ s' ⟨c₁, d, h, hc₁, hcurrent, hd, h'⟩
    rw [h']
    generalize s₁.view = v₁ at *
    cases hopened with
    | noMemory => cases hb
    | passive hc hp =>
      obtain rfl := Option.some.inj (hc₁.symm.trans hc)
      exact .passive hc₁ hp hcurrent hd
    | @active c hc hp hm ht =>
      replace hc : v.control = some c := hc
      have hc₁' : some c₁ = _ := hc₁.symm
      simp only [View.openActive, View.newPcb, View.putPcb, View.alloc, View.setControl, View.put,
        View.record, View.opened, hc, Option.map_some, Option.some.injEq] at hc₁'
      rw [hc₁', Option.some.injEq] at hcurrent
      subst hcurrent
      have hd' : some h = some (Hold.fresh env) := hd.symm.trans View.alloc_sessions_next
      obtain rfl := Option.some.inj hd'
      rw [show v.next = (v.opened st).next from rfl,
        View.openActive_put (v.opened st) env (Hold.give_buffer (.fresh env) v.handles st)]
      exact .active hc hp hm ht
  · generalize hv : s₁.view = v₁ at hopened
    cases hopened with
    | passive => exact absurd rfl hb
    | active => exact absurd rfl hb
    | noMemory hc hp hm =>
      show v.Transfer env st (s₁.view.record _)
      rw [hv]
      exact .noMemory hc hp hm

/-! ### Commands -/

/-- The state that a command sets if it comes as far as opening its data connection: the
directory or the file can be opened. -/
def Command.transfer (env : Env) : Command → Option FtpdState
  | .list => if env.strdup ∧ env.opendir.isSome then some .list else none
  | .nlst => if env.strdup ∧ env.opendir.isSome then some .nlst else none
  | .retr => if (retrStat env).1 ∧ env.openFile.isSome then some .retr else none
  | .stor => if env.openFile.isSome then some .stor else none
  | _ => none

/-- The state that a command sets without a data connection. -/
def Command.nextState : Command → Option FtpdState
  | .user => some .pass
  | .pass => some .idle
  | .quit => some .quit
  | .abrt => some .idle
  | _ => none

/-- In `PASV` a port has been looked for, with a new session and a new control block. -/
def View.pasvBound (v : View) (h : Hold) (port : UInt16) : View :=
  (((v.alloc h).newPcb (.fresh none .created)).setControl
    fun c => { c with pcb := some v.nextPcb }).setPort port

/-- What `PASV` does: there is no memory for a session or for a control block, TCP does not
listen, or it does. -/
inductive View.Pasv (v : View) (env : Env) : View → Prop
  | noMemory (hm : env.mallocData = false) : Pasv v env v.forget
  | noPcb (hm : env.mallocData = true) (ht : env.tcpNew = false) :
      Pasv v env ((((v.alloc .zero).setControl fun c => { c with pcb := none }).drop
        v.next).record [.release (.session v.next)])
  | noListen {port : UInt16} (hm : env.mallocData = true) (ht : env.tcpNew = true)
      (hport : InPortRange port) (hl : env.tcpListen = false) :
      Pasv v env (((v.pasvBound (.fresh env) port).close v.next v.nextPcb
        (.fresh env)).setControl fun c => { c with current := none, pcb := none })
  | listening {port : UInt16} (hm : env.mallocData = true) (ht : env.tcpNew = true)
      (hport : InPortRange port) (hl : env.tcpListen = true) :
      Pasv v env ((((v.pasvBound (.fresh env) port).dropPcb v.nextPcb).newPcb
        (.fresh (some v.next) .listening)).setControl
          fun c => { c with pcb := some (v.nextPcb + 1), passive := true })

/-- `PASV` leaves the state as it is. -/
lemma View.Pasv.state {v v' : View} {env : Env} (h : v.Pasv env v') {c' : Control}
    (hc' : v'.control = some c') : ∃ c, v.control = some c ∧ c'.state = c.state := by
  cases h with
  | noMemory =>
    obtain ⟨c, hc, rfl⟩ := Option.map_eq_some_iff.mp hc'
    exact ⟨c, hc, rfl⟩
  | noPcb =>
    obtain ⟨c₁, hc₁, rfl⟩ := Option.map_eq_some_iff.mp hc'
    obtain ⟨c, hc, rfl⟩ := Option.map_eq_some_iff.mp hc₁
    exact ⟨c, hc, rfl⟩
  | noListen | listening =>
    simp only [View.setControl, View.close, View.pasvBound, View.forget, View.record,
      View.dropPcb, View.drop, View.newPcb, View.putPcb, View.setPort, View.alloc, View.put,
      Option.map_map] at hc'
    obtain ⟨c, hc, rfl⟩ := Option.map_eq_some_iff.mp hc'
    exact ⟨c, hc, rfl⟩

/-- The control session is gone, with the buffer of its FIFO. -/
def View.gone (v : View) (c : Control) : View :=
  { v.record (if c.buffer then [.release (.buffer none)] else []) with control := none }

/-- The control session is freed, with its current data session. -/
inductive View.Freed (v : View) : View → Prop
  | alone {c : Control} (hc : v.control = some c) (hcurrent : c.current = none) :
      Freed v (v.gone c)
  | session {c : Control} {d i : ℕ} {h : Hold} (hc : v.control = some c)
      (hcurrent : c.current = some d) (hcloses : v.Closes d c.pcb i h) :
      Freed v ((v.close d i h).gone c)

/-- What a command does to the sessions. -/
inductive View.Commanded (v : View) (env : Env) (c : Command) : View → Prop
  | same : Commanded v env c v
  | setState {st : FtpdState} (hst : c.nextState = some st) : Commanded v env c (v.setState st)
  | chdir {path : Str} (hc : c = .cwd ∨ c = .cdup) :
      Commanded v env c { v with cwd := (vfsChdir v.cwd path env.realloc env.isDir).2 }
  | transfer {st : FtpdState} {v' : View} (ht : c.transfer env = some st)
      (h : v.Transfer env st v') : Commanded v env c v'
  | pasv {v' : View} (hc : c = .pasv) (hcontrol : v.control ≠ none) (h : v.Pasv env v') :
      Commanded v env c v'

lemma dropDatafs_view {s : Sys} {c : Control} (hc : s.view.control = some c) (d : ℕ) :
    wp (dropDatafs d) (fun _ s' => ∃ i h, s.view.Closes d c.pcb i h ∧
      s'.view = (s.view.close d i h).setControl fun c => { c with current := none, pcb := none })
      OtherFault s := by
  unfold dropDatafs
  rw [wp_bind, wp_getMsg]
  refine ⟨fun m hm => ?_, fun _ => by decide⟩
  obtain rfl := Option.some.inj ((Sys.view_control hm).symm.trans hc)
  refine wp_seq (ftpdDataclose_view m.datapcb d s) ?_
  rintro _ s₁ ⟨i, h, hcloses, h₁⟩
  refine wp_mono (setMsg_view (g := fun c => { c with current := none, pcb := none })
    (fun _ => rfl) s₁) ?_ fun _ he => he
  rintro _ s' ⟨-, h'⟩
  exact ⟨i, h, hcloses, by rw [h', h₁]⟩

lemma View.pasvBound_put (v : View) (port : UInt16) {h h' : Hold} (hh : h'.buffer = h.buffer) :
    (v.pasvBound h port).put v.next h' = v.pasvBound h' port := by
  refine View.ext rfl ?_ rfl rfl rfl rfl rfl ?_ rfl
  · simp only [View.pasvBound, View.setPort, View.newPcb, View.putPcb, View.put, View.record,
      View.alloc, View.setControl, Function.update_idem]
  · simp only [View.pasvBound, View.setPort, View.newPcb, View.putPcb, View.put, View.record,
      View.alloc, View.setControl, Hold.opening, hh]

/-- After a port has been bound: TCP listens for the new session or the session is dropped. -/
lemma pasvListen_view {v : View} {s : Sys} {port : UInt16} {env : Env}
    (hs : s.view = v.pasvBound { Hold.fresh env with owned := false } port)
    (hm : env.mallocData = true) (ht : env.tcpNew = true) (hport : InPortRange port)
    (hcontrol : v.control ≠ none) :
    wp (pasvListen v.next v.nextPcb port env) (fun _ s' => v.Pasv env s'.view) OtherFault s := by
  unfold pasvListen
  refine wp_seq (setData_view (g := fun h => { h with owned := true }) (fun _ => rfl) s) ?_
  rintro _ s₁ ⟨h, hh, h₁⟩
  replace h₁ : s₁.view = v.pasvBound (.fresh env) port := by
    rw [hs] at hh h₁
    obtain rfl := Option.some.inj (View.alloc_sessions_next.symm.trans hh)
    rw [h₁]
    exact View.pasvBound_put v port rfl
  rw [wp_ite]
  refine ⟨fun hl => ?_, fun hl => ?_⟩
  · obtain ⟨c, hc⟩ := Option.ne_none_iff_exists'.mp hcontrol
    have hc₁ : s₁.view.control =
        some { c with current := some v.next, pcb := some v.nextPcb } := by
      rw [h₁, View.pasvBound]
      simp only [View.setPort, View.newPcb, View.putPcb, View.put, View.record, View.alloc,
        View.setControl, hc, Option.map_some]
    refine wp_mono (dropDatafs_view hc₁ _) ?_ fun _ he => he
    rintro _ s' ⟨i, h, hcloses, h'⟩
    obtain rfl := Option.some.inj hcloses.pcb
    have hsession := hcloses.session
    rw [h₁] at hsession
    obtain rfl := Option.some.inj (View.alloc_sessions_next.symm.trans hsession)
    rw [h', h₁]
    exact .noListen hm ht hport (by simpa using hl)
  · have hdrop : wp (modify fun s => { s with pcbs := Function.update s.pcbs v.nextPcb none } :
        FtpdM Unit) (fun _ s' => s'.view = s₁.view.dropPcb v.nextPcb) OtherFault s₁ := rfl
    refine wp_seq hdrop fun _ s₂ h₂ => ?_
    refine wp_seq (newPcb_view _ s₂) ?_
    rintro l s₃ ⟨rfl, h₃⟩
    refine wp_seq (setMsg_view (g := fun c => { c with
      pcb := some s₂.view.nextPcb, passive := true }) (fun _ => rfl) s₃) ?_
    rintro _ s₄ ⟨-, h₄⟩
    refine (quiet_setData fun _ => by rfl).wp_seq fun _ s₅ h₅ => ?_
    rw [wp_bind, wp_get]
    refine wp_mono (quiet_sendMsg _ _ s₅) (fun _ s' h' => ?_) fun _ he => he
    rw [h', h₅, h₄, h₃, h₂, h₁]
    exact .listening hm ht hport (by simpa using hl)

/-- The session gets its FIFO after its control block. -/
lemma View.pasvBound_fifo (v : View) (env : Env) (port : UInt16) :
    ((((((v.alloc .zero).newPcb (.fresh none .created)).setControl
      fun c => { c with pcb := some v.nextPcb }).record
        (bufferEntry env.mallocFifo (.acquire (.buffer (some v.next))))).put v.next
          { Hold.fresh env with owned := false }).setPort port) =
      v.pasvBound { Hold.fresh env with owned := false } port := by
  refine View.ext rfl ?_ rfl rfl rfl rfl rfl ?_ rfl
  · simp only [View.pasvBound, View.setPort, View.newPcb, View.putPcb, View.put, View.record,
      View.alloc, View.setControl, Function.update_idem]
  · exact List.append_assoc _ _ _

lemma cmdPasv_view (arg : Option Str) (env : Env) {s : Sys} (hport : InPortRange s.port) :
    wp (cmdPasv arg env) (fun _ s' => s.view.control ≠ none ∧ s.view.Pasv env s'.view)
      OtherFault s := by
  unfold cmdPasv
  rw [wp_ite]
  refine ⟨fun hmalloc => ?_, fun hmalloc => ?_⟩
  · refine wp_seq (setMsg_view (g := fun c => { c with current := none }) (fun _ => rfl) s) ?_
    rintro _ s₁ ⟨hcontrol, h₁⟩
    refine wp_mono (quiet_sendMsg _ _ s₁) (fun _ s' h' => ⟨hcontrol, ?_⟩) fun _ he => he
    rw [h', h₁]
    exact .noMemory (by simpa using hmalloc)
  replace hmalloc : env.mallocData = true := by simpa using hmalloc
  refine wp_seq (allocData_view s) ?_
  rintro _ s₁ ⟨rfl, hcontrol, h₁⟩
  refine wp_seq (tcpNew_view env s₁) ?_
  rintro pcb s₂ (⟨ht, rfl, h₂⟩ | ⟨ht, rfl, h₂⟩)
  swap
  · refine wp_seq (setMsg_view (g := fun c => { c with pcb := none }) (fun _ => rfl) s₂) ?_
    rintro _ s₃ ⟨-, h₃⟩
    refine wp_seq (freeData_view _ s₃) fun _ s₄ h₄ => ?_
    refine wp_mono (quiet_sendMsg _ _ s₄) (fun _ s' h' => ⟨hcontrol, ?_⟩) fun _ he => he
    rw [h', h₄, h₃, h₂, h₁]
    exact .noPcb hmalloc ht
  rw [show s₁.view.nextPcb = s.view.nextPcb by rw [h₁]; rfl]
  refine wp_seq (setMsg_view (g := fun c => { c with pcb := some s.view.nextPcb })
    (fun _ => rfl) s₂) ?_
  rintro _ s₃ ⟨-, h₃⟩
  refine wp_seq (dataFifo_view _ env s₃) ?_
  rintro f s₄ ⟨hf, h₄⟩
  refine wp_seq (setData_view (g := fun h => { h with buffer := f.buffer.isSome })
    (fun _ => rfl) s₄) ?_
  rintro _ s₅ ⟨h, hh, h₅⟩
  rw [h₄, h₃, h₂, h₁] at hh h₅
  obtain rfl := Option.some.inj (View.alloc_sessions_next.symm.trans hh)
  rw [hf] at h₅
  have hport₅ : s₅.port = s.port := congrArg View.port h₅
  obtain ⟨⟨port, bound⟩, hbind, hrange⟩ := bindLoop_spec hport env.tcpBind
  rw [wp_bind, wp_get, wp_bind, wp_get, hport₅, hbind]
  dsimp only
  rw [wp_bind, wp_modify]
  refine (quiet_setMsg fun _ => by rfl).wp_seq fun _ s₇ h₇ => ?_
  replace h₇ : s₇.view = s.view.pasvBound { Hold.fresh env with owned := false } port := by
    rw [h₇]
    refine Eq.trans ?_ (View.pasvBound_fifo s.view env port)
    exact congrArg (fun v : View => v.setPort port) h₅
  rw [wp_ite]
  refine ⟨fun _ => ?_, fun _ => wp_mono (pasvListen_view h₇ hmalloc ht hrange hcontrol)
    (fun _ s' h' => ⟨hcontrol, h'⟩) fun _ he => he⟩
  -- the session does not point back yet, so ftpd_dataclose does not come to an end
  unfold dropDatafs
  refine quiet_getMsg.wp_seq fun m s₈ h₈ => ?_
  refine wp_seq (ftpdDataclose_view _ _ s₈) ?_
  rintro _ s' ⟨i, h, hcloses, -⟩
  have hsession := hcloses.session
  rw [h₈, h₇] at hsession
  obtain rfl := Option.some.inj (View.alloc_sessions_next.symm.trans hsession)
  cases hcloses.owned

lemma freeMsg_view (s : Sys) :
    wp freeMsg (fun _ s' => s.view.Freed s'.view) OtherFault s := by
  unfold freeMsg
  rw [wp_bind, wp_getMsg]
  refine ⟨fun m hm => ?_, fun _ => by decide⟩
  have hc : s.view.control = some m.control := Sys.view_control hm
  cases hd : m.datafs with
  | none => exact .alone hc hd
  | some d =>
    refine wp_seq (ftpdDataclose_view m.datapcb d s) ?_
    rintro _ s₁ ⟨i, h, hcloses, h₁⟩
    rw [wp_bind, wp_record, wp_modify]
    show s.view.Freed (s₁.view.gone m.control)
    rw [h₁]
    exact .session hc hd hcloses

lemma commanded_of_quiet {m : FtpdM Unit} (hm : Quiet m) {env : Env} {c : Command} {s : Sys} :
    wp m (fun _ s' => s.view.Commanded env c s'.view) OtherFault s := by
  refine wp_mono (hm s) (fun _ s' h' => ?_) fun _ he => he
  rw [h']
  exact .same

/-- `USER`, `PASS` and `QUIT`: a reply, then the new state. -/
lemma sendMsg_setState_view {c : Command} {st : FtpdState} (hst : c.nextState = some st)
    (dr : Drain) (text : Str) (env : Env) (s : Sys) :
    wp (do sendMsg dr text; setMsg fun m => { m with state := st })
      (fun _ s' => s.view.Commanded env c s'.view) OtherFault s := by
  refine (quiet_sendMsg dr text).wp_seq fun _ s₁ h₁ => ?_
  refine wp_mono (setMsg_view (g := fun c => { c with state := st }) (fun _ => rfl) s₁) ?_
    fun _ he => he
  rintro _ s' ⟨-, h'⟩
  rw [h', h₁]
  exact .setState hst

lemma quiet_checkStr (arg : Option Str) : Quiet (checkStr arg) := by
  unfold checkStr
  cases arg with
  | none => exact keeps_throw (by decide)
  | some a => exact keeps_pure a

lemma quiet_cmdPort (arg : Option Str) (env : Env) : Quiet (cmdPort arg env) := by
  unfold cmdPort
  refine (quiet_checkStr arg).bind fun a => ?_
  split
  · exact (quiet_setMsg fun _ => by rfl).bind fun _ => quiet_sendMsg _ _
  · exact quiet_sendMsg _ _

lemma changeDir_view {c : Command} (hc : c = .cwd ∨ c = .cdup) (path : Str) (env : Env) (s : Sys) :
    wp (changeDir path env) (fun _ s' => s.view.Commanded env c s'.view) OtherFault s := by
  unfold changeDir
  rw [wp_bind, wp_get, wp_bind, wp_note]
  dsimp only
  rw [wp_ite]
  refine ⟨fun _ => (by decide : OtherFault .nullCopy), fun _ => ?_⟩
  rw [wp_bind, wp_modify]
  refine wp_mono (quiet_sendMsg _ _ _) (fun _ s' h' => ?_) fun _ he => he
  rw [h']
  exact .chdir hc

lemma quiet_removePath (arg : Str) (call : Call) (ok : Bool) (env : Env) :
    Quiet (removePath arg call ok env) := by
  unfold removePath
  refine (quiet_note _).bind fun _ => keeps_ite ?_ (quiet_sendMsg _ _)
  exact (quiet_note _).bind fun _ => quiet_sendMsg _ _

lemma quiet_withArg {body : Str → FtpdM Unit} (hbody : ∀ a, Quiet (body a)) (arg : Option Str)
    (env : Env) : Quiet (withArg arg env body) := by
  unfold withArg
  cases arg with
  | none => exact quiet_sendMsg _ _
  | some a => exact keeps_ite (quiet_sendMsg _ _) (hbody a)

lemma cmdListCommon_view (shortlist : Bool) {c : Command} (env : Env)
    (hc : env.strdup = true → env.opendir.isSome = true →
      c.transfer env = some (if shortlist then .nlst else .list)) (s : Sys) :
    wp (cmdListCommon shortlist env) (fun _ s' => s.view.Commanded env c s'.view) OtherFault s := by
  unfold cmdListCommon
  rw [wp_ite]
  refine ⟨fun _ => commanded_of_quiet (quiet_sendMsg _ _), fun hstrdup => ?_⟩
  rw [wp_bind, wp_get, wp_bind, wp_vfsOpendir]
  refine ⟨fun _ => commanded_of_quiet (quiet_sendMsg _ _), fun dir hdir => ?_⟩
  have htransfer := hc (by simpa using hstrdup) (by rw [hdir, Option.isSome_some])
  have hopens : ∀ n, FtpdState.opens n (if shortlist then .nlst else .list) = .dir n := by
    intro n
    cases shortlist with
    | true => rfl
    | false => rfl
  have hgive : ∀ x : DataState, ({ x with
      vfsDir := some dir, dirHandle := s.nextHandle, vfsDirent := none } : DataState).hold =
      x.hold.give s.view.handles (if shortlist then .nlst else .list) := by
    intro x
    cases shortlist with
    | true => rfl
    | false => rfl
  dsimp only
  rw [← hopens s.nextHandle]
  refine wp_mono (openTransfer_view (v := s.view) (fun s₁ => ?_) env.msg₁ env rfl)
    (fun _ s' h' => .transfer htransfer h') fun _ he => he
  refine wp_seq (installTransfer_view hgive s₁) fun _ s₂ h₂ => ?_
  refine wp_mono (quiet_sendMsg _ _ s₂) (fun _ s' h' => ?_) fun _ he => he
  rwa [h']

lemma startTransfer_view {st : FtpdState} (hst : st = .retr ∨ st = .stor) {c : Command}
    {env : Env} (hc : c.transfer env = some st) (file : VfsFile) (text : Str) {v : View} {s : Sys}
    (hs : s.view = v.opened st) :
    wp (startTransfer file v.handles text st env) (fun _ s' => v.Commanded env c s'.view)
      OtherFault s := by
  unfold startTransfer
  refine (quiet_sendMsg _ _).wp_seq fun _ s₁ h₁ => ?_
  have hopens : FtpdState.opens v.handles st = .file v.handles := by
    rcases hst with rfl | rfl
    · rfl
    · rfl
  rw [← hopens]
  refine wp_mono (openTransfer_view (fun s₂ => ?_) env.msg₂ env (h₁.trans hs))
    (fun _ s' h' => .transfer hc h') fun _ he => he
  refine installTransfer_view (fun x => ?_) s₂
  rcases hst with rfl | rfl
  · rfl
  · rfl

/-- The common part of `cmd_retr` and `cmd_stor` with the opening of the file. -/
lemma openFile_view {st : FtpdState} (hst : st = .retr ∨ st = .stor) {c : Command} {env : Env}
    (hc : env.openFile.isSome = true → c.transfer env = some st) (arg : Str)
    (text : Str) (s : Sys) :
    wp (do
      match ← vfsOpen arg env with
      | none => sendMsg env.msg₁ msg550
      | some (file, h) => startTransfer file h text st env)
      (fun _ s' => s.view.Commanded env c s'.view) OtherFault s := by
  rw [wp_bind, wp_vfsOpen]
  refine ⟨fun _ => commanded_of_quiet (quiet_sendMsg _ _), fun file hfile => ?_⟩
  refine startTransfer_view hst (hc (by rw [hfile, Option.isSome_some])) file text (v := s.view) ?_
  rcases hst with rfl | rfl
  · rfl
  · rfl

lemma cmdRetr_view (arg : Option Str) (env : Env) (s : Sys) :
    wp (cmdRetr arg env) (fun _ s' => s.view.Commanded env .retr s'.view) OtherFault s := by
  unfold cmdRetr
  refine (quiet_checkStr arg).wp_seq fun a s₁ h₁ => ?_
  refine (quiet_note _).wp_seq fun _ s₂ h₂ => ?_
  rw [← h₁, ← h₂, wp_ite]
  refine ⟨fun _ => commanded_of_quiet (quiet_sendMsg _ _), fun hreg => ?_⟩
  refine openFile_view (.inl rfl) (fun hfile => ?_) a _ s₂
  rw [Command.transfer, if_pos ⟨by simpa using hreg, hfile⟩]

lemma cmdStor_view (arg : Option Str) (env : Env) (s : Sys) :
    wp (cmdStor arg env) (fun _ s' => s.view.Commanded env .stor s'.view) OtherFault s := by
  unfold cmdStor
  refine (quiet_checkStr arg).wp_seq fun a s₁ h₁ => ?_
  rw [← h₁]
  refine openFile_view (.inr rfl) (fun hfile => ?_) a _ s₁
  rw [Command.transfer, if_pos hfile]

/-- `ABOR` comes to an end only when there is no data session: otherwise the control session
is freed and then used. -/
lemma cmdAbrt_view (arg : Option Str) (env : Env) (s : Sys) :
    wp (cmdAbrt arg env) (fun _ s' => s.view.Commanded env .abrt s'.view) OtherFault s := by
  unfold cmdAbrt
  rw [wp_bind, wp_getMsg]
  refine ⟨fun m hm => ?_, fun _ => by decide⟩
  cases hd : m.datafs with
  | none =>
    refine wp_mono (setMsg_view (g := fun c => { c with state := .idle }) (fun _ => rfl) s) ?_
      fun _ he => he
    rintro _ s' ⟨-, h'⟩
    rw [h']
    exact .setState rfl
  | some d =>
    refine wp_seq (setPcb_view_dropPcb _ _ s) fun _ s₁ _ => ?_
    refine wp_seq (freeMsg_view s₁) fun _ s₂ h₂ => ?_
    have hgone : s₂.fsm = none := by
      generalize hv : s₂.view = v₂ at h₂
      have hnone : s₂.view.control = none := by
        rw [hv]
        cases h₂ with
        | alone => rfl
        | session => rfl
      exact Option.map_eq_none_iff.mp hnone
    rw [wp_bind, wp_checkDatafs, hgone]
    exact ⟨fun _ hm => (by cases hm), fun _ => by decide⟩

/-- **Every command does to the sessions what `View.Commanded` says.** -/
theorem Command.run_view (c : Command) (arg : Option Str) (env : Env) {s : Sys}
    (hport : InPortRange s.port) :
    wp (c.run arg env) (fun _ s' => s.view.Commanded env c s'.view) OtherFault s := by
  cases c with
  | user => exact sendMsg_setState_view rfl _ _ env s
  | pass => exact sendMsg_setState_view rfl _ _ env s
  | quit => exact sendMsg_setState_view rfl _ _ env s
  | port => exact commanded_of_quiet (quiet_cmdPort arg env)
  | cwd =>
    refine (quiet_checkStr arg).wp_seq fun a s₁ h₁ => ?_
    rw [← h₁]
    exact changeDir_view (.inl rfl) a env s₁
  | cdup => exact changeDir_view (.inr rfl) _ env s
  | pwd =>
    refine commanded_of_quiet ?_
    exact keeps_ite (keeps_get.bind fun _ => quiet_sendMsg _ _) (keeps_pure _)
  | nlst => exact cmdListCommon_view (c := .nlst) true env (fun h₁ h₂ => if_pos ⟨h₁, h₂⟩) s
  | list => exact cmdListCommon_view (c := .list) false env (fun h₁ h₂ => if_pos ⟨h₁, h₂⟩) s
  | retr => exact cmdRetr_view arg env s
  | stor => exact cmdStor_view arg env s
  | noop => exact commanded_of_quiet (m := cmdNoop arg env) (quiet_sendMsg _ _)
  | syst => exact commanded_of_quiet (m := cmdSyst arg env) (quiet_sendMsg _ _)
  | abrt => exact cmdAbrt_view arg env s
  | type =>
    exact commanded_of_quiet ((quiet_checkStr arg).bind fun _ => quiet_sendMsg _ _)
  | mode => exact commanded_of_quiet (m := cmdMode arg env) (quiet_sendMsg _ _)
  | rnfr => exact commanded_of_quiet (m := cmdRnfr arg env) (quiet_sendMsg _ _)
  | rnto => exact commanded_of_quiet (m := cmdRnto arg env) (quiet_sendMsg _ _)
  | mkd =>
    refine commanded_of_quiet (quiet_withArg (fun _ => ?_) arg env)
    exact (quiet_note _).bind fun _ => quiet_sendMsg _ _
  | rmd => exact commanded_of_quiet (quiet_withArg (fun _ => quiet_removePath _ _ _ _) arg env)
  | dele => exact commanded_of_quiet (quiet_withArg (fun _ => quiet_removePath _ _ _ _) arg env)
  | pasv =>
    exact wp_mono (cmdPasv_view arg env hport) (fun _ s' h' => .pasv rfl h'.1 h'.2) fun _ he => he

end Teensy41Ethernet.Ftpd
