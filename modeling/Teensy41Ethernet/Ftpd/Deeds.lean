import Teensy41Ethernet.Ftpd.Lines

/-!
# What the commands say and ask for

Seen from the client and from the SD card, a command is a list of deeds: replies to the
client, calls of the SD library, and a change of the working directory.  This file gives for
each command the list of its deeds as a function of its argument, of what the environment
answers and of the state before it, and `none` where the handler stops with a fault; and it
proves that the handlers do just that.  Which replies there are, what they say and which
paths the commands use can then be read off the lists.
-/

namespace Teensy41Ethernet.Ftpd

open Lib Lwip

/-! ### Deeds -/

/-- What the client and the SD card can see: the control FIFO, what has happened on the control
connection, the calls of the SD library and the working directory. -/
@[ext] structure Front where
  fifo : Option Sfifo
  log : List Action
  calls : List Call
  cwd : Str

def Action.onControl : Action → Bool
  | .reply _ _ | .control _ => true
  | .data _ _ _ | .close _ => false

def Sys.front (s : Sys) : Front where
  fifo := s.fsm.map MsgState.fifo
  log := s.log.filter Action.onControl
  calls := s.calls
  cwd := s.cwd

/-- A reply, a call of the SD library, and the change to another working directory. -/
inductive Deed where
  | say (dr : Drain) (text : Str)
  | ask (c : Call)
  | enter (cwd : Str)
deriving DecidableEq

/-- One deed.  A reply for which the control FIFO has no room, or no buffer, is dropped. -/
def Front.act (v : Front) : Deed → Front
  | .say dr text =>
      match v.fifo with
      | none => v
      | some f =>
        if sfifoSpace f < (text ++ lit "\r\n").length then
          { v with log := v.log ++ [.reply text false] }
        else
          let w := sfifoWrite f (text ++ lit "\r\n")
          let r := sendMsgdata w.2 dr
          { v with
            fifo := some r.2
            log := v.log ++ [.reply text (w.1 = (text ++ lit "\r\n").length),
              .control r.1.flatten] }
  | .ask c => { v with calls := v.calls ++ [c] }
  | .enter cwd => { v with cwd := cwd }

def Front.acts (v : Front) (l : List Deed) : Front := l.foldl Front.act v

/-- A reply is dropped. -/
lemma Front.act_say_full {v : Front} {f : Sfifo} (hfifo : v.fifo = some f) (dr : Drain)
    {text : Str} (hroom : sfifoSpace f < (text ++ lit "\r\n").length) :
    v.act (.say dr text) = { v with log := v.log ++ [.reply text false] } := by
  rw [Front.act, hfifo]
  exact if_pos hroom

/-- A reply goes to the control FIFO, and what TCP takes goes on. -/
lemma Front.act_say_room {v : Front} {f : Sfifo} (hfifo : v.fifo = some f) (dr : Drain)
    {text : Str} (hroom : ¬ sfifoSpace f < (text ++ lit "\r\n").length) :
    v.act (.say dr text) = { v with
      fifo := some (sendMsgdata (sfifoWrite f (text ++ lit "\r\n")).2 dr).2
      log := v.log ++
        [.reply text ((sfifoWrite f (text ++ lit "\r\n")).1 = (text ++ lit "\r\n").length),
          .control (sendMsgdata (sfifoWrite f (text ++ lit "\r\n")).2 dr).1.flatten] } := by
  rw [Front.act, hfifo]
  exact if_neg hroom

/-- One reply, unless it is too long for the buffer of `send_msg`. -/
def say (dr : Drain) (text : Str) : Option (List Deed) :=
  if (text ++ lit "\r\n").length + 1 > 1024 then none else some [.say dr text]

lemma say_eq_some {dr : Drain} {text : Str} {l : List Deed} (h : say dr text = some l) :
    l = [.say dr text] ∧ (text ++ lit "\r\n").length + 1 ≤ 1024 := by
  unfold say at h
  split at h
  · cases h
  · next hshort => exact ⟨(Option.some.inj h).symm, not_lt.mp hshort⟩

/-- A deed before others. -/
def Deed.before (d : Deed) (o : Option (List Deed)) : Option (List Deed) := o.map (d :: ·)

lemma Deed.before_eq_some {d : Deed} {o : Option (List Deed)} {l : List Deed}
    (h : d.before o = some l) : ∃ l', o = some l' ∧ l = d :: l' := by
  obtain ⟨l', hl', rfl⟩ := Option.map_eq_some_iff.mp h
  exact ⟨l', hl', rfl⟩

/-- The replies that repeat nothing. -/
def fixedReplies : List Str :=
  [msg150, msg200, msg214SYST (lit "UNIX"), msg220, msg221, msg226, msg230, msg250, msg331, msg451,
    msg501, msg502, msg550]

lemma fixedReplies_short : ∀ text ∈ fixedReplies, (text ++ lit "\r\n").length + 1 ≤ 1024 := by
  decide +kernel

/-- Whether a transfer gets a data session: the current one over passive connections, a new one
over active connections; `none` if the session that it uses or its control block is missing. -/
def Sys.opening (s : Sys) (env : Env) : Option Bool :=
  s.fsm.bind fun m =>
    if m.passive then m.datafs.bind fun d => (s.data d).map fun _ => true
    else if !env.mallocData then some false
    else if env.tcpNew then some true
    else none

/-- The deeds of `cmd_cwd` and `cmd_cdup`. -/
def changeDirDeeds (path : Str) (env : Env) (s : Sys) : Option (List Deed) :=
  let r := vfsChdir s.cwd path env.realloc env.isDir
  Deed.before (.ask (.chdir ((chdirPath s.cwd path env.realloc).getD s.cwd))) <|
    if !r.1 ∧ !env.strdup then none
    else Deed.before (.enter r.2) (say env.msg₁ (if r.1 then msg250 else msg550))

/-- The deeds of `cmd_list_common`. -/
def listDeeds (env : Env) (s : Sys) : Option (List Deed) :=
  if !env.strdup then say env.msg₁ msg451
  else
    Deed.before (.ask (.opendir s.cwd)) <|
      match env.opendir with
      | none => say env.msg₁ msg451
      | some _ => (s.opening env).bind fun ready =>
          say env.msg₁ (if ready then msg150 else msg451)

/-- The deeds of `cmd_retr` and `cmd_stor` from the opening of the file on.  If there is no
memory for a data session, a second reply follows the first. -/
def openFileDeeds (arg text : Str) (env : Env) (s : Sys) : Option (List Deed) :=
  Deed.before (.ask (.openFile arg)) <|
    match env.openFile with
    | none => say env.msg₁ msg550
    | some _ => (say env.msg₁ text).bind fun l => (s.opening env).map fun ready =>
        if ready then l else l ++ [.say env.msg₂ msg451]

/-- The reply of `cmd_retr` to a file that can be sent. -/
def retrText (arg : Str) (env : Env) : Str :=
  lit "150 Opening BINARY mode data connection for " ++ arg ++ lit " (" ++
    decInt (retrStat env).2 ++ lit " bytes)."

/-- The reply of `cmd_stor` to a file that can be written. -/
def storText (arg : Str) : Str :=
  lit "150 Opening BINARY mode data connection for " ++ arg ++ lit "."

/-- The deeds of `cmd_rmd` and `cmd_dele`. -/
def removeDeeds (arg : Str) (call : Call) (ok : Bool) (env : Env) : Option (List Deed) :=
  Deed.before (.ask (.stat arg)) <|
    if env.stat.isSome then
      Deed.before (.ask call) (say env.msg₁ (if ok then msg250 else msg550))
    else say env.msg₁ msg550

/-- The deeds of a command that checks for an argument. -/
def argDeeds (arg : Option Str) (env : Env) (deeds : Str → Option (List Deed)) :
    Option (List Deed) :=
  match arg with
  | none => say env.msg₁ msg501
  | some arg => if arg = [] then say env.msg₁ msg501 else deeds arg

/-- The deeds of `cmd_pasv`.  If no port can be bound, the handler stops with a fault; if TCP
cannot listen, there is no reply. -/
def pasvDeeds (env : Env) (s : Sys) : Option (List Deed) :=
  if !env.mallocData then say env.msg₁ msg451
  else if !env.tcpNew then say env.msg₁ msg451
  else
    match bindLoop env.tcpBind s.port (2 ^ 16) s.port with
    | none | some (_, false) => none
    | some (port, true) => if env.tcpListen then say env.msg₁ (msg227 s.localIp port) else some []

/-- The deeds of a command in the state `s`, `none` if its handler stops with a fault. -/
def Command.deeds (c : Command) (arg : Option Str) (env : Env) (s : Sys) : Option (List Deed) :=
  match c with
  | .user => say env.msg₁ msg331
  | .pass => say env.msg₁ msg230
  | .port => arg.bind fun a =>
      match scanPort a with
      | some [_, _, _, _, _, _] => say env.msg₁ msg200
      | _ => say env.msg₁ msg501
  | .quit => say env.msg₁ msg221
  | .cwd => arg.bind fun path => changeDirDeeds path env s
  | .cdup => changeDirDeeds (lit "..") env s
  | .pwd =>
      if env.strdup then say env.msg₁ (lit "257 \"" ++ s.cwd ++ lit "\" is current directory.")
      else some []
  | .nlst | .list => listDeeds env s
  | .retr => arg.bind fun a => Deed.before (.ask (.stat a)) <|
      if !(retrStat env).1 then say env.msg₁ msg550 else openFileDeeds a (retrText a env) env s
  | .stor => arg.bind fun a => openFileDeeds a (storText a) env s
  | .noop => say env.msg₁ msg200
  | .syst => say env.msg₁ (msg214SYST (lit "UNIX"))
  | .abrt => if (s.fsm.bind MsgState.datafs).isSome then none else some []
  | .type => arg.bind fun a =>
      say env.msg₁ (if a ≠ lit "A" ∧ a ≠ lit "I" then msg502 else msg200)
  | .mode => say env.msg₁ msg502
  | .rnfr | .rnto => say env.msg₁ (lit "TODO")
  | .mkd => argDeeds arg env fun a => Deed.before (.ask (.mkdir a)) <|
      say env.msg₁ (if env.mkdir then lit "257 \"" ++ a ++ lit "\" created." else msg550)
  | .rmd => argDeeds arg env fun a => removeDeeds a (.rmdir a) env.rmdir env
  | .dele => argDeeds arg env fun a => removeDeeds a (.remove a) env.remove env
  | .pasv => pasvDeeds env s

/-! ### The handlers -/

/-- From `s`, whose front is `v` after what was done before, the program does what `o` says. -/
def Does (v : Front) (m : FtpdM Unit) (s : Sys) (o : Option (List Deed)) : Prop :=
  wp m (fun _ s' => ∃ l, o = some l ∧ s'.front = v.acts l) (fun _ => o = none) s

section Does

variable {v : Front} {prog : FtpdM Unit} {s : Sys} {o : Option (List Deed)} {m : MsgState}
  {env : Env}

/-- A program with a list of deeds returns and has done them. -/
lemma Does.returns {l : List Deed} (h : Does v prog s (some l)) :
    ∃ s', prog.run s = .ok ((), s') ∧ s'.front = v.acts l := by
  have hwp : wp prog (fun _ s' => s'.front = v.acts l) (fun _ => False) s := by
    refine wp_mono h ?_ fun _ hnone => Option.some_ne_none l hnone
    rintro _ s' ⟨l', hl', hfront⟩
    rwa [Option.some.inj hl']
  obtain ⟨_, s', hrun, hfront⟩ := wp_returns hwp
  exact ⟨s', hrun, hfront⟩

lemma Does.before {d : Deed} (h : Does (v.act d) prog s o) : Does v prog s (d.before o) := by
  refine wp_mono h ?_ ?_
  · rintro _ s' ⟨l, rfl, hs'⟩
    exact ⟨d :: l, rfl, hs'⟩
  · rintro _ rfl
    rfl

/-- Nothing is done but what does not show. -/
lemma does_nothing (hs : s.front = v) : Does v (pure ()) s (some []) := ⟨[], rfl, hs⟩

/-- A change of the control session that leaves its FIFO as it is. -/
lemma Sys.front_setMsg (hm : s.fsm = some m) {m' : MsgState} (hfifo : m'.fifo = m.fifo) :
    ({ s with fsm := some m' } : Sys).front = s.front := by
  simp only [Sys.front, hm, Option.map_some, hfifo]

/-- A reply changes the control FIFO and the log, and nothing else. -/
lemma sendMsg_does (hm : s.fsm = some m) (dr : Drain) (text : Str) :
    wp (sendMsg dr text) (fun _ s' => say dr text = some [.say dr text] ∧
      s'.front = s.front.act (.say dr text) ∧
      ∃ fifo log, s' = { s with fsm := some { m with fifo := fifo }, log := log })
      (fun _ => say dr text = none) s := by
  unfold sendMsg say
  dsimp only
  rw [wp_ite]
  refine ⟨fun hlong => if_pos hlong, fun hshort => ?_⟩
  rw [wp_bind, wp_getMsg_of hm]
  have hfront : s.front.fifo = some m.fifo := by rw [Sys.front, hm, Option.map_some]
  rw [wp_ite]
  refine ⟨fun hroom => ?_, fun hroom => ?_⟩
  · refine ⟨if_neg hshort, ?_, m.fifo, _, by rw [← hm]⟩
    rw [Front.act_say_full hfront dr hroom]
    exact Front.ext rfl (List.filter_append _ _) rfl rfl
  · rw [wp_bind, wp_setMsg_of hm]
    rw [wp_bind, wp_emit, wp_emit]
    refine ⟨if_neg hshort, ?_, _, _, rfl⟩
    rw [Front.act_say_room hfront dr hroom]
    refine Front.ext rfl ?_ rfl rfl
    simp only [Sys.front, List.append_assoc, List.filter_append]
    rfl

lemma does_sendMsg (hm : s.fsm = some m) (hs : s.front = v) (dr : Drain) (text : Str) :
    Does v (sendMsg dr text) s (say dr text) := by
  refine wp_mono (sendMsg_does hm dr text) ?_ fun _ h => h
  rintro _ s' ⟨hsay, hs', -⟩
  exact ⟨_, hsay, by rw [hs', hs]; rfl⟩

/-- A reply and a change of the state. -/
lemma does_sendMsg_setMsg (hm : s.fsm = some m) (hs : s.front = v) (dr : Drain) (text : Str)
    {f : MsgState → MsgState} (hf : ∀ m, (f m).fifo = m.fifo) :
    Does v (do sendMsg dr text; setMsg f) s (say dr text) := by
  refine wp_seq (sendMsg_does hm dr text) ?_
  rintro _ s₁ ⟨hsay, hs₁, fifo, log, rfl⟩
  rw [wp_setMsg]
  refine ⟨fun m₁ hm₁ => ⟨_, hsay, ?_⟩, fun h => (by cases h)⟩
  rw [Sys.front_setMsg hm₁ (hf m₁), hs₁, hs]
  rfl

/-- The pointer to the current data session leads to one. -/
def Sys.Current (s : Sys) : Prop :=
  ∃ m d x, s.fsm = some m ∧ m.datafs = some d ∧ s.data d = some x

/-- `installTransfer` does nothing that shows, and needs a current data session. -/
lemma installTransfer_does (f : DataState → DataState) (state : FtpdState) :
    wp (installTransfer f state)
      (fun _ s' => s.Current ∧ s'.front = s.front ∧ ∃ m', s'.fsm = some m')
      (fun _ => ¬ s.Current) s := by
  rw [wp_installTransfer]
  refine ⟨fun m hm => ⟨fun d hd => ⟨fun x hx => ?_, fun hnone => ?_⟩, fun hnone => ?_⟩,
    fun hnone => ?_⟩
  · exact ⟨⟨m, d, x, hm, hd, hx⟩, by simp only [Sys.front, hm, Option.map_some], _, rfl⟩
  · rintro ⟨m', d', x, hm', hd', hx⟩
    obtain rfl := Option.some.inj (hm.symm.trans hm')
    obtain rfl := Option.some.inj (hd.symm.trans hd')
    rw [hnone] at hx
    cases hx
  · rintro ⟨m', d', x, hm', hd', -⟩
    obtain rfl := Option.some.inj (hm.symm.trans hm')
    rw [hnone] at hd'
    cases hd'
  · rintro ⟨m', d', x, hm', -⟩
    rw [hnone] at hm'
    cases hm'

end Does

/-! ### New data sessions -/

/-- The data session `d` has just been allocated for the control session, and so far nothing
shows. -/
structure Sys.Prepared (s : Sys) (v : Front) (d : ℕ) : Prop where
  front : s.front = v
  control : ∃ m, s.fsm = some m ∧ m.datafs = some d
  data : ∃ x, s.data d = some x

section Prepared

variable {v : Front} {d : ℕ} {s : Sys} {E : Fault → Prop} {env : Env}

lemma allocData_prepared {m : MsgState} (hm : s.fsm = some m) :
    wp allocData (fun d s' => s'.Prepared s.front d) E s := by
  unfold allocData
  rw [wp_bind, wp_get, wp_bind, wp_record, wp_bind, wp_modify, wp_bind, wp_setMsg]
  refine ⟨fun m' hm' => ?_, fun hnone => ?_⟩
  · refine ⟨?_, ⟨_, rfl, rfl⟩, DataState.zero, Function.update_self _ _ _⟩
    exact Sys.front_setMsg (s := s) hm' rfl
  · exact absurd (hm.symm.trans hnone) (Option.some_ne_none _)

namespace Sys.Prepared

lemma setData (h : s.Prepared v d) (f : DataState → DataState) :
    wp (setData d f) (fun _ s' => s'.Prepared v d) E s := by
  obtain ⟨x, hx⟩ := h.data
  rw [wp_setData_of hx]
  exact ⟨h.front, h.control, _, Function.update_self _ _ _⟩

lemma setMsg (h : s.Prepared v d) {f : MsgState → MsgState}
    (hf : ∀ m, (f m).fifo = m.fifo ∧ (f m).datafs = m.datafs) :
    wp (setMsg f) (fun _ s' => s'.Prepared v d ∧ s'.pcbs = s.pcbs) E s := by
  obtain ⟨m, hm, hd⟩ := h.control
  rw [wp_setMsg_of hm]
  refine ⟨⟨?_, ⟨_, rfl, (hf m).2.trans hd⟩, h.data⟩, rfl⟩
  rw [Sys.front_setMsg hm (hf m).1, h.front]

lemma dataFifo (h : s.Prepared v d) :
    wp (dataFifo d env) (fun _ s' => s'.Prepared v d) E s := by
  obtain ⟨rc, f, hinit, -⟩ :=
    sfifoInit_spec (show (2000 : ℤ) < 2 ^ 30 by norm_num) env.mallocFifo
  unfold Ftpd.dataFifo
  rw [hinit]
  exact ⟨h.front, h.control, h.data⟩

/-- A new control block, if there is memory for it. -/
lemma tcpNew (h : s.Prepared v d) :
    wp (tcpNew env) (fun pcb s' => s'.Prepared v d ∧
      (env.tcpNew = true → ∃ i p, pcb = some i ∧ s'.pcbs i = some p) ∧
      (env.tcpNew = false → pcb = none)) E s := by
  unfold Ftpd.tcpNew newPcb
  rw [wp_ite]
  refine ⟨fun hnew => ?_, fun hno => ?_⟩
  · rw [wp_bind, wp_bind, wp_get, wp_bind, wp_modify]
    refine ⟨⟨h.front, h.control, h.data⟩, fun _ => ⟨_, _, rfl, Function.update_self _ _ _⟩, ?_⟩
    intro hno
    rw [hnew] at hno
    cases hno
  · exact ⟨h, fun hnew => absurd hnew hno, fun _ => rfl⟩

lemma setPcb (h : s.Prepared v d) {i : ℕ} {p : Pcb} (hp : s.pcbs i = some p) (f : Pcb → Pcb) :
    wp (setPcb (some i) f) (fun _ s' => s'.Prepared v d ∧ s'.pcbs i = some (f p)) E s := by
  rw [wp_setPcb]
  refine ⟨fun h => (by cases h), fun j hj q hq => ?_, fun j hj hnone => ?_⟩
  · obtain rfl := Option.some.inj hj
    obtain rfl := Option.some.inj (hp.symm.trans hq)
    exact ⟨⟨h.front, h.control, h.data⟩, Function.update_self _ _ _⟩
  · obtain rfl := Option.some.inj hj
    exact absurd (hp.symm.trans hnone) (Option.some_ne_none _)

end Sys.Prepared

end Prepared

lemma Sys.Prepared.current {s : Sys} {v : Front} {d : ℕ} (h : s.Prepared v d) : s.Current := by
  obtain ⟨m, hm, hd⟩ := h.control
  obtain ⟨x, hx⟩ := h.data
  exact ⟨m, d, x, hm, hd, hx⟩

/-! ### Transfers -/

section Transfers

variable {v : Front} {s : Sys} {m : MsgState} {env : Env}

lemma opening_passive (hm : s.fsm = some m) (hp : m.passive = true) (env : Env) :
    s.opening env = m.datafs.bind fun d => (s.data d).map fun _ => true := by
  rw [Sys.opening, hm, Option.bind_some, if_pos hp]

lemma opening_active (hm : s.fsm = some m) (hp : m.passive = false) (env : Env) :
    s.opening env =
      if !env.mallocData then some false else if env.tcpNew then some true else none := by
  rw [Sys.opening, hm, Option.bind_some, if_neg (by rw [hp]; exact Bool.false_ne_true)]

lemma opening_of_current (hm : s.fsm = some m) (hp : m.passive = true) (hcurrent : s.Current) :
    s.opening env = some true := by
  obtain ⟨m', d, x, hm', hd, hx⟩ := hcurrent
  obtain rfl := Option.some.inj (hm.symm.trans hm')
  rw [opening_passive hm hp, hd, Option.bind_some, hx, Option.map_some]

lemma opening_of_not_current (hm : s.fsm = some m) (hp : m.passive = true)
    (hcurrent : ¬ s.Current) : s.opening env = none := by
  rw [opening_passive hm hp, Option.bind_eq_none_iff]
  intro d hd
  rw [Option.map_eq_none_iff, Option.eq_none_iff_forall_ne_some]
  exact fun x hx => hcurrent ⟨m, d, x, hm, hd, hx⟩

lemma say_msg451 (dr : Drain) : say dr msg451 = some [.say dr msg451] := if_neg (by decide)

/-- `open_dataconnection` over active connections, with memory for a data session: it needs a
control block. -/
lemma openActive_does (hm : s.fsm = some m) :
    wp (do
        let d ← allocData
        setData d fun x => { x with msgfs := true, msgpcb := true }
        let fifo ← dataFifo d env
        setData d fun x => { x with fifo := fifo }
        let pcb ← tcpNew env
        setMsg fun m => { m with datapcb := pcb }
        setPcb pcb fun p => { p with arg := some d }
        let i ← checkPcb pcb
        setPcb (some i) fun p => if env.tcpConnect then { p with state := .connecting } else p
        return true)
      (fun b s' => b = true ∧ env.tcpNew = true ∧ s'.front = s.front ∧ s'.Current)
      (fun f => f = .nullPcb ∧ env.tcpNew = false) s := by
  refine wp_seq (allocData_prepared hm) fun d s₁ h₁ => ?_
  refine wp_seq (h₁.setData _) fun _ s₂ h₂ => ?_
  refine wp_seq h₂.dataFifo fun fifo s₃ h₃ => ?_
  refine wp_seq (h₃.setData _) fun _ s₄ h₄ => ?_
  refine wp_seq h₄.tcpNew ?_
  rintro pcb s₅ ⟨h₅, hnew, hno⟩
  refine wp_seq (h₅.setMsg fun _ => ⟨rfl, rfl⟩) ?_
  rintro _ s₆ ⟨h₆, hpcbs⟩
  cases htcp : env.tcpNew with
  | false =>
    obtain rfl := hno htcp
    rw [wp_bind, wp_setPcb]
    refine ⟨fun _ => ?_, fun _ h => (by cases h), fun _ h => (by cases h)⟩
    rw [wp_bind, wp_checkPcb]
    exact ⟨fun _ h => (by cases h), fun _ => ⟨rfl, rfl⟩, fun _ h => (by cases h)⟩
  | true =>
    obtain ⟨i, p, rfl, hp⟩ := hnew htcp
    rw [← hpcbs] at hp
    refine wp_seq (h₆.setPcb hp _) ?_
    rintro _ s₇ ⟨h₇, hp₇⟩
    rw [wp_bind, wp_checkPcb]
    refine ⟨fun j hj _ _ => ?_, fun h => (by cases h), fun j hj hnone => ?_⟩
    · obtain rfl := Option.some.inj hj
      refine wp_seq (h₇.setPcb hp₇ _) ?_
      rintro _ s₈ ⟨h₈, -⟩
      exact ⟨rfl, rfl, h₈.front, h₈.current⟩
    · obtain rfl := Option.some.inj hj
      exact absurd (hp₇.symm.trans hnone) (Option.some_ne_none _)

/-- What `open_dataconnection` leaves behind: a current data session, if the transfer gets one;
or a reply. -/
inductive Opened (dr : Drain) (env : Env) (s s' : Sys) : Bool → Prop
  | ready (hfront : s'.front = s.front) (hyes : s'.Current → s.opening env = some true)
      (hno : ¬ s'.Current → s.opening env = none) : Opened dr env s s' true
  | refused (hfront : s'.front = s.front.act (.say dr msg451))
      (hopening : s.opening env = some false) : Opened dr env s s' false

/-- `open_dataconnection`: over passive connections nothing happens; over active connections a
data session is allocated and connected, or there is a reply. -/
lemma openDataconnection_does (hm : s.fsm = some m) (dr : Drain) :
    wp (openDataconnection dr env) (fun b s' => Opened dr env s s' b)
      (fun _ => s.opening env = none) s := by
  unfold openDataconnection
  rw [wp_bind, wp_getMsg_of hm]
  rw [wp_ite]
  refine ⟨fun hp => ?_, fun hp => ?_⟩
  · exact .ready rfl (opening_of_current hm hp) (opening_of_not_current hm hp)
  rw [Bool.not_eq_true] at hp
  have hactive := opening_active hm hp env
  rw [wp_ite]
  refine ⟨fun hno => ?_, fun hmalloc => ?_⟩
  · rw [wp_bind, wp_setMsg_of hm]
    refine wp_seq (wp_mono (sendMsg_does (m := { m with datafs := none }) rfl dr msg451)
      (fun _ _ h => h) fun _ h => ?_) ?_
    · rw [say_msg451] at h
      cases h
    · rintro _ s₂ ⟨-, hs₂, -⟩
      refine .refused (hs₂.trans ?_) (hactive.trans (if_pos hno))
      exact congrArg (fun w : Front => w.act (.say dr msg451)) (Sys.front_setMsg hm rfl)
  · rw [if_neg hmalloc] at hactive
    refine wp_mono (openActive_does hm) ?_ fun _ hno => ?_
    · rintro b s' ⟨rfl, hnew, hfront, hcurrent⟩
      exact .ready hfront (fun _ => hactive.trans (if_pos hnew)) (absurd hcurrent)
    · rw [hactive, hno.2, if_neg Bool.false_ne_true]

lemma cmdListCommon_does (hm : s.fsm = some m) (shortlist : Bool) :
    Does s.front (cmdListCommon shortlist env) s (listDeeds env s) := by
  unfold cmdListCommon listDeeds Does
  rw [wp_ite]
  refine ⟨fun hno => ?_, fun hdup => ?_⟩
  · rw [if_pos hno]
    exact does_sendMsg hm rfl _ _
  rw [if_neg hdup, wp_bind, wp_get, wp_bind, wp_vfsOpendir]
  refine ⟨fun hnone => ?_, fun es hes => ?_⟩
  · rw [hnone]
    exact Does.before (does_sendMsg (by exact hm) (by rfl) _ _)
  rw [hes]
  dsimp only
  refine Does.before (wp_seq (wp_mono (openDataconnection_does (s := { s with
    calls := s.calls ++ [.opendir s.cwd]
    nextHandle := s.nextHandle + 1
    account := s.account ++ [.acquire (.dir s.nextHandle)] }) hm env.msg₁) (fun _ _ h => h)
    fun _ (hfault : s.opening env = none) => ?_) ?_)
  · rw [hfault, Option.bind_none]
  rintro b s₁ (⟨hfront, hyes, hno⟩ | ⟨hfront, hopening⟩)
  · rw [if_pos rfl]
    refine wp_seq (wp_mono (installTransfer_does _ _) (fun _ _ h => h) fun _ hcurrent => ?_) ?_
    · rw [show s.opening env = none from hno hcurrent, Option.bind_none]
    · rintro _ s₂ ⟨hcurrent, hfront₂, m₂, hm₂⟩
      rw [show s.opening env = some true from hyes hcurrent]
      exact does_sendMsg hm₂ (hfront₂.trans hfront) _ _
  · rw [if_neg Bool.false_ne_true, show s.opening env = some false from hopening]
    exact ⟨_, say_msg451 _, hfront⟩

lemma startTransfer_does (hm : s.fsm = some m) (hs : s.front = v) (file : VfsFile) (h : ℕ)
    (text : Str) (state : FtpdState) :
    Does v (startTransfer file h text state env) s
      ((say env.msg₁ text).bind fun l => (s.opening env).map fun ready =>
        if ready then l else l ++ [.say env.msg₂ msg451]) := by
  unfold startTransfer
  refine wp_seq (wp_mono (sendMsg_does hm env.msg₁ text) (fun _ _ h => h) fun _ hlong => ?_) ?_
  · rw [hlong, Option.bind_none]
  rintro _ s₁ ⟨hsay, hs₁, fifo, log, rfl⟩
  rw [hsay, Option.bind_some]
  -- the reply has changed nothing that the opening looks at
  have hsame : ({ s with fsm := some { m with fifo := fifo }, log := log } : Sys).opening env =
      s.opening env := by
    rw [Sys.opening, Sys.opening, hm]
    rfl
  rw [← hsame]
  refine wp_seq (wp_mono (openDataconnection_does rfl env.msg₂) (fun _ _ h => h)
    fun _ hfault => ?_) ?_
  · rw [hfault, Option.map_none]
  rintro b s₂ (⟨hfront, hyes, hno⟩ | ⟨hfront, hopening⟩)
  · rw [if_pos rfl]
    refine wp_mono (installTransfer_does _ _) ?_ fun _ hcurrent => ?_
    · rintro _ s₃ ⟨hcurrent, hfront₃, -⟩
      rw [hyes hcurrent]
      exact ⟨_, rfl, by rw [hfront₃, hfront, hs₁, hs]; rfl⟩
    · rw [hno hcurrent, Option.map_none]
  · rw [if_neg Bool.false_ne_true, hopening]
    exact ⟨_, rfl, hfront.trans (by rw [hs₁, hs]; rfl)⟩

end Transfers

/-! ### Commands -/

section Commands

variable {v : Front} {s : Sys} {m : MsgState} {env : Env}

lemma openFile_does (hm : s.fsm = some m) (hs : s.front = v) (arg text : Str)
    (state : FtpdState) :
    Does v (do
        match ← vfsOpen arg env with
        | none => sendMsg env.msg₁ msg550
        | some (file, h) => startTransfer file h text state env)
      s (openFileDeeds arg text env s) := by
  unfold openFileDeeds Does
  rw [wp_bind, wp_vfsOpen]
  refine ⟨fun hnone => ?_, fun file hfile => ?_⟩
  · rw [hnone]
    refine Does.before ?_
    exact does_sendMsg (by exact hm) (by rw [← hs]; rfl) _ _
  · rw [hfile]
    refine Does.before ?_
    exact startTransfer_does (by exact hm) (by rw [← hs]; rfl) _ _ _ _

lemma cmdRetr_does (hm : s.fsm = some m) (arg : Option Str) :
    Does s.front (cmdRetr arg env) s (Command.retr.deeds arg env s) := by
  cases arg with
  | none => exact rfl
  | some a =>
    rw [cmdRetr, checkStr, pure_bind, Does, wp_bind, wp_note]
    refine Does.before ?_
    unfold Does
    rw [wp_ite]
    refine ⟨fun hno => ?_, fun hreg => ?_⟩
    · rw [if_pos hno]
      exact does_sendMsg (by exact hm) (by rfl) _ _
    · rw [if_neg hreg]
      exact openFile_does (by exact hm) (by rfl) _ _ _

lemma changeDir_does (hm : s.fsm = some m) (path : Str) :
    Does s.front (changeDir path env) s (changeDirDeeds path env s) := by
  unfold changeDir changeDirDeeds Does
  rw [wp_bind, wp_get, wp_bind, wp_note]
  refine Does.before ?_
  unfold Does
  rw [wp_ite]
  refine ⟨fun hno => ?_, fun hyes => ?_⟩
  · rw [if_pos hno]
    exact rfl
  · rw [if_neg hyes, wp_bind, wp_modify]
    exact Does.before (does_sendMsg (by exact hm) (by rfl) _ _)

lemma removePath_does (hm : s.fsm = some m) (arg : Str) (call : Call) (ok : Bool) :
    Does s.front (removePath arg call ok env) s (removeDeeds arg call ok env) := by
  unfold removePath removeDeeds Does
  rw [wp_bind, wp_note]
  refine Does.before ?_
  unfold Does
  rw [wp_ite]
  refine ⟨fun hyes => ?_, fun hno => ?_⟩
  · rw [if_pos hyes, wp_bind, wp_note]
    exact Does.before (does_sendMsg (by exact hm) (by rfl) _ _)
  · rw [if_neg hno]
    exact does_sendMsg (by exact hm) (by rfl) _ _

lemma withArg_does (hm : s.fsm = some m) (arg : Option Str) {body : Str → FtpdM Unit}
    {deeds : Str → Option (List Deed)} (hbody : ∀ a, Does s.front (body a) s (deeds a)) :
    Does s.front (withArg arg env body) s (argDeeds arg env deeds) := by
  cases arg with
  | none => exact does_sendMsg hm rfl env.msg₁ msg501
  | some a =>
    by_cases ha : a = []
    · rw [withArg, argDeeds, if_pos ha, if_pos ha]
      exact does_sendMsg hm rfl _ _
    · rw [withArg, argDeeds, if_neg ha, if_neg ha]
      exact hbody a

/-- In `cmd_pasv`: the data session `d` is allocated and current, the control block `i` is the
one of its connection, and so far nothing shows.  `owned` says whether the session points back
to the control session already. -/
structure Sys.PasvAt (s s₀ : Sys) (d i : ℕ) (owned : Bool) : Prop where
  front : s.front = s₀.front
  localIp : s.localIp = s₀.localIp
  control : ∃ m, s.fsm = some m ∧ m.datapcb = some i
  data : ∃ x, s.data d = some x ∧ x.msgfs = owned
  pcb : ∃ p, s.pcbs i = some p

lemma Sys.PasvAt.setMsg {s₀ : Sys} {d i : ℕ} {owned : Bool} (h : s.PasvAt s₀ d i owned)
    {f : MsgState → MsgState} (hf : ∀ m, (f m).fifo = m.fifo ∧ (f m).datapcb = m.datapcb)
    {E : Fault → Prop} :
    wp (setMsg f) (fun _ s' => s'.PasvAt s₀ d i owned) E s := by
  obtain ⟨m, hm, hi⟩ := h.control
  rw [wp_setMsg_of hm]
  refine ⟨?_, h.localIp, ⟨_, rfl, (hf m).2.trans hi⟩, h.data, h.pcb⟩
  rw [Sys.front_setMsg hm (hf m).1, h.front]

lemma Sys.PasvAt.setData {s₀ : Sys} {d i : ℕ} {owned b : Bool} (h : s.PasvAt s₀ d i owned)
    {f : DataState → DataState} (hf : ∀ x, x.msgfs = owned → (f x).msgfs = b)
    {E : Fault → Prop} : wp (setData d f) (fun _ s' => s'.PasvAt s₀ d i b) E s := by
  obtain ⟨x, hx, howned⟩ := h.data
  rw [wp_setData_of hx]
  exact ⟨h.front, h.localIp, h.control, ⟨_, Function.update_self _ _ _, hf x howned⟩, h.pcb⟩

lemma Sys.PasvAt.dataFifo {s₀ : Sys} {d i : ℕ} {owned : Bool} (h : s.PasvAt s₀ d i owned)
    {E : Fault → Prop} :
    wp (dataFifo d env) (fun _ s' => s'.PasvAt s₀ d i owned ∧ s'.port = s.port) E s := by
  obtain ⟨rc, f, hinit, -⟩ :=
    sfifoInit_spec (show (2000 : ℤ) < 2 ^ 30 by norm_num) env.mallocFifo
  unfold Ftpd.dataFifo
  rw [hinit]
  exact ⟨⟨h.front, h.localIp, h.control, h.data, h.pcb⟩, rfl⟩

/-- Dropping the session again shows nowhere; it stops with a fault if the session does not
point back to the control session yet. -/
lemma Sys.PasvAt.dropDatafs {s₀ : Sys} {d i : ℕ} {owned : Bool} (h : s.PasvAt s₀ d i owned) :
    wp (dropDatafs d) (fun _ s' => owned = true ∧ s'.front = s₀.front)
      (fun _ => owned = false) s := by
  obtain ⟨m, hm, hi⟩ := h.control
  obtain ⟨x, hx, howned⟩ := h.data
  obtain ⟨p, hp⟩ := h.pcb
  unfold Ftpd.dropDatafs
  rw [wp_bind, wp_getMsg_of hm]
  rw [hi, wp_bind, wp_ftpdDataclose hm hx hp, howned]
  refine ⟨fun hyes => ?_, fun hno => hno⟩
  rw [wp_setMsg]
  refine ⟨?_, fun h => (by cases h)⟩
  rintro _ ⟨⟩
  refine ⟨hyes, ?_⟩
  rw [← h.front]
  simp [Sys.front, Action.onControl, hm]

/-- The part of `cmd_pasv` after a port has been bound. -/
lemma Sys.PasvAt.pasvListen {s₀ : Sys} {d i : ℕ} (h : s.PasvAt s₀ d i false) (port : UInt16) :
    Does s₀.front (pasvListen d i port env) s
      (if env.tcpListen then say env.msg₁ (msg227 s₀.localIp port) else some []) := by
  unfold Ftpd.pasvListen
  refine wp_seq (h.setData (b := true) fun _ _ => rfl) fun _ s₁ h₁ => ?_
  rw [wp_ite]
  refine ⟨fun hno => ?_, fun hlisten => ?_⟩
  · rw [Bool.not_eq_true'] at hno
    rw [hno, if_neg Bool.false_ne_true]
    refine wp_mono h₁.dropDatafs ?_ fun _ hfault => (by cases hfault)
    rintro _ s' ⟨-, hs'⟩
    exact ⟨[], rfl, hs'⟩
  · rw [Bool.not_eq_true', Bool.not_eq_false] at hlisten
    obtain ⟨m, hm, -⟩ := h₁.control
    obtain ⟨x, hx, -⟩ := h₁.data
    rw [hlisten, if_pos rfl, ← h₁.localIp]
    simp only [newPcb, wp_bind, wp_modify, wp_get, wp_setMsg, wp_setData, hm, hx, wp_pure]
    refine ⟨?_, fun h => (by cases h)⟩
    rintro _ ⟨⟩
    refine ⟨?_, fun h => (by cases h)⟩
    rintro _ ⟨⟩
    refine does_sendMsg (by rfl) ?_ _ _
    rw [← h₁.front]
    exact Sys.front_setMsg hm rfl

/-- `cmd_pasv` until it has a control block. -/
lemma pasvStart_at (hm : s.fsm = some m) (htcp : env.tcpNew = true) {E : Fault → Prop}
    {k : ℕ → Option ℕ → FtpdM Unit} {Q : Unit → Sys → Prop}
    (hk : ∀ d i s', s'.PasvAt s d i false → s'.port = s.port → wp (k d (some i)) Q E s') :
    wp (do
        let d ← allocData
        let pcb ← tcpNew env
        setMsg fun m => { m with datapcb := pcb }
        k d pcb) Q E s := by
  simp only [allocData, tcpNew, newPcb, htcp, wp_bind, wp_get, wp_record, wp_modify, wp_setMsg, hm,
    wp_pure, if_true]
  refine ⟨?_, fun h => (by cases h)⟩
  rintro _ ⟨⟩
  refine ⟨?_, fun h => (by cases h)⟩
  rintro _ ⟨⟩
  refine hk _ _ _ ⟨Sys.front_setMsg hm rfl, rfl, ⟨_, rfl, rfl⟩, ?_, ?_⟩ rfl
  · exact ⟨DataState.zero, Function.update_self _ _ _, rfl⟩
  · exact ⟨_, Function.update_self _ _ _⟩

lemma cmdPasv_does (hm : s.fsm = some m) (arg : Option Str) :
    Does s.front (cmdPasv arg env) s (pasvDeeds env s) := by
  unfold cmdPasv pasvDeeds Does
  rw [wp_ite]
  refine ⟨fun hno => ?_, fun hmalloc => ?_⟩
  · rw [if_pos hno, wp_bind, wp_setMsg_of hm]
    refine does_sendMsg (by rfl) ?_ _ _
    exact Sys.front_setMsg hm rfl
  rw [if_neg hmalloc]
  cases htcp : env.tcpNew with
  | false =>
    rw [Bool.not_false, if_pos rfl]
    simp only [allocData, tcpNew, htcp, wp_bind, wp_get, wp_record, wp_modify, wp_setMsg, hm,
      wp_pure, Bool.false_eq_true, if_false, wp_freeData]
    refine ⟨?_, fun h => (by cases h)⟩
    rintro _ ⟨⟩
    refine ⟨?_, fun h => (by cases h)⟩
    rintro _ ⟨⟩
    refine ⟨fun _ _ => ?_, fun hnone => ?_⟩
    · refine does_sendMsg (by rfl) ?_ _ _
      exact Sys.front_setMsg hm rfl
    · rw [Function.update_self] at hnone
      cases hnone
  | true =>
    rw [Bool.not_true, if_neg Bool.false_ne_true]
    refine pasvStart_at hm htcp fun d i s₁ h₁ hport₁ => ?_
    dsimp only
    refine wp_seq h₁.dataFifo ?_
    rintro fifo s₂ ⟨h₂, hport₂⟩
    obtain ⟨x, hx, howned⟩ := h₂.data
    rw [wp_bind, wp_setData_of hx]
    rw [wp_bind, wp_get, wp_bind, wp_get]
    dsimp only
    rw [hport₂, hport₁]
    cases bindLoop env.tcpBind s.port (2 ^ 16) s.port with
    | none => exact rfl
    | some r =>
      obtain ⟨port, bound⟩ := r
      dsimp only
      rw [wp_bind, wp_modify]
      have h₃ : ({ s₂ with
          data := Function.update s₂.data d (some { x with fifo := fifo })
          port := port } : Sys).PasvAt s d i false :=
        ⟨h₂.front, h₂.localIp, h₂.control, ⟨_, Function.update_self _ _ _, howned⟩, h₂.pcb⟩
      refine wp_seq (h₃.setMsg (f := fun m => { m with dataport := port }) fun _ => ⟨rfl, rfl⟩)
        fun _ s₄ h₄ => ?_
      cases bound with
      | false =>
        refine wp_mono h₄.dropDatafs ?_ fun _ _ => rfl
        rintro _ s' ⟨h, -⟩
        cases h
      | true => exact h₄.pasvListen port

lemma freeMsg_gone (s : Sys) : wp freeMsg (fun _ s' => s'.fsm = none) (fun _ => True) s := by
  unfold freeMsg
  rw [wp_bind, wp_getMsg]
  refine ⟨fun m _ => ?_, fun _ => trivial⟩
  cases m.datafs with
  | none => exact rfl
  | some d => exact wp_seq (ftpdDataclose_spec m.datapcb d s) fun _ _ _ => rfl

lemma cmdAbrt_does (hm : s.fsm = some m) (arg : Option Str) :
    Does s.front (cmdAbrt arg env) s (Command.abrt.deeds arg env s) := by
  have hdeeds : Command.abrt.deeds arg env s = if m.datafs.isSome then none else some [] := by
    simp only [Command.deeds, hm, Option.bind_some]
  rw [hdeeds]
  unfold cmdAbrt Does
  rw [wp_bind, wp_getMsg_of hm]
  cases hd : m.datafs with
  | none =>
    simp only [wp_setMsg, hm]
    refine ⟨?_, fun h => (by cases h)⟩
    rintro _ ⟨⟩
    exact ⟨[], rfl, Sys.front_setMsg hm rfl⟩
  | some d =>
    -- the error callback frees the control session, which is used afterwards
    refine wp_seq (Q := fun _ _ => True) ?_ fun _ s₁ _ => ?_
    · exact wp_setPcb.mpr ⟨fun _ => trivial, fun _ _ _ _ => trivial, fun _ _ _ => rfl⟩
    refine wp_seq (wp_mono (freeMsg_gone s₁) (fun _ _ h => h) fun _ _ => rfl) fun _ s₂ h₂ => ?_
    rw [wp_bind, wp_checkDatafs, h₂]
    exact ⟨fun _ hm => (by cases hm), fun _ => rfl⟩

lemma port_deeds_of_scan {a : Str} {i₀ i₁ i₂ i₃ hi lo : ℕ}
    (h : scanPort a = some [i₀, i₁, i₂, i₃, hi, lo]) :
    Command.port.deeds (some a) env s = say env.msg₁ msg200 := by
  rw [Command.deeds, Option.bind_some, h]

lemma port_deeds_of_not_scan {a : Str}
    (h : ∀ i₀ i₁ i₂ i₃ hi lo, scanPort a ≠ some [i₀, i₁, i₂, i₃, hi, lo]) :
    Command.port.deeds (some a) env s = say env.msg₁ msg501 := by
  rw [Command.deeds, Option.bind_some]
  split
  · next hscan => exact absurd hscan (h _ _ _ _ _ _)
  · rfl

lemma cmdPort_does (hm : s.fsm = some m) (arg : Option Str) :
    Does s.front (cmdPort arg env) s (Command.port.deeds arg env s) := by
  cases arg with
  | none => exact rfl
  | some a =>
    rw [cmdPort, checkStr, pure_bind]
    split
    · next hscan =>
      rw [port_deeds_of_scan hscan, Does, wp_bind, wp_setMsg_of hm]
      refine does_sendMsg (by rfl) ?_ env.msg₁ msg200
      exact Sys.front_setMsg hm rfl
    · next hscan =>
      rw [port_deeds_of_not_scan hscan]
      exact does_sendMsg hm rfl _ _

/-- **Every command does what its list of deeds says**, and stops with a fault if there is
none. -/
theorem Command.run_does (hm : s.fsm = some m) (c : Command) (arg : Option Str) (env : Env) :
    Does s.front (c.run arg env) s (c.deeds arg env s) := by
  cases c with
  | user | pass | quit => exact does_sendMsg_setMsg hm rfl _ _ fun _ => rfl
  | port => exact cmdPort_does hm arg
  | cwd =>
    cases arg with
    | none => exact rfl
    | some path => exact changeDir_does hm path
  | cdup => exact changeDir_does hm _
  | pwd =>
    simp only [Command.run, cmdPwd, Command.deeds]
    split
    · exact does_sendMsg hm rfl _ _
    · exact does_nothing rfl
  | nlst => exact cmdListCommon_does hm true
  | list => exact cmdListCommon_does hm false
  | retr => exact cmdRetr_does hm arg
  | stor =>
    cases arg with
    | none => exact rfl
    | some a => exact openFile_does hm rfl a _ _
  | noop => exact does_sendMsg hm rfl env.msg₁ msg200
  | syst => exact does_sendMsg hm rfl env.msg₁ (msg214SYST (lit "UNIX"))
  | mode => exact does_sendMsg hm rfl env.msg₁ msg502
  | rnfr | rnto => exact does_sendMsg hm rfl env.msg₁ (lit "TODO")
  | abrt => exact cmdAbrt_does hm arg
  | type =>
    cases arg with
    | none => exact rfl
    | some a => exact does_sendMsg hm rfl _ _
  | mkd =>
    exact withArg_does hm arg fun a => Does.before (does_sendMsg (by exact hm) (by rfl) _ _)
  | rmd => exact withArg_does hm arg fun a => removePath_does hm a _ _
  | dele => exact withArg_does hm arg fun a => removePath_does hm a _ _
  | pasv => exact cmdPasv_does hm arg

end Commands

/-! ### Packets -/

/-- The deeds of `ftpd_msgrecv` with a packet. -/
def recvDeeds (p : Chain) (env : Env) (s : Sys) : Option (List Deed) :=
  if env.mallocText then
    match executed p with
    | some (c, arg) => c.deeds arg env s
    | none => say env.msg₁ msg502
  else some []

lemma ftpdMsgrecv_does {s : Sys} {m : MsgState} (hm : s.fsm = some m) (p : Chain) (env : Env) :
    Does s.front (ftpdMsgrecv p env) s (recvDeeds p env s) := by
  by_cases hmalloc : env.mallocText = true
  · rw [ftpdMsgrecv_eq p hmalloc, recvDeeds, if_pos hmalloc]
    cases executed p with
    | none => exact does_sendMsg hm rfl _ _
    | some r => exact r.1.run_does hm r.2 env
  · rw [ftpdMsgrecv, if_neg hmalloc, recvDeeds, if_neg hmalloc]
    exact does_nothing rfl

/-- A packet on the control connection: the callback has a result if there is a list of deeds,
and the result shows them. -/
theorem ftpdStep_msgrecv {s : Sys} {m : MsgState} (hm : s.fsm = some m) {e : Event} {p : Chain}
    (hcb : e.callback = .msgrecv p) :
    (∃ l s', recvDeeds p e.env s = some l ∧ ftpdStep s e = some s' ∧ s'.front = s.front.acts l) ∨
      recvDeeds p e.env s = none ∧ ftpdStep s e = none := by
  have hhandle : handle e = onControl (ftpdMsgrecv p e.env) := by
    unfold handle
    rw [hcb]
  have hrun : (onControl (ftpdMsgrecv p e.env)).run s = (ftpdMsgrecv p e.env).run s := by
    rw [onControl, StateT.run_bind, StateT.run_get, pure_bind, hm]
  have hdoes := ftpdMsgrecv_does hm p e.env
  unfold Does wp at hdoes
  rw [ftpdStep, hhandle, hrun]
  cases hr : (ftpdMsgrecv p e.env).run s with
  | error f =>
    rw [hr] at hdoes
    exact .inr ⟨hdoes, rfl⟩
  | ok r =>
    rw [hr] at hdoes
    obtain ⟨l, hl, hs'⟩ := hdoes
    exact .inl ⟨l, r.2, hl, rfl, hs'⟩

/-- A packet whose callback returns finds a control session and has the deeds done. -/
lemma ftpdStep_packet {s s' : Sys} {e : Event} {p : Chain} (hcb : e.callback = .msgrecv p)
    (h : ftpdStep s e = some s') :
    ∃ m l, s.fsm = some m ∧ recvDeeds p e.env s = some l ∧ s'.front = s.front.acts l := by
  cases hm : s.fsm with
  | none =>
    -- without a control session there is no such callback
    have hnone : wp (handle e) (fun _ _ => False) (fun _ => True) s := by
      unfold handle
      rw [hcb]
      simp only [onControl, wp_bind, wp_get, hm]
      trivial
    exact (wp_ftpdStep (Q := fun _ => False) hnone h).elim
  | some m =>
    rcases ftpdStep_msgrecv hm hcb with ⟨l, s₁, hl, hs₁, hfront⟩ | ⟨-, hnone⟩
    · obtain rfl := Option.some.inj (hs₁.symm.trans h)
      exact ⟨m, l, rfl, hl, hfront⟩
    · rw [hnone] at h
      cases h

/-- A callback that executes a command and returns has done the deeds of the command. -/
lemma ftpdStep_executed {s s' : Sys} {e : Event} {c : Command} {arg : Option Str}
    (he : e.executed = some (c, arg)) (h : ftpdStep s e = some s') :
    ∃ m l, s.fsm = some m ∧ c.deeds arg e.env s = some l ∧ s'.front = s.front.acts l := by
  obtain ⟨p, hcb, hmalloc, hp⟩ := Event.executed_eq_some he
  obtain ⟨m, l, hm, hl, hfront⟩ := ftpdStep_packet hcb h
  rw [recvDeeds, if_pos hmalloc, hp] at hl
  exact ⟨m, l, hm, hl, hfront⟩

/-! ### Reading the deeds -/

/-- The call of the SD library in a deed. -/
def Deed.call : Deed → Option Call
  | .ask c => some c
  | _ => none

/-- The reply in a deed. -/
def Deed.text : Deed → Option Str
  | .say _ text => some text
  | _ => none

/-- The reply in an action. -/
def Action.text : Action → Option Str
  | .reply text _ => some text
  | _ => none

/-- The calls of the SD library in a list of deeds. -/
def asked (l : List Deed) : List Call := l.filterMap Deed.call

/-- The replies in a list of deeds. -/
def said (l : List Deed) : List Str := l.filterMap Deed.text

/-- The replies in a log. -/
def replies (log : List Action) : List Str := log.filterMap Action.text

lemma replies_append (log log' : List Action) :
    replies (log ++ log') = replies log ++ replies log' := List.filterMap_append

lemma replies_front (s : Sys) : replies s.front.log = replies s.log := by
  rw [replies, replies, Sys.front, List.filterMap_filter]
  refine List.filterMap_congr fun a _ => ?_
  cases a with
  | _ => rfl

lemma Front.act_calls (v : Front) (d : Deed) : (v.act d).calls = v.calls ++ d.call.toList := by
  cases d with
  | ask c => rfl
  | enter cwd => exact (List.append_nil _).symm
  | say dr text =>
    cases hfifo : v.fifo with
    | none => rw [Front.act, hfifo]; exact (List.append_nil _).symm
    | some f =>
      by_cases hroom : sfifoSpace f < (text ++ lit "\r\n").length
      · rw [Front.act_say_full hfifo dr hroom]
        exact (List.append_nil _).symm
      · rw [Front.act_say_room hfifo dr hroom]
        exact (List.append_nil _).symm

lemma Front.acts_calls (l : List Deed) : ∀ v : Front, (v.acts l).calls = v.calls ++ asked l := by
  induction l with
  | nil => exact fun v => (List.append_nil _).symm
  | cons d l ih =>
    intro v
    show ((v.act d).acts l).calls = _
    rw [ih, Front.act_calls, List.append_assoc, asked, asked]
    cases d with
    | _ => rfl

/-- With a control session, every reply is entered in the log, and the session stays. -/
lemma Front.act_replies {v : Front} (hv : v.fifo ≠ none) (d : Deed) :
    (v.act d).fifo ≠ none ∧ replies (v.act d).log = replies v.log ++ d.text.toList := by
  obtain ⟨f, hfifo⟩ := Option.ne_none_iff_exists'.mp hv
  cases d with
  | ask c => exact ⟨hv, (List.append_nil _).symm⟩
  | enter cwd => exact ⟨hv, (List.append_nil _).symm⟩
  | say dr text =>
    by_cases hroom : sfifoSpace f < (text ++ lit "\r\n").length
    · rw [Front.act_say_full hfifo dr hroom]
      exact ⟨hv, replies_append _ _⟩
    · rw [Front.act_say_room hfifo dr hroom]
      exact ⟨Option.some_ne_none _, replies_append _ _⟩

lemma Front.acts_replies (l : List Deed) :
    ∀ v : Front, v.fifo ≠ none → replies (v.acts l).log = replies v.log ++ said l := by
  induction l with
  | nil => exact fun v _ => (List.append_nil _).symm
  | cons d l ih =>
    intro v hv
    obtain ⟨hfifo, hlog⟩ := Front.act_replies hv d
    show replies ((v.act d).acts l).log = _
    rw [ih _ hfifo, hlog, List.append_assoc, said, said]
    cases d with
    | _ => rfl

/-- A reply that fits its buffer is entered in the log; beside it only the control FIFO
changes. -/
lemma sendMsg_replies {s : Sys} {m : MsgState} (hm : s.fsm = some m) (dr : Drain) {text : Str}
    (hshort : (text ++ lit "\r\n").length + 1 ≤ 1024) :
    wp (sendMsg dr text) (fun _ s' => ∃ fifo log, replies log = replies s.log ++ [text] ∧
      s' = { s with fsm := some { m with fifo := fifo }, log := log }) (fun _ => False) s := by
  refine wp_mono (sendMsg_does hm dr text) ?_ fun _ hlong => ?_
  · rintro _ s' ⟨-, hfront, fifo, log, hs'⟩
    have hfifo : s.front.fifo ≠ none := by simp [Sys.front, hm]
    refine ⟨fifo, log, ?_, hs'⟩
    have hlog := (Front.act_replies hfifo (.say dr text)).2
    rwa [← hfront, replies_front, replies_front, hs'] at hlog
  · rw [say, if_neg (not_lt.mpr hshort)] at hlong
    cases hlong

/-- The calls that a callback adds. -/
lemma ftpdStep_asked {s s' : Sys} {e : Event} {c : Command} {arg : Option Str}
    (he : e.executed = some (c, arg)) (h : ftpdStep s e = some s') :
    ∃ l, c.deeds arg e.env s = some l ∧ s'.calls = s.calls ++ asked l := by
  obtain ⟨m, l, -, hl, hfront⟩ := ftpdStep_executed he h
  exact ⟨l, hl, (congrArg Front.calls hfront).trans (Front.acts_calls l s.front)⟩

lemma asked_say {dr : Drain} {text : Str} {l : List Deed} (h : say dr text = some l) :
    asked l = [] := by
  rw [(say_eq_some h).1]
  rfl

lemma said_say {dr : Drain} {text : Str} {l : List Deed} (h : say dr text = some l) :
    said l = [text] := by
  rw [(say_eq_some h).1]
  rfl

/-- `LIST` and `NLST` open the working directory and use no other path. -/
lemma asked_listDeeds {env : Env} {s : Sys} {l : List Deed} (h : listDeeds env s = some l) :
    asked l = if env.strdup then [.opendir s.cwd] else [] := by
  unfold listDeeds at h
  cases hdup : env.strdup with
  | false =>
    rw [hdup, Bool.not_false, if_pos rfl] at h
    exact asked_say h
  | true =>
    rw [hdup, Bool.not_true, if_neg Bool.false_ne_true] at h
    obtain ⟨l', hl', rfl⟩ := Deed.before_eq_some h
    have hrest : asked l' = [] := by
      cases hes : env.opendir with
      | none =>
        rw [hes] at hl'
        exact asked_say hl'
      | some es =>
        rw [hes] at hl'
        obtain ⟨ready, -, hsay⟩ := Option.bind_eq_some_iff.mp hl'
        exact asked_say hsay
    show Call.opendir s.cwd :: asked l' = _
    rw [hrest, if_pos rfl]

end Teensy41Ethernet.Ftpd
