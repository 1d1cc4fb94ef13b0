import Teensy41Ethernet.Ftpd.Transfer

/-!
# `RETR` delivers the file

A data session that `cmd_retr` has given a file delivers it: whichever callbacks serve the
session, however much room TCP has and whichever writes fail, the bytes that TCP accepts on the
data connection are always the beginning of the file, and the transfer ends only when TCP has
accepted all of it.  This needs the FIFO of the session to have a buffer.  `open_dataconnection`
and `cmd_pasv` do not look at the return value of `sfifo_init`, and `send_file` not at that of
`sfifo_write`: without a buffer the file is read, dropped and reported as sent.  And it needs the
session to have one connection only.  The listening control block of `PASV` is not closed when
a connection has been accepted, and a second one is served from the same file: each of the two
gets a part of it.
-/

namespace Teensy41Ethernet.Ftpd

open Lib

/-! ### The job -/

/-- The bytes that a data session has yet to read from its file. -/
def DataState.unread (x : DataState) : List UInt8 := (x.vfsFile.map VfsFile.unread).getD []

/-- A data session has to deliver the rest of a file. -/
def retrJob (d : ℕ) (file : VfsFile) (log : List Action) : Job where
  session := d
  state := .retr
  content := file.unread
  pending := DataState.unread
  pending_eq := fun _ _ _ => rfl
  log := log

/-- `cmd_retr` has installed a file in the fresh data session `d` and set the state. -/
structure RetrStarted (s : Sys) (d : ℕ) (file : VfsFile) : Prop where
  control : ∃ m, s.fsm = some m ∧ m.state = .retr ∧ m.datafs = some d
  data : ∃ x, s.data d = some x ∧ x.vfsFile = some file ∧ x.Fresh

/-- The FIFO of the data session has a buffer, unless there is nothing to send. -/
def CanBuffer (s : Sys) (d : ℕ) (F : List UInt8) : Prop :=
  ∀ x ∈ s.data d, x.fifo.buffer = none → F = []

lemma RetrStarted.inv {s : Sys} {d : ℕ} {file : VfsFile} (h : RetrStarted s d file)
    (hbuffer : CanBuffer s d file.unread) : (retrJob d file s.log).Inv s := by
  obtain ⟨m, hm, hstate, hcurrent⟩ := h.control
  obtain ⟨x, hx, hfile, hfresh⟩ := h.data
  refine Job.inv_start (j := retrJob d file s.log) hm hstate hcurrent hx rfl hfresh.wf
    (hbuffer x hx) ?_
  rw [hfresh.contents]
  simp only [retrJob, DataState.unread, hfile, List.nil_append, Option.map_some, Option.getD_some]

/-! ### What `cmd_retr` leaves behind -/

/-- The file goes to the current data session. -/
lemma installTransfer_started {s : Sys} (h : CurrentFresh s) (file : VfsFile) (handle : ℕ) :
    wp (installTransfer (fun x => { x with vfsFile := some file, fileHandle := handle }) .retr)
      (fun _ s' => ∃ d, RetrStarted s' d file) (fun _ => True) s := by
  rw [wp_installTransfer]
  refine ⟨fun m hm => ⟨fun d hd => ⟨fun x hx => ?_, fun _ => trivial⟩, fun _ => trivial⟩,
    fun _ => trivial⟩
  have hfresh := h m hm d hd x hx
  exact ⟨d, ⟨_, rfl, rfl, hd⟩,
    ⟨_, Function.update_self _ _ _, rfl, hfresh.wf, hfresh.contents⟩⟩

/-- `cmd_retr` starts the job, if the file can be opened, there is memory for a data session
and, over passive connections, the data session that `PASV` has allocated is fresh. -/
lemma cmdRetr_started {s : Sys} {env : Env} {file : VfsFile} (arg : Option Str)
    (hreg : (retrStat env).1 = true) (hfile : env.openFile = some file)
    (hmalloc : env.mallocData = true)
    (hpassive : ∀ m ∈ s.fsm, m.passive = true → CurrentFresh s) :
    wp (cmdRetr arg env) (fun _ s' => ∃ d, RetrStarted s' d file) (fun _ => True) s := by
  unfold cmdRetr checkStr
  cases arg with
  | none => trivial
  | some text =>
    rw [wp_bind, wp_pure, wp_bind, wp_note, hreg, Bool.not_true, if_neg Bool.false_ne_true,
      wp_bind, wp_vfsOpen, hfile]
    refine ⟨fun h => (by cases h), ?_⟩
    rintro _ ⟨⟩
    unfold startTransfer
    refine wp_seq (sendMsg_spec _ _ _) ?_
    rintro _ s₁ ⟨hdata, ⟨m, fifo, hm, hm₁⟩, -⟩
    have hpassive₁ : ∀ m₁ ∈ s₁.fsm, m₁.passive = true → CurrentFresh s₁ := by
      intro m₁ hm₁' hp
      rw [hm₁] at hm₁'
      obtain rfl := Option.some.inj hm₁'
      refine CurrentIs.of_current (hpassive m hm hp) ?_
      simp only [Sys.current, hdata, hm₁, Option.map_some]
      rw [show s.fsm = some m from hm]
      rfl
    refine wp_seq (openDataconnection_fresh hpassive₁ hmalloc env.msg₂) ?_
    rintro _ s₂ ⟨rfl, hfresh⟩
    exact installTransfer_started hfresh file _

/-- The command line that starts the job. -/
lemma ftpdStep_retrStarted {s s' : Sys} {e : Event} {file : VfsFile}
    (hc : e.command = some .retr) (hreg : (retrStat e.env).1 = true)
    (hfile : e.env.openFile = some file) (hmalloc : e.env.mallocData = true)
    (hpassive : ∀ m ∈ s.fsm, m.passive = true → CurrentFresh s)
    (hs' : ftpdStep s e = some s') : ∃ d, RetrStarted s' d file :=
  ftpdStep_command (Q := fun s' => ∃ d, RetrStarted s' d file) hc
    (fun arg => cmdRetr_started arg hreg hfile hmalloc hpassive) hs'

/-! ### Sending the file -/

lemma length_vfsRead_le (file : VfsFile) (len k : ℕ) : (vfsRead file len k).1.length ≤ len := by
  rw [vfsRead, List.length_take]
  omega

section Reading

variable {d : ℕ} {file f : VfsFile} {log sent : List Action} {pcb : Option ℕ} {x : DataState}
  {s : Sys}

lemma unread_eq (hfile : x.vfsFile = some f) : x.unread = f.unread := by
  rw [DataState.unread, hfile]
  rfl

/-- The session changes, with the same bytes in its FIFO and its file together. -/
lemma retrJob_setData (h : (retrJob d file log).Sending pcb sent x s) (hfile : x.vfsFile = some f)
    {y : DataState} (hconnected : y.connected = true) (hwf : y.fifo.Wf)
    (hbuffer : y.fifo.buffer = none → file.unread = [])
    (hstream : y.fifo.contents ++ y.unread = x.fifo.contents ++ f.unread) :
    (retrJob d file log).Sending pcb sent y
      { s with data := Function.update s.data d (some y) } := by
  rw [← unread_eq hfile] at hstream
  exact h.setData hconnected hwf hbuffer hstream

/-- A read that returns nothing closes the file at its end, and changes nothing before. -/
lemma retrJob_readNothing (h : (retrJob d file log).Sending pcb sent x s)
    (hfile : x.vfsFile = some f) {g : VfsFile} (hread : f.unread = g.unread) :
    wp (if vfsEof g then closeFile d else setData d fun x => { x with vfsFile := some g })
      (fun _ s' => (retrJob d file log).Inv s') (fun _ => True) s := by
  have hdata : s.data d = some x := h.data
  rw [wp_ite]
  refine ⟨fun heof => ?_, fun _ => ?_⟩
  · rw [wp_closeFile, hdata]
    refine ⟨?_, fun _ => trivial⟩
    rintro y ⟨⟩
    have hclosed := retrJob_setData h hfile (y := { x with vfsFile := none }) h.connected h.wf
      h.buffer (by rw [hread, (vfsEof_iff _).mp heof]; rfl)
    exact (hclosed.congr (by rfl) (by rfl) (by rfl)).inv
  · rw [wp_setData_of hdata]
    refine (retrJob_setData h hfile (y := { x with vfsFile := some g }) h.connected h.wf h.buffer
      ?_).inv
    rw [hread]
    rfl

/-- Where there is something left to read, the FIFO has a buffer. -/
lemma retrJob_buffer (h : (retrJob d file log).Sending pcb sent x s) (hfile : x.vfsFile = some f)
    (hleft : f.unread ≠ []) : x.fifo.buffer ≠ none := by
  intro hnone
  have hstream : sentOver d pcb sent ++ x.fifo.contents ++ x.unread = file.unread := h.stream
  have hempty : file.unread = [] := h.buffer hnone
  rw [unread_eq hfile, hempty] at hstream
  exact hleft (List.append_eq_nil_iff.mp hstream).2

/-- A block that was read goes into the FIFO and on to TCP. -/
lemma retrJob_readBlock (h : (retrJob d file log).Sending pcb sent x s) (hfile : x.vfsFile = some f)
    {block : List UInt8} {g : VfsFile} (hread : f.unread = block ++ g.unread)
    (hblock : block ≠ []) (hroom : (block.length : ℤ) ≤ sfifoSpace x.fifo) (dr : Drain) :
    wp (do
        setData d fun x => { x with vfsFile := some g, fifo := (sfifoWrite x.fifo block).2 }
        sendDataTo pcb d dr)
      (fun _ s' => (retrJob d file log).Inv s') (fun _ => True) s := by
  have hdata : s.data d = some x := h.data
  have hleft : f.unread ≠ [] := by
    rw [hread]
    exact List.append_ne_nil_of_left_ne_nil hblock _
  obtain ⟨hwf, hbuffer, hcontents⟩ := sfifoWrite_fits h.wf (retrJob_buffer h hfile hleft) hroom
  rw [wp_bind, wp_setData_of hdata]
  refine (retrJob_setData h hfile
    (y := { x with vfsFile := some g, fifo := (sfifoWrite x.fifo block).2 }) h.connected hwf
    (fun hnone => absurd hnone hbuffer) ?_).sendDataTo dr
  rw [hcontents, hread, List.append_assoc]
  rfl

/-- `send_file` keeps the job: a read moves bytes from the file to the FIFO, a drain moves
them on to TCP, and the transfer ends when both are empty. -/
lemma retrJob_sendFile (h : (retrJob d file log).Sending pcb sent x s) (env : Env) :
    wp (sendFile d pcb env) (fun _ s' => (retrJob d file log).Inv s') (fun _ => True) s := by
  have hdata : s.data d = some x := h.data
  unfold sendFile
  rw [wp_bind, wp_getData_of hdata]
  rw [wp_ite]
  refine ⟨fun _ => h.inv, fun _ => ?_⟩
  cases hfile : x.vfsFile with
  | none =>
    have hpending : x.unread = [] := by rw [DataState.unread, hfile]; rfl
    dsimp only
    rw [wp_ite]
    refine ⟨fun _ => h.sendDataTo env.data, fun hused => ?_⟩
    exact h.endTransfer (contents_eq_nil_of_used hused) hpending env
  | some f =>
    dsimp only
    rw [wp_ite]
    refine ⟨fun _ => h.sendDataTo env.data, fun _ => ?_⟩
    have hlen := length_vfsRead_le f
      (if sfifoSpace x.fifo > 2048 then 2048 else sfifoSpace x.fifo).toNat env.read
    generalize hr : vfsRead f _ env.read = r at hlen ⊢
    have hread : f.unread = r.1 ++ r.2.unread := by
      rw [← hr]
      exact vfsRead_unread _ _ _
    rw [wp_ite]
    refine ⟨fun hempty => ?_, fun hsome => ?_⟩
    · rw [hempty, List.nil_append] at hread
      exact retrJob_readNothing h hfile hread
    · -- what was read is no longer than what the FIFO has room for
      have hspace : 0 ≤ sfifoSpace x.fifo := by
        have hlt := h.wf.used_lt
        unfold sfifoSpace
        omega
      have hroom : (r.1.length : ℤ) ≤ sfifoSpace x.fifo := by
        split at hlen
        · omega
        · omega
      exact retrJob_readBlock h hfile hread hsome hroom env.data

end Reading

/-- In the state of `RETR` the session is served by `send_file`. -/
lemma retrJob_served (d : ℕ) (file : VfsFile) (log : List Action) :
    (retrJob d file log).ServedIn fun _ => True := by
  intro pcb sent x s env _ h
  obtain ⟨m, hm, hstate, -⟩ := h.control
  unfold serve
  rw [wp_bind, wp_getMsg_of hm]
  rw [hstate]
  exact retrJob_sendFile h env

/-! ### The theorem -/

/-- What the daemon did for the data session `d` between two states delivers `F`. -/
def Delivers (s₀ s : Sys) (d : ℕ) (F : List UInt8) : Prop :=
  ∃ new, s.log = s₀.log ++ new ∧ Delivered d F new

section Delivers

variable {s₀ s : Sys} {d : ℕ} {F : List UInt8}

lemma Delivers.prefix_of_log (h : Delivers s₀ s d F) (i : ℕ) :
    sentOn d i (s.log.drop s₀.log.length) <+: F := by
  obtain ⟨new, hnew, hdelivered⟩ := h
  rw [hnew, List.drop_left]
  exact hdelivered.accepted i

/-- On a connection that has been closed everything has been accepted. -/
lemma Delivers.complete (h : Delivers s₀ s d F) {i : ℕ}
    (hend : .close i ∈ s.log.drop s₀.log.length) :
    sentOn d i (s.log.drop s₀.log.length) = F := by
  have hprefix := h.prefix_of_log i
  obtain ⟨new, hnew, hdelivered⟩ := h
  rw [hnew, List.drop_left] at hprefix hend ⊢
  obtain ⟨l₁, l₂, rfl⟩ := List.append_of_mem hend
  have hall := hdelivered.closed l₁ i l₂ rfl
  refine hprefix.eq_of_length_le ?_
  rw [sentOn_append, hall, List.length_append]
  omega

end Delivers

/-- **`RETR` delivers the file**, from the state that `cmd_retr` leaves behind and with any
callbacks for the data session and any timer callbacks, if the FIFO has a buffer or the file
is empty, and the session has one connection only. -/
theorem retr_delivers_file {s₀ s : Sys} {d : ℕ} {F : List UInt8} {es : List Event}
    (h₀ : RetrStarted s₀ d ⟨F, 0⟩) (hbuffer : CanBuffer s₀ d F)
    (hes : Admits ftpdStep (fun s e => Concerns d s e ∧ OneConnection d s e) s₀ es)
    (hrun : exec ftpdStep s₀ es = some s) : Delivers s₀ s d F := by
  have hconcerns : Admits ftpdStep (fun s e => Concerns d s e ∧ OneConnection d s e ∧ True) s₀ es :=
    hes.mono fun _ _ he => ⟨he.1, he.2, trivial⟩
  exact ((h₀.inv hbuffer).exec (retrJob_served d ⟨F, 0⟩ s₀.log) hconcerns hrun).delivered

/-- `RETR` in the session of the calm environment. -/
lemma session_retrStarted {env : Env} {s₀ : Sys} (hreg : (retrStat env).1 = true)
    (hfile : env.openFile = some ⟨[7], 0⟩) (hmalloc : env.mallocData = true)
    (hcommand : Event.command ⟨.msgrecv [lit "RETR a\r\n"], env⟩ = some .retr)
    (hs₀ : ftpdStep session ⟨.msgrecv [lit "RETR a\r\n"], env⟩ = some s₀)
    (hcurrent : s₀.fsm.map MsgState.datafs = some (some 0)) : RetrStarted s₀ 0 ⟨[7], 0⟩ := by
  have hactive : session.fsm.map MsgState.passive = some false := by decide +kernel
  have hpassive : ∀ m ∈ session.fsm, m.passive = true → CurrentFresh session := by
    intro m hm hp
    rw [hm, Option.map_some, hp] at hactive
    cases hactive
  obtain ⟨d, hstarted⟩ := ftpdStep_retrStarted hcommand hreg hfile hmalloc hpassive hs₀
  obtain ⟨m, hm, -, hd⟩ := hstarted.control
  rw [hm, Option.map_some, hd, Option.some.injEq, Option.some.injEq] at hcurrent
  exact hcurrent ▸ hstarted

/-- A file of one byte over an active connection: the first acknowledgement finds the end of
the file, the second one ends the transfer. -/
theorem retr_delivers_file_one_byte :
    ∃ s₀ s es, RetrStarted s₀ 0 ⟨[7], 0⟩ ∧ exec ftpdStep s₀ es = some s ∧
      .reply msg226 true ∈ s.log ∧ Delivers s₀ s 0 [7] := by
  have hstart : Option.map (fun s₀ => (s₀.fsm.map MsgState.datafs,
      (s₀.data 0).map fun x => x.fifo.buffer.isSome,
      decide (Admits ftpdStep (fun s e => Concerns 0 s e ∧ OneConnection 0 s e) s₀
        [⟨.connected 0, calm⟩, ⟨.sent 0, calm⟩, ⟨.sent 0, calm⟩]),
      (exec ftpdStep s₀ [⟨.connected 0, calm⟩, ⟨.sent 0, calm⟩, ⟨.sent 0, calm⟩]).map
        fun s => decide (.reply msg226 true ∈ s.log))) (ftpdStep session (line "RETR a\r\n"))
      = some (some (some 0), some true, true, some true) := by decide +kernel
  obtain ⟨s₀, hs₀, hrest⟩ := Option.map_eq_some_iff.mp hstart
  simp only [Prod.mk.injEq, decide_eq_true_eq] at hrest
  obtain ⟨hcurrent, hbuffer, hadmits, hend⟩ := hrest
  obtain ⟨s, hs, hreply⟩ := Option.map_eq_some_iff.mp hend
  have hstarted := session_retrStarted rfl rfl rfl (by decide) hs₀ hcurrent
  refine ⟨s₀, s, _, hstarted, hs, of_decide_eq_true hreply,
    retr_delivers_file hstarted (fun x hx hnone => ?_) hadmits hs⟩
  rw [hx, Option.map_some, hnone] at hbuffer
  cases hbuffer

/-- A file of six bytes, of which TCP takes three at a time. -/
def threeBytes : Env :=
  { calm with openFile := some ⟨[1, 2, 3, 4, 5, 6], 0⟩, data := ⟨3, true, true⟩ }

/-- A FIFO as `sfifo_init` sets it up for a session. -/
lemma DataState.fresh_of_fifo {x : DataState} (hsize : x.fifo.size = 2048)
    (hread : x.fifo.readpos = 0) (hwrite : x.fifo.writepos = 0) : x.Fresh := by
  refine ⟨⟨⟨11, by decide, hsize⟩, hread.ge, ?_, hwrite.ge, ?_, fun _ => ⟨hread, hwrite⟩⟩, ?_⟩
  · rw [hread, hsize]
    decide
  · rw [hwrite, hsize]
    decide
  · refine contents_eq_nil_of_used ?_
    rw [sfifoUsed, hsize, hread, hwrite]
    decide

/-- Without memory for the buffer of the FIFO, the file is read and dropped: nothing is
accepted by TCP, and the transfer ends all the same.  And over passive connections a second
connection gets the second half of the file. -/
theorem retr_not_delivered :
    (∃ s₀ s es, RetrStarted s₀ 0 ⟨[7], 0⟩ ∧ Admits ftpdStep (Concerns 0) s₀ es ∧
      exec ftpdStep s₀ es = some s ∧ sentOn 0 0 s.log = [] ∧ .reply msg226 true ∈ s.log ∧
      ¬ Delivers s₀ s 0 [7]) ∧
    ∃ s₀ s es, RetrStarted s₀ 0 ⟨[1, 2, 3, 4, 5, 6], 0⟩ ∧ CanBuffer s₀ 0 [1, 2, 3, 4, 5, 6] ∧
      Admits ftpdStep (Concerns 0) s₀ es ∧ exec ftpdStep s₀ es = some s ∧
      sentOn 0 2 s.log = [1, 2, 3] ∧ sentOn 0 3 s.log = [4, 5, 6] ∧ .reply msg226 true ∈ s.log ∧
      ¬ Delivers s₀ s 0 [1, 2, 3, 4, 5, 6] := by
  constructor
  · have hstart : Option.map (fun s₀ => (s₀.fsm.map MsgState.datafs,
        decide (Admits ftpdStep (Concerns 0) s₀
          [⟨.connected 0, calm⟩, ⟨.msgpoll, calm⟩, ⟨.msgpoll, calm⟩]),
        (exec ftpdStep s₀ [⟨.connected 0, calm⟩, ⟨.msgpoll, calm⟩, ⟨.msgpoll, calm⟩]).map
          fun s => decide (sentOn 0 0 s.log = [] ∧ .reply msg226 true ∈ s.log ∧
            sentOn 0 0 (s.log.drop s₀.log.length) = [] ∧
            .close 0 ∈ s.log.drop s₀.log.length)))
        (ftpdStep session ⟨.msgrecv [lit "RETR a\r\n"], { calm with mallocFifo := none }⟩)
        = some (some (some 0), true, some true) := by decide +kernel
    obtain ⟨s₀, hs₀, hrest⟩ := Option.map_eq_some_iff.mp hstart
    simp only [Prod.mk.injEq, decide_eq_true_eq] at hrest
    obtain ⟨hcurrent, hadmits, hend⟩ := hrest
    obtain ⟨s, hs, hlog⟩ := Option.map_eq_some_iff.mp hend
    obtain ⟨hsent, hreply, hnew, hended⟩ := of_decide_eq_true hlog
    have hstarted := session_retrStarted rfl rfl rfl (by decide) hs₀ hcurrent
    refine ⟨s₀, s, _, hstarted, hadmits, hs, hsent, hreply, fun hdelivers => ?_⟩
    have hall := hdelivers.complete hended
    rw [hnew] at hall
    cases hall
  · have hstart : Option.map (fun s₀ => (s₀.fsm.map fun m => (m.state, m.datafs),
        (s₀.data 0).map fun x => decide (x.vfsFile = some ⟨[1, 2, 3, 4, 5, 6], 0⟩ ∧
          x.fifo.size = 2048 ∧ x.fifo.readpos = 0 ∧ x.fifo.writepos = 0 ∧
          x.fifo.buffer.isSome = true),
        decide (Admits ftpdStep (Concerns 0) s₀
          [⟨.accept 1 true, threeBytes⟩, ⟨.accept 1 true, threeBytes⟩, ⟨.msgpoll, threeBytes⟩,
            ⟨.msgpoll, threeBytes⟩]),
        (exec ftpdStep s₀ [⟨.accept 1 true, threeBytes⟩, ⟨.accept 1 true, threeBytes⟩,
            ⟨.msgpoll, threeBytes⟩, ⟨.msgpoll, threeBytes⟩]).map
          fun s => decide (sentOn 0 2 s.log = [1, 2, 3] ∧ sentOn 0 3 s.log = [4, 5, 6] ∧
            .reply msg226 true ∈ s.log ∧
            sentOn 0 3 (s.log.drop s₀.log.length) = [4, 5, 6])))
        (exec ftpdStep session [line "PASV\r\n", ⟨.msgrecv [lit "RETR a\r\n"], threeBytes⟩])
        = some (some (.retr, some 0), some true, true, some true) := by decide +kernel
    obtain ⟨s₀, -, hrest⟩ := Option.map_eq_some_iff.mp hstart
    simp only [Prod.mk.injEq, decide_eq_true_eq, Option.map_eq_some_iff] at hrest
    obtain ⟨⟨m, hm, hstate, hcurrent⟩, ⟨x, hx, hfile, hsize, hread, hwrite, hbuffer⟩, hadmits,
      s, hs, hsent₂, hsent₃, hreply, hnew⟩ := hrest
    refine ⟨s₀, s, _, ⟨⟨m, hm, hstate, hcurrent⟩, x, hx, hfile, DataState.fresh_of_fifo hsize hread
      hwrite⟩,
      fun y hy hnone => ?_, hadmits, hs, hsent₂, hsent₃, hreply, fun hdelivers => ?_⟩
    · obtain rfl := Option.some.inj (hx.symm.trans hy)
      rw [hnone] at hbuffer
      cases hbuffer
    · have hprefix := hdelivers.prefix_of_log 3
      rw [hnew] at hprefix
      exact absurd hprefix (by decide)

end Teensy41Ethernet.Ftpd
