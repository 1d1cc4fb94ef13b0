import Teensy41Ethernet.Lib.Account
import Teensy41Ethernet.Lib.Program
import Teensy41Ethernet.Lwip.Pbuf
import Teensy41Ethernet.Ftpd.Sfifo
import Teensy41Ethernet.Ftpd.Vfs

/-!
# Sessions of the FTP daemon

The daemon keeps one `ftpd_msgstate` for a control connection and allocates an
`ftpd_datastate` for each data connection; the two point to each other, and the TCP control
blocks of the data connections carry a pointer to their data session as the argument of
their callbacks.  This file has the objects, the primitive operations on them, and the
functions of the daemon that serve a data connection.

All objects are explicit: a pointer is the number of an object, a freed object is gone from
its table, and the use of a null pointer or of a freed object is a fault, after which the
program says nothing.  What the environment answers during one callback (the allocator, TCP
and the SD card) is given by a record `Env`.  Two lists that the program never reads say what
it asked for: the paths it gave to the SD library, and the account of what it acquired and
released.
-/

namespace Teensy41Ethernet.Ftpd

open Lib Lwip

/-! ### Objects -/

/-- `enum ftpd_state_e` -/
inductive FtpdState where
  | user | pass | idle | nlst | list | retr | rnfr | stor | quit
deriving DecidableEq, Repr

/-- `struct ftpd_datastate`.  `vfsDir` is the directory with the entries that
`openNextFile` has yet to return, and `vfsDirent` the last entry it returned, which is itself
`none` at the end of the directory.  The pointer `vfs_dirent` leads to the temporary object in
which the entry was returned; it is read as if it lived on during the callback, and after that
it reads as what `Env.stale` says.  There is one control session, so `msgpcb` and `msgfs`
are either null pointers or point to it.  `dirHandle` and `fileHandle` are the numbers under
which the directory and the file were opened. -/
structure DataState where
  connected : Bool
  vfsDir : Option (List DirEntry)
  dirHandle : ℕ
  vfsDirent : Option (Option DirEntry)
  vfsFile : Option VfsFile
  fileHandle : ℕ
  fifo : Sfifo
  msgpcb : Bool
  msgfs : Bool

/-- `struct ftpd_msgstate`, without the file system, of which there is one, and without
`renamefrom`, which no command sets. -/
structure MsgState where
  state : FtpdState
  fifo : Sfifo
  dataip : List UInt8
  dataport : UInt16
  datapcb : Option ℕ
  datafs : Option ℕ
  passive : Bool

/-- The states of a TCP control block that make a difference for the daemon. -/
inductive PcbState where
  | created | listening | connecting | established
deriving DecidableEq, Repr

/-- The control block of a data connection: the argument of its callbacks, its state, and
which of `ftpd_datarecv`, `ftpd_datasent` and `ftpd_dataerr` are registered. -/
structure Pcb where
  arg : Option ℕ
  state : PcbState
  recv : Bool
  sent : Bool
  err : Bool
deriving DecidableEq

/-- What the daemon did that others can see: bytes of a data session that TCP accepted on a
connection, a reply (and whether it was put into the control FIFO), bytes of the control
session that TCP accepted, and the closing of a data connection. -/
inductive Action where
  | data (d : ℕ) (pcb : ℕ) (bytes : List UInt8)
  | reply (text : Str) (queued : Bool)
  | control (bytes : List UInt8)
  | close (pcb : ℕ)
deriving DecidableEq

/-- A call of the SD library with a path: by `vfs_stat`, `vfs_chdir`, `vfs_opendir` and
`vfs_open`, and for `MKD`, `RMD` and `DELE`. -/
inductive Call where
  | stat (path : Str)
  | chdir (path : Str)
  | opendir (path : Str)
  | openFile (path : Str)
  | mkdir (path : Str)
  | rmdir (path : Str)
  | remove (path : Str)
deriving DecidableEq

/-- What has to be released: an open file or directory, the buffer of a FIFO (of a data session,
or `none` for the control session), and a data session. -/
inductive Resource where
  | file (handle : ℕ)
  | dir (handle : ℕ)
  | buffer (d : Option ℕ)
  | session (d : ℕ)
deriving DecidableEq

/-- The daemon with one control session.  `fsm` is gone when the control session has been
freed; `port` is the static variable of `cmd_pasv`.  Files and directories are numbered in the
order in which they are opened; `nextHandle` is the next number. -/
structure Sys where
  fsm : Option MsgState
  data : ℕ → Option DataState
  nextData : ℕ
  pcbs : ℕ → Option Pcb
  nextPcb : ℕ
  port : UInt16
  cwd : Str
  localIp : List UInt8
  log : List Action
  calls : List Call
  account : List (Entry Resource)
  nextHandle : ℕ

/-- Why a callback has no result: it is not the turn of this callback, the program uses a null
pointer, a freed object or more of a buffer than there is, or a loop does not end. -/
inductive Fault where
  | notCalled
  | nullArg | nullMsgfs | nullDatafs | nullDir | nullFile | nullPcb | nullCopy
  | freed
  | overflow
  | stuck
deriving DecidableEq, Repr

/-- What `tcp_bind` returns: `ERR_OK`, `ERR_USE` or another error. -/
inductive BindResult where
  | ok | use | other
deriving DecidableEq, Repr

/-- What the environment answers during one callback. -/
structure Env where
  /-- TCP for the replies of the callback, in order, and for its data. -/
  msg₁ : Drain
  msg₂ : Drain
  data : Drain
  /-- The allocator: for a data session, for the buffer of its FIFO, for a copy of a command
  line or of the working directory, and to enlarge the working directory. -/
  mallocData : Bool
  mallocFifo : Option (ℕ → UInt8)
  mallocText : Bool
  strdup : Bool
  realloc : Bool
  /-- TCP for a new data connection. -/
  tcpNew : Bool
  tcpConnect : Bool
  tcpBind : UInt16 → BindResult
  tcpListen : Bool
  /-- Whether the state of the control connection is at most `ESTABLISHED`. -/
  controlOpen : Bool
  /-- The SD card. -/
  isDir : Str → Bool
  opendir : Option (List DirEntry)
  /-- What the entry in `vfs_dirent` reads as, if its memory has been used for something else
  since an earlier callback. -/
  stale : Option (Option DirEntry)
  stat : Option ℕ
  junk : UInt8 × ℕ
  openFile : Option VfsFile
  mkdir : Bool
  rmdir : Bool
  remove : Bool
  read : ℕ
  write : List ℕ

/-- A function of the daemon. -/
abbrev FtpdM := Prog Sys Fault

/-! ### Access to objects -/

/-- `*fsm` -/
def getMsg : FtpdM MsgState := do
  match (← get).fsm with
  | some m => pure m
  | none => throw .freed

/-- An assignment to fields of `*fsm`. -/
def setMsg (f : MsgState → MsgState) : FtpdM Unit := do
  let m ← getMsg
  modify fun s => { s with fsm := some (f m) }

/-- `*fsd` for the data session `d`. -/
def getData (d : ℕ) : FtpdM DataState := do
  match (← get).data d with
  | some x => pure x
  | none => throw .freed

/-- An assignment to fields of `*fsd`. -/
def setData (d : ℕ) (f : DataState → DataState) : FtpdM Unit := do
  let x ← getData d
  modify fun s => { s with data := Function.update s.data d (some (f x)) }

/-- Record a call of the SD library. -/
def note (c : Call) : FtpdM Unit := modify fun s => { s with calls := s.calls ++ [c] }

/-- Record what was acquired or released. -/
def record (es : List (Entry Resource)) : FtpdM Unit :=
  modify fun s => { s with account := s.account ++ es }

/-- An entry for a buffer, if there is one. -/
def bufferEntry (buffer : Option (ℕ → UInt8)) (e : Entry Resource) : List (Entry Resource) :=
  if buffer.isSome then [e] else []

/-- `free(fsd)` -/
def freeData (d : ℕ) : FtpdM Unit := do
  let _ ← getData d
  record [.release (.session d)]
  modify fun s => { s with data := Function.update s.data d none }

/-- `sfifo_close(&fsd->fifo)` -/
def closeFifo (d : ℕ) : FtpdM Unit := do
  let x ← getData d
  record (bufferEntry x.fifo.buffer (.release (.buffer (some d))))

/-- `vfs_close(fsd->vfs_file); fsd->vfs_file = NULL;` -/
def closeFile (d : ℕ) : FtpdM Unit := do
  let x ← getData d
  record [.release (.file x.fileHandle)]
  setData d fun x => { x with vfsFile := none }

/-- `vfs_closedir(fsd->vfs_dir); fsd->vfs_dir = NULL;` -/
def closeDir (d : ℕ) : FtpdM Unit := do
  let x ← getData d
  record [.release (.dir x.dirHandle)]
  setData d fun x => { x with vfsDir := none }

/-- `fsd->msgfs` where it is dereferenced. -/
def checkMsgfs (d : ℕ) : FtpdM Unit := do
  let x ← getData d
  if x.msgfs then pure () else throw .nullMsgfs

/-- A control block that is dereferenced. -/
def checkPcb (pcb : Option ℕ) : FtpdM ℕ := do
  match pcb with
  | none => throw .nullPcb
  | some i =>
    match (← get).pcbs i with
    | some _ => pure i
    | none => throw .freed

/-- `tcp_arg`, `tcp_recv`, `tcp_sent` and `tcp_err`, which do nothing for a null pointer.  A
listening control block is a shorter object: in the source `tcp_recv` and `tcp_sent` on one, in
`ftpd_dataclose` and `cmd_abrt`, store behind its end.  Here they only set its flags. -/
def setPcb (pcb : Option ℕ) (f : Pcb → Pcb) : FtpdM Unit := do
  match pcb with
  | none => pure ()
  | some i =>
    match (← get).pcbs i with
    | some p => modify fun s => { s with pcbs := Function.update s.pcbs i (some (f p)) }
    | none => throw .freed

/-- `tcp_close` of a data connection.  The daemon gets no callback for it any more. -/
def tcpClose (pcb : Option ℕ) : FtpdM Unit := do
  let i ← checkPcb pcb
  modify fun s => { s with pcbs := Function.update s.pcbs i none, log := s.log ++ [.close i] }

/-- Record what was done. -/
def emit (a : Action) : FtpdM Unit := modify fun s => { s with log := s.log ++ [a] }

section Rules

variable {E : Fault → Prop} {s : Sys}

lemma wp_getMsg {Q : MsgState → Sys → Prop} : wp getMsg Q E s ↔
    (∀ m, s.fsm = some m → Q m s) ∧ (s.fsm = none → E .freed) := by
  simp only [getMsg, wp_bind, wp_get]
  cases s.fsm with
  | none => simp
  | some m => simp

lemma wp_setMsg {Q : Unit → Sys → Prop} {f : MsgState → MsgState} : wp (setMsg f) Q E s ↔
    (∀ m, s.fsm = some m → Q () { s with fsm := some (f m) }) ∧ (s.fsm = none → E .freed) := by
  simp only [setMsg, wp_bind, wp_getMsg, wp_modify]

lemma wp_getData {Q : DataState → Sys → Prop} {d : ℕ} : wp (getData d) Q E s ↔
    (∀ x, s.data d = some x → Q x s) ∧ (s.data d = none → E .freed) := by
  simp only [getData, wp_bind, wp_get]
  cases s.data d with
  | none => simp
  | some x => simp

lemma wp_setData {Q : Unit → Sys → Prop} {d : ℕ} {f : DataState → DataState} :
    wp (setData d f) Q E s ↔
      (∀ x, s.data d = some x →
        Q () { s with data := Function.update s.data d (some (f x)) }) ∧
      (s.data d = none → E .freed) := by
  simp only [setData, wp_bind, wp_getData, wp_modify]

/-! The same where the pointer is known to lead somewhere. -/

lemma wp_getMsg_of {Q : MsgState → Sys → Prop} {m : MsgState} (hm : s.fsm = some m) :
    wp getMsg Q E s ↔ Q m s := by
  rw [wp_getMsg, hm]
  exact ⟨fun h => h.1 m rfl, fun h => ⟨fun _ hm' => Option.some.inj hm' ▸ h, fun h => (by cases h)⟩⟩

lemma wp_setMsg_of {Q : Unit → Sys → Prop} {f : MsgState → MsgState} {m : MsgState}
    (hm : s.fsm = some m) : wp (setMsg f) Q E s ↔ Q () { s with fsm := some (f m) } := by
  rw [setMsg, wp_bind, wp_getMsg_of hm, wp_modify]

lemma wp_getData_of {Q : DataState → Sys → Prop} {d : ℕ} {x : DataState} (hx : s.data d = some x) :
    wp (getData d) Q E s ↔ Q x s := by
  rw [wp_getData, hx]
  exact ⟨fun h => h.1 x rfl, fun h => ⟨fun _ hx' => Option.some.inj hx' ▸ h, fun h => (by cases h)⟩⟩

lemma wp_setData_of {Q : Unit → Sys → Prop} {d : ℕ} {f : DataState → DataState} {x : DataState}
    (hx : s.data d = some x) :
    wp (setData d f) Q E s ↔ Q () { s with data := Function.update s.data d (some (f x)) } := by
  rw [setData, wp_bind, wp_getData_of hx, wp_modify]

lemma wp_note {Q : Unit → Sys → Prop} {c : Call} : wp (note c) Q E s ↔
    Q () { s with calls := s.calls ++ [c] } := Iff.rfl

lemma wp_record {Q : Unit → Sys → Prop} {es : List (Entry Resource)} : wp (record es) Q E s ↔
    Q () { s with account := s.account ++ es } := Iff.rfl

lemma wp_freeData {Q : Unit → Sys → Prop} {d : ℕ} : wp (freeData d) Q E s ↔
    (∀ x, s.data d = some x → Q () { s with
      data := Function.update s.data d none
      account := s.account ++ [.release (.session d)] }) ∧
      (s.data d = none → E .freed) := by
  simp only [freeData, wp_bind, wp_getData, wp_record, wp_modify]

lemma wp_closeFifo {Q : Unit → Sys → Prop} {d : ℕ} : wp (closeFifo d) Q E s ↔
    (∀ x, s.data d = some x → Q () { s with
      account := s.account ++ bufferEntry x.fifo.buffer (.release (.buffer (some d))) }) ∧
      (s.data d = none → E .freed) := by
  simp only [closeFifo, wp_bind, wp_getData, wp_record]

lemma wp_closeFile {Q : Unit → Sys → Prop} {d : ℕ} : wp (closeFile d) Q E s ↔
    (∀ x, s.data d = some x → Q () { s with
      data := Function.update s.data d (some { x with vfsFile := none })
      account := s.account ++ [.release (.file x.fileHandle)] }) ∧
      (s.data d = none → E .freed) := by
  simp only [closeFile, wp_bind, wp_getData, wp_record, wp_setData]
  cases s.data d with
  | none => simp
  | some x => simp

lemma wp_closeDir {Q : Unit → Sys → Prop} {d : ℕ} : wp (closeDir d) Q E s ↔
    (∀ x, s.data d = some x → Q () { s with
      data := Function.update s.data d (some { x with vfsDir := none })
      account := s.account ++ [.release (.dir x.dirHandle)] }) ∧
      (s.data d = none → E .freed) := by
  simp only [closeDir, wp_bind, wp_getData, wp_record, wp_setData]
  cases s.data d with
  | none => simp
  | some x => simp

lemma wp_checkMsgfs {Q : Unit → Sys → Prop} {d : ℕ} : wp (checkMsgfs d) Q E s ↔
    (∀ x, s.data d = some x →
      (x.msgfs = true → Q () s) ∧ (x.msgfs = false → E .nullMsgfs)) ∧
      (s.data d = none → E .freed) := by
  simp only [checkMsgfs, wp_bind, wp_getData, wp_ite, wp_pure, wp_throw, Bool.not_eq_true]

lemma wp_checkPcb {Q : ℕ → Sys → Prop} {pcb : Option ℕ} : wp (checkPcb pcb) Q E s ↔
    (∀ i, pcb = some i → ∀ p, s.pcbs i = some p → Q i s) ∧ (pcb = none → E .nullPcb) ∧
      (∀ i, pcb = some i → s.pcbs i = none → E .freed) := by
  unfold checkPcb
  cases pcb with
  | none => simp
  | some i =>
    simp only [wp_bind, wp_get]
    cases h : s.pcbs i with
    | none => simp [h]
    | some p => simp [h]

lemma wp_setPcb {Q : Unit → Sys → Prop} {pcb : Option ℕ} {f : Pcb → Pcb} :
    wp (setPcb pcb f) Q E s ↔
      (pcb = none → Q () s) ∧
      (∀ i, pcb = some i → ∀ p, s.pcbs i = some p →
        Q () { s with pcbs := Function.update s.pcbs i (some (f p)) }) ∧
      (∀ i, pcb = some i → s.pcbs i = none → E .freed) := by
  unfold setPcb
  cases pcb with
  | none => simp
  | some i =>
    simp only [wp_bind, wp_get]
    cases h : s.pcbs i with
    | none => simp [h]
    | some p => simp [h]

lemma wp_tcpClose {Q : Unit → Sys → Prop} {pcb : Option ℕ} : wp (tcpClose pcb) Q E s ↔
    (∀ i, pcb = some i → ∀ p, s.pcbs i = some p →
        Q () { s with pcbs := Function.update s.pcbs i none, log := s.log ++ [.close i] }) ∧
      (pcb = none → E .nullPcb) ∧ (∀ i, pcb = some i → s.pcbs i = none → E .freed) := by
  simp only [tcpClose, wp_bind, wp_checkPcb, wp_modify]

lemma wp_emit {Q : Unit → Sys → Prop} {a : Action} : wp (emit a) Q E s ↔
    Q () { s with log := s.log ++ [a] } := Iff.rfl

end Rules

/-! ### Replies -/

/-- `send_msg` of a formatted reply: it is dropped if the FIFO has no room for it.  What
`sfifo_write` returns is not looked at; it is `-ENODEV` if the FIFO has no buffer, and then the
reply is not queued either. -/
def sendMsg (dr : Drain) (text : Str) : FtpdM Unit := do
  let line := text ++ lit "\r\n"
  -- char buffer[1024]
  if line.length + 1 > 1024 then throw .overflow
  let m ← getMsg
  if sfifoSpace m.fifo < line.length then emit (.reply text false)
  else
    let w := sfifoWrite m.fifo line
    let r := sendMsgdata w.2 dr
    setMsg fun m => { m with fifo := r.2 }
    emit (.reply text (w.1 = line.length))
    emit (.control r.1.flatten)

/-- A reply changes the control FIFO and the log. -/
lemma sendMsg_spec (dr : Drain) (text : Str) (s : Sys) :
    wp (sendMsg dr text) (fun _ s' => s'.data = s.data ∧
      (∃ m fifo, s.fsm = some m ∧ s'.fsm = some { m with fifo := fifo }) ∧
      ∃ queued l, s'.log = s.log ++ .reply text queued :: l ∧ ∀ a ∈ l, ∃ bytes, a = .control bytes)
      (fun _ => True) s := by
  unfold sendMsg
  dsimp only
  rw [wp_ite]
  refine ⟨fun _ => trivial, fun _ => ?_⟩
  rw [wp_bind, wp_getMsg]
  refine ⟨fun m hm => ?_, fun _ => trivial⟩
  rw [wp_ite]
  refine ⟨fun _ => ⟨rfl, ⟨m, m.fifo, hm, hm⟩, false, [], rfl, by simp⟩, fun _ => ?_⟩
  rw [wp_bind, wp_setMsg_of hm]
  rw [wp_bind, wp_emit, wp_emit]
  refine ⟨rfl, ⟨m, _, hm, rfl⟩, _, _, List.append_assoc _ _ _, ?_⟩
  simp

def msg150 : Str := lit "150 File status okay; about to open data connection."
def msg200 : Str := lit "200 Command okay."
def msg214SYST (sys : Str) : Str := lit "214 " ++ sys ++ lit " system type."
def msg220 : Str := lit "220 lwIP FTP Server ready."
def msg221 : Str := lit "221 Goodbye."
def msg226 : Str := lit "226 Closing data connection."
def msg230 : Str := lit "230 User logged in, proceed."
def msg250 : Str := lit "250 Requested file action okay, completed."
def msg331 : Str := lit "331 User name okay, need password."
def msg451 : Str := lit "451 Requested action aborted: local error in processing."
def msg501 : Str := lit "501 Syntax error in parameters or arguments."
def msg502 : Str := lit "502 Command not implemented."
def msg550 : Str := lit "550 Requested action not taken."

/-! ### Data connections -/

/-- `ftpd_dataerr`.  TCP has freed the control block before. -/
def ftpdDataerr (arg : Option ℕ) : FtpdM Unit := do
  match arg with
  | none => pure ()
  | some d =>
    checkMsgfs d
    setMsg fun m => { m with datafs := none, state := .idle }
    freeData d

/-- `ftpd_dataclose` -/
def ftpdDataclose (pcb : Option ℕ) (d : ℕ) : FtpdM Unit := do
  setPcb pcb fun p => { p with arg := none, sent := false, recv := false }
  checkMsgfs d
  setMsg fun m => { m with datafs := none }
  closeFifo d
  freeData d
  tcpClose pcb

/-- Closing a data session that is there, with a control block that is there. -/
lemma wp_ftpdDataclose {Q : Unit → Sys → Prop} {E : Fault → Prop} {s : Sys} {m : MsgState}
    {x : DataState} {p : Pcb} {d i : ℕ} (hm : s.fsm = some m) (hx : s.data d = some x)
    (hp : s.pcbs i = some p) :
    wp (ftpdDataclose (some i) d) Q E s ↔
      (x.msgfs = true → Q () { s with
        fsm := some { m with datafs := none }
        data := Function.update s.data d none
        pcbs := Function.update s.pcbs i none
        log := s.log ++ [.close i]
        account := s.account ++ bufferEntry x.fifo.buffer (.release (.buffer (some d))) ++
          [.release (.session d)] }) ∧
      (x.msgfs = false → E .nullMsgfs) := by
  simp [ftpdDataclose, wp_setPcb, wp_checkMsgfs, wp_setMsg, wp_closeFifo, wp_freeData, wp_tcpClose,
    hm, hx, hp]

/-- Closing a data session clears the pointer to the current one, frees the session and closes
the connection. -/
lemma ftpdDataclose_spec (pcb : Option ℕ) (d : ℕ) (s : Sys) :
    wp (ftpdDataclose pcb d) (fun _ s' => s'.data = Function.update s.data d none ∧
      (∃ m, s.fsm = some m ∧ s'.fsm = some { m with datafs := none }) ∧
      ∃ i, pcb = some i ∧ s'.log = s.log ++ [.close i]) (fun _ => True) s := by
  have hset : wp (setPcb pcb fun p => { p with arg := none, sent := false, recv := false })
      (fun _ s' => s'.data = s.data ∧ s'.fsm = s.fsm ∧ s'.log = s.log) (fun _ => True) s :=
    wp_setPcb.mpr ⟨fun _ => ⟨rfl, rfl, rfl⟩, fun _ _ _ _ => ⟨rfl, rfl, rfl⟩, fun _ _ _ => trivial⟩
  unfold ftpdDataclose
  refine wp_seq hset ?_
  rintro _ s₁ ⟨hdata, hfsm, hlog⟩
  rw [wp_bind, wp_checkMsgfs]
  refine ⟨fun x hx => ⟨fun _ => ?_, fun _ => trivial⟩, fun _ => trivial⟩
  rw [wp_bind, wp_setMsg]
  refine ⟨fun m hm => ?_, fun _ => trivial⟩
  have hclose : wp (closeFifo d) (fun _ s' => s'.data = s₁.data ∧
      s'.fsm = some { m with datafs := none } ∧ s'.log = s₁.log) (fun _ => True)
      { s₁ with fsm := some { m with datafs := none } } :=
    wp_closeFifo.mpr ⟨fun _ _ => ⟨rfl, rfl, rfl⟩, fun _ => trivial⟩
  refine wp_seq hclose ?_
  rintro _ s₂ ⟨hdata₂, hfsm₂, hlog₂⟩
  rw [wp_bind, wp_freeData]
  refine ⟨fun _ _ => ?_, fun _ => trivial⟩
  rw [wp_tcpClose]
  refine ⟨fun i hi p _ => ?_, fun _ => trivial, fun _ _ _ => trivial⟩
  exact ⟨by rw [hdata₂, hdata], ⟨m, hfsm ▸ hm, hfsm₂⟩, i, hi, by rw [hlog₂, hlog]⟩

/-- `send_data` -/
def sendDataTo (pcb : Option ℕ) (d : ℕ) (dr : Drain) : FtpdM Unit := do
  let x ← getData d
  if sfifoUsed x.fifo > 0 then
    let i ← checkPcb pcb
    let r := sendData x.fifo dr
    setData d fun x => { x with fifo := r.2 }
    emit (.data d i r.1.flatten)

/-- The end of a transfer, as it stands in `send_file`, `send_next_directory` and
`ftpd_datarecv`. -/
def endTransfer (d : ℕ) (pcb : Option ℕ) (env : Env) : FtpdM Unit := do
  ftpdDataclose pcb d
  setMsg fun m => { m with datapcb := none, datafs := none, state := .idle }
  sendMsg env.msg₁ msg226

/-- The end of a transfer frees the session, and what it adds to the log starts with the
closing of the connection and reply 226. -/
lemma endTransfer_spec (d : ℕ) (pcb : Option ℕ) (env : Env) (s : Sys) :
    wp (endTransfer d pcb env) (fun _ s' => s'.data = Function.update s.data d none ∧
      (∃ m, s'.fsm = some m ∧ m.datafs = none ∧ m.state = .idle) ∧
      ∃ i queued l, pcb = some i ∧ s'.log = s.log ++ .close i :: .reply msg226 queued :: l ∧
        ∀ a ∈ l, ∃ bytes, a = .control bytes) (fun _ => True) s := by
  unfold endTransfer
  refine wp_seq (ftpdDataclose_spec pcb d s) ?_
  rintro _ s₁ ⟨hdata₁, -, i, hi, hlog₁⟩
  rw [wp_bind, wp_setMsg]
  refine ⟨fun m _ => ?_, fun _ => trivial⟩
  refine wp_mono (sendMsg_spec env.msg₁ msg226 _) ?_ fun _ _ => trivial
  rintro _ s' ⟨hdata, ⟨m', fifo, hm', hfsm⟩, queued, l, hlog, hl⟩
  obtain rfl := Option.some.inj hm'
  refine ⟨hdata.trans hdata₁, ⟨_, hfsm, rfl, rfl⟩, i, queued, l, hi, ?_, hl⟩
  rw [hlog, hlog₁, List.append_assoc]
  rfl

/-- `send_file` -/
def sendFile (d : ℕ) (pcb : Option ℕ) (env : Env) : FtpdM Unit := do
  let x ← getData d
  if !x.connected then return
  match x.vfsFile with
  | some file =>
    let len := sfifoSpace x.fifo
    if len = 0 then sendDataTo pcb d env.data
    else
      let len := if len > 2048 then 2048 else len
      let r := vfsRead file len.toNat env.read
      if r.1 = [] then
        if vfsEof r.2 then closeFile d
        else setData d fun x => { x with vfsFile := some r.2 }
      else
        setData d fun x => { x with vfsFile := some r.2, fifo := (sfifoWrite x.fifo r.1).2 }
        sendDataTo pcb d env.data
  | none =>
    if sfifoUsed x.fifo > 0 then sendDataTo pcb d env.data
    else endTransfer d pcb env

/-- The line of a directory entry in a listing. -/
def dirLine (e : DirEntry) : Str :=
  if e.isDirectory then e.name ++ lit "/ \r\n"
  else e.name ++ lit "  " ++ decInt e.size ++ lit "\r\n"

/-- `if (fsd->vfs_dirent == NULL) fsd->vfs_dirent = &(fsd->vfs_dir->openNextFile());` -/
def nextDirent (d : ℕ) : FtpdM (Option DirEntry) := do
  let x ← getData d
  match x.vfsDirent, x.vfsDir with
  | some ent, _ => pure ent
  | none, none => throw .nullDir
  | none, some es =>
    setData d fun x => { x with vfsDir := some es.tail, vfsDirent := some es.head? }
    pure es.head?

/-- The loop of `send_next_directory`; each round but the last uses up an entry. -/
def sendDirLoop (d : ℕ) (pcb : Option ℕ) (env : Env) : ℕ → FtpdM Unit
  | 0 => throw .stuck
  | fuel + 1 => do
    match ← nextDirent d with
    | some e =>
      let line := dirLine e
      -- char buffer[1024]
      if line.length + 1 > 1024 then throw .overflow
      let x ← getData d
      if sfifoSpace x.fifo < line.length then sendDataTo pcb d env.data
      else
        setData d fun x => { x with fifo := (sfifoWrite x.fifo line).2, vfsDirent := none }
        sendDirLoop d pcb env fuel
    | none =>
      let x ← getData d
      if sfifoUsed x.fifo > 0 then sendDataTo pcb d env.data
      else
        match x.vfsDir with
        | none => throw .nullDir
        | some _ =>
          closeDir d
          endTransfer d pcb env

/-- `send_next_directory`; its argument `shortlist` is not used. -/
def sendNextDirectory (d : ℕ) (pcb : Option ℕ) (_shortlist : Bool) (env : Env) : FtpdM Unit := do
  let x ← getData d
  -- an entry from an earlier callback is in memory that may have been overwritten
  setData d fun x => { x with vfsDirent := x.vfsDirent.map env.stale.getD }
  sendDirLoop d pcb env ((x.vfsDir.getD []).length + 2)

/-- The `switch` on the state of the control session that `ftpd_datasent`,
`ftpd_dataconnected`, `ftpd_dataaccept` and `ftpd_msgpoll` have in common. -/
def serve (d : ℕ) (pcb : Option ℕ) (env : Env) : FtpdM Unit := do
  let m ← getMsg
  match m.state with
  | .list => sendNextDirectory d pcb false env
  | .nlst => sendNextDirectory d pcb true env
  | .retr => sendFile d pcb env
  | _ => pure ()

/-- A callback argument that is dereferenced. -/
def checkArg (arg : Option ℕ) : FtpdM ℕ := do
  match arg with
  | none => throw .nullArg
  | some d => pure d

lemma wp_checkArg {Q : ℕ → Sys → Prop} {E : Fault → Prop} {s : Sys} {arg : Option ℕ} :
    wp (checkArg arg) Q E s ↔ (∀ d, arg = some d → Q d s) ∧ (arg = none → E .nullArg) := by
  unfold checkArg
  cases arg with
  | none => simp
  | some d => simp

/-- `ftpd_datasent` -/
def ftpdDatasent (arg : Option ℕ) (pcb : ℕ) (env : Env) : FtpdM Unit := do
  let d ← checkArg arg
  checkMsgfs d
  serve d (some pcb) env

/-- The loop of `ftpd_datarecv` over the members of the packet. -/
def recvLoop (d : ℕ) : Chain → List ℕ → FtpdM Unit
  | [], _ => pure ()
  | seg :: p, ks => do
    let x ← getData d
    match x.vfsFile with
    | none => throw .nullFile
    | some file =>
      let r := vfsWrite file seg (ks.headD seg.length)
      setData d fun x => { x with vfsFile := some r.2 }
      if r.1 = seg.length then recvLoop d p ks.tail

/-- `ftpd_datarecv`; `none` is the end of the connection. -/
def ftpdDatarecv (arg : Option ℕ) (pcb : ℕ) (p : Option Chain) (env : Env) : FtpdM Unit := do
  let d ← checkArg arg
  match p with
  | some p => recvLoop d p env.write
  | none =>
    let x ← getData d
    match x.vfsFile with
    | none => throw .nullFile
    | some _ =>
      closeFile d
      endTransfer d (some pcb) env

/-- The common body of `ftpd_dataconnected` and `ftpd_dataaccept`, which differ only in the
Nagle algorithm. -/
def dataOpened (arg : Option ℕ) (pcb : Option ℕ) (env : Env) : FtpdM Unit := do
  let d ← checkArg arg
  checkMsgfs d
  setMsg fun m => { m with datapcb := pcb }
  setData d fun x => { x with connected := true }
  setPcb pcb fun p => { p with recv := true, sent := true, err := true }
  serve d pcb env

/-- `ftpd_dataconnected` -/
def ftpdDataconnected (arg : Option ℕ) (pcb : ℕ) (env : Env) : FtpdM Unit :=
  dataOpened arg (some pcb) env

/-- `ftpd_dataaccept`; the control block is a null pointer when TCP could not allocate one. -/
def ftpdDataaccept (arg : Option ℕ) (pcb : Option ℕ) (env : Env) : FtpdM Unit :=
  dataOpened arg pcb env

end Teensy41Ethernet.Ftpd
