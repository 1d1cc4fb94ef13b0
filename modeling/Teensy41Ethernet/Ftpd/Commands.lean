import Teensy41Ethernet.Lib.Run
import Teensy41Ethernet.Ftpd.Session

/-!
# Commands and events of the FTP daemon

The command handlers, the parser of command lines in `ftpd_msgrecv`, and the callbacks that
TCP makes for the control connection and for the data connections: `ftpdStep` is one of
them.  Which callbacks TCP can make, and with which argument, follows from the control
blocks: for a connection that is closed or has no callback registered there is none.
-/

namespace Teensy41Ethernet.Ftpd

open Lib Lwip

/-! ### Opening data connections -/

/-- `sfifo_init(&fsm->datafs->fifo, 2000)` for the data session `d`; the return code is not
looked at. -/
def dataFifo (d : ℕ) (env : Env) : FtpdM Sfifo := do
  match sfifoInit 2000 env.mallocFifo with
  | some r =>
    record (bufferEntry env.mallocFifo (.acquire (.buffer (some d))))
    pure r.2
  | none => throw .stuck

/-- A data session filled with zeros. -/
def DataState.zero : DataState := ⟨false, none, 0, none, none, 0, ⟨none, 0, 0, 0⟩, false, false⟩

/-- Allocate a data session and let `fsm->datafs` point to it. -/
def allocData : FtpdM ℕ := do
  let d := (← get).nextData
  record [.acquire (.session d)]
  modify fun s => { s with
    data := Function.update s.data d (some DataState.zero)
    nextData := d + 1 }
  setMsg fun m => { m with datafs := some d }
  pure d

/-- Add a control block. -/
def newPcb (p : Pcb) : FtpdM ℕ := do
  let i := (← get).nextPcb
  modify fun s => { s with pcbs := Function.update s.pcbs i (some p), nextPcb := i + 1 }
  pure i

/-- `tcp_new` -/
def tcpNew (env : Env) : FtpdM (Option ℕ) := do
  if env.tcpNew then
    let i ← newPcb ⟨none, .created, false, false, false⟩
    pure (some i)
  else pure none

/-- `open_dataconnection`: whether it succeeds. -/
def openDataconnection (dr : Drain) (env : Env) : FtpdM Bool := do
  if (← getMsg).passive then return true
  if !env.mallocData then
    setMsg fun m => { m with datafs := none }
    sendMsg dr msg451
    return false
  let d ← allocData
  setData d fun x => { x with msgfs := true, msgpcb := true }
  let fifo ← dataFifo d env
  setData d fun x => { x with fifo := fifo }
  let pcb ← tcpNew env
  setMsg fun m => { m with datapcb := pcb }
  setPcb pcb fun p => { p with arg := some d }
  -- tcp_connect(fsm->datapcb, &dataip, fsm->dataport, ftpd_dataconnected)
  let i ← checkPcb pcb
  setPcb (some i) fun p => if env.tcpConnect then { p with state := .connecting } else p
  return true

/-- `fsm->datafs` where it is dereferenced. -/
def checkDatafs : FtpdM ℕ := do
  match (← getMsg).datafs with
  | some d => pure d
  | none => throw .nullDatafs

lemma wp_checkDatafs {Q : ℕ → Sys → Prop} {E : Fault → Prop} {s : Sys} :
    wp checkDatafs Q E s ↔
      (∀ m, s.fsm = some m →
        (∀ d, m.datafs = some d → Q d s) ∧ (m.datafs = none → E .nullDatafs)) ∧
      (s.fsm = none → E .freed) := by
  simp only [checkDatafs, wp_bind, wp_getMsg]
  refine and_congr_left' (forall₂_congr fun m _ => ?_)
  cases m.datafs with
  | none => simp
  | some d => simp

/-! ### Files and directories -/

/-- The number of the next file or directory that is opened. -/
def newHandle : FtpdM ℕ := do
  let h := (← get).nextHandle
  modify fun s => { s with nextHandle := h + 1 }
  pure h

/-- `vfs_opendir`: the entries of the directory and its number. -/
def vfsOpendir (path : Str) (env : Env) : FtpdM (Option (List DirEntry × ℕ)) := do
  note (.opendir path)
  match env.opendir with
  | none => pure none
  | some es =>
    let h ← newHandle
    record [.acquire (.dir h)]
    pure (some (es, h))

/-- `vfs_open`: the file and its number. -/
def vfsOpen (path : Str) (env : Env) : FtpdM (Option (VfsFile × ℕ)) := do
  note (.openFile path)
  match env.openFile with
  | none => pure none
  | some file =>
    let h ← newHandle
    record [.acquire (.file h)]
    pure (some (file, h))

section Rules

variable {E : Fault → Prop} {s : Sys} {path : Str} {env : Env}

lemma wp_vfsOpendir {Q : Option (List DirEntry × ℕ) → Sys → Prop} :
    wp (vfsOpendir path env) Q E s ↔
      (env.opendir = none → Q none { s with calls := s.calls ++ [.opendir path] }) ∧
      ∀ es, env.opendir = some es → Q (some (es, s.nextHandle)) { s with
        calls := s.calls ++ [.opendir path]
        nextHandle := s.nextHandle + 1
        account := s.account ++ [.acquire (.dir s.nextHandle)] } := by
  unfold vfsOpendir newHandle
  cases env.opendir with
  | none => simp [wp_note]
  | some es => simp [wp_note, wp_record]

lemma wp_vfsOpen {Q : Option (VfsFile × ℕ) → Sys → Prop} :
    wp (vfsOpen path env) Q E s ↔
      (env.openFile = none → Q none { s with calls := s.calls ++ [.openFile path] }) ∧
      ∀ file, env.openFile = some file → Q (some (file, s.nextHandle)) { s with
        calls := s.calls ++ [.openFile path]
        nextHandle := s.nextHandle + 1
        account := s.account ++ [.acquire (.file s.nextHandle)] } := by
  unfold vfsOpen newHandle
  cases env.openFile with
  | none => simp [wp_note]
  | some file => simp [wp_note, wp_record]

end Rules

/-! ### Command handlers -/

/-- The argument of a command where it is dereferenced. -/
def checkStr (arg : Option Str) : FtpdM Str := do
  match arg with
  | some a => pure a
  | none => throw .nullArg

def cmdUser (_arg : Option Str) (env : Env) : FtpdM Unit := do
  sendMsg env.msg₁ msg331
  setMsg fun m => { m with state := .pass }

def cmdPass (_arg : Option Str) (env : Env) : FtpdM Unit := do
  sendMsg env.msg₁ msg230
  setMsg fun m => { m with state := .idle }

def isSpace (c : UInt8) : Bool := c = 32 ∨ (9 ≤ c ∧ c ≤ 13)

def isDigit (c : UInt8) : Bool := 48 ≤ c ∧ c ≤ 57

/-- One conversion `%u` of `sscanf`: white space, an optional sign and at least one digit.
The value of a number that does not fit is the largest one. -/
def scanU (text : Str) : Option (ℕ × Str) :=
  let text := text.dropWhile isSpace
  let neg := text.head? = some 45
  let text := if text.head? = some 45 ∨ text.head? = some 43 then text.tail else text
  let digits := text.takeWhile isDigit
  if digits = [] then none
  else
    let value : ℕ := digits.foldl (fun v c => v * 10 + (c.toNat - 48)) 0
    let value := if value < 2 ^ 32 then value else 2 ^ 32 - 1
    some (if neg then (2 ^ 32 - value) % 2 ^ 32 else value, text.drop digits.length)

/-- `n` more conversions, each after a comma. -/
def scanMore : ℕ → Str → Option (List ℕ)
  | 0, _ => some []
  | n + 1, text =>
      match text with
      | 44 :: text =>
          (scanU text).bind fun r => (scanMore n r.2).map fun vs => r.1 :: vs
      | _ => none

/-- `sscanf(arg, "%u,%u,%u,%u,%u,%u", ...)` if all six conversions succeed. -/
def scanPort (text : Str) : Option (List ℕ) :=
  (scanU text).bind fun r => (scanMore 5 r.2).map fun vs => r.1 :: vs

def cmdPort (arg : Option Str) (env : Env) : FtpdM Unit := do
  match scanPort (← checkStr arg) with
  | some [i₀, i₁, i₂, i₃, pHi, pLo] =>
    setMsg fun m => { m with
      dataip := [UInt8.ofNat i₀, UInt8.ofNat i₁, UInt8.ofNat i₂, UInt8.ofNat i₃]
      dataport := (UInt16.ofNat pHi <<< 8) ||| UInt16.ofNat pLo }
    sendMsg env.msg₁ msg200
  | _ => sendMsg env.msg₁ msg501

def cmdQuit (_arg : Option Str) (env : Env) : FtpdM Unit := do
  sendMsg env.msg₁ msg221
  setMsg fun m => { m with state := .quit }

/-- The common body of `cmd_cwd` and `cmd_cdup`.  If the path is refused, `vfs_chdir` copies
the old one back from the copy that `strdup` made. -/
def changeDir (path : Str) (env : Env) : FtpdM Unit := do
  let cwd := (← get).cwd
  note (.chdir ((chdirPath cwd path env.realloc).getD cwd))
  let r := vfsChdir cwd path env.realloc env.isDir
  if !r.1 ∧ !env.strdup then throw .nullCopy
  else
    modify fun s => { s with cwd := r.2 }
    sendMsg env.msg₁ (if r.1 then msg250 else msg550)

def cmdCwd (arg : Option Str) (env : Env) : FtpdM Unit := do
  changeDir (← checkStr arg) env

def cmdCdup (_arg : Option Str) (env : Env) : FtpdM Unit := changeDir (lit "..") env

def cmdPwd (_arg : Option Str) (env : Env) : FtpdM Unit := do
  if env.strdup then
    sendMsg env.msg₁ (lit "257 \"" ++ (← get).cwd ++ lit "\" is current directory.")

/-- The common end of `cmd_list_common`, `cmd_retr` and `cmd_stor`: give the current data
session what it is to send or to fill, and set the state. -/
def installTransfer (f : DataState → DataState) (state : FtpdState) : FtpdM Unit := do
  let d ← checkDatafs
  setData d f
  setMsg fun m => { m with state := state }

lemma wp_installTransfer {Q : Unit → Sys → Prop} {E : Fault → Prop} {s : Sys}
    {f : DataState → DataState} {state : FtpdState} :
    wp (installTransfer f state) Q E s ↔
      (∀ m, s.fsm = some m →
        (∀ d, m.datafs = some d →
          (∀ x, s.data d = some x →
            Q () { s with data := Function.update s.data d (some (f x)),
                          fsm := some { m with state := state } }) ∧
          (s.data d = none → E .freed)) ∧
        (m.datafs = none → E .nullDatafs)) ∧
      (s.fsm = none → E .freed) := by
  rw [installTransfer, wp_bind, wp_checkDatafs]
  refine and_congr_left' (forall₂_congr fun m hm => and_congr_left' (forall₂_congr fun d _ => ?_))
  rw [wp_bind, wp_setData]
  refine and_congr_left' (forall₂_congr fun x _ => ?_)
  exact wp_setMsg_of hm

/-- `cmd_list_common` -/
def cmdListCommon (shortlist : Bool) (env : Env) : FtpdM Unit := do
  if !env.strdup then sendMsg env.msg₁ msg451
  else
    match ← vfsOpendir (← get).cwd env with
    | none => sendMsg env.msg₁ msg451
    | some (dir, h) =>
      if ← openDataconnection env.msg₁ env then
        installTransfer
          (fun x => { x with vfsDir := some dir, dirHandle := h, vfsDirent := none })
          (if shortlist then .nlst else .list)
        sendMsg env.msg₁ msg150
      else record [.release (.dir h)]

def cmdNlst (_arg : Option Str) (env : Env) : FtpdM Unit := cmdListCommon true env

def cmdList (_arg : Option Str) (env : Env) : FtpdM Unit := cmdListCommon false env

/-- `VFS_ISREG(st.st_mode)` and `st.st_size` after `vfs_stat`, whose return value `cmd_retr`
does not look at: if the path cannot be opened, the record holds what the stack held. -/
def retrStat (env : Env) : Bool × ℕ :=
  match env.stat with
  | some size => (true, size)
  | none => (env.junk.1 &&& 8 != 0, env.junk.2)

/-- The common part of `cmd_retr` and `cmd_stor`: reply, open the data connection and install
the file. -/
def startTransfer (file : VfsFile) (handle : ℕ) (text : Str) (state : FtpdState) (env : Env) :
    FtpdM Unit := do
  sendMsg env.msg₁ text
  if ← openDataconnection env.msg₂ env then
    installTransfer (fun x => { x with vfsFile := some file, fileHandle := handle }) state
  else record [.release (.file handle)]

def cmdRetr (arg : Option Str) (env : Env) : FtpdM Unit := do
  let arg ← checkStr arg
  note (.stat arg)
  if !(retrStat env).1 then sendMsg env.msg₁ msg550
  else
    match ← vfsOpen arg env with
    | none => sendMsg env.msg₁ msg550
    | some (file, h) =>
      startTransfer file h (lit "150 Opening BINARY mode data connection for " ++ arg ++
        lit " (" ++ decInt (retrStat env).2 ++ lit " bytes).") .retr env

def cmdStor (arg : Option Str) (env : Env) : FtpdM Unit := do
  let arg ← checkStr arg
  match ← vfsOpen arg env with
  | none => sendMsg env.msg₁ msg550
  | some (file, h) =>
    startTransfer file h (lit "150 Opening BINARY mode data connection for " ++ arg ++ lit ".")
      .stor env

def cmdNoop (_arg : Option Str) (env : Env) : FtpdM Unit := sendMsg env.msg₁ msg200

def cmdSyst (_arg : Option Str) (env : Env) : FtpdM Unit :=
  sendMsg env.msg₁ (msg214SYST (lit "UNIX"))

/-- The loop of `cmd_pasv` that looks for a free port: the port counter afterwards, and
whether a port was bound. -/
def bindLoop (bind : UInt16 → BindResult) (startPort : UInt16) : ℕ → UInt16 → Option (UInt16 × Bool)
  | 0, _ => none
  | fuel + 1, port =>
      let port := if port + 1 > 0x7fff then 4096 else port + 1
      match bind port with
      | .ok => some (port, true)
      | .use => if startPort = port then some (port, false) else bindLoop bind startPort fuel port
      | .other => some (port, false)

/-- The ports that `cmd_pasv` tries. -/
def InPortRange (port : UInt16) : Prop := 4096 ≤ port.toNat ∧ port.toNat ≤ 0x7fff

/-- `ftpd_dataclose(fsm->datapcb, fsm->datafs); fsm->datapcb = NULL; fsm->datafs = NULL;` -/
def dropDatafs (d : ℕ) : FtpdM Unit := do
  ftpdDataclose (← getMsg).datapcb d
  setMsg fun m => { m with datapcb := none, datafs := none }

/-- The text of reply 227. -/
def msg227 (ip : List UInt8) (port : UInt16) : Str :=
  lit "227 Entering Passive Mode (" ++
    (ip.map fun b => dec b.toNat ++ lit ",").flatten ++ dec (port >>> 8).toNat ++ lit "," ++
    dec (port &&& 0xff).toNat ++ lit ")."

/-- The part of `cmd_pasv` after a port has been bound. -/
def pasvListen (d i : ℕ) (port : UInt16) (env : Env) : FtpdM Unit := do
  setData d fun x => { x with msgfs := true }
  if !env.tcpListen then dropDatafs d
  else
    -- tcp_listen frees the control block and returns another one
    modify fun s => { s with pcbs := Function.update s.pcbs i none }
    let l ← newPcb ⟨some d, .listening, false, false, false⟩
    setMsg fun m => { m with datapcb := some l, passive := true }
    setData d fun x => { x with connected := false, msgpcb := true }
    sendMsg env.msg₁ (msg227 (← get).localIp port)

def cmdPasv (_arg : Option Str) (env : Env) : FtpdM Unit := do
  if !env.mallocData then
    setMsg fun m => { m with datafs := none }
    sendMsg env.msg₁ msg451
  else
    let d ← allocData
    let pcb ← tcpNew env
    setMsg fun m => { m with datapcb := pcb }
    match pcb with
    | none =>
      -- the session is freed, but fsm->datafs still points to it
      freeData d
      sendMsg env.msg₁ msg451
    | some i =>
      let fifo ← dataFifo d env
      setData d fun x => { x with fifo := fifo }
      match bindLoop env.tcpBind (← get).port (2 ^ 16) (← get).port with
      | none => throw .stuck
      | some (port, bound) =>
        modify fun s => { s with port := port }
        setMsg fun m => { m with dataport := port }
        if !bound then dropDatafs d
        else pasvListen d i port env

/-- The common body of `ftpd_msgerr` and `ftpd_msgclose`: the current data session is closed
and the control session freed. -/
def freeMsg : FtpdM Unit := do
  let m ← getMsg
  match m.datafs with
  | some d => ftpdDataclose m.datapcb d
  | none => pure ()
  record (bufferEntry m.fifo.buffer (.release (.buffer none)))
  modify fun s => { s with fsm := none }

/-- `ftpd_msgerr`.  TCP has freed the control block before. -/
def ftpdMsgerr : FtpdM Unit := freeMsg

/-- `ftpd_msgclose` -/
def ftpdMsgclose : FtpdM Unit := freeMsg

def cmdAbrt (_arg : Option Str) (_env : Env) : FtpdM Unit := do
  let m ← getMsg
  match m.datafs with
  | some _ =>
    setPcb m.datapcb fun p => { p with arg := none, sent := false, recv := false }
    -- tcp_abort(pcb) is for the control connection, whose error callback is made
    ftpdMsgerr
    let d ← checkDatafs
    closeFifo d
    freeData d
    setMsg fun m => { m with datafs := none }
  | none => pure ()
  setMsg fun m => { m with state := .idle }

def cmdType (arg : Option Str) (env : Env) : FtpdM Unit := do
  let arg ← checkStr arg
  sendMsg env.msg₁ (if arg ≠ lit "A" ∧ arg ≠ lit "I" then msg502 else msg200)

def cmdMode (_arg : Option Str) (env : Env) : FtpdM Unit := sendMsg env.msg₁ msg502

def cmdRnfr (_arg : Option Str) (env : Env) : FtpdM Unit := sendMsg env.msg₁ (lit "TODO")

def cmdRnto (_arg : Option Str) (env : Env) : FtpdM Unit := sendMsg env.msg₁ (lit "TODO")

/-- The check for an argument that `cmd_mkd`, `cmd_rmd` and `cmd_dele` begin with. -/
def withArg (arg : Option Str) (env : Env) (body : Str → FtpdM Unit) : FtpdM Unit :=
  match arg with
  | none => sendMsg env.msg₁ msg501
  | some arg => if arg = [] then sendMsg env.msg₁ msg501 else body arg

def cmdMkd (arg : Option Str) (env : Env) : FtpdM Unit :=
  withArg arg env fun arg => do
    note (.mkdir arg)
    sendMsg env.msg₁ (if env.mkdir then lit "257 \"" ++ arg ++ lit "\" created." else msg550)

/-- The common part of `cmd_rmd` and `cmd_dele`: a path that `vfs_stat` can open is removed. -/
def removePath (arg : Str) (call : Call) (ok : Bool) (env : Env) : FtpdM Unit := do
  note (.stat arg)
  if env.stat.isSome then
    note call
    sendMsg env.msg₁ (if ok then msg250 else msg550)
  else sendMsg env.msg₁ msg550

def cmdRmd (arg : Option Str) (env : Env) : FtpdM Unit :=
  withArg arg env fun arg => removePath arg (.rmdir arg) env.rmdir env

/-- Every file that `vfs_stat` can open is a regular one for `VFS_ISREG`. -/
def cmdDele (arg : Option Str) (env : Env) : FtpdM Unit :=
  withArg arg env fun arg => removePath arg (.remove arg) env.remove env

/-! ### Command lines -/

/-- The handlers in the table `ftpd_commands`. -/
inductive Command where
  | user | pass | port | quit | cwd | cdup | pwd | nlst | list | retr | stor | noop | syst
  | abrt | type | mode | rnfr | rnto | mkd | rmd | dele | pasv
deriving DecidableEq, Repr

/-- The table `ftpd_commands`. -/
def ftpdCommands : List (Str × Command) :=
  [(lit "USER", .user), (lit "PASS", .pass), (lit "PORT", .port), (lit "QUIT", .quit),
    (lit "CWD", .cwd), (lit "CDUP", .cdup), (lit "PWD", .pwd), (lit "XPWD", .pwd),
    (lit "NLST", .nlst), (lit "LIST", .list), (lit "RETR", .retr), (lit "STOR", .stor),
    (lit "NOOP", .noop), (lit "SYST", .syst), (lit "ABOR", .abrt), (lit "TYPE", .type),
    (lit "MODE", .mode), (lit "RNFR", .rnfr), (lit "RNTO", .rnto), (lit "MKD", .mkd),
    (lit "XMKD", .mkd), (lit "RMD", .rmd), (lit "XRMD", .rmd), (lit "DELE", .dele),
    (lit "PASV", .pasv)]

/-- The handler behind a table entry. -/
def Command.run : Command → Option Str → Env → FtpdM Unit
  | .user => cmdUser
  | .pass => cmdPass
  | .port => cmdPort
  | .quit => cmdQuit
  | .cwd => cmdCwd
  | .cdup => cmdCdup
  | .pwd => cmdPwd
  | .nlst => cmdNlst
  | .list => cmdList
  | .retr => cmdRetr
  | .stor => cmdStor
  | .noop => cmdNoop
  | .syst => cmdSyst
  | .abrt => cmdAbrt
  | .type => cmdType
  | .mode => cmdMode
  | .rnfr => cmdRnfr
  | .rnto => cmdRnto
  | .mkd => cmdMkd
  | .rmd => cmdRmd
  | .dele => cmdDele
  | .pasv => cmdPasv

def isAlpha (c : UInt8) : Bool := (65 ≤ c ∧ c ≤ 90) ∨ (97 ≤ c ∧ c ≤ 122)

def toUpper (c : UInt8) : UInt8 := if 97 ≤ c ∧ c ≤ 122 then c - 32 else c

/-- The command line in a packet: its bytes up to the first zero, without the carriage
returns and line feeds at the end. -/
def commandText (p : Chain) : Str :=
  ((p.flatten.takeWhile (· ≠ 0)).reverse.dropWhile fun c => c = 13 ∨ c = 10).reverse

/-- The letters, at most four, at the start of a command line, in upper case. -/
def commandVerb (text : Str) : Str := ((text.take 4).takeWhile isAlpha).map toUpper

/-- What follows the verb and one more character; a null pointer if the line ends before. -/
def commandArg (text : Str) : Option Str :=
  let cmd := commandVerb text
  if text.length < cmd.length + 1 then none else some (text.drop (cmd.length + 1))

/-- The table entry of a command line. -/
def lookupCommand (text : Str) : Option Command :=
  (ftpdCommands.find? fun e => e.1 = commandVerb text).map Prod.snd

/-- `ftpd_msgrecv` with a packet. -/
def ftpdMsgrecv (p : Chain) (env : Env) : FtpdM Unit := do
  if env.mallocText then
    let text := commandText p
    match lookupCommand text with
    | some c => c.run (commandArg text) env
    | none => sendMsg env.msg₁ msg502

/-! ### Callbacks -/

/-- `ftpd_msgsent` -/
def ftpdMsgsent (env : Env) : FtpdM Unit := do
  let m ← getMsg
  if sfifoUsed m.fifo = 0 ∧ m.state = .quit then ftpdMsgclose
  else if env.controlOpen then
    let r := sendMsgdata m.fifo env.msg₁
    setMsg fun m => { m with fifo := r.2 }
    emit (.control r.1.flatten)

/-- `ftpd_msgpoll` -/
def ftpdMsgpoll (env : Env) : FtpdM Unit := do
  let m ← getMsg
  match m.datafs with
  | some d =>
    if (← getData d).connected then serve d m.datapcb env
  | none => pure ()

/-- What TCP calls the daemon for: a packet on the control connection, its end, an
acknowledgement, the timer and an error there; and for the control block of a data
connection that it is connected, that a listening one has accepted a connection (unless
there was no memory for it), an acknowledgement, a packet or the end of the connection, and
an error. -/
inductive Callback where
  | msgrecv (p : Chain)
  | msgclosed
  | msgsent
  | msgpoll
  | msgerr
  | connected (pcb : ℕ)
  | accept (pcb : ℕ) (memory : Bool)
  | sent (pcb : ℕ)
  | recv (pcb : ℕ) (p : Option Chain)
  | dataerr (pcb : ℕ)
deriving DecidableEq

/-- A callback with what the environment answers during it. -/
structure Event where
  callback : Callback
  env : Env

/-- The command that a callback executes. -/
def Event.command (e : Event) : Option Command :=
  match e.callback with
  | .msgrecv p => if e.env.mallocText then lookupCommand (commandText p) else none
  | _ => none

/-- The control block of a callback, in one of the given states. -/
def pcbOf (i : ℕ) (states : List PcbState) : FtpdM Pcb := do
  match (← get).pcbs i with
  | some p => if p.state ∈ states then pure p else throw .notCalled
  | none => throw .notCalled

lemma wp_pcbOf {Q : Pcb → Sys → Prop} {E : Fault → Prop} {s : Sys} {i : ℕ}
    {states : List PcbState} (hQ : ∀ p, s.pcbs i = some p → p.state ∈ states → Q p s)
    (hE : E .notCalled) : wp (pcbOf i states) Q E s := by
  simp only [pcbOf, wp_bind, wp_get]
  cases hp : s.pcbs i with
  | none => exact hE
  | some p => exact (wp_ite _ _ _).mpr ⟨fun hmem => hQ p hp hmem, fun _ => hE⟩

/-- A callback for the control connection, which is open as long as its session is there. -/
def onControl (body : FtpdM Unit) : FtpdM Unit := do
  match (← get).fsm with
  | some _ => body
  | none => throw .notCalled

lemma wp_onControl {Q : Unit → Sys → Prop} {E : Fault → Prop} {s : Sys} {body : FtpdM Unit}
    (hbody : wp body Q E s) (hE : E .notCalled) : wp (onControl body) Q E s := by
  simp only [onControl, wp_bind, wp_get]
  cases s.fsm with
  | none => exact hE
  | some m => exact hbody

/-- One callback of TCP.  An accepted connection inherits the argument of the listening
control block; without a callback TCP takes what it receives itself and closes its side
when the peer does. -/
def handle (e : Event) : FtpdM Unit := do
  match e.callback with
  | .msgrecv p => onControl (ftpdMsgrecv p e.env)
  | .msgclosed => onControl ftpdMsgclose
  | .msgsent => onControl (ftpdMsgsent e.env)
  | .msgpoll => onControl (ftpdMsgpoll e.env)
  | .msgerr => onControl ftpdMsgerr
  | .connected i =>
    let p ← pcbOf i [.connecting]
    setPcb (some i) fun p => { p with state := .established }
    ftpdDataconnected p.arg i e.env
  | .accept l memory =>
    let p ← pcbOf l [.listening]
    if memory then
      let i ← newPcb ⟨p.arg, .established, false, false, false⟩
      ftpdDataaccept p.arg (some i) e.env
    else ftpdDataaccept p.arg none e.env
  | .sent i =>
    let p ← pcbOf i [.established]
    if p.sent then ftpdDatasent p.arg i e.env
  | .recv i q =>
    let p ← pcbOf i [.established]
    if p.recv then ftpdDatarecv p.arg i q e.env
    else if q = none then modify fun s => { s with pcbs := Function.update s.pcbs i none }
  | .dataerr i =>
    let p ← pcbOf i [.connecting, .established]
    modify fun s => { s with pcbs := Function.update s.pcbs i none }
    if p.err then ftpdDataerr p.arg

/-- A callback that executes a command. -/
lemma handle_command {e : Event} {c : Command} (h : e.command = some c) :
    ∃ arg, handle e = onControl (c.run arg e.env) := by
  unfold Event.command at h
  split at h
  · next p hp =>
    split at h
    · next htext =>
      refine ⟨commandArg (commandText p), ?_⟩
      unfold handle
      rw [hp]
      dsimp only
      rw [ftpdMsgrecv, if_pos htext]
      dsimp only
      rw [h]
    · cases h
  · cases h

/-- The state after a callback, `none` if there is none. -/
def ftpdStep (s : Sys) (e : Event) : Option Sys :=
  match (handle e).run s with
  | .ok r => some r.2
  | .error _ => none

/-- What is known of a callback holds of the state after it. -/
lemma wp_ftpdStep {Q : Sys → Prop} {E : Fault → Prop} {s s' : Sys} {e : Event}
    (hwp : wp (handle e) (fun _ s' => Q s') E s) (h : ftpdStep s e = some s') : Q s' := by
  unfold ftpdStep at h
  split at h
  · next r hr =>
    obtain rfl := Option.some.inj h
    exact wp_ok hwp hr
  · cases h

/-- What a callback does that executes a command. -/
lemma ftpdStep_command {Q : Sys → Prop} {s s' : Sys} {e : Event} {c : Command}
    (hc : e.command = some c)
    (hrun : ∀ arg, wp (c.run arg e.env) (fun _ s' => Q s') (fun _ => True) s)
    (h : ftpdStep s e = some s') : Q s' := by
  obtain ⟨arg, hhandle⟩ := handle_command hc
  refine wp_ftpdStep (Q := Q) (E := fun _ => True) ?_ h
  rw [hhandle]
  exact wp_onControl (hrun arg) trivial

/-- The fault with which a callback stops. -/
def stops (e : Event) (s : Sys) : Option Fault :=
  match (handle e).run s with
  | .ok _ => none
  | .error f => some f

lemma stops_eq_some {e : Event} {s : Sys} {f : Fault} (h : stops e s = some f) :
    (handle e).run s = .error f := by
  unfold stops at h
  cases hr : (handle e).run s with
  | ok r =>
    rw [hr] at h
    cases h
  | error f' =>
    rw [hr] at h
    rw [Option.some.inj h]

/-- The daemon before there is a control session. -/
def boot (localIp : List UInt8) : Sys where
  fsm := none
  data := fun _ => none
  nextData := 0
  pcbs := fun _ => none
  nextPcb := 0
  port := 4096
  cwd := lit "/"
  localIp := localIp
  log := []
  calls := []
  account := []
  nextHandle := 0

/-- `ftpd_msgaccept`.  `malloc` is the buffer of the control FIFO, if there is memory for
it. -/
def ftpdMsgaccept (malloc : Option (ℕ → UInt8)) (dr : Drain) : FtpdM Unit := do
  match sfifoInit 2000 malloc with
  | none => throw .stuck
  | some r =>
    record (bufferEntry malloc (.acquire (.buffer none)))
    modify fun s => { s with
      fsm := some ⟨.idle, r.2, [0, 0, 0, 0], 0, none, none, false⟩ }
    sendMsg dr msg220

/-- The state after a function, the state before it if it stops with a fault. -/
def after (m : FtpdM Unit) (s : Sys) : Sys :=
  match m.run s with
  | .ok r => r.2
  | .error _ => s

lemma run_eq_after {m : FtpdM Unit} {s : Sys} (h : (m.run s).isOk = true) :
    m.run s = .ok ((), after m s) := by
  unfold after
  cases hr : m.run s with
  | ok r => rfl
  | error f =>
    rw [hr] at h
    cases h

/-- A state in which a control session has just been accepted. -/
def Accepted (s : Sys) : Prop :=
  ∃ localIp malloc dr, (ftpdMsgaccept malloc dr).run (boot localIp) = .ok ((), s)

/-! ### A session in a calm environment -/

/-- An environment in which everything succeeds; the directory has one file. -/
def calm : Env where
  msg₁ := ⟨2000, true, true⟩
  msg₂ := ⟨2000, true, true⟩
  data := ⟨2000, true, true⟩
  mallocData := true
  mallocFifo := some fun _ => 0
  mallocText := true
  strdup := true
  realloc := true
  tcpNew := true
  tcpConnect := true
  tcpBind := fun _ => .ok
  tcpListen := true
  controlOpen := true
  isDir := fun _ => true
  opendir := some [⟨lit "a", false, 1⟩]
  stale := none
  stat := some 1
  junk := (0, 0)
  openFile := some ⟨[7], 0⟩
  mkdir := true
  rmdir := true
  remove := true
  read := 2048
  write := []

/-- A command line. -/
def line (text : String) : Event := ⟨.msgrecv [lit text], calm⟩

/-- A control session in the calm environment. -/
def session : Sys := after (ftpdMsgaccept (some fun _ => 0) ⟨2000, true, true⟩) (boot [10, 0, 0, 1])

lemma accepted_session : Accepted session :=
  ⟨_, _, _, run_eq_after (by decide +kernel)⟩

lemma exists_fsm_session : ∃ m, session.fsm = some m :=
  Option.isSome_iff_exists.mp (by decide +kernel)

end Teensy41Ethernet.Ftpd
