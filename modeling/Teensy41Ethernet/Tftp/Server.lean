import Teensy41Ethernet.Lib.LittleEndian
import Teensy41Ethernet.Lwip.Pbuf

/-!
# The TFTP server

`tftp_server.c` serves one transfer at a time.  Its state is the global `tftp_state`, the
entries for `tftp_tmr` in the list of timeouts of lwIP, and the file that the callbacks of
the sketch have open.  It acts when a datagram arrives and when a timeout expires.

The callbacks are those of the sketches `lwip_tftpd`, `lwip_tftpd_sdfat` (the same) and
`lwip_tftpd_SPIFFS`.  They differ in how a file is opened for writing and in what they return
for a read that fails.
-/

namespace Teensy41Ethernet.Tftp

open Lib Lwip

/-! ### The callbacks of the sketches -/

/-- The sketches, by their file system. -/
inductive Sketch where
  | sd
  | spiffs
deriving DecidableEq

/-- The open file. -/
structure File where
  content : List UInt8
  pos : ℕ
deriving DecidableEq

/-- `tftp_fs_open`, for a file whose content is `old`, or `none` if it cannot be opened.
`FILE_WRITE` of the SD library opens at the end; the SPIFFS sketch truncates. -/
def tftpFsOpen (sk : Sketch) (old : Option (List UInt8)) (write : Bool) : Option File :=
  old.map fun content =>
    if write = false then { content := content, pos := 0 }
    else
      match sk with
      | .sd => { content := content, pos := content.length }
      | .spiffs => { content := [], pos := 0 }

/-- What the file system makes of a read: it fails, or gives up to `k` bytes. -/
inductive ReadOutcome where
  | failed
  | got (k : ℕ)

/-- `file.read` and `fs.f_read` for `bytes` bytes: the result, the bytes read and the file
after it. -/
def fileRead (f : File) (bytes : ℕ) : ReadOutcome → ℤ × List UInt8 × File
  | .failed => (-1, [], f)
  | .got k =>
      let d := (f.content.drop f.pos).take (min k bytes)
      (d.length, d, { f with pos := f.pos + d.length })

/-- `tftp_fs_read`. -/
def tftpFsRead (sk : Sketch) (f : File) (bytes : ℕ) (o : ReadOutcome) : ℤ × List UInt8 × File :=
  match sk with
  | .sd => if f.pos < f.content.length then fileRead f bytes o else (0, [], f)
  | .spiffs =>
      let r := fileRead f bytes o
      if r.1 > 0 then r else (0, r.2)

/-- What the file system makes of a write: it fails, or stores up to `k` bytes. -/
inductive WriteOutcome where
  | failed
  | stored (k : ℕ)

/-- `tftp_fs_write`: the bytes from `p->payload` on, as many as `p->tot_len`.  `write` of the
SD library returns 0 when it fails, `f_write` a negative error. -/
def tftpFsWrite (sk : Sketch) (f : File) (data : List UInt8) : WriteOutcome → ℤ × File
  | .failed =>
      match sk with
      | .sd => (0, f)
      | .spiffs => (-1, f)
  | .stored k =>
      let d := data.take k
      (d.length,
        { content := f.content.take f.pos ++ d ++ f.content.drop (f.pos + d.length)
          pos := f.pos + d.length })

/-! ### State -/

/-- `TFTP_MAX_PAYLOAD_SIZE` -/
def maxPayloadSize : ℕ := 512

/-- `TFTP_HEADER_LENGTH` -/
def headerLength : ℕ := 4

/-- `TFTP_MAX_FILENAME_LEN` -/
def maxFilenameLen : ℕ := 512

/-- `TFTP_MAX_MODE_LEN` -/
def maxModeLen : ℕ := 7

/-- `TFTP_MAX_RETRIES` -/
def maxRetries : ℕ := 5

/-- `TFTP_TIMEOUT_MSECS / TFTP_TIMER_MSECS` -/
def timeoutTicks : ℤ := 200

/-- The members of `enum tftp_error` that are used. -/
inductive TftpError where
  | fileNotFound
  | accessViolation
  | illegalOperation
  | unknownTrfrId
deriving DecidableEq

/-- What the server sends. -/
inductive Packet where
  | data (blknum : UInt16) (payload : List UInt8)
  | ack (blknum : UInt16)
  | error (code : TftpError) (str : String)
deriving DecidableEq

/-- A datagram sent. -/
structure Sent where
  addr : ℕ
  port : ℕ
  packet : Packet
deriving DecidableEq

/-- `tftp_state`, in which the address 0 is `any`; the number of timeouts for `tftp_tmr` that
are pending; and the open file.  The last fields record the run: what was sent, the calls of
the open callback with file name, mode and `write`, and for each call of `close_handle` the
number of timeouts that it left pending. -/
structure Server where
  handle : Bool
  lastData : Option (UInt16 × List UInt8)
  addr : ℕ
  port : ℕ
  timer : ℤ
  lastPkt : ℤ
  blknum : UInt16
  retries : ℕ
  modeWrite : Bool
  timeouts : ℕ
  file : File
  sent : List Sent
  opens : List (List UInt8 × List UInt8 × Bool)
  closes : List ℕ
deriving DecidableEq

/-- The state after `tftp_init`. -/
def tftpInit : Server where
  handle := false
  lastData := none
  addr := 0
  port := 0
  timer := 0
  lastPkt := 0
  blknum := 0
  retries := 0
  modeWrite := false
  timeouts := 0
  file := ⟨[], 0⟩
  sent := []
  opens := []
  closes := []

/-- What the calls of other modules return: whether `pbuf_alloc` succeeds in `send_error`,
`send_ack`, `send_data` and `resend_data`, the content of the file to be opened, and the
outcomes of reads and writes.  `behind` is the memory behind the first buffer of the datagram
received. -/
structure Env where
  errorPbuf : Bool
  ackPbuf : Bool
  dataPbuf : Bool
  resendPbuf : Bool
  opened : Option (List UInt8)
  read : ReadOutcome
  wrote : WriteOutcome
  behind : ℕ → UInt8

/-- A datagram received. -/
structure Datagram where
  p : Chain
  addr : ℕ
  port : ℕ

/-! ### Sending -/

/-- `close_handle`; `sys_untimeout` removes one entry, if there is one. -/
def closeHandle (s : Server) : Server :=
  { s with
    port := 0
    addr := 0
    lastData := none
    timeouts := s.timeouts - 1
    handle := false
    closes := s.closes ++ [s.timeouts - 1] }

/-- `send_error`. -/
def sendError (s : Server) (env : Env) (addr port : ℕ) (code : TftpError) (str : String) :
    Server :=
  { s with sent := s.sent ++ if env.errorPbuf then [⟨addr, port, .error code str⟩] else [] }

/-- `send_ack`. -/
def sendAck (s : Server) (env : Env) (blknum : UInt16) : Server :=
  { s with sent := s.sent ++ if env.ackPbuf then [⟨s.addr, s.port, .ack blknum⟩] else [] }

/-- The datagram that `resend_data` makes of `last_data`. -/
def Server.again (s : Server) (env : Env) : List Sent :=
  match s.lastData with
  | none => []
  | some (blknum, payload) =>
      if env.resendPbuf then [⟨s.addr, s.port, .data blknum payload⟩] else []

/-- `resend_data`. -/
def resendData (s : Server) (env : Env) : Server := { s with sent := s.sent ++ s.again env }

/-- `send_data`. -/
def sendData (sk : Sketch) (s : Server) (env : Env) : Server :=
  if env.dataPbuf = false then { s with lastData := none }
  else
    let r := tftpFsRead sk s.file maxPayloadSize env.read
    if r.1 < 0 then
      closeHandle (sendError { s with file := r.2.2 } env s.addr s.port .accessViolation
        "Error occured while reading the file.")
    else resendData { s with file := r.2.2, lastData := some (s.blknum, r.2.1) } env

/-! ### Receiving -/

/-- The datagram is not from the client that is being served. -/
def Server.refuses (s : Server) (addr port : ℕ) : Bool :=
  (s.port != 0 && port != s.port) || (s.addr != 0 && s.addr != addr)

/-- The part of `recv` that opens the file and begins the transfer. -/
def recvOpen (sk : Sketch) (s : Server) (m : Datagram) (env : Env) (write : Bool)
    (filename mode : List UInt8) : Server :=
  let s := { s with blknum := 1, opens := s.opens ++ [(filename, mode, write)] }
  match tftpFsOpen sk env.opened write with
  | none =>
      sendError s env m.addr m.port .fileNotFound "Unable to open requested file."
  | some file =>
      let s := { s with handle := true, file := file, addr := m.addr, port := m.port }
      if write then sendAck { s with modeWrite := true } env 0
      else sendData sk { s with modeWrite := false } env

/-- `case PP_HTONS(TFTP_RRQ)` and `case PP_HTONS(TFTP_WRQ)`.  The offsets are `u16_t`. -/
def recvRequest (sk : Sketch) (s : Server) (m : Datagram) (env : Env) (write : Bool) : Server :=
  if s.handle then
    sendError s env m.addr m.port .accessViolation "Only one connection at a time is supported"
  else
    let s := { s with timeouts := s.timeouts + 1 }
    let filenameEnd := pbufMemfind m.p 0 2
    if filenameEnd - 1 > maxFilenameLen then
      sendError s env m.addr m.port .accessViolation "Filename too long/not NULL terminated"
    else
      let filename := pbufCopyPartial m.p (filenameEnd - 1) 2
      let modeEnd := pbufMemfind m.p 0 (filenameEnd + 1)
      if modeEnd - filenameEnd > maxModeLen then
        sendError s env m.addr m.port .accessViolation "Mode too long/not NULL terminated"
      else
        let mode := pbufCopyPartial m.p (modeEnd - filenameEnd) (filenameEnd + 1)
        recvOpen sk s m env write filename mode

/-- `case PP_HTONS(TFTP_DATA)`. -/
def recvData (sk : Sketch) (s : Server) (m : Datagram) (env : Env) (blknum : UInt16) : Server :=
  if s.handle = false then
    sendError s env m.addr m.port .accessViolation "No connection"
  else if s.modeWrite = false then
    sendError s env m.addr m.port .accessViolation "Not a write connection"
  else
    let p := pbufHeader m.p headerLength
    let r := tftpFsWrite sk s.file (payloadBytes p env.behind (totLen p)) env.wrote
    let s := { s with file := r.2 }
    let s :=
      if r.1 < 0 then
        closeHandle (sendError s env m.addr m.port .accessViolation "error writing file")
      else sendAck s env blknum
    if totLen p < maxPayloadSize then closeHandle s else s

/-- `lastpkt` in `recv`: the block sent last is not a full one. -/
def Server.lastpkt (s : Server) : Bool :=
  match s.lastData with
  | none => false
  | some (_, payload) => headerLength + payload.length != maxPayloadSize + headerLength

/-- `case PP_HTONS(TFTP_ACK)`. -/
def recvAck (sk : Sketch) (s : Server) (m : Datagram) (env : Env) (blknum : UInt16) : Server :=
  if s.handle = false then
    sendError s env m.addr m.port .accessViolation "No connection"
  else if s.modeWrite then
    sendError s env m.addr m.port .accessViolation "Not a read connection"
  else if blknum ≠ s.blknum then
    sendError s env m.addr m.port .unknownTrfrId "Wrong block number"
  else if s.lastpkt = false then sendData sk { s with blknum := s.blknum + 1 } env
  else closeHandle s

/-- `recv`.  The two words `sbuf[0]` and `sbuf[1]` are read from `p->payload` whatever the
length of the datagram. -/
def recv (sk : Sketch) (s : Server) (m : Datagram) (env : Env) : Server :=
  if s.refuses m.addr m.port then
    sendError s env m.addr m.port .accessViolation "Only one connection at a time is supported"
  else
    let sbuf := payloadBytes m.p env.behind headerLength
    let opcode := be16 sbuf 0
    let s := { s with lastPkt := s.timer, retries := 0 }
    if opcode = 1 ∨ opcode = 2 then recvRequest sk s m env (decide (opcode = 2))
    else if opcode = 3 then recvData sk s m env (UInt16.ofNat (be16 sbuf 2))
    else if opcode = 4 then recvAck sk s m env (UInt16.ofNat (be16 sbuf 2))
    else sendError s env m.addr m.port .illegalOperation "Unknown operation"

section Header

variable {sk : Sketch} {s : Server} {env : Env} {rest : List UInt8}

lemma recv_request (m : Datagram) (write : Bool)
    (hp : m.p.flatten = [0, if write then 2 else 1] ++ rest)
    (hhead : headerLength ≤ (m.p.headD []).length) :
    recv sk s m env =
      if s.refuses m.addr m.port then
        sendError s env m.addr m.port .accessViolation "Only one connection at a time is supported"
      else recvRequest sk { s with lastPkt := s.timer, retries := 0 } m env write := by
  have hopcode : be16 (payloadBytes m.p env.behind headerLength) 0 = if write then 2 else 1 := by
    rw [payloadBytes_of_le _ hhead, hp]
    cases write with
    | false => rfl
    | true => rfl
  simp only [recv, hopcode]
  cases write with
  | false => rfl
  | true => rfl

/-- The two words of a header with the number `n` that is in the first buffer. -/
lemma be16_header {p : Chain} (op : UInt8) (n : ℕ)
    (hp : p.flatten = [0, op, UInt8.ofNat (n / 256), UInt8.ofNat n] ++ rest)
    (hhead : headerLength ≤ (p.headD []).length) (behind : ℕ → UInt8) :
    be16 (payloadBytes p behind headerLength) 0 = op.toNat ∧
      UInt16.ofNat (be16 (payloadBytes p behind headerLength) 2) = UInt16.ofNat n := by
  have hsbuf : payloadBytes p behind headerLength =
      [0, op, UInt8.ofNat (n / 256), UInt8.ofNat n] := by
    rw [payloadBytes_of_le _ hhead, hp]
    rfl
  rw [hsbuf]
  constructor
  · simp [Lib.be16]
  · rw [Lib.be16]
    apply UInt16.toNat_inj.mp
    simp only [List.getD_cons_succ, List.getD_cons_zero, UInt8.toNat_ofNat', UInt16.toNat_ofNat']
    omega

end Header

/-- `tftp_tmr`. -/
def tftpTmr (s : Server) (env : Env) : Server :=
  let s := { s with timer := s.timer + 1 }
  if s.handle = false then s
  else
    let s := { s with timeouts := s.timeouts + 1 }
    if s.timer - s.lastPkt > timeoutTicks then
      if s.lastData.isSome && decide (s.retries < maxRetries) then
        { resendData s env with retries := s.retries + 1 }
      else closeHandle s
    else s

/-! ### What a request and a timeout can do -/

/-- The state in which a transfer begins. -/
def Server.begun (s : Server) (m : Datagram) (f : File) (write : Bool)
    (opens : List (List UInt8 × List UInt8 × Bool)) : Server :=
  { s with
    timeouts := s.timeouts + 1
    blknum := 1
    opens := opens
    handle := true
    file := f
    addr := m.addr
    port := m.port
    modeWrite := write }

/-- What becomes of a request: another transfer is active; it is refused, with a timeout pending;
or the file is opened and the transfer begins. -/
inductive Requested (sk : Sketch) (s : Server) (m : Datagram) (env : Env) : Bool → Server → Prop
  | busy {write : Bool} (hhandle : s.handle = true) (str : String) :
      Requested sk s m env write (sendError s env m.addr m.port .accessViolation str)
  | refused {write : Bool} (hhandle : s.handle = false) (blknum : UInt16)
      (opens : List (List UInt8 × List UInt8 × Bool)) (code : TftpError) (str : String) :
      Requested sk s m env write (sendError
        { s with timeouts := s.timeouts + 1, blknum := blknum, opens := opens } env m.addr m.port
        code str)
  | upload (hhandle : s.handle = false) {f : File} (hf : tftpFsOpen sk env.opened true = some f)
      (opens : List (List UInt8 × List UInt8 × Bool)) :
      Requested sk s m env true (sendAck (s.begun m f true opens) env 0)
  | download (hhandle : s.handle = false) {f : File} (hf : tftpFsOpen sk env.opened false = some f)
      (opens : List (List UInt8 × List UInt8 × Bool)) :
      Requested sk s m env false (sendData sk (s.begun m f false opens) env)

lemma requested_recvRequest (sk : Sketch) (s : Server) (m : Datagram) (env : Env) (write : Bool) :
    Requested sk s m env write (recvRequest sk s m env write) := by
  by_cases hhandle : s.handle = true
  · rw [recvRequest, if_pos hhandle]
    exact .busy hhandle _
  have hidle : s.handle = false := Bool.eq_false_iff.mpr hhandle
  rw [recvRequest, if_neg hhandle]
  dsimp only
  split
  · exact .refused hidle s.blknum s.opens _ _
  split
  · exact .refused hidle s.blknum s.opens _ _
  simp only [recvOpen]
  split
  · exact .refused hidle 1 _ _ _
  · rename_i f hf
    cases write with
    | true => exact .upload hidle hf _
    | false => exact .download hidle hf _

/-- What the server does without ending the transfer: client, handle and timeouts are as they
were. -/
structure Steady (s s' : Server) : Prop where
  handle : s'.handle = s.handle
  addr : s'.addr = s.addr
  port : s'.port = s.port
  timeouts : s'.timeouts = s.timeouts
  closes : s'.closes = s.closes

section Steady

variable {sk : Sketch} {s : Server} {m : Datagram} {env : Env} {P : Server → Prop}

/-- **The rule for a transfer.**  What is kept without ending the transfer, and by `close_handle`,
is kept by `send_data`, by data and by acknowledgements. -/
lemma sendData_rule (hsteady : ∀ s s', Steady s s' → P s → P s')
    (hclose : ∀ s, P s → P (closeHandle s)) (hs : P s) : P (sendData sk s env) := by
  simp only [sendData]
  split
  · exact hsteady s _ ⟨rfl, rfl, rfl, rfl, rfl⟩ hs
  split
  · refine hclose _ (hsteady s _ ?_ hs)
    exact ⟨rfl, rfl, rfl, rfl, rfl⟩
  · exact hsteady s _ ⟨rfl, rfl, rfl, rfl, rfl⟩ hs

lemma recvData_rule (hsteady : ∀ s s', Steady s s' → P s → P s')
    (hclose : ∀ s, P s → P (closeHandle s)) (hs : P s) (blknum : UInt16) :
    P (recvData sk s m env blknum) := by
  simp only [recvData]
  split
  · exact hsteady s _ ⟨rfl, rfl, rfl, rfl, rfl⟩ hs
  split
  · exact hsteady s _ ⟨rfl, rfl, rfl, rfl, rfl⟩ hs
  -- after the write the handle is closed, or the transfer goes on
  have hwritten : ∀ f : File, ∀ c : Prop, ∀ _ : Decidable c, P
      (if c then closeHandle (sendError { s with file := f } env m.addr m.port .accessViolation
        "error writing file") else sendAck { s with file := f } env blknum) := by
    intro f c _
    split
    · refine hclose _ (hsteady s _ ?_ hs)
      exact ⟨rfl, rfl, rfl, rfl, rfl⟩
    · exact hsteady s _ ⟨rfl, rfl, rfl, rfl, rfl⟩ hs
  split
  · exact hclose _ (hwritten _ _ _)
  · exact hwritten _ _ _

lemma recvAck_rule (hsteady : ∀ s s', Steady s s' → P s → P s')
    (hclose : ∀ s, P s → P (closeHandle s)) (hs : P s) (blknum : UInt16) :
    P (recvAck sk s m env blknum) := by
  simp only [recvAck]
  split
  · exact hsteady s _ ⟨rfl, rfl, rfl, rfl, rfl⟩ hs
  split
  · exact hsteady s _ ⟨rfl, rfl, rfl, rfl, rfl⟩ hs
  split
  · exact hsteady s _ ⟨rfl, rfl, rfl, rfl, rfl⟩ hs
  split
  · refine sendData_rule hsteady hclose (hsteady s _ ?_ hs)
    exact ⟨rfl, rfl, rfl, rfl, rfl⟩
  · exact hclose s hs

end Steady

/-- What `tftp_tmr` does: nothing without a transfer; otherwise it is armed again, and the last
block may be sent again or the handle closed. -/
inductive Ticked (s : Server) (env : Env) : Server → Prop
  | idle (hhandle : s.handle = false) : Ticked s env { s with timer := s.timer + 1 }
  | armed (hhandle : s.handle = true) :
      Ticked s env { s with timer := s.timer + 1, timeouts := s.timeouts + 1 }
  | resent (hhandle : s.handle = true) :
      Ticked s env { resendData { s with timer := s.timer + 1, timeouts := s.timeouts + 1 } env with
        retries := s.retries + 1 }
  | closed (hhandle : s.handle = true) :
      Ticked s env (closeHandle { s with timer := s.timer + 1, timeouts := s.timeouts + 1 })

lemma ticked_tftpTmr (s : Server) (env : Env) : Ticked s env (tftpTmr s env) := by
  simp only [tftpTmr]
  split
  · exact .idle ‹_›
  rename_i hopen
  have hhandle : s.handle = true := Bool.eq_true_of_not_eq_false hopen
  split
  · split
    · exact .resent hhandle
    · exact .closed hhandle
  · exact .armed hhandle

/-- What happens to the server. -/
inductive Event where
  | recv (m : Datagram) (env : Env)
  | tmr (env : Env)

/-- One event.  A timeout that expires is taken from the list before `tftp_tmr` is called. -/
def step (sk : Sketch) (s : Server) : Event → Option Server
  | .recv m env => some (recv sk s m env)
  | .tmr env =>
      if s.timeouts = 0 then none
      else some (tftpTmr { s with timeouts := s.timeouts - 1 } env)

end Teensy41Ethernet.Tftp
