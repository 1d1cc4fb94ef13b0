import Teensy41Ethernet.Tftp.Server
import Teensy41Ethernet.Lib.Run

/-!
# Downloads

A client asks for a file, acknowledges every block that it receives and appends a block only
if it is the next one, over a network that may lose, duplicate or delay datagrams.  The
server reads the file from front to back; the number of a block is counted apart from the
position in the file.  The two are in step as long as every block that is counted is also
read, and read as a whole.

Two things break this.  A read that fails, or gives too little, is the end of the file to the
client, unless the callback returns an error; the SPIFFS sketch never does.  And a block that
is counted is not read when `send_data` finds no buffer for it; if an acknowledgement with
its number turns up, from an earlier transfer of the same file, the server goes on to the
next number without having read it.
-/

namespace Teensy41Ethernet.Tftp

open Lib Lwip

/-! ### Client and network -/

/-- A file of fewer than 65535 full blocks, the name and the mode of the request, and the
client's address. -/
structure Download where
  file : List UInt8
  filename : List UInt8
  mode : List UInt8
  addr : ℕ
  port : ℕ
  few : file.length / 512 < 65535

/-- Block `k` of the file, counted from one. -/
def Download.block (w : Download) (k : ℕ) : List UInt8 := (w.file.drop (512 * (k - 1))).take 512

/-- What the client sends. -/
inductive DownMsg where
  | rrq
  | ack (blknum : UInt16)
deriving DecidableEq

/-- The bytes of a message. -/
def DownMsg.bytes (w : Download) : DownMsg → List UInt8
  | .rrq => [0, 1] ++ w.filename ++ [0] ++ w.mode ++ [0]
  | .ack b => [0, 4, UInt8.ofNat (b.toNat / 256), UInt8.ofNat b.toNat]

/-- The client, the network and the server.  `expected` is the number of the block that the
client expects, `assembled` what it has of the file, `short` whether it has received a block
of less than 512 bytes, and `net` has all messages that it has sent. -/
structure DownSys where
  server : Server
  expected : ℕ
  assembled : List UInt8
  short : Bool
  net : List DownMsg

/-- At the beginning the server is idle and has sent nothing to this client. -/
def downInit (s : Server) : DownSys := ⟨{ s with sent := [] }, 1, [], false, []⟩

/-- What happens: the client sends its request, perhaps again; a message it has sent reaches
the server, in the buffers `p`; a block that the server has sent reaches the client; a timeout
of the server expires. -/
inductive DownEvent where
  | send
  | deliver (m : DownMsg) (p : Chain) (env : Env)
  | receive (blknum : UInt16) (payload : List UInt8)
  | tmr (env : Env)

/-- The client receives a block: it acknowledges it, and appends it if it is the next one. -/
def received (x : DownSys) (blknum : UInt16) (payload : List UInt8) : DownSys :=
  { x with
    net := x.net ++ [.ack blknum]
    short := x.short || decide (payload.length < 512)
    assembled := if blknum = UInt16.ofNat x.expected then x.assembled ++ payload else x.assembled
    expected := if blknum = UInt16.ofNat x.expected then x.expected + 1 else x.expected }

/-- One event.  The network delivers only what was sent, but any number of times, and the
request names a file with the given content. -/
def downStep (sk : Sketch) (w : Download) (x : DownSys) : DownEvent → Option DownSys
  | .send => if x.expected = 1 then some { x with net := x.net ++ [.rrq] } else none
  | .deliver m p env =>
      if m ∈ x.net ∧ p.flatten = m.bytes w ∧ ∀ content ∈ env.opened, content = w.file then
        some { x with server := recv sk x.server ⟨p, w.addr, w.port⟩ env }
      else none
  | .receive blknum payload =>
      if ⟨w.addr, w.port, .data blknum payload⟩ ∈ x.server.sent then
        some (received x blknum payload)
      else none
  | .tmr env => (step sk x.server (.tmr env)).map fun server => { x with server := server }

/-! ### The condition -/

/-- With `rest` bytes left in the file, the callback returns the next 512 of them, or all, or
an error. -/
def GoodRead (sk : Sketch) (rest : ℕ) : ReadOutcome → Prop
  | .failed => sk = .sd ∨ rest = 0
  | .got k => min 512 rest ≤ k

/-- A datagram reaches the server with its header in the first buffer; the read that it may
cause is good; and no acknowledgement has the number of a block that was counted and not
read. -/
def InStep (sk : Sketch) (w : Download) (x : DownSys) : DownEvent → Prop
  | .deliver .rrq p env =>
      headerLength ≤ (p.headD []).length ∧ GoodRead sk w.file.length env.read
  | .deliver (.ack b) p env =>
      headerLength ≤ (p.headD []).length ∧
        GoodRead sk (w.file.length - x.server.file.pos) env.read ∧
        (x.server.handle = true → x.server.lastData = none → b ≠ x.server.blknum)
  | _ => True

instance (sk : Sketch) (rest : ℕ) (o : ReadOutcome) : Decidable (GoodRead sk rest o) :=
  ReadOutcome.casesOn o (inferInstanceAs (Decidable (sk = .sd ∨ rest = 0)))
    (fun k => inferInstanceAs (Decidable (min 512 rest ≤ k)))

instance (sk : Sketch) (w : Download) (x : DownSys) (e : DownEvent) :
    Decidable (InStep sk w x e) :=
  DownEvent.casesOn e (.isTrue trivial)
    (fun m p env => DownMsg.casesOn m
      (inferInstanceAs (Decidable (headerLength ≤ (p.headD []).length ∧
        GoodRead sk w.file.length env.read)))
      (fun b => inferInstanceAs (Decidable (headerLength ≤ (p.headD []).length ∧
        GoodRead sk (w.file.length - x.server.file.pos) env.read ∧
        (x.server.handle = true → x.server.lastData = none → b ≠ x.server.blknum)))))
    (fun _ _ => .isTrue trivial) (fun _ => .isTrue trivial)

/-! ### What the messages are to the server -/

section Messages

variable {w : Download} {p : Chain} {env : Env}

lemma recv_ack (sk : Sketch) (s : Server) {b : UInt16} (hp : p.flatten = DownMsg.bytes w (.ack b))
    (hhead : headerLength ≤ (p.headD []).length) :
    recv sk s ⟨p, w.addr, w.port⟩ env =
      if s.refuses w.addr w.port then
        sendError s env w.addr w.port .accessViolation "Only one connection at a time is supported"
      else
        recvAck sk { s with lastPkt := s.timer, retries := 0 } ⟨p, w.addr, w.port⟩ env b := by
  obtain ⟨hopcode, hblknum⟩ :=
    be16_header 4 b.toNat (hp.trans (List.append_nil _).symm) hhead env.behind
  rw [UInt16.ofNat_toNat] at hblknum
  simp only [recv, hopcode, hblknum]
  rfl

end Messages

/-! ### Reading -/

/-- What is left of a file from its position on, at most 512 bytes. -/
def File.next (f : File) : List UInt8 := (f.content.drop f.pos).take 512

/-- The callback returns the next bytes of the file. -/
def ReadsNext (f : File) (r : ℤ × List UInt8 × File) : Prop :=
  0 ≤ r.1 ∧ r.2.1 = f.next ∧ r.2.2 = { f with pos := f.pos + f.next.length }

lemma readsNext_nil {f : File} (h : f.content.length ≤ f.pos) : ReadsNext f (0, [], f) := by
  have hnext : f.next = [] := by rw [File.next, List.drop_eq_nil_of_le h, List.take_nil]
  exact ⟨le_rfl, hnext.symm, by rw [hnext]; rfl⟩

lemma readsNext_got {f : File} {k : ℕ} (h : min 512 (f.content.length - f.pos) ≤ k) :
    ReadsNext f (fileRead f maxPayloadSize (.got k)) := by
  have hnext : (f.content.drop f.pos).take (min k maxPayloadSize) = f.next := by
    rw [File.next, List.take_eq_take_iff, List.length_drop, maxPayloadSize]
    omega
  simp only [ReadsNext, fileRead, hnext]
  exact ⟨by omega, trivial, trivial⟩

/-- A good read gives the next block, or an error. -/
lemma tftpFsRead_good {sk : Sketch} {f : File} {o : ReadOutcome}
    (h : GoodRead sk (f.content.length - f.pos) o) :
    (tftpFsRead sk f maxPayloadSize o).1 < 0 ∨ ReadsNext f (tftpFsRead sk f maxPayloadSize o) := by
  cases sk with
  | sd =>
    simp only [tftpFsRead]
    split
    · cases o with
      | failed => exact Or.inl (by simp [fileRead])
      | got k => exact Or.inr (readsNext_got h)
    · exact Or.inr (readsNext_nil (by omega))
  | spiffs =>
    simp only [tftpFsRead]
    cases o with
    | failed =>
      have hend : f.content.length ≤ f.pos := by
        rcases h with h | h
        · exact absurd h (by simp)
        · omega
      exact Or.inr (readsNext_nil hend)
    | got k =>
      have hgot := readsNext_got h
      split
      · exact Or.inr hgot
      · -- nothing was read, and nothing was left
        rename_i hle
        exact Or.inr ⟨le_rfl, hgot.2⟩

/-! ### The server during a download -/

/-- The payload is that of the block with the number. -/
structure IsBlock (w : Download) (b : UInt16) (payload : List UInt8) : Prop where
  one_le : 1 ≤ b.toNat
  eq_block : payload = w.block b.toNat

/-- The server is about to read block `blknum`, not past the one that the client expects. -/
structure AtBlock (w : Download) (expected : ℕ) (s : Server) : Prop where
  read : s.modeWrite = false
  content_eq : s.file.content = w.file
  one_le : 1 ≤ s.blknum.toNat
  le_expected : s.blknum.toNat ≤ expected

/-- Every block sent is a block of the file, up to the one expected; and during a transfer the
position in the file is before the current block or, if that was read, behind it. -/
structure Serving (w : Download) (expected : ℕ) (s : Server) : Prop where
  sent_data : ∀ d ∈ s.sent, ∀ b payload, d.packet = .data b payload →
    IsBlock w b payload ∧ b.toNat ≤ expected
  at_block : s.handle = true → AtBlock w expected s
  unread : s.handle = true → s.lastData = none → s.file.pos = 512 * (s.blknum.toNat - 1)
  was_read : s.handle = true → ∀ b payload, s.lastData = some (b, payload) →
    b = s.blknum ∧ payload = w.block s.blknum.toNat ∧
      s.file.pos = 512 * (s.blknum.toNat - 1) + payload.length

namespace Serving

variable {sk : Sketch} {w : Download} {expected : ℕ} {s : Server} {env : Env}

lemma mono (h : Serving w expected s) {expected' : ℕ} (hle : expected ≤ expected') :
    Serving w expected' s where
  sent_data d hd b payload hp := (h.sent_data d hd b payload hp).imp_right fun h => h.trans hle
  at_block hh := { h.at_block hh with le_expected := (h.at_block hh).le_expected.trans hle }
  unread := h.unread
  was_read := h.was_read

lemma sendError (h : Serving w expected s) (addr port : ℕ) (code : TftpError) (str : String) :
    Serving w expected (sendError s env addr port code str) where
  sent_data d hd b payload hp := by
    rcases List.mem_append.mp hd with hd | hd
    · exact h.sent_data d hd b payload hp
    · split at hd
      · obtain rfl := List.mem_singleton.mp hd
        exact absurd hp (by simp)
      · exact absurd hd (by simp)
  at_block hh := { h.at_block hh with }
  unread := h.unread
  was_read := h.was_read

lemma idle {s' : Server} (h : Serving w expected s) (hhandle : s'.handle = false)
    (hsent : s'.sent = s.sent) : Serving w expected s' where
  sent_data := hsent ▸ h.sent_data
  at_block hh := absurd (hhandle.symm.trans hh) (by simp)
  unread hh := absurd (hhandle.symm.trans hh) (by simp)
  was_read hh := absurd (hhandle.symm.trans hh) (by simp)

lemma closeHandle (h : Serving w expected s) : Serving w expected (closeHandle s) := h.idle rfl rfl

lemma resendData (h : Serving w expected s) (hhandle : s.handle = true) :
    Serving w expected (resendData s env) where
  sent_data d hd b payload hp := by
    rcases List.mem_append.mp hd with hd | hd
    · exact h.sent_data d hd b payload hp
    · simp only [Server.again] at hd
      split at hd
      · exact absurd hd (by simp)
      · rename_i b' payload' hlast
        split at hd
        · obtain rfl := List.mem_singleton.mp hd
          obtain ⟨rfl, rfl⟩ := Packet.data.inj hp
          have hat := h.at_block hhandle
          obtain ⟨rfl, hblock, -⟩ := h.was_read hhandle _ _ hlast
          exact ⟨⟨hat.one_le, hblock⟩, hat.le_expected⟩
        · exact absurd hd (by simp)
  at_block hh := { h.at_block hh with }
  unread := h.unread
  was_read := h.was_read

lemma sendData (hsent : ∀ d ∈ s.sent, ∀ b payload, d.packet = .data b payload →
      IsBlock w b payload ∧ b.toNat ≤ expected)
    (hhandle : s.handle = true) (hat : AtBlock w expected s)
    (hpos : s.file.pos = 512 * (s.blknum.toNat - 1))
    (hread : GoodRead sk (s.file.content.length - s.file.pos) env.read) :
    Serving w expected (sendData sk s env) := by
  simp only [Tftp.sendData]
  split
  · exact
      { sent_data := hsent
        at_block := fun _ => { hat with }
        unread := fun _ _ => hpos
        was_read := by rintro - _ _ ⟨⟩ }
  have hidle : Serving w expected { s with handle := false } :=
    ⟨hsent, by rintro ⟨⟩, by rintro ⟨⟩, by rintro ⟨⟩⟩
  rcases tftpFsRead_good hread with herror | ⟨hret, hdata, hfile⟩
  · rw [if_pos herror]
    exact (hidle.sendError _ _ _ _).idle rfl rfl
  · rw [if_neg (by omega)]
    refine Serving.resendData ?_ hhandle
    have hblock : (tftpFsRead sk s.file maxPayloadSize env.read).2.1 = w.block s.blknum.toNat := by
      rw [hdata, File.next, hat.content_eq, hpos]
      rfl
    refine { sent_data := hsent, at_block := fun _ => ?_, unread := by rintro - ⟨⟩
             was_read := fun _ b payload hlast => ?_ }
    · exact { hat with content_eq := by rw [hfile]; exact hat.content_eq }
    · obtain ⟨rfl, rfl⟩ := Prod.mk.inj (Option.some.inj hlast)
      refine ⟨rfl, hblock, ?_⟩
      rw [hfile, hdata, ← hpos]

/-- A request to read: it is refused, or the file is opened and its first block sent. -/
lemma recvRequest {m : Datagram} (h : Serving w expected s) (hexpected : 1 ≤ expected)
    (hopened : ∀ content ∈ env.opened, content = w.file)
    (hread : GoodRead sk w.file.length env.read) :
    Serving w expected (recvRequest sk s m env false) := by
  have hrequested := requested_recvRequest sk s m env false
  generalize Tftp.recvRequest sk s m env false = s' at hrequested ⊢
  cases hrequested with
  | busy => exact h.sendError _ _ _ _
  | refused hidle =>
    refine Serving.sendError ?_ _ _ _ _
    exact h.idle hidle rfl
  | download _ hf =>
    obtain ⟨content, hcontent, rfl⟩ := Option.map_eq_some_iff.mp hf
    obtain rfl := hopened content hcontent
    refine Serving.sendData h.sent_data rfl ?_ rfl hread
    exact ⟨rfl, rfl, le_rfl, hexpected⟩

/-- An acknowledgement: it is refused, or the next block is sent, or the transfer ends. -/
lemma recvAck {m : Datagram} {b : UInt16} (h : Serving w expected s)
    (hacked : b.toNat + 1 ≤ expected)
    (hread : GoodRead sk (w.file.length - s.file.pos) env.read)
    (hunread : s.handle = true → s.lastData = none → b ≠ s.blknum) :
    Serving w expected (recvAck sk s m env b) := by
  rw [Tftp.recvAck]
  split
  · exact h.sendError _ _ _ _
  split
  · exact h.sendError _ _ _ _
  split
  · exact h.sendError _ _ _ _
  rename_i hopen _ hb
  have hhandle : s.handle = true := Bool.eq_true_of_not_eq_false hopen
  obtain rfl : b = s.blknum := not_not.mp hb
  split
  · rename_i hfull
    have hat := h.at_block hhandle
    -- the current block was read, and is a full one
    cases hlast : s.lastData with
    | none => exact absurd rfl (hunread hhandle hlast)
    | some last =>
      obtain ⟨b, payload⟩ := last
      obtain ⟨rfl, hblock, hpos⟩ := h.was_read hhandle _ _ hlast
      have hlength : payload.length = 512 := by
        simpa [Server.lastpkt, hlast, headerLength, maxPayloadSize, add_comm] using hfull
      have hlen : 512 * s.blknum.toNat ≤ w.file.length := by
        rw [hblock, Download.block, List.length_take, List.length_drop] at hlength
        have := hat.one_le
        omega
      have hnext : (s.blknum + 1).toNat = s.blknum.toNat + 1 := by
        have hfew := w.few
        rw [UInt16.toNat_add]
        change (s.blknum.toNat + 1) % 65536 = _
        omega
      have hone := hat.one_le
      refine Serving.sendData h.sent_data hhandle ?_ ?_ (hat.content_eq ▸ hread)
      · exact
          { read := hat.read
            content_eq := hat.content_eq
            one_le := by simp only [hnext]; omega
            le_expected := by simp only [hnext]; exact hacked }
      · simp only [hnext]
        omega
  · exact h.closeHandle

lemma ticked (h : Serving w expected s) (timeouts : ℕ) (timer lastPkt : ℤ) (retries : ℕ) :
    Serving w expected { s with
      timeouts := timeouts, timer := timer, lastPkt := lastPkt, retries := retries } :=
  ⟨h.sent_data, fun hh => { h.at_block hh with }, h.unread, h.was_read⟩

lemma tftpTmr (h : Serving w expected s) (env : Env) : Serving w expected (tftpTmr s env) := by
  have hticked := ticked_tftpTmr s env
  have hmoved : ∀ timeouts, Serving w expected
      { s with timer := s.timer + 1, timeouts := timeouts } :=
    fun timeouts => h.ticked timeouts (s.timer + 1) s.lastPkt s.retries
  generalize Tftp.tftpTmr s env = s' at hticked ⊢
  cases hticked with
  | idle => exact hmoved _
  | armed => exact hmoved _
  | resent hhandle =>
    have hres : Serving w expected (Tftp.resendData _ env) :=
      (hmoved (s.timeouts + 1)).resendData hhandle
    exact hres.ticked _ _ _ _
  | closed => exact (hmoved _).closeHandle

end Serving

/-! ### The client -/

/-- The client has assembled the blocks before the one it expects, and acknowledged no later
ones; and a short block was the last. -/
structure DownInv (w : Download) (x : DownSys) : Prop where
  serving : Serving w x.expected x.server
  one_le : 1 ≤ x.expected
  expected_le : x.expected ≤ 65536
  assembled_eq : x.assembled = w.file.take (512 * (x.expected - 1))
  net_ack : ∀ b, .ack b ∈ x.net → b.toNat + 1 ≤ x.expected
  short_end : x.short = true → w.file.length ≤ 512 * (x.expected - 1)

namespace DownInv

variable {sk : Sketch} {w : Download} {x : DownSys}

lemma init (w : Download) {s : Server} (hs : s.handle = false) : DownInv w (downInit s) where
  serving :=
    { sent_data := by simp [downInit]
      at_block := fun hh => absurd (hs.symm.trans hh) (by simp)
      unread := fun hh => absurd (hs.symm.trans hh) (by simp)
      was_read := fun hh => absurd (hs.symm.trans hh) (by simp) }
  one_le := le_rfl
  expected_le := by simp [downInit]
  assembled_eq := rfl
  net_ack := by simp [downInit]
  short_end h := absurd h (by simp [downInit])

lemma deliver (hi : DownInv w x) {m : DownMsg} {p : Chain} {env : Env} (hmem : m ∈ x.net)
    (hp : p.flatten = m.bytes w) (hopened : ∀ content ∈ env.opened, content = w.file)
    (hok : InStep sk w x (.deliver m p env)) :
    Serving w x.expected (recv sk x.server ⟨p, w.addr, w.port⟩ env) := by
  have hseen := hi.serving.ticked x.server.timeouts x.server.timer x.server.timer 0
  cases m with
  | rrq =>
    obtain ⟨hhead, hread⟩ := hok
    rw [recv_request ⟨p, w.addr, w.port⟩ false hp hhead]
    split
    · exact hi.serving.sendError _ _ _ _
    · exact hseen.recvRequest hi.one_le hopened hread
  | ack b =>
    obtain ⟨hhead, hread, hunread⟩ := hok
    rw [recv_ack sk x.server hp hhead]
    split
    · exact hi.serving.sendError _ _ _ _
    · exact hseen.recvAck (hi.net_ack b hmem) hread hunread

lemma eq_ofNat_iff (hi : DownInv w x) {b : UInt16} (hb : 1 ≤ b.toNat) :
    b = UInt16.ofNat x.expected ↔ b.toNat = x.expected := by
  have hle := hi.expected_le
  have hlt := b.toNat_lt
  rw [← UInt16.toNat_inj, UInt16.toNat_ofNat']
  omega

lemma received (hi : DownInv w x) {b : UInt16} {payload : List UInt8} (hblock : IsBlock w b payload)
    (hle : b.toNat ≤ x.expected) : DownInv w (received x b payload) := by
  have hone := hi.one_le
  have hlt := b.toNat_lt
  have hpayload : payload = (w.file.drop (512 * (b.toNat - 1))).take 512 := hblock.eq_block
  have hshort : payload.length < 512 → w.file.length ≤ 512 * b.toNat := by
    have hpos := hblock.one_le
    rw [hpayload, List.length_take, List.length_drop]
    omega
  by_cases hexpected : b = UInt16.ofNat x.expected
  · have hb := (hi.eq_ofNat_iff hblock.one_le).mp hexpected
    simp only [Tftp.received, if_pos hexpected]
    refine
      { serving := hi.serving.mono (Nat.le_succ _)
        one_le := by simp only; omega
        expected_le := by simp only; omega
        assembled_eq := ?_
        net_ack := fun b' hmem => ?_
        short_end := fun h => ?_ }
    · have hnext : 512 * (x.expected + 1 - 1) = 512 * (x.expected - 1) + 512 := by omega
      simp only [hi.assembled_eq, hpayload, hb, hnext, List.take_add]
    · rcases List.mem_append.mp hmem with hmem | hmem
      · exact (hi.net_ack b' hmem).trans (Nat.le_succ _)
      · obtain rfl := DownMsg.ack.inj (List.mem_singleton.mp hmem)
        simp only
        omega
    · rw [Nat.add_sub_cancel]
      rcases Bool.or_eq_true_iff.mp h with h | h
      · have := hi.short_end h
        omega
      · exact hb ▸ hshort (of_decide_eq_true h)
  · have hb : b.toNat + 1 ≤ x.expected := by
      have := mt (hi.eq_ofNat_iff hblock.one_le).mpr hexpected
      omega
    simp only [Tftp.received, if_neg hexpected]
    refine { hi with net_ack := fun b' hmem => ?_, short_end := fun h => ?_ }
    · rcases List.mem_append.mp hmem with hmem | hmem
      · exact hi.net_ack b' hmem
      · obtain rfl := DownMsg.ack.inj (List.mem_singleton.mp hmem)
        exact hb
    · rcases Bool.or_eq_true_iff.mp h with h | h
      · exact hi.short_end h
      · have := hshort (of_decide_eq_true h)
        simp only
        omega

lemma step {e : DownEvent} {x' : DownSys} (hi : DownInv w x) (hok : InStep sk w x e)
    (h : downStep sk w x e = some x') : DownInv w x' := by
  cases e with
  | send =>
    simp only [downStep, Option.ite_none_right_eq_some, Option.some.injEq] at h
    obtain ⟨-, rfl⟩ := h
    exact { hi with net_ack := fun b hmem => hi.net_ack b (by simpa using hmem) }
  | deliver m p env =>
    simp only [downStep, Option.ite_none_right_eq_some, Option.some.injEq] at h
    obtain ⟨⟨hmem, hp, hopened⟩, rfl⟩ := h
    exact { hi with serving := hi.deliver hmem hp hopened hok }
  | receive b payload =>
    simp only [downStep, Option.ite_none_right_eq_some, Option.some.injEq] at h
    obtain ⟨hmem, rfl⟩ := h
    obtain ⟨hblock, hle⟩ := hi.serving.sent_data _ hmem b payload rfl
    exact hi.received hblock hle
  | tmr env =>
    simp only [downStep, Option.map_eq_some_iff] at h
    obtain ⟨server, hserver, rfl⟩ := h
    simp only [Tftp.step, Option.ite_none_left_eq_some, Option.some.injEq] at hserver
    obtain ⟨-, rfl⟩ := hserver
    have hticked := hi.serving.ticked (x.server.timeouts - 1) x.server.timer x.server.lastPkt
      x.server.retries
    exact { hi with serving := hticked.tftpTmr env }

end DownInv

/-- **A download gives the file** in every run in which every datagram reaches the server with
its header in one buffer, every read gives the next block or an error, and no acknowledgement
has the number of a block that was counted and not read: what the client has assembled is a
prefix of the file, and all of it once a short block has been received. -/
theorem download_intact (sk : Sketch) (w : Download) {s : Server} (hs : s.handle = false)
    (es : List DownEvent) {t : DownSys}
    (hok : Admits (downStep sk w) (InStep sk w) (downInit s) es)
    (hrun : exec (downStep sk w) (downInit s) es = some t) :
    t.assembled <+: w.file ∧ (t.short = true → t.assembled = w.file) := by
  have hi : DownInv w t :=
    exec_inv_of_admits (fun _ _ _ hx hok hstep => hx.step hok hstep) (DownInv.init w hs) hok hrun
  rw [hi.assembled_eq]
  exact ⟨List.take_prefix _ _, fun h => List.take_of_length_le (hi.short_end h)⟩

/-- A file of 513 bytes. -/
def oneByteMore : Download where
  file := List.replicate 512 1 ++ [2]
  filename := [97]
  mode := [98]
  addr := 1
  port := 1000
  few := by
    rw [List.length_append, List.length_replicate, List.length_singleton]
    decide

/-- Every allocation succeeds, the file is there, and reads give what is asked for. -/
def readEnv (w : Download) : Env :=
  ⟨true, true, true, true, some w.file, .got 512, .stored 512, fun _ => 0⟩

/-- A message of the client, in one buffer. -/
def toServer (w : Download) (m : DownMsg) (env : Env) : DownEvent := .deliver m [m.bytes w] env

/-- The file of 513 bytes, with the request and the first acknowledgement delivered twice and
the first block sent again after a lost acknowledgement. -/
theorem download_intact_duplicates :
    let w := oneByteMore
    let env := readEnv w
    let es : List DownEvent := [.send, .send, toServer w .rrq env, toServer w .rrq env, .tmr env,
      .receive 1 (w.block 1), .receive 1 (w.block 1), toServer w (.ack 1) env,
      toServer w (.ack 1) env, .receive 2 [2], toServer w (.ack 2) env]
    ∃ t, exec (downStep .sd w) (downInit tftpInit) es = some t ∧ t.short = true ∧
      t.assembled = w.file := by
  intro w env es
  have hok : Admits (downStep .sd w) (InStep .sd w) (downInit tftpInit) es := by decide +kernel
  have hrun : (exec (downStep .sd w) (downInit tftpInit) es).map (fun t => t.short) =
      some true := by
    decide +kernel
  obtain ⟨t, ht, hshort⟩ := Option.map_eq_some_iff.mp hrun
  exact ⟨t, ht, hshort, (download_intact .sd w rfl es hok ht).2 hshort⟩

/-- A file of two full blocks and one byte. -/
def threeBlocks : Download where
  file := List.replicate 512 1 ++ List.replicate 512 2 ++ [3]
  filename := [97]
  mode := [98]
  addr := 1
  port := 1000
  few := by
    rw [List.length_append, List.length_append, List.length_replicate, List.length_replicate,
      List.length_singleton]
    decide

/-- With SPIFFS, a read that fails ends the file.  And with SD, the transfer is broken off by
a read that fails while the second block is being acknowledged; the request is served again,
the buffer for the second block cannot be allocated, and the acknowledgement from the first
transfer makes the server send the second block with number 3. -/
theorem download_not_intact :
    (let w := oneByteMore
     let env := { readEnv w with read := .failed }
     ∃ t, exec (downStep .spiffs w) (downInit tftpInit)
         [.send, toServer w .rrq env, .receive 1 []] = some t ∧
       t.short = true ∧ t.assembled ≠ w.file) ∧
    (let w := threeBlocks
     let env := readEnv w
     ∃ t, exec (downStep .sd w) (downInit tftpInit)
         [.send, toServer w .rrq env, .receive 1 (w.block 1), toServer w (.ack 1) env,
          .receive 2 (w.block 2), toServer w (.ack 2) { env with read := .failed },
          toServer w .rrq env, toServer w (.ack 1) { env with dataPbuf := false },
          toServer w (.ack 2) env, .receive 3 (w.block 2)] = some t ∧
       t.assembled = w.block 1 ++ w.block 2 ++ w.block 2 ∧ ¬ t.assembled <+: w.file) := by
  constructor
  · intro w env
    have hrun : (exec (downStep .spiffs w) (downInit tftpInit)
        [.send, toServer w .rrq env, .receive 1 []]).map
          (fun t => decide (t.short = true ∧ t.assembled ≠ w.file)) = some true := by
      decide +kernel
    obtain ⟨t, ht, hview⟩ := Option.map_eq_some_iff.mp hrun
    exact ⟨t, ht, of_decide_eq_true hview⟩
  · intro w env
    have hrun : (exec (downStep .sd w) (downInit tftpInit)
        [.send, toServer w .rrq env, .receive 1 (w.block 1), toServer w (.ack 1) env,
         .receive 2 (w.block 2), toServer w (.ack 2) { env with read := .failed },
         toServer w .rrq env, toServer w (.ack 1) { env with dataPbuf := false },
         toServer w (.ack 2) env, .receive 3 (w.block 2)]).map
          (fun t => decide (t.assembled = w.block 1 ++ w.block 2 ++ w.block 2 ∧
            ¬ t.assembled <+: w.file)) = some true := by
      decide +kernel
    obtain ⟨t, ht, hview⟩ := Option.map_eq_some_iff.mp hrun
    exact ⟨t, ht, of_decide_eq_true hview⟩

end Teensy41Ethernet.Tftp
