import Teensy41Ethernet.Tftp.Server
import Teensy41Ethernet.Lib.Run

/-!
# Uploads

A client sends a file in blocks of 512 bytes, each acknowledged before the next one is sent,
over a network that may lose, duplicate or delay datagrams.  The server writes every `DATA`
that it receives during a write transfer, whatever its block number, and acknowledges the
number it was given; it takes every result of the write callback that is not negative for a
success.  So the file is what was sent only if the network, the card and the buffers behave:
`upload_stored` says what is needed of them.
-/

namespace Teensy41Ethernet.Tftp

open Lib Lwip

/-! ### Client and network -/

/-- A file to be sent: blocks of 512 bytes and a shorter one at the end; the name and the mode
of the request; and the client's address. -/
structure Upload where
  blocks : List (List UInt8)
  filename : List UInt8
  mode : List UInt8
  addr : ℕ
  port : ℕ
  full : ∀ b ∈ blocks.dropLast, b.length = 512
  short : ∀ b ∈ blocks.getLast?, b.length < 512

/-- What the client sends: the request, or the block with number `i`. -/
inductive UpMsg where
  | wrq
  | data (i : ℕ)
deriving DecidableEq

/-- Block `i`, counted from one. -/
def Upload.block (u : Upload) (i : ℕ) : List UInt8 := u.blocks.getD (i - 1) []

/-- The bytes of a message. -/
def UpMsg.bytes (u : Upload) : UpMsg → List UInt8
  | .wrq => [0, 2] ++ u.filename ++ [0] ++ u.mode ++ [0]
  | .data i => [0, 3, UInt8.ofNat (i / 256), UInt8.ofNat i] ++ u.block i

/-- The client, the network and the server.  `cur` is the number of the block acknowledged
last, none before the request is; `net` has all messages that the client has sent.  The last
two fields record the run: how many blocks the server has taken, and the blocks it has
acknowledged. -/
structure UpSys where
  server : Server
  cur : Option ℕ
  net : List UpMsg
  taken : ℕ
  acked : List ℕ

def upInit (s : Server) : UpSys := ⟨s, none, [], 0, []⟩

/-- What happens: the client sends its current message, perhaps again; a message it has sent
reaches the server, in the buffers `p`; an acknowledgement reaches the client; a timeout of
the server expires. -/
inductive UpEvent where
  | send
  | deliver (m : UpMsg) (p : Chain) (env : Env)
  | ack (blknum : UInt16)
  | tmr (env : Env)

/-- The server writes the block of a datagram from this client. -/
def Server.takes (s : Server) (u : Upload) : Bool :=
  !s.refuses u.addr u.port && s.handle && s.modeWrite

/-- Whether a datagram is an acknowledgement. -/
def Sent.isAck (d : Sent) : Bool :=
  match d.packet with
  | .ack _ => true
  | _ => false

/-- The state after a message has reached the server. -/
def upDelivered (sk : Sketch) (u : Upload) (x : UpSys) (m : UpMsg) (p : Chain) (env : Env) :
    UpSys :=
  let server := recv sk x.server ⟨p, u.addr, u.port⟩ env
  match m with
  | .wrq => { x with server := server }
  | .data i =>
      if x.server.takes u then
        { x with
          server := server
          taken := x.taken + 1
          acked := if (server.sent.drop x.server.sent.length).any Sent.isAck then x.acked ++ [i]
            else x.acked }
      else { x with server := server }

/-- The block that the client waits for after an acknowledgement. -/
def nextCur (cur : Option ℕ) (blknum : UInt16) : Option ℕ :=
  match cur with
  | none => if blknum = 0 then some 0 else none
  | some k => if blknum = UInt16.ofNat (k + 1) then some (k + 1) else some k

/-- One event.  The network delivers only what was sent, but any number of times. -/
def upStep (sk : Sketch) (u : Upload) (x : UpSys) : UpEvent → Option UpSys
  | .send =>
      match x.cur with
      | none => some { x with net := x.net ++ [.wrq] }
      | some k =>
          if k < u.blocks.length then some { x with net := x.net ++ [.data (k + 1)] } else none
  | .deliver m p env =>
      if m ∈ x.net ∧ p.flatten = m.bytes u then some (upDelivered sk u x m p env) else none
  | .ack blknum =>
      if ⟨u.addr, u.port, .ack blknum⟩ ∈ x.server.sent then
        some { x with cur := nextCur x.cur blknum }
      else none
  | .tmr env => (step sk x.server (.tmr env)).map fun server => { x with server := server }

/-! ### The condition -/

/-- The write stores all of `n` bytes. -/
def WriteOutcome.full (o : WriteOutcome) (n : ℕ) : Bool :=
  match o with
  | .failed => false
  | .stored k => decide (n ≤ k)

/-- The bytes of a chain lie one behind the other, the TFTP header in its first buffer. -/
def Contiguous (p : Chain) (env : Env) : Prop :=
  headerLength ≤ (p.headD []).length ∧
    (List.range (totLen p.tail)).map env.behind = p.tail.flatten

/-- A datagram reaches the server in one block of memory; the request is let through only
while no block has been taken, and gives an empty file; and a block that is taken is the one
after the last, and is written as a whole. -/
def Orderly (sk : Sketch) (u : Upload) (x : UpSys) : UpEvent → Prop
  | .deliver .wrq p env =>
      Contiguous p env ∧ (x.server.handle = false →
        x.taken = 0 ∧ ∀ f ∈ tftpFsOpen sk env.opened true, f.content = [])
  | .deliver (.data i) p env =>
      Contiguous p env ∧ (x.server.takes u = true →
        i = x.taken + 1 ∧ env.wrote.full (u.block i).length = true)
  | _ => True

instance (p : Chain) (env : Env) : Decidable (Contiguous p env) :=
  inferInstanceAs (Decidable (_ ∧ _))

instance (sk : Sketch) (u : Upload) (x : UpSys) (e : UpEvent) : Decidable (Orderly sk u x e) :=
  UpEvent.casesOn e (.isTrue trivial)
    (fun m p env => UpMsg.casesOn m
      (inferInstanceAs (Decidable (Contiguous p env ∧ (x.server.handle = false →
        x.taken = 0 ∧ ∀ f ∈ tftpFsOpen sk env.opened true, f.content = []))))
      (fun i => inferInstanceAs (Decidable (Contiguous p env ∧ (x.server.takes u = true →
        i = x.taken + 1 ∧ env.wrote.full (u.block i).length = true)))))
    (fun _ => .isTrue trivial) (fun _ => .isTrue trivial)

/-! ### What the messages are to the server -/

section Messages

variable {u : Upload} {p : Chain} {env : Env}

lemma recv_data (sk : Sketch) (s : Server) {i : ℕ} (hp : p.flatten = UpMsg.bytes u (.data i))
    (hc : Contiguous p env) :
    recv sk s ⟨p, u.addr, u.port⟩ env =
      if s.refuses u.addr u.port then
        sendError s env u.addr u.port .accessViolation "Only one connection at a time is supported"
      else
        recvData sk { s with lastPkt := s.timer, retries := 0 } ⟨p, u.addr, u.port⟩ env
          (UInt16.ofNat i) := by
  obtain ⟨hopcode, hblknum⟩ := be16_header 3 i hp hc.1 env.behind
  simp only [recv, hopcode, hblknum]
  rfl

lemma payloadBytes_data {i : ℕ} (hp : p.flatten = UpMsg.bytes u (.data i)) (hc : Contiguous p env) :
    payloadBytes (pbufHeader p headerLength) env.behind (totLen (pbufHeader p headerLength)) =
      u.block i := by
  have hflat : (pbufHeader p headerLength).flatten = u.block i := by
    rw [flatten_pbufHeader hc.1, hp]
    rfl
  rw [← hflat, payloadBytes_totLen_eq_iff, tail_pbufHeader]
  exact hc.2

end Messages

/-! ### What the server does to the file -/

section Files

variable {sk : Sketch} {s : Server} {m : Datagram} {env : Env}

lemma pos_tftpFsOpen {old : Option (List UInt8)} {f : File}
    (h : tftpFsOpen sk old true = some f) : f.pos = f.content.length := by
  obtain ⟨content, -, rfl⟩ := Option.map_eq_some_iff.mp h
  cases sk <;> rfl

lemma tftpFsWrite_full {f : File} {d : List UInt8} {o : WriteOutcome}
    (hfull : o.full d.length = true) (hpos : f.pos = f.content.length) :
    tftpFsWrite sk f d o = ((d.length : ℤ), ⟨f.content ++ d, f.content.length + d.length⟩) := by
  cases o with
  | failed => exact absurd hfull (by simp [WriteOutcome.full])
  | stored k =>
    have hk : d.length ≤ k := by simpa [WriteOutcome.full] using hfull
    simp [tftpFsWrite, List.take_of_length_le hk, hpos]

lemma recvData_full (sk : Sketch) {d : List UInt8} (b : UInt16) (hhandle : s.handle = true)
    (hwrite : s.modeWrite = true)
    (hd : payloadBytes (pbufHeader m.p headerLength) env.behind
      (totLen (pbufHeader m.p headerLength)) = d)
    (hfull : env.wrote.full d.length = true) (hpos : s.file.pos = s.file.content.length) :
    (recvData sk s m env b).modeWrite = true ∧
      (recvData sk s m env b).file =
        ⟨s.file.content ++ d, s.file.content.length + d.length⟩ := by
  rw [recvData, if_neg (by simp [hhandle]), if_neg (by simp [hwrite])]
  simp only [hd, tftpFsWrite_full hfull hpos]
  have hret : ¬ (d.length : ℤ) < 0 := by omega
  simp only [if_neg hret]
  split <;> exact ⟨hwrite, rfl⟩

/-- The transfer and the file are as they were. -/
def SameFile (s s' : Server) : Prop :=
  (s'.handle = true → s.handle = true ∧ s'.modeWrite = s.modeWrite) ∧ s'.file = s.file

lemma sameFile_of_eq {s' : Server} (hhandle : s'.handle = s.handle)
    (hwrite : s'.modeWrite = s.modeWrite) (hfile : s'.file = s.file) : SameFile s s' :=
  ⟨fun h => ⟨hhandle ▸ h, hwrite⟩, hfile⟩

lemma sameFile_recvData {b : UInt16} (h : ¬ (s.handle = true ∧ s.modeWrite = true)) :
    SameFile s (recvData sk s m env b) := by
  simp only [recvData]
  split
  · exact sameFile_of_eq rfl rfl rfl
  split
  · exact sameFile_of_eq rfl rfl rfl
  · rename_i hhandle hwrite
    exact absurd ⟨Bool.eq_true_of_not_eq_false hhandle, Bool.eq_true_of_not_eq_false hwrite⟩ h

/-- A request to write changes nothing, or finds the server idle and opens the file. -/
lemma recvRequest_write_cases (sk : Sketch) (s : Server) (m : Datagram) (env : Env) :
    SameFile s (recvRequest sk s m env true) ∨
      s.handle = false ∧ ∃ f, tftpFsOpen sk env.opened true = some f ∧
        (recvRequest sk s m env true).file = f ∧
        (recvRequest sk s m env true).modeWrite = true := by
  have hrequested := requested_recvRequest sk s m env true
  generalize recvRequest sk s m env true = s' at hrequested ⊢
  cases hrequested with
  | busy => exact Or.inl (sameFile_of_eq rfl rfl rfl)
  | refused => exact Or.inl (sameFile_of_eq rfl rfl rfl)
  | upload hidle hf => exact Or.inr ⟨hidle, _, hf, rfl, rfl⟩

lemma sameFile_tftpTmr (s : Server) (env : Env) : SameFile s (tftpTmr s env) := by
  have hticked := ticked_tftpTmr s env
  generalize tftpTmr s env = s' at hticked ⊢
  cases hticked with
  | idle => exact sameFile_of_eq rfl rfl rfl
  | armed => exact sameFile_of_eq rfl rfl rfl
  | resent => exact sameFile_of_eq rfl rfl rfl
  | closed => exact ⟨by rintro ⟨⟩, rfl⟩

end Files

/-! ### The invariant -/

/-- The file holds the blocks that were taken. -/
structure UpInv (u : Upload) (x : UpSys) : Prop where
  net_data : ∀ i, .data i ∈ x.net → 1 ≤ i ∧ i ≤ u.blocks.length
  taken_le : x.taken ≤ u.blocks.length
  write : x.server.handle = true → x.server.modeWrite = true
  pos_eq : x.server.handle = true → x.server.file.pos = x.server.file.content.length
  content_eq : x.server.handle = true ∨ 0 < x.taken →
    x.server.file.content = (u.blocks.take x.taken).flatten
  acked_le : ∀ i ∈ x.acked, 1 ≤ i ∧ i ≤ x.taken

namespace UpInv

variable {sk : Sketch} {u : Upload} {x : UpSys}

lemma init (u : Upload) {s : Server} (hs : s.handle = false) : UpInv u (upInit s) where
  net_data := by simp [upInit]
  taken_le := Nat.zero_le _
  write h := absurd (hs.symm.trans h) (by simp)
  pos_eq h := absurd (hs.symm.trans h) (by simp)
  content_eq h := by
    rcases h with h | h
    · exact absurd (hs.symm.trans h) (by simp)
    · exact absurd h (Nat.lt_irrefl 0)
  acked_le := by simp [upInit]

lemma of_same (hi : UpInv u x) {server : Server} (hsame : SameFile x.server server) :
    UpInv u { x with server := server } where
  net_data := hi.net_data
  taken_le := hi.taken_le
  write h := (hsame.1 h).2.trans (hi.write (hsame.1 h).1)
  pos_eq h := hsame.2.symm ▸ hi.pos_eq (hsame.1 h).1
  content_eq h := hsame.2.symm ▸ hi.content_eq (h.imp_left fun h => (hsame.1 h).1)
  acked_le := hi.acked_le

lemma wrq (hi : UpInv u x) {p : Chain} {env : Env} (hp : p.flatten = UpMsg.bytes u .wrq)
    (hok : Orderly sk u x (.deliver .wrq p env)) : UpInv u (upDelivered sk u x .wrq p env) := by
  obtain ⟨hc, hfirst⟩ := hok
  simp only [upDelivered, recv_request ⟨p, u.addr, u.port⟩ true hp hc.1]
  split
  · exact hi.of_same (sameFile_of_eq rfl rfl rfl)
  rcases recvRequest_write_cases sk { x.server with lastPkt := x.server.timer, retries := 0 }
    ⟨p, u.addr, u.port⟩ env with hsame | ⟨hidle, f, hf, hfile, hwrite⟩
  · exact hi.of_same hsame
  · -- no block was taken, and the file is empty
    obtain ⟨htaken, hempty⟩ := hfirst hidle
    have hcontent := hempty f hf
    have hpos := pos_tftpFsOpen hf
    exact
      { net_data := hi.net_data
        taken_le := hi.taken_le
        write := fun _ => hwrite
        pos_eq := fun _ => by rw [hfile, hpos]
        content_eq := fun _ => by rw [hfile, hcontent, htaken]; rfl
        acked_le := hi.acked_le }

lemma data (hi : UpInv u x) {p : Chain} {env : Env} {i : ℕ} (hmem : .data i ∈ x.net)
    (hp : p.flatten = UpMsg.bytes u (.data i)) (hok : Orderly sk u x (.deliver (.data i) p env)) :
    UpInv u (upDelivered sk u x (.data i) p env) := by
  obtain ⟨hc, hnext⟩ := hok
  have hrecv := recv_data sk x.server hp hc
  by_cases htakes : x.server.takes u = true
  · obtain ⟨rfl, hfull⟩ := hnext htakes
    obtain ⟨-, hle⟩ := hi.net_data _ hmem
    simp only [Server.takes, Bool.and_eq_true, Bool.not_eq_true'] at htakes
    obtain ⟨⟨hrefuses, hhandle⟩, hwrite⟩ := htakes
    rw [if_neg (by simp [hrefuses])] at hrecv
    obtain ⟨hwrite', hfile⟩ := recvData_full
      (s := { x.server with lastPkt := x.server.timer, retries := 0 }) (m := ⟨p, u.addr, u.port⟩)
      sk (UInt16.ofNat (x.taken + 1)) hhandle hwrite (payloadBytes_data hp hc) hfull
      (hi.pos_eq hhandle)
    rw [← hrecv] at hwrite' hfile
    have hcontent := hi.content_eq (Or.inl hhandle)
    have hblock : (u.blocks.take (x.taken + 1)).flatten =
        (u.blocks.take x.taken).flatten ++ u.block (x.taken + 1) := by
      rw [List.take_succ_eq_append_getElem (by omega), List.flatten_append, List.flatten_singleton,
        Upload.block, Nat.add_sub_cancel, List.getD_eq_getElem?_getD,
        List.getElem?_eq_getElem (by omega), Option.getD_some]
    have htakes' : x.server.takes u = true := by simp [Server.takes, hrefuses, hhandle, hwrite]
    simp only [upDelivered, htakes', if_true]
    exact
      { net_data := hi.net_data
        taken_le := hle
        write := fun _ => hwrite'
        pos_eq := fun _ => by rw [hfile, List.length_append]
        content_eq := fun _ => by rw [hfile, hblock, ← hcontent]
        acked_le := by
          intro j hj
          split at hj
          · rcases List.mem_append.mp hj with hj | hj
            · have := hi.acked_le j hj
              exact ⟨this.1, by simp only; omega⟩
            · rw [List.mem_singleton] at hj
              exact ⟨by omega, by simp only; omega⟩
          · have := hi.acked_le j hj
            exact ⟨this.1, by simp only; omega⟩ }
  · simp only [upDelivered, if_neg htakes]
    refine hi.of_same ?_
    rw [hrecv]
    split
    · exact sameFile_of_eq rfl rfl rfl
    · rename_i hrefuses
      refine sameFile_recvData (s := { x.server with lastPkt := x.server.timer, retries := 0 }) ?_
      rintro ⟨hhandle, hwrite⟩
      exact htakes (by simp [Server.takes, hrefuses, show x.server.handle = true from hhandle,
        show x.server.modeWrite = true from hwrite])

lemma step {e : UpEvent} {x' : UpSys} (hi : UpInv u x) (hok : Orderly sk u x e)
    (h : upStep sk u x e = some x') : UpInv u x' := by
  cases e with
  | send =>
    simp only [upStep] at h
    split at h
    · obtain rfl := Option.some.inj h
      refine { hi with net_data := fun i hmem => hi.net_data i ?_ }
      simpa using hmem
    · rename_i k _
      obtain ⟨hlt, h⟩ := Option.ite_none_right_eq_some.mp h
      obtain rfl := Option.some.inj h
      refine { hi with net_data := fun i hmem => ?_ }
      rcases List.mem_append.mp hmem with hmem | hmem
      · exact hi.net_data i hmem
      · rw [List.mem_singleton, UpMsg.data.injEq] at hmem
        omega
  | deliver m p env =>
    simp only [upStep, Option.ite_none_right_eq_some, Option.some.injEq] at h
    obtain ⟨⟨hmem, hp⟩, rfl⟩ := h
    cases m with
    | wrq => exact hi.wrq hp hok
    | data i => exact hi.data hmem hp hok
  | ack blknum =>
    simp only [upStep, Option.ite_none_right_eq_some, Option.some.injEq] at h
    obtain ⟨-, rfl⟩ := h
    exact { hi with }
  | tmr env =>
    simp only [upStep, Option.map_eq_some_iff] at h
    obtain ⟨server, hserver, rfl⟩ := h
    simp only [Tftp.step, Option.ite_none_left_eq_some, Option.some.injEq] at hserver
    obtain ⟨-, rfl⟩ := hserver
    have hsame := sameFile_tftpTmr { x.server with timeouts := x.server.timeouts - 1 } env
    exact hi.of_same hsame

end UpInv

/-- **An upload is stored** in every run in which the network delivers each block once and in
order, in one block of memory, the request is not served again, and the file system stores
every block as a whole in a file that was empty: every block that the server has acknowledged
is in the file, behind those before it, and once the last one is, the file holds the blocks,
each once and in order. -/
theorem upload_stored (sk : Sketch) (u : Upload) {s : Server} (hs : s.handle = false)
    (es : List UpEvent) {t : UpSys} (hok : Admits (upStep sk u) (Orderly sk u) (upInit s) es)
    (hrun : exec (upStep sk u) (upInit s) es = some t) :
    (∀ i ∈ t.acked, (u.blocks.take i).flatten <+: t.server.file.content) ∧
      (u.blocks.length ∈ t.acked → t.server.file.content = u.blocks.flatten) := by
  have hi : UpInv u t :=
    exec_inv_of_admits (fun _ _ _ hx hok hstep => hx.step hok hstep) (UpInv.init u hs) hok hrun
  constructor
  · intro i hmem
    obtain ⟨hpos, hle⟩ := hi.acked_le i hmem
    rw [hi.content_eq (Or.inr (by omega))]
    exact (List.take_prefix_take_left hle).flatten
  · intro hmem
    obtain ⟨hpos, hle⟩ := hi.acked_le _ hmem
    rw [hi.content_eq (Or.inr (by omega)), List.take_of_length_le (by omega)]

/-- Everything succeeds, and the file is empty. -/
def emptyFileEnv : Env := ⟨true, true, true, true, some [], .got 512, .stored 512, fun _ => 0⟩

/-- A file of 513 bytes, in two blocks. -/
def twoBlocks : Upload where
  blocks := [List.replicate 512 1, [2]]
  filename := [97]
  mode := [98]
  addr := 1
  port := 1000
  full b hb := by
    obtain rfl := List.mem_singleton.mp hb
    exact List.length_replicate
  short b hb := by
    obtain rfl := Option.some.inj hb
    decide

/-- A message in one buffer. -/
def inOneBuffer (u : Upload) (m : UpMsg) (env : Env) : UpEvent := .deliver m [m.bytes u] env

/-- The two blocks, each delivered once. -/
theorem upload_stored_two_blocks :
    let es : List UpEvent := [.send, inOneBuffer twoBlocks .wrq emptyFileEnv, .ack 0, .send,
      inOneBuffer twoBlocks (.data 1) emptyFileEnv, .ack 1, .send,
      inOneBuffer twoBlocks (.data 2) emptyFileEnv]
    ∃ t, exec (upStep .sd twoBlocks) (upInit tftpInit) es = some t ∧ t.acked = [1, 2] ∧
      t.server.file.content = twoBlocks.blocks.flatten := by
  intro es
  have hok : Admits (upStep .sd twoBlocks) (Orderly .sd twoBlocks) (upInit tftpInit) es := by
    decide +kernel
  have hrun : (exec (upStep .sd twoBlocks) (upInit tftpInit) es).map (fun t => t.acked) =
      some [1, 2] := by
    decide +kernel
  obtain ⟨t, ht, hacked⟩ := Option.map_eq_some_iff.mp hrun
  refine ⟨t, ht, hacked, (upload_stored .sd twoBlocks rfl es hok ht).2 ?_⟩
  rw [hacked]
  decide

/-- The first block is delivered twice, and the server stores and acknowledges it twice.  And
a block is acknowledged of which nothing was stored. -/
theorem upload_not_stored :
    (∃ es t, exec (upStep .sd twoBlocks) (upInit tftpInit) es = some t ∧
      twoBlocks.blocks.length ∈ t.acked ∧
      t.server.file.content = List.replicate 512 1 ++ List.replicate 512 1 ++ [2]) ∧
    ∃ es t, exec (upStep .sd twoBlocks) (upInit tftpInit) es = some t ∧ t.acked = [1] ∧
      t.server.file.content = [] := by
  constructor
  · let es : List UpEvent := [.send, inOneBuffer twoBlocks .wrq emptyFileEnv, .ack 0, .send,
      inOneBuffer twoBlocks (.data 1) emptyFileEnv, inOneBuffer twoBlocks (.data 1) emptyFileEnv,
      .ack 1, .send, inOneBuffer twoBlocks (.data 2) emptyFileEnv]
    have hrun : (exec (upStep .sd twoBlocks) (upInit tftpInit) es).map
        (fun t => decide (twoBlocks.blocks.length ∈ t.acked ∧
          t.server.file.content = List.replicate 512 1 ++ List.replicate 512 1 ++ [2])) =
          some true := by
      decide +kernel
    obtain ⟨t, ht, hview⟩ := Option.map_eq_some_iff.mp hrun
    exact ⟨es, t, ht, of_decide_eq_true hview⟩
  · let es : List UpEvent := [.send, inOneBuffer twoBlocks .wrq emptyFileEnv, .ack 0, .send,
      inOneBuffer twoBlocks (.data 1) { emptyFileEnv with wrote := .stored 0 }]
    have hrun : (exec (upStep .sd twoBlocks) (upInit tftpInit) es).map
        (fun t => (t.acked, t.server.file.content)) = some ([1], []) := by
      decide +kernel
    obtain ⟨t, ht, hview⟩ := Option.map_eq_some_iff.mp hrun
    rw [Prod.mk.injEq] at hview
    exact ⟨es, t, ht, hview.1, hview.2⟩

end Teensy41Ethernet.Tftp
