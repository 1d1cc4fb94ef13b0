import Mathlib.Data.UInt
import Teensy41Ethernet.Lib.CString
import Teensy41Ethernet.Tftp.Timers

/-!
# Requests to the TFTP server

A request is an opcode and two strings, the name of a file and a mode, each with a terminating
zero.  `recv` looks for the two zeros in the chain and copies the strings to buffers on its stack,
with tests that are made in 16 bits.  The tests are exact (`parse_spec`): a string is accepted if
and only if it fits its buffer with the zero.  What `recv` does not take from the chain is the
opcode: it reads it through `p->payload`, and if the first member does not hold it, this is
something else.
-/

namespace Teensy41Ethernet.Tftp

open Lib Lwip

/-! ### The two strings -/

/-- `filename` and `mode` on the stack of `recv`, whatever they hold. -/
structure Stack where
  filename : List UInt8
  mode : List UInt8
  length_filename : filename.length = maxFilenameLen
  length_mode : mode.length = maxModeLen

/-- What `recv` makes of a request: it is refused, or there are strings in the two buffers. -/
inductive Parsed where
  | refused (str : String)
  | accepted (filename mode : List UInt8)

/-- The part of `recv` from the second `pbuf_memfind` on to the call of `open`.  The difference is
of type `u16_t`; `none` stands for a copy past the end of a buffer. -/
def parseMode (st : Stack) (p : Chain) (filenameEnd : ℕ) (filename : List UInt8) : Option Parsed :=
  let modeEnd := pbufMemfindBytes p [0] (filenameEnd + 1)
  if (modeEnd + 0x10000 - filenameEnd) % 0x10000 > maxModeLen then
    some (.refused "Mode too long/not NULL terminated")
  else
    (copyTo st.mode 0 (pbufCopyPartial p (modeEnd - filenameEnd) (filenameEnd + 1))).map
      fun mode => .accepted filename mode

/-- The part of `recv` from the first `pbuf_memfind` on to the call of `open`. -/
def parse (st : Stack) (p : Chain) : Option Parsed :=
  let filenameEnd := pbufMemfindBytes p [0] 2
  if (filenameEnd + 0x10000 - 1) % 0x10000 > maxFilenameLen then
    some (.refused "Filename too long/not NULL terminated")
  else
    (copyTo st.filename 0 (pbufCopyPartial p (filenameEnd - 1) 2)).bind fun filename =>
      parseMode st p filenameEnd filename

/-- The form of a request: from offset 2 on a string that fits `filename` with its zero, and behind
it one that fits `mode`. -/
structure IsRequest (bytes filename mode : List UInt8) : Prop where
  filename_eq : text (bytes.drop 2) = some filename
  mode_eq : text (bytes.drop (2 + filename.length + 1)) = some mode
  filename_lt : filename.length < maxFilenameLen
  mode_lt : mode.length < maxModeLen

lemma IsRequest.unique {bytes filename mode filename' mode' : List UInt8}
    (h : IsRequest bytes filename mode) (h' : IsRequest bytes filename' mode') :
    filename = filename' ∧ mode = mode' := by
  obtain rfl := Option.some.inj (h.filename_eq.symm.trans h'.filename_eq)
  exact ⟨rfl, Option.some.inj (h.mode_eq.symm.trans h'.mode_eq)⟩

section Strings

variable {p : Chain} {st : Stack} {filename mode : List UInt8}

lemma pbufMemfindBytes_zero (p : Chain) (start : ℕ) : pbufMemfindBytes p [0] start =
    match text (p.flatten.drop start) with
    | some t => start + t.length
    | none => 0xFFFF := by
  rw [pbufMemfindBytes_singleton, pbufMemfind]
  split
  · rw [findIdx?_zero]
    cases text (p.flatten.drop start) with
    | none => rfl
    | some t => rfl
  · next h =>
    have hnil : p.flatten.drop start = [] := by
      rw [List.drop_eq_nil_iff, length_flatten_eq_totLen]
      omega
    rw [hnil]
    rfl

lemma add_length_lt_totLen {start : ℕ} {t : List UInt8} (h : text (p.flatten.drop start) = some t) :
    start + t.length < totLen p := by
  have hlt := length_lt_of_text h
  rw [List.length_drop, length_flatten_eq_totLen] at hlt
  omega

lemma pbufCopyPartial_text {start : ℕ} {t : List UInt8}
    (h : text (p.flatten.drop start) = some t) :
    pbufCopyPartial p (t.length + 1) start = t ++ [0] := by
  obtain ⟨-, rest, hrest⟩ := text_eq_some h
  rw [pbufCopyPartial_eq, hrest, List.append_cons]
  exact List.take_left' (by simp)

lemma copyTo_pbufCopyPartial {block t : List UInt8} {start : ℕ}
    (h : text (p.flatten.drop start) = some t) (hlt : t.length < block.length) :
    ∃ block', copyTo block 0 (pbufCopyPartial p (t.length + 1) start) = some block' ∧
      text block' = some t := by
  rw [pbufCopyPartial_text h]
  obtain ⟨block', hcopy, -, htext⟩ := strcpy_spec (text_eq_some h).1 hlt
  exact ⟨block', hcopy, htext⟩

lemma parseMode_spec (st : Stack) (htot : totLen p ≤ 0xFFFF) (filenameEnd : ℕ)
    (hend : filenameEnd < 0xFF00) (block : List UInt8) :
    (∃ mode block', text (p.flatten.drop (filenameEnd + 1)) = some mode ∧
        mode.length < maxModeLen ∧
        parseMode st p filenameEnd block = some (.accepted block block') ∧
        text block' = some mode) ∨
      (∀ mode, text (p.flatten.drop (filenameEnd + 1)) = some mode → ¬ mode.length < maxModeLen) ∧
        ∃ str, parseMode st p filenameEnd block = some (.refused str) := by
  rw [parseMode]
  cases hmode : text (p.flatten.drop (filenameEnd + 1)) with
  | none =>
    have hmem : pbufMemfindBytes p [0] (filenameEnd + 1) = 0xFFFF := by
      rw [pbufMemfindBytes_zero, hmode]
    refine Or.inr ⟨fun mode h => absurd h (by simp), "Mode too long/not NULL terminated", ?_⟩
    rw [hmem, if_pos (by rw [maxModeLen]; omega)]
  | some mode =>
    have hin := add_length_lt_totLen hmode
    have hmem : pbufMemfindBytes p [0] (filenameEnd + 1) = filenameEnd + 1 + mode.length := by
      rw [pbufMemfindBytes_zero, hmode]
    rw [hmem]
    by_cases hlt : mode.length < maxModeLen
    · obtain ⟨block', hcopy, hblock'⟩ :=
        copyTo_pbufCopyPartial hmode (hlt.trans_eq st.length_mode.symm)
      refine Or.inl ⟨mode, block', rfl, hlt, ?_, hblock'⟩
      have hlen : filenameEnd + 1 + mode.length - filenameEnd = mode.length + 1 := by omega
      rw [if_neg (by omega), hlen, hcopy, Option.map_some]
    · refine Or.inr ⟨fun mode' h => ?_, "Mode too long/not NULL terminated", ?_⟩
      · obtain rfl := Option.some.inj h
        exact hlt
      · rw [if_pos (by omega)]

/-- **The parse is exact.**  A request is accepted if it has the form of one, and the buffers then
hold the two strings; otherwise it is refused.  No copy runs past a buffer. -/
theorem parse_spec (st : Stack) (htot : totLen p ≤ 0xFFFF) :
    (∃ filename mode block block', IsRequest p.flatten filename mode ∧
        parse st p = some (.accepted block block') ∧ text block = some filename ∧
        text block' = some mode) ∨
      (∀ filename mode, ¬ IsRequest p.flatten filename mode) ∧
        ∃ str, parse st p = some (.refused str) := by
  rw [parse]
  cases hfilename : text (p.flatten.drop 2) with
  | none =>
    have hmem : pbufMemfindBytes p [0] 2 = 0xFFFF := by rw [pbufMemfindBytes_zero, hfilename]
    refine Or.inr ⟨fun filename mode h => ?_, "Filename too long/not NULL terminated", ?_⟩
    · exact absurd (hfilename.symm.trans h.filename_eq) (by simp)
    · rw [hmem, if_pos (by decide)]
  | some filename =>
    have hin := add_length_lt_totLen hfilename
    have hmem : pbufMemfindBytes p [0] 2 = 2 + filename.length := by
      rw [pbufMemfindBytes_zero, hfilename]
    have hunique : ∀ filename' mode, IsRequest p.flatten filename' mode → filename' = filename :=
      fun filename' mode h => Option.some.inj (h.filename_eq.symm.trans hfilename)
    rw [hmem]
    by_cases hlt : filename.length < maxFilenameLen
    · obtain ⟨block, hcopy, hblock⟩ :=
        copyTo_pbufCopyPartial hfilename (hlt.trans_eq st.length_filename.symm)
      have hlen : 2 + filename.length - 1 = filename.length + 1 := by omega
      have hmax : maxFilenameLen = 512 := rfl
      rw [if_neg (by omega), hlen, hcopy, Option.bind_some]
      rcases parseMode_spec st htot (2 + filename.length) (by omega) block with
        ⟨mode, block', hmode, hshort, hparse, hblock'⟩ | ⟨hnone, hparse⟩
      · exact Or.inl ⟨filename, mode, block, block', ⟨hfilename, hmode, hlt, hshort⟩, hparse,
          hblock, hblock'⟩
      · refine Or.inr ⟨fun filename' mode h => ?_, hparse⟩
        obtain rfl := hunique filename' mode h
        exact hnone mode h.mode_eq h.mode_lt
    · refine Or.inr ⟨fun filename' mode h => ?_, "Filename too long/not NULL terminated", ?_⟩
      · obtain rfl := hunique filename' mode h
        exact hlt h.filename_lt
      · rw [if_pos (by omega)]

end Strings

/-! ### `recv` -/

section Recv

variable {sk : Sketch} {s : Server} {m : Datagram} {env : Env}

lemma pbufMemfind_zero_of_text {p : Chain} {start : ℕ} {t : List UInt8}
    (h : text (p.flatten.drop start) = some t) : pbufMemfind p 0 start = start + t.length := by
  rw [← pbufMemfindBytes_singleton, pbufMemfindBytes_zero, h]

/-- A request that has the form of one is passed to `open`. -/
lemma recvRequest_of_isRequest {filename mode : List UInt8} (hidle : s.handle = false)
    (h : IsRequest m.p.flatten filename mode) (write : Bool) :
    recvRequest sk s m env write = recvOpen sk { s with timeouts := s.timeouts + 1 } m env write
      (filename ++ [0]) (mode ++ [0]) := by
  have hfilename := pbufMemfind_zero_of_text h.filename_eq
  have hmode := pbufMemfind_zero_of_text h.mode_eq
  have hlt := h.filename_lt
  have hlt' := h.mode_lt
  have hlen : 2 + filename.length - 1 = filename.length + 1 := by omega
  have hlen' : 2 + filename.length + 1 + mode.length - (2 + filename.length) = mode.length + 1 := by
    omega
  have hfits : ¬ filename.length + 1 > maxFilenameLen := by omega
  have hfits' : ¬ mode.length + 1 > maxModeLen := by omega
  simp only [recvRequest, hidle, hfilename, hmode, hlen, hlen', if_neg hfits, if_neg hfits',
    pbufCopyPartial_text h.filename_eq, pbufCopyPartial_text h.mode_eq, Bool.false_eq_true,
    if_false]

lemma pbufMemfind_mem {p : Chain} (htot : totLen p ≤ 0xFFFF) (start : ℕ) (hstart : start ≤ 0xFFFF) :
    start ≤ pbufMemfind p 0 start ∧ pbufMemfind p 0 start ≤ 0xFFFF := by
  rw [← pbufMemfindBytes_singleton, pbufMemfindBytes_zero]
  cases h : text (p.flatten.drop start) with
  | none => exact ⟨hstart, le_rfl⟩
  | some t =>
    have hin := add_length_lt_totLen h
    have hle : start + t.length ≤ 0xFFFF := by omega
    exact ⟨Nat.le_add_right _ _, hle⟩

/-- A request that the parse refuses is answered with its message. -/
lemma recvRequest_of_refused (hidle : s.handle = false) (htot : totLen m.p ≤ 0xFFFF) {st : Stack}
    {str : String} (h : parse st m.p = some (.refused str)) (write : Bool) :
    recvRequest sk s m env write =
      sendError { s with timeouts := s.timeouts + 1 } env m.addr m.port .accessViolation str := by
  have hend := pbufMemfind_mem htot 2 (by omega)
  simp only [recvRequest, hidle, Bool.false_eq_true, if_false]
  simp only [parse, pbufMemfindBytes_singleton] at h
  by_cases hlong : pbufMemfind m.p 0 2 - 1 > maxFilenameLen
  · rw [if_pos (by omega)] at h
    cases h
    rw [if_pos hlong]
  · rw [if_neg (by omega)] at h
    obtain ⟨filename, -, h⟩ := Option.bind_eq_some_iff.mp h
    have hmax : maxFilenameLen = 512 := rfl
    have hend' := pbufMemfind_mem htot (pbufMemfind m.p 0 2 + 1) (by omega)
    rw [if_neg hlong]
    simp only [parseMode, pbufMemfindBytes_singleton] at h
    by_cases hlong' : pbufMemfind m.p 0 (pbufMemfind m.p 0 2 + 1) - pbufMemfind m.p 0 2 > maxModeLen
    · rw [if_pos (by omega)] at h
      cases h
      rw [if_pos hlong']
    · rw [if_neg (by omega)] at h
      obtain ⟨mode, -, h⟩ := Option.map_eq_some_iff.mp h
      cases h

lemma opens_sendData (s : Server) : (sendData sk s env).opens = s.opens := by
  simp only [sendData]
  split
  · rfl
  split
  · rfl
  · rfl

lemma opens_recvOpen (s : Server) (write : Bool) (filename mode : List UInt8) :
    (recvOpen sk s m env write filename mode).opens = s.opens ++ [(filename, mode, write)] := by
  simp only [recvOpen]
  split
  · rfl
  · cases write with
    | true => rfl
    | false => exact opens_sendData _

lemma recv_of_not_request (sk : Sketch) (hidle : s.handle = false)
    (hclient : s.refuses m.addr m.port = false)
    (hopcode : ¬ (m.opcode env = 1 ∨ m.opcode env = 2)) :
    ∃ code str, recv sk s m env =
      sendError { s with lastPkt := s.timer, retries := 0 } env m.addr m.port code str := by
  rw [Datagram.opcode] at hopcode
  rw [recv, if_neg (by rw [hclient]; exact Bool.false_ne_true)]
  dsimp only
  rw [if_neg hopcode]
  split
  · refine ⟨.accessViolation, "No connection", ?_⟩
    rw [recvData, if_pos hidle]
  split
  · refine ⟨.accessViolation, "No connection", ?_⟩
    rw [recvAck, if_pos hidle]
  · exact ⟨_, _, rfl⟩

lemma recv_of_request (hclient : s.refuses m.addr m.port = false)
    (hopcode : m.opcode env = 1 ∨ m.opcode env = 2) :
    recv sk s m env = recvRequest sk { s with lastPkt := s.timer, retries := 0 } m env
      (decide (m.opcode env = 2)) := by
  rw [recv, if_neg (by rw [hclient]; exact Bool.false_ne_true)]
  exact if_pos hopcode

end Recv

/-! ### Between transfers -/

/-- Without a transfer there is no client. -/
def NoClient (s : Server) : Prop := s.handle = false → s.addr = 0 ∧ s.port = 0

section NoClient

variable {sk : Sketch} {s : Server} {m : Datagram} {env : Env}

/-- The client is as it was. -/
def SameClient (s s' : Server) : Prop :=
  s'.handle = s.handle ∧ s'.addr = s.addr ∧ s'.port = s.port

lemma NoClient.of_same {s' : Server} (h : NoClient s) (hsame : SameClient s s') : NoClient s' := by
  obtain ⟨hhandle, haddr, hport⟩ := hsame
  intro hidle
  rw [haddr, hport]
  exact h (hhandle.symm.trans hidle)

lemma noClient_closeHandle (s : Server) : NoClient (closeHandle s) := fun _ => ⟨rfl, rfl⟩

lemma NoClient.steady {s' : Server} (hsteady : Steady s s') (h : NoClient s) : NoClient s' :=
  h.of_same ⟨hsteady.handle, hsteady.addr, hsteady.port⟩

lemma NoClient.sendData (h : NoClient s) : NoClient (sendData sk s env) :=
  sendData_rule (fun _ _ => NoClient.steady) (fun s _ => noClient_closeHandle s) h

lemma NoClient.recvRequest (h : NoClient s) (write : Bool) :
    NoClient (recvRequest sk s m env write) := by
  have hrequested := requested_recvRequest sk s m env write
  generalize Tftp.recvRequest sk s m env write = s' at hrequested ⊢
  cases hrequested with
  | busy => exact h.of_same ⟨rfl, rfl, rfl⟩
  | refused => exact h.of_same ⟨rfl, rfl, rfl⟩
  | upload => exact fun hidle => absurd hidle.symm Bool.false_ne_true
  | download => exact NoClient.sendData fun hidle => absurd hidle.symm Bool.false_ne_true

lemma NoClient.recvData (h : NoClient s) (blknum : UInt16) :
    NoClient (recvData sk s m env blknum) :=
  recvData_rule (fun _ _ => NoClient.steady) (fun s _ => noClient_closeHandle s) h blknum

lemma NoClient.recvAck (h : NoClient s) (blknum : UInt16) :
    NoClient (recvAck sk s m env blknum) :=
  recvAck_rule (fun _ _ => NoClient.steady) (fun s _ => noClient_closeHandle s) h blknum

lemma NoClient.tftpTmr (h : NoClient s) : NoClient (tftpTmr s env) := by
  have hticked := ticked_tftpTmr s env
  generalize Tftp.tftpTmr s env = s' at hticked ⊢
  cases hticked with
  | closed => exact noClient_closeHandle _
  | _ => exact h.of_same ⟨rfl, rfl, rfl⟩

lemma noClient_step {s' : Server} {e : Event} (h : NoClient s) (hstep : step sk s e = some s') :
    NoClient s' := by
  cases e with
  | tmr env =>
    simp only [step, Option.ite_none_left_eq_some, Option.some.injEq] at hstep
    obtain ⟨-, rfl⟩ := hstep
    exact NoClient.tftpTmr (h.of_same ⟨rfl, rfl, rfl⟩)
  | recv m env =>
    obtain rfl := Option.some.inj hstep
    have hseen : NoClient { s with lastPkt := s.timer, retries := 0 } := h.of_same ⟨rfl, rfl, rfl⟩
    rw [recv]
    split
    · exact h.of_same ⟨rfl, rfl, rfl⟩
    dsimp only
    split
    · exact hseen.recvRequest _
    split
    · exact hseen.recvData _
    split
    · exact hseen.recvAck _
    · exact hseen.of_same ⟨rfl, rfl, rfl⟩

lemma refuses_of_idle {es : List Event} (hrun : exec (step sk) tftpInit es = some s)
    (hidle : s.handle = false) (addr port : ℕ) : s.refuses addr port = false := by
  have hinit : NoClient tftpInit := fun _ => ⟨rfl, rfl⟩
  obtain ⟨haddr, hport⟩ := exec_inv (fun _ _ _ => noClient_step) hinit hrun hidle
  simp [Server.refuses, haddr, hport]

end NoClient

/-! ### Requests between transfers -/

/-- What a datagram ought to lead to: `open` is called exactly for a request, with its two strings,
which are in the buffers on the stack; everything else is answered with an error; and the
buffers are not overrun. -/
structure Handles (sk : Sketch) (s : Server) (m : Datagram) (env : Env) (st : Stack) : Prop where
  opens_iff : (recv sk s m env).opens ≠ s.opens ↔
    ∃ filename mode, IsRequest m.p.flatten filename mode
  strings : ∀ filename mode, IsRequest m.p.flatten filename mode →
    (∃ write, (recv sk s m env).opens = s.opens ++ [(filename ++ [0], mode ++ [0], write)]) ∧
      ∃ block block', parse st m.p = some (.accepted block block') ∧ text block = some filename ∧
        text block' = some mode
  error : (∀ filename mode, ¬ IsRequest m.p.flatten filename mode) →
    ∃ code str, (recv sk s m env).sent = s.sent ++ [⟨m.addr, m.port, .error code str⟩]
  inside : parse st m.p ≠ none

section Handles

variable {s : Server} {m : Datagram} (sk : Sketch) (env : Env)

/-- A datagram that is no request is answered with an error, if there is a buffer for it. -/
lemma recv_of_not_isRequest (hidle : s.handle = false) (hclient : s.refuses m.addr m.port = false)
    (htot : totLen m.p ≤ 0xFFFF) {st : Stack} {str : String}
    (hparse : parse st m.p = some (.refused str)) :
    (recv sk s m env).opens = s.opens ∧ ∃ code str, (recv sk s m env).sent =
      s.sent ++ if env.errorPbuf then [⟨m.addr, m.port, .error code str⟩] else [] := by
  have hseen : ({ s with lastPkt := s.timer, retries := 0 } : Server).handle = false := hidle
  by_cases hopcode : m.opcode env = 1 ∨ m.opcode env = 2
  · rw [recv_of_request hclient hopcode, recvRequest_of_refused hseen htot hparse]
    exact ⟨rfl, _, _, rfl⟩
  · obtain ⟨code, str, hrecv⟩ := recv_of_not_request sk hidle hclient hopcode
    rw [hrecv]
    exact ⟨rfl, code, str, rfl⟩

lemma opens_recv_of_isRequest {filename mode : List UInt8} (hidle : s.handle = false)
    (hclient : s.refuses m.addr m.port = false) (h : IsRequest m.p.flatten filename mode) :
    (recv sk s m env).opens = if m.opcode env = 1 ∨ m.opcode env = 2 then
      s.opens ++ [(filename ++ [0], mode ++ [0], decide (m.opcode env = 2))] else s.opens := by
  split
  · next hopcode =>
    have hseen : ({ s with lastPkt := s.timer, retries := 0 } : Server).handle = false := hidle
    rw [recv_of_request hclient hopcode, recvRequest_of_isRequest hseen h, opens_recvOpen]
  · next hopcode =>
    obtain ⟨code, str, hrecv⟩ := recv_of_not_request sk hidle hclient hopcode
    rw [hrecv]
    rfl

/-- The opcode is that of the datagram if the first member holds it. -/
lemma opcode_of_le (h : 2 ≤ (m.p.headD []).length) :
    m.opcode env = be16 m.p.flatten 0 := by
  obtain ⟨a, b, seg, hseg⟩ : ∃ a b seg, m.p.headD [] = a :: b :: seg := by
    match hhead : m.p.headD [], h with
    | a :: b :: seg, _ => exact ⟨a, b, seg, rfl⟩
  cases hp : m.p with
  | nil =>
    rw [hp] at hseg
    cases hseg
  | cons head p =>
    rw [hp, List.headD_cons] at hseg
    rw [Datagram.opcode, hp, hseg]
    rfl

end Handles

/-- **Requests between transfers.**  Let a datagram arrive while no transfer is active.  `open` is
called exactly for a request, with its two strings in their buffers, and otherwise an error is
sent, if and only if a request is recognised by the word at `p->payload` and there is a buffer
for the error otherwise.  The word is the opcode of the datagram if the first member holds it. -/
theorem recv_handles_iff (sk : Sketch) (es : List Event) (s : Server) (m : Datagram) (env : Env)
    (st : Stack) (hrun : exec (step sk) tftpInit es = some s) (hidle : s.handle = false)
    (htot : totLen m.p ≤ 0xFFFF) :
    (Handles sk s m env st ↔
      ((∃ filename mode, IsRequest m.p.flatten filename mode) →
        m.opcode env = 1 ∨ m.opcode env = 2) ∧
      ((∀ filename mode, ¬ IsRequest m.p.flatten filename mode) → env.errorPbuf = true)) ∧
    (2 ≤ (m.p.headD []).length → m.opcode env = be16 m.p.flatten 0) := by
  refine ⟨?_, opcode_of_le env⟩
  have hclient := refuses_of_idle hrun hidle m.addr m.port
  rcases parse_spec st htot with
    ⟨filename, mode, block, block', hrequest, hparse, hblock, hblock'⟩ | ⟨hnone, str, hparse⟩
  · have hopens := opens_recv_of_isRequest sk env hidle hclient hrequest
    rw [and_iff_left fun hnone => absurd hrequest (hnone filename mode)]
    constructor
    · intro h _
      by_contra hopcode
      exact h.opens_iff.mpr ⟨filename, mode, hrequest⟩ (hopens.trans (if_neg hopcode))
    · intro h
      have hgrown := hopens.trans (if_pos (h ⟨filename, mode, hrequest⟩))
      refine ⟨iff_of_true ?_ ⟨filename, mode, hrequest⟩, fun filename' mode' h' => ?_,
        fun hnone => absurd hrequest (hnone filename mode), ?_⟩
      · rw [hgrown]
        simp
      · obtain ⟨rfl, rfl⟩ := h'.unique hrequest
        exact ⟨⟨_, hgrown⟩, block, block', hparse, hblock, hblock'⟩
      · rw [hparse]
        exact Option.some_ne_none _
  · obtain ⟨hopens, code, str, hsent⟩ := recv_of_not_isRequest sk env hidle hclient htot hparse
    have hnot : ¬ ∃ filename mode, IsRequest m.p.flatten filename mode := by
      rintro ⟨filename, mode, h⟩
      exact hnone filename mode h
    rw [and_iff_right fun h => absurd h hnot]
    constructor
    · intro h _
      by_contra hpbuf
      obtain ⟨code', str', hsent'⟩ := h.error hnone
      rw [hsent, if_neg hpbuf, List.append_nil] at hsent'
      simp at hsent'
    · intro h
      rw [if_pos (h hnone)] at hsent
      refine ⟨iff_of_false (not_not.mpr hopens) hnot, fun filename mode h => ?_,
        fun _ => ⟨code, str, hsent⟩, ?_⟩
      · exact absurd h (hnone filename mode)
      · rw [hparse]
        exact Option.some_ne_none _

/-- Buffers that hold zeros. -/
def clearStack : Stack :=
  ⟨List.replicate maxFilenameLen 0, List.replicate maxModeLen 0, List.length_replicate,
    List.length_replicate⟩

/-- A request in two members, of which the first ends in the name of the file. -/
theorem recv_handles_chained :
    Handles .sd tftpInit ⟨[[0, 1, 97], [0, 98, 0]], 1, 1000⟩ plainEnv clearStack := by
  have hrequest : IsRequest [0, 1, 97, 0, 98, 0] [97] [98] :=
    ⟨by decide, by decide, by decide, by decide⟩
  refine (recv_handles_iff .sd [] tftpInit ⟨[[0, 1, 97], [0, 98, 0]], 1, 1000⟩ plainEnv clearStack
    rfl rfl (by decide)).1.mpr ⟨fun _ => Or.inl (by decide), fun hnone => ?_⟩
  exact absurd hrequest (hnone [97] [98])

/-- The same request behind an empty first member, as it comes in fragments of which the first has
only the UDP header: the opcode is taken from what lies behind, and `open` is not called.  And a
request without a mode is not answered if there is no buffer for the error. -/
theorem recv_misreads_opcode :
    IsRequest [0, 1, 97, 0, 98, 0] [97] [98] ∧
      (recv .sd tftpInit ⟨[[], [0, 1, 97, 0, 98, 0]], 1, 1000⟩ plainEnv).opens = [] ∧
      (recv .sd tftpInit ⟨[[0, 1, 97, 0]], 1, 1000⟩ { plainEnv with errorPbuf := false }).sent =
        [] := by
  refine ⟨⟨by decide, by decide, by decide, by decide⟩, by decide +kernel, by decide +kernel⟩

end Teensy41Ethernet.Tftp
