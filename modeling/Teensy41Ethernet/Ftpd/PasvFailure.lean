import Teensy41Ethernet.Ftpd.Deeds
import Teensy41Ethernet.Ftpd.Ports

/-!
# `PASV` that fails

There are four places where `cmd_pasv` can fail, each with a cleanup of its own.  Without
memory for the session it replies and has nothing to release.  If there is no control block,
it frees the session and leaves `fsm->datafs` pointing to it.  If no port can be bound, it
calls `ftpd_dataclose` before the session points back to the control session.  If TCP cannot
listen, everything is released, but there is no reply.  So only the first failure can be
harmless.
-/

namespace Teensy41Ethernet.Ftpd

open Lib

/-! ### Harmless failures -/

/-- Between `s` and `s'` the reply `text` was queued for the client. -/
def Sends (s s' : Sys) (text : Str) : Prop :=
  ∃ new, s'.front.log = s.front.log ++ new ∧ .reply text true ∈ new

/-- A reply with a code of 400 or above. -/
def IsErrorReply (text : Str) : Prop := text.head? = some 52 ∨ text.head? = some 53

/-- What was acquired between `s` and `s'` has been released, and the new control blocks are
gone. -/
structure Released (s s' : Sys) : Prop where
  account : ∃ new, s'.account = s.account ++ new ∧
    ∀ r, new.count (.acquire r) = new.count (.release r)
  data : ∀ d, s.nextData ≤ d → d < s'.nextData → s'.data d = none
  pcbs : ∀ i, s.nextPcb ≤ i → i < s'.nextPcb → s'.pcbs i = none

/-- A failure without consequences: an error reply, no data session and no control block,
`passive` as it was, and everything released. -/
structure FailsCleanly (s s' : Sys) : Prop where
  reply : ∃ text, Sends s s' text ∧ IsErrorReply text
  fsm : ∃ m m', s.fsm = some m ∧ s'.fsm = some m' ∧ m'.datafs = none ∧ m'.datapcb = none ∧
    m'.passive = m.passive
  released : Released s s'

/-- `PASV` uses no null pointer and either sends 227 or fails without consequences. -/
def PasvHarmless (arg : Option Str) (env : Env) (s : Sys) : Prop :=
  ∃ s', (cmdPasv arg env).run s = .ok ((), s') ∧
    ((∃ text, Sends s s' text ∧ text.take 3 = lit "227") ∨ FailsCleanly s s')

/-- The control FIFO has a buffer, with room for the reply. -/
def HasRoom (m : MsgState) (text : Str) : Prop :=
  m.fifo.buffer.isSome = true ∧ ((text ++ lit "\r\n").length : ℤ) ≤ sfifoSpace m.fifo

instance (m : MsgState) (text : Str) : Decidable (HasRoom m text) := by
  unfold HasRoom
  infer_instance

/-- The reply fits the buffer of `send_msg`, and the control FIFO can take it. -/
def Fits (m : MsgState) (text : Str) : Prop :=
  (text ++ lit "\r\n").length + 1 ≤ 1024 ∧ HasRoom m text

/-- The first port that is not in use can be bound. -/
def FindsPort (bind : UInt16 → BindResult) (start port : UInt16) : Prop :=
  (cyclicPorts start).find? (fun p => bind p ≠ .use) = some port ∧ bind port = .ok

/-! ### Replies -/

section Replies

variable {s s' : Sys} {m : MsgState} {env : Env}

/-- What fits is written as a whole, if there is a buffer. -/
lemma sfifoWrite_all_iff {f : Sfifo} {buf : List UInt8} (hroom : (buf.length : ℤ) ≤ sfifoSpace f) :
    (sfifoWrite f buf).1 = buf.length ↔ f.buffer.isSome = true := by
  unfold sfifoWrite
  cases f.buffer with
  | none =>
    simp only [ENODEV, Option.isSome_none, Bool.false_eq_true, iff_false]
    omega
  | some mem =>
    dsimp only
    rw [if_neg (not_lt.mpr hroom)]
    split
    · simp
    · simp

/-- After one reply: it was sent if the control FIFO could take it. -/
lemma sends_say_iff (hm : s.fsm = some m) {dr : Drain} {text : Str}
    (hfront : s'.front = s.front.acts [.say dr text]) (text' : Str) :
    Sends s s' text' ↔ text' = text ∧ HasRoom m text := by
  have hfifo : s.front.fifo = some m.fifo := by rw [Sys.front, hm, Option.map_some]
  have hact : s'.front = s.front.act (.say dr text) := hfront
  rw [Sends, hact]
  by_cases hroom : sfifoSpace m.fifo < (text ++ lit "\r\n").length
  · rw [Front.act_say_full hfifo dr hroom]
    refine iff_of_false ?_ fun h => absurd h.2.2 (not_le.mpr hroom)
    rintro ⟨new, hnew, hmem⟩
    obtain rfl := List.append_cancel_left hnew
    simp at hmem
  · rw [Front.act_say_room hfifo dr hroom]
    have hall := sfifoWrite_all_iff (not_lt.mp hroom)
    constructor
    · rintro ⟨new, hnew, hmem⟩
      obtain rfl := List.append_cancel_left hnew
      simp only [List.mem_cons, Action.reply.injEq, List.not_mem_nil, reduceCtorEq,
        or_false] at hmem
      exact ⟨hmem.1, hall.mp (of_decide_eq_true hmem.2.symm), not_lt.mp hroom⟩
    · rintro ⟨rfl, hbuffer, -⟩
      rw [decide_eq_true (hall.mpr hbuffer)]
      exact ⟨_, rfl, List.mem_cons_self⟩

/-- Nothing was sent if nothing shows. -/
lemma not_sends_of_front_eq (hfront : s'.front = s.front) (text : Str) : ¬ Sends s s' text := by
  rintro ⟨new, hnew, hmem⟩
  rw [hfront] at hnew
  obtain rfl := List.self_eq_append_right.mp hnew
  cases hmem

/-- What `cmd_pasv` has done when it returns. -/
lemma cmdPasv_ok (hm : s.fsm = some m) {arg : Option Str}
    (hrun : (cmdPasv arg env).run s = .ok ((), s')) :
    ∃ l, pasvDeeds env s = some l ∧ s'.front = s.front.acts l :=
  wp_ok (cmdPasv_does hm arg) hrun

end Replies

/-! ### The failures, one by one -/

section Failures

variable {s s' : Sys} {m : MsgState} {env : Env} {arg : Option Str}

/-- Without memory for the session: the reply is all that happens. -/
lemma cmdPasv_noMemory (hm : s.fsm = some m) (hmalloc : env.mallocData = false)
    (hshort : (msg451 ++ lit "\r\n").length + 1 ≤ 1024) (arg : Option Str) :
    ∃ fifo log, (cmdPasv arg env).run s = .ok ((), { s with
      fsm := some { m with datafs := none, fifo := fifo }, log := log }) := by
  have hwp : wp (cmdPasv arg env) (fun _ s' => ∃ fifo log, s' = { s with
      fsm := some { m with datafs := none, fifo := fifo }, log := log }) (fun _ => False) s := by
    unfold cmdPasv
    rw [hmalloc, Bool.not_false, if_pos rfl, wp_bind, wp_setMsg_of hm]
    refine wp_mono (sendMsg_replies rfl env.msg₁ hshort) ?_ fun _ h => h
    rintro _ s' ⟨fifo, log, -, rfl⟩
    exact ⟨fifo, log, rfl⟩
  obtain ⟨_, s', hrun, fifo, log, rfl⟩ := wp_returns hwp
  exact ⟨fifo, log, hrun⟩

/-- Without a control block: the pointer to the freed session stays. -/
lemma cmdPasv_noPcb (hm : s.fsm = some m) (hmalloc : env.mallocData = true)
    (htcp : env.tcpNew = false) (hrun : (cmdPasv arg env).run s = .ok ((), s')) :
    ∃ m', s'.fsm = some m' ∧ m'.datafs = some s.nextData := by
  have hwp : wp (cmdPasv arg env)
      (fun _ s' => ∃ m', s'.fsm = some m' ∧ m'.datafs = some s.nextData) (fun _ => True) s := by
    unfold cmdPasv
    rw [hmalloc, Bool.not_true, if_neg Bool.false_ne_true]
    simp only [allocData, tcpNew, htcp, wp_bind, wp_get, wp_record, wp_modify, wp_setMsg, hm,
      wp_pure, Bool.false_eq_true, if_false, wp_freeData]
    refine ⟨?_, fun h => (by cases h)⟩
    rintro _ ⟨⟩
    refine ⟨?_, fun h => (by cases h)⟩
    rintro _ ⟨⟩
    refine ⟨fun _ _ => ?_, fun _ => trivial⟩
    refine wp_mono (sendMsg_does rfl env.msg₁ msg451) ?_ fun _ _ => trivial
    rintro _ s₂ ⟨-, -, fifo, log, rfl⟩
    exact ⟨_, rfl, rfl⟩
  exact wp_ok hwp hrun

/-- A port was found. -/
lemma searchResult_eq_iff {bind : UInt16 → BindResult} {start port : UInt16} :
    searchResult bind start (cyclicPorts start) = (port, true) ↔ FindsPort bind start port := by
  rw [searchResult, FindsPort]
  cases (cyclicPorts start).find? fun p => bind p ≠ .use with
  | none => simp
  | some p =>
    dsimp only
    rw [Prod.mk.injEq, decide_eq_true_eq, Option.some.injEq]
    refine and_congr_right fun hp => ?_
    rw [hp]

/-- With a session and a control block: if a port is found, the reply depends on TCP; without a
port the handler does not return. -/
lemma pasvDeeds_search (hport : InPortRange s.port) (hmalloc : env.mallocData = true)
    (htcp : env.tcpNew = true) :
    (∃ port, FindsPort env.tcpBind s.port port ∧ pasvDeeds env s =
      if env.tcpListen then say env.msg₁ (msg227 s.localIp port) else some []) ∨
    (¬ ∃ port, FindsPort env.tcpBind s.port port) ∧ pasvDeeds env s = none := by
  rw [pasvDeeds, hmalloc, htcp, Bool.not_true, if_neg Bool.false_ne_true,
    if_neg Bool.false_ne_true, bindLoop_cyclic hport]
  cases hsearch : searchResult env.tcpBind s.port (cyclicPorts s.port) with
  | mk port bound =>
    cases bound with
    | true => exact .inl ⟨port, searchResult_eq_iff.mp hsearch, rfl⟩
    | false =>
      refine .inr ⟨?_, rfl⟩
      rintro ⟨port', hfinds⟩
      rw [searchResult_eq_iff.mpr hfinds] at hsearch
      cases hsearch

lemma findsPort_unique {bind : UInt16 → BindResult} {start port port' : UInt16}
    (h : FindsPort bind start port) (h' : FindsPort bind start port') : port = port' :=
  Option.some.inj (h.1.symm.trans h'.1)

/-- A handler with a list of deeds returns and has done them. -/
lemma cmdPasv_returns (hm : s.fsm = some m) {l : List Deed} (hl : pasvDeeds env s = some l)
    (arg : Option Str) :
    ∃ s', (cmdPasv arg env).run s = .ok ((), s') ∧ s'.front = s.front.acts l := by
  have hdoes : Does s.front (cmdPasv arg env) s (pasvDeeds env s) := cmdPasv_does hm arg
  rw [hl] at hdoes
  exact hdoes.returns

/-- Without memory for the session. -/
lemma pasvHarmless_noMemory (hm : s.fsm = some m) (hmalloc : env.mallocData = false) :
    PasvHarmless arg env s ↔ m.datapcb = none ∧ Fits m msg451 := by
  have hshort : (msg451 ++ lit "\r\n").length + 1 ≤ 1024 := by decide
  have hdeeds : pasvDeeds env s = some [.say env.msg₁ msg451] := by
    rw [pasvDeeds, hmalloc, Bool.not_false, if_pos rfl]
    exact say_msg451 env.msg₁
  obtain ⟨fifo, log, hstate⟩ := cmdPasv_noMemory hm hmalloc hshort arg
  obtain ⟨s', hrun, hfront⟩ := cmdPasv_returns hm hdeeds arg
  obtain rfl := congrArg Prod.snd (Except.ok.inj (hstate.symm.trans hrun))
  have hsends := sends_say_iff hm hfront
  constructor
  · rintro ⟨s'', hrun', h⟩
    obtain rfl := congrArg Prod.snd (Except.ok.inj (hrun.symm.trans hrun'))
    rcases h with ⟨text, htext, h227⟩ | hclean
    · obtain ⟨rfl, -⟩ := (hsends text).mp htext
      exact absurd h227 (by decide)
    · obtain ⟨text, htext, -⟩ := hclean.reply
      obtain ⟨-, m', -, hm', -, hpcb, -⟩ := hclean.fsm
      obtain rfl := Option.some.inj hm'
      exact ⟨hpcb, hshort, ((hsends text).mp htext).2⟩
  · rintro ⟨hpcb, -, hroom⟩
    refine ⟨_, hrun, .inr ⟨⟨msg451, (hsends msg451).mpr ⟨rfl, hroom⟩, .inl rfl⟩,
      ⟨m, _, hm, rfl, rfl, hpcb, rfl⟩, ⟨⟨[], (List.append_nil _).symm, fun _ => rfl⟩, ?_, ?_⟩⟩⟩
    · exact fun d hd hd' => absurd hd (not_le.mpr hd')
    · exact fun i hi hi' => absurd hi (not_le.mpr hi')

/-- Without a control block: never. -/
lemma not_pasvHarmless_noPcb (hm : s.fsm = some m) (hmalloc : env.mallocData = true)
    (htcp : env.tcpNew = false) : ¬ PasvHarmless arg env s := by
  rintro ⟨s', hrun, h⟩
  have hdeeds : pasvDeeds env s = some [.say env.msg₁ msg451] := by
    rw [pasvDeeds, hmalloc, htcp, Bool.not_true, Bool.not_false, if_neg Bool.false_ne_true,
      if_pos rfl]
    exact say_msg451 env.msg₁
  obtain ⟨l, hl, hfront⟩ := cmdPasv_ok hm hrun
  obtain rfl := Option.some.inj (hdeeds.symm.trans hl)
  rcases h with ⟨text, htext, h227⟩ | hclean
  · obtain ⟨rfl, -⟩ := (sends_say_iff hm hfront _).mp htext
    exact absurd h227 (by decide)
  · obtain ⟨m₁, hm₁, hdatafs⟩ := cmdPasv_noPcb hm hmalloc htcp hrun
    obtain ⟨-, m', -, hm', hnone, -⟩ := hclean.fsm
    obtain rfl := Option.some.inj (hm₁.symm.trans hm')
    exact absurd (hdatafs.symm.trans hnone) (Option.some_ne_none _)

/-- With both: exactly if `PASV` does not fail. -/
lemma pasvHarmless_search (hport : InPortRange s.port) (hm : s.fsm = some m)
    (hmalloc : env.mallocData = true) (htcp : env.tcpNew = true) :
    PasvHarmless arg env s ↔ env.tcpListen = true ∧
      ∃ port, FindsPort env.tcpBind s.port port ∧ Fits m (msg227 s.localIp port) := by
  constructor
  · rintro ⟨s', hrun, h⟩
    obtain ⟨l, hl, hfront⟩ := cmdPasv_ok hm hrun
    obtain ⟨text, htext⟩ : ∃ text, Sends s s' text := by
      rcases h with ⟨text, htext, -⟩ | hclean
      · exact ⟨text, htext⟩
      · obtain ⟨text, htext, -⟩ := hclean.reply
        exact ⟨text, htext⟩
    rcases pasvDeeds_search hport hmalloc htcp with ⟨port, hfinds, hdeeds⟩ | ⟨-, hnone⟩
    · rw [hdeeds] at hl
      cases hlisten : env.tcpListen with
      | false =>
        rw [hlisten, if_neg Bool.false_ne_true] at hl
        obtain rfl := Option.some.inj hl
        exact absurd htext (not_sends_of_front_eq hfront text)
      | true =>
        rw [hlisten, if_pos rfl] at hl
        obtain ⟨rfl, hshort⟩ := say_eq_some hl
        exact ⟨rfl, port, hfinds, hshort, ((sends_say_iff hm hfront _).mp htext).2⟩
    · exact absurd (hl.symm.trans hnone) (Option.some_ne_none l)
  · rintro ⟨hlisten, port, hfinds, hshort, hroom⟩
    have hdeeds : pasvDeeds env s = some [.say env.msg₁ (msg227 s.localIp port)] := by
      rcases pasvDeeds_search hport hmalloc htcp with ⟨port', hfinds', hdeeds⟩ | ⟨hno, -⟩
      · obtain rfl := findsPort_unique hfinds hfinds'
        rw [hdeeds, hlisten, if_pos rfl, say, if_neg (not_lt.mpr hshort)]
      · exact absurd ⟨port, hfinds⟩ hno
    obtain ⟨s', hrun, hfront⟩ := cmdPasv_returns hm hdeeds arg
    exact ⟨s', hrun, .inl ⟨_, (sends_say_iff hm hfront _).mpr ⟨rfl, hroom⟩, rfl⟩⟩

/-- **A `PASV` is harmless exactly if it succeeds, or if what was missing is the memory for the
data session.**  The reply must fit in both cases, and in the second the pointer to the control
block must have been null before, because it is not touched. -/
theorem pasvHarmless_iff (hport : PortCounter s.port) (hm : s.fsm = some m) :
    PasvHarmless arg env s ↔
      (env.mallocData = false ∧ m.datapcb = none ∧ Fits m msg451) ∨
      (env.mallocData = true ∧ env.tcpNew = true ∧ env.tcpListen = true ∧
        ∃ port, FindsPort env.tcpBind s.port port ∧ Fits m (msg227 s.localIp port)) := by
  cases hmalloc : env.mallocData with
  | false => simp [pasvHarmless_noMemory hm hmalloc]
  | true =>
    cases htcp : env.tcpNew with
    | false => simp [not_pasvHarmless_noPcb hm hmalloc htcp]
    | true => simp [pasvHarmless_search hport.inPortRange hm hmalloc htcp]

end Failures

/-- The session of a client that has just connected: no data connection, the counter at its
initial value, and room for replies. -/
lemma session_view : ∃ m, session.fsm = some m ∧ m.datafs = none ∧ m.datapcb = none ∧
    HasRoom m msg451 := by
  have hview : session.fsm.map (fun m => (m.datafs, m.datapcb,
      decide (HasRoom m msg451))) = some (none, none, true) := by decide +kernel
  obtain ⟨m, hm, hm'⟩ := Option.map_eq_some_iff.mp hview
  obtain ⟨hd, hrest⟩ := Prod.mk.inj hm'
  obtain ⟨hpcb, hroom⟩ := Prod.mk.inj hrest
  exact ⟨m, hm, hd, hpcb, of_decide_eq_true hroom⟩

lemma portCounter_session : PortCounter session.port := by
  rw [show session.port = 4096 by decide +kernel]
  exact .init

/-- There is no memory for a data session. -/
theorem pasvHarmless_session :
    PasvHarmless none { calm with mallocData := false } session ∧
      session.fsm.map MsgState.datafs = some none := by
  obtain ⟨m, hm, hd, hpcb, hroom⟩ := session_view
  refine ⟨(pasvHarmless_iff portCounter_session hm).mpr (.inl ⟨rfl, hpcb, by decide, hroom⟩), ?_⟩
  rw [hm, Option.map_some, hd]

/-- The other three failures in this session: the pointer to the freed data session stays, a null
pointer is used, and there is no reply. -/
theorem pasv_fails_badly :
    Accepted session ∧ session.fsm.map MsgState.datafs = some none ∧
    (∀ env ∈ [{ calm with tcpNew := false }, { calm with tcpBind := fun _ => .other },
      { calm with tcpListen := false }], ¬ PasvHarmless none env session) ∧
    (∃ s', ftpdStep session ⟨.msgrecv [lit "PASV\r\n"], { calm with tcpNew := false }⟩ = some s' ∧
      s'.fsm.map MsgState.datafs = some (some 0) ∧ (s'.data 0).isNone) ∧
    (handle ⟨.msgrecv [lit "PASV\r\n"], { calm with tcpBind := fun _ => .other }⟩).run session =
      .error .nullMsgfs ∧
    ∃ s', ftpdStep session ⟨.msgrecv [lit "PASV\r\n"], { calm with tcpListen := false }⟩ = some s' ∧
      s'.log = session.log ++ [.close 0] := by
  obtain ⟨m, hm, hd, -, -⟩ := session_view
  have hport := portCounter_session.inPortRange
  refine ⟨accepted_session, by rw [hm, Option.map_some, hd], fun env henv => ?_, ?_, ?_, ?_⟩
  · simp only [List.mem_cons, List.not_mem_nil, or_false] at henv
    rcases henv with rfl | rfl | rfl
    · exact not_pasvHarmless_noPcb hm rfl rfl
    · rw [pasvHarmless_search hport hm rfl rfl]
      rintro ⟨-, port, ⟨-, hbind⟩, -⟩
      cases hbind
    · rw [pasvHarmless_search hport hm rfl rfl]
      rintro ⟨hlisten, -⟩
      cases hlisten
  · have hrun : (ftpdStep session ⟨.msgrecv [lit "PASV\r\n"], { calm with tcpNew := false }⟩).map
        (fun s' => (s'.fsm.map MsgState.datafs, (s'.data 0).isNone)) =
        some (some (some 0), true) := by
      decide +kernel
    obtain ⟨s', hs', hview⟩ := Option.map_eq_some_iff.mp hrun
    exact ⟨s', hs', (Prod.mk.inj hview).1, (Prod.mk.inj hview).2⟩
  · exact stops_eq_some (by decide +kernel)
  · have hrun : (ftpdStep session ⟨.msgrecv [lit "PASV\r\n"],
        { calm with tcpListen := false }⟩).map Sys.log = some (session.log ++ [.close 0]) := by
      decide +kernel
    obtain ⟨s', hs', hlog⟩ := Option.map_eq_some_iff.mp hrun
    exact ⟨s', hs', hlog⟩

end Teensy41Ethernet.Ftpd
