import Teensy41Ethernet.Ftpd.Commands

/-!
# Transfers that send a stream of bytes

A transfer to the client is a job: a data session has to deliver a fixed stream of bytes.  At
any time the stream is split into the bytes that TCP has accepted on the connection of the
session, the bytes in its FIFO, and the bytes that are still pending in whatever the session
reads from.  This file proves, for any such job, that a callback keeps the split as long as the
function that serves the session does and the session has only one connection; the source of
the bytes comes in as a parameter.
-/

namespace Teensy41Ethernet.Ftpd

open Lib

/-! ### Callbacks for a data session -/

/-- A connection is opened or has sent something, and it does not belong to another data session
than `d`; or the timer of the control session. -/
def Concerns (d : ℕ) (s : Sys) (e : Event) : Prop :=
  match e.callback with
  | .connected i | .accept i _ | .sent i => ∀ p ∈ s.pcbs i, ∀ d' ∈ p.arg, d' = d
  | .msgpoll => True
  | _ => False

instance (d : ℕ) (s : Sys) (e : Event) : Decidable (Concerns d s e) := by
  obtain ⟨callback, env⟩ := e
  unfold Concerns
  refine Callback.casesOn callback ?_ ?_ ?_ ?_ ?_ ?_ ?_ ?_ ?_ ?_ <;> intros <;> infer_instance

/-- The data session `d` is connected, and `fsm->datapcb` is `pcb`. -/
def ConnectedOver (d : ℕ) (pcb : Option ℕ) (s : Sys) : Prop :=
  (∀ x ∈ s.data d, x.connected = true) ∧ ∀ m ∈ s.fsm, m.datapcb = pcb

/-- The data session `d` has one connection, `fsm->datapcb`: a connection is opened only for the
session that is there and has none, and only that one acknowledges what was sent. -/
def OneConnection (d : ℕ) (s : Sys) (e : Event) : Prop :=
  match e.callback with
  | .connected _ | .accept _ _ =>
    (s.data d).isSome = true ∧ ∀ x ∈ s.data d, x.connected = false
  | .sent i => ConnectedOver d (some i) s
  | _ => True

instance (d : ℕ) (pcb : Option ℕ) (s : Sys) : Decidable (ConnectedOver d pcb s) := by
  unfold ConnectedOver
  infer_instance

instance (d : ℕ) (s : Sys) (e : Event) : Decidable (OneConnection d s e) := by
  obtain ⟨callback, env⟩ := e
  unfold OneConnection
  refine Callback.casesOn callback ?_ ?_ ?_ ?_ ?_ ?_ ?_ ?_ ?_ ?_ <;> intros <;> infer_instance

/-- A property that can only change when the data session `d` is served, and that serving it
keeps if the environment is `ok` and, if `once` holds, the session has only one connection. -/
structure Kept (d : ℕ) (once : Prop) (ok : Env → Prop) (P : Sys → Prop) : Prop where
  congr : ∀ {s s' : Sys}, P s → s'.log = s.log → s'.fsm = s.fsm → s'.data = s.data → P s'
  opened : ∀ {s : Sys} {m : MsgState} {x : DataState} (pcb : Option ℕ), P s → s.fsm = some m →
    s.data d = some x → (once → x.connected = false) → P { s with
      fsm := some { m with datapcb := pcb }
      data := Function.update s.data d (some { x with connected := true }) }
  served : ∀ {s : Sys} {env : Env} (pcb : Option ℕ), ok env → P s → s.data d ≠ none →
    (once → ConnectedOver d pcb s) → wp (serve d pcb env) (fun _ s' => P s') (fun _ => True) s
  current : ∀ {s : Sys} {m : MsgState} {d' : ℕ}, P s → s.fsm = some m → m.datafs = some d' →
    d' = d

namespace Kept

variable {d : ℕ} {once : Prop} {ok : Env → Prop} {P : Sys → Prop} {env : Env} {s : Sys}

lemma dataOpened (hP : Kept d once ok P) (henv : ok env) (hs : P s) {arg : Option ℕ}
    (harg : ∀ d' ∈ arg, d' = d) (hone : once → ∀ x ∈ s.data d, x.connected = false)
    (pcb : Option ℕ) :
    wp (dataOpened arg pcb env) (fun _ s' => P s') (fun _ => True) s := by
  unfold Ftpd.dataOpened
  rw [wp_bind, wp_checkArg]
  refine ⟨fun d' hd' => ?_, fun _ => trivial⟩
  obtain rfl := harg d' hd'
  rw [wp_bind, wp_checkMsgfs]
  refine ⟨fun _ _ => ⟨fun _ => ?_, fun _ => trivial⟩, fun _ => trivial⟩
  rw [wp_bind, wp_setMsg]
  refine ⟨fun m hm => ?_, fun _ => trivial⟩
  rw [wp_bind, wp_setData]
  refine ⟨fun x hx => ?_, fun _ => trivial⟩
  have hopened := hP.opened pcb hs hm hx fun h => hone h x hx
  have hserved : ∀ s₁ : Sys, P s₁ → s₁.fsm = some { m with datapcb := pcb } →
      s₁.data = Function.update s.data d' (some { x with connected := true }) →
      wp (serve d' pcb env) (fun _ s' => P s') (fun _ => True) s₁ := by
    intro s₁ h₁ hfsm hdata
    have hself : s₁.data d' = some { x with connected := true } := by
      rw [hdata, Function.update_self]
    refine hP.served pcb henv h₁ (by rw [hself]; exact Option.some_ne_none _) fun _ => ⟨?_, ?_⟩
    · intro y hy
      obtain rfl := Option.some.inj (hself.symm.trans hy)
      rfl
    · intro m' hm'
      obtain rfl := Option.some.inj (hfsm.symm.trans hm')
      rfl
  rw [wp_bind, wp_setPcb]
  refine ⟨fun _ => hserved _ hopened rfl rfl, fun i _ p _ => ?_, fun _ _ _ => trivial⟩
  exact hserved _ (hP.congr hopened (by rfl) (by rfl) (by rfl)) rfl rfl

lemma datasent (hP : Kept d once ok P) (henv : ok env) (hs : P s) {arg : Option ℕ}
    (harg : ∀ d' ∈ arg, d' = d) {i : ℕ} (hone : once → ConnectedOver d (some i) s) :
    wp (ftpdDatasent arg i env) (fun _ s' => P s') (fun _ => True) s := by
  unfold ftpdDatasent
  rw [wp_bind, wp_checkArg]
  refine ⟨fun d' hd' => ?_, fun _ => trivial⟩
  obtain rfl := harg d' hd'
  rw [wp_bind, wp_checkMsgfs]
  refine ⟨fun x hx => ⟨fun _ => hP.served _ henv hs ?_ hone, fun _ => trivial⟩, fun _ => trivial⟩
  rw [hx]
  exact Option.some_ne_none x

lemma msgpoll (hP : Kept d once ok P) (henv : ok env) (hs : P s) :
    wp (ftpdMsgpoll env) (fun _ s' => P s') (fun _ => True) s := by
  unfold ftpdMsgpoll
  rw [wp_bind, wp_getMsg]
  refine ⟨fun m hm => ?_, fun _ => trivial⟩
  cases hd' : m.datafs with
  | none => exact hs
  | some d' =>
    obtain rfl := hP.current hs hm hd'
    dsimp only
    rw [wp_bind, wp_getData]
    refine ⟨fun x hx => ?_, fun _ => trivial⟩
    rw [wp_ite]
    refine ⟨fun hconnected => hP.served _ henv hs ?_ fun _ => ⟨?_, ?_⟩, fun _ => hs⟩
    · rw [hx]
      exact Option.some_ne_none x
    · intro y hy
      obtain rfl := Option.some.inj (hx.symm.trans hy)
      exact hconnected
    · intro m' hm'
      obtain rfl := Option.some.inj (hm.symm.trans hm')
      rfl

/-- **What one callback preserves.** -/
lemma step (hP : Kept d once ok P) (hs : P s) {e : Event} (he : Concerns d s e)
    (hone : once → OneConnection d s e) (henv : ok e.env) {s' : Sys}
    (hs' : ftpdStep s e = some s') : P s' := by
  have hwp : wp (handle e) (fun _ s' => P s') (fun _ => True) s := by
    unfold Concerns at he
    unfold OneConnection at hone
    unfold handle
    cases hcb : e.callback with
    | connected i =>
      rw [hcb] at he hone
      rw [wp_bind]
      refine wp_pcbOf (fun p hp _ => ?_) trivial
      rw [wp_bind, wp_setPcb]
      refine ⟨fun hnone => (by cases hnone), fun i' _ p' _ => ?_, fun _ _ _ => trivial⟩
      exact hP.dataOpened henv (hP.congr hs (by rfl) (by rfl) (by rfl)) (he p hp)
        (fun h => by exact (hone h).2) _
    | accept i memory =>
      rw [hcb] at he hone
      rw [wp_bind]
      refine wp_pcbOf (fun p hp _ => ?_) trivial
      rw [wp_ite]
      refine ⟨fun _ => ?_, fun _ => hP.dataOpened henv hs (he p hp) (fun h => (hone h).2) _⟩
      rw [newPcb, wp_bind, wp_bind, wp_get, wp_bind, wp_modify]
      exact hP.dataOpened henv (hP.congr hs (by rfl) (by rfl) (by rfl)) (he p hp)
        (fun h => by exact (hone h).2) _
    | sent i =>
      rw [hcb] at he hone
      rw [wp_bind]
      refine wp_pcbOf (fun p hp _ => ?_) trivial
      rw [wp_ite]
      exact ⟨fun _ => hP.datasent henv hs (he p hp) hone, fun _ => hs⟩
    | msgpoll => exact wp_onControl (hP.msgpoll henv hs) trivial
    | _ =>
      rw [hcb] at he
      exact he.elim
  exact wp_ftpdStep hwp hs'

end Kept

/-! ### What was sent -/

/-- The bytes of the data session `d` in an action on the connection `i`. -/
def Action.bytesOn (d i : ℕ) : Action → List UInt8
  | .data d' i' bytes => if d' = d ∧ i' = i then bytes else []
  | _ => []

/-- The bytes of the data session `d` that TCP has accepted on the connection `i`. -/
def sentOn (d i : ℕ) (log : List Action) : List UInt8 := log.flatMap (Action.bytesOn d i)

/-- The same for a connection that may be missing. -/
def sentOver (d : ℕ) (pcb : Option ℕ) (log : List Action) : List UInt8 :=
  pcb.elim [] fun i => sentOn d i log

/-- What was done for the data session `d`, which has to deliver `content`: on each connection
TCP has accepted a prefix of it; a data connection is closed only when all of it has been accepted
on that connection; and reply 226 comes only after such an end. -/
structure Delivered (d : ℕ) (content : List UInt8) (log : List Action) : Prop where
  accepted : ∀ i, sentOn d i log <+: content
  closed : ∀ l₁ i l₂, log = l₁ ++ .close i :: l₂ → sentOn d i l₁ = content
  replied : ∀ l₁ queued l₂, log = l₁ ++ .reply msg226 queued :: l₂ →
    ∃ i, .close i ∈ l₁ ∧ sentOn d i l₁ = content

section Delivered

variable {d i : ℕ} {content : List UInt8} {log : List Action} {a : Action}

lemma sentOn_append (d i : ℕ) (log log' : List Action) :
    sentOn d i (log ++ log') = sentOn d i log ++ sentOn d i log' := List.flatMap_append

lemma sentOn_snoc (d i : ℕ) (log : List Action) (a : Action) :
    sentOn d i (log ++ [a]) = sentOn d i log ++ a.bytesOn d i := by
  rw [sentOn_append, sentOn, sentOn, List.flatMap_singleton]

lemma delivered_nil (d : ℕ) (content : List UInt8) : Delivered d content [] :=
  ⟨fun _ => List.nil_prefix, by simp, by simp⟩

/-- An action in a longer log is the last one, or was there before. -/
lemma snoc_eq_append_cons {l₁ l₂ : List Action} {b : Action} (h : log ++ [a] = l₁ ++ b :: l₂) :
    l₁ = log ∧ b = a ∨ ∃ l, log = l₁ ++ b :: l := by
  rcases List.eq_nil_or_concat l₂ with rfl | ⟨l, c, rfl⟩
  · obtain ⟨rfl, hb⟩ := List.append_inj' h rfl
    exact .inl ⟨rfl, (List.singleton_inj.mp hb).symm⟩
  · rw [List.concat_eq_append, ← List.cons_append, ← List.append_assoc] at h
    exact .inr ⟨l, (List.append_inj' h rfl).1⟩

/-- One more action. -/
lemma Delivered.snoc (h : Delivered d content log)
    (haccepted : ∀ i, sentOn d i log ++ a.bytesOn d i <+: content)
    (hclosed : ∀ i, a = .close i → sentOn d i log = content)
    (hreplied : ∀ queued, a = .reply msg226 queued →
      ∃ i, .close i ∈ log ∧ sentOn d i log = content) : Delivered d content (log ++ [a]) where
  accepted := fun i => by
    rw [sentOn_snoc]
    exact haccepted i
  closed := fun l₁ i l₂ hlog => by
    rcases snoc_eq_append_cons hlog with ⟨rfl, ha⟩ | ⟨l, hl⟩
    · exact hclosed i ha.symm
    · exact h.closed l₁ i l hl
  replied := fun l₁ queued l₂ hlog => by
    rcases snoc_eq_append_cons hlog with ⟨rfl, ha⟩ | ⟨l, hl⟩
    · exact hreplied queued ha.symm
    · exact h.replied l₁ queued l hl

/-- One more action that sends no data. -/
lemma Delivered.snoc_silent (h : Delivered d content log) (ha : ∀ i, a.bytesOn d i = [])
    (hclosed : ∀ i, a = .close i → sentOn d i log = content)
    (hreplied : ∀ queued, a = .reply msg226 queued →
      ∃ i, .close i ∈ log ∧ sentOn d i log = content) : Delivered d content (log ++ [a]) := by
  refine h.snoc (fun i => ?_) hclosed hreplied
  rw [ha i, List.append_nil]
  exact h.accepted i

/-- What the control session sends does not matter. -/
lemma Delivered.append_control (h : Delivered d content log) {l : List Action}
    (hl : ∀ a ∈ l, ∃ bytes, a = .control bytes) : Delivered d content (log ++ l) := by
  induction l generalizing log with
  | nil =>
    rw [List.append_nil]
    exact h
  | cons a l ih =>
    obtain ⟨bytes, rfl⟩ := hl a List.mem_cons_self
    have hsnoc := h.snoc_silent (a := .control bytes) (fun _ => rfl) (fun _ ha => (by cases ha))
      fun _ ha => (by cases ha)
    rw [List.append_cons]
    exact ih hsnoc fun a ha => hl a (List.mem_cons_of_mem _ ha)

/-- A connection on which everything was accepted is closed, and reply 226 follows. -/
lemma Delivered.ended (h : Delivered d content log) (hall : sentOn d i log = content)
    (queued : Bool) {l : List Action} (hl : ∀ a ∈ l, ∃ bytes, a = .control bytes) :
    Delivered d content (log ++ .close i :: .reply msg226 queued :: l) := by
  have hclose : Delivered d content (log ++ [.close i]) := by
    refine h.snoc_silent (fun _ => rfl) (fun k hk => ?_) fun _ ha => (by cases ha)
    obtain rfl := Action.close.inj hk
    exact hall
  have hreply : Delivered d content (log ++ [.close i] ++ [.reply msg226 queued]) := by
    refine hclose.snoc_silent (fun _ => rfl) (fun _ ha => (by cases ha)) fun _ _ => ?_
    refine ⟨i, by simp, ?_⟩
    rw [sentOn_snoc, hall]
    exact List.append_nil content
  have hend := hreply.append_control hl
  rw [List.append_assoc, List.append_assoc] at hend
  exact hend

end Delivered

/-! ### Jobs -/

/-- A data session has to deliver `content` while the control session is in the given state.
`pending` is what the session has yet to read, and `log` the log at the start. -/
structure Job where
  session : ℕ
  state : FtpdState
  content : List UInt8
  pending : DataState → List UInt8
  pending_eq : ∀ x c f, pending { x with connected := c, fifo := f } = pending x
  log : List Action

namespace Job

variable (j : Job)

/-- The job waits for its connection.  A FIFO without a buffer takes nothing, so there must be
nothing to deliver. -/
structure Waiting (x : DataState) (s : Sys) : Prop where
  log : s.log = j.log
  control : ∃ m, s.fsm = some m ∧ m.state = j.state ∧ m.datafs = some j.session
  data : s.data j.session = some x
  connected : x.connected = false
  wf : x.fifo.Wf
  buffer : x.fifo.buffer = none → j.content = []
  stream : x.fifo.contents ++ j.pending x = j.content

/-- The job is going on over the connection `pcb`; on others nothing was sent. -/
structure Sending (pcb : Option ℕ) (sent : List Action) (x : DataState) (s : Sys) : Prop where
  log : s.log = j.log ++ sent
  control : ∃ m, s.fsm = some m ∧ m.state = j.state ∧ m.datafs = some j.session ∧ m.datapcb = pcb
  data : s.data j.session = some x
  connected : x.connected = true
  wf : x.fifo.Wf
  buffer : x.fifo.buffer = none → j.content = []
  stream : sentOver j.session pcb sent ++ x.fifo.contents ++ j.pending x = j.content
  others : ∀ i, pcb ≠ some i → sentOn j.session i sent = []
  delivered : Delivered j.session j.content sent

/-- The job is done. -/
structure Sent (sent : List Action) (s : Sys) : Prop where
  log : s.log = j.log ++ sent
  control : ∀ m ∈ s.fsm, m.datafs = none
  data : s.data j.session = none
  delivered : Delivered j.session j.content sent

/-- The job waits, is going on or done. -/
def Inv (s : Sys) : Prop :=
  (∃ x, j.Waiting x s) ∨ (∃ pcb sent x, j.Sending pcb sent x s) ∨ ∃ sent, j.Sent sent s

variable {j} {pcb : Option ℕ} {sent : List Action} {x : DataState} {s : Sys}

lemma Sending.inv (h : j.Sending pcb sent x s) : j.Inv s := .inr (.inl ⟨pcb, sent, x, h⟩)

/-- A job that starts, with or without a connection. -/
lemma inv_start {m : MsgState} (hm : s.fsm = some m) (hstate : m.state = j.state)
    (hcurrent : m.datafs = some j.session) (hx : s.data j.session = some x)
    (hlog : s.log = j.log) (hwf : x.fifo.Wf) (hbuffer : x.fifo.buffer = none → j.content = [])
    (hstream : x.fifo.contents ++ j.pending x = j.content) : j.Inv s := by
  cases hconnected : x.connected with
  | false => exact .inl ⟨x, hlog, ⟨m, hm, hstate, hcurrent⟩, hx, hconnected, hwf, hbuffer, hstream⟩
  | true =>
    have hnone : sentOver j.session m.datapcb [] = [] := by
      cases m.datapcb with
      | none => rfl
      | some i => rfl
    refine .inr (.inl ⟨m.datapcb, [], x, ?_, ⟨m, hm, hstate, hcurrent, rfl⟩, hx, hconnected, hwf,
      hbuffer, ?_, fun _ _ => rfl, delivered_nil _ _⟩)
    · rw [hlog, List.append_nil]
    · rw [hnone, List.nil_append, hstream]

/-- What a job guarantees. -/
lemma Inv.delivered (h : j.Inv s) :
    ∃ sent, s.log = j.log ++ sent ∧ Delivered j.session j.content sent := by
  rcases h with ⟨x, h⟩ | ⟨pcb, sent, x, h⟩ | ⟨sent, h⟩
  · exact ⟨[], by rw [h.log, List.append_nil], delivered_nil _ _⟩
  · exact ⟨sent, h.log, h.delivered⟩
  · exact ⟨sent, h.log, h.delivered⟩

/-- A job does not see other parts of the daemon. -/
lemma Sending.congr (h : j.Sending pcb sent x s) {s' : Sys} (hlog : s'.log = s.log)
    (hfsm : s'.fsm = s.fsm) (hdata : s'.data j.session = s.data j.session) :
    j.Sending pcb sent x s' :=
  { h with
    log := hlog.trans h.log
    control := hfsm ▸ h.control
    data := hdata.trans h.data }

lemma Inv.congr (h : j.Inv s) {s' : Sys} (hlog : s'.log = s.log) (hfsm : s'.fsm = s.fsm)
    (hdata : s'.data = s.data) : j.Inv s' := by
  rcases h with ⟨x, h⟩ | ⟨pcb, sent, x, h⟩ | ⟨sent, h⟩
  · exact .inl ⟨x, { h with
      log := hlog.trans h.log
      control := hfsm ▸ h.control
      data := hdata ▸ h.data }⟩
  · exact (h.congr hlog hfsm (by rw [hdata])).inv
  · exact .inr (.inr ⟨sent, { h with
      log := hlog.trans h.log
      control := hfsm ▸ h.control
      data := hdata ▸ h.data }⟩)

/-- The session is changed, with the same bytes in its FIFO and pending together. -/
lemma Sending.setData (h : j.Sending pcb sent x s) {y : DataState}
    (hconnected : y.connected = true) (hwf : y.fifo.Wf)
    (hbuffer : y.fifo.buffer = none → j.content = [])
    (hstream : y.fifo.contents ++ j.pending y = x.fifo.contents ++ j.pending x) :
    j.Sending pcb sent y { s with data := Function.update s.data j.session (some y) } :=
  { log := h.log
    control := h.control
    data := Function.update_self _ _ _
    connected := hconnected
    wf := hwf
    buffer := hbuffer
    stream := by rw [← h.stream, List.append_assoc, List.append_assoc, hstream]
    others := h.others
    delivered := h.delivered }

/-! ### Draining and ending -/

/-- `send_data` moves bytes from the FIFO to TCP. -/
lemma Sending.sendDataTo (h : j.Sending pcb sent x s) (dr : Drain) :
    wp (sendDataTo pcb j.session dr) (fun _ s' => j.Inv s') (fun _ => True) s := by
  unfold Ftpd.sendDataTo
  rw [wp_bind, wp_getData_of h.data]
  rw [wp_ite]
  refine ⟨fun _ => ?_, fun _ => h.inv⟩
  rw [wp_bind, wp_checkPcb]
  refine ⟨fun i hi p _ => ?_, fun _ => trivial, fun _ _ _ => trivial⟩
  subst hi
  dsimp only
  rw [wp_bind, wp_setData_of h.data]
  obtain ⟨hwf, -, hcontents⟩ := sfifoDrain_spec h.wf dr
  rw [wp_emit]
  set bytes := (sendData x.fifo dr).1.flatten with hbytes
  have hon : (Action.data j.session i bytes).bytesOn j.session i = bytes := if_pos ⟨rfl, rfl⟩
  have hoff : ∀ k, k ≠ i → (Action.data j.session i bytes).bytesOn j.session k = [] :=
    fun k hk => if_neg fun h => hk h.2.symm
  have hstream : sentOn j.session i sent ++ bytes ++ (sendData x.fifo dr).2.contents ++
      j.pending { x with fifo := (sendData x.fifo dr).2 } = j.content := by
    rw [← h.stream, hcontents, j.pending_eq x x.connected]
    simp only [sentOver, Option.elim_some, List.append_assoc, hbytes, sendData]
  refine .inr (.inl ⟨some i, sent ++ [.data j.session i bytes],
    { x with fifo := (sendData x.fifo dr).2 }, ?_⟩)
  exact
    { log := by simp only [h.log, List.append_assoc]
      control := h.control
      data := Function.update_self _ _ _
      connected := h.connected
      wf := hwf
      buffer := by
        rw [sendData, sfifoDrain_buffer]
        exact h.buffer
      stream := by
        rw [sentOver, Option.elim_some, sentOn_snoc, hon]
        exact hstream
      others := by
        intro k hk
        rw [sentOn_snoc, h.others k hk, hoff k fun hki => hk (by rw [hki])]
        rfl
      delivered := by
        refine h.delivered.snoc (fun k => ?_) (fun _ ha => (by cases ha)) fun _ ha => (by cases ha)
        by_cases hki : k = i
        · rw [hki, hon, ← hstream, List.append_assoc]
          exact List.prefix_append _ _
        · rw [hoff k hki, List.append_nil]
          exact h.delivered.accepted k }

/-- The end of the transfer, when everything has been accepted. -/
lemma Sending.endTransfer (h : j.Sending pcb sent x s) (hfifo : x.fifo.contents = [])
    (hpending : j.pending x = []) (env : Env) :
    wp (endTransfer j.session pcb env) (fun _ s' => j.Inv s') (fun _ => True) s := by
  refine wp_mono (endTransfer_spec j.session pcb env s) ?_ fun _ _ => trivial
  rintro _ s' ⟨hdata, ⟨m, hm, hdatafs, -⟩, i, queued, l, rfl, hlog, hl⟩
  have hcomplete : sentOn j.session i sent = j.content := by
    rw [← h.stream, hfifo, hpending, List.append_nil, List.append_nil]
    rfl
  refine .inr (.inr ⟨sent ++ .close i :: .reply msg226 queued :: l, ?_, fun m' hm' => ?_, ?_,
    h.delivered.ended hcomplete queued hl⟩)
  · rw [hlog, h.log, List.append_assoc]
  · obtain rfl := Option.some.inj (hm.symm.trans hm')
    exact hdatafs
  · rw [hdata, Function.update_self]

/-! ### Callbacks -/

/-- The function that serves the session keeps the job, if the environment is `ok`. -/
def ServedIn (j : Job) (ok : Env → Prop) : Prop :=
  ∀ pcb sent x s env, ok env → j.Sending pcb sent x s →
    wp (serve j.session pcb env) (fun _ s' => j.Inv s') (fun _ => True) s

variable {ok : Env → Prop}

lemma kept (hserved : j.ServedIn ok) : Kept j.session True ok j.Inv where
  congr := fun h hlog hfsm hdata => h.congr hlog hfsm hdata
  opened := by
    intro s m x pcb h hm hx hconnected
    replace hconnected := hconnected trivial
    rcases h with ⟨y, h⟩ | ⟨pcb', sent, y, h⟩ | ⟨sent, h⟩
    · obtain rfl := Option.some.inj (h.data.symm.trans hx)
      obtain ⟨m', hm', hstate, hcurrent⟩ := h.control
      obtain rfl := Option.some.inj (hm'.symm.trans hm)
      refine inv_start (m := { m' with datapcb := pcb }) (x := { y with connected := true }) rfl
        hstate hcurrent (Function.update_self _ _ _) h.log h.wf h.buffer ?_
      rw [j.pending_eq y true y.fifo]
      exact h.stream
    · -- the session has its connection
      obtain rfl := Option.some.inj (h.data.symm.trans hx)
      rw [h.connected] at hconnected
      cases hconnected
    · -- the session is gone
      rw [h.data] at hx
      cases hx
  served := by
    intro s env pcb henv h hlive hover
    obtain ⟨hconnected, hpcb⟩ := hover trivial
    rcases h with ⟨y, h⟩ | ⟨pcb', sent, y, h⟩ | ⟨sent, h⟩
    · have hy := hconnected y h.data
      rw [h.connected] at hy
      cases hy
    · obtain ⟨m, hm, -, -, hdatapcb⟩ := h.control
      obtain rfl := hdatapcb.symm.trans (hpcb m hm)
      exact hserved pcb' sent y s env henv h
    · exact absurd h.data hlive
  current := by
    rintro s m d' (⟨y, h⟩ | ⟨pcb', sent, y, h⟩ | ⟨sent, h⟩) hm hd'
    · obtain ⟨m', hm', -, hdatafs⟩ := h.control
      obtain rfl := Option.some.inj (hm'.symm.trans hm)
      exact Option.some.inj (hd'.symm.trans hdatafs)
    · obtain ⟨m', hm', -, hdatafs, -⟩ := h.control
      obtain rfl := Option.some.inj (hm'.symm.trans hm)
      exact Option.some.inj (hd'.symm.trans hdatafs)
    · rw [h.control m hm] at hd'
      cases hd'

/-- **What a whole run preserves.** -/
lemma Inv.exec (hserved : j.ServedIn ok) (h : j.Inv s) {es : List Event}
    (hes : Admits ftpdStep (fun s e =>
      Concerns j.session s e ∧ OneConnection j.session s e ∧ ok e.env) s es) {s' : Sys}
    (hrun : exec ftpdStep s es = some s') : j.Inv s' :=
  exec_inv_of_admits (fun _ _ _ hs he hs' =>
    (kept hserved).step hs he.1 (fun _ => he.2.1) he.2.2 hs') h hes hrun

end Job

/-! ### Fresh data sessions -/

/-- A data session whose FIFO is as `sfifo_init` has set it up, with or without a buffer. -/
structure DataState.Fresh (x : DataState) : Prop where
  wf : x.fifo.Wf
  contents : x.fifo.contents = []

/-- The current data session of a control session is fresh. -/
def CurrentFresh (s : Sys) : Prop :=
  ∀ m ∈ s.fsm, ∀ d ∈ m.datafs, ∀ x ∈ s.data d, x.Fresh

/-- The pointer to the current data session, and the data sessions. -/
def Sys.current (s : Sys) : Option (Option ℕ) × (ℕ → Option DataState) :=
  (s.fsm.map MsgState.datafs, s.data)

/-- A program that neither changes a data session nor which one is current. -/
abbrev KeepsCurrent {α : Type} (m : FtpdM α) : Prop := Keeps Sys.current (fun _ => True) m

lemma keepsCurrent_setMsg {f : MsgState → MsgState} (hf : ∀ m, (f m).datafs = m.datafs) :
    KeepsCurrent (setMsg f) := by
  intro s
  refine wp_setMsg.mpr ⟨fun m hm => ?_, fun _ => trivial⟩
  simp only [Sys.current, hm, Option.map_some, hf]

lemma keepsCurrent_setPcb (pcb : Option ℕ) (f : Pcb → Pcb) : KeepsCurrent (setPcb pcb f) :=
  fun _ => wp_setPcb.mpr ⟨fun _ => rfl, fun _ _ _ _ => rfl, fun _ _ _ => trivial⟩

lemma keepsCurrent_checkPcb (pcb : Option ℕ) : KeepsCurrent (checkPcb pcb) :=
  fun _ => wp_checkPcb.mpr ⟨fun _ _ _ _ => rfl, fun _ => trivial, fun _ _ _ => trivial⟩

lemma keepsCurrent_tcpNew (env : Env) : KeepsCurrent (tcpNew env) := by
  refine keeps_ite (Keeps.bind ?_ fun _ => keeps_pure _) (keeps_pure _)
  exact fun s => rfl

/-- `sfifo_init` makes a FIFO that is empty, with or without a buffer. -/
lemma dataFifo_fresh (d : ℕ) (env : Env) (s : Sys) :
    wp (dataFifo d env) (fun f s' => s'.current = s.current ∧ f.Wf ∧ f.contents = [] ∧
      f.buffer = env.mallocFifo) (fun _ => True) s := by
  obtain ⟨rc, f, hinit, hwf, hbuffer, hcontents⟩ :=
    sfifoInit_spec (show (2000 : ℤ) < 2 ^ 30 by norm_num) env.mallocFifo
  unfold dataFifo
  rw [hinit]
  exact ⟨rfl, hwf, hcontents, hbuffer⟩

/-- A property of the current data session, if there is one. -/
def CurrentIs (P : DataState → Prop) (s : Sys) : Prop :=
  ∀ m ∈ s.fsm, ∀ d ∈ m.datafs, ∀ x ∈ s.data d, P x

lemma CurrentIs.of_current {P : DataState → Prop} {s s' : Sys} (h : CurrentIs P s)
    (heq : s'.current = s.current) : CurrentIs P s' := by
  obtain ⟨hfsm, hdata⟩ := Prod.mk.inj heq
  intro m' hm' d hd x hx
  rw [hm'] at hfsm
  obtain ⟨m, hm, hdatafs⟩ := Option.map_eq_some_iff.mp hfsm.symm
  exact h m hm d (hdatafs.trans hd) x (hdata ▸ hx)

lemma allocData_current (s : Sys) :
    wp allocData (fun d s' => s'.fsm.map MsgState.datafs = some (some d)) (fun _ => True) s := by
  unfold allocData
  rw [wp_bind, wp_get, wp_bind, wp_record, wp_bind, wp_modify, wp_bind, wp_setMsg]
  exact ⟨fun m _ => rfl, fun _ => trivial⟩

lemma setData_current (d : ℕ) (f : DataState → DataState) (s : Sys) :
    wp (setData d f) (fun _ s' => s'.fsm = s.fsm ∧ ∃ x, s'.data d = some (f x))
      (fun _ => True) s :=
  wp_setData.mpr ⟨fun x _ => ⟨rfl, x, Function.update_self _ _ _⟩, fun _ => trivial⟩

/-- What `open_dataconnection` leaves behind as the current data session: over active connections
a new one with an empty FIFO, over passive connections the one there was before; and none if
there is no memory. -/
lemma openDataconnection_current {P : DataState → Prop} {s : Sys} {env : Env}
    (hpassive : ∀ m ∈ s.fsm, m.passive = true → CurrentIs P s)
    (hnew : ∀ m ∈ s.fsm, m.passive = false → ∀ x : DataState, x.Fresh →
      x.fifo.buffer = env.mallocFifo → P x) (dr : Drain) :
    wp (openDataconnection dr env) (fun b s' => b = true ∧ CurrentIs P s' ∨
      b = false ∧ env.mallocData = false ∧ s'.fsm.map MsgState.datafs = some none)
      (fun _ => True) s := by
  unfold openDataconnection
  rw [wp_bind, wp_getMsg]
  refine ⟨fun m hm => ?_, fun _ => trivial⟩
  rw [wp_ite]
  refine ⟨fun hp => .inl ⟨rfl, hpassive m hm hp⟩, fun hp => ?_⟩
  rw [wp_ite]
  refine ⟨fun hno => ?_, fun _ => ?_⟩
  · rw [wp_bind, wp_setMsg_of hm]
    refine wp_seq (sendMsg_spec dr msg451 _) ?_
    rintro _ s₁ ⟨-, ⟨m₁, fifo, hm₁, hfsm₁⟩, -⟩
    obtain rfl := Option.some.inj hm₁
    refine .inr ⟨rfl, by simpa using hno, ?_⟩
    rw [hfsm₁]
    rfl
  refine wp_seq (allocData_current s) fun d s₁ h₁ => ?_
  refine wp_seq (setData_current d _ s₁) ?_
  rintro _ s₂ ⟨hfsm₂, -⟩
  refine wp_seq (dataFifo_fresh d env s₂) ?_
  rintro f s₂' ⟨hcurrent, hwf, hcontents, hbuffer⟩
  have hfsm₂' : s₂'.fsm.map MsgState.datafs = s₂.fsm.map MsgState.datafs :=
    (Prod.mk.inj hcurrent).1
  refine wp_seq (setData_current d _ _) ?_
  rintro _ s₃ ⟨hfsm₃, x, hx⟩
  have hfresh : CurrentIs P s₃ := by
    intro m' hm' d' hd' y hy
    rw [← hfsm₂, ← hfsm₂', ← hfsm₃, hm', Option.map_some, Option.some.injEq, hd',
      Option.some.injEq] at h₁
    subst h₁
    obtain rfl := Option.some.inj (hx.symm.trans hy)
    exact hnew m hm (Bool.not_eq_true _ ▸ hp) _ ⟨hwf, hcontents⟩ hbuffer
  refine Keeps.wp_seq (keepsCurrent_tcpNew env) fun pcb s₄ h₄ => ?_
  refine Keeps.wp_seq (keepsCurrent_setMsg fun _ => by rfl) fun _ s₅ h₅ => ?_
  refine Keeps.wp_seq (keepsCurrent_setPcb _ _) fun _ s₆ h₆ => ?_
  refine Keeps.wp_seq (keepsCurrent_checkPcb _) fun _ s₇ h₇ => ?_
  refine Keeps.wp_seq (keepsCurrent_setPcb _ _) fun _ s₈ h₈ => .inl ⟨rfl, ?_⟩
  exact hfresh.of_current ((h₈.trans h₇).trans (h₆.trans (h₅.trans h₄)))

/-- With memory, `open_dataconnection` leaves a fresh data session behind: over active
connections it allocates one, over passive connections it was fresh before. -/
lemma openDataconnection_fresh {s : Sys} {env : Env}
    (hpassive : ∀ m ∈ s.fsm, m.passive = true → CurrentFresh s) (hmalloc : env.mallocData = true)
    (dr : Drain) :
    wp (openDataconnection dr env) (fun b s' => b = true ∧ CurrentFresh s') (fun _ => True) s := by
  refine wp_mono (openDataconnection_current (P := DataState.Fresh) hpassive
    (fun _ _ _ _ hfresh _ => hfresh) dr) ?_ fun _ he => he
  rintro b s' (h | ⟨-, hno, -⟩)
  · exact h
  · rw [hmalloc] at hno
    cases hno

end Teensy41Ethernet.Ftpd
