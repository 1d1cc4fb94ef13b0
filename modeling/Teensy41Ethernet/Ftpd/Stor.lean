import Teensy41Ethernet.Ftpd.Transfer

/-!
# What `STOR` stores

`cmd_stor` opens the file for writing without truncating it, and `ftpd_datarecv` writes what it
receives from the position of the file on.  When the peer closes the connection the client is
told that the transfer is complete, whatever the writes have returned.  So the file holds what
was received if every write stored all its bytes, and if nothing of the old content is left
before or behind them.
-/

namespace Teensy41Ethernet.Ftpd

open Lib Lwip

/-! ### Writing to a file -/

/-- The file after `bytes` have been written at its position. -/
def VfsFile.wrote (f : VfsFile) (bytes : List UInt8) : VfsFile where
  content := f.content.take f.pos ++ bytes ++ f.content.drop (f.pos + bytes.length)
  pos := f.pos + bytes.length

lemma VfsFile.wrote_nil (f : VfsFile) : f.wrote [] = f := by
  simp [VfsFile.wrote]

/-- The content up to the new position and behind it. -/
lemma VfsFile.wrote_split (f : VfsFile) (b : List UInt8) (n : ℕ) :
    (f.wrote b).content.take (f.wrote b).pos = f.content.take f.pos ++ b ∧
      (f.wrote b).content.drop ((f.wrote b).pos + n) = f.content.drop (f.pos + b.length + n) := by
  simp only [VfsFile.wrote]
  rcases le_total f.pos f.content.length with hpos | hpos
  · have hlen : (f.content.take f.pos ++ b).length = f.pos + b.length := by
      rw [List.length_append, List.length_take, min_eq_left hpos]
    rw [← hlen]
    exact ⟨List.take_left, by rw [← List.drop_drop, List.drop_left, List.drop_drop]⟩
  · -- the position lies behind the end, so that nothing follows
    have hlen : (f.content.take f.pos ++ b).length ≤ f.pos + b.length := by
      rw [List.length_append, List.length_take]
      omega
    rw [List.drop_eq_nil_of_le (by omega), List.append_nil]
    exact ⟨List.take_of_length_le hlen,
      by rw [List.drop_eq_nil_of_le (by omega), List.drop_eq_nil_of_le (by omega)]⟩

/-- Two writes one after the other. -/
lemma VfsFile.wrote_wrote (f : VfsFile) (b b' : List UInt8) :
    (f.wrote b).wrote b' = f.wrote (b ++ b') := by
  obtain ⟨htake, hdrop⟩ := f.wrote_split b b'.length
  rw [VfsFile.wrote, htake, hdrop, VfsFile.wrote, VfsFile.wrote]
  simp only [List.append_assoc, List.length_append, Nat.add_assoc]

/-- What was written is all there is if and only if the file was empty, or was written from its
start and was no longer. -/
lemma VfsFile.wrote_content_iff (f : VfsFile) (b : List UInt8) :
    (f.wrote b).content = b ↔ f.content = [] ∨ f.pos = 0 ∧ f.content.length ≤ b.length := by
  have hlen : (f.wrote b).content.length =
      min f.pos f.content.length + b.length + (f.content.length - (f.pos + b.length)) := by
    simp only [VfsFile.wrote, List.length_append, List.length_take, List.length_drop]
  constructor
  · intro h
    rw [h] at hlen
    by_cases hempty : f.content.length = 0
    · exact .inl (List.length_eq_zero_iff.mp hempty)
    · exact .inr (by omega)
  · rintro (h | ⟨hpos, hle⟩)
    · simp [VfsFile.wrote, h]
    · simp [VfsFile.wrote, hpos, hle]

lemma vfsWrite_eq (f : VfsFile) (data : List UInt8) (k : ℕ) :
    vfsWrite f data k = ((data.take k).length, f.wrote (data.take k)) := rfl

/-- What the writes of a packet store: they stop at the first one that does not store all its
bytes. -/
def stored : Chain → List ℕ → List UInt8
  | [], _ => []
  | seg :: p, ks =>
      seg.take (ks.headD seg.length) ++
        if (seg.take (ks.headD seg.length)).length = seg.length then stored p ks.tail else []

/-- Every write stores all its bytes. -/
def storesAll : Chain → List ℕ → Bool
  | [], _ => true
  | seg :: p, ks => seg.length ≤ ks.headD seg.length && storesAll p ks.tail

/-- Two lists of which nothing is missing in the whole have nothing missing in the parts. -/
lemma append_eq_append_of_sublist {a b c d : List UInt8} (h : a.Sublist b) (h' : c.Sublist d) :
    a ++ c = b ++ d ↔ a = b ∧ c = d := by
  constructor
  · intro heq
    have hlen := congrArg List.length heq
    rw [List.length_append, List.length_append] at hlen
    have hle := h.length_le
    have hle' := h'.length_le
    exact ⟨h.eq_of_length (by omega), h'.eq_of_length (by omega)⟩
  · rintro ⟨rfl, rfl⟩
    rfl

lemma stored_sublist (p : Chain) : ∀ ks, (stored p ks).Sublist p.flatten := by
  induction p with
  | nil => exact fun _ => .slnil
  | cons seg p ih =>
    intro ks
    rw [stored, List.flatten_cons]
    refine (List.take_sublist _ _).append ?_
    split
    · exact ih ks.tail
    · exact List.nil_sublist _

lemma stored_eq_flatten_iff (p : Chain) :
    ∀ ks, stored p ks = p.flatten ↔ storesAll p ks = true := by
  induction p with
  | nil => exact fun _ => iff_of_true rfl rfl
  | cons seg p ih =>
    intro ks
    rw [stored, storesAll, Bool.and_eq_true, decide_eq_true_eq, ← ih ks.tail, List.flatten_cons]
    split
    · next hfull =>
      rw [append_eq_append_of_sublist (List.take_sublist _ _) (stored_sublist p ks.tail),
        List.take_eq_self_iff]
    · next hshort =>
      -- a short write has lost a byte
      rw [append_eq_append_of_sublist (List.take_sublist _ _) (List.nil_sublist _)]
      refine iff_of_false (fun h => hshort (congrArg List.length h.1)) fun h => hshort ?_
      rw [List.take_of_length_le h.1]

/-! ### Commands during the transfer -/

/-- A command that leaves the state of the control session and its data sessions as they are,
and that removes nothing. -/
def Command.apart : Command → Bool
  | .port | .cwd | .cdup | .pwd | .noop | .syst | .type | .mode | .rnfr | .rnto | .mkd => true
  | _ => false

/-- What the data session `d` and the control session have to do with a transfer. -/
def Sys.transfer (d : ℕ) (s : Sys) : Option (FtpdState × Option ℕ) × Option DataState :=
  (s.fsm.map fun m => (m.state, m.datafs), s.data d)

/-- A program that leaves the transfer of `d` as it is. -/
abbrev Apart (d : ℕ) {α : Type} (m : FtpdM α) : Prop := Keeps (Sys.transfer d) (fun _ => True) m

section Apart

variable (d : ℕ)

lemma apart_setMsg {f : MsgState → MsgState}
    (hf : ∀ m, (f m).state = m.state ∧ (f m).datafs = m.datafs) : Apart d (setMsg f) := by
  intro s
  rw [wp_setMsg]
  refine ⟨fun m hm => ?_, fun _ => trivial⟩
  simp only [Sys.transfer, hm, Option.map_some, hf]

lemma apart_sendMsg (dr : Drain) (text : Str) : Apart d (sendMsg dr text) := by
  intro s
  refine wp_mono (sendMsg_spec dr text s) ?_ fun _ _ => trivial
  rintro _ s' ⟨hdata, ⟨m, fifo, hm, hfsm⟩, -⟩
  simp only [Sys.transfer, hdata, hm, hfsm, Option.map_some]

lemma apart_note (c : Call) : Apart d (note c) := fun _ => rfl

lemma apart_checkStr (arg : Option Str) : Apart d (checkStr arg) := by
  unfold checkStr
  cases arg with
  | none => exact keeps_throw trivial
  | some a => exact keeps_pure a

lemma apart_changeDir (path : Str) (env : Env) : Apart d (changeDir path env) := by
  unfold changeDir
  refine keeps_get.bind fun s => (apart_note d _).bind fun _ => ?_
  refine keeps_ite (keeps_throw trivial) ?_
  exact (keeps_modify fun _ => by rfl).bind fun _ => apart_sendMsg d _ _

lemma apart_cmdPort (arg : Option Str) (env : Env) : Apart d (cmdPort arg env) := by
  unfold cmdPort
  refine (apart_checkStr d arg).bind fun a => ?_
  split
  · exact (apart_setMsg d fun _ => by exact ⟨rfl, rfl⟩).bind fun _ => apart_sendMsg d _ _
  · exact apart_sendMsg d _ _

lemma apart_cmdPwd (arg : Option Str) (env : Env) : Apart d (cmdPwd arg env) := by
  unfold cmdPwd
  exact keeps_ite (keeps_get.bind fun _ => apart_sendMsg d _ _) (keeps_pure _)

lemma apart_cmdMkd (arg : Option Str) (env : Env) : Apart d (cmdMkd arg env) := by
  unfold cmdMkd withArg
  cases arg with
  | none => exact apart_sendMsg d _ _
  | some a =>
    exact keeps_ite (apart_sendMsg d _ _) ((apart_note d _).bind fun _ => apart_sendMsg d _ _)

lemma Command.run_apart {c : Command} (hc : c.apart = true) (arg : Option Str) (env : Env) :
    Apart d (c.run arg env) := by
  cases c with
  | port => exact apart_cmdPort d arg env
  | cwd => exact (apart_checkStr d arg).bind fun a => apart_changeDir d a env
  | cdup => exact apart_changeDir d _ env
  | pwd => exact apart_cmdPwd d arg env
  | type => exact (apart_checkStr d arg).bind fun a => apart_sendMsg d _ _
  | mkd => exact apart_cmdMkd d arg env
  | noop => exact apart_sendMsg d env.msg₁ msg200
  | syst => exact apart_sendMsg d env.msg₁ (msg214SYST (lit "UNIX"))
  | mode => exact apart_sendMsg d env.msg₁ msg502
  | rnfr | rnto => exact apart_sendMsg d env.msg₁ (lit "TODO")
  | _ => cases hc

/-- A packet on the control connection with a line that is no command, or with such a command. -/
lemma apart_ftpdMsgrecv (p : Chain) (env : Env)
    (hp : env.mallocText = true → ∀ c ∈ lookupCommand (commandText p), c.apart = true) :
    Apart d (ftpdMsgrecv p env) := by
  unfold ftpdMsgrecv
  split
  · next htext =>
    dsimp only
    cases hc : lookupCommand (commandText p) with
    | none => exact apart_sendMsg d _ _
    | some c => exact Command.run_apart d (hp htext c hc) _ env
  · exact keeps_pure _

/-- An acknowledgement on the control connection, unless the session is quitting. -/
lemma apart_ftpdMsgsent (env : Env) {s : Sys} {m : MsgState} (hm : s.fsm = some m)
    (hstate : m.state ≠ .quit) :
    wp (ftpdMsgsent env) (fun _ s' => s'.transfer d = s.transfer d) (fun _ => True) s := by
  unfold ftpdMsgsent
  rw [wp_bind, wp_getMsg_of hm]
  rw [if_neg fun h => hstate h.2]
  have hsent : Apart d (do
      setMsg fun m' => { m' with fifo := (sendMsgdata m.fifo env.msg₁).2 }
      emit (.control (sendMsgdata m.fifo env.msg₁).1.flatten)) :=
    (apart_setMsg d fun _ => by exact ⟨rfl, rfl⟩).bind fun _ _ => by rfl
  exact keeps_ite hsent (keeps_pure _) s

end Apart

/-! ### The transfer -/

/-- `cmd_stor` has given the file to the current data session `d` and set the state. -/
structure Storing (s : Sys) (d : ℕ) (f : VfsFile) : Prop where
  control : ∃ m, s.fsm = some m ∧ m.state = .stor ∧ m.datafs = some d
  data : ∃ x, s.data d = some x ∧ x.vfsFile = some f

/-- A callback during the upload to the data session `d`, other than its end: a connection of
`d` is opened, has sent something or has received a packet; or something happens on the control
connection that has nothing to do with transfers. -/
def Uploads (d : ℕ) (s : Sys) (e : Event) : Prop :=
  match e.callback with
  | .recv i (some _) => ∀ p ∈ s.pcbs i, ∀ d' ∈ p.arg, d' = d
  | .msgrecv p =>
      e.env.mallocText = true → ∀ c ∈ lookupCommand (commandText p), c.apart = true
  | .msgsent => True
  | _ => Concerns d s e

instance (d : ℕ) (s : Sys) (e : Event) : Decidable (Uploads d s e) := by
  obtain ⟨callback, env⟩ := e
  unfold Uploads
  refine Callback.casesOn callback ?_ ?_ ?_ ?_ ?_ ?_ ?_ ?_ (fun i p => Option.casesOn p ?_ ?_) ?_
    <;> intros <;> infer_instance

/-- The packet that a callback hands to `ftpd_datarecv` for the data session `d`. -/
def Event.packet (d : ℕ) (s : Sys) (e : Event) : Option Chain :=
  match e.callback with
  | .recv i (some p) => if ∃ q ∈ s.pcbs i, q.recv = true ∧ q.arg = some d then some p else none
  | _ => none

/-- The bytes received on the data connections of `d` in a run. -/
def received (d : ℕ) (s : Sys) (es : List Event) : List UInt8 :=
  (trace ftpdStep (fun s e _ => (e.packet d s).map List.flatten) s es).flatten

/-- The bytes of the packet that the callback stores. -/
def Event.stores (d : ℕ) (s : Sys) (e : Event) : Option (List UInt8) :=
  (e.packet d s).map fun p => stored p e.env.write

/-- The bytes that were stored in a run. -/
def storedIn (d : ℕ) (s : Sys) (es : List Event) : List UInt8 :=
  (trace ftpdStep (fun s e _ => e.stores d s) s es).flatten

/-- Every write for the packet stores all its bytes. -/
def StoresAll (d : ℕ) (s : Sys) (e : Event) : Prop :=
  ∀ p ∈ e.packet d s, storesAll p e.env.write = true

instance (d : ℕ) (s : Sys) (e : Event) : Decidable (StoresAll d s e) := by
  unfold StoresAll
  infer_instance

section Storing

variable {s : Sys} {d : ℕ} {f : VfsFile}

lemma Storing.congr (h : Storing s d f) {s' : Sys} (heq : s'.transfer d = s.transfer d) :
    Storing s' d f := by
  obtain ⟨m, hm, hstate, hdatafs⟩ := h.control
  obtain ⟨x, hx, hfile⟩ := h.data
  rw [Sys.transfer, Sys.transfer, hm, hx, Prod.mk.injEq, Option.map_some] at heq
  obtain ⟨m', hm', hfields⟩ := Option.map_eq_some_iff.mp heq.1
  rw [Prod.mk.injEq] at hfields
  exact ⟨⟨m', hm', hfields.1.trans hstate, hfields.2.trans hdatafs⟩, x, heq.2, hfile⟩

/-- In the state `STOR` a session is not served, and nothing else touches the file. -/
lemma storing_kept (d : ℕ) (f : VfsFile) :
    Kept d False (fun _ => True) fun s => Storing s d f where
  congr := fun h _ hfsm hdata => ⟨hfsm ▸ h.control, hdata ▸ h.data⟩
  opened := by
    intro s m x pcb h hm hx _
    obtain ⟨m', hm', hstate, hdatafs⟩ := h.control
    obtain ⟨y, hy, hfile⟩ := h.data
    obtain rfl := Option.some.inj (hm'.symm.trans hm)
    obtain rfl := Option.some.inj (hy.symm.trans hx)
    exact ⟨⟨_, rfl, hstate, hdatafs⟩, _, Function.update_self _ _ _, hfile⟩
  served := by
    intro s env pcb _ h _ _
    obtain ⟨m, hm, hstate, -⟩ := h.control
    unfold serve
    rw [wp_bind, wp_getMsg_of hm]
    rw [hstate]
    exact h
  current := by
    intro s m d' h hm hd'
    obtain ⟨m', hm', -, hdatafs⟩ := h.control
    obtain rfl := Option.some.inj (hm'.symm.trans hm)
    exact Option.some.inj (hd'.symm.trans hdatafs)

/-- **The loop over a packet** writes what `stored` says. -/
lemma recvLoop_storing (p : Chain) :
    ∀ (ks : List ℕ) (f : VfsFile) (s : Sys), Storing s d f →
      wp (recvLoop d p ks) (fun _ s' => Storing s' d (f.wrote (stored p ks)))
        (fun _ => True) s := by
  induction p with
  | nil =>
    intro ks f s h
    rw [stored, f.wrote_nil]
    exact h
  | cons seg p ih =>
    intro ks f s h
    obtain ⟨x, hx, hfile⟩ := h.data
    rw [recvLoop, wp_bind, wp_getData_of hx]
    rw [hfile]
    dsimp only
    rw [wp_bind, wp_setData_of hx]
    rw [vfsWrite_eq, stored]
    have hwrote : ∀ y g, y.vfsFile = some g →
        Storing { s with data := Function.update s.data d (some y) } d g :=
      fun y g hy => ⟨h.control, y, Function.update_self _ _ _, hy⟩
    rw [wp_ite]
    refine ⟨fun hfull => ?_, fun hshort => ?_⟩
    · rw [if_pos hfull, ← VfsFile.wrote_wrote]
      exact ih ks.tail _ _ (hwrote _ _ rfl)
    · rw [if_neg hshort, List.append_nil]
      exact hwrote _ _ rfl

/-- The loop runs for a packet that is handed to the session. -/
lemma Storing.recv (h : Storing s d f) {e : Event} {i : ℕ} {p : Chain}
    (hcb : e.callback = .recv i (some p)) (harg : ∀ q ∈ s.pcbs i, ∀ d' ∈ q.arg, d' = d) :
    wp (handle e) (fun _ s' => Storing s' d (f.wrote ((e.stores d s).toList.flatten)))
      (fun _ => True) s := by
  unfold handle
  rw [hcb, wp_bind]
  refine wp_pcbOf (fun q hq _ => ?_) trivial
  rw [Event.stores, Event.packet, hcb]
  dsimp only
  rw [wp_ite]
  refine ⟨fun hrecv => ?_, fun hrecv => ?_⟩
  · unfold ftpdDatarecv
    rw [wp_bind, wp_checkArg]
    refine ⟨fun d' hd' => ?_, fun _ => trivial⟩
    obtain rfl := harg q hq d' hd'
    rw [if_pos ⟨q, hq, hrecv, hd'⟩]
    simp only [Option.map_some, Option.toList_some, List.flatten_singleton]
    exact recvLoop_storing p e.env.write f s h
  · have hnone : ¬ ∃ q ∈ s.pcbs i, q.recv = true ∧ q.arg = some d := by
      rintro ⟨q', hq', hrecv', -⟩
      obtain rfl := Option.some.inj (hq.symm.trans hq')
      exact hrecv hrecv'
    rw [if_neg hnone, Option.map_none, Option.toList_none, List.flatten_nil, f.wrote_nil, wp_ite]
    exact ⟨fun h => (by cases h), fun _ => h⟩

lemma packet_eq_none {e : Event} (he : ∀ i p, e.callback ≠ .recv i (some p)) :
    e.packet d s = none := by
  unfold Event.packet
  split
  · next i p hcb => exact absurd hcb (he i p)
  · rfl

/-- **What one callback stores.** -/
lemma Storing.step (h : Storing s d f) {e : Event} (he : Uploads d s e) {s' : Sys}
    (hs' : ftpdStep s e = some s') :
    Storing s' d (f.wrote ((e.stores d s).toList.flatten)) := by
  have hnothing (hcb : ∀ i p, e.callback ≠ .recv i (some p)) (h' : Storing s' d f) :
      Storing s' d (f.wrote ((e.stores d s).toList.flatten)) := by
    rw [Event.stores, packet_eq_none hcb]
    rw [Option.map_none, Option.toList_none, List.flatten_nil, f.wrote_nil]
    exact h'
  have hapart {body : FtpdM Unit} (hhandle : handle e = onControl body)
      (hbody : wp body (fun _ s' => s'.transfer d = s.transfer d) (fun _ => True) s) :
      Storing s' d f := by
    refine h.congr (wp_ftpdStep (Q := fun s' => s'.transfer d = s.transfer d)
      (E := fun _ => True) ?_ hs')
    rw [hhandle]
    exact wp_onControl hbody trivial
  unfold Uploads at he
  split at he
  · next i p hcb => exact wp_ftpdStep (h.recv hcb he) hs'
  · next p hcb =>
    refine hnothing (by simp [hcb]) (hapart ?_ (apart_ftpdMsgrecv d p e.env he s))
    unfold handle
    rw [hcb]
  · next hcb =>
    obtain ⟨m, hm, hstate, -⟩ := h.control
    have hquit : m.state ≠ .quit := by
      rw [hstate]
      decide
    refine hnothing (by simp [hcb]) (hapart ?_ (apart_ftpdMsgsent d e.env hm hquit))
    unfold handle
    rw [hcb]
  · next hcb _ _ => exact hnothing hcb ((storing_kept d f).step h he False.elim trivial hs')

/-- **What a run stores.** -/
lemma Storing.exec {s₀ : Sys} {es : List Event} (h : Storing s₀ d f)
    (hes : Admits ftpdStep (Uploads d) s₀ es) (hrun : exec ftpdStep s₀ es = some s) :
    Storing s d (f.wrote (storedIn d s₀ es)) := by
  have hempty : Storing s₀ d (f.wrote [].flatten) := by
    rw [List.flatten_nil, f.wrote_nil]
    exact h
  refine exec_inv_trace (P := fun s l => Storing s d (f.wrote l.flatten)) ?_ hempty hes hrun
  intro s e s' l hs he hs'
  rw [List.flatten_append, ← VfsFile.wrote_wrote]
  exact hs.step he hs'

lemma received_cons {s' : Sys} {e : Event} (hs' : ftpdStep s e = some s') (es : List Event) :
    received d s (e :: es) =
      ((e.packet d s).map List.flatten).toList.flatten ++ received d s' es := by
  rw [received, trace_cons hs', List.flatten_append, received]

lemma storedIn_cons {s' : Sys} {e : Event} (hs' : ftpdStep s e = some s') (es : List Event) :
    storedIn d s (e :: es) = (e.stores d s).toList.flatten ++ storedIn d s' es := by
  rw [storedIn, trace_cons hs', List.flatten_append, storedIn]

/-- What is stored in a run is what is received, with bytes missing unless every write stores all
its bytes. -/
lemma storedIn_received {s₀ : Sys} {es : List Event} (hrun : exec ftpdStep s₀ es = some s) :
    (storedIn d s₀ es).Sublist (received d s₀ es) ∧
      (storedIn d s₀ es = received d s₀ es ↔ Admits ftpdStep (StoresAll d) s₀ es) := by
  induction es generalizing s₀ with
  | nil => exact ⟨.slnil, iff_of_true rfl trivial⟩
  | cons e es ih =>
    obtain ⟨s₁, hs₁, hrest⟩ := exec_cons_eq_some.mp hrun
    obtain ⟨hsub, hall⟩ := ih hrest
    have hadmits : Admits ftpdStep (StoresAll d) s₀ (e :: es) ↔
        StoresAll d s₀ e ∧ Admits ftpdStep (StoresAll d) s₁ es := by
      rw [admits_cons, hs₁]
      simp only [Option.some.injEq, forall_eq']
    rw [hadmits, received_cons hs₁, storedIn_cons hs₁, Event.stores, StoresAll]
    cases hp : e.packet d s₀ with
    | none =>
      refine ⟨hsub, hall.trans (and_iff_right ?_).symm⟩
      rintro p ⟨⟩
    | some p =>
      simp only [Option.map_some, Option.toList_some, List.flatten_singleton, Option.mem_some_iff,
        forall_eq']
      refine ⟨(stored_sublist p _).append hsub, ?_⟩
      rw [append_eq_append_of_sublist (stored_sublist p _) hsub, stored_eq_flatten_iff]
      exact and_congr_right fun _ => hall

end Storing

/-! ### The command and the end of the connection -/

/-- `cmd_stor` leaves a data session with the file behind, if there is one at all. -/
lemma cmdStor_storing {s : Sys} {env : Env} {file : VfsFile} (hfile : env.openFile = some file)
    (arg : Option Str) :
    wp (cmdStor arg env)
      (fun _ s' => ∀ m d, s'.fsm = some m → m.datafs = some d → Storing s' d file)
      (fun _ => True) s := by
  unfold cmdStor startTransfer
  refine (apart_checkStr 0 arg).wp_seq fun a s₀ _ => ?_
  rw [wp_bind, wp_vfsOpen, hfile]
  refine ⟨fun h => (by cases h), ?_⟩
  rintro _ ⟨⟩
  dsimp only
  refine wp_seq (sendMsg_spec env.msg₁ _ _) fun _ s₁ _ => ?_
  refine wp_seq (openDataconnection_current (P := fun _ => True)
    (fun _ _ _ _ _ _ _ _ _ => trivial) (fun _ _ _ _ _ _ => trivial) env.msg₂) ?_
  rintro b s₂ (⟨rfl, -⟩ | ⟨rfl, -, hnone⟩)
  · rw [if_pos rfl, wp_installTransfer]
    refine ⟨fun m hm => ⟨fun d hd => ⟨fun x hx => ?_, fun _ => trivial⟩, fun _ => trivial⟩,
      fun _ => trivial⟩
    intro m' d' hm' hd'
    obtain rfl := Option.some.inj hm'
    obtain rfl := Option.some.inj (hd.symm.trans hd')
    exact ⟨⟨_, rfl, rfl, hd⟩, _, Function.update_self _ _ _, rfl⟩
  · rw [if_neg Bool.false_ne_true, wp_record]
    intro m d hm hd
    rw [show s₂.fsm = some m from hm, Option.map_some, hd] at hnone
    cases hnone

/-- The peer has closed a connection of the data session `d`. -/
def Hangup (d : ℕ) (s : Sys) (e : Event) : Prop :=
  ∃ i, e.callback = .recv i none ∧ ∃ p ∈ s.pcbs i, p.recv = true ∧ p.arg = some d

/-- The client is told that the transfer is complete. -/
lemma ftpdStep_hangup {s s' : Sys} {d : ℕ} {e : Event} (h : Hangup d s e)
    (hs' : ftpdStep s e = some s') :
    ∃ new queued, s'.log = s.log ++ new ∧ .reply msg226 queued ∈ new := by
  obtain ⟨i, hcb, p, hp, hrecv, harg⟩ := h
  refine wp_ftpdStep (Q := fun s' => ∃ new queued, s'.log = s.log ++ new ∧
    .reply msg226 queued ∈ new) (E := fun _ => True) ?_ hs'
  unfold handle
  rw [hcb, wp_bind]
  refine wp_pcbOf (fun q hq _ => ?_) trivial
  obtain rfl := Option.some.inj (hp.symm.trans hq)
  rw [if_pos hrecv, harg]
  unfold ftpdDatarecv
  rw [wp_bind, wp_checkArg]
  refine ⟨?_, fun _ => trivial⟩
  rintro _ ⟨⟩
  dsimp only
  rw [wp_bind, wp_getData]
  refine ⟨fun x hx => ?_, fun _ => trivial⟩
  split
  · trivial
  · rw [wp_bind, wp_closeFile]
    refine ⟨fun _ _ => ?_, fun _ => trivial⟩
    refine wp_mono (endTransfer_spec d (some i) e.env _) ?_ fun _ _ => trivial
    rintro _ s' ⟨-, -, j, queued, l, -, hlog, -⟩
    exact ⟨_, queued, hlog, by simp⟩

/-! ### The theorem -/

/-- **`STOR` and what was received.**  When the peer closes the data connection the client is told
that the transfer is complete.  If every write has stored all its bytes, the file then holds what
was received if and only if it was empty before, or was written from its start and was no longer;
and a file that was empty holds what was received if and only if every write has stored all its
bytes. -/
theorem stor_holds_received_iff {s s₀ s₁ s₂ : Sys} {e e' : Event} {file : VfsFile} {m : MsgState}
    {d : ℕ} {es : List Event} (hc : e.command = some .stor) (hfile : e.env.openFile = some file)
    (hstart : ftpdStep s e = some s₀) (hm : s₀.fsm = some m) (hd : m.datafs = some d)
    (hes : Admits ftpdStep (Uploads d) s₀ es) (hrun : exec ftpdStep s₀ es = some s₁)
    (hend : Hangup d s₁ e') (hs₂ : ftpdStep s₁ e' = some s₂) :
    (∃ new queued, s₂.log = s₁.log ++ new ∧ .reply msg226 queued ∈ new) ∧
    ∃ x f, s₁.data d = some x ∧ x.vfsFile = some f ∧
      (Admits ftpdStep (StoresAll d) s₀ es → (f.content = received d s₀ es ↔ file.content = [] ∨
        file.pos = 0 ∧ file.content.length ≤ (received d s₀ es).length)) ∧
      (file.content = [] →
        (f.content = received d s₀ es ↔ Admits ftpdStep (StoresAll d) s₀ es)) := by
  have hstoring : ∀ m d, s₀.fsm = some m → m.datafs = some d → Storing s₀ d file :=
    ftpdStep_command hc (fun arg => cmdStor_storing hfile arg) hstart
  obtain ⟨x, hx, hf⟩ := ((hstoring m d hm hd).exec hes hrun).data
  refine ⟨ftpdStep_hangup hend hs₂, x, _, hx, hf, fun hall => ?_, fun hempty => ?_⟩
  · rw [(storedIn_received hrun).2.mpr hall]
    exact file.wrote_content_iff _
  · rw [(file.wrote_content_iff _).mpr (.inl hempty)]
    exact (storedIn_received hrun).2

/-- The content of the file of a data session. -/
def Sys.fileContent (s : Sys) (d : ℕ) : Option (List UInt8) :=
  (s.data d).bind fun x => x.vfsFile.map VfsFile.content

/-- Two bytes are received for a file of one byte, with another command meanwhile. -/
theorem stor_holds_received_iff_two_bytes :
    ∃ s₀ s₁ s₂ es, ftpdStep session (line "STOR a\r\n") = some s₀ ∧
      exec ftpdStep s₀ es = some s₁ ∧ ftpdStep s₁ ⟨.recv 0 none, calm⟩ = some s₂ ∧
      received 0 s₀ es = [8, 9] ∧
      (∃ new queued, s₂.log = s₁.log ++ new ∧ .reply msg226 queued ∈ new) ∧
      ∃ x f, s₁.data 0 = some x ∧ x.vfsFile = some f ∧ f.content = [8, 9] := by
  have hstart : Option.map (fun s₀ => (s₀.fsm.map MsgState.datafs,
      decide (Admits ftpdStep (Uploads 0) s₀
        [⟨.connected 0, calm⟩, line "NOOP\r\n", ⟨.recv 0 (some [[8], [9]]), calm⟩]),
      decide (Admits ftpdStep (StoresAll 0) s₀
        [⟨.connected 0, calm⟩, line "NOOP\r\n", ⟨.recv 0 (some [[8], [9]]), calm⟩]),
      received 0 s₀ [⟨.connected 0, calm⟩, line "NOOP\r\n", ⟨.recv 0 (some [[8], [9]]), calm⟩],
      (exec ftpdStep s₀
        [⟨.connected 0, calm⟩, line "NOOP\r\n", ⟨.recv 0 (some [[8], [9]]), calm⟩]).map
        fun s₁ => decide ((∃ p ∈ s₁.pcbs 0, p.recv = true ∧ p.arg = some 0) ∧
          (ftpdStep s₁ ⟨.recv 0 none, calm⟩).isSome = true)))
      (ftpdStep session (line "STOR a\r\n"))
      = some (some (some 0), true, true, [8, 9], some true) := by decide +kernel
  obtain ⟨s₀, hs₀, hrest⟩ := Option.map_eq_some_iff.mp hstart
  simp only [Prod.mk.injEq, decide_eq_true_eq] at hrest
  obtain ⟨hcurrent, huploads, hstores, hreceived, hrun⟩ := hrest
  obtain ⟨m, hm, hd⟩ := Option.map_eq_some_iff.mp hcurrent
  obtain ⟨s₁, hs₁, hlast⟩ := Option.map_eq_some_iff.mp hrun
  obtain ⟨hopen, hsome⟩ := of_decide_eq_true hlast
  obtain ⟨s₂, hs₂⟩ := Option.isSome_iff_exists.mp hsome
  obtain ⟨hreply, x, f, hx, hf, hcontent, -⟩ := stor_holds_received_iff (by decide)
    (show (line "STOR a\r\n").env.openFile = some ⟨[7], 0⟩ from rfl) hs₀ hm hd huploads hs₁
    ⟨0, rfl, hopen⟩ hs₂
  refine ⟨s₀, s₁, s₂, _, hs₀, hs₁, hs₂, hreceived, hreply, x, f, hx, hf, ?_⟩
  rw [hreceived] at hcontent
  exact (hcontent hstores).mpr (.inr ⟨rfl, by decide⟩)

/-- A write that stores only the first of two bytes; and one byte that is received for a file of
two bytes. -/
theorem stor_holds_other_bytes :
    (∃ s₀ s₁ s₂ es,
      ftpdStep session ⟨.msgrecv [lit "STOR a\r\n"], { calm with openFile := some ⟨[], 0⟩ }⟩ =
        some s₀ ∧ Admits ftpdStep (Uploads 0) s₀ es ∧ exec ftpdStep s₀ es = some s₁ ∧
      ftpdStep s₁ ⟨.recv 0 none, calm⟩ = some s₂ ∧ .reply msg226 true ∈ s₂.log ∧
      received 0 s₀ es = [8, 9] ∧ s₁.fileContent 0 = some [8]) ∧
    ∃ s₀ s₁ s₂ es,
      ftpdStep session ⟨.msgrecv [lit "STOR a\r\n"], { calm with openFile := some ⟨[6, 7], 0⟩ }⟩ =
        some s₀ ∧ Admits ftpdStep (Uploads 0) s₀ es ∧ exec ftpdStep s₀ es = some s₁ ∧
      ftpdStep s₁ ⟨.recv 0 none, calm⟩ = some s₂ ∧ .reply msg226 true ∈ s₂.log ∧
      received 0 s₀ es = [8] ∧ s₁.fileContent 0 = some [8, 7] := by
  have hrun : ∀ {e : Event} (es : List Event) {bytes content : List UInt8},
      Option.map (fun s₀ => (decide (Admits ftpdStep (Uploads 0) s₀ es), received 0 s₀ es,
        (exec ftpdStep s₀ es).map fun s₁ => (s₁.fileContent 0,
          (ftpdStep s₁ ⟨.recv 0 none, calm⟩).map fun s₂ => decide (.reply msg226 true ∈ s₂.log))))
        (ftpdStep session e) = some (true, bytes, some (some content, some true)) →
      ∃ s₀ s₁ s₂ es, ftpdStep session e = some s₀ ∧ Admits ftpdStep (Uploads 0) s₀ es ∧
        exec ftpdStep s₀ es = some s₁ ∧ ftpdStep s₁ ⟨.recv 0 none, calm⟩ = some s₂ ∧
        .reply msg226 true ∈ s₂.log ∧ received 0 s₀ es = bytes ∧
        s₁.fileContent 0 = some content := by
    intro e es bytes content h
    obtain ⟨s₀, hs₀, hrest⟩ := Option.map_eq_some_iff.mp h
    simp only [Prod.mk.injEq, decide_eq_true_eq] at hrest
    obtain ⟨huploads, hreceived, hexec⟩ := hrest
    obtain ⟨s₁, hs₁, hlast⟩ := Option.map_eq_some_iff.mp hexec
    simp only [Prod.mk.injEq] at hlast
    obtain ⟨s₂, hs₂, hreply⟩ := Option.map_eq_some_iff.mp hlast.2
    exact ⟨s₀, s₁, s₂, es, hs₀, huploads, hs₁, hs₂, of_decide_eq_true hreply, hreceived, hlast.1⟩
  constructor
  · exact hrun [⟨.connected 0, calm⟩,
      ⟨.recv 0 (some [[8, 9]]), { calm with write := [1] }⟩] (by decide +kernel)
  · exact hrun [⟨.connected 0, calm⟩, ⟨.recv 0 (some [[8]]), calm⟩] (by decide +kernel)

end Teensy41Ethernet.Ftpd
