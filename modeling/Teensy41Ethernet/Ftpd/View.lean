import Teensy41Ethernet.Ftpd.Session

/-!
# The sessions of the FTP daemon as a small machine

Seen from the sessions, the daemon is a small machine.  The control session has a state, a
mode, and pointers to its current data session and to the control block of its connection; a
data session holds a directory or not, a file or not, a buffer or not, and points back to the
control session or not.  `Sys.view` is this view of the daemon, together with the control
blocks, the working directory and the account of what was acquired and released; it leaves
out what is in the FIFOs, the files and the log.  Most functions leave it as it is; this file
has one lemma for each function on the data side that says what it does to the view, and when
it uses a directory or a file that is not there.
-/

namespace Teensy41Ethernet.Ftpd

open Lib Lwip

/-! ### The view -/

/-- What a data session holds: the numbers of its directory and of its file, the buffer of its
FIFO, and the pointer back to the control session. -/
structure Hold where
  dir : Option ℕ
  file : Option ℕ
  buffer : Bool
  owned : Bool
deriving DecidableEq, Repr

/-- The part of the control session that decides about data sessions, and whether its FIFO has
a buffer. -/
structure Control where
  state : FtpdState
  current : Option ℕ
  passive : Bool
  pcb : Option ℕ
  buffer : Bool
deriving DecidableEq, Repr

/-- The control session, the data sessions that are allocated, the control blocks, and the
variables that outlive a session. -/
@[ext] structure View where
  control : Option Control
  sessions : ℕ → Option Hold
  next : ℕ
  port : UInt16
  pcbs : ℕ → Option Pcb
  nextPcb : ℕ
  cwd : Str
  account : List (Entry Resource)
  handles : ℕ

def DataState.hold (x : DataState) : Hold where
  dir := x.vfsDir.map fun _ => x.dirHandle
  file := x.vfsFile.map fun _ => x.fileHandle
  buffer := x.fifo.buffer.isSome
  owned := x.msgfs

def MsgState.control (m : MsgState) : Control :=
  ⟨m.state, m.datafs, m.passive, m.datapcb, m.fifo.buffer.isSome⟩

/-- The sessions of a daemon. -/
def Sys.view (s : Sys) : View where
  control := s.fsm.map MsgState.control
  sessions := fun d => (s.data d).map DataState.hold
  next := s.nextData
  port := s.port
  pcbs := s.pcbs
  nextPcb := s.nextPcb
  cwd := s.cwd
  account := s.account
  handles := s.nextHandle

/-- The entries of the account when the data session `d` is allocated. -/
def Hold.opening (h : Hold) (d : ℕ) : List (Entry Resource) :=
  .acquire (.session d) :: if h.buffer then [.acquire (.buffer (some d))] else []

/-- The entries of the account when the data session `d` is closed. -/
def Hold.closing (h : Hold) (d : ℕ) : List (Entry Resource) :=
  (if h.buffer then [.release (.buffer (some d))] else []) ++ [.release (.session d)]

namespace View

/-- The control session is changed. -/
def setControl (v : View) (f : Control → Control) : View := { v with control := v.control.map f }

/-- The state of the control session is changed. -/
def setState (v : View) (state : FtpdState) : View := v.setControl fun c => { c with state }

/-- A data session is changed or added. -/
def put (v : View) (d : ℕ) (h : Hold) : View :=
  { v with sessions := Function.update v.sessions d (some h) }

/-- A data session is freed. -/
def drop (v : View) (d : ℕ) : View := { v with sessions := Function.update v.sessions d none }

/-- A control block is changed or added. -/
def putPcb (v : View) (i : ℕ) (p : Pcb) : View :=
  { v with pcbs := Function.update v.pcbs i (some p) }

/-- A control block is freed. -/
def dropPcb (v : View) (i : ℕ) : View := { v with pcbs := Function.update v.pcbs i none }

/-- Entries are added to the account. -/
def record (v : View) (es : List (Entry Resource)) : View := { v with account := v.account ++ es }

/-- The pointer to the current data session is cleared. -/
def forget (v : View) : View := v.setControl fun c => { c with current := none }

/-- The data session `d`, which holds `h`, is closed with the control block `i`, and the pointer
to the current session is cleared. -/
def close (v : View) (d i : ℕ) (h : Hold) : View :=
  ((v.forget.drop d).dropPcb i).record (h.closing d)

/-- A data session ends: it is closed, the pointers of the control session are cleared, and the
control session is idle. -/
def finish (v : View) (d i : ℕ) (h : Hold) : View :=
  (v.close d i h).setControl fun c => { c with current := none, pcb := none, state := .idle }

/-- A new data session becomes the current one. -/
def alloc (v : View) (h : Hold) : View :=
  { ((v.put v.next h).setControl fun c => { c with current := some v.next }).record
      (h.opening v.next) with
    next := v.next + 1 }

/-- The port counter is changed. -/
def setPort (v : View) (port : UInt16) : View := { v with port }

/-- A data session that points back to the control session. -/
def Owned (v : View) (d : ℕ) : Prop := ∃ h, v.sessions d = some h ∧ h.owned = true

section Lemmas

variable {v : View} {d d' i : ℕ} {h : Hold}

@[simp] lemma put_sessions_self : (v.put d h).sessions d = some h := Function.update_self _ _ _

lemma put_sessions_of_ne (hd : d' ≠ d) : (v.put d h).sessions d' = v.sessions d' :=
  Function.update_of_ne hd _ _

@[simp] lemma drop_sessions_self : (v.drop d).sessions d = none := Function.update_self _ _ _

lemma drop_sessions_of_ne (hd : d' ≠ d) : (v.drop d).sessions d' = v.sessions d' :=
  Function.update_of_ne hd _ _

@[simp] lemma alloc_sessions_next : (v.alloc h).sessions v.next = some h :=
  Function.update_self _ _ _

lemma alloc_sessions_of_ne (hd : d ≠ v.next) : (v.alloc h).sessions d = v.sessions d :=
  Function.update_of_ne hd _ _

@[simp] lemma putPcb_pcbs_self {p : Pcb} : (v.putPcb i p).pcbs i = some p :=
  Function.update_self _ _ _

@[simp] lemma putPcb_putPcb {p q : Pcb} : (v.putPcb i p).putPcb i q = v.putPcb i q := by
  rw [putPcb, putPcb, putPcb, Function.update_idem]

lemma dropPcb_pcbs_of_ne {j : ℕ} (hj : j ≠ i) : (v.dropPcb i).pcbs j = v.pcbs j :=
  Function.update_of_ne hj _ _

/-- Putting back what is there changes nothing. -/
lemma put_self (hd : v.sessions d = some h) : v.put d h = v := by
  rw [put, ← hd, Function.update_eq_self]

/-- What a session holds besides its buffer does not matter when it ends. -/
lemma finish_put (v : View) (d i : ℕ) {h h' : Hold} (hh : h'.buffer = h.buffer) :
    (v.put d h').finish d i h' = v.finish d i h := by
  simp only [finish, close, forget, put, drop, dropPcb, record, setControl, Function.update_idem,
    Hold.closing, hh]

lemma owned_iff (hd : v.sessions d = some h) : v.Owned d ↔ h.owned = true := by
  simp only [Owned, hd, Option.some.injEq, exists_eq_left']

@[simp] lemma owned_put : (v.put d h).Owned d ↔ h.owned = true := owned_iff put_sessions_self

lemma owned_put_of_ne (hd : d' ≠ d) : (v.put d h).Owned d' ↔ v.Owned d' := by
  rw [Owned, put_sessions_of_ne hd, Owned]

lemma not_owned_drop (v : View) (d : ℕ) : ¬ (v.drop d).Owned d := by
  rintro ⟨h, hh, -⟩
  rw [drop_sessions_self] at hh
  cases hh

lemma owned_drop_of_ne (hd : d' ≠ d) : (v.drop d).Owned d' ↔ v.Owned d' := by
  rw [Owned, drop_sessions_of_ne hd, Owned]

lemma owned_alloc_of_ne (hd : d ≠ v.next) : (v.alloc h).Owned d ↔ v.Owned d := by
  rw [Owned, alloc_sessions_of_ne hd, Owned]

end Lemmas

end View

lemma Sys.view_setMsg {s : Sys} {m m' : MsgState} {f : Control → Control}
    (hm : s.fsm = some m) (hf : m'.control = f m.control) :
    ({ s with fsm := some m' } : Sys).view = s.view.setControl f := by
  simp only [Sys.view, View.setControl, hm, Option.map_some, hf]

/-- A change of the control session that does not show. -/
lemma Sys.view_setMsg_same {s : Sys} {m m' : MsgState} (hm : s.fsm = some m)
    (hm' : m'.control = m.control) : ({ s with fsm := some m' } : Sys).view = s.view := by
  simp only [Sys.view, hm, Option.map_some, hm']

lemma Sys.view_setData (s : Sys) (d : ℕ) (x : DataState) :
    ({ s with data := Function.update s.data d (some x) } : Sys).view = s.view.put d x.hold :=
  View.ext rfl (Function.comp_update (Option.map DataState.hold) s.data d (some x))
    rfl rfl rfl rfl rfl rfl rfl

lemma Sys.view_dropData (s : Sys) (d : ℕ) :
    ({ s with data := Function.update s.data d none } : Sys).view = s.view.drop d :=
  View.ext rfl (Function.comp_update (Option.map DataState.hold) s.data d none)
    rfl rfl rfl rfl rfl rfl rfl

lemma Sys.view_control {s : Sys} {m : MsgState} (hm : s.fsm = some m) :
    s.view.control = some m.control := by
  simp only [Sys.view, hm, Option.map_some]

lemma Sys.view_sessions {s : Sys} {d : ℕ} {x : DataState} (hx : s.data d = some x) :
    s.view.sessions d = some x.hold := by
  simp only [Sys.view, hx, Option.map_some]

/-- A change of a data session that does not show. -/
lemma Sys.view_setData_same {s : Sys} {d : ℕ} {x y : DataState} (hx : s.data d = some x)
    (hy : y.hold = x.hold) :
    ({ s with data := Function.update s.data d (some y) } : Sys).view = s.view := by
  rw [Sys.view_setData, hy, View.put_self (Sys.view_sessions hx)]

/-! ### Functions that leave the sessions as they are -/

/-- The faults other than the use of a missing directory or file and a loop without end. -/
def OtherFault (f : Fault) : Prop := f ≠ .nullDir ∧ f ≠ .nullFile ∧ f ≠ .stuck

instance : DecidablePred OtherFault := fun f =>
  inferInstanceAs (Decidable (f ≠ .nullDir ∧ f ≠ .nullFile ∧ f ≠ .stuck))

/-- A program that leaves the sessions as they are. -/
abbrev Quiet {α : Type} (m : FtpdM α) : Prop := Keeps Sys.view OtherFault m

lemma quiet_getMsg : Quiet getMsg := fun _ =>
  wp_getMsg.mpr ⟨fun _ _ => rfl, fun _ => by decide⟩

lemma quiet_emit (a : Action) : Quiet (emit a) := fun _ => rfl

lemma quiet_note (c : Call) : Quiet (note c) := fun _ => rfl

lemma setMsg_view_same {s : Sys} {f : MsgState → MsgState}
    (hf : ∀ m, s.fsm = some m → (f m).control = m.control) :
    wp (setMsg f) (fun _ s' => s'.view = s.view) OtherFault s :=
  wp_setMsg.mpr ⟨fun m hm => Sys.view_setMsg_same hm (hf m hm), fun _ => by decide⟩

lemma quiet_setMsg {f : MsgState → MsgState} (hf : ∀ m, (f m).control = m.control) :
    Quiet (setMsg f) := fun _ => setMsg_view_same fun m _ => hf m

lemma setData_view_same {s : Sys} {d : ℕ} {f : DataState → DataState}
    (hf : ∀ x, s.data d = some x → (f x).hold = x.hold) :
    wp (setData d f) (fun _ s' => s'.view = s.view) OtherFault s :=
  wp_setData.mpr ⟨fun x hx => Sys.view_setData_same hx (hf x hx), fun _ => by decide⟩

lemma quiet_setData {d : ℕ} {f : DataState → DataState} (hf : ∀ x, (f x).hold = x.hold) :
    Quiet (setData d f) := fun _ => setData_view_same fun x _ => hf x

/-- Writing to a FIFO neither adds nor removes its buffer. -/
lemma sfifoWrite_isSome (f : Sfifo) (buf : List UInt8) :
    (sfifoWrite f buf).2.buffer.isSome = f.buffer.isSome := by
  unfold sfifoWrite
  cases hb : f.buffer with
  | none => simp [hb]
  | some mem =>
    dsimp only
    generalize (if (buf.length : ℤ) > sfifoSpace f then sfifoSpace f else (buf.length : ℤ)) = total
    split
    · rfl
    · rfl

lemma quiet_sendMsg (dr : Drain) (text : Str) : Quiet (sendMsg dr text) := by
  intro s
  unfold sendMsg
  dsimp only
  rw [wp_ite]
  refine ⟨fun _ => (by decide : OtherFault .overflow), fun _ => ?_⟩
  rw [wp_bind, wp_getMsg]
  refine ⟨fun m hm => ?_, fun _ => by decide⟩
  rw [wp_ite]
  refine ⟨fun _ => rfl, fun _ => ?_⟩
  have hset : wp (setMsg fun m' => { m' with
      fifo := (sendMsgdata (sfifoWrite m.fifo (text ++ lit "\r\n")).2 dr).2 })
      (fun _ s' => s'.view = s.view) OtherFault s := by
    refine setMsg_view_same fun m' hm' => ?_
    obtain rfl := Option.some.inj (hm.symm.trans hm')
    rw [MsgState.control, MsgState.control, sendMsgdata, sfifoDrain_buffer, sfifoWrite_isSome]
  refine wp_seq hset fun _ s₁ h₁ => ?_
  rw [wp_bind, wp_emit, wp_emit]
  exact h₁

lemma quiet_sendDataTo (pcb : Option ℕ) (d : ℕ) (dr : Drain) : Quiet (sendDataTo pcb d dr) := by
  intro s
  unfold sendDataTo
  rw [wp_bind, wp_getData]
  refine ⟨fun x hx => ?_, fun _ => by decide⟩
  rw [wp_ite]
  refine ⟨fun _ => ?_, fun _ => rfl⟩
  rw [wp_bind, wp_checkPcb]
  refine ⟨fun i _ p _ => ?_, fun _ => by decide, fun _ _ _ => by decide⟩
  have hset : wp (setData d fun y => { y with fifo := (sendData x.fifo dr).2 })
      (fun _ s' => s'.view = s.view) OtherFault s := by
    refine setData_view_same fun y hy => ?_
    obtain rfl := Option.some.inj (hx.symm.trans hy)
    rw [DataState.hold, DataState.hold, sendData, sfifoDrain_buffer]
  exact wp_seq hset fun _ s₁ h₁ => h₁

/-! ### Functions that change the sessions -/

lemma setMsg_view {f : MsgState → MsgState} {g : Control → Control}
    (hf : ∀ m, (f m).control = g m.control) (s : Sys) :
    wp (setMsg f) (fun _ s' => s.view.control ≠ none ∧ s'.view = s.view.setControl g)
      OtherFault s := by
  refine wp_setMsg.mpr ⟨fun m hm => ⟨?_, Sys.view_setMsg hm (hf m)⟩, fun _ => by decide⟩
  rw [Sys.view_control hm]
  exact Option.some_ne_none _

lemma setData_view {d : ℕ} {f : DataState → DataState} {g : Hold → Hold}
    (hf : ∀ x, (f x).hold = g x.hold) (s : Sys) :
    wp (setData d f) (fun _ s' => ∃ h, s.view.sessions d = some h ∧ s'.view = s.view.put d (g h))
      OtherFault s := by
  refine wp_setData.mpr ⟨fun x hx => ⟨x.hold, Sys.view_sessions hx, ?_⟩, fun _ => by decide⟩
  rw [Sys.view_setData, hf]

lemma setPcb_view (i : ℕ) (f : Pcb → Pcb) (s : Sys) :
    wp (setPcb (some i) f) (fun _ s' => ∃ p, s.view.pcbs i = some p ∧
      s'.view = s.view.putPcb i (f p)) OtherFault s := by
  refine wp_setPcb.mpr ⟨fun h => (by cases h), fun j hj p hp => ?_, fun _ _ _ => by decide⟩
  obtain rfl := Option.some.inj hj
  exact ⟨p, hp, rfl⟩

lemma checkMsgfs_view (d : ℕ) (s : Sys) :
    wp (checkMsgfs d) (fun _ s' => s' = s ∧ s.view.Owned d) OtherFault s :=
  wp_checkMsgfs.mpr ⟨fun x hx =>
    ⟨fun hmsgfs => ⟨rfl, x.hold, Sys.view_sessions hx, hmsgfs⟩, fun _ => by decide⟩,
    fun _ => by decide⟩

lemma freeData_view (d : ℕ) (s : Sys) :
    wp (freeData d) (fun _ s' => s'.view = (s.view.drop d).record [.release (.session d)])
      OtherFault s := by
  refine wp_freeData.mpr ⟨fun _ _ => ?_, fun _ => by decide⟩
  rw [← Sys.view_dropData]
  rfl

/-- Closing the file of a session that has one. -/
lemma closeFile_view {s : Sys} {d : ℕ} {x : DataState} (hx : s.data d = some x) {f : VfsFile}
    (hf : x.vfsFile = some f) :
    wp (closeFile d) (fun _ s' => x.hold.file = some x.fileHandle ∧
      s'.view = (s.view.put d { x.hold with file := none }).record
        [.release (.file x.fileHandle)]) OtherFault s := by
  rw [wp_closeFile, hx]
  refine ⟨?_, fun _ => by decide⟩
  rintro _ ⟨⟩
  refine ⟨by rw [DataState.hold, hf, Option.map_some], ?_⟩
  have hview := Sys.view_setData s d { x with vfsFile := none }
  exact congrArg (fun v : View => v.record [.release (.file x.fileHandle)]) hview

/-- Closing the directory of a session that has one. -/
lemma closeDir_view {s : Sys} {d : ℕ} {x : DataState} (hx : s.data d = some x)
    {es : List DirEntry} (hes : x.vfsDir = some es) :
    wp (closeDir d) (fun _ s' => x.hold.dir = some x.dirHandle ∧
      s'.view = (s.view.put d { x.hold with dir := none }).record
        [.release (.dir x.dirHandle)]) OtherFault s := by
  rw [wp_closeDir, hx]
  refine ⟨?_, fun _ => by decide⟩
  rintro _ ⟨⟩
  refine ⟨by rw [DataState.hold, hes, Option.map_some], ?_⟩
  have hview := Sys.view_setData s d { x with vfsDir := none }
  exact congrArg (fun v : View => v.record [.release (.dir x.dirHandle)]) hview

/-- The data session `d` can be closed with the control block `pcb`: it points back to the
control session, and the control block is there. -/
structure View.Closes (v : View) (d : ℕ) (pcb : Option ℕ) (i : ℕ) (h : Hold) : Prop where
  pcb : pcb = some i
  live : v.pcbs i ≠ none
  session : v.sessions d = some h
  owned : h.owned = true
  control : v.control ≠ none

/-- What a session holds besides its buffer and the pointer back does not matter when it ends
right after something of it was released. -/
lemma View.Closes.of_put {v : View} {d i : ℕ} {pcb : Option ℕ} {h h' h₀ : Hold}
    {es : List (Entry Resource)} (hc : ((v.put d h').record es).Closes d pcb i h)
    (hd : v.sessions d = some h₀) (howned : h'.owned = h₀.owned) (hbuffer : h'.buffer = h₀.buffer) :
    v.Closes d pcb i h₀ ∧
      ((v.put d h').record es).finish d i h = (v.record es).finish d i h₀ := by
  obtain rfl : h' = h := Option.some.inj (View.put_sessions_self.symm.trans hc.session)
  refine ⟨⟨hc.pcb, hc.live, hd, howned.symm.trans hc.owned, hc.control⟩, ?_⟩
  exact View.finish_put (v.record es) d i hbuffer

/-- The first step of `ftpd_dataclose` changes a control block that the last one frees. -/
lemma setPcb_view_dropPcb (pcb : Option ℕ) (f : Pcb → Pcb) (s : Sys) :
    wp (setPcb pcb f) (fun _ s' => ∃ pcbs, s' = { s with pcbs := pcbs } ∧
      ∀ i, pcb = some i → s.pcbs i ≠ none ∧
        Function.update pcbs i none = Function.update s.pcbs i none) OtherFault s := by
  refine wp_setPcb.mpr ⟨fun hnone => ⟨s.pcbs, rfl, fun i hi => ?_⟩, fun i hi p hp => ?_,
    fun _ _ _ => by decide⟩
  · rw [hnone] at hi
    cases hi
  · refine ⟨_, rfl, fun j hj => ?_⟩
    obtain rfl := Option.some.inj (hi.symm.trans hj)
    exact ⟨by rw [hp]; exact Option.some_ne_none _, Function.update_idem _ _ _⟩

/-- `ftpd_dataclose` frees a session that points back to the control session, whose pointer
to its current session is cleared, whichever session that is. -/
lemma ftpdDataclose_view (pcb : Option ℕ) (d : ℕ) (s : Sys) :
    wp (ftpdDataclose pcb d)
      (fun _ s' => ∃ i h, s.view.Closes d pcb i h ∧ s'.view = s.view.close d i h)
      OtherFault s := by
  unfold ftpdDataclose
  refine wp_seq (setPcb_view_dropPcb pcb _ s) ?_
  rintro _ _ ⟨pcbs, rfl, hpcbs⟩
  rw [wp_bind, wp_checkMsgfs]
  refine ⟨fun x hx => ⟨fun howned => ?_, fun _ => by decide⟩, fun _ => by decide⟩
  replace hx : s.data d = some x := hx
  rw [wp_bind, wp_setMsg]
  refine ⟨fun m hm => ?_, fun _ => by decide⟩
  replace hm : s.fsm = some m := hm
  rw [wp_bind, wp_closeFifo]
  refine ⟨fun y hy => ?_, fun _ => by decide⟩
  obtain rfl := Option.some.inj (hx.symm.trans hy)
  rw [wp_bind, wp_freeData]
  refine ⟨fun _ _ => ?_, fun _ => by decide⟩
  rw [wp_tcpClose]
  refine ⟨fun i hi p _ => ⟨i, x.hold, ?_, ?_⟩, fun _ => by decide, fun _ _ _ => by decide⟩
  · refine ⟨hi, (hpcbs i hi).1, Sys.view_sessions hx, howned, ?_⟩
    rw [Sys.view_control hm]
    exact Option.some_ne_none _
  · refine View.ext ?_ ?_ rfl rfl (hpcbs i hi).2 rfl rfl (List.append_assoc _ _ _) rfl
    · simp only [Sys.view, View.close, View.record, View.dropPcb, View.drop, View.forget,
        View.setControl, hm, Option.map_some]
      rfl
    · exact Function.comp_update (Option.map DataState.hold) s.data d none

/-- `ftpd_dataerr` -/
lemma ftpdDataerr_view (d : ℕ) (s : Sys) :
    wp (ftpdDataerr (some d))
      (fun _ s' => s.view.Owned d ∧ s.view.control ≠ none ∧
        s'.view = ((s.view.setControl fun c => { c with current := none, state := .idle }).drop
          d).record [.release (.session d)])
      OtherFault s := by
  unfold ftpdDataerr
  refine wp_seq (checkMsgfs_view d s) ?_
  rintro _ _ ⟨rfl, howned⟩
  refine wp_seq (setMsg_view (g := fun c => { c with current := none, state := .idle })
    (fun _ => rfl) _) ?_
  rintro _ s₂ ⟨hcontrol, h₂⟩
  refine wp_mono (freeData_view d s₂) (fun _ s' h' => ?_) fun _ he => he
  exact ⟨howned, hcontrol, by rw [h', h₂]⟩

/-- The end of a transfer. -/
lemma endTransfer_view (d : ℕ) (pcb : Option ℕ) (env : Env) (s : Sys) :
    wp (endTransfer d pcb env)
      (fun _ s' => ∃ i h, s.view.Closes d pcb i h ∧ s'.view = s.view.finish d i h)
      OtherFault s := by
  unfold endTransfer
  refine wp_seq (ftpdDataclose_view pcb d s) ?_
  rintro _ s₁ ⟨i, h, hcloses, h₁⟩
  refine wp_seq (setMsg_view (g := fun c => { c with current := none, pcb := none, state := .idle })
    (fun _ => rfl) _) ?_
  rintro _ s₂ ⟨-, h₂⟩
  refine wp_mono (quiet_sendMsg _ _ s₂) (fun _ s' h' => ?_) fun _ he => he
  exact ⟨i, h, hcloses, by rw [h', h₂, h₁, View.finish]⟩

/-! ### Serving a data connection -/

/-- What serving the data session `d` over the connection `pcb` does to the sessions: the end of
its file is read, or it ends when its file or its directory has been sent. -/
inductive View.Served (v : View) (d : ℕ) (pcb : Option ℕ) : View → Prop
  | same : Served v d pcb v
  | readEnd {c : Control} {h : Hold} {f : ℕ} (hc : v.control = some c) (hstate : c.state = .retr)
      (hd : v.sessions d = some h) (hfile : h.file = some f) :
      Served v d pcb ((v.put d { h with file := none }).record [.release (.file f)])
  | sentFile {c : Control} {h : Hold} {i : ℕ} (hc : v.control = some c) (hstate : c.state = .retr)
      (hcloses : v.Closes d pcb i h) (hfile : h.file = none) : Served v d pcb (v.finish d i h)
  | sentDir {c : Control} {h : Hold} {i f : ℕ} (hc : v.control = some c)
      (hstate : c.state ∈ [.list, .nlst]) (hcloses : v.Closes d pcb i h) (hdir : h.dir = some f) :
      Served v d pcb ((v.record [.release (.dir f)]).finish d i h)

/-- The faults of serving the data session `d`: a missing directory is used only when the
state says that there is one. -/
structure ServeFault (v : View) (d : ℕ) (f : Fault) : Prop where
  dir : f = .nullDir → ∃ c h, v.control = some c ∧ c.state ∈ [.list, .nlst] ∧
    v.sessions d = some h ∧ h.dir = none
  file : f ≠ .nullFile
  stuck : f ≠ .stuck

lemma OtherFault.serveFault {v : View} {d : ℕ} {f : Fault} (hf : OtherFault f) :
    ServeFault v d f := ⟨fun h => absurd h hf.1, hf.2.1, hf.2.2⟩

/-- Reading from a file or writing to it does not show, nor does what is in the FIFO. -/
lemma DataState.hold_setFile {x : DataState} {f : VfsFile} (hf : x.vfsFile = some f) (g : VfsFile)
    {fifo : Sfifo} (hfifo : fifo.buffer.isSome = x.fifo.buffer.isSome) :
    ({ x with vfsFile := some g, fifo := fifo } : DataState).hold = x.hold := by
  rw [DataState.hold, DataState.hold, hf, Option.map_some, Option.map_some, hfifo]

lemma sendFile_view {s : Sys} {c : Control} (hc : s.view.control = some c)
    (hstate : c.state = .retr) (d : ℕ) (pcb : Option ℕ) (env : Env) :
    wp (sendFile d pcb env) (fun _ s' => s.view.Served d pcb s'.view) OtherFault s := by
  unfold sendFile
  rw [wp_bind, wp_getData]
  refine ⟨fun x hx => ?_, fun _ => by decide⟩
  have hquiet : ∀ s₁ : Sys, s₁.view = s.view →
      wp (sendDataTo pcb d env.data) (fun _ s' => s.view.Served d pcb s'.view) OtherFault s₁ := by
    intro s₁ h₁
    refine wp_mono (quiet_sendDataTo pcb d env.data s₁) (fun _ s' h' => ?_) fun _ he => he
    rw [h', h₁]
    exact .same
  have hd : s.view.sessions d = some x.hold := Sys.view_sessions hx
  simp only [wp_ite, wp_pure]
  refine ⟨fun _ => .same, fun _ => ?_⟩
  cases hfile : x.vfsFile with
  | none =>
    simp only [wp_ite]
    refine ⟨fun _ => hquiet s rfl, fun _ => ?_⟩
    refine wp_mono (endTransfer_view d pcb env s) ?_ fun _ he => he
    rintro _ s' ⟨i, h, hcloses, h'⟩
    rw [h']
    refine .sentFile hc hstate hcloses ?_
    obtain rfl := Option.some.inj (hd.symm.trans hcloses.session)
    rw [DataState.hold, hfile, Option.map_none]
  | some file =>
    -- the session keeps its file unless the end of the file has been read
    simp only [wp_ite]
    refine ⟨fun _ => hquiet s rfl, fun _ => ⟨fun _ => ⟨fun _ => ?_, fun _ => ?_⟩, fun _ => ?_⟩⟩
    · refine wp_mono (closeFile_view hx hfile) ?_ fun _ he => he
      rintro _ s' ⟨hheld, h'⟩
      rw [h']
      exact .readEnd hc hstate hd hheld
    · refine wp_mono (setData_view_same fun y hy => ?_) (fun _ s' h' => ?_) fun _ he => he
      · obtain rfl := Option.some.inj (hx.symm.trans hy)
        exact DataState.hold_setFile hfile _ rfl
      · rw [h']
        exact .same
    · refine wp_seq (setData_view_same fun y hy => ?_) fun _ s' h' => hquiet s' h'
      obtain rfl := Option.some.inj (hx.symm.trans hy)
      exact DataState.hold_setFile hfile _ (sfifoWrite_isSome _ _)

/-- A session without a directory is served as a listing. -/
lemma serveFault_nullDir {s : Sys} {d : ℕ} {x : DataState} {c : Control}
    (hc : s.view.control = some c) (hstate : c.state ∈ [.list, .nlst]) (hx : s.data d = some x)
    (hdir : x.vfsDir = none) : ServeFault s.view d .nullDir := by
  refine ⟨fun _ => ⟨c, x.hold, hc, hstate, Sys.view_sessions hx, ?_⟩, by decide, by decide⟩
  rw [DataState.hold, hdir, Option.map_none]

/-- How many rounds of its loop `send_next_directory` makes at most: one for each entry, with
the one that is waiting for room, and the last one. -/
def DataState.rounds (x : DataState) : ℕ :=
  match x.vfsDirent with
  | none => (x.vfsDir.getD []).length + 1
  | some none => 1
  | some (some _) => (x.vfsDir.getD []).length + 2

lemma DataState.rounds_le (x : DataState) : x.rounds ≤ (x.vfsDir.getD []).length + 2 := by
  unfold DataState.rounds
  split <;> omega

/-- The next entry of a directory: the session keeps its directory, and no round is added. -/
lemma nextDirent_view {d : ℕ} {s : Sys} {c : Control} (hc : s.view.control = some c)
    (hstate : c.state ∈ [.list, .nlst]) {x : DataState} (hx : s.data d = some x) :
    wp (nextDirent d) (fun ent s' => s'.view = s.view ∧
      ∃ y, s'.data d = some y ∧ y.vfsDirent = some ent ∧ y.rounds ≤ x.rounds)
      (ServeFault s.view d) s := by
  unfold nextDirent
  rw [wp_bind, wp_getData, hx]
  refine ⟨?_, fun _ => OtherFault.serveFault (by decide)⟩
  rintro _ ⟨⟩
  cases hent : x.vfsDirent with
  | some ent => exact ⟨rfl, x, hx, hent, le_rfl⟩
  | none =>
    cases hdir : x.vfsDir with
    | none => exact serveFault_nullDir hc hstate hx hdir
    | some es =>
      rw [wp_bind, wp_setData, hx]
      refine ⟨?_, fun _ => OtherFault.serveFault (by decide)⟩
      rintro _ ⟨⟩
      refine ⟨Sys.view_setData_same hx ?_, _, Function.update_self _ _ _, rfl, ?_⟩
      · rw [DataState.hold, DataState.hold, hdir, Option.map_some, Option.map_some]
      · rw [DataState.rounds, DataState.rounds, hent, hdir]
        cases es with
        | nil => exact le_rfl
        | cons e es => exact le_rfl

lemma wp_serveFault {α : Type} {m : FtpdM α} {Q : α → Sys → Prop} {s : Sys} {v : View} {d : ℕ}
    (hm : wp m Q OtherFault s) : wp m Q (ServeFault v d) s :=
  wp_mono hm (fun _ _ h => h) fun _ he => he.serveFault

/-- The loop over the entries: the invariant is that the sessions are as at the start. -/
lemma sendDirLoop_view {d : ℕ} {c : Control} (hstate : c.state ∈ [.list, .nlst])
    (pcb : Option ℕ) (env : Env) (fuel : ℕ) :
    ∀ (s : Sys) (x : DataState), s.view.control = some c → s.data d = some x → x.rounds ≤ fuel →
      wp (sendDirLoop d pcb env fuel) (fun _ s' => s.view.Served d pcb s'.view)
        (ServeFault s.view d) s := by
  induction fuel with
  | zero =>
    intro s x _ _ hfuel
    unfold DataState.rounds at hfuel
    split at hfuel <;> omega
  | succ fuel ih =>
    intro s x hc hx hfuel
    have hquiet : ∀ s₁ : Sys, s₁.view = s.view →
        wp (sendDataTo pcb d env.data) (fun _ s' => s.view.Served d pcb s'.view)
          (ServeFault s.view d) s₁ := by
      intro s₁ h₁
      refine wp_mono (quiet_sendDataTo pcb d env.data s₁) (fun _ s' h' => ?_)
        fun _ he => he.serveFault
      rw [h', h₁]
      exact .same
    rw [sendDirLoop]
    refine wp_seq (nextDirent_view hc hstate hx) ?_
    rintro (_ | e) s₁ ⟨h₁, y, hy, hent, hrounds⟩
    · rw [wp_bind, wp_getData, hy]
      refine ⟨?_, fun _ => OtherFault.serveFault (by decide)⟩
      rintro _ ⟨⟩
      rw [wp_ite]
      refine ⟨fun _ => hquiet s₁ h₁, fun _ => ?_⟩
      cases hdir : y.vfsDir with
      | none => exact h₁ ▸ serveFault_nullDir (h₁ ▸ hc) hstate hy hdir
      | some es =>
        refine wp_seq (wp_serveFault (closeDir_view hy hdir)) ?_
        rintro _ s₂ ⟨hheld, h₂⟩
        refine wp_mono (endTransfer_view d pcb env s₂) ?_ fun _ he => he.serveFault
        rintro _ s' ⟨i, h, hcloses, h'⟩
        rw [h₂, h₁] at hcloses h'
        have hd : s.view.sessions d = some y.hold := h₁ ▸ Sys.view_sessions hy
        obtain ⟨hcloses, hfinish⟩ := hcloses.of_put hd rfl rfl
        rw [h', hfinish]
        exact .sentDir hc hstate hcloses hheld
    · dsimp only
      rw [wp_ite]
      refine ⟨fun _ => OtherFault.serveFault (by decide), fun _ => ?_⟩
      rw [wp_bind, wp_getData, hy]
      refine ⟨?_, fun _ => OtherFault.serveFault (by decide)⟩
      rintro _ ⟨⟩
      rw [wp_ite]
      refine ⟨fun _ => hquiet s₁ h₁, fun _ => ?_⟩
      rw [wp_bind, wp_setData, hy]
      refine ⟨?_, fun _ => OtherFault.serveFault (by decide)⟩
      rintro _ ⟨⟩
      have hview := (Sys.view_setData_same hy (y := { y with
        fifo := (sfifoWrite y.fifo (dirLine e)).2, vfsDirent := none })
        (by rw [DataState.hold, DataState.hold, sfifoWrite_isSome])).trans h₁
      rw [← hview]
      refine ih _ _ (by rw [hview, hc]) (Function.update_self _ _ _) ?_
      -- the entry has been used up: one round less
      have hleft := hrounds.trans hfuel
      rw [DataState.rounds, hent] at hleft
      exact Nat.le_of_succ_le_succ hleft

/-- The `switch` on the state of the control session. -/
lemma serve_view (d : ℕ) (pcb : Option ℕ) (env : Env) (s : Sys) :
    wp (serve d pcb env) (fun _ s' => s.view.Served d pcb s'.view) (ServeFault s.view d) s := by
  unfold serve
  rw [wp_bind, wp_getMsg]
  refine ⟨fun m hm => ?_, fun _ => OtherFault.serveFault (by decide)⟩
  have hc : s.view.control = some m.control := Sys.view_control hm
  have hlist : m.state ∈ [.list, .nlst] → ∀ shortlist,
      wp (sendNextDirectory d pcb shortlist env) (fun _ s' => s.view.Served d pcb s'.view)
        (ServeFault s.view d) s := by
    intro hstate shortlist
    rw [sendNextDirectory, wp_bind, wp_getData]
    refine ⟨fun x hx => ?_, fun _ => OtherFault.serveFault (by decide)⟩
    rw [wp_bind, wp_setData, hx]
    refine ⟨?_, fun _ => OtherFault.serveFault (by decide)⟩
    rintro _ ⟨⟩
    have hview := Sys.view_setData_same hx
      (y := { x with vfsDirent := x.vfsDirent.map env.stale.getD }) rfl
    rw [← hview] at hc ⊢
    refine sendDirLoop_view hstate pcb env _ _ _ hc (Function.update_self _ _ _) ?_
    exact DataState.rounds_le { x with vfsDirent := x.vfsDirent.map env.stale.getD }
  cases hstate : m.state with
  | list => exact hlist (by simp [hstate]) false
  | nlst => exact hlist (by simp [hstate]) true
  | retr => exact wp_serveFault (sendFile_view hc hstate d pcb env)
  | _ => exact .same

/-! ### Receiving on a data connection -/

/-- The faults of receiving for the data session `d`: a missing file is used only by a
session that has none. -/
structure RecvFault (v : View) (d : ℕ) (f : Fault) : Prop where
  dir : f ≠ .nullDir
  file : f = .nullFile → ∃ h, v.sessions d = some h ∧ h.file = none
  stuck : f ≠ .stuck

lemma OtherFault.recvFault {v : View} {d : ℕ} {f : Fault} (hf : OtherFault f) :
    RecvFault v d f := ⟨hf.1, fun h => absurd h hf.2.1, hf.2.2⟩

lemma recvFault_nullFile {s : Sys} {d : ℕ} {x : DataState} (hx : s.data d = some x)
    (hfile : x.vfsFile = none) : RecvFault s.view d .nullFile := by
  refine ⟨by decide, fun _ => ⟨x.hold, Sys.view_sessions hx, ?_⟩, by decide⟩
  rw [DataState.hold, hfile, Option.map_none]

/-- The loop over the members of a packet: the session keeps its file. -/
lemma recvLoop_view (d : ℕ) (p : Chain) :
    ∀ (ks : List ℕ) (s : Sys),
      wp (recvLoop d p ks) (fun _ s' => s'.view = s.view) (RecvFault s.view d) s := by
  induction p with
  | nil => exact fun ks s => rfl
  | cons seg p ih =>
    intro ks s
    rw [recvLoop, wp_bind, wp_getData]
    refine ⟨fun x hx => ?_, fun _ => OtherFault.recvFault (by decide)⟩
    cases hfile : x.vfsFile with
    | none => exact recvFault_nullFile hx hfile
    | some file =>
      dsimp only
      refine wp_seq (wp_mono (setData_view_same fun y hy => ?_) (fun _ s' h' => h')
        fun _ he => he.recvFault) fun _ s₁ h₁ => ?_
      · obtain rfl := Option.some.inj (hx.symm.trans hy)
        exact DataState.hold_setFile hfile _ rfl
      · rw [wp_ite, ← h₁]
        exact ⟨fun _ => ih ks.tail s₁, fun _ => rfl⟩

/-- `ftpd_datarecv` for the data session `d`: at the end of the connection the session ends and
its file is closed. -/
lemma ftpdDatarecv_view (d pcb : ℕ) (p : Option Chain) (env : Env) (s : Sys) :
    wp (ftpdDatarecv (some d) pcb p env)
      (fun _ s' => s'.view = s.view ∨
        p = none ∧ ∃ h f, s.view.Closes d (some pcb) pcb h ∧ h.file = some f ∧
          s'.view = (s.view.record [.release (.file f)]).finish d pcb h)
      (RecvFault s.view d) s := by
  rw [ftpdDatarecv, wp_bind, wp_checkArg]
  refine ⟨fun d' hd' => ?_, fun h => by cases h⟩
  obtain rfl := Option.some.inj hd'
  cases p with
  | some p => exact wp_mono (recvLoop_view d p env.write s) (fun _ s' h' => .inl h') fun _ he => he
  | none =>
    rw [wp_bind, wp_getData]
    refine ⟨fun x hx => ?_, fun _ => OtherFault.recvFault (by decide)⟩
    cases hfile : x.vfsFile with
    | none => exact recvFault_nullFile hx hfile
    | some file =>
      refine wp_seq (wp_mono (closeFile_view hx hfile) (fun _ s' h' => h')
        fun _ he => he.recvFault) ?_
      rintro _ s₁ ⟨hheld, h₁⟩
      refine wp_mono (endTransfer_view d (some pcb) env s₁) ?_ fun _ he => he.recvFault
      rintro _ s' ⟨i, h, hcloses, h'⟩
      obtain rfl := Option.some.inj hcloses.pcb
      rw [h₁] at hcloses h'
      obtain ⟨hcloses, hfinish⟩ := hcloses.of_put (Sys.view_sessions hx) rfl rfl
      exact .inr ⟨rfl, x.hold, x.fileHandle, hcloses, hheld, h'.trans hfinish⟩

end Teensy41Ethernet.Ftpd
