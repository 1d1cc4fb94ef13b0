import Teensy41Ethernet.Ftpd.Deeds
import Teensy41Ethernet.Ftpd.Links

/-!
# Callbacks that use no freed object

A pointer to a freed session or control block can stay behind in three places: as the argument
of a control block, in `fsm->datafs` and in `fsm->datapcb`.  It does no harm until a callback
follows it.  `UsesLive` says of a callback, in the state it comes in, that it follows no such
pointer, and the main result, `handle_ne_freed`, is that it then uses no freed object at all.
Only `ABOR` with a current data session always does: it frees the control session itself.
-/

namespace Teensy41Ethernet.Ftpd

open Lib Lwip

/-! ### The condition -/

/-- Whether TCP makes the callback for a control block, as far as callbacks are registered. -/
def Pcb.hears (p : Pcb) : Callback → Bool
  | .sent _ => p.sent
  | .recv _ _ => p.recv
  | .dataerr _ => p.err
  | _ => true

/-- A callback for a data connection finds the control session, and the data session that its
argument points to. -/
def ArgLive (s : Sys) (e : Event) : Prop :=
  ∀ i ∈ e.callback.pcb, ∀ p ∈ s.pcbs i, p.hears e.callback = true →
    s.fsm.isSome = true ∧ ∀ d ∈ p.arg, (s.data d).isSome = true

/-- The callback follows `fsm->datafs`: the timer, the end of the control session, and the start
of a transfer over a passive connection. -/
def FollowsDatafs (s : Sys) (e : Event) (m : MsgState) : Prop :=
  e.callback = .msgpoll ∨ Ends s e ∨
    m.passive = true ∧ ∃ c ∈ e.command, (c.transfer e.env).isSome = true

/-- The callback follows `fsm->datapcb`: the timer, if the current data session is connected, and
the end of the control session. -/
def FollowsDatapcb (s : Sys) (e : Event) (x : DataState) : Prop :=
  e.callback = .msgpoll ∧ x.connected = true ∨ Ends s e

/-- Where the callback follows the pointers of the control session, they are live. -/
def CurrentLive (s : Sys) (e : Event) : Prop :=
  ∀ m ∈ s.fsm, ∀ d ∈ m.datafs, (FollowsDatafs s e m → (s.data d).isSome = true) ∧
    ∀ x ∈ s.data d, FollowsDatapcb s e x → ∀ i ∈ m.datapcb, (s.pcbs i).isSome = true

/-- `ABOR` comes only when there is no current data session. -/
def AbortsNothing (s : Sys) (e : Event) : Prop :=
  ∀ m ∈ s.fsm, e.command = some .abrt → m.datafs = none

/-- The callback follows no pointer to a freed object. -/
def UsesLive (s : Sys) (e : Event) : Prop := ArgLive s e ∧ CurrentLive s e ∧ AbortsNothing s e

instance (s : Sys) (e : Event) (m : MsgState) : Decidable (FollowsDatafs s e m) := by
  unfold FollowsDatafs
  infer_instance

instance (s : Sys) (e : Event) (x : DataState) : Decidable (FollowsDatapcb s e x) := by
  unfold FollowsDatapcb
  infer_instance

instance (s : Sys) (e : Event) : Decidable (UsesLive s e) := by
  unfold UsesLive ArgLive CurrentLive AbortsNothing
  infer_instance

/-! ### Functions on live objects -/

/-- The control session is there, and the data session and the control block, if they are given. -/
structure Usable (d pcb : Option ℕ) (s : Sys) : Prop where
  fsm : s.fsm ≠ none
  data : ∀ k, d = some k → s.data k ≠ none
  pcb : ∀ i, pcb = some i → s.pcbs i ≠ none

/-- The fault is not the use of a freed object. -/
def NotFreed (f : Fault) : Prop := f ≠ .freed

instance : DecidablePred NotFreed := fun f => inferInstanceAs (Decidable (f ≠ .freed))

/-- With these objects the program uses no freed object, and they are still there when it
returns. -/
abbrev SafeWith (d pcb : Option ℕ) {α : Type} (m : FtpdM α) : Prop := Safe (Usable d pcb) NotFreed m

section Primitives

variable {k : ℕ} {d pcb : Option ℕ} {s : Sys}

lemma usable_control (hfsm : s.fsm ≠ none) : Usable none none s :=
  ⟨hfsm, fun _ hk => (by cases hk), fun _ hi => (by cases hi)⟩

lemma usable_session {m : MsgState} {x : DataState} (hm : s.fsm = some m)
    (hx : s.data k = some x) (hpcb : ∀ i, pcb = some i → s.pcbs i ≠ none) :
    Usable (some k) pcb s := by
  refine ⟨ne_of_eq_of_ne hm (Option.some_ne_none m), ?_, hpcb⟩
  rintro _ ⟨⟩
  exact ne_of_eq_of_ne hx (Option.some_ne_none x)

lemma Usable.noPcb (h : Usable d pcb s) : Usable d none s :=
  ⟨h.fsm, h.data, fun _ hi => (by cases hi)⟩

/-- A state that shows the same objects. -/
lemma Usable.congr (h : Usable d pcb s) {s' : Sys} (hfsm : s'.fsm = s.fsm)
    (hdata : s'.data = s.data) (hpcbs : s'.pcbs = s.pcbs) : Usable d pcb s' :=
  ⟨hfsm ▸ h.fsm, hdata ▸ h.data, hpcbs ▸ h.pcb⟩

lemma Usable.setData (h : Usable d pcb s) (k : ℕ) (x : DataState) :
    Usable d pcb { s with data := Function.update s.data k (some x) } := by
  refine ⟨h.fsm, fun k' hk' => ?_, h.pcb⟩
  dsimp only
  by_cases hkk : k' = k
  · rw [hkk, Function.update_self]
    exact Option.some_ne_none x
  · rw [Function.update_of_ne hkk]
    exact h.data k' hk'

/-- A data session is freed that is not used. -/
lemma Usable.free (h : Usable none pcb s) (k : ℕ) {account : List (Entry Resource)} :
    Usable none pcb { s with data := Function.update s.data k none, account := account } :=
  ⟨h.fsm, fun _ hk => (by cases hk), h.pcb⟩

lemma safeWith_getMsg : SafeWith d pcb getMsg := fun _ h =>
  wp_getMsg.mpr ⟨fun _ _ => h, fun hnone => absurd hnone h.fsm⟩

lemma safeWith_setMsg (f : MsgState → MsgState) : SafeWith d pcb (setMsg f) := fun _ h =>
  wp_setMsg.mpr ⟨fun _ _ => ⟨Option.some_ne_none _, h.data, h.pcb⟩, fun hnone => absurd hnone h.fsm⟩

lemma safeWith_getData : SafeWith (some k) pcb (getData k) := fun _ h =>
  wp_getData.mpr ⟨fun _ _ => h, fun hnone => absurd hnone (h.data k rfl)⟩

lemma safeWith_setData (f : DataState → DataState) :
    SafeWith (some k) pcb (setData k f) := fun _ h =>
  wp_setData.mpr ⟨fun _ _ => h.setData k _, fun hnone => absurd hnone (h.data k rfl)⟩

lemma safeWith_emit (a : Action) : SafeWith d pcb (emit a) := fun _ h => h.congr rfl rfl rfl

lemma safeWith_note (c : Call) : SafeWith d pcb (note c) := fun _ h => h.congr rfl rfl rfl

lemma safeWith_record (es : List (Entry Resource)) : SafeWith d pcb (record es) := fun _ h =>
  h.congr rfl rfl rfl

lemma safeWith_checkMsgfs : SafeWith (some k) pcb (checkMsgfs k) := fun _ h =>
  wp_checkMsgfs.mpr ⟨fun _ _ => ⟨fun _ => h, fun _ => (by decide : NotFreed .nullMsgfs)⟩,
    fun hnone => absurd hnone (h.data k rfl)⟩

lemma safeWith_checkPcb : SafeWith d pcb (checkPcb pcb) := fun _ h =>
  wp_checkPcb.mpr ⟨fun _ _ _ _ => h, fun _ => (by decide : NotFreed .nullPcb),
    fun i hi hnone => absurd hnone (h.pcb i hi)⟩

lemma safeWith_setPcb (f : Pcb → Pcb) : SafeWith d pcb (setPcb pcb f) := by
  refine fun s h => wp_setPcb.mpr ⟨fun _ => h, fun i hi p _ => ⟨h.fsm, h.data, ?_⟩,
    fun i hi hnone => absurd hnone (h.pcb i hi)⟩
  rintro j hj
  obtain rfl := Option.some.inj (hi.symm.trans hj)
  dsimp only
  rw [Function.update_self]
  exact Option.some_ne_none _

lemma newPcb_usable (h : Usable d pcb s) (p : Pcb) :
    wp (newPcb p) (fun i s' => Usable d (some i) s') NotFreed s := by
  refine ⟨h.fsm, h.data, ?_⟩
  rintro _ ⟨⟩
  dsimp only
  rw [Function.update_self]
  exact Option.some_ne_none p

lemma safeWith_closeFifo : SafeWith (some k) pcb (closeFifo k) := fun _ h =>
  wp_closeFifo.mpr ⟨fun _ _ => h.congr rfl rfl rfl, fun hnone => absurd hnone (h.data k rfl)⟩

lemma safeWith_closeFile : SafeWith (some k) pcb (closeFile k) :=
  safeWith_getData.bind fun _ => (safeWith_record _).bind fun _ => safeWith_setData _

lemma safeWith_closeDir : SafeWith (some k) pcb (closeDir k) :=
  safeWith_getData.bind fun _ => (safeWith_record _).bind fun _ => safeWith_setData _

lemma safeWith_sendMsg (dr : Drain) (text : Str) : SafeWith d pcb (sendMsg dr text) := by
  intro s h
  unfold sendMsg
  dsimp only
  rw [wp_ite]
  refine ⟨fun _ => (by decide : NotFreed .overflow), fun _ => ?_⟩
  refine (safeWith_getMsg.bind fun m => safe_ite (safeWith_emit _) ?_) s h
  exact (safeWith_setMsg _).bind fun _ => (safeWith_emit _).bind fun _ => safeWith_emit _

lemma safeWith_sendDataTo (dr : Drain) : SafeWith (some k) pcb (sendDataTo pcb k dr) :=
  safeWith_getData.bind fun _ => safe_ite
    (safeWith_checkPcb.bind fun _ => (safeWith_setData _).bind fun _ => safeWith_emit _)
    (safe_pure _)

/-- Closing a data session: the control session is left. -/
lemma ftpdDataclose_usable (h : Usable (some k) pcb s) :
    wp (ftpdDataclose pcb k) (fun _ s' => Usable none none s') NotFreed s := by
  unfold ftpdDataclose
  refine (safeWith_setPcb _).wp_seq h fun _ s₁ h₁ => ?_
  refine safeWith_checkMsgfs.wp_seq h₁ fun _ s₂ h₂ => ?_
  refine (safeWith_setMsg _).wp_seq h₂ fun _ s₃ h₃ => ?_
  refine safeWith_closeFifo.wp_seq h₃ fun _ s₄ h₄ => ?_
  rw [wp_bind, wp_freeData]
  refine ⟨fun x _ => ?_, fun hnone => absurd hnone (h₄.data k rfl)⟩
  rw [wp_tcpClose]
  refine ⟨fun i _ p _ => ?_, fun _ => (by decide : NotFreed .nullPcb), fun i hi hnone => ?_⟩
  · exact usable_control h₄.fsm
  · exact absurd hnone (h₄.pcb i hi)

lemma endTransfer_usable (h : Usable (some k) pcb s) (env : Env) :
    wp (endTransfer k pcb env) (fun _ _ => True) NotFreed s := by
  unfold endTransfer
  refine wp_seq (ftpdDataclose_usable h) fun _ s₁ h₁ => ?_
  exact ((safeWith_setMsg _).bind fun _ => safeWith_sendMsg _ _).ends h₁

end Primitives

/-! ### Serving a data session -/

section Serving

variable {k : ℕ} {pcb : Option ℕ} {s : Sys}

lemma sendFile_usable (h : Usable (some k) pcb s) (env : Env) :
    wp (sendFile k pcb env) (fun _ _ => True) NotFreed s := by
  unfold sendFile
  refine safeWith_getData.wp_seq h fun x s₁ h₁ => ?_
  rw [wp_ite]
  refine ⟨fun _ => trivial, fun _ => ?_⟩
  cases x.vfsFile with
  | none =>
    dsimp only
    rw [wp_ite]
    exact ⟨fun _ => (safeWith_sendDataTo _).ends h₁, fun _ => endTransfer_usable h₁ env⟩
  | some file =>
    refine Safe.ends (P := Usable (some k) pcb) ?_ h₁
    refine safe_ite (safeWith_sendDataTo _) (safe_ite ?_ ?_)
    · exact safe_ite safeWith_closeFile (safeWith_setData _)
    · exact (safeWith_setData _).bind fun _ => safeWith_sendDataTo _

lemma safeWith_nextDirent : SafeWith (some k) pcb (nextDirent k) := by
  refine safeWith_getData.bind fun x => ?_
  cases x.vfsDirent with
  | some ent => exact safe_pure ent
  | none =>
    cases x.vfsDir with
    | none => exact safe_throw (by decide)
    | some es => exact (safeWith_setData _).bind fun _ => safe_pure _

/-- The loop over the directory. -/
lemma sendDirLoop_usable (env : Env) (fuel : ℕ) :
    ∀ s, Usable (some k) pcb s →
      wp (sendDirLoop k pcb env fuel) (fun _ _ => True) NotFreed s := by
  induction fuel with
  | zero => exact fun _ _ => (by decide : NotFreed .stuck)
  | succ fuel ih =>
    intro s h
    rw [sendDirLoop]
    refine safeWith_nextDirent.wp_seq h fun ent s₁ h₁ => ?_
    cases ent with
    | some e =>
      dsimp only
      rw [wp_ite]
      refine ⟨fun _ => (by decide : NotFreed .overflow), fun _ => ?_⟩
      refine safeWith_getData.wp_seq h₁ fun x s₂ h₂ => ?_
      rw [wp_ite]
      refine ⟨fun _ => (safeWith_sendDataTo _).ends h₂, fun _ => ?_⟩
      exact (safeWith_setData _).wp_seq h₂ fun _ s₃ h₃ => ih s₃ h₃
    | none =>
      dsimp only
      refine safeWith_getData.wp_seq h₁ fun x s₂ h₂ => ?_
      rw [wp_ite]
      refine ⟨fun _ => (safeWith_sendDataTo _).ends h₂, fun _ => ?_⟩
      cases x.vfsDir with
      | none => exact (by decide : NotFreed .nullDir)
      | some es => exact safeWith_closeDir.wp_seq h₂ fun _ s₃ h₃ => endTransfer_usable h₃ env

lemma serve_usable (h : Usable (some k) pcb s) (env : Env) :
    wp (serve k pcb env) (fun _ _ => True) NotFreed s := by
  have hlist : ∀ shortlist s₁, Usable (some k) pcb s₁ →
      wp (sendNextDirectory k pcb shortlist env) (fun _ _ => True) NotFreed s₁ := by
    intro shortlist s₁ h₁
    unfold sendNextDirectory
    refine safeWith_getData.wp_seq h₁ fun x s₂ h₂ => ?_
    exact (safeWith_setData _).wp_seq h₂ fun _ s₃ h₃ => sendDirLoop_usable env _ s₃ h₃
  unfold serve
  refine safeWith_getMsg.wp_seq h fun m s₁ h₁ => ?_
  cases m.state with
  | list => exact hlist false s₁ h₁
  | nlst => exact hlist true s₁ h₁
  | retr => exact sendFile_usable h₁ env
  | _ => trivial

lemma dataOpened_usable {arg : Option ℕ} (h : Usable arg pcb s) (env : Env) :
    wp (dataOpened arg pcb env) (fun _ _ => True) NotFreed s := by
  cases arg with
  | none => exact (by decide : NotFreed .nullArg)
  | some k =>
    unfold dataOpened checkArg
    rw [wp_bind, wp_pure]
    refine safeWith_checkMsgfs.wp_seq h fun _ s₁ h₁ => ?_
    refine (safeWith_setMsg _).wp_seq h₁ fun _ s₂ h₂ => ?_
    refine (safeWith_setData _).wp_seq h₂ fun _ s₃ h₃ => ?_
    exact (safeWith_setPcb _).wp_seq h₃ fun _ s₄ h₄ => serve_usable h₄ env

lemma ftpdDatasent_usable {arg : Option ℕ} {i : ℕ} (h : Usable arg (some i) s) (env : Env) :
    wp (ftpdDatasent arg i env) (fun _ _ => True) NotFreed s := by
  cases arg with
  | none => exact (by decide : NotFreed .nullArg)
  | some k =>
    unfold ftpdDatasent checkArg
    rw [wp_bind, wp_pure]
    exact safeWith_checkMsgfs.wp_seq h fun _ s₁ h₁ => serve_usable h₁ env

lemma safeWith_recvLoop (p : Chain) : ∀ ks, SafeWith (some k) pcb (recvLoop k p ks) := by
  induction p with
  | nil => exact fun _ => safe_pure _
  | cons seg p ih =>
    intro ks
    rw [recvLoop]
    refine safeWith_getData.bind fun x => ?_
    cases x.vfsFile with
    | none => exact safe_throw (by decide)
    | some file => exact (safeWith_setData _).bind fun _ => safe_ite (ih _) (safe_pure _)

lemma ftpdDatarecv_usable {arg : Option ℕ} {i : ℕ} (h : Usable arg (some i) s)
    (p : Option Chain) (env : Env) :
    wp (ftpdDatarecv arg i p env) (fun _ _ => True) NotFreed s := by
  cases arg with
  | none => exact (by decide : NotFreed .nullArg)
  | some k =>
    unfold ftpdDatarecv checkArg
    rw [wp_bind, wp_pure]
    cases p with
    | some p => exact (safeWith_recvLoop p _).ends h
    | none =>
      dsimp only
      refine safeWith_getData.wp_seq h fun x s₁ h₁ => ?_
      cases x.vfsFile with
      | none => exact (by decide : NotFreed .nullFile)
      | some file => exact safeWith_closeFile.wp_seq h₁ fun _ s₂ h₂ => endTransfer_usable h₂ env

lemma ftpdDataerr_usable {arg : Option ℕ} (h : Usable arg none s) :
    wp (ftpdDataerr arg) (fun _ _ => True) NotFreed s := by
  cases arg with
  | none => trivial
  | some k =>
    unfold ftpdDataerr
    refine safeWith_checkMsgfs.wp_seq h fun _ s₁ h₁ => ?_
    refine (safeWith_setMsg _).wp_seq h₁ fun _ s₂ h₂ => ?_
    rw [wp_freeData]
    exact ⟨fun _ _ => trivial, fun hnone => absurd hnone (h₂.data k rfl)⟩

end Serving

/-! ### Commands -/

/-- `fsm->datafs` is null or points to a data session. -/
def Sys.DatafsLive (s : Sys) : Prop :=
  ∀ m, s.fsm = some m → ∀ d, m.datafs = some d → s.data d ≠ none

/-- The control session is there, and so is its data session in the passive mode. -/
structure Startable (s : Sys) : Prop where
  control : Usable none none s
  passive : ∀ m, s.fsm = some m → m.passive = true → s.DatafsLive

section Commands

variable {s : Sys} {env : Env}

lemma Sys.Current.usable (h : s.Current) : Usable none none s ∧ s.DatafsLive := by
  obtain ⟨m, d, x, hm, hd, hx⟩ := h
  refine ⟨usable_control (ne_of_eq_of_ne hm (Option.some_ne_none m)), fun m' hm' d' hd' => ?_⟩
  obtain rfl := Option.some.inj (hm.symm.trans hm')
  obtain rfl := Option.some.inj (hd.symm.trans hd')
  exact ne_of_eq_of_ne hx (Option.some_ne_none x)

lemma Startable.congr (h : Startable s) {s' : Sys} (hfsm : s'.fsm = s.fsm)
    (hdata : s'.data = s.data) : Startable s' := by
  refine ⟨usable_control (hfsm ▸ h.control.fsm), fun m hm hp m' hm' d hd => ?_⟩
  rw [hdata]
  exact h.passive m (hfsm ▸ hm) hp m' (hfsm ▸ hm') d hd

/-- A reply changes neither the pointers nor the mode. -/
lemma sendMsg_startable (dr : Drain) (text : Str) : Safe Startable NotFreed (sendMsg dr text) := by
  intro s h
  obtain ⟨m, hm⟩ := Option.ne_none_iff_exists'.mp h.control.fsm
  refine wp_mono (wp_and (safeWith_sendMsg dr text s h.control) (sendMsg_does hm dr text)) ?_
    fun _ hf => hf
  rintro _ s' ⟨hcontrol, -, -, fifo, log, rfl⟩
  refine ⟨hcontrol, fun m₁ hm₁ hpassive m₂ hm₂ => ?_⟩
  obtain rfl := Option.some.inj hm₁
  obtain rfl := Option.some.inj hm₂
  exact h.passive m hm hpassive m hm

lemma openDataconnection_usable (h : Startable s) (dr : Drain) :
    wp (openDataconnection dr env)
      (fun b s' => Usable none none s' ∧ (b = true → s'.DatafsLive)) NotFreed s := by
  obtain ⟨m, hm⟩ := Option.ne_none_iff_exists'.mp h.control.fsm
  unfold openDataconnection
  rw [wp_bind, wp_getMsg_of hm]
  rw [wp_ite]
  refine ⟨fun hp => ⟨h.control, fun _ => h.passive m hm hp⟩, fun _ => ?_⟩
  rw [wp_ite]
  refine ⟨fun _ => ?_, fun _ => ?_⟩
  · refine (safeWith_setMsg _).wp_seq h.control fun _ s₁ h₁ => ?_
    refine (safeWith_sendMsg _ _).wp_seq h₁ fun _ s₂ h₂ => ?_
    exact ⟨h₂, fun hb => absurd hb Bool.false_ne_true⟩
  · refine wp_mono (openActive_does hm) ?_ ?_
    · rintro b s' ⟨-, -, -, hcurrent⟩
      exact ⟨hcurrent.usable.1, fun _ => hcurrent.usable.2⟩
    · rintro _ ⟨rfl, -⟩
      decide

lemma installTransfer_usable (h : Usable none none s) (hlive : s.DatafsLive)
    (f : DataState → DataState) (state : FtpdState) :
    wp (installTransfer f state) (fun _ s' => Usable none none s') NotFreed s := by
  refine wp_installTransfer.mpr ⟨fun m hm => ⟨fun d hd => ⟨fun x _ => ?_, ?_⟩, ?_⟩, ?_⟩
  · exact ⟨Option.some_ne_none _, fun _ hk => (by cases hk), fun _ hi => (by cases hi)⟩
  · exact fun hnone => absurd hnone (hlive m hm d hd)
  · exact fun _ => (by decide : NotFreed .nullDatafs)
  · exact fun hnone => absurd hnone h.fsm

lemma startTransfer_usable (h : Startable s) (file : VfsFile) (handle : ℕ) (text : Str)
    (state : FtpdState) :
    wp (startTransfer file handle text state env) (fun _ _ => True) NotFreed s := by
  unfold startTransfer
  refine (sendMsg_startable _ _).wp_seq h fun _ s₁ h₁ => ?_
  refine wp_seq (openDataconnection_usable h₁ _) ?_
  rintro b s₂ ⟨h₂, hlive⟩
  rw [wp_ite]
  refine ⟨fun hb => ?_, fun _ => trivial⟩
  exact wp_mono (installTransfer_usable h₂ (hlive hb) _ _) (fun _ _ _ => trivial) fun _ hf => hf

/-- Opening a file: nothing but the handles and the calls changes before the transfer starts. -/
lemma openFile_usable (h : Usable none none s)
    (hpassive : env.openFile.isSome = true → Startable s) (arg text : Str) (state : FtpdState) :
    wp (do
      match ← vfsOpen arg env with
      | none => sendMsg env.msg₁ msg550
      | some (file, n) => startTransfer file n text state env) (fun _ _ => True) NotFreed s := by
  rw [wp_bind, wp_vfsOpen]
  refine ⟨fun _ => (safeWith_sendMsg _ _).ends (h.congr rfl rfl rfl), fun file hfile => ?_⟩
  have hstart := hpassive (by rw [hfile, Option.isSome_some])
  dsimp only
  refine startTransfer_usable ?_ file _ text state
  exact hstart.congr rfl rfl

lemma cmdListCommon_usable (h : Usable none none s)
    (hpassive : env.strdup = true ∧ env.opendir.isSome = true → Startable s) (shortlist : Bool) :
    wp (cmdListCommon shortlist env) (fun _ _ => True) NotFreed s := by
  unfold cmdListCommon
  rw [wp_ite]
  refine ⟨fun _ => (safeWith_sendMsg _ _).ends h, fun hdup => ?_⟩
  rw [wp_bind, wp_get, wp_bind, wp_vfsOpendir]
  refine ⟨fun _ => (safeWith_sendMsg _ _).ends (h.congr rfl rfl rfl), fun es hes => ?_⟩
  rw [Bool.not_eq_true', Bool.not_eq_false] at hdup
  have hstart := hpassive ⟨hdup, by rw [hes, Option.isSome_some]⟩
  dsimp only
  refine wp_seq (openDataconnection_usable (by exact hstart.congr rfl rfl) _) ?_
  rintro b s₁ ⟨h₁, hlive⟩
  rw [wp_ite]
  refine ⟨fun hb => ?_, fun _ => trivial⟩
  refine wp_seq (installTransfer_usable h₁ (hlive hb) _ _) fun _ s₂ h₂ => ?_
  exact (safeWith_sendMsg _ _).ends h₂

lemma Sys.PasvAt.usable {s₀ : Sys} {d i : ℕ} {owned : Bool} (h : s.PasvAt s₀ d i owned) :
    Usable (some d) (some i) s := by
  obtain ⟨m, hm, -⟩ := h.control
  obtain ⟨x, hx, -⟩ := h.data
  obtain ⟨p, hp⟩ := h.pcb
  refine usable_session hm hx ?_
  rintro _ ⟨⟩
  exact ne_of_eq_of_ne hp (Option.some_ne_none p)

lemma Sys.PasvAt.dropDatafs_usable {s₀ : Sys} {d i : ℕ} {owned : Bool}
    (h : s.PasvAt s₀ d i owned) : wp (Ftpd.dropDatafs d) (fun _ _ => True) NotFreed s := by
  obtain ⟨m, hm, hi⟩ := h.control
  unfold Ftpd.dropDatafs
  rw [wp_bind, wp_getMsg_of hm]
  rw [hi]
  exact wp_seq (ftpdDataclose_usable h.usable) fun _ s₁ h₁ => (safeWith_setMsg _).ends h₁

/-- A change of the control blocks, where none of them is used. -/
lemma safeWith_modifyPcbs {d : Option ℕ} (f : Sys → ℕ → Option Pcb) (n : Sys → ℕ) :
    SafeWith d none (modify fun s => { s with pcbs := f s, nextPcb := n s }) := fun _ h =>
  ⟨h.fsm, h.data, fun _ hi => (by cases hi)⟩

lemma Sys.PasvAt.pasvListen_usable {s₀ : Sys} {d i : ℕ} (h : s.PasvAt s₀ d i false)
    (port : UInt16) : wp (Ftpd.pasvListen d i port env) (fun _ _ => True) NotFreed s := by
  unfold Ftpd.pasvListen
  refine wp_seq (h.setData (b := true) fun _ _ => rfl) fun _ s₁ h₁ => ?_
  rw [wp_ite]
  refine ⟨fun _ => h₁.dropDatafs_usable, fun _ => ?_⟩
  refine Safe.ends (P := Usable (some d) none) ?_ h₁.usable.noPcb
  refine Safe.bind (safeWith_modifyPcbs _ Sys.nextPcb) fun _ => ?_
  refine Safe.bind (safe_get.bind fun t => (safeWith_modifyPcbs _ _).bind fun _ => safe_pure _)
    fun l => ?_
  refine (safeWith_setMsg _).bind fun _ => (safeWith_setData _).bind fun _ => ?_
  exact safe_get.bind fun _ => safeWith_sendMsg _ _

/-- `cmd_pasv` uses only the session and the control block that it has allocated itself. -/
lemma cmdPasv_usable (h : Usable none none s) (arg : Option Str) :
    wp (cmdPasv arg env) (fun _ _ => True) NotFreed s := by
  obtain ⟨m, hm⟩ := Option.ne_none_iff_exists'.mp h.fsm
  unfold cmdPasv
  rw [wp_ite]
  refine ⟨fun _ => ?_, fun _ => ?_⟩
  · exact ((safeWith_setMsg _).bind fun _ => safeWith_sendMsg _ _).ends h
  cases htcp : env.tcpNew with
  | false =>
    refine wp_seq (allocData_prepared hm) fun d s₁ h₁ => ?_
    refine wp_seq h₁.tcpNew ?_
    rintro pcb s₂ ⟨h₂, -, hno⟩
    obtain rfl := hno htcp
    refine wp_seq (h₂.setMsg fun _ => ⟨rfl, rfl⟩) ?_
    rintro _ s₃ ⟨h₃, -⟩
    obtain ⟨x, hx⟩ := h₃.data
    dsimp only
    rw [wp_bind, wp_freeData]
    refine ⟨fun _ _ => (safeWith_sendMsg _ _).ends (h₃.current.usable.1.free d), fun hnone => ?_⟩
    exact absurd (hx.symm.trans hnone) (Option.some_ne_none x)
  | true =>
    refine pasvStart_at hm htcp fun d i s₁ h₁ _ => ?_
    dsimp only
    refine wp_seq h₁.dataFifo ?_
    rintro fifo s₂ ⟨h₂, -⟩
    refine wp_seq (h₂.setData (b := false) (f := fun x => { x with fifo := fifo }) fun _ h => h)
      fun _ s₃ h₃ => ?_
    rw [wp_bind, wp_get, wp_bind, wp_get]
    cases bindLoop env.tcpBind s₃.port (2 ^ 16) s₃.port with
    | none => exact (by decide : NotFreed .stuck)
    | some r =>
      obtain ⟨port, bound⟩ := r
      dsimp only
      rw [wp_bind, wp_modify]
      have h₄ : ({ s₃ with port := port } : Sys).PasvAt s d i false :=
        ⟨h₃.front, h₃.localIp, h₃.control, h₃.data, h₃.pcb⟩
      refine wp_seq (h₄.setMsg (f := fun m => { m with dataport := port }) fun _ => ⟨rfl, rfl⟩)
        fun _ s₅ h₅ => ?_
      cases bound with
      | false => exact h₅.dropDatafs_usable
      | true => exact h₅.pasvListen_usable port

lemma changeDir_usable (h : Usable none none s) (path : Str) :
    wp (changeDir path env) (fun _ _ => True) NotFreed s := by
  unfold changeDir
  refine safe_get.wp_seq h fun t s₁ h₁ => (safeWith_note _).wp_seq h₁ fun _ s₂ h₂ => ?_
  rw [wp_ite]
  refine ⟨fun _ => (by decide : NotFreed .nullCopy), fun _ => ?_⟩
  rw [wp_bind, wp_modify]
  exact (safeWith_sendMsg _ _).ends (h₂.congr rfl rfl rfl)

lemma safeWith_withArg {d pcb : Option ℕ} (arg : Option Str) {body : Str → FtpdM Unit}
    (hbody : ∀ a, SafeWith d pcb (body a)) : SafeWith d pcb (withArg arg env body) := by
  unfold withArg
  cases arg with
  | none => exact safeWith_sendMsg _ _
  | some a => exact safe_ite (safeWith_sendMsg _ _) (hbody a)

lemma safeWith_removePath {d pcb : Option ℕ} (arg : Str) (call : Call) (ok : Bool) :
    SafeWith d pcb (removePath arg call ok env) :=
  (safeWith_note _).bind fun _ => safe_ite ((safeWith_note _).bind fun _ => safeWith_sendMsg _ _)
    (safeWith_sendMsg _ _)

/-- **What a command needs to use no freed object**: its control session; the current data
session, if it starts a transfer in the passive mode; and for `ABOR` that there is none. -/
lemma Command.run_usable (h : Usable none none s) (c : Command) (arg : Option Str)
    (hpassive : (c.transfer env).isSome = true → Startable s)
    (habrt : c = .abrt → ∀ m, s.fsm = some m → m.datafs = none) :
    wp (c.run arg env) (fun _ _ => True) NotFreed s := by
  have hsay : ∀ dr text, wp (sendMsg dr text) (fun _ _ => True) NotFreed s :=
    fun dr text => (safeWith_sendMsg dr text).ends h
  have hnull : NotFreed .nullArg := by decide
  cases c with
  | user | pass | quit => exact ((safeWith_sendMsg _ _).bind fun _ => safeWith_setMsg _).ends h
  | port =>
    cases arg with
    | none => exact hnull
    | some a =>
      simp only [Command.run, cmdPort, checkStr, pure_bind]
      split
      · exact ((safeWith_setMsg _).bind fun _ => safeWith_sendMsg _ _).ends h
      · exact hsay _ _
  | cwd =>
    cases arg with
    | none => exact hnull
    | some path => exact changeDir_usable h path
  | cdup => exact changeDir_usable h _
  | pwd =>
    simp only [Command.run, cmdPwd]
    rw [wp_ite]
    refine ⟨fun _ => ?_, fun _ => trivial⟩
    exact (safe_get.bind fun _ => safeWith_sendMsg _ _).ends h
  | nlst => exact cmdListCommon_usable h (fun hopen => hpassive (by simp [transfer, hopen])) true
  | list => exact cmdListCommon_usable h (fun hopen => hpassive (by simp [transfer, hopen])) false
  | retr =>
    cases arg with
    | none => exact hnull
    | some a =>
      simp only [Command.run, cmdRetr, checkStr, pure_bind]
      rw [wp_bind, wp_note, wp_ite]
      refine ⟨fun _ => (safeWith_sendMsg _ _).ends (h.congr rfl rfl rfl), fun hreg => ?_⟩
      rw [Bool.not_eq_true', Bool.not_eq_false] at hreg
      refine openFile_usable (by exact h.congr rfl rfl rfl) (fun hopen => ?_) a _ .retr
      have hstart := hpassive (by simp [transfer, hreg, hopen])
      exact hstart.congr rfl rfl
  | stor =>
    cases arg with
    | none => exact hnull
    | some a => exact openFile_usable h (fun hopen => hpassive (by simp [transfer, hopen])) _ _ _
  | noop => exact hsay _ msg200
  | syst => exact hsay _ (msg214SYST (lit "UNIX"))
  | mode => exact hsay _ msg502
  | rnfr | rnto => exact hsay _ (lit "TODO")
  | abrt =>
    obtain ⟨m, hm⟩ := Option.ne_none_iff_exists'.mp h.fsm
    simp only [Command.run, cmdAbrt]
    rw [wp_bind, wp_getMsg_of hm]
    rw [habrt rfl m hm]
    exact (safeWith_setMsg _).ends h
  | type =>
    cases arg with
    | none => exact hnull
    | some a => exact hsay _ _
  | mkd =>
    refine Safe.ends (safeWith_withArg arg fun a => ?_) h
    exact (safeWith_note _).bind fun _ => safeWith_sendMsg _ _
  | rmd | dele => exact (safeWith_withArg arg fun a => safeWith_removePath _ _ _).ends h
  | pasv => exact cmdPasv_usable h arg

end Commands

/-! ### Callbacks -/

section Callbacks

variable {s : Sys} {e : Event}

/-- The end of the control session. -/
lemma freeMsg_usable {m : MsgState} (hm : s.fsm = some m)
    (hlive : ∀ d, m.datafs = some d → Usable (some d) m.datapcb s) :
    wp freeMsg (fun _ _ => True) NotFreed s := by
  unfold freeMsg
  rw [wp_bind, wp_getMsg_of hm]
  cases hd : m.datafs with
  | none => trivial
  | some d => exact wp_seq (ftpdDataclose_usable (hlive d hd)) fun _ _ _ => trivial

/-- The pointers that the end of the control session and the timer follow are live. -/
lemma CurrentLive.usable (he : CurrentLive s e) {m : MsgState} (hm : s.fsm = some m) {d : ℕ}
    (hd : m.datafs = some d) (hdatafs : FollowsDatafs s e m)
    (hdatapcb : ∀ x, s.data d = some x → FollowsDatapcb s e x) : Usable (some d) m.datapcb s := by
  obtain ⟨hdata, hpcb⟩ := he m hm d hd
  obtain ⟨x, hx⟩ := Option.isSome_iff_exists.mp (hdata hdatafs)
  refine usable_session hm hx fun i hi => ?_
  exact Option.isSome_iff_ne_none.mp (hpcb x hx (hdatapcb x hx) i hi)

lemma freeMsg_ends (he : CurrentLive s e) (hends : Ends s e) (hfsm : s.fsm ≠ none) :
    wp freeMsg (fun _ _ => True) NotFreed s := by
  obtain ⟨m, hm⟩ := Option.ne_none_iff_exists'.mp hfsm
  exact freeMsg_usable hm fun d hd =>
    he.usable hm hd (.inr (.inl hends)) fun _ _ => .inr hends

/-- A callback for the control connection, whose session is there. -/
lemma onControl_usable {body : FtpdM Unit}
    (hbody : Usable none none s → wp body (fun _ _ => True) NotFreed s) :
    wp (onControl body) (fun _ _ => True) NotFreed s := by
  simp only [onControl, wp_bind, wp_get]
  cases hfsm : s.fsm with
  | none => exact (by decide : NotFreed .notCalled)
  | some m => exact hbody (usable_control (ne_of_eq_of_ne hfsm (Option.some_ne_none m)))

lemma ftpdMsgrecv_usable (he : UsesLive s e) {p : Chain} (hcb : e.callback = .msgrecv p)
    (h : Usable none none s) : wp (ftpdMsgrecv p e.env) (fun _ _ => True) NotFreed s := by
  obtain ⟨-, hcurrent, habort⟩ := he
  unfold ftpdMsgrecv
  rw [wp_ite]
  refine ⟨fun htext => ?_, fun _ => trivial⟩
  have hcommand : e.command = lookupCommand (commandText p) := by
    rw [Event.command, hcb]
    exact if_pos htext
  dsimp only
  cases hc : lookupCommand (commandText p) with
  | none => exact (safeWith_sendMsg _ _).ends h
  | some c =>
    have hec : e.command = some c := hcommand.trans hc
    refine c.run_usable h _ (fun htransfer => ⟨h, fun m hm hp m' hm' d hd => ?_⟩) fun hab m hm => ?_
    · obtain rfl := Option.some.inj (hm.symm.trans hm')
      refine Option.isSome_iff_ne_none.mp ((hcurrent m hm d hd).1 (.inr (.inr ⟨hp, c, hec, ?_⟩)))
      exact htransfer
    · exact habort m hm (hab ▸ hec)

lemma ftpdMsgsent_usable (he : CurrentLive s e) (hcb : e.callback = .msgsent)
    (h : Usable none none s) : wp (ftpdMsgsent e.env) (fun _ _ => True) NotFreed s := by
  obtain ⟨m, hm⟩ := Option.ne_none_iff_exists'.mp h.fsm
  unfold ftpdMsgsent
  rw [wp_bind, wp_getMsg_of hm]
  rw [wp_ite]
  refine ⟨fun hquit => freeMsg_ends he ?_ h.fsm, fun _ => ?_⟩
  · rw [Ends, hcb]
    exact ⟨m, hm, hquit⟩
  · exact Safe.ends (P := Usable none none)
      (safe_ite ((safeWith_setMsg _).bind fun _ => safeWith_emit _) (safe_pure _)) h

lemma ftpdMsgpoll_usable (he : CurrentLive s e) (hcb : e.callback = .msgpoll)
    (h : Usable none none s) : wp (ftpdMsgpoll e.env) (fun _ _ => True) NotFreed s := by
  obtain ⟨m, hm⟩ := Option.ne_none_iff_exists'.mp h.fsm
  unfold ftpdMsgpoll
  rw [wp_bind, wp_getMsg_of hm]
  cases hd : m.datafs with
  | none => trivial
  | some d =>
    rw [wp_bind, wp_getData]
    refine ⟨fun x hx => ?_, fun hnone => ?_⟩
    · rw [wp_ite]
      refine ⟨fun hconn => serve_usable (he.usable hm hd (.inl hcb) fun x' hx' => ?_) _,
        fun _ => trivial⟩
      obtain rfl := Option.some.inj (hx.symm.trans hx')
      exact .inl ⟨hcb, hconn⟩
    · exact absurd hnone (Option.isSome_iff_ne_none.mp ((he m hm d hd).1 (.inl hcb)))

/-- The objects of a callback for a data connection. -/
lemma ArgLive.usable (he : ArgLive s e) {i : ℕ} {p : Pcb} (hi : e.callback.pcb = some i)
    (hp : s.pcbs i = some p) (hears : p.hears e.callback = true) : Usable p.arg (some i) s := by
  obtain ⟨hfsm, hdata⟩ := he i hi p hp hears
  refine ⟨Option.isSome_iff_ne_none.mp hfsm, fun d hd => ?_, ?_⟩
  · exact Option.isSome_iff_ne_none.mp (hdata d hd)
  · rintro _ ⟨⟩
    exact ne_of_eq_of_ne hp (Option.some_ne_none p)

end Callbacks

/-- **A callback that follows no pointer to a freed object uses no freed object.** -/
theorem handle_ne_freed {s : Sys} {e : Event} (he : UsesLive s e) :
    (handle e).run s ≠ .error .freed := by
  suffices hwp : wp (handle e) (fun _ _ => True) NotFreed s from
    fun hrun => wp_error hwp hrun rfl
  have hcalled : NotFreed .notCalled := by decide
  have harg := he.1
  have hcurrent := he.2.1
  unfold handle
  cases hcb : e.callback with
  | msgrecv p => exact onControl_usable (ftpdMsgrecv_usable he hcb)
  | msgclosed =>
    exact onControl_usable fun h => freeMsg_ends hcurrent (by rw [Ends, hcb]; trivial) h.fsm
  | msgsent => exact onControl_usable (ftpdMsgsent_usable hcurrent hcb)
  | msgpoll => exact onControl_usable (ftpdMsgpoll_usable hcurrent hcb)
  | msgerr =>
    exact onControl_usable fun h => freeMsg_ends hcurrent (by rw [Ends, hcb]; trivial) h.fsm
  | connected i =>
    rw [wp_bind]
    refine wp_pcbOf (fun p hp _ => ?_) hcalled
    refine (safeWith_setPcb _).wp_seq (harg.usable (by rw [hcb]; rfl) hp (by rw [hcb]; rfl))
      fun _ s₁ h₁ => ?_
    exact dataOpened_usable h₁ _
  | accept l memory =>
    rw [wp_bind]
    refine wp_pcbOf (fun p hp _ => ?_) hcalled
    have h := harg.usable (by rw [hcb]; rfl) hp (by rw [hcb]; rfl)
    cases memory with
    | false => exact dataOpened_usable h.noPcb _
    | true => exact wp_seq (newPcb_usable h _) fun i s₁ h₁ => dataOpened_usable h₁ _
  | sent i =>
    rw [wp_bind]
    refine wp_pcbOf (fun p hp _ => ?_) hcalled
    rw [wp_ite]
    refine ⟨fun hreg => ?_, fun _ => trivial⟩
    exact ftpdDatasent_usable (harg.usable (by rw [hcb]; rfl) hp (by rw [hcb]; exact hreg)) _
  | recv i q =>
    rw [wp_bind]
    refine wp_pcbOf (fun p hp _ => ?_) hcalled
    rw [wp_ite]
    refine ⟨fun hreg => ?_, fun _ => ?_⟩
    · exact ftpdDatarecv_usable (harg.usable (by rw [hcb]; rfl) hp (by rw [hcb]; exact hreg)) _ _
    · exact (wp_ite _ _ _).mpr ⟨fun _ => trivial, fun _ => trivial⟩
  | dataerr i =>
    rw [wp_bind]
    refine wp_pcbOf (fun p hp _ => ?_) hcalled
    rw [wp_bind, wp_modify, wp_ite]
    refine ⟨fun hreg => ftpdDataerr_usable ?_, fun _ => trivial⟩
    have h := harg.usable (by rw [hcb]; rfl) hp (by rw [hcb]; exact hreg)
    exact ⟨h.fsm, h.data, fun _ hj => (by cases hj)⟩

end Teensy41Ethernet.Ftpd
