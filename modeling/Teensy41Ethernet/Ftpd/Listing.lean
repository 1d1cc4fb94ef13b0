import Teensy41Ethernet.Ftpd.Retr

/-!
# `LIST` and `NLST` deliver the directory

A data session that was given a directory delivers its listing, one line for each entry and in
the order of the directory.  When the FIFO is full the loop over the entries stops in the
middle, with an entry that waits in `vfs_dirent`, and a later callback goes on with it.  This
needs the FIFO of the session to have a buffer and the session to have one connection only, as
for `RETR`; and since `vfs_dirent` points to a temporary object of the callback that set it, the
memory of that object must not have been overwritten when the next one comes.
-/

namespace Teensy41Ethernet.Ftpd

open Lib

/-! ### The job -/

/-- The lines of the entries. -/
def listing (entries : List DirEntry) : Str := entries.flatMap dirLine

/-- The lines that a data session has yet to put into its FIFO: the one of the entry that is
waiting, and those of the rest of the directory. -/
def DataState.unlisted (x : DataState) : Str :=
  match x.vfsDirent with
  | none => listing (x.vfsDir.getD [])
  | some none => []
  | some (some e) => dirLine e ++ listing (x.vfsDir.getD [])

/-- A data session has to deliver a listing, in the state `LIST` or `NLST`. -/
def listJob (d : ℕ) (st : FtpdState) (entries : List DirEntry) (log : List Action) : Job where
  session := d
  state := st
  content := listing entries
  pending := DataState.unlisted
  pending_eq := fun _ _ _ => rfl
  log := log

lemma length_dirLine_pos (e : DirEntry) : 0 < (dirLine e).length := by
  unfold dirLine
  split
  · simp [lit]
  · simp [lit]

/-- A listing of nothing is one of no entries. -/
lemma listing_eq_nil {entries : List DirEntry} : listing entries = [] ↔ entries = [] := by
  refine ⟨fun h => ?_, fun h => by rw [h]; rfl⟩
  cases entries with
  | nil => rfl
  | cons e es =>
    have hlen := length_dirLine_pos e
    rw [listing, List.flatMap_cons, List.append_eq_nil_iff] at h
    rw [h.1] at hlen
    cases hlen

/-! ### Serving the session -/

section Listing

variable {d : ℕ} {st : FtpdState} {entries : List DirEntry} {log sent : List Action}
  {pcb : Option ℕ} {x : DataState} {s : Sys}

/-- The next entry waits in the session, and the lines to come are the same. -/
lemma listJob_nextDirent (h : (listJob d st entries log).Sending pcb sent x s) :
    wp (nextDirent d) (fun ent s' => ∃ y, (listJob d st entries log).Sending pcb sent y s' ∧
      y.vfsDirent = some ent) (fun _ => True) s := by
  have hdata : s.data d = some x := h.data
  unfold nextDirent
  rw [wp_bind, wp_getData_of hdata]
  cases hent : x.vfsDirent with
  | some ent => exact ⟨x, h, hent⟩
  | none =>
    cases hdir : x.vfsDir with
    | none => exact trivial
    | some es =>
      rw [wp_bind, wp_setData_of hdata]
      refine ⟨_, h.setData (y := { x with vfsDir := some es.tail, vfsDirent := some es.head? })
        h.connected h.wf h.buffer ?_, rfl⟩
      have hsame : ({ x with vfsDir := some es.tail, vfsDirent := some es.head? } :
          DataState).unlisted = x.unlisted := by
        simp only [DataState.unlisted, hent, hdir, Option.getD_some]
        cases es with
        | nil => rfl
        | cons e es => rfl
      exact congrArg (x.fifo.contents ++ ·) hsame

/-- The line of the entry that is waiting goes into the FIFO as a whole. -/
lemma listJob_writeLine (h : (listJob d st entries log).Sending pcb sent x s) {e : DirEntry}
    (hent : x.vfsDirent = some (some e)) (hroom : ((dirLine e).length : ℤ) ≤ sfifoSpace x.fifo)
    {y : DataState}
    (hy : y = { x with fifo := (sfifoWrite x.fifo (dirLine e)).2, vfsDirent := none }) :
    (listJob d st entries log).Sending pcb sent y
      { s with data := Function.update s.data d (some y) } := by
  have hpending : x.unlisted = dirLine e ++ listing (x.vfsDir.getD []) := by
    rw [DataState.unlisted, hent]
  -- there is something to deliver, so that the FIFO has its buffer
  have hbuffer : x.fifo.buffer ≠ none := by
    intro hnone
    have hstream : sentOver d pcb sent ++ x.fifo.contents ++ x.unlisted = listing entries :=
      h.stream
    have hempty : listing entries = [] := h.buffer hnone
    have hlen := length_dirLine_pos e
    rw [hempty, hpending] at hstream
    rw [(List.append_eq_nil_iff.mp (List.append_eq_nil_iff.mp hstream).2).1] at hlen
    cases hlen
  obtain ⟨hwf, hbuffer', hcontents⟩ := sfifoWrite_fits h.wf hbuffer hroom
  subst hy
  refine h.setData h.connected hwf (fun hnone => absurd hnone hbuffer') ?_
  show (sfifoWrite x.fifo (dirLine e)).2.contents ++ listing (x.vfsDir.getD []) =
    x.fifo.contents ++ x.unlisted
  rw [hcontents, hpending, List.append_assoc]

/-- The loop over the directory: each round moves the line of one entry into the FIFO, until the
FIFO is full or the directory is at its end. -/
lemma listJob_sendDirLoop (env : Env) (fuel : ℕ) :
    ∀ (x : DataState) (s : Sys), (listJob d st entries log).Sending pcb sent x s →
      wp (sendDirLoop d pcb env fuel) (fun _ s' => (listJob d st entries log).Inv s')
        (fun _ => True) s := by
  induction fuel with
  | zero => exact fun _ _ _ => trivial
  | succ fuel ih =>
    intro x s h
    rw [sendDirLoop]
    refine wp_seq (listJob_nextDirent h) ?_
    rintro (_ | e) s₁ ⟨y, h₁, hent⟩
    · have hdata : s₁.data d = some y := h₁.data
      have hpending : y.unlisted = [] := by rw [DataState.unlisted, hent]
      dsimp only
      rw [wp_bind, wp_getData_of hdata]
      rw [wp_ite]
      refine ⟨fun _ => h₁.sendDataTo env.data, fun hused => ?_⟩
      cases hdir : y.vfsDir with
      | none => exact trivial
      | some es =>
        dsimp only
        rw [wp_bind, wp_closeDir, hdata]
        refine ⟨?_, fun _ => trivial⟩
        rintro _ ⟨⟩
        have hclosed := h₁.setData (y := { y with vfsDir := none }) h₁.connected h₁.wf h₁.buffer (by
          show y.fifo.contents ++ DataState.unlisted { y with vfsDir := none } =
            y.fifo.contents ++ y.unlisted
          rw [hpending, DataState.unlisted, hent])
        refine Job.Sending.endTransfer (j := listJob d st entries log)
          (hclosed.congr (by rfl) (by rfl) (by rfl)) (contents_eq_nil_of_used hused) ?_ env
        show DataState.unlisted { y with vfsDir := none } = []
        rw [DataState.unlisted, hent]
    · have hdata : s₁.data d = some y := h₁.data
      dsimp only
      rw [wp_ite]
      refine ⟨fun _ => trivial, fun _ => ?_⟩
      rw [wp_bind, wp_getData_of hdata]
      rw [wp_ite]
      refine ⟨fun _ => h₁.sendDataTo env.data, fun hroom => ?_⟩
      rw [wp_bind, wp_setData_of hdata]
      exact ih _ _ (listJob_writeLine h₁ hent (not_lt.mp hroom) rfl)

/-- In the states `LIST` and `NLST` the session is served by `send_next_directory`. -/
lemma listJob_served (hst : st ∈ [.list, .nlst]) :
    (listJob d st entries log).ServedIn fun env => env.stale = none := by
  intro pcb sent x s env hstale h
  have hdata : s.data d = some x := h.data
  obtain ⟨m, hm, hstate, -⟩ := h.control
  have hlist : ∀ shortlist, wp (sendNextDirectory d pcb shortlist env)
      (fun _ s' => (listJob d st entries log).Inv s') (fun _ => True) s := by
    intro shortlist
    unfold sendNextDirectory
    rw [wp_bind, wp_getData_of hdata]
    rw [wp_bind, wp_setData_of hdata]
    -- the entry that is waiting is still the same
    have hsame : x.vfsDirent.map env.stale.getD = x.vfsDirent := by
      rw [hstale]
      cases x.vfsDirent with
      | _ => rfl
    rw [hsame]
    exact listJob_sendDirLoop env _ x _ (h.setData h.connected h.wf h.buffer rfl)
  unfold serve
  rw [wp_bind, wp_getMsg_of hm]
  rw [hstate]
  have hcases : st = .list ∨ st = .nlst := by simpa using hst
  rcases hcases with rfl | rfl
  · exact hlist false
  · exact hlist true

end Listing

/-! ### What the commands leave behind -/

/-- The data session is fresh, and its FIFO has a buffer unless there is nothing to list. -/
def DataState.CanList (entries : List DirEntry) (x : DataState) : Prop :=
  x.Fresh ∧ (x.fifo.buffer = none → entries = [])

/-- The data session that the command will use can list: the current one over passive
connections, and a new one over active connections. -/
def ListReady (s : Sys) (e : Event) (entries : List DirEntry) : Prop :=
  ∀ m ∈ s.fsm, (m.passive = true → CurrentIs (DataState.CanList entries) s) ∧
    (m.passive = false → e.env.mallocFifo = none → entries = [])

/-- The command has given the listing to the current data session. -/
def Listed (entries : List DirEntry) (s : Sys) : Prop :=
  ∀ m d, s.fsm = some m → m.datafs = some d →
    m.state ∈ [.list, .nlst] ∧ (listJob d m.state entries s.log).Inv s

/-- The directory goes to the current data session, and the reply follows. -/
lemma installListing {s : Sys} {entries : List DirEntry}
    (h : CurrentIs (DataState.CanList entries) s) (handle : ℕ) {st : FtpdState}
    (hst : st ∈ [.list, .nlst]) (dr : Drain) :
    wp (do
        installTransfer
          (fun x => { x with vfsDir := some entries, dirHandle := handle, vfsDirent := none }) st
        sendMsg dr msg150)
      (fun _ s' => Listed entries s') (fun _ => True) s := by
  rw [wp_bind, wp_installTransfer]
  refine ⟨fun m hm => ⟨fun d hd => ⟨fun x hx => ?_, fun _ => trivial⟩, fun _ => trivial⟩,
    fun _ => trivial⟩
  refine wp_mono (sendMsg_spec dr msg150 _) ?_ fun _ _ => trivial
  rintro _ s' ⟨hdata, ⟨m₁, fifo, hm₁, hfsm⟩, -⟩ m' d' hm' hd'
  obtain rfl := Option.some.inj hm₁
  obtain rfl := Option.some.inj (hfsm.symm.trans hm')
  obtain rfl := Option.some.inj (hd.symm.trans hd')
  obtain ⟨hfresh, hbuffer⟩ := h m hm d hd x hx
  refine ⟨hst, Job.inv_start (j := listJob d st entries s'.log)
    (x := { x with vfsDir := some entries, dirHandle := handle, vfsDirent := none }) hfsm rfl hd ?_
    rfl hfresh.wf ?_ ?_⟩
  · rw [hdata]
    exact Function.update_self _ _ _
  · exact fun hnone => listing_eq_nil.mpr (hbuffer hnone)
  · show x.fifo.contents ++ listing entries = listing entries
    rw [hfresh.contents]
    rfl

lemma cmdListCommon_listed {s : Sys} {e : Event} {entries : List DirEntry}
    (hdup : e.env.strdup = true) (hdir : e.env.opendir = some entries)
    (hready : ListReady s e entries) (shortlist : Bool) :
    wp (cmdListCommon shortlist e.env) (fun _ s' => Listed entries s') (fun _ => True) s := by
  have hpassive : ∀ m ∈ s.fsm, m.passive = true → CurrentIs (DataState.CanList entries) s :=
    fun m hm => (hready m hm).1
  have hnew : ∀ m ∈ s.fsm, m.passive = false → ∀ x : DataState, x.Fresh →
      x.fifo.buffer = e.env.mallocFifo → x.CanList entries := by
    intro m hm hp x hfresh hbuffer
    exact ⟨hfresh, fun hnone => (hready m hm).2 hp (hbuffer.symm.trans hnone)⟩
  unfold cmdListCommon
  rw [hdup, Bool.not_true, if_neg Bool.false_ne_true, wp_bind, wp_get, wp_bind, wp_vfsOpendir, hdir]
  refine ⟨fun h => (by cases h), ?_⟩
  rintro _ ⟨⟩
  dsimp only
  refine wp_seq (openDataconnection_current (P := DataState.CanList entries) (by exact hpassive)
    (by exact hnew) _) ?_
  rintro b s₁ (⟨rfl, hcurrent⟩ | ⟨rfl, -, hnone⟩)
  · refine installListing hcurrent _ ?_ _
    cases shortlist with
    | _ => decide
  · rw [if_neg Bool.false_ne_true, wp_record]
    intro m d hm hd
    rw [show s₁.fsm = some m from hm, Option.map_some, hd] at hnone
    cases hnone

/-! ### The theorem -/

/-- **`LIST` and `NLST` deliver the listing**, with any callbacks for the data session and any
timer callbacks, if the data session is fresh and its FIFO has a buffer or the directory is
empty, the session has one connection only, and the memory of an entry that is waiting is not
overwritten between the callbacks. -/
theorem list_delivers_listing {s s₀ s₁ : Sys} {e : Event} {entries : List DirEntry} {m : MsgState}
    {d : ℕ} {es : List Event} (hc : e.command = some .list ∨ e.command = some .nlst)
    (hdup : e.env.strdup = true) (hdir : e.env.opendir = some entries)
    (hready : ListReady s e entries) (hstart : ftpdStep s e = some s₀) (hm : s₀.fsm = some m)
    (hd : m.datafs = some d)
    (hes : Admits ftpdStep (fun s e =>
      Concerns d s e ∧ OneConnection d s e ∧ e.env.stale = none) s₀ es)
    (hrun : exec ftpdStep s₀ es = some s₁) : Delivers s₀ s₁ d (listing entries) := by
  have hlisted : Listed entries s₀ := by
    rcases hc with hc | hc
    · exact ftpdStep_command hc (fun _ => cmdListCommon_listed hdup hdir hready false) hstart
    · exact ftpdStep_command hc (fun _ => cmdListCommon_listed hdup hdir hready true) hstart
  obtain ⟨hstate, hinv⟩ := hlisted m d hm hd
  exact (hinv.exec (listJob_served hstate) hes hrun).delivered

/-- The listing of a directory with one file over an active connection. -/
theorem list_delivers_listing_one_file :
    ∃ s₀ s es, ftpdStep session (line "LIST\r\n") = some s₀ ∧ exec ftpdStep s₀ es = some s ∧
      .reply msg226 true ∈ s.log ∧ Delivers s₀ s 0 (lit "a  1\r\n") := by
  have hstart : Option.map (fun s₀ => (s₀.fsm.map MsgState.datafs,
      decide (Admits ftpdStep (fun s e =>
        Concerns 0 s e ∧ OneConnection 0 s e ∧ e.env.stale = none) s₀
        [⟨.connected 0, calm⟩, ⟨.sent 0, calm⟩]),
      (exec ftpdStep s₀ [⟨.connected 0, calm⟩, ⟨.sent 0, calm⟩]).map
        fun s => decide (.reply msg226 true ∈ s.log))) (ftpdStep session (line "LIST\r\n"))
      = some (some (some 0), true, some true) := by decide +kernel
  have hactive : session.fsm.map MsgState.passive = some false := by decide +kernel
  obtain ⟨s₀, hs₀, hrest⟩ := Option.map_eq_some_iff.mp hstart
  simp only [Prod.mk.injEq, decide_eq_true_eq] at hrest
  obtain ⟨hcurrent, hadmits, hend⟩ := hrest
  obtain ⟨m, hm, hd⟩ := Option.map_eq_some_iff.mp hcurrent
  obtain ⟨s, hs, hreply⟩ := Option.map_eq_some_iff.mp hend
  have hready : ListReady session (line "LIST\r\n") [⟨lit "a", false, 1⟩] := by
    intro m hm
    refine ⟨fun hp => ?_, fun _ hnone => (by cases hnone)⟩
    rw [hm, Option.map_some, hp] at hactive
    cases hactive
  have hlisting : listing [⟨lit "a", false, 1⟩] = lit "a  1\r\n" := by decide +kernel
  refine ⟨s₀, s, _, hs₀, hs, of_decide_eq_true hreply, ?_⟩
  rw [← hlisting]
  exact list_delivers_listing (.inl (by decide +kernel)) rfl rfl hready hs₀ hm hd hadmits hs

/-- A directory with two files, of whose listing TCP takes six bytes at a time. -/
def sixBytes : Env :=
  { calm with
    opendir := some [⟨lit "a", false, 1⟩, ⟨lit "b", false, 1⟩]
    data := ⟨6, true, true⟩ }

/-- Without memory for the buffer of the FIFO the listing is dropped, and the transfer ends all
the same; if the memory of the entry that marks the end of the directory has become another
entry, that one is listed; and over passive connections a second connection gets the second line
of the listing. -/
theorem listing_not_delivered :
    (∃ s₀ s es, ftpdStep session ⟨.msgrecv [lit "LIST\r\n"], { calm with mallocFifo := none }⟩ =
        some s₀ ∧ Admits ftpdStep (Concerns 0) s₀ es ∧ exec ftpdStep s₀ es = some s ∧
      sentOn 0 0 s.log = [] ∧ .reply msg226 true ∈ s.log ∧ ¬ Delivers s₀ s 0 (lit "a  1\r\n")) ∧
    (∃ s₀ s es, ftpdStep session (line "LIST\r\n") = some s₀ ∧
      Admits ftpdStep (Concerns 0) s₀ es ∧ exec ftpdStep s₀ es = some s ∧
      sentOn 0 0 s.log = lit "a  1\r\nb  1\r\n" ∧ ¬ Delivers s₀ s 0 (lit "a  1\r\n")) ∧
    ∃ s₁ s₀ s es, ftpdStep session (line "PASV\r\n") = some s₁ ∧
      ftpdStep s₁ ⟨.msgrecv [lit "LIST\r\n"], sixBytes⟩ = some s₀ ∧
      Admits ftpdStep (fun s e => Concerns 0 s e ∧ e.env.stale = none) s₀ es ∧
      exec ftpdStep s₀ es = some s ∧ sentOn 0 2 s.log = lit "a  1\r\n" ∧
      sentOn 0 3 s.log = lit "b  1\r\n" ∧ .reply msg226 true ∈ s.log ∧
      ¬ Delivers s₀ s 0 (lit "a  1\r\nb  1\r\n") := by
  refine ⟨?_, ?_, ?_⟩
  · have hstart : Option.map (fun s₀ => (decide (Admits ftpdStep (Concerns 0) s₀
        [⟨.connected 0, calm⟩]),
        (exec ftpdStep s₀ [⟨.connected 0, calm⟩]).map
          fun s => decide (sentOn 0 0 s.log = [] ∧ .reply msg226 true ∈ s.log ∧
            sentOn 0 0 (s.log.drop s₀.log.length) = [] ∧
            .close 0 ∈ s.log.drop s₀.log.length)))
        (ftpdStep session ⟨.msgrecv [lit "LIST\r\n"], { calm with mallocFifo := none }⟩)
        = some (true, some true) := by decide +kernel
    obtain ⟨s₀, hs₀, hrest⟩ := Option.map_eq_some_iff.mp hstart
    simp only [Prod.mk.injEq, decide_eq_true_eq] at hrest
    obtain ⟨s, hs, hlog⟩ := Option.map_eq_some_iff.mp hrest.2
    obtain ⟨hsent, hreply, hnew, hended⟩ := of_decide_eq_true hlog
    refine ⟨s₀, s, _, hs₀, hrest.1, hs, hsent, hreply, fun hdelivers => ?_⟩
    have hall := hdelivers.complete hended
    rw [hnew] at hall
    cases hall
  · have hstart : Option.map (fun s₀ => (decide (Admits ftpdStep (Concerns 0) s₀
        [⟨.connected 0, calm⟩,
          ⟨.sent 0, { calm with stale := some (some ⟨lit "b", false, 1⟩) }⟩]),
        (exec ftpdStep s₀ [⟨.connected 0, calm⟩,
          ⟨.sent 0, { calm with stale := some (some ⟨lit "b", false, 1⟩) }⟩]).map
          fun s => decide (sentOn 0 0 s.log = lit "a  1\r\nb  1\r\n" ∧
            sentOn 0 0 (s.log.drop s₀.log.length) = lit "a  1\r\nb  1\r\n")))
        (ftpdStep session (line "LIST\r\n")) = some (true, some true) := by decide +kernel
    obtain ⟨s₀, hs₀, hrest⟩ := Option.map_eq_some_iff.mp hstart
    simp only [Prod.mk.injEq, decide_eq_true_eq] at hrest
    obtain ⟨s, hs, hlog⟩ := Option.map_eq_some_iff.mp hrest.2
    obtain ⟨hsent, hnew⟩ := of_decide_eq_true hlog
    refine ⟨s₀, s, _, hs₀, hrest.1, hs, hsent, fun hdelivers => ?_⟩
    have hprefix := hdelivers.prefix_of_log 0
    rw [hnew] at hprefix
    exact absurd hprefix (by decide)
  · have hstart : Option.map (fun s₁ => Option.map (fun s₀ =>
        (decide (Admits ftpdStep (fun s e => Concerns 0 s e ∧ e.env.stale = none) s₀
          [⟨.accept 1 true, sixBytes⟩, ⟨.accept 1 true, sixBytes⟩, ⟨.msgpoll, sixBytes⟩]),
        (exec ftpdStep s₀ [⟨.accept 1 true, sixBytes⟩, ⟨.accept 1 true, sixBytes⟩,
            ⟨.msgpoll, sixBytes⟩]).map
          fun s => decide (sentOn 0 2 s.log = lit "a  1\r\n" ∧ sentOn 0 3 s.log = lit "b  1\r\n" ∧
            .reply msg226 true ∈ s.log ∧
            sentOn 0 3 (s.log.drop s₀.log.length) = lit "b  1\r\n")))
        (ftpdStep s₁ ⟨.msgrecv [lit "LIST\r\n"], sixBytes⟩)) (ftpdStep session (line "PASV\r\n"))
        = some (some (true, some true)) := by decide +kernel
    obtain ⟨s₁, hs₁, hstart₁⟩ := Option.map_eq_some_iff.mp hstart
    obtain ⟨s₀, hs₀, hrest⟩ := Option.map_eq_some_iff.mp hstart₁
    simp only [Prod.mk.injEq, decide_eq_true_eq] at hrest
    obtain ⟨s, hs, hlog⟩ := Option.map_eq_some_iff.mp hrest.2
    obtain ⟨hsent₂, hsent₃, hreply, hnew⟩ := of_decide_eq_true hlog
    refine ⟨s₁, s₀, s, _, hs₁, hs₀, hrest.1, hs, hsent₂, hsent₃, hreply, fun hdelivers => ?_⟩
    have hprefix := hdelivers.prefix_of_log 3
    rw [hnew] at hprefix
    exact absurd hprefix (by decide)

end Teensy41Ethernet.Ftpd
