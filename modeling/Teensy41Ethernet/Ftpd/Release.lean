import Teensy41Ethernet.Ftpd.Live
import Teensy41Ethernet.Ftpd.Ownership

/-!
# What the daemon acquires and releases

A data session has a FIFO with a buffer, and opens a directory or a file.  A transfer that comes
to its end closes the directory or the file, frees the buffer and the session.  Other ends do
less: `ftpd_dataclose`, which the end of the control connection goes through, closes neither
directory nor file, and `ftpd_dataerr` frees the session alone.  The account of a run is the
list of all that was acquired and released; this file shows for which runs everything is
released once when the control session is gone, and nothing is freed a second time on the way.
-/

namespace Teensy41Ethernet.Ftpd

open Lib

/-! ### The condition -/

/-- The data session holds neither a directory nor a file. -/
def DataState.Bare (x : DataState) : Prop := x.vfsDir = none ∧ x.vfsFile = none

/-- What is opened is released: a data session is allocated only when there is no current one; a
passive connection is used only for a session that holds neither directory nor file; no error
comes for a data session that holds something; the control connection does not end while the
current data session holds a directory or a file; and no pointer to a freed object is
followed. -/
def KeepsAccount (s : Sys) (e : Event) : Prop :=
  OpensWhenFree s e ∧
  (∀ m ∈ s.fsm, m.passive = true → ∀ c ∈ e.command, (c.transfer e.env).isSome = true →
    ∀ d ∈ m.datafs, ∀ x ∈ s.data d, x.Bare) ∧
  (match e.callback with
    | .dataerr i => ∀ p ∈ s.pcbs i, p.err = true → ∀ d ∈ p.arg, ∀ x ∈ s.data d,
        x.Bare ∧ x.fifo.buffer.isSome = false
    | _ => True) ∧
  (Ends s e → ∀ m ∈ s.fsm, ∀ d ∈ m.datafs, ∀ x ∈ s.data d, x.Bare) ∧
  UsesLive s e

instance (x : DataState) : Decidable x.Bare := by
  unfold DataState.Bare
  cases x.vfsDir <;> cases x.vfsFile <;> simp only [reduceCtorEq] <;> infer_instance

instance (s : Sys) (e : Event) : Decidable (KeepsAccount s e) := by
  obtain ⟨callback, env⟩ := e
  unfold KeepsAccount
  refine Callback.casesOn callback ?_ ?_ ?_ ?_ ?_ ?_ ?_ ?_ ?_ ?_ <;> intros <;> infer_instance

/-! ### What is held -/

/-- A data session holds a resource; it counts as one itself. -/
def Hold.Has (h : Hold) (d : ℕ) : Resource → Prop
  | .file n => h.file = some n
  | .dir n => h.dir = some n
  | .buffer b => b = some d ∧ h.buffer = true
  | .session d' => d' = d

/-- What a data session holds. -/
def Hold.held (h : Hold) (d : ℕ) : Set Resource := {r | h.Has d r}

/-- The buffer of the control session. -/
def View.own (v : View) : Set Resource := {r | r = .buffer none ∧ ∃ c ∈ v.control, c.buffer = true}

section Held

variable {account : List (Entry Resource)} {h : Hold} {d n : ℕ} {v : View}

@[simp] lemma Hold.file_mem_held : .file n ∈ h.held d ↔ h.file = some n := Iff.rfl

@[simp] lemma Hold.dir_mem_held : .dir n ∈ h.held d ↔ h.dir = some n := Iff.rfl

@[simp] lemma Hold.buffer_mem_held {b : Option ℕ} :
    .buffer b ∈ h.held d ↔ b = some d ∧ h.buffer = true := Iff.rfl

@[simp] lemma Hold.session_mem_held : .session n ∈ h.held d ↔ n = d := Iff.rfl

lemma View.notMem_own {r : Resource} (hr : r ≠ .buffer none) : r ∉ v.own := fun h => hr h.1

@[simp] lemma View.file_notMem_own : .file n ∉ v.own := View.notMem_own (by simp)

@[simp] lemma View.dir_notMem_own : .dir n ∉ v.own := View.notMem_own (by simp)

@[simp] lemma View.buffer_notMem_own : .buffer (some n) ∉ v.own := View.notMem_own (by simp)

@[simp] lemma View.session_notMem_own : .session n ∉ v.own := View.notMem_own (by simp)

/-- The file of a session is closed. -/
lemma balanced_closeFile (hb : Balanced account (v.own ∪ h.held d)) (hn : h.file = some n) :
    Balanced (account ++ [.release (.file n)]) (v.own ∪ { h with file := none }.held d) := by
  refine (hb.release (Or.inr hn)).congr fun r => ?_
  cases r with
  | file k => simpa [hn] using Eq.symm
  | dir k => simp
  | buffer k => simp
  | session k => simp

/-- The directory of a session is closed. -/
lemma balanced_closeDir (hb : Balanced account (v.own ∪ h.held d)) (hn : h.dir = some n) :
    Balanced (account ++ [.release (.dir n)]) (v.own ∪ { h with dir := none }.held d) := by
  refine (hb.release (Or.inr hn)).congr fun r => ?_
  cases r with
  | file k => simp
  | dir k => simpa [hn] using Eq.symm
  | buffer k => simp
  | session k => simp

/-- A session that holds neither directory nor file is closed. -/
lemma balanced_closing (hb : Balanced account (v.own ∪ h.held d)) (hdir : h.dir = none)
    (hfile : h.file = none) : Balanced (account ++ h.closing d) v.own := by
  have hsession : .session d ∈ v.own ∪ h.held d := Or.inr rfl
  cases hbuffer : h.buffer with
  | false =>
    rw [Hold.closing, hbuffer]
    refine (hb.release hsession).congr fun r => ?_
    cases r with
    | file k => simp [hfile]
    | dir k => simp [hdir]
    | buffer k => simp [hbuffer]
    | session k => simp
  | true =>
    have hmem : .buffer (some d) ∈ v.own ∪ h.held d := Or.inr ⟨rfl, hbuffer⟩
    have hmem' : .session d ∈ (v.own ∪ h.held d) \ {.buffer (some d)} := ⟨hsession, by simp⟩
    have hboth := (hb.release hmem).release hmem'
    rw [List.append_assoc] at hboth
    rw [Hold.closing, hbuffer]
    refine hboth.congr fun r => ?_
    cases r with
    | file k => simp [hfile]
    | dir k => simp [hdir]
    | buffer k =>
      cases k with
      | none => simp
      | some k => simp [hbuffer]
    | session k => simp

/-- A session is allocated, with its buffer. -/
lemma balanced_opening {own : Set Resource} (hb : Balanced account own)
    (hsession : .acquire (.session d) ∉ account)
    (hbuffer : .acquire (.buffer (some d)) ∉ account) (hdir : h.dir = none)
    (hfile : h.file = none) :
    Balanced (account ++ h.opening d) (own ∪ h.held d) := by
  have hfirst := hb.acquire hsession
  cases hbuf : h.buffer with
  | false =>
    rw [Hold.opening, hbuf]
    refine hfirst.congr fun r => ?_
    cases r with
    | file k => simp [hfile]
    | dir k => simp [hdir]
    | buffer k => simp [hbuf]
    | session k => simp [or_comm]
  | true =>
    have hboth := hfirst.acquire (r := .buffer (some d)) (by simp [hbuffer])
    rw [List.append_assoc] at hboth
    rw [Hold.opening, hbuf]
    refine hboth.congr fun r => ?_
    cases r with
    | file k => simp [hfile]
    | dir k => simp [hdir]
    | buffer k => simp [hbuf, or_comm]
    | session k => simp [or_comm]

/-- The control session is freed. -/
lemma balanced_gone {c : Control} (hc : v.control = some c) (hb : Balanced account v.own) :
    Balanced (account ++ if c.buffer then [.release (.buffer none)] else []) ∅ := by
  cases hbuffer : c.buffer with
  | false =>
    rw [if_neg (by decide), List.append_nil]
    refine hb.congr fun r => ?_
    simp [View.own, hc, hbuffer]
  | true =>
    rw [if_pos rfl]
    refine (hb.release (r := .buffer none) ⟨rfl, c, hc, hbuffer⟩).congr fun r => ?_
    simp [View.own, hc, hbuffer]

/-- A session that holds neither directory nor file is given what a transfer needs. -/
lemma balanced_give {st : FtpdState} (hst : st ∈ [.list, .nlst, .retr, .stor]) {own : Set Resource}
    (hb : Balanced account (own ∪ h.held d)) (hdir : h.dir = none) (hfile : h.file = none)
    (hnew : .acquire (st.opens n) ∉ account) :
    Balanced (account ++ [.acquire (st.opens n)]) (own ∪ (h.give n st).held d) := by
  refine (hb.acquire hnew).congr fun r => ?_
  simp only [List.mem_cons, List.not_mem_nil, or_false] at hst
  rcases hst with rfl | rfl | rfl | rfl
  all_goals
    cases r with
    | _ => simp [FtpdState.opens, Hold.give, hdir, hfile, or_comm, @eq_comm ℕ n]

end Held

/-! ### Numbers in the account -/

/-- The number of a resource has been given out. -/
def Resource.Before (next handles : ℕ) : Resource → Prop
  | .file n | .dir n => n < handles
  | .buffer none => True
  | .buffer (some d) | .session d => d < next

lemma Resource.Before.mono {next next' handles handles' : ℕ} {r : Resource}
    (h : r.Before next handles) (hnext : next ≤ next') (hhandles : handles ≤ handles') :
    r.Before next' handles' := by
  cases r with
  | file n => exact lt_of_lt_of_le h hhandles
  | dir n => exact lt_of_lt_of_le h hhandles
  | session d => exact lt_of_lt_of_le h hnext
  | buffer b =>
    cases b with
    | none => trivial
    | some d => exact lt_of_lt_of_le h hnext

lemma FtpdState.opens_before (st : FtpdState) (next : ℕ) {n handles : ℕ} (h : n < handles) :
    (st.opens n).Before next handles := by
  cases st with
  | _ => exact h

namespace View

/-- What was acquired has a number that has been given out. -/
def Used (v : View) : Prop := ∀ r, .acquire r ∈ v.account → r.Before v.next v.handles

variable {v v' : View} {c : Control} {d i : ℕ} {h : Hold} {pcb : Option ℕ}

lemma Used.append (hv : v.Used) {es : List (Entry Resource)}
    (haccount : v'.account = v.account ++ es)
    (hes : ∀ r, .acquire r ∈ es → r.Before v'.next v'.handles) (hnext : v.next ≤ v'.next)
    (hhandles : v.handles ≤ v'.handles) : v'.Used := by
  intro r hr
  rw [haccount, List.mem_append] at hr
  rcases hr with hr | hr
  · exact (hv r hr).mono hnext hhandles
  · exact hes r hr

lemma mem_opening {r : Resource} (hr : .acquire r ∈ h.opening d) :
    r = .session d ∨ r = .buffer (some d) := by
  unfold Hold.opening at hr
  cases hb : h.buffer with
  | true => simpa [hb] using hr
  | false =>
    left
    simpa [hb] using hr

lemma notMem_closing (r : Resource) : .acquire r ∉ h.closing d := by
  unfold Hold.closing
  cases h.buffer with
  | true => simp
  | false => simp

/-- An opened session has the next number. -/
lemma opening_before {r : Resource} (hr : .acquire r ∈ h.opening v.next) (handles : ℕ) :
    r.Before (v.next + 1) handles := by
  rcases mem_opening hr with rfl | rfl
  · exact Nat.lt_succ_self _
  · exact Nat.lt_succ_self _

lemma Transfer.used {env : Env} {st : FtpdState} (hmove : v.Transfer env st v') (hv : v.Used) :
    v'.Used := by
  have hopen : ∀ (next : ℕ) {r : Resource}, .acquire r ∈ [Entry.acquire (st.opens v.handles)] →
      r.Before next (v.handles + 1) := by
    intro next r hr
    rw [List.mem_singleton, Entry.acquire.injEq] at hr
    rw [hr]
    exact st.opens_before next (Nat.lt_succ_self _)
  have hhandles : v.handles ≤ v.handles + 1 := Nat.le_succ _
  cases hmove with
  | passive => exact hv.append rfl (fun r hr => hopen _ hr) le_rfl hhandles
  | active =>
    refine hv.append (List.append_assoc _ _ _) (fun r hr => ?_) (Nat.le_succ _) hhandles
    rcases List.mem_append.mp hr with hr | hr
    · exact hopen _ hr
    · exact opening_before hr _
  | noMemory =>
    refine hv.append (List.append_assoc _ _ _) (fun r hr => ?_) le_rfl hhandles
    rcases List.mem_append.mp hr with hr | hr
    · exact hopen _ hr
    · simp at hr

lemma Pasv.used {env : Env} (hmove : v.Pasv env v') (hv : v.Used) : v'.Used := by
  cases hmove with
  | noMemory => exact hv
  | noPcb =>
    refine hv.append (List.append_assoc _ _ _) (fun r hr => ?_) (Nat.le_succ _) le_rfl
    rcases List.mem_append.mp hr with hr | hr
    · exact opening_before hr _
    · simp at hr
  | noListen =>
    refine hv.append (List.append_assoc _ _ _) (fun r hr => ?_) (Nat.le_succ _) le_rfl
    rcases List.mem_append.mp hr with hr | hr
    · exact opening_before hr _
    · exact absurd hr (notMem_closing r)
  | listening => exact hv.append rfl (fun r hr => opening_before hr _) (Nat.le_succ _) le_rfl

end View

lemma Sys.Move.used {s : Sys} {v' : View} {e : Event} (hmove : s.Move e v') (hs : s.view.Used) :
    v'.Used := by
  cases hmove with
  | same => exact hs
  | unheardClose => exact hs
  | unheardError => exact hs
  | dataerr => exact hs.append rfl (fun r hr => by simp at hr) le_rfl le_rfl
  | remoteClose =>
    refine hs.append (List.append_assoc _ _ _) (fun r hr => ?_) le_rfl le_rfl
    rcases List.mem_append.mp hr with hr | hr
    · simp at hr
    · exact absurd hr (View.notMem_closing r)
  | @serve d pcb v₁ _ hreached h =>
    have hs₁ : v₁.Used := by
      cases hreached with
      | _ => exact hs
    cases h with
    | same => exact hs₁
    | readEnd => exact hs₁.append rfl (fun r hr => by simp at hr) le_rfl le_rfl
    | sentFile =>
      exact hs₁.append rfl (fun r hr => absurd hr (View.notMem_closing r)) le_rfl le_rfl
    | sentDir =>
      refine hs₁.append (List.append_assoc _ _ _) (fun r hr => ?_) le_rfl le_rfl
      rcases List.mem_append.mp hr with hr | hr
      · simp at hr
      · exact absurd hr (View.notMem_closing r)
  | freed _ h =>
    have hown : ∀ (c : Control) (r : Resource),
        .acquire r ∉ if c.buffer then [Entry.release (Resource.buffer none)] else [] := by
      intro c r
      cases c.buffer with
      | true => simp
      | false => simp
    cases h with
    | alone => exact hs.append rfl (fun r hr => absurd hr (hown _ r)) le_rfl le_rfl
    | session =>
      refine hs.append (List.append_assoc _ _ _) (fun r hr => ?_) le_rfl le_rfl
      rcases List.mem_append.mp hr with hr | hr
      · exact absurd hr (View.notMem_closing r)
      · exact absurd hr (hown _ r)
  | command _ h =>
    cases h with
    | same => exact hs
    | setState => exact hs
    | chdir => exact hs
    | transfer _ h => exact h.used hs
    | pasv _ _ h => exact h.used hs

/-! ### The account of the sessions -/

namespace View

/-- There is no data session, and the account is balanced with the buffer of the control
session. -/
def Idle (v : View) : Prop := v.sessions = (fun _ => none) ∧ Balanced v.account v.own

/-- There is one data session, the current one.  It holds a directory or a file, not both, and no
directory while a file is sent; the account is balanced with what it holds. -/
structure Busy (v : View) (c : Control) (d : ℕ) (h : Hold) : Prop where
  control : v.control = some c
  current : c.current = some d
  sessions : v.sessions = Function.update (fun _ => none) d (some h)
  account : Balanced v.account (v.own ∪ h.held d)
  one : h.dir = none ∨ h.file = none
  retr : c.state = .retr → h.dir = none

/-- There is no data session or one. -/
def Accounted (v : View) : Prop := v.Idle ∨ ∃ c d h, v.Busy c d h

variable {v v' : View} {c : Control} {d d' i : ℕ} {h h' : Hold} {pcb : Option ℕ}

lemma own_setControl {f : Control → Control} (hf : ∀ c, (f c).buffer = c.buffer) :
    (v.setControl f).own = v.own := by
  ext r
  simp only [own, View.setControl, Option.mem_def, Option.map_eq_some_iff, Set.mem_ofPred_eq,
    exists_exists_and_eq_and, hf]

lemma own_eq {b : Control} (hc : v.control = some c) (hb : v'.control = some b)
    (hbuffer : b.buffer = c.buffer) : v'.own = v.own := by
  simp only [own, hc, hb, Option.mem_def, Option.some.injEq, exists_eq_left', hbuffer]

lemma own_close (v : View) (d i : ℕ) (h : Hold) : (v.close d i h).own = v.own :=
  own_setControl (v := v) (f := fun c => { c with current := none }) fun _ => rfl

lemma own_finish (v : View) (d i : ℕ) (h : Hold) : (v.finish d i h).own = v.own :=
  (own_setControl (v := v.close d i h) (f := fun c => { c with
    current := none, pcb := none, state := .idle }) fun _ => rfl).trans (own_close v d i h)

/-- Control blocks, the port counter and the working directory do not matter. -/
lemma Accounted.congr (hv : v.Accounted) (hcontrol : v'.control = v.control)
    (hsessions : v'.sessions = v.sessions) (haccount : v'.account = v.account) : v'.Accounted := by
  have hown : v'.own = v.own := by rw [own, own, hcontrol]
  rcases hv with hidle | ⟨c, d, h, hbusy⟩
  · refine .inl ⟨hsessions.trans hidle.1, ?_⟩
    rw [haccount, hown]
    exact hidle.2
  · refine .inr ⟨c, d, h, hcontrol.trans hbusy.control, hbusy.current,
      hsessions.trans hbusy.sessions, ?_, hbusy.one, hbusy.retr⟩
    rw [haccount, hown]
    exact hbusy.account

lemma Idle.not_live (hv : v.Idle) (hd : v.sessions d = some h) : False := by
  rw [hv.1] at hd
  cases hd

lemma Idle.setControl (hv : v.Idle) {f : Control → Control} (hf : ∀ c, (f c).buffer = c.buffer) :
    (v.setControl f).Idle :=
  ⟨hv.1, by rw [own_setControl hf]; exact hv.2⟩

lemma Busy.eq_of_live (hv : v.Busy c d h) (hd : v.sessions d' = some h') : d' = d ∧ h' = h := by
  rw [hv.sessions] at hd
  by_cases hdd : d' = d
  · rw [hdd, Function.update_self, Option.some.injEq] at hd
    exact ⟨hdd, hd.symm⟩
  · rw [Function.update_of_ne hdd] at hd
    cases hd

lemma Busy.setControl (hv : v.Busy c d h) {f : Control → Control}
    (hf : ∀ c, (f c).buffer = c.buffer ∧ (f c).current = c.current)
    (hretr : (f c).state = .retr → h.dir = none) : (v.setControl f).Busy (f c) d h where
  control := by rw [View.setControl, hv.control, Option.map_some]
  current := (hf c).2.trans hv.current
  sessions := hv.sessions
  account := by
    rw [own_setControl fun c => (hf c).1]
    exact hv.account
  one := hv.one
  retr := hretr

/-- With the one data session gone, there is none. -/
lemma Busy.drop_sessions (hv : v.Busy c d h) :
    Function.update v.sessions d none = fun _ => none := by
  rw [hv.sessions, Function.update_idem, Function.update_eq_self]

/-- The data session ends, with the account balanced for it. -/
lemma Busy.finish (hv : v.Busy c d h) {es : List (Entry Resource)} (i : ℕ)
    (hb : Balanced (v.account ++ es ++ h.closing d) v.own) : ((v.record es).finish d i h).Idle := by
  refine ⟨hv.drop_sessions, ?_⟩
  rw [own_finish]
  exact hb

lemma Reached.accounted {v₁ : View} {e : Event} (hreached : v.Reached e d pcb v₁)
    (hv : v.Accounted) : v₁.Accounted := by
  have hset : ∀ f : Control → Control,
      (∀ c, (f c).buffer = c.buffer ∧ (f c).current = c.current ∧ (f c).state = c.state) →
      (v.setControl f).Accounted := by
    intro f hf
    rcases hv with hidle | ⟨c, d, h, hbusy⟩
    · exact .inl (hidle.setControl fun c => (hf c).1)
    · refine .inr ⟨_, d, h, hbusy.setControl (fun c => ⟨(hf c).1, (hf c).2.1⟩) fun hstate => ?_⟩
      exact hbusy.retr ((hf c).2.2 ▸ hstate)
  cases hreached with
  | @connected i =>
    have hpcb := hset (fun c => { c with pcb := some i }) fun _ => ⟨rfl, rfl, rfl⟩
    exact hpcb.congr rfl rfl rfl
  | accepted =>
    have hpcb := hset (fun c => { c with pcb := some v.nextPcb }) fun _ => ⟨rfl, rfl, rfl⟩
    exact hpcb.congr rfl rfl rfl
  | refused => exact hset _ fun _ => ⟨rfl, rfl, rfl⟩
  | sent => exact hv
  | poll => exact hv

lemma Served.accounted (hmove : v.Served d pcb v') (hv : v.Accounted) : v'.Accounted := by
  rcases hv with hidle | ⟨c, d₀, h₀, hbusy⟩
  · cases hmove with
    | same => exact .inl hidle
    | readEnd _ _ hd => exact (hidle.not_live hd).elim
    | sentFile _ _ hcloses => exact (hidle.not_live hcloses.session).elim
    | sentDir _ _ hcloses => exact (hidle.not_live hcloses.session).elim
  · cases hmove with
    | same => exact .inr ⟨c, d₀, h₀, hbusy⟩
    | @readEnd c' h f hc hstate hd hfile =>
      obtain ⟨rfl, rfl⟩ := hbusy.eq_of_live hd
      obtain rfl := Option.some.inj (hbusy.control.symm.trans hc)
      refine .inr ⟨c, d, { h with file := none }, hbusy.control, hbusy.current, ?_,
        balanced_closeFile hbusy.account hfile, .inr rfl, fun _ => hbusy.retr hstate⟩
      show Function.update v.sessions d _ = _
      rw [hbusy.sessions, Function.update_idem]
    | @sentFile c' h i hc hstate hcloses hfile =>
      obtain ⟨rfl, rfl⟩ := hbusy.eq_of_live hcloses.session
      obtain rfl := Option.some.inj (hbusy.control.symm.trans hc)
      have hb := balanced_closing hbusy.account (hbusy.retr hstate) hfile
      refine .inl ⟨hbusy.drop_sessions, ?_⟩
      rw [own_finish]
      exact hb
    | @sentDir c' h i f hc hstate hcloses hdir =>
      obtain ⟨rfl, rfl⟩ := hbusy.eq_of_live hcloses.session
      have hfile : h.file = none := by
        refine hbusy.one.resolve_left fun hnone => ?_
        rw [hnone] at hdir
        cases hdir
      have hb := balanced_closing (balanced_closeDir hbusy.account hdir) rfl hfile
      exact .inl (hbusy.finish i hb)

/-- The next numbers are new to the account. -/
lemma Used.notMem_session (hv : v.Used) : .acquire (.session v.next) ∉ v.account :=
  fun h => lt_irrefl _ (hv _ h)

lemma Used.notMem_buffer (hv : v.Used) : .acquire (.buffer (some v.next)) ∉ v.account :=
  fun h => lt_irrefl _ (hv _ h)

lemma Used.notMem_opens (hv : v.Used) (st : FtpdState) :
    .acquire (st.opens v.handles) ∉ v.account := by
  intro h
  have hlt := hv _ h
  cases st with
  | _ => exact lt_irrefl _ hlt

/-- A session is allocated when there is none. -/
lemma Idle.alloc (hv : v.Idle) (hused : v.Used) (hc : v.control = some c) (hdir : h.dir = none)
    (hfile : h.file = none) :
    (v.alloc h).Busy { c with current := some v.next } v.next h where
  control := by
    show v.control.map _ = _
    rw [hc, Option.map_some]
  current := rfl
  sessions := by
    show Function.update v.sessions v.next (some h) = _
    rw [hv.1]
  account := by
    have hown : (v.alloc h).own = v.own := own_setControl (v := v)
      (f := fun c => { c with current := some v.next }) fun _ => rfl
    rw [hown]
    exact balanced_opening hv.2 hused.notMem_session hused.notMem_buffer hdir hfile
  one := .inl hdir
  retr := fun _ => hdir

lemma opens_notMem_own (st : FtpdState) (n : ℕ) : st.opens n ∉ v.own := by
  cases st with
  | list | nlst => exact dir_notMem_own
  | _ => exact file_notMem_own

/-- A session is given what a transfer needs as soon as it is allocated. -/
lemma Idle.balanced_active (hv : v.Idle) (hused : v.Used) {st : FtpdState}
    (hst : st ∈ [.list, .nlst, .retr, .stor]) (env : Env) :
    Balanced (v.account ++ [.acquire (st.opens v.handles)] ++ (Hold.fresh env).opening v.next)
      (v.own ∪ ((Hold.fresh env).give v.handles st).held v.next) := by
  have hopened : Balanced (v.account ++ (Hold.fresh env).opening v.next)
      (v.own ∪ (Hold.fresh env).held v.next) :=
    balanced_opening hv.2 hused.notMem_session hused.notMem_buffer rfl rfl
  have hnew : .acquire (st.opens v.handles) ∉ v.account ++ (Hold.fresh env).opening v.next := by
    intro hmem
    rcases List.mem_append.mp hmem with hmem | hmem
    · exact hused.notMem_opens st hmem
    · cases st with
      | _ => exact absurd (mem_opening hmem) (by simp [FtpdState.opens])
  refine (balanced_give hst hopened rfl rfl hnew).perm ?_
  rw [List.append_assoc, List.append_assoc]
  exact List.perm_append_comm.append_left v.account

/-- A command starts a transfer. -/
lemma Transfer.accounted {env : Env} {st : FtpdState} (hmove : v.Transfer env st v')
    (hst : st ∈ [.list, .nlst, .retr, .stor]) (hused : v.Used)
    (hfree : ∀ c ∈ v.control, c.passive = false → c.current = none)
    (hbare : ∀ c ∈ v.control, c.passive = true → ∀ d ∈ c.current, ∀ h ∈ v.sessions d,
      h.dir = none ∧ h.file = none)
    (hv : v.Accounted) : v'.Accounted := by
  have hretr : ∀ h : Hold, h.dir = none → st = .retr → (h.give v.handles st).dir = none := by
    rintro h hdir rfl
    exact hdir
  have hone : ∀ h : Hold, h.dir = none → h.file = none →
      (h.give v.handles st).dir = none ∨ (h.give v.handles st).file = none := by
    intro h hdir hfile
    cases st with
    | list | nlst => exact .inr hfile
    | _ => exact .inl hdir
  -- over an active connection there is no data session before
  have hidle : ∀ c, v.control = some c → c.passive = false → v.Idle := by
    intro c hc hp
    refine hv.resolve_right ?_
    rintro ⟨c₀, d₀, h₀, hbusy⟩
    have hcurrent := hfree c₀ hbusy.control (by
      rw [← Option.some.inj (hc.symm.trans hbusy.control)]
      exact hp)
    rw [hbusy.current] at hcurrent
    cases hcurrent
  cases hmove with
  | @passive c d h hc hp hcurrent hd =>
    obtain ⟨hdir, hfile⟩ := hbare c hc hp d hcurrent h hd
    rcases hv with hnone | ⟨c₀, d₀, h₀, hbusy⟩
    · exact (hnone.not_live hd).elim
    · obtain ⟨rfl, rfl⟩ := hbusy.eq_of_live hd
      have hcontrol : (((v.opened st).put d (h.give v.handles st)).setState st).control =
          some { c₀ with state := st } := by
        show v.control.map _ = _
        rw [hbusy.control, Option.map_some]
      refine .inr ⟨{ c₀ with state := st }, d, h.give v.handles st, hcontrol, hbusy.current, ?_, ?_,
        hone h hdir hfile, hretr h hdir⟩
      · show Function.update v.sessions d _ = _
        rw [hbusy.sessions, Function.update_idem]
      · rw [own_eq hbusy.control hcontrol rfl]
        exact balanced_give hst hbusy.account hdir hfile (hused.notMem_opens st)
  | @active c hc hp =>
    have hnone := hidle c hc hp
    have hcontrol : (((v.opened st).openActive env ((Hold.fresh env).give v.handles st)).setState
        st).control = some { c with
          current := some v.next, pcb := some v.nextPcb, state := st } := by
      show ((v.control.map _).map _).map _ = _
      rw [hc]
      rfl
    refine .inr ⟨_, v.next, (Hold.fresh env).give v.handles st, hcontrol, rfl, ?_, ?_,
      hone _ rfl rfl, hretr _ rfl⟩
    · show Function.update v.sessions v.next _ = _
      rw [hnone.1]
    · have hopening : ((Hold.fresh env).give v.handles st).opening v.next =
          (Hold.fresh env).opening v.next := by
        rw [Hold.opening, Hold.opening, Hold.give_buffer]
      have hbalanced := hnone.balanced_active hused hst env
      rw [← hopening] at hbalanced
      rw [own_eq hc hcontrol rfl]
      exact hbalanced
  | @noMemory c hc hp =>
    have hnone := hidle c hc hp
    refine .inl ⟨hnone.1, ?_⟩
    have hown : ((v.opened st).forget.record [.release (st.opens v.handles)]).own = v.own :=
      own_setControl (v := v) (f := fun c => { c with current := none }) fun _ => rfl
    rw [hown]
    exact hnone.2.borrow (hused.notMem_opens st) (opens_notMem_own st _)

/-- `PASV` allocates a session when there is none. -/
lemma Pasv.accounted {env : Env} (hmove : v.Pasv env v') (hused : v.Used)
    (hcontrol : v.control ≠ none) (hfree : ∀ c ∈ v.control, c.current = none)
    (hv : v.Accounted) : v'.Accounted := by
  obtain ⟨c, hc⟩ := Option.ne_none_iff_exists'.mp hcontrol
  have hidle : v.Idle := by
    refine hv.resolve_right ?_
    rintro ⟨c₀, d₀, h₀, hbusy⟩
    have hcurrent := hfree c₀ hbusy.control
    rw [hbusy.current] at hcurrent
    cases hcurrent
  cases hmove with
  | noMemory => exact .inl (hidle.setControl fun _ => rfl)
  | noPcb =>
    have hbusy := hidle.alloc hused hc (h := .zero) rfl rfl
    refine .inl ⟨hbusy.drop_sessions, ?_⟩
    have hown : ((((v.alloc .zero).setControl fun c => { c with pcb := none }).drop
        v.next).record [.release (.session v.next)]).own = v.own :=
      own_eq hc (b := { c with current := some v.next, pcb := none }) (by
        show (v.control.map _).map _ = _
        rw [hc]
        rfl) rfl
    rw [hown]
    exact hidle.2.borrow hused.notMem_session session_notMem_own
  | @noListen port =>
    have hbusy := hidle.alloc hused hc (h := .fresh env) rfl rfl
    have hbalanced := balanced_closing hbusy.account rfl rfl
    refine .inl ⟨hbusy.drop_sessions, ?_⟩
    have hown : (((v.pasvBound (.fresh env) port).close v.next v.nextPcb (.fresh env)).setControl
        fun c => { c with current := none, pcb := none }).own = (v.alloc (.fresh env)).own :=
      own_eq hbusy.control (b := { c with current := none, pcb := none }) (by
        show (((v.control.map _).map _).map _).map _ = _
        rw [hc]
        rfl) rfl
    rw [hown]
    exact hbalanced
  | @listening port =>
    have hbusy := hidle.alloc hused hc (h := .fresh env) rfl rfl
    have hset := (hbusy.setControl (f := fun c => { c with pcb := some v.nextPcb })
      (fun _ => ⟨rfl, rfl⟩) fun _ => rfl).setControl
        (f := fun c => { c with pcb := some (v.nextPcb + 1), passive := true })
        (fun _ => ⟨rfl, rfl⟩) fun _ => rfl
    exact Accounted.congr (.inr ⟨_, _, _, hset⟩) rfl rfl rfl

/-- Without a control session there is no buffer. -/
lemma own_gone (v : View) (c : Control) : (v.gone c).own = ∅ := by
  ext r
  simp [own, gone]

/-- The control session is freed. -/
lemma Freed.accounted (hmove : v.Freed v')
    (hbare : ∀ c ∈ v.control, ∀ d ∈ c.current, ∀ h ∈ v.sessions d, h.dir = none ∧ h.file = none)
    (hv : v.Accounted) : v'.Accounted := by
  cases hmove with
  | @alone c hc hcurrent =>
    rcases hv with hidle | ⟨c₀, d₀, h₀, hbusy⟩
    · refine .inl ⟨hidle.1, ?_⟩
      rw [own_gone]
      exact balanced_gone hc hidle.2
    · obtain rfl := Option.some.inj (hc.symm.trans hbusy.control)
      rw [hbusy.current] at hcurrent
      cases hcurrent
  | @session c d i h hc hcurrent hcloses =>
    rcases hv with hidle | ⟨c₀, d₀, h₀, hbusy⟩
    · exact (hidle.not_live hcloses.session).elim
    · obtain ⟨rfl, rfl⟩ := hbusy.eq_of_live hcloses.session
      obtain ⟨hdir, hfile⟩ := hbare c hc d hcurrent h hcloses.session
      refine .inl ⟨hbusy.drop_sessions, ?_⟩
      rw [own_gone]
      exact balanced_gone hc (balanced_closing hbusy.account hdir hfile)

end View

lemma Command.transfer_mem {env : Env} {c : Command} {st : FtpdState}
    (h : c.transfer env = some st) : st ∈ [.list, .nlst, .retr, .stor] := by
  cases c with
  | list | nlst | retr | stor =>
    rw [Command.transfer] at h
    split at h
    · obtain rfl := Option.some.inj h
      decide
    · cases h
  | _ => cases h

lemma DataState.Bare.hold {x : DataState} (h : x.Bare) : x.hold.dir = none ∧ x.hold.file = none :=
  ⟨Option.map_eq_none_iff.mpr h.1, Option.map_eq_none_iff.mpr h.2⟩

section Step

variable {s : Sys} {e : Event} {v' : View}

lemma View.Commanded.accounted {c : Command} (hmove : s.view.Commanded e.env c v')
    (hc : e.command = some c) (he : KeepsAccount s e) (hused : s.view.Used)
    (hs : s.view.Accounted) : v'.Accounted := by
  have hfree : ∀ c' ∈ s.view.control, e.opens c'.passive = true → c'.current = none := by
    intro c' hc'
    obtain ⟨m, hm, rfl⟩ := Option.map_eq_some_iff.mp hc'
    exact he.1 m hm
  simp only [Event.opens, hc, decide_eq_true_eq] at hfree
  cases hmove with
  | same => exact hs
  | chdir => exact hs.congr rfl rfl rfl
  | @setState st hst =>
    rcases hs with hidle | ⟨c₀, d, h, hbusy⟩
    · exact .inl (hidle.setControl fun _ => rfl)
    · refine .inr ⟨_, d, h, hbusy.setControl (fun _ => ⟨rfl, rfl⟩) fun hretr => ?_⟩
      -- none of USER, PASS, QUIT and ABOR starts to send a file
      obtain rfl : st = .retr := hretr
      cases c with
      | user | pass | quit | abrt => cases hst
      | _ => cases hst
  | transfer ht h =>
    have hsome : (c.transfer e.env).isSome = true := by rw [ht, Option.isSome_some]
    refine h.accounted (Command.transfer_mem ht) hused
      (fun c' hc' hp => hfree c' hc' (.inr ⟨hsome, hp⟩)) (fun c' hc' hp d hd h hh => ?_) hs
    obtain ⟨m, hm, rfl⟩ := Option.map_eq_some_iff.mp hc'
    obtain ⟨x, hx, rfl⟩ := Option.map_eq_some_iff.mp hh
    exact (he.2.1 m hm hp c hc hsome d hd x hx).hold
  | pasv hpasv hcontrol h =>
    exact h.accounted hused hcontrol (fun c' hc' => hfree c' hc' (.inl hpasv)) hs

/-- **What one callback preserves.** -/
lemma Sys.Move.accounted (hmove : s.Move e v') (he : KeepsAccount s e) (hused : s.view.Used)
    (hs : s.view.Accounted) : v'.Accounted := by
  cases hmove with
  | same => exact hs
  | unheardClose => exact hs.congr rfl rfl rfl
  | unheardError => exact hs.congr rfl rfl rfl
  | command hc h => exact h.accounted hc he hused hs
  | serve hreached h => exact h.accounted (hreached.accounted hs)
  | @remoteClose i d f p h hcb hp _ _ _ hcloses hfile =>
    rcases hs with hidle | ⟨c, d₀, h₀, hbusy⟩
    · exact (hidle.not_live hcloses.session).elim
    · obtain ⟨rfl, rfl⟩ := hbusy.eq_of_live hcloses.session
      have hdir : h.dir = none := by
        refine hbusy.one.resolve_right fun hnone => ?_
        rw [hnone] at hfile
        cases hfile
      have hbalanced := balanced_closing (balanced_closeFile hbusy.account hfile) hdir rfl
      exact .inl (hbusy.finish i hbalanced)
  | @dataerr i d p hcb hp _ herr harg howned =>
    obtain ⟨h, hd, -⟩ := howned
    rcases hs with hidle | ⟨c, d₀, h₀, hbusy⟩
    · exact (hidle.not_live hd).elim
    · obtain ⟨rfl, rfl⟩ := hbusy.eq_of_live hd
      obtain ⟨x, hx, rfl⟩ := Option.map_eq_some_iff.mp hd
      have hkeeps := he.2.2.1
      rw [hcb] at hkeeps
      obtain ⟨hbare, hbuffer⟩ := hkeeps p hp herr d harg x hx
      obtain ⟨hdir, hfile⟩ := hbare.hold
      have hclosing : x.hold.closing d = [.release (.session d)] := by
        rw [Hold.closing, show x.hold.buffer = false from hbuffer]
        rfl
      have hbalanced := balanced_closing hbusy.account hdir hfile
      rw [hclosing] at hbalanced
      refine .inl ⟨hbusy.drop_sessions, ?_⟩
      rw [View.own_eq hbusy.control (b := { c with current := none, state := .idle }) (by
        show s.view.control.map _ = _
        rw [hbusy.control, Option.map_some]) rfl]
      exact hbalanced
  | freed hends h =>
    refine h.accounted (fun c hc d hd h hh => ?_) hs
    obtain ⟨m, hm, rfl⟩ := Option.map_eq_some_iff.mp hc
    obtain ⟨x, hx, rfl⟩ := Option.map_eq_some_iff.mp hh
    exact (he.2.2.2.1 hends m hm d hd x hx).hold

end Step

/-! ### The theorem -/

lemma Accepted.accounted {s : Sys} (h : Accepted s) : s.view.Used ∧ s.view.Accounted := by
  obtain ⟨buffer, hview⟩ := h.view
  rw [hview]
  refine ⟨fun r hr => ?_, .inl ⟨rfl, ?_⟩⟩
  · cases buffer with
    | false => cases hr
    | true =>
      rw [Entry.acquire.inj (List.mem_singleton.mp hr)]
      trivial
  · cases buffer with
    | false => exact balanced_nil.congr fun r => by simp [View.own, View.start]
    | true =>
      refine (balanced_nil.acquire (r := Resource.buffer none) List.not_mem_nil).congr fun r => ?_
      simp [View.own, View.start]

/-- A run releases everything once: no callback frees or uses what has been freed, and when the
control session is gone each file, directory, buffer and data session that was acquired has been
released as often. -/
structure ReleasesOnce (s₀ : Sys) (es : List Event) : Prop where
  no_second_free : ∀ es₁ e es₂ s, es = es₁ ++ e :: es₂ → exec ftpdStep s₀ es₁ = some s →
    (handle e).run s ≠ .error .freed
  settled : ∀ s, exec ftpdStep s₀ es = some s → s.fsm = none → ∀ r : Resource,
    s.account.count (.acquire r) ≤ 1 ∧
      s.account.count (.release r) = s.account.count (.acquire r)

/-- **Everything is released once** in a run that meets the condition. -/
theorem released_of_keepsAccount {s₀ : Sys} {es : List Event} (h₀ : Accepted s₀)
    (hes : Admits ftpdStep KeepsAccount s₀ es) : ReleasesOnce s₀ es := by
  constructor
  · rintro es₁ e es₂ s rfl hrun
    exact handle_ne_freed (hes.of_append hrun).1.2.2.2.2
  · intro s hrun hend r
    have hinv := view_inv_of_move (P := fun v => v.Used ∧ v.Accounted)
      (fun s e v' hs he hmove => ⟨hmove.used hs.1, hmove.accounted he hs.1 hs.2⟩) h₀ h₀.accounted
      hes hrun
    have hcontrol : s.view.control = none := Option.map_eq_none_iff.mpr hend
    rcases hinv.2.2 with hidle | ⟨c, d, h, hbusy⟩
    · refine Balanced.settled (hidle.2.congr fun r => ?_) r
      simp [View.own, hcontrol]
    · rw [hbusy.control] at hcontrol
      cases hcontrol

/-- A listing over an active connection and then `QUIT`: the directory is closed once. -/
theorem released_listing :
    ∃ es s, exec ftpdStep session es = some s ∧ s.fsm = none ∧ ReleasesOnce session es ∧
      s.account.count (.acquire (.dir 0)) = 1 ∧ s.account.count (.release (.dir 0)) = 1 := by
  have hrun : Option.map (fun s => (s.fsm.isNone, s.account.count (.acquire (.dir 0))))
      (exec ftpdStep session [line "LIST\r\n", ⟨.connected 0, calm⟩, ⟨.sent 0, calm⟩,
        line "QUIT\r\n", ⟨.msgsent, calm⟩]) = some (true, 1) := by decide +kernel
  obtain ⟨s, hs, hend⟩ := Option.map_eq_some_iff.mp hrun
  rw [Prod.mk.injEq, Option.isNone_iff_eq_none] at hend
  obtain ⟨hfsm, hacquire⟩ := hend
  have hreleased : ReleasesOnce session [line "LIST\r\n", ⟨.connected 0, calm⟩, ⟨.sent 0, calm⟩,
      line "QUIT\r\n", ⟨.msgsent, calm⟩] :=
    released_of_keepsAccount accepted_session (by decide +kernel)
  exact ⟨_, s, hs, hfsm, hreleased, hacquire, (hreleased.settled s hs hfsm _).2.trans hacquire⟩

/-- The control connection ends in the middle of a download: the file stays open.  An error of
the data connection in the middle of a download: neither the file nor the buffer of the FIFO is
released.  And `PASV` without memory for a control block frees its data session, which the end of
the control connection then frees again. -/
theorem file_left_open :
    Accepted session ∧
    (∃ es s, exec ftpdStep session es = some s ∧ s.fsm = none ∧ (∀ i < s.nextPcb, s.pcbs i = none) ∧
      s.account.count (.acquire (.file 0)) = 1 ∧ s.account.count (.release (.file 0)) = 0) ∧
    (∃ es s, exec ftpdStep session es = some s ∧ s.fsm = none ∧ (∀ i < s.nextPcb, s.pcbs i = none) ∧
      s.account.count (.acquire (.buffer (some 0))) = 1 ∧
      s.account.count (.release (.buffer (some 0))) = 0) ∧
    ∃ e s, ftpdStep session e = some s ∧ s.account.count (.release (.session 0)) = 1 ∧
      (handle ⟨.msgclosed, calm⟩).run s = .error .freed ∧
      ¬ ReleasesOnce session [e, ⟨.msgclosed, calm⟩] := by
  have hclosed : Option.map (fun s => (s.fsm.isNone, decide (∀ i < s.nextPcb, s.pcbs i = none),
      s.account.count (.acquire (.file 0)), s.account.count (.release (.file 0))))
      (exec ftpdStep session [line "RETR a\r\n", ⟨.connected 0, calm⟩, ⟨.msgclosed, calm⟩]) =
      some (true, true, 1, 0) := by decide +kernel
  have herror : Option.map (fun s => (s.fsm.isNone, decide (∀ i < s.nextPcb, s.pcbs i = none),
      s.account.count (.acquire (.buffer (some 0))), s.account.count (.release (.buffer (some 0)))))
      (exec ftpdStep session [line "RETR a\r\n", ⟨.connected 0, calm⟩, ⟨.dataerr 0, calm⟩,
        ⟨.msgclosed, calm⟩]) = some (true, true, 1, 0) := by decide +kernel
  have htwice : Option.map (fun s => (s.account.count (.release (.session 0)),
      stops ⟨.msgclosed, calm⟩ s))
      (ftpdStep session ⟨.msgrecv [lit "PASV\r\n"], { calm with tcpNew := false }⟩) =
      some (1, some .freed) := by decide +kernel
  refine ⟨accepted_session, ?_, ?_, ?_⟩
  · obtain ⟨s, hs, hend⟩ := Option.map_eq_some_iff.mp hclosed
    simp only [Prod.mk.injEq, Option.isNone_iff_eq_none, decide_eq_true_eq] at hend
    exact ⟨_, s, hs, hend⟩
  · obtain ⟨s, hs, hend⟩ := Option.map_eq_some_iff.mp herror
    simp only [Prod.mk.injEq, Option.isNone_iff_eq_none, decide_eq_true_eq] at hend
    exact ⟨_, s, hs, hend⟩
  · obtain ⟨s, hs, hend⟩ := Option.map_eq_some_iff.mp htwice
    obtain ⟨hcount, hstops⟩ := Prod.mk.inj hend
    have hrun := stops_eq_some hstops
    refine ⟨_, s, hs, hcount, hrun, fun h => ?_⟩
    exact h.no_second_free [_] _ [] s rfl (exec_cons_eq_some.mpr ⟨s, hs, rfl⟩) hrun

end Teensy41Ethernet.Ftpd
