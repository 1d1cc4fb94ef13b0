import Teensy41Ethernet.Ftpd.Moves

/-!
# Pointers between control blocks and data sessions

A control block of TCP carries a pointer to its data session as the argument of its callbacks,
and the control session points to the control block of its current data session.  When a data
session is freed, only the control block it is closed with is closed, too.  The control block
that listens for a passive connection carries the same pointer as the accepted one, and is never
closed: it is left with a pointer to a freed session as soon as a passive transfer ends.  And
`ftpd_dataerr` is registered only when a connection has been opened, so a connection that is
refused leaves the control session with a pointer to a freed control block.  This file shows
that these, and two cases without memory, are the only ways to lose a pointer.
-/

namespace Teensy41Ethernet.Ftpd

open Lib

/-! ### The property -/

/-- The argument of every control block is a null pointer or a live data session, and if there
is a current data session, `fsm->datapcb` is a live control block. -/
structure Linked (s : Sys) : Prop where
  arg : ∀ i p, s.pcbs i = some p → ∀ d, p.arg = some d → s.data d ≠ none
  datapcb : ∀ m, s.fsm = some m → m.datafs ≠ none → ∃ i, m.datapcb = some i ∧ s.pcbs i ≠ none

/-- Serving the data session `d` may end it: its directory is listed, or its file has been read
to the end. -/
def MayFinish (s : Sys) (d : ℕ) : Prop :=
  ∃ m ∈ s.fsm, ∃ x ∈ s.data d, m.state ∈ [.list, .nlst] ∨ m.state = .retr ∧ x.vfsFile = none

/-- No control block but `pcb` carries a pointer to the data session `d`. -/
def OnlyCarrier (s : Sys) (d : ℕ) (pcb : Option ℕ) : Prop :=
  ∀ j < s.nextPcb, ∀ p ∈ s.pcbs j, p.arg = some d → pcb = some j

/-- What a callback on a data connection must meet, for the data session `d` of its control
block: a session that the callback may free has no other control block, so that the session
of a passive connection, for which the listening one is still there, does not end; a connection
is accepted with memory for its control block unless there is no current session; and a
connection that is refused is not the one of the current session. -/
def KeepsCarrier (s : Sys) (d : ℕ) : Callback → Prop
  | .connected i | .sent i => MayFinish s d → OnlyCarrier s d (some i)
  | .accept _ true => ¬ MayFinish s d
  | .accept _ false => ∀ m ∈ s.fsm, m.datafs = none
  | .recv i none => OnlyCarrier s d (some i)
  | .dataerr i => (∀ p ∈ s.pcbs i, p.err = true → OnlyCarrier s d (some i)) ∧
      ∀ p ∈ s.pcbs i, p.err = false → ∀ m ∈ s.fsm, m.datafs ≠ none → m.datapcb ≠ some i
  | _ => True

/-- The control block of a callback on a data connection. -/
def Callback.pcb : Callback → Option ℕ
  | .connected i | .accept i _ | .sent i | .recv i _ | .dataerr i => some i
  | _ => none

/-- No pointer is lost: `PASV` gets a control block if it gets a session, and a data session is
freed only together with the one control block that points to it. -/
def KeepsLinks (s : Sys) (e : Event) : Prop :=
  (e.command = some .pasv → e.env.mallocData = true → e.env.tcpNew = true) ∧
  (∀ i ∈ e.callback.pcb, ∀ p ∈ s.pcbs i, ∀ d ∈ p.arg, KeepsCarrier s d e.callback) ∧
  (∀ m ∈ s.fsm, ∀ d ∈ m.datafs, e.callback = .msgpoll → MayFinish s d →
    OnlyCarrier s d m.datapcb) ∧
  (Ends s e → ∀ m ∈ s.fsm, ∀ d ∈ m.datafs, OnlyCarrier s d m.datapcb)

instance (s : Sys) (d : ℕ) : Decidable (MayFinish s d) := by
  unfold MayFinish
  infer_instance

instance (s : Sys) (d : ℕ) (pcb : Option ℕ) : Decidable (OnlyCarrier s d pcb) := by
  unfold OnlyCarrier
  infer_instance

instance (s : Sys) (d : ℕ) (c : Callback) : Decidable (KeepsCarrier s d c) := by
  unfold KeepsCarrier
  refine Callback.casesOn c ?_ ?_ ?_ ?_ ?_ ?_ (fun i memory => Bool.casesOn memory ?_ ?_) ?_
    (fun i p => Option.casesOn p ?_ ?_) ?_ <;> intros <;> infer_instance

instance (s : Sys) (e : Event) : Decidable (KeepsLinks s e) := by
  unfold KeepsLinks
  infer_instance

/-! ### Control blocks -/

/-- The callbacks of an open connection are registered, and a connection that TCP has opened or
is about to open has a data session as argument. -/
def Pcb.Heard (p : Pcb) : Prop :=
  (p.state = .established → p.recv = true ∧ p.err = true) ∧
    (p.state ∈ [.connecting, .established] → p.arg ≠ none)

namespace View

/-- Every control block is heard, and numbers not given out yet belong to none. -/
def Heard (v : View) : Prop := FreshFrom v.nextPcb v.pcbs ∧ AllLive Pcb.Heard v.pcbs

variable {v v' : View} {d i : ℕ} {p : Pcb} {h : Hold}

lemma Heard.putPcb (hv : v.Heard) (hi : v.pcbs i = some p) {q : Pcb} (hq : q.Heard) :
    (v.putPcb i q).Heard :=
  ⟨FreshFrom.put hv.1 (by rw [hi]; exact Option.some_ne_none p) q, AllLive.put hv.2 i hq⟩

lemma Heard.newPcb (hv : v.Heard) (hp : p.Heard) : (v.newPcb p).Heard :=
  ⟨FreshFrom.alloc hv.1 p, AllLive.put hv.2 _ hp⟩

lemma Heard.dropPcb (hv : v.Heard) (i : ℕ) : (v.dropPcb i).Heard :=
  ⟨FreshFrom.drop hv.1 i, AllLive.drop hv.2 i⟩

/-- A connection that is opened. -/
lemma heard_established (d : ℕ) : Pcb.Heard ⟨some d, .established, true, true, true⟩ :=
  ⟨fun _ => ⟨rfl, rfl⟩, fun _ => Option.some_ne_none d⟩

/-- A control block with an argument, before its connection is open. -/
lemma heard_fresh (d : ℕ) {st : PcbState} (hst : st ≠ .established) :
    (Pcb.fresh (some d) st).Heard :=
  ⟨fun h => absurd h hst, fun _ => Option.some_ne_none d⟩

lemma heard_created : (Pcb.fresh none .created).Heard :=
  ⟨fun h => (by cases h), fun h => absurd h (by decide)⟩

lemma Reached.heard {v₁ : View} {e : Event} {pcb : Option ℕ} (hreached : v.Reached e d pcb v₁)
    (hv : v.Heard) : v₁.Heard := by
  cases hreached with
  | connected _ hp => exact hv.putPcb hp (heard_established d)
  | accepted => exact hv.newPcb (heard_established d)
  | refused => exact hv
  | sent => exact hv
  | poll => exact hv

lemma Commanded.heard {env : Env} {c : Command} (hmove : v.Commanded env c v') (hv : v.Heard) :
    v'.Heard := by
  cases hmove with
  | same => exact hv
  | setState => exact hv
  | chdir => exact hv
  | transfer _ h =>
    cases h with
    | passive => exact hv
    | noMemory => exact hv
    | active =>
      refine hv.newPcb (heard_fresh v.next ?_)
      split
      · decide
      · decide
  | pasv _ _ h =>
    cases h with
    | noMemory => exact hv
    | noPcb => exact hv
    | noListen => exact (hv.newPcb heard_created).dropPcb _
    | listening =>
      exact ((hv.newPcb heard_created).dropPcb _).newPcb (heard_fresh v.next (by decide))

end View

lemma Sys.Move.heard {s : Sys} {v' : View} {e : Event} (hmove : s.Move e v')
    (hs : s.view.Heard) : v'.Heard := by
  cases hmove with
  | same => exact hs
  | command _ h => exact h.heard hs
  | remoteClose => exact hs.dropPcb _
  | unheardClose => exact hs.dropPcb _
  | dataerr => exact hs.dropPcb _
  | unheardError => exact hs.dropPcb _
  | serve hreached h =>
    have hs₁ := hreached.heard hs
    cases h with
    | same => exact hs₁
    | readEnd => exact hs₁
    | sentFile => exact hs₁.dropPcb _
    | sentDir => exact hs₁.dropPcb _
  | freed _ h =>
    cases h with
    | alone => exact hs
    | session => exact hs.dropPcb _

/-! ### Arguments of control blocks -/

namespace View

/-- The argument of every control block is a null pointer or a live data session. -/
def ArgsLive (v : View) : Prop := RefsLive Pcb.arg v.pcbs v.sessions

/-- Serving the data session `d` may end it. -/
def MayFinish (v : View) (d : ℕ) : Prop :=
  ∃ c h, v.control = some c ∧ v.sessions d = some h ∧
    (c.state ∈ [.list, .nlst] ∨ c.state = .retr ∧ h.file = none)

/-- If serving the data session `d` over `pcb` may end it, no other control block carries a
pointer to it. -/
def Frees (v : View) (d : ℕ) (pcb : Option ℕ) : Prop :=
  ∀ i, pcb = some i → v.MayFinish d → ∀ j p, v.pcbs j = some p → p.arg = some d → j = i

variable {v v' : View} {d i : ℕ} {p : Pcb} {h : Hold} {pcb : Option ℕ}

lemma Owned.live (hd : v.Owned d) : v.sessions d ≠ none := by
  obtain ⟨h, hh, -⟩ := hd
  rw [hh]
  exact Option.some_ne_none h

/-- A data session ends with the only control block that points to it. -/
lemma ArgsLive.finish (hv : v.ArgsLive) (h : Hold)
    (honly : ∀ j p, v.pcbs j = some p → p.arg = some d → j = i) : (v.finish d i h).ArgsLive :=
  RefsLive.drop_both hv honly

lemma Served.argsLive (hmove : v.Served d pcb v') (hfrees : v.Frees d pcb) (hv : v.ArgsLive) :
    v'.ArgsLive := by
  cases hmove with
  | same => exact hv
  | readEnd => exact RefsLive.put_target hv d _
  | @sentFile c h i hc hstate hcloses hfile =>
    exact hv.finish h (hfrees i hcloses.pcb ⟨c, h, hc, hcloses.session, .inr ⟨hstate, hfile⟩⟩)
  | @sentDir c h i f hc hstate hcloses =>
    exact ArgsLive.finish (v := v.record _) hv h
      (hfrees i hcloses.pcb ⟨c, h, hc, hcloses.session, .inl hstate⟩)

lemma Reached.argsLive {v₁ : View} {e : Event} (hreached : v.Reached e d pcb v₁)
    (hv : v.ArgsLive) : v₁.ArgsLive := by
  have hput : ∀ i, v.Owned d →
      RefsLive Pcb.arg (Function.update v.pcbs i (some ⟨some d, .established, true, true, true⟩))
        v.sessions := by
    intro i howned
    refine RefsLive.put_source hv i fun d' hd' => ?_
    obtain rfl := Option.some.inj hd'
    exact howned.live
  cases hreached with
  | connected _ _ _ _ howned => exact hput _ howned
  | accepted _ _ _ _ howned => exact hput _ howned
  | refused => exact hv
  | sent => exact hv
  | poll => exact hv

/-- A new control block for a data session that was allocated just before. -/
lemma ArgsLive.alloc_newPcb (hv : v.ArgsLive) (h : Hold) (st : PcbState) (i : ℕ) :
    RefsLive Pcb.arg (Function.update v.pcbs i (some (.fresh (some v.next) st)))
      (Function.update v.sessions v.next (some h)) := by
  refine (RefsLive.put_target hv v.next h).put_source i fun d hd => ?_
  obtain rfl := Option.some.inj hd
  rw [Function.update_self]
  exact Option.some_ne_none h

lemma Commanded.argsLive {env : Env} {c : Command} (hmove : v.Commanded env c v')
    (hfresh : v.Fresh) (hv : v.ArgsLive) : v'.ArgsLive := by
  -- nothing points to the next data session yet
  have hnext : ∀ i p, v.pcbs i = some p → p.arg ≠ some v.next := by
    intro i p hp harg
    exact hv i p hp v.next harg (hfresh v.next le_rfl)
  have hnull : ∀ d, (Pcb.fresh none .created).arg ≠ some d := fun d => (Option.some_ne_none d).symm
  have hcreated : ∀ S : ℕ → Option Hold, RefsLive Pcb.arg v.pcbs S →
      RefsLive Pcb.arg (Function.update (Function.update v.pcbs v.nextPcb
        (some (.fresh none .created))) v.nextPcb none) S := fun S hS =>
    (hS.put_source v.nextPcb fun d hd => absurd hd (hnull d)).drop_source v.nextPcb
  cases hmove with
  | same => exact hv
  | setState => exact hv
  | chdir => exact hv
  | transfer _ h =>
    cases h with
    | passive => exact RefsLive.put_target hv _ _
    | noMemory => exact hv
    | active => exact hv.alloc_newPcb _ _ _
  | pasv _ _ h =>
    cases h with
    | noMemory => exact hv
    | noPcb => exact (RefsLive.put_target hv _ _).drop_target hnext
    | noListen =>
      refine RefsLive.drop_target (hcreated _ (RefsLive.put_target hv _ _)) ?_
      exact (AllLive.put hnext v.nextPcb (hnull v.next)).drop v.nextPcb
    | listening =>
      refine (hcreated _ (RefsLive.put_target hv v.next (.fresh env))).put_source _ fun d hd => ?_
      obtain rfl := Option.some.inj hd
      rw [Function.update_self]
      exact Option.some_ne_none _

/-! ### The control block of the current session -/

/-- If there is a current data session, the control session points to a live control block. -/
def HasPcb (v : View) : Prop :=
  ∀ c ∈ v.control, c.current ≠ none → ∃ i, c.pcb = some i ∧ v.pcbs i ≠ none

lemma hasPcb_of_current (hv : ∀ c ∈ v.control, c.current = none) : v.HasPcb :=
  fun c hc hcurrent => absurd (hv c hc) hcurrent

lemma hasPcb_finish (v : View) (d i : ℕ) (h : Hold) : (v.finish d i h).HasPcb := by
  refine hasPcb_of_current fun c' hc' => ?_
  obtain ⟨c, -, rfl⟩ := Option.map_eq_some_iff.mp hc'
  rfl

lemma hasPcb_forget (v : View) : v.forget.HasPcb := by
  refine hasPcb_of_current fun c' hc' => ?_
  obtain ⟨c, -, rfl⟩ := Option.map_eq_some_iff.mp hc'
  rfl

/-- The control session is given a live control block. -/
lemma hasPcb_setPcb {f : Control → Control} (hf : ∀ c, (f c).pcb = some i)
    (hi : v.pcbs i = some p) : (v.setControl f).HasPcb := by
  intro c' hc' _
  obtain ⟨c, -, rfl⟩ := Option.map_eq_some_iff.mp hc'
  refine ⟨i, hf c, ?_⟩
  show v.pcbs i ≠ none
  rw [hi]
  exact Option.some_ne_none p

lemma HasPcb.setState (hv : v.HasPcb) (st : FtpdState) : (v.setState st).HasPcb := by
  intro c' hc'
  obtain ⟨c, hc, rfl⟩ := Option.map_eq_some_iff.mp hc'
  exact hv c hc

lemma HasPcb.dropPcb (hv : v.HasPcb)
    (hi : ∀ c ∈ v.control, c.current ≠ none → c.pcb ≠ some i) : (v.dropPcb i).HasPcb := by
  intro c hc hcurrent
  obtain ⟨j, hj, hlive⟩ := hv c hc hcurrent
  have hne : j ≠ i := by
    rintro rfl
    exact hi c hc hcurrent hj
  exact ⟨j, hj, by rwa [dropPcb_pcbs_of_ne hne]⟩

lemma Served.hasPcb (hmove : v.Served d pcb v') (hv : v.HasPcb) : v'.HasPcb := by
  cases hmove with
  | same => exact hv
  | readEnd => exact hv
  | sentFile => exact hasPcb_finish v d _ _
  | sentDir => exact hasPcb_finish _ d _ _

lemma Commanded.hasPcb {env : Env} {c : Command} (hmove : v.Commanded env c v')
    (hpasv : c = .pasv → env.mallocData = true → env.tcpNew = true) (hv : v.HasPcb) :
    v'.HasPcb := by
  cases hmove with
  | same => exact hv
  | setState => exact hv.setState _
  | chdir => exact hv
  | transfer _ h =>
    cases h with
    | passive =>
      refine HasPcb.setState ?_ _
      exact hv
    | noMemory => exact hasPcb_forget v
    | active =>
      refine HasPcb.setState ?_ _
      exact hasPcb_setPcb (fun _ => rfl) putPcb_pcbs_self
  | pasv hc _ h =>
    cases h with
    | noMemory => exact hasPcb_forget v
    | noPcb hm ht =>
      rw [hpasv hc hm] at ht
      cases ht
    | noListen =>
      refine hasPcb_of_current fun c' hc' => ?_
      obtain ⟨c, -, rfl⟩ := Option.map_eq_some_iff.mp hc'
      rfl
    | listening => exact hasPcb_setPcb (fun _ => rfl) putPcb_pcbs_self

end View

/-! ### The theorem -/

/-- The invariant: all pointers are live, and what the moves need besides. -/
structure View.Linked (v : View) : Prop where
  fresh : v.Fresh
  heard : v.Heard
  args : v.ArgsLive
  hasPcb : v.HasPcb

lemma View.Linked.linked {s : Sys} (h : s.view.Linked) : Ftpd.Linked s := by
  refine ⟨fun i p hp d hd hnone => ?_, fun m hm hdatafs => ?_⟩
  · exact h.args i p hp d hd (Option.map_eq_none_iff.mpr hnone)
  · exact h.hasPcb m.control (Sys.view_control hm) hdatafs

section Step

variable {s : Sys} {e : Event} {d i : ℕ} {p : Pcb} {pcb : Option ℕ}

lemma mayFinish_of_view (h : s.view.MayFinish d) : MayFinish s d := by
  obtain ⟨c, h, hc, hd, hstate⟩ := h
  obtain ⟨m, hm, rfl⟩ := Option.map_eq_some_iff.mp hc
  obtain ⟨x, hx, rfl⟩ := Option.map_eq_some_iff.mp hd
  refine ⟨m, hm, x, hx, hstate.imp_right fun hretr => ⟨hretr.1, ?_⟩⟩
  exact Option.map_eq_none_iff.mp hretr.2

lemma OnlyCarrier.eq (h : OnlyCarrier s d pcb) (hs : s.view.Heard) {j : ℕ}
    (hj : s.pcbs j = some p) (harg : p.arg = some d) : pcb = some j := by
  refine h j (FreshFrom.lt hs.1 ?_) p hj harg
  show s.pcbs j ≠ none
  rw [hj]
  exact Option.some_ne_none p

/-- What happens before serving does not change whether it may end the session. -/
lemma View.Reached.mayFinish {v₁ : View} (hreached : s.view.Reached e d pcb v₁)
    (h : v₁.MayFinish d) : Ftpd.MayFinish s d := by
  obtain ⟨hsessions, hcontrol⟩ := hreached.same
  obtain ⟨c₁, h, hc₁, hd, hstate⟩ := h
  obtain ⟨c, hc, hsame⟩ := hcontrol c₁ hc₁
  exact mayFinish_of_view ⟨c, h, hc, hsessions ▸ hd, hsame ▸ hstate⟩

/-- A callback that serves a session frees it only with its one control block. -/
lemma KeepsLinks.frees (he : KeepsLinks s e) (hs : s.view.Heard) {v₁ : View}
    (hreached : s.view.Reached e d pcb v₁) : v₁.Frees d pcb := by
  intro i hi hfin j q hj harg
  have hmay : MayFinish s d := hreached.mayFinish hfin
  cases hreached with
  | @connected k p hcb hp _ hparg =>
    obtain rfl := Option.some.inj hi
    by_contra hne
    have hj' : s.pcbs j = some q := (Function.update_of_ne hne _ _).symm.trans hj
    have hkeeps := he.2.1 k (by rw [hcb]; rfl) p hp d hparg
    rw [hcb] at hkeeps
    exact hne (Option.some.inj ((hkeeps hmay).eq hs hj' harg)).symm
  | @accepted l p hcb hp _ hparg =>
    have hkeeps := he.2.1 l (by rw [hcb]; rfl) p hp d hparg
    rw [hcb] at hkeeps
    exact absurd hmay hkeeps
  | refused => cases hi
  | @sent k p hcb hp _ _ hparg =>
    obtain rfl := Option.some.inj hi
    have hkeeps := he.2.1 k (by rw [hcb]; rfl) p hp d hparg
    rw [hcb] at hkeeps
    exact (Option.some.inj ((hkeeps hmay).eq hs hj harg)).symm
  | @poll c hcb hc hcurrent =>
    obtain ⟨m, hm, rfl⟩ := Option.map_eq_some_iff.mp hc
    have honly := he.2.2.1 m hm d hcurrent hcb hmay
    exact (Option.some.inj (hi.symm.trans (honly.eq hs hj harg))).symm

/-- **What one callback preserves.** -/
lemma Sys.Move.linked {v' : View} (hmove : s.Move e v') (he : KeepsLinks s e)
    (hs : s.view.Linked) : v'.Linked := by
  refine ⟨hmove.fresh hs.fresh, hmove.heard hs.heard, ?_, ?_⟩
  · cases hmove with
    | same => exact hs.args
    | command _ h => exact h.argsLive hs.fresh hs.args
    | serve hreached h =>
      exact h.argsLive (he.frees hs.heard hreached) (hreached.argsLive hs.args)
    | unheardClose => exact RefsLive.drop_source hs.args _
    | unheardError => exact RefsLive.drop_source hs.args _
    | @remoteClose i d f p h hcb hp _ _ harg =>
      refine View.ArgsLive.finish (v := s.view.record _) hs.args h fun j q hj hq => ?_
      have honly := he.2.1 i (by rw [hcb]; rfl) p hp d harg
      rw [hcb] at honly
      exact (Option.some.inj (OnlyCarrier.eq honly hs.heard hj hq)).symm
    | @dataerr i d p hcb hp _ herr harg =>
      refine RefsLive.drop_both hs.args fun j q hj hq => ?_
      have honly := he.2.1 i (by rw [hcb]; rfl) p hp d harg
      rw [hcb] at honly
      exact (Option.some.inj ((honly.1 p hp herr).eq hs.heard hj hq)).symm
    | freed hends h =>
      cases h with
      | alone => exact hs.args
      | @session c d i h hc hcurrent hcloses =>
        obtain ⟨m, hm, rfl⟩ := Option.map_eq_some_iff.mp hc
        have honly := he.2.2.2 hends m hm d hcurrent
        refine RefsLive.drop_both hs.args fun j q hj hq => ?_
        exact (Option.some.inj (hcloses.pcb.symm.trans (honly.eq hs.heard hj hq))).symm
  · cases hmove with
    | same => exact hs.hasPcb
    | command hc h => exact h.hasPcb (fun hpasv => he.1 (hpasv ▸ hc)) hs.hasPcb
    | remoteClose => exact View.hasPcb_finish _ _ _ _
    | @unheardClose i p hcb hp hstate hrecv =>
      -- the callbacks of an open connection are registered
      rw [((hs.heard.2 i p hp).1 hstate).1] at hrecv
      cases hrecv
    | dataerr =>
      refine View.hasPcb_of_current fun c' hc' => ?_
      obtain ⟨c, -, rfl⟩ := Option.map_eq_some_iff.mp hc'
      rfl
    | @unheardError i p hcb hp hstate herr =>
      refine hs.hasPcb.dropPcb fun c hc hcurrent => ?_
      obtain ⟨d, hd⟩ := Option.ne_none_iff_exists'.mp ((hs.heard.2 i p hp).2 hstate)
      have hkeeps := he.2.1 i (by rw [hcb]; rfl) p hp d hd
      rw [hcb] at hkeeps
      have herr' : p.err = false := by
        by_contra h
        rw [herr (Bool.not_eq_false _ ▸ h)] at hd
        cases hd
      obtain ⟨m, hm, rfl⟩ := Option.map_eq_some_iff.mp hc
      exact hkeeps.2 p hp herr' m hm hcurrent
    | freed _ h =>
      intro c hc
      cases h with
      | alone => cases hc
      | session => cases hc
    | serve hreached h =>
      refine h.hasPcb ?_
      cases hreached with
      | connected => exact View.hasPcb_setPcb (fun _ => rfl) View.putPcb_pcbs_self
      | accepted => exact View.hasPcb_setPcb (fun _ => rfl) View.putPcb_pcbs_self
      | sent => exact hs.hasPcb
      | poll => exact hs.hasPcb
      | @refused l p hcb hp _ harg =>
        have hkeeps := he.2.1 l (by rw [hcb]; rfl) p hp _ harg
        rw [hcb] at hkeeps
        refine View.hasPcb_of_current fun c' hc' => ?_
        obtain ⟨c, hc, rfl⟩ := Option.map_eq_some_iff.mp hc'
        obtain ⟨m, hm, rfl⟩ := Option.map_eq_some_iff.mp hc
        exact hkeeps m hm

end Step

lemma Accepted.linked {s : Sys} (h : Accepted s) : s.view.Linked := by
  obtain ⟨buffer, hview⟩ := h.view
  rw [hview]
  refine ⟨fun _ _ => rfl, ⟨fun _ _ => rfl, fun i p hp => ?_⟩, fun i p hp => ?_, ?_⟩
  · cases hp
  · cases hp
  · refine View.hasPcb_of_current fun c hc => ?_
    obtain rfl := Option.some.inj hc
    rfl

end Teensy41Ethernet.Ftpd
