import Teensy41Ethernet.Ftpd.Moves

/-!
# Which data session belongs to the control session

The control session points to its current data session, and a data session points back.  The
two pointers agree as long as a data session is only opened when there is none: neither
`cmd_pasv` nor `open_dataconnection` looks at `fsm->datafs` before it overwrites it, so a
second `LIST` over active connections, or a second `PASV`, leaves a session behind that
still points to the control session.
-/

namespace Teensy41Ethernet.Ftpd

open Lib

/-! ### The property -/

/-- The data session `d` is allocated and points back to the control session. -/
def PointsBack (s : Sys) (d : ℕ) : Prop := ∃ x, s.data d = some x ∧ x.msgfs = true

/-- At most one data session points back to the control session; if there is one it is the
current one, and if there is none there is no current one. -/
structure DatafsOwned (s : Sys) (m : MsgState) : Prop where
  at_most_one : ∀ d₁ d₂, PointsBack s d₁ → PointsBack s d₂ → d₁ = d₂
  current : ∀ d, PointsBack s d → m.datafs = some d
  none : (∀ d, ¬ PointsBack s d) → m.datafs = none

/-- Every `malloc` and `tcp_new` succeeds. -/
def Env.Allocates (env : Env) : Prop :=
  env.mallocData = true ∧ env.mallocFifo.isSome = true ∧ env.mallocText = true ∧
    env.strdup = true ∧ env.tcpNew = true

instance (env : Env) : Decidable env.Allocates := by
  unfold Env.Allocates
  infer_instance

/-- The event allocates a data session: `PASV`, or over active connections a command that
comes as far as opening its data connection. -/
def Event.opens (e : Event) (passive : Bool) : Bool :=
  match e.command with
  | none => false
  | some c => c = .pasv ∨ (c.transfer e.env).isSome ∧ passive = false

/-- A data session is allocated only when there is no current one. -/
def OpensWhenFree (s : Sys) (e : Event) : Prop :=
  ∀ m ∈ s.fsm, e.opens m.passive = true → m.datafs = none

instance (s : Sys) (e : Event) : Decidable (OpensWhenFree s e) := by
  unfold OpensWhenFree
  infer_instance

/-! ### The invariant -/

namespace View

/-- The current data session is the one that points back. -/
def Single (v : View) : Prop := ∀ c ∈ v.control, ∀ d, v.Owned d ↔ c.current = some d

variable {v : View} {c : Control} {d : ℕ} {h : Hold}

lemma Single.setControl (hv : v.Single) {f : Control → Control}
    (hf : ∀ c, (f c).current = c.current) : (v.setControl f).Single := by
  intro c' hc' d
  obtain ⟨c, hc, rfl⟩ := Option.map_eq_some_iff.mp hc'
  rw [hf]
  exact hv c hc d

/-- A change of a session that keeps its back pointer. -/
lemma Single.put (hv : v.Single) (hd : v.sessions d = some h) {h' : Hold}
    (hh : h'.owned = h.owned) : (v.put d h').Single := by
  intro c hc d'
  rw [← hv c hc d']
  by_cases hdd : d' = d
  · rw [hdd, owned_put, owned_iff hd, hh]
  · exact owned_put_of_ne hdd

/-- No session points back and there is no current one. -/
lemma single_of_unowned (hcurrent : ∀ c ∈ v.control, c.current = none) (hv : ∀ d, ¬ v.Owned d) :
    v.Single := by
  intro c hc d
  simp only [hv d, hcurrent c hc, reduceCtorEq]

/-- Without a current session no session points back. -/
lemma Single.unowned (hv : v.Single) (hc : c ∈ v.control) (hcurrent : c.current = none) (d : ℕ) :
    ¬ v.Owned d := by
  rw [hv c hc d, hcurrent]
  exact fun h => by cases h

/-- When the session that points back is freed, none is left. -/
lemma Single.drop_unowned (hv : v.Single) (hc : v.control ≠ none) (howned : v.Owned d) (d' : ℕ) :
    ¬ (v.drop d).Owned d' := by
  intro hd'
  obtain ⟨c, hc⟩ := Option.ne_none_iff_exists'.mp hc
  have hcurrent := (hv c hc d).mp howned
  by_cases hdd : d' = d
  · exact not_owned_drop _ d (hdd ▸ hd')
  · have hd' : v.Owned d' := (owned_drop_of_ne hdd).mp hd'
    rw [hv c hc d', hcurrent, Option.some.injEq] at hd'
    exact hdd hd'.symm

/-- The session that points back ends. -/
lemma Single.finish {pcb : Option ℕ} {i : ℕ} (hv : v.Single) (hcloses : v.Closes d pcb i h) :
    (v.finish d i h).Single := by
  refine single_of_unowned (fun c' hc' => ?_) fun d' hd' => ?_
  · obtain ⟨c, -, rfl⟩ := Option.map_eq_some_iff.mp hc'
    rfl
  · exact hv.drop_unowned hcloses.control ⟨h, hcloses.session, hcloses.owned⟩ d' hd'

/-- A session that is allocated when none points back. -/
lemma single_alloc (hv : ∀ d, ¬ v.Owned d) (hh : h.owned = true) : (v.alloc h).Single := by
  intro c' hc' d
  obtain ⟨c, -, rfl⟩ := Option.map_eq_some_iff.mp hc'
  rw [Option.some.injEq]
  by_cases hd : d = v.next
  · rw [hd, owned_iff alloc_sessions_next, hh]
    exact ⟨fun _ => rfl, fun _ => rfl⟩
  · rw [owned_alloc_of_ne hd]
    exact ⟨fun h => absurd h (hv d), fun h => absurd h.symm hd⟩

lemma single_openActive (hv : ∀ d, ¬ v.Owned d) (env : Env) (hh : h.owned = true) :
    (v.openActive env h).Single :=
  (single_alloc hv hh).setControl (f := fun c => { c with pcb := some v.nextPcb }) fun _ => rfl

lemma single_pasvBound (hv : ∀ d, ¬ v.Owned d) (port : UInt16) (hh : h.owned = true) :
    (v.pasvBound h port).Single :=
  (single_alloc hv hh).setControl (f := fun c => { c with pcb := some v.nextPcb }) fun _ => rfl

lemma Reached.single {v₁ : View} {e : Event} {pcb : Option ℕ} (hreached : v.Reached e d pcb v₁)
    (hv : v.Single) : v₁.Single := by
  cases hreached with
  | connected => exact hv.setControl fun _ => rfl
  | accepted => exact hv.setControl fun _ => rfl
  | refused => exact hv.setControl fun _ => rfl
  | sent => exact hv
  | poll => exact hv

lemma Served.single {v' : View} {pcb : Option ℕ} (hmove : v.Served d pcb v') (hv : v.Single) :
    v'.Single := by
  cases hmove with
  | same => exact hv
  | readEnd _ _ hd => exact hv.put hd rfl
  | sentFile _ _ hcloses => exact hv.finish hcloses
  | sentDir _ _ hcloses => exact hv.finish hcloses

/-- With the pointer to the current session cleared, there is no current session. -/
lemma forget_current (hc : c ∈ v.forget.control) : c.current = none := by
  obtain ⟨c, -, rfl⟩ := Option.map_eq_some_iff.mp hc
  rfl

lemma Transfer.single {v' : View} {env : Env} {st : FtpdState} (hmove : v.Transfer env st v')
    (hfree : ∀ c ∈ v.control, c.passive = false → c.current = none) (hv : v.Single) :
    v'.Single := by
  cases hmove with
  | @passive _ _ h _ _ _ hd => exact (hv.put hd (h.give_owned _ st)).setControl fun _ => rfl
  | active hc hp =>
    have hactive := single_openActive (v := v.opened st) (hv.unowned hc (hfree _ hc hp)) env
      ((Hold.fresh env).give_owned v.handles st)
    exact hactive.setControl fun _ => rfl
  | noMemory hc hp =>
    exact single_of_unowned (fun _ => forget_current) (hv.unowned hc (hfree _ hc hp))

lemma Pasv.single {v' : View} {env : Env} (hmove : v.Pasv env v') (henv : env.tcpNew = true)
    (hcontrol : v.control ≠ none) (hfree : ∀ c ∈ v.control, c.current = none)
    (hv : v.Single) : v'.Single := by
  obtain ⟨c, hc⟩ := Option.ne_none_iff_exists'.mp hcontrol
  have hunowned := hv.unowned hc (hfree c hc)
  cases hmove with
  | noMemory => exact single_of_unowned (fun _ => forget_current) hunowned
  | noPcb _ hnew =>
    rw [henv] at hnew
    cases hnew
  | noListen =>
    refine single_of_unowned (fun c' hc' => ?_) fun d hd => ?_
    · obtain ⟨c, -, rfl⟩ := Option.map_eq_some_iff.mp hc'
      rfl
    by_cases hnext : d = v.next
    · rw [hnext] at hd
      exact not_owned_drop (v.alloc (.fresh env)) _ hd
    · have hd' : (v.alloc (.fresh env)).Owned d := (owned_drop_of_ne hnext).mp hd
      exact hunowned d ((owned_alloc_of_ne hnext).mp hd')
  | @listening port =>
    have hbound := single_pasvBound (h := .fresh env) hunowned port rfl
    exact hbound.setControl (f := fun c => { c with
      pcb := some (v.nextPcb + 1), passive := true }) fun _ => rfl

end View

/-- **What one callback preserves.** -/
lemma Sys.Move.single {s : Sys} {v' : View} {e : Event} (hmove : s.Move e v')
    (henv : e.env.tcpNew = true)
    (hfree : ∀ c ∈ s.view.control, e.opens c.passive = true → c.current = none)
    (hs : s.view.Single) : v'.Single := by
  cases hmove with
  | same => exact hs
  | serve hreached h => exact h.single (hreached.single hs)
  | remoteClose _ _ _ _ _ hcloses => exact hs.finish hcloses
  | unheardClose => exact hs
  | unheardError => exact hs
  | dataerr _ _ _ _ _ howned hcontrol =>
    refine View.single_of_unowned (fun c' hc' => ?_) fun d' hd' => ?_
    · obtain ⟨c, -, rfl⟩ := Option.map_eq_some_iff.mp hc'
      rfl
    · exact hs.drop_unowned hcontrol howned d' hd'
  | freed _ h =>
    intro c hc
    cases h with
    | alone => cases hc
    | session => cases hc
  | command hcommand h =>
    simp only [Event.opens, hcommand, decide_eq_true_eq] at hfree
    cases h with
    | same => exact hs
    | setState => exact hs.setControl fun _ => rfl
    | chdir => exact hs
    | transfer ht h =>
      refine h.single (fun c hc hp => hfree c hc (.inr ⟨?_, hp⟩)) hs
      rw [ht, Option.isSome_some]
    | pasv hpasv hcontrol h => exact h.single henv hcontrol (fun c hc => hfree c hc (.inl hpasv)) hs

/-! ### The theorem -/

lemma Sys.owned_iff (s : Sys) (d : ℕ) : s.view.Owned d ↔ PointsBack s d := by
  constructor
  · rintro ⟨h, hh, howned⟩
    obtain ⟨x, hx, rfl⟩ := Option.map_eq_some_iff.mp hh
    exact ⟨x, hx, howned⟩
  · rintro ⟨x, hx, hmsgfs⟩
    exact ⟨x.hold, Sys.view_sessions hx, hmsgfs⟩

lemma View.Single.datafsOwned {s : Sys} (h : s.view.Single) {m : MsgState}
    (hm : s.fsm = some m) : DatafsOwned s m := by
  have hiff : ∀ d, PointsBack s d ↔ m.datafs = some d := fun d =>
    (s.owned_iff d).symm.trans (h m.control (Sys.view_control hm) d)
  refine ⟨fun d₁ d₂ h₁ h₂ => ?_, fun d => (hiff d).mp, fun hnone => ?_⟩
  · exact Option.some.inj (((hiff d₁).mp h₁).symm.trans ((hiff d₂).mp h₂))
  · exact Option.eq_none_iff_forall_ne_some.mpr fun d hd => hnone d ((hiff d).mpr hd)

lemma Accepted.single {s : Sys} (h : Accepted s) : s.view.Single := by
  obtain ⟨buffer, hview⟩ := h.view
  rw [hview]
  refine View.single_of_unowned ?_ ?_
  · intro c hc
    obtain rfl := Option.some.inj hc
    rfl
  · rintro d ⟨h, hh, -⟩
    cases hh

/-- **The current data session is the one that points back** in every state that is reached
by events of which each one allocates a data session only when there is no current one. -/
theorem datafs_owned_of_opensWhenFree {s₀ s : Sys} {es : List Event} (h₀ : Accepted s₀)
    (hes : Admits ftpdStep (fun s e => e.env.Allocates ∧ OpensWhenFree s e) s₀ es)
    (hrun : exec ftpdStep s₀ es = some s) {m : MsgState} (hm : s.fsm = some m) :
    DatafsOwned s m := by
  refine (view_inv_of_move ?_ h₀ h₀.single hes hrun).2.datafsOwned hm
  rintro s e v' hs ⟨henv, hfree⟩ hmove
  refine hmove.single henv.2.2.2.2 (fun c hc => ?_) hs
  obtain ⟨m, hm, rfl⟩ := Option.map_eq_some_iff.mp hc
  exact hfree m hm

/-- Two listings one after the other over active connections: when the second one comes, the
session of the first has ended. -/
theorem datafs_owned_two_listings :
    ∃ es s m, exec ftpdStep session es = some s ∧ s.fsm = some m ∧ m.datafs = some 1 ∧
      DatafsOwned s m := by
  have hrun : Option.map (fun s => s.fsm.map MsgState.datafs) (exec ftpdStep session
      [line "LIST\r\n", ⟨.connected 0, calm⟩, ⟨.sent 0, calm⟩, line "LIST\r\n"])
      = some (some (some 1)) := by decide +kernel
  obtain ⟨s, hs, hfsm⟩ := Option.map_eq_some_iff.mp hrun
  obtain ⟨m, hm, hdatafs⟩ := Option.map_eq_some_iff.mp hfsm
  exact ⟨_, s, m, hs, hm, hdatafs,
    datafs_owned_of_opensWhenFree accepted_session (by decide +kernel) hs hm⟩

/-- The second of two listings over active connections replaces the first one, whose session
still points back to the control session. -/
theorem two_data_sessions_point_back :
    ∃ es s m, Accepted session ∧ (∀ e ∈ es, e.env.Allocates) ∧
      exec ftpdStep session es = some s ∧ s.fsm = some m ∧ ¬ DatafsOwned s m := by
  have hrun : Option.map (fun s => (s.fsm.isSome, (s.data 0).map DataState.msgfs,
      (s.data 1).map DataState.msgfs)) (exec ftpdStep session [line "LIST\r\n", line "LIST\r\n"])
      = some (true, some true, some true) := by decide +kernel
  obtain ⟨s, hs, hend⟩ := Option.map_eq_some_iff.mp hrun
  simp only [Prod.mk.injEq, Option.isSome_iff_exists, Option.map_eq_some_iff] at hend
  obtain ⟨⟨m, hm⟩, ⟨x₀, hx₀, hback₀⟩, ⟨x₁, hx₁, hback₁⟩⟩ := hend
  refine ⟨_, s, m, accepted_session, ?_, hs, hm, fun howned => ?_⟩
  · decide
  · have h01 := howned.at_most_one 0 1 ⟨x₀, hx₀, hback₀⟩ ⟨x₁, hx₁, hback₁⟩
    cases h01

end Teensy41Ethernet.Ftpd
