import Teensy41Ethernet.Ftpd.Live
import Teensy41Ethernet.Ftpd.Moves

/-!
# The state of the control session and what the data sessions hold

Which function serves a data connection is decided by the state of the control session, not
by what the data session holds.  In the states `LIST` and `NLST` the function reads the
directory of the session, and whatever the peer sends is written to the file of the session.
This file shows when that is safe: in the states `LIST`, `NLST` and `STOR` every data session
must hold what the state needs, the peer may only send, or close its side, in the state `STOR`,
and no callback may follow a pointer to a session that has been freed.  A remote close in the
middle of a listing is enough to use a file that is not there, and a second connection to a
passive port is enough to use a session that is not there.
-/

namespace Teensy41Ethernet.Ftpd

open Lib

/-! ### The property -/

/-- The callback uses no directory and no file that the data session does not hold: when
`send_next_directory` is entered there is a directory, when `ftpd_datarecv` is called there
is a file, and the program does not stop because one of them is missing or because the session
has been freed. -/
structure ResourcesHeld (s : Sys) (e : Event) : Prop where
  directory : ∀ d x m, Serves s e d → s.data d = some x → s.fsm = some m →
    m.state = .list ∨ m.state = .nlst → x.vfsDir ≠ none
  file : ∀ d x, Receives s e d → s.data d = some x → x.vfsFile ≠ none
  no_fault : ∀ f, (handle e).run s = .error f → f ≠ .nullDir ∧ f ≠ .nullFile ∧ f ≠ .freed

/-- The states in which a data session must hold something. -/
def FtpdState.needs : FtpdState → Bool
  | .list | .nlst | .stor => true
  | _ => false

/-- `PASV` is not given while a listing or an upload is going on. -/
def PasvBetween (s : Sys) (e : Event) : Prop :=
  ∀ m ∈ s.fsm, e.command = some .pasv → m.state.needs = false

/-- A listing or an upload is started only when there is no data session, other than the
current one for a passive connection. -/
def StartsAlone (s : Sys) (e : Event) : Prop :=
  ∀ m ∈ s.fsm, ∀ c ∈ e.command, ∀ st ∈ c.transfer e.env, st.needs = true →
    ∀ d < s.nextData, (s.data d).isSome = true → m.passive = true ∧ m.datafs = some d

/-- The peer sends, or closes its side, only during an upload. -/
def PeerUploads (s : Sys) (e : Event) : Prop :=
  match e.callback with
  | .recv i _ => ∀ p ∈ s.pcbs i, p.recv = true → s.fsm.map MsgState.state = some .stor
  | _ => True

/-- The conditions together, and no pointer to a freed object is followed. -/
def Cautious (s : Sys) (e : Event) : Prop :=
  PasvBetween s e ∧ StartsAlone s e ∧ PeerUploads s e ∧ UsesLive s e

instance (s : Sys) (e : Event) : Decidable (Cautious s e) := by
  obtain ⟨callback, env⟩ := e
  unfold Cautious PasvBetween StartsAlone PeerUploads
  refine Callback.casesOn callback ?_ ?_ ?_ ?_ ?_ ?_ ?_ ?_ ?_ ?_ <;> intros <;> infer_instance

/-! ### The invariant -/

/-- A data session holds what a state needs. -/
def Hold.fits (h : Hold) : FtpdState → Bool
  | .list | .nlst => h.dir.isSome
  | .stor => h.file.isSome
  | _ => true

lemma Hold.fits_of_not_needs (h : Hold) {st : FtpdState} (hst : st.needs = false) :
    h.fits st = true := by
  cases st with
  | list | nlst | stor => cases hst
  | _ => rfl

lemma Hold.give_fits (h : Hold) (n : ℕ) (st : FtpdState) : (h.give n st).fits st = true := by
  cases st with
  | _ => rfl

namespace View

/-- Every data session holds what the state of the control session needs. -/
def Fits (v : View) : Prop := ∀ c ∈ v.control, ∀ d, ∀ h ∈ v.sessions d, h.fits c.state = true

variable {v v' : View} {c : Control} {d : ℕ} {h : Hold}

/-- In a state that needs nothing, everything fits. -/
lemma fits_of_not_needs (hv : ∀ c ∈ v.control, c.state.needs = false) : v.Fits :=
  fun c hc _ h _ => h.fits_of_not_needs (hv c hc)

/-- Fewer sessions fit as well. -/
lemma Fits.mono (hv : v.Fits) (hcontrol : ∀ c' ∈ v'.control, ∃ c ∈ v.control, c'.state = c.state)
    (hsessions : ∀ d, ∀ h ∈ v'.sessions d, h ∈ v.sessions d) : v'.Fits := by
  intro c' hc' d h hh
  obtain ⟨c, hc, hstate⟩ := hcontrol c' hc'
  rw [hstate]
  exact hv c hc d h (hsessions d h hh)

lemma fits_setState_of_not_needs {st : FtpdState} (hst : st.needs = false) :
    (v.setState st).Fits := by
  refine fits_of_not_needs fun c' hc' => ?_
  obtain ⟨c, -, rfl⟩ := Option.map_eq_some_iff.mp hc'
  exact hst

lemma fits_finish (v : View) (d i : ℕ) (h : Hold) : (v.finish d i h).Fits := by
  refine fits_of_not_needs fun c' hc' => ?_
  obtain ⟨c, -, rfl⟩ := Option.map_eq_some_iff.mp hc'
  rfl

lemma fits_forget (hv : v.Fits) : v.forget.Fits := by
  refine hv.mono (fun c' hc' => ?_) fun _ _ hh => hh
  obtain ⟨c, hc, rfl⟩ := Option.map_eq_some_iff.mp hc'
  exact ⟨c, hc, rfl⟩

lemma Reached.fits {v₁ : View} {e : Event} {pcb : Option ℕ} (hreached : v.Reached e d pcb v₁)
    (hv : v.Fits) : v₁.Fits := by
  obtain ⟨hsessions, hcontrol⟩ := hreached.same
  exact hv.mono hcontrol fun d h hh => by rwa [← hsessions]

lemma Served.fits {pcb : Option ℕ} (hmove : v.Served d pcb v') (hv : v.Fits) : v'.Fits := by
  cases hmove with
  | same => exact hv
  | readEnd hc hstate =>
    refine fits_of_not_needs fun c' hc' => ?_
    obtain rfl := Option.some.inj (hc.symm.trans hc')
    rw [hstate]
    rfl
  | sentFile => exact fits_finish v d _ _
  | sentDir => exact fits_finish _ d _ _

/-- A transfer starts: the session it uses is the only one. -/
lemma Transfer.fits {env : Env} {st : FtpdState} (hmove : v.Transfer env st v')
    (hfresh : v.Fresh) (halone : st.needs = true → ∀ c ∈ v.control, ∀ d < v.next,
      (v.sessions d).isSome = true → c.passive = true ∧ c.current = some d)
    (hv : v.Fits) : v'.Fits := by
  by_cases hst : st.needs = true
  swap
  · -- the new state needs nothing, and without memory nothing changes
    replace hst : st.needs = false := Bool.not_eq_true _ ▸ hst
    cases hmove with
    | passive => exact fits_setState_of_not_needs hst
    | active => exact fits_setState_of_not_needs hst
    | noMemory => exact fits_forget hv
  have hlive : ∀ c ∈ v.control, ∀ d h, v.sessions d = some h →
      c.passive = true ∧ c.current = some d := by
    intro c hc d h hd
    refine halone hst c hc d ?_ (by rw [hd, Option.isSome_some])
    by_contra hnext
    rw [hfresh d (not_lt.mp hnext)] at hd
    cases hd
  cases hmove with
  | noMemory => exact fits_forget hv
  | @passive c d h hc hp hcurrent hd =>
    intro c' hc' d' h' hh'
    obtain ⟨c₁, -, rfl⟩ := Option.map_eq_some_iff.mp hc'
    by_cases hdd : d' = d
    · subst hdd
      obtain rfl := Option.some.inj (put_sessions_self.symm.trans hh')
      exact h.give_fits v.handles st
    · have hd' : v.sessions d' = some h' := (put_sessions_of_ne hdd).symm.trans hh'
      have hother := (hlive c hc d' h' hd').2
      rw [hcurrent, Option.some.injEq] at hother
      exact absurd hother.symm hdd
  | @active c hc hp =>
    intro c' hc' d' h' hh'
    obtain ⟨c₁, -, rfl⟩ := Option.map_eq_some_iff.mp hc'
    by_cases hdd : d' = v.next
    · subst hdd
      obtain rfl := Option.some.inj (alloc_sessions_next.symm.trans hh')
      exact (Hold.fresh env).give_fits v.handles st
    · have hd' : v.sessions d' = some h' := (alloc_sessions_of_ne hdd).symm.trans hh'
      have hpassive := (hlive c hc d' h' hd').1
      rw [hp] at hpassive
      cases hpassive

/-- `PASV` leaves the state as it is. -/
lemma Pasv.fits {env : Env} (hmove : v.Pasv env v') (hv : ∀ c ∈ v.control, c.state.needs = false) :
    v'.Fits := by
  refine fits_of_not_needs fun c' hc' => ?_
  obtain ⟨c, hc, hstate⟩ := hmove.state hc'
  rw [hstate]
  exact hv c hc

end View

/-- **What one callback preserves.** -/
lemma Sys.Move.fits {s : Sys} {v' : View} {e : Event} (hmove : s.Move e v')
    (hfresh : s.view.Fresh)
    (hpasv : ∀ c ∈ s.view.control, e.command = some .pasv → c.state.needs = false)
    (halone : ∀ c ∈ s.view.control, ∀ cmd ∈ e.command, ∀ st ∈ cmd.transfer e.env,
      st.needs = true → ∀ d < s.view.next, (s.view.sessions d).isSome = true →
        c.passive = true ∧ c.current = some d)
    (hs : s.view.Fits) : v'.Fits := by
  cases hmove with
  | same => exact hs
  | serve hreached h => exact h.fits (hreached.fits hs)
  | remoteClose => exact View.fits_finish _ _ _ _
  | unheardClose => exact hs
  | unheardError => exact hs
  | dataerr =>
    refine View.fits_of_not_needs fun c' hc' => ?_
    obtain ⟨c, -, rfl⟩ := Option.map_eq_some_iff.mp hc'
    rfl
  | freed _ h =>
    intro c hc
    cases h with
    | alone => cases hc
    | session => cases hc
  | @command cmd _ hcommand h =>
    cases h with
    | same => exact hs
    | chdir => exact hs
    | setState hst =>
      refine View.fits_setState_of_not_needs ?_
      -- none of USER, PASS, QUIT and ABOR sets a state that needs something
      cases cmd with
      | user | pass | quit | abrt =>
        obtain rfl := Option.some.inj hst
        rfl
      | _ => cases hst
    | transfer ht h =>
      exact h.fits hfresh (fun hst c hc => halone c hc cmd hcommand _ ht hst) hs
    | pasv hc _ h => exact h.fits fun c hcontrol => hpasv c hcontrol (hc ▸ hcommand)

/-! ### The theorem -/

lemma Accepted.fits {s : Sys} (h : Accepted s) : s.view.Fresh ∧ s.view.Fits := by
  obtain ⟨buffer, hview⟩ := h.view
  rw [hview]
  refine ⟨fun _ _ => rfl, fun c _ d h hh => ?_⟩
  cases hh

/-- In a state in which every session holds what is needed, the next callback uses nothing
that is missing. -/
lemma View.Fits.resourcesHeld {s : Sys} {e : Event} (hs : s.view.Fits)
    (hport : InPortRange s.port) (he : PeerUploads s e) (hlive : UsesLive s e) :
    ResourcesHeld s e := by
  have hdir : ∀ d c h, s.view.control = some c → c.state ∈ [.list, .nlst] →
      s.view.sessions d = some h → h.dir.isSome = true := by
    intro d c h hc hstate hd
    have hfits := hs c hc d h hd
    simp only [List.mem_cons, List.not_mem_nil, or_false] at hstate
    rcases hstate with hstate | hstate
    · rwa [hstate] at hfits
    · rwa [hstate] at hfits
  have hfile : ∀ d h, Receives s e d → s.view.sessions d = some h → h.file.isSome = true := by
    intro d h hrecv hd
    unfold Receives at hrecv
    unfold PeerUploads at he
    split at hrecv
    · next i q hcb =>
      obtain ⟨p, hp, -, hreg, -⟩ := hrecv
      rw [hcb] at he
      obtain ⟨m, hm, hstate⟩ := Option.map_eq_some_iff.mp (he p hp hreg)
      have hfits := hs m.control (Sys.view_control hm) d h hd
      rwa [MsgState.control, hstate] at hfits
    · exact hrecv.elim
  refine ⟨fun d x m _ hx hm hstate => ?_, fun d x hrecv hx => ?_, fun f hf => ?_⟩
  · have h := hdir d m.control x.hold (Sys.view_control hm)
      (by simpa only [List.mem_cons, List.not_mem_nil, or_false, MsgState.control] using hstate)
      (Sys.view_sessions hx)
    rw [DataState.hold, Option.isSome_map] at h
    exact Option.isSome_iff_ne_none.mp h
  · have h := hfile d x.hold hrecv (Sys.view_sessions hx)
    rw [DataState.hold, Option.isSome_map] at h
    exact Option.isSome_iff_ne_none.mp h
  · have hfault := wp_error (handle_move e hport) hf
    refine ⟨fun h => ?_, fun h => ?_, fun h => handle_ne_freed hlive (h ▸ hf)⟩
    · obtain ⟨d, -, c, h, hc, hstate, hd, hnone⟩ := hfault.dir h
      have hsome := hdir d c h hc hstate hd
      rw [hnone] at hsome
      cases hsome
    · obtain ⟨d, hrecv, h, hd, hnone⟩ := hfault.file h
      have hsome := hfile d h hrecv hd
      rw [hnone] at hsome
      cases hsome

/-- **No missing directory or file is used** by a callback, and no freed session, after any run in
which `PASV` does not interrupt a listing or an upload, these start with no other data session
around, the peer sends or closes only during an upload, and no pointer to a freed object is
followed. -/
theorem resources_held_of_cautious {s₀ s : Sys} {es : List Event} {e : Event} (h₀ : Accepted s₀)
    (hes : Admits ftpdStep Cautious s₀ es) (hrun : exec ftpdStep s₀ es = some s)
    (he : Cautious s e) : ResourcesHeld s e := by
  have hstep : ∀ s e v', (s.view.Fresh ∧ s.view.Fits) → Cautious s e → s.Move e v' →
      v'.Fresh ∧ v'.Fits := by
    rintro s e v' ⟨hfresh, hfits⟩ ⟨hpasv, halone, -⟩ hmove
    refine ⟨hmove.fresh hfresh, hmove.fits hfresh (fun c hc => ?_) (fun c hc => ?_) hfits⟩
    · obtain ⟨m, hm, rfl⟩ := Option.map_eq_some_iff.mp hc
      exact hpasv m hm
    · obtain ⟨m, hm, rfl⟩ := Option.map_eq_some_iff.mp hc
      intro cmd hcmd st hst hneeds d hd hlive
      exact halone m hm cmd hcmd st hst hneeds d hd (by simpa [Sys.view] using hlive)
  obtain ⟨hport, -, hfits⟩ :=
    view_inv_of_move (P := fun v => v.Fresh ∧ v.Fits) hstep h₀ h₀.fits hes hrun
  exact hfits.resourcesHeld hport he.2.2.1 he.2.2.2

/-- An upload over a passive connection: a packet arrives for a session that holds a file. -/
theorem resources_held_upload :
    ∃ es s, exec ftpdStep session es = some s ∧ Receives s ⟨.recv 2 (some [[1, 2]]), calm⟩ 0 ∧
      ResourcesHeld s ⟨.recv 2 (some [[1, 2]]), calm⟩ := by
  have hrun : Option.map (fun s => (s.pcbs 2, decide (Cautious s ⟨.recv 2 (some [[1, 2]]), calm⟩)))
      (exec ftpdStep session [line "PASV\r\n", line "STOR a\r\n", ⟨.accept 1 true, calm⟩])
      = some (some ⟨some 0, .established, true, true, true⟩, true) := by decide +kernel
  obtain ⟨s, hs, hend⟩ := Option.map_eq_some_iff.mp hrun
  rw [Prod.mk.injEq, decide_eq_true_eq] at hend
  obtain ⟨hpcb, hcautious⟩ := hend
  refine ⟨_, s, hs, ⟨_, hpcb, rfl, rfl, rfl⟩, ?_⟩
  exact resources_held_of_cautious accepted_session (by decide +kernel) hs hcautious

/-- The peer closes the data connection in the middle of a listing: `ftpd_datarecv` closes a
file that is not there.  `PASV` in the middle of a listing: the new data session is served as a
listing, but has no directory.  And a second connection to the passive port of a listing that is
over, while the next listing waits: the session of the first one is served, which has been
freed. -/
theorem missing_file_and_directory_used :
    Accepted session ∧
    (∃ es s, exec ftpdStep session es = some s ∧
      (handle ⟨.recv 0 none, calm⟩).run s = .error .nullFile ∧
      ¬ ResourcesHeld s ⟨.recv 0 none, calm⟩) ∧
    (∃ es s, exec ftpdStep session es = some s ∧
      (handle ⟨.accept 2 true, calm⟩).run s = .error .nullDir ∧
      ¬ ResourcesHeld s ⟨.accept 2 true, calm⟩) ∧
    ∃ es s, exec ftpdStep session es = some s ∧
      (handle ⟨.accept 1 true, calm⟩).run s = .error .freed ∧
      ¬ ResourcesHeld s ⟨.accept 1 true, calm⟩ := by
  have hclose : Option.map (stops ⟨.recv 0 none, calm⟩)
      (exec ftpdStep session [line "LIST\r\n", ⟨.connected 0, calm⟩]) = some (some .nullFile) := by
    decide +kernel
  have hpasv : Option.map (stops ⟨.accept 2 true, calm⟩)
      (exec ftpdStep session [line "LIST\r\n", line "PASV\r\n"]) = some (some .nullDir) := by
    decide +kernel
  have hsecond : Option.map (stops ⟨.accept 1 true, calm⟩)
      (exec ftpdStep session [line "PASV\r\n", line "LIST\r\n", ⟨.accept 1 true, calm⟩,
        ⟨.sent 2, calm⟩, line "PASV\r\n", line "LIST\r\n"]) = some (some .freed) := by
    decide +kernel
  refine ⟨accepted_session, ?_, ?_, ?_⟩
  · obtain ⟨s, hs, hstops⟩ := Option.map_eq_some_iff.mp hclose
    have hrun := stops_eq_some hstops
    exact ⟨_, s, hs, hrun, fun h => (h.no_fault _ hrun).2.1 rfl⟩
  · obtain ⟨s, hs, hstops⟩ := Option.map_eq_some_iff.mp hpasv
    have hrun := stops_eq_some hstops
    exact ⟨_, s, hs, hrun, fun h => (h.no_fault _ hrun).1 rfl⟩
  · obtain ⟨s, hs, hstops⟩ := Option.map_eq_some_iff.mp hsecond
    have hrun := stops_eq_some hstops
    exact ⟨_, s, hs, hrun, fun h => (h.no_fault _ hrun).2.2 rfl⟩

end Teensy41Ethernet.Ftpd
