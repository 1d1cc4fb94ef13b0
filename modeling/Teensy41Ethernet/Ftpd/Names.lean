import Teensy41Ethernet.Ftpd.Deeds

/-!
# Names and the working directory

`LIST` enumerates the working directory: it gives its path to the SD library.  The commands
that act on a file or a directory give their argument to the library as it is, and the
library looks a name without a separator at its start up from the root of the volume.  So the
two agree where the working directory is the root, and nowhere else.
-/

namespace Teensy41Ethernet.Ftpd

open Lib Lwip

/-! ### Locations -/

/-- Where the SD library finds a path: the names on the way from the root of the volume, from
where a path without a separator at its start is looked up too. -/
def location (path : Str) : List Str := (path.splitOn slash).filter (· ≠ [])

/-- A name in a directory. -/
lemma location_append (dir name : Str) :
    location (dir ++ slash :: name) = location dir ++ location name := by
  rw [location, List.splitOn_append_cons_self, List.filter_append]
  rfl

/-- The path that the SD library is given. -/
def Call.path : Call → Str
  | .stat path | .chdir path | .opendir path | .openFile path | .mkdir path | .rmdir path
  | .remove path => path

/-! ### The paths of the commands -/

/-- The deeds use the path `name` and no other. -/
def Uses (name : Str) (l : List Deed) : Prop :=
  asked l ≠ [] ∧ ∀ call ∈ asked l, call.path = name

lemma uses_cons {name : Str} {call : Call} {l : List Deed} (hcall : call.path = name)
    (hl : ∀ call ∈ asked l, call.path = name) : Uses name (.ask call :: l) := by
  refine ⟨List.cons_ne_nil _ _, fun c hc => ?_⟩
  rcases List.mem_cons.mp hc with rfl | hc
  · exact hcall
  · exact hl c hc

lemma uses_openFileDeeds {name text : Str} {env : Env} {s : Sys} {l : List Deed}
    (h : openFileDeeds name text env s = some l) : Uses name l := by
  obtain ⟨l', hl', rfl⟩ := Deed.before_eq_some h
  refine uses_cons rfl ?_
  have hrest : asked l' = [] := by
    cases hfile : env.openFile with
    | none =>
      rw [hfile] at hl'
      exact asked_say hl'
    | some file =>
      rw [hfile] at hl'
      obtain ⟨l₁, hsay, hmap⟩ := Option.bind_eq_some_iff.mp hl'
      obtain ⟨ready, -, rfl⟩ := Option.map_eq_some_iff.mp hmap
      split
      · exact asked_say hsay
      · rw [asked, List.filterMap_append]
        exact List.append_eq_nil_iff.mpr ⟨asked_say hsay, rfl⟩
  simp [hrest]

lemma uses_removeDeeds {name : Str} {call : Call} (hcall : call.path = name) {ok : Bool}
    {env : Env} {l : List Deed} (h : removeDeeds name call ok env = some l) : Uses name l := by
  obtain ⟨l', hl', rfl⟩ := Deed.before_eq_some h
  refine uses_cons rfl ?_
  split at hl'
  · obtain ⟨l'', hl'', rfl⟩ := Deed.before_eq_some hl'
    exact (uses_cons hcall (by simp [asked_say hl''])).2
  · simp [asked_say hl']

/-- The commands that act on a file or a directory in the working directory. -/
def Command.named : Command → Bool
  | .retr | .stor | .dele | .mkd | .rmd => true
  | _ => false

/-- These commands give their argument to the SD library as it is. -/
lemma Command.uses_of_named {c : Command} (hc : c.named = true) {name : Str} (hname : name ≠ [])
    {env : Env} {s : Sys} {l : List Deed} (h : c.deeds (some name) env s = some l) :
    Uses name l := by
  cases c with
  | retr =>
    obtain ⟨l', hl', rfl⟩ := Deed.before_eq_some h
    refine uses_cons rfl ?_
    split at hl'
    · simp [asked_say hl']
    · exact (uses_openFileDeeds hl').2
  | stor => exact uses_openFileDeeds h
  | dele =>
    rw [Command.deeds, argDeeds, if_neg hname] at h
    exact uses_removeDeeds rfl h
  | rmd =>
    rw [Command.deeds, argDeeds, if_neg hname] at h
    exact uses_removeDeeds rfl h
  | mkd =>
    rw [Command.deeds, argDeeds, if_neg hname] at h
    obtain ⟨l', hl', rfl⟩ := Deed.before_eq_some h
    exact uses_cons rfl (by simp [asked_say hl'])
  | _ => cases hc

/-! ### The theorem -/

/-- **Names are resolved in the directory that is listed if and only if it is the root.**
Whenever `LIST` or `NLST` enumerates a directory `dir`, and a command that acts on the name
`name` is executed with the same working directory, then all paths it gives to the SD library
lead to `dir/name` if and only if the working directory is the root of the volume. -/
theorem resolved_in_listed_iff_root {s₁ s₁' s₂ s₂' : Sys} {e₁ e₂ : Event} {c₁ c₂ : Command}
    {arg : Option Str} {dir name : Str} (hc₁ : c₁ = .list ∨ c₁ = .nlst)
    (he₁ : e₁.executed = some (c₁, arg)) (h₁ : ftpdStep s₁ e₁ = some s₁')
    (hdir : s₁'.calls = s₁.calls ++ [.opendir dir]) (hcwd : s₂.cwd = s₁.cwd)
    (hc₂ : c₂.named = true) (hname : name ≠ []) (he₂ : e₂.executed = some (c₂, some name))
    (h₂ : ftpdStep s₂ e₂ = some s₂') :
    ∃ calls, s₂'.calls = s₂.calls ++ calls ∧
      ((∀ call ∈ calls, location call.path = location (dir ++ slash :: name)) ↔
        location s₂.cwd = []) := by
  obtain ⟨l₁, hl₁, hasked₁⟩ := ftpdStep_asked he₁ h₁
  have hlist : listDeeds e₁.env s₁ = some l₁ := by
    rcases hc₁ with rfl | rfl
    · exact hl₁
    · exact hl₁
  -- the listing is of the working directory
  have hopened : dir = s₁.cwd := by
    have hcalls : [.opendir dir] = asked l₁ := List.append_cancel_left (hdir.symm.trans hasked₁)
    rw [asked_listDeeds hlist] at hcalls
    split at hcalls
    · simpa using hcalls
    · cases hcalls
  obtain ⟨l₂, hl₂, hasked₂⟩ := ftpdStep_asked he₂ h₂
  obtain ⟨hsome, hpaths⟩ := Command.uses_of_named hc₂ hname hl₂
  refine ⟨asked l₂, hasked₂, ?_⟩
  rw [hopened, ← hcwd, location_append]
  constructor
  · intro hall
    obtain ⟨call, hcall⟩ := List.exists_mem_of_ne_nil _ hsome
    have hloc := hall call hcall
    rw [hpaths call hcall] at hloc
    exact List.append_left_eq_self.mp hloc.symm
  · intro hroot call hcall
    rw [hpaths call hcall, hroot, List.nil_append]

/-- `LIST` and `RETR` in the root. -/
theorem resolved_in_listed_iff_root_session :
    ∃ s₁ s₂, ftpdStep session (line "LIST\r\n") = some s₁ ∧
      ftpdStep session (line "RETR a\r\n") = some s₂ ∧ location session.cwd = [] ∧
      ∃ calls, s₂.calls = session.calls ++ calls ∧
        ∀ call ∈ calls, location call.path = location (lit "/" ++ slash :: lit "a") := by
  have hlist : Option.map (fun s₁ => decide (s₁.calls = session.calls ++ [.opendir (lit "/")]))
      (ftpdStep session (line "LIST\r\n")) = some true := by decide +kernel
  have hretr : Option.map (fun _ => ()) (ftpdStep session (line "RETR a\r\n")) = some () := by
    decide +kernel
  obtain ⟨s₁, hs₁, hdir⟩ := Option.map_eq_some_iff.mp hlist
  obtain ⟨s₂, hs₂, -⟩ := Option.map_eq_some_iff.mp hretr
  have hroot : location session.cwd = [] := by decide +kernel
  have hexecuted : (line "LIST\r\n").executed = some (.list, none) := by decide
  have hnamed : Command.named .retr = true := rfl
  obtain ⟨calls, hcalls, hiff⟩ := resolved_in_listed_iff_root (.inl rfl) hexecuted hs₁
    (of_decide_eq_true hdir) rfl hnamed (by decide : lit "a" ≠ []) (by decide) hs₂
  exact ⟨s₁, s₂, hs₁, hs₂, hroot, calls, hcalls, hiff.mpr hroot⟩

/-- In another directory, `LIST` enumerates it and `RETR` looks in the root. -/
theorem listed_file_not_found :
    ∃ s s₁ s₂, Accepted session ∧ exec ftpdStep session [line "CWD d\r\n"] = some s ∧
      ftpdStep s (line "LIST\r\n") = some s₁ ∧ ftpdStep s (line "RETR a\r\n") = some s₂ ∧
      s₁.calls = s.calls ++ [.opendir (lit "/d")] ∧
      s₂.calls = s.calls ++ [.stat (lit "a"), .openFile (lit "a")] ∧
      location (lit "a") ≠ location (lit "/d" ++ slash :: lit "a") := by
  have hrun : Option.map (fun s => ((ftpdStep s (line "LIST\r\n")).map fun s₁ =>
        decide (s₁.calls = s.calls ++ [.opendir (lit "/d")]),
      (ftpdStep s (line "RETR a\r\n")).map fun s₂ =>
        decide (s₂.calls = s.calls ++ [.stat (lit "a"), .openFile (lit "a")])))
      (exec ftpdStep session [line "CWD d\r\n"]) = some (some true, some true) := by
    decide +kernel
  obtain ⟨s, hs, hrest⟩ := Option.map_eq_some_iff.mp hrun
  rw [Prod.mk.injEq] at hrest
  obtain ⟨s₁, hs₁, hlist⟩ := Option.map_eq_some_iff.mp hrest.1
  obtain ⟨s₂, hs₂, hretr⟩ := Option.map_eq_some_iff.mp hrest.2
  exact ⟨s, s₁, s₂, accepted_session, hs, hs₁, hs₂, of_decide_eq_true hlist,
    of_decide_eq_true hretr, by decide⟩

end Teensy41Ethernet.Ftpd
