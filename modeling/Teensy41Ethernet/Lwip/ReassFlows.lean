import Teensy41Ethernet.Lwip.Reass

/-!
# The datagrams in reassembly do not disturb each other

The list `reassdatagrams` holds the fragments of several datagrams at a time, which compete for
packet buffers and entries.  As long as nothing has to be removed for lack of room, each
datagram is put together as if it were the only one.

* `ip4Reass_flow`: a fragment changes the entry of its datagram and no other one, and what
  becomes of the entry depends on nothing but the entry and the fragment (`flowStep`).
* `reass_flows_independent`: in every run without removals, what `ip4_reass` returns for the
  fragments of one datagram is what it returns without all the others.
-/

namespace Teensy41Ethernet.Lwip

open Lib

/-! ### One datagram alone -/

/-- What becomes of an entry when the fragment is added to it, and what is returned. -/
def flowEnd (p : Chain) (ipr : IpReassdata) : Option IpReassdata × Option Chain :=
  match ipReassChainFrag (ipr.note (p.headD [])) p with
  | none => (some (ipr.note (p.headD [])), none)
  | some (queue, true) => (none, some (reassembled { ipr.note (p.headD []) with p := queue }))
  | some (queue, false) => (some { ipr.note (p.headD []) with p := queue }, none)

/-- The entry to which the fragment is added: a new one, if there is none yet. -/
def flowEntry (p : Chain) : Option IpReassdata → IpReassdata
  | none => ⟨[], (p.headD []).take ipHlen, 0, false, ipReassMaxage⟩
  | some ipr => ipr.takeHeader (p.headD [])

/-- `ip4_reass` as seen by one datagram: its entry, if it has one, before and after, and what is
returned. -/
def flowStep (p : Chain) (entry : Option IpReassdata) : Option IpReassdata × Option Chain :=
  if iphHL (p.headD []) * 4 ≠ ipHlen then (entry, none) else flowEnd p (flowEntry p entry)

/-- There is room for the fragment: nothing has to be removed for it. -/
def Reass.Fits (s : Reass) (p : Chain) : Prop :=
  iphHL (p.headD []) * 4 = ipHlen →
    s.pbufcount + p.length ≤ ipReassMaxPbufs ∧
      (iphKey (p.headD []) ∈ keys s.datagrams ∨ s.datagrams.length < mempNumReassdata)

instance (s : Reass) (p : Chain) : Decidable (s.Fits p) := inferInstanceAs (Decidable (_ → _))

variable {s t : Reass} {p : Chain} {xs ys : List IpReassdata} {d : IpReassdata} {k : List UInt8}
  {e : Option IpReassdata}

/-- The end of `ip4_reass` touches one entry. -/
lemma accept_flow {ipr : IpReassdata} (hs : s.datagrams = xs ++ ipr :: ys) :
    (s.accept xs.length p).1.datagrams = xs ++ (flowEnd p ipr).1.toList ++ ys ∧
      (s.accept xs.length p).2 = (flowEnd p ipr).2 := by
  have hget : s.datagrams[xs.length]? = some ipr := by rw [hs]; simp
  rw [Reass.accept, hget, flowEnd]
  dsimp only
  rcases ipReassChainFrag (ipr.note (p.headD [])) p with _ | ⟨queue, _ | _⟩
  · simp [hs]
  · simp [hs]
  · simp [hs, eraseIdx_split]

lemma key_flowEnd {ipr : IpReassdata} (hkey : iphKey ipr.iphdr = k) :
    ∀ d ∈ (flowEnd p ipr).1, iphKey d.iphdr = k := by
  intro d hd
  have hnote := (note_spec ipr (p.headD [])).2.1
  rw [flowEnd] at hd
  split at hd
  · obtain rfl := Option.some.inj hd
    rw [hnote, hkey]
  · cases hd
  · obtain rfl := Option.some.inj hd
    rw [hnote, hkey]

lemma key_flowStep (hkey : ∀ d ∈ e, iphKey d.iphdr = iphKey (p.headD [])) :
    ∀ d ∈ (flowStep p e).1, iphKey d.iphdr = iphKey (p.headD []) := by
  rw [flowStep]
  split
  · exact hkey
  · cases e with
    | none => exact key_flowEnd (iphKey_take _)
    | some ipr => exact key_flowEnd (takeHeader_spec ipr (hkey ipr rfl)).2.1

/-- The entry of a datagram. -/
def entryOf (k : List UInt8) (ds : List IpReassdata) : Option IpReassdata :=
  ds.find? fun d => iphKey d.iphdr = k

lemma entryOf_key : ∀ d ∈ entryOf k xs, iphKey d.iphdr = k := fun _ hd => by
  simpa using List.find?_some hd

/-- The list is cut at the entry of a datagram. -/
lemma exists_split (k : List UInt8) {ds : List IpReassdata} (hkeys : (keys ds).Nodup) :
    ∃ xs ys, ds = xs ++ (entryOf k ds).toList ++ ys ∧ ∀ d ∈ xs ++ ys, iphKey d.iphdr ≠ k := by
  cases he : entryOf k ds with
  | none =>
    refine ⟨[], ds, rfl, fun d hd => ?_⟩
    simpa using List.find?_eq_none.mp he d hd
  | some d =>
    obtain ⟨hd, xs, ys, rfl, hxs⟩ := List.find?_eq_some_iff_append.mp he
    have hdk : iphKey d.iphdr = k := of_decide_eq_true hd
    refine ⟨xs, ys, by simp, fun d' hd' => ?_⟩
    rcases List.mem_append.mp hd' with h | h
    · simpa using hxs d' h
    · rw [keys, List.map_append, List.map_cons, List.nodup_append] at hkeys
      have := (List.nodup_cons.mp hkeys.2.1).1
      rw [hdk] at this
      exact fun hk => this (hk ▸ List.mem_map_of_mem h)

/-- The entry in such a list. -/
lemma entryOf_split (he : ∀ d ∈ e, iphKey d.iphdr = k)
    (hxs : ∀ d ∈ xs ++ ys, iphKey d.iphdr ≠ k) : entryOf k (xs ++ e.toList ++ ys) = e := by
  have h₁ : xs.find? (fun d => iphKey d.iphdr = k) = none :=
    List.find?_eq_none.mpr fun d hd => by simpa using hxs d (List.mem_append_left _ hd)
  have h₂ : ys.find? (fun d => iphKey d.iphdr = k) = none :=
    List.find?_eq_none.mpr fun d hd => by simpa using hxs d (List.mem_append_right _ hd)
  rw [entryOf, List.find?_append, List.find?_append, h₁, h₂]
  cases e with
  | none => rfl
  | some d => simp [he d rfl]

/-- The entry of another datagram. -/
lemma entryOf_other {k' : List UInt8} (he : ∀ d ∈ e, iphKey d.iphdr = k) (hk : k ≠ k') :
    entryOf k' (xs ++ e.toList ++ ys) = entryOf k' (xs ++ ys) := by
  cases e with
  | none => rw [Option.toList_none, List.append_nil]
  | some d =>
    have : iphKey d.iphdr ≠ k' := fun h => hk ((he d rfl).symm.trans h)
    simp [entryOf, this]

/-- The place of the entry. -/
lemma findIdx?_entry (hd : iphKey d.iphdr = iphKey (p.headD []))
    (hxs : ∀ d ∈ xs, iphKey d.iphdr ≠ iphKey (p.headD [])) :
    (xs ++ d :: ys).findIdx? (fun r => ipMatch r.iphdr (p.headD [])) = some xs.length := by
  have hnone : xs.findIdx? (fun r => ipMatch r.iphdr (p.headD [])) = none :=
    List.findIdx?_eq_none_iff.mpr fun d hd => decide_eq_false (hxs d hd)
  have hmatch : ipMatch d.iphdr (p.headD []) = true := decide_eq_true hd
  rw [List.findIdx?_append, hnone, List.findIdx?_cons, if_pos hmatch]
  simp

/-- **What a fragment does.** If there is room, it changes the entry of its datagram as the
datagram alone does, and nothing else in the list. -/
lemma ip4Reass_flow (hs : s.WF) (hfits : s.Fits p) :
    ∃ xs ys, s.datagrams = xs ++ (entryOf (iphKey (p.headD [])) s.datagrams).toList ++ ys ∧
      (ip4Reass p s).1.datagrams =
        xs ++ (flowStep p (entryOf (iphKey (p.headD [])) s.datagrams)).1.toList ++ ys ∧
      (ip4Reass p s).2 = (flowStep p (entryOf (iphKey (p.headD [])) s.datagrams)).2 ∧
      ∀ d ∈ xs ++ ys, iphKey d.iphdr ≠ iphKey (p.headD []) := by
  obtain ⟨xs, ys, hds, hother⟩ := exists_split (iphKey (p.headD [])) hs.keys_nodup
  rw [ip4Reass, flowStep]
  dsimp only
  by_cases hhl : iphHL (p.headD []) * 4 ≠ ipHlen
  · rw [if_pos hhl, if_pos hhl]
    exact ⟨xs, ys, hds, hds, rfl, hother⟩
  · obtain ⟨hroom, hentry⟩ := hfits (not_not.mp hhl)
    rw [if_neg hhl, if_neg hhl, if_neg hroom.not_gt, Reass.enqueue]
    dsimp only
    cases he : entryOf (iphKey (p.headD [])) s.datagrams with
    | none =>
      -- a new entry, in front of the list
      have hnot : ∀ d ∈ s.datagrams, iphKey d.iphdr ≠ iphKey (p.headD []) := fun d hd => by
        simpa using List.find?_eq_none.mp he d hd
      have hnone : s.datagrams.findIdx? (fun r => ipMatch r.iphdr (p.headD [])) = none :=
        List.findIdx?_eq_none_iff.mpr fun d hd => decide_eq_false (hnot d hd)
      have hlen : s.datagrams.length < mempNumReassdata := by
        refine hentry.resolve_left fun hmem => ?_
        obtain ⟨d, hd, hdk⟩ := List.mem_map.mp hmem
        exact hnot d hd hdk
      have hnew : ipReassEnqueueNewDatagram (p.headD []) p.length s =
          (s.push (p.headD []), true) := if_pos hlen
      have hpush : (s.push (p.headD [])).datagrams = [] ++ flowEntry p none :: s.datagrams := rfl
      obtain ⟨h₁, h₂⟩ := accept_flow (p := p) hpush
      rw [hnone, hnew]
      exact ⟨[], s.datagrams, rfl, h₁, h₂, hnot⟩
    | some ipr =>
      rw [he] at hds
      have hds' : s.datagrams = xs ++ ipr :: ys := by simpa using hds
      have hkey := entryOf_key ipr he
      have hmod : s.datagrams.modify xs.length (IpReassdata.takeHeader (p.headD [])) =
          xs ++ flowEntry p (some ipr) :: ys := by
        rw [hds', modify_split]
        rfl
      have hfound : s.datagrams.findIdx? (fun r => ipMatch r.iphdr (p.headD [])) =
          some xs.length := by
        rw [hds']
        exact findIdx?_entry hkey fun d hd => hother d (List.mem_append_left _ hd)
      rw [hfound]
      obtain ⟨h₁, h₂⟩ := accept_flow (p := p) (s := { s with
        datagrams := s.datagrams.modify xs.length (IpReassdata.takeHeader (p.headD [])) }) hmod
      exact ⟨xs, ys, hds, h₁, h₂, hother⟩

/-! ### Runs -/

namespace ReassSys

/-- One event, if nothing has to be removed for it. -/
def stepFits (t : ReassSys) : ReassEv → Option ReassSys
  | .frag p => if t.reass.Fits p then t.step (.frag p) else none
  | .tmr => t.step .tmr

/-- The events that concern the datagram with the key `k`. -/
def concerns (k : List UInt8) : ReassEv → Option ReassEv
  | .frag p => if iphKey (p.headD []) = k then some (.frag p) else none
  | .tmr => some .tmr

/-- What the calls for its fragments return. -/
def returns (k : List UInt8) (t : ReassSys) : ReassEv → ReassSys → Option (Option Chain)
  | .frag p, _ => if iphKey (p.headD []) = k then some (ip4Reass p t.reass).2 else none
  | .tmr, _ => none

/-- The second state holds the entry of the datagram and no other one. -/
structure Alone (k : List UInt8) (t u : ReassSys) : Prop where
  wf : t.reass.WF
  wf' : u.reass.WF
  entry : u.reass.datagrams = (entryOf k t.reass.datagrams).toList

variable {t t' u u' : ReassSys} {e : ReassEv} {k : List UInt8}

/-- What needs no room in the first state needs none in the second. -/
lemma Alone.fits {p : Chain} (h : Alone k t u) (hk : iphKey (p.headD []) = k)
    (hfits : t.reass.Fits p) : u.reass.Fits p := by
  intro hhl
  obtain ⟨hroom, -⟩ := hfits hhl
  have hcount := h.wf.count
  have hcount' := h.wf'.count
  obtain ⟨xs, ys, hds, -⟩ := exists_split k h.wf.keys_nodup
  rw [hds, queuedLen_append, queuedLen_append] at hcount
  rw [h.entry] at hcount'
  refine ⟨by omega, ?_⟩
  rw [h.entry]
  cases he : entryOf k t.reass.datagrams with
  | none => exact .inr (by decide)
  | some d => exact .inl (List.mem_singleton.mpr (hk.trans (entryOf_key d he).symm))

lemma key_of_mem_aged {ds : List IpReassdata} {d : IpReassdata} (hd : d ∈ aged ds) :
    ∃ d₀ ∈ ds, iphKey d.iphdr = iphKey d₀.iphdr := by
  obtain ⟨d₀, hd₀, rfl⟩ := List.mem_map.mp hd
  exact ⟨d₀, (List.mem_filter.mp hd₀).1, rfl⟩

/-- The timer makes no difference between the two. -/
lemma entryOf_aged {ds : List IpReassdata} (hkeys : (keys ds).Nodup) :
    aged (entryOf k ds).toList = (entryOf k (aged ds)).toList := by
  obtain ⟨xs, ys, hds, hother⟩ := exists_split k hkeys
  obtain ⟨e, he⟩ : ∃ e : Option IpReassdata, aged (entryOf k ds).toList = e.toList := by
    cases entryOf k ds with
    | none => exact ⟨none, rfl⟩
    | some d =>
      by_cases hpos : 0 < d.timer
      · exact ⟨some { d with timer := d.timer - 1 }, by simp [aged, hpos]⟩
      · exact ⟨none, by simp [aged, hpos]⟩
  have haged : aged ds = aged xs ++ e.toList ++ aged ys := by
    rw [← he]
    conv_lhs => rw [hds]
    simp [aged]
  rw [he, haged, entryOf_split]
  · intro d hd
    have hmem : d ∈ aged (entryOf k ds).toList := he ▸ Option.mem_toList.mpr hd
    obtain ⟨d₀, hd₀, hk⟩ := key_of_mem_aged hmem
    rw [hk, entryOf_key d₀ (Option.mem_toList.mp hd₀)]
  · intro d hd
    have hmem : d ∈ aged (xs ++ ys) := by
      simp only [aged, List.filter_append, List.map_append] at hd ⊢
      exact hd
    obtain ⟨d₀, hd₀, hk⟩ := key_of_mem_aged hmem
    rw [hk]
    exact hother d₀ hd₀

lemma stepFits_eq_some (h : t.stepFits e = some t') :
    t.step e = some t' ∧ ∀ p, e = .frag p → t.reass.Fits p := by
  cases e with
  | frag p =>
    rw [stepFits] at h
    split at h
    next hfits => exact ⟨h, fun _ hp => by cases hp; exact hfits⟩
    next => cases h
  | tmr => exact ⟨h, fun _ hp => by cases hp⟩

/-- A fragment of another datagram leaves the entry as it is. -/
lemma Alone.hidden (h : Alone k t u) (hproj : concerns k e = none)
    (hstep : t.stepFits e = some t') : returns k t e t' = none ∧ Alone k t' u := by
  obtain ⟨hstep, hfits⟩ := stepFits_eq_some hstep
  cases e with
  | frag p =>
    have hk : iphKey (p.headD []) ≠ k := by
      intro hk
      rw [concerns, if_pos hk] at hproj
      cases hproj
    obtain rfl := Option.some.inj hstep
    obtain ⟨xs, ys, hds, hds', -, -⟩ := ip4Reass_flow h.wf (hfits p rfl)
    refine ⟨if_neg hk, (ip4Reass_spec h.wf p).1, h.wf', ?_⟩
    dsimp only
    rw [h.entry, hds', hds, entryOf_other entryOf_key hk,
      entryOf_other (key_flowStep entryOf_key) hk]
  | tmr => cases hproj

/-- A fragment of the datagram, and the timer, do the same on both sides. -/
lemma Alone.seen {e' : ReassEv} (h : Alone k t u) (hproj : concerns k e = some e')
    (hstep : t.stepFits e = some t') (hstep' : u.step e' = some u') :
    returns k t e t' = returns k u e' u' ∧ Alone k t' u' := by
  obtain ⟨hstep, hfits⟩ := stepFits_eq_some hstep
  cases e with
  | frag p =>
    rw [concerns] at hproj
    split at hproj
    next hk =>
      obtain rfl := Option.some.inj hproj
      obtain rfl := Option.some.inj hstep
      obtain rfl := Option.some.inj hstep'
      obtain ⟨xs, ys, hds, hds', hret, hother⟩ := ip4Reass_flow h.wf (hfits p rfl)
      obtain ⟨xs', ys', hu, hu', hret', -⟩ := ip4Reass_flow h.wf' (h.fits hk (hfits p rfl))
      have hsame : entryOf k u.reass.datagrams = entryOf k t.reass.datagrams := by
        have hnil : ∀ d ∈ ([] ++ [] : List IpReassdata), iphKey d.iphdr ≠ k := fun d hd => by
          cases hd
        have hsplit := entryOf_split (e := entryOf k t.reass.datagrams) entryOf_key hnil
        rwa [List.nil_append, List.append_nil, ← h.entry] at hsplit
      rw [hk] at hds' hret hother hu hu' hret'
      rw [hsame] at hu hu' hret'
      obtain ⟨rfl, rfl⟩ : xs' = [] ∧ ys' = [] := by
        have := congrArg List.length (h.entry.symm.trans hu)
        simp only [List.length_append] at this
        exact ⟨List.length_eq_zero_iff.mp (by omega), List.length_eq_zero_iff.mp (by omega)⟩
      refine ⟨?_, (ip4Reass_spec h.wf p).1, (ip4Reass_spec h.wf' p).1, ?_⟩
      · rw [returns, returns, if_pos hk, if_pos hk, hret, hret']
      · dsimp only
        have hkey := key_flowStep (p := p) (e := entryOf k t.reass.datagrams)
          fun d hd => (entryOf_key d hd).trans hk.symm
        rw [hk] at hkey
        rw [hu', hds', entryOf_split hkey hother, List.nil_append, List.append_nil]
    next => cases hproj
  | tmr =>
    obtain rfl := Option.some.inj hproj
    obtain rfl := Option.some.inj hstep
    obtain rfl := Option.some.inj hstep'
    obtain ⟨hwf, hds, -⟩ := ipReassTmr_spec h.wf
    obtain ⟨hwf', hds', -⟩ := ipReassTmr_spec h.wf'
    refine ⟨rfl, hwf, hwf', ?_⟩
    dsimp only
    rw [hds, hds', h.entry, entryOf_aged h.wf.keys_nodup]

/-- **The datagrams do not disturb each other.** In every run in which no fragment finds the
pool or the limit on packet buffers exhausted, with fragments of any other datagrams, whole or
damaged, arriving in between: what `ip4_reass` returns for the fragments of one datagram, call
by call, is what it returns if only these arrive. -/
theorem reass_flows_independent {es : List ReassEv} (hrun : exec stepFits init es = some t) :
    trace stepFits (returns k) init es =
      trace step (returns k) init (es.filterMap (concerns k)) := by
  have hadm : Admits stepFits (fun _ _ => True) init es := admits_of_forall fun _ _ _ => trivial
  have htotal : ∀ s e, True → True → ∃ s', step s e = some s' ∧ True := by
    rintro s (p | _) - -
    · exact ⟨_, rfl, trivial⟩
    · exact ⟨_, rfl, trivial⟩
  obtain ⟨u, hrun', -⟩ : ∃ u, exec step init (es.filterMap (concerns k)) = some u ∧ True :=
    exec_total_of_admits htotal trivial (admits_of_forall fun _ _ _ => trivial)
  have hhidden : ∀ s e s' u, Alone k s u → True → concerns k e = none → stepFits s e = some s' →
      returns k s e s' = none ∧ Alone k s' u :=
    fun _ _ _ _ h _ hproj hstep => h.hidden hproj hstep
  have hseen : ∀ s e s' u e' u', Alone k s u → concerns k e = some e' → stepFits s e = some s' →
      step u e' = some u' → returns k s e s' = returns k u e' u' ∧ Alone k s' u' :=
    fun _ _ _ _ _ _ h hproj hstep hstep' => h.seen hproj hstep hstep'
  exact trace_eq_of_unwinding hhidden hseen ⟨sound_init.wf, sound_init.wf, rfl⟩ hadm hrun hrun'

theorem reass_flows_independent_sample :
    (exec stepFits init sampleFrags).isSome ∧
      trace stepFits (returns [0, 1, 10, 0, 0, 1, 10, 0, 0, 2]) init sampleFrags =
        trace step (returns [0, 1, 10, 0, 0, 1, 10, 0, 0, 2]) init
          [.frag (sampleFrag 1 1), .tmr, .frag (sampleFrag 1 0x2000)] := by
  obtain ⟨t, hrun⟩ : ∃ t, exec stepFits init sampleFrags = some t := ⟨_, rfl⟩
  exact ⟨by rw [hrun]; rfl, reass_flows_independent hrun⟩

end ReassSys

end Teensy41Ethernet.Lwip
