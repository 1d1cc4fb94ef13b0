import Teensy41Ethernet.Lwip.EtharpMove

/-!
# Runs of address resolution

All calls into `etharp.c`, in any order, with memory or without, and with the interface
reconfigured at any time.  What a run is measured against is kept beside the table: the ARP
packets that were heard, and the packets that were submitted.
-/

namespace Teensy41Ethernet.Lwip

/-! ### The system -/

/-- A packet that was given to `etharp_output`: where it goes, the configuration of the
interface then, and the time. -/
structure Submission (π : Type*) where
  packet : π
  dest : Ip4Addr
  via : Netif
  time : ℕ

/-- The table with the interface, and what the outside knows: how often the timer has run, the
hardware address each host has last announced and when, the packets that were submitted, and
those of them for which an error was returned. -/
structure ArpSys (π : Type*) where
  arp : Etharp π
  netif : Netif
  now : ℕ
  heard : Ip4Addr → Option (EthAddr × ℕ)
  submitted : List (Submission π)
  refused : List π

/-- The calls, with the allocations that succeed. -/
inductive ArpEv (π : Type*) where
  | tmr (alloc : Fin arpTableSize → Bool)
  | input (alloc : Bool) (hdr : EtharpHdr)
  | output (alloc copy : Bool) (q : π) (dest : Ip4Addr)
  | query (alloc : Bool) (a : Ip4Addr)
  | gratuitous (alloc : Bool)
  | cleanup
  | configure (n : Netif)

namespace ArpSys

variable {π : Type*}

def init (n : Netif) : ArpSys π := ⟨.init, n, 0, fun _ => none, [], []⟩

/-- An announcement is an ARP packet of the right kind from a unicast address. -/
def hear (σ : ArpSys π) (hdr : EtharpHdr) : Ip4Addr → Option (EthAddr × ℕ) :=
  if hdr.valid ∧ nonUnicast hdr.sipaddr σ.netif = false then
    Function.update σ.heard hdr.sipaddr (some (hdr.shwaddr, σ.now))
  else σ.heard

def step (σ : ArpSys π) : ArpEv π → ArpSys π
  | .tmr alloc => { σ with arp := etharpTmr σ.netif alloc σ.arp, now := σ.now + 1 }
  | .input alloc hdr =>
      { σ with arp := etharpInput σ.netif alloc hdr σ.arp, heard := σ.hear hdr }
  | .output alloc copy q dest =>
      let r := etharpOutput σ.netif alloc copy q dest σ.arp
      { σ with
        arp := r.1
        submitted := σ.submitted ++ [⟨q, dest, σ.netif, σ.now⟩]
        refused := if r.2 = .ok then σ.refused else σ.refused ++ [q] }
  | .query alloc a => { σ with arp := (etharpQuery σ.netif alloc true a none σ.arp).1 }
  | .gratuitous alloc => { σ with arp := (etharpRequest σ.netif alloc σ.netif.ipAddr σ.arp).1 }
  | .cleanup => { σ with arp := etharpCleanupNetif σ.arp }
  | .configure n => { σ with netif := n }

/-- The state after a list of calls. -/
def run (n : Netif) (evs : List (ArpEv π)) : ArpSys π := evs.foldl step (init n)

end ArpSys

variable {π : Type*} {σ σ' : ArpSys π} {e : EtharpEntry π} {a : Ip4Addr} {ps : List π}

/-! ### What the entries hold -/

/-- The packet was submitted for the next hop `a`. -/
def Submission.For (x : Submission π) (p : π) (a : Ip4Addr) : Prop :=
  x.packet = p ∧ ip4AddrIsbroadcast x.dest x.via = false ∧ ip4AddrIsmulticast x.dest = false ∧
    nextHop x.via x.dest = some a

/-- What an entry holds is what the outside knows. -/
structure EtharpEntry.Good (σ : ArpSys π) (e : EtharpEntry π) : Prop where
  waiting : e.q.isSome → e.state = .pending
  age : e.state ≠ .empty → e.ctime < arpMaxage
  agePending : e.state = .pending → e.ctime < arpMaxpending
  known : e.state.isStable → ∃ t, σ.heard e.ipaddr = some (e.ethaddr, t) ∧ t + e.ctime = σ.now
  submitted : ∀ p, e.q = some p → ∃ x ∈ σ.submitted, x.For p e.ipaddr ∧ σ.now ≤ x.time + e.ctime

namespace EtharpEntry

lemma Good.congr (he : e.Good σ) (hheard : σ'.heard = σ.heard) (hnow : σ'.now = σ.now)
    (hsub : ∀ x ∈ σ.submitted, x ∈ σ'.submitted) : e.Good σ' := by
  refine ⟨he.waiting, he.age, he.agePending, ?_, fun p hp => ?_⟩
  · rw [hheard, hnow]
    exact he.known
  · obtain ⟨x, hx, hfor, ht⟩ := he.submitted p hp
    exact ⟨x, hsub x hx, hfor, by rwa [hnow]⟩

lemma good_cleared (e : EtharpEntry π) : e.cleared.Good σ :=
  ⟨fun h => (by cases h), fun h => absurd rfl h, fun h => (by cases h), fun h => (by cases h),
    fun _ h => (by cases h)⟩

/-- The timer. -/
lemma Good.aged (he : e.Good σ) (hheard : σ'.heard = σ.heard) (hnow : σ'.now = σ.now + 1)
    (hsub : σ'.submitted = σ.submitted) : e.aged.Good σ' := by
  rcases e.aged_cases with ⟨hst, h⟩ | ⟨e', h⟩ | ⟨hage, hpend, st, h, hne, hiff⟩
  · rw [h]
    have hq : e.q = none := by
      rw [← Option.not_isSome_iff_eq_none]
      intro hq
      rw [he.waiting hq] at hst
      cases hst
    refine ⟨he.waiting, fun h => absurd hst h, he.agePending, fun h => ?_, fun p hp => ?_⟩
    · rw [hst] at h
      cases h
    · rw [hq] at hp
      cases hp
  · rw [h]
    exact good_cleared e'
  · rw [h]
    refine ⟨fun hq => hiff.mpr (he.waiting hq), fun _ => hage, fun h => hpend (hiff.mp h),
      fun hs => ?_, fun p hp => ?_⟩
    · have hs : st.isStable := hs
      have hstable : e.state.isStable :=
        EtharpState.isStable_iff.mpr ⟨hne, fun h => (EtharpState.isStable_iff.mp hs).2 (hiff.mpr h)⟩
      obtain ⟨t, ht, htime⟩ := he.known hstable
      exact ⟨t, by rw [hheard, ht], by rw [hnow, ← htime]; rfl⟩
    · obtain ⟨x, hx, hfor, ht⟩ := he.submitted p hp
      exact ⟨x, hsub ▸ hx, hfor, by rw [hnow]; exact Nat.succ_le_succ ht⟩

/-- The moves for an address keep what entries hold, if the packets were submitted for it now. -/
lemma good_keptBy (hps : ∀ q ∈ ps, ∃ x ∈ σ.submitted, x.For q a ∧ x.time = σ.now) :
    KeptBy a ps (Good σ) := by
  refine ⟨fun e he hst => ?_, fun mac => ?_, fun e q hq he hpend ha => ?_⟩
  · refine ⟨fun h => ?_, fun _ => he.age (by rw [hst]; decide), fun h => (by cases h),
      fun _ => he.known (by rw [hst]; rfl), he.submitted⟩
    have := he.waiting h
    rw [hst] at this
    cases this
  · exact ⟨fun h => (by cases h), fun _ => show 0 < arpMaxage by decide,
      fun _ => show 0 < arpMaxpending by decide, fun h => (by cases h), fun _ h => (by cases h)⟩
  · refine ⟨fun _ => hpend, he.age, he.agePending, he.known, fun p hp => ?_⟩
    cases Option.some.inj hp
    obtain ⟨x, hx, hfor, ht⟩ := hps q hq
    exact ⟨x, hx, ha ▸ hfor, ht ▸ Nat.le_add_right _ _⟩

end EtharpEntry

/-- The right destination for a packet: everybody, the group, or the hardware address that the
next hop has announced last, less than five minutes ago. -/
def Submission.Addressed (σ : ArpSys π) (x : Submission π) (dst : EthAddr) : Prop :=
  if ip4AddrIsbroadcast x.dest x.via then dst = ethbroadcast
  else if ip4AddrIsmulticast x.dest then dst = mcastaddr x.dest
  else ∃ a t, nextHop x.via x.dest = some a ∧ σ.heard a = some (dst, t) ∧ σ.now < t + arpMaxage

lemma Submission.For.addressed {x : Submission π} {p : π} {dst : EthAddr} {t : ℕ} (hx : x.For p a)
    (hheard : σ.heard a = some (dst, t)) (ht : σ.now < t + arpMaxage) : x.Addressed σ dst := by
  rw [Submission.Addressed, hx.2.1, hx.2.2.1]
  exact ⟨a, t, hx.2.2.2, hheard, ht⟩

namespace ArpSys

/-- The frames are for packets that were submitted less than five runs of the timer ago, and go
to the right destination. -/
def Right (σ : ArpSys π) (new : List (Frame π)) : Prop :=
  ∀ dst p, .ip dst p ∈ new →
    ∃ x ∈ σ.submitted, x.packet = p ∧ σ.now < x.time + arpMaxpending ∧ x.Addressed σ dst

variable {new new' : List (Frame π)}

lemma Right.append (h : σ.Right new) (h' : σ.Right new') : σ.Right (new ++ new') :=
  fun dst p hp => (List.mem_append.mp hp).elim (h dst p) (h' dst p)

lemma right_of_forall_notMem (h : ∀ dst p, .ip dst p ∉ new) : σ.Right new :=
  fun dst p hp => absurd hp (h dst p)

/-! ### One step -/

/-- The invariant of the table. -/
abbrev Sound (σ : ArpSys π) : Prop := σ.arp.Inv (EtharpEntry.Good σ)

lemma Sound.waiting (hσ : σ.Sound) (k : Fin arpTableSize) :
    (σ.arp.table k).q.isSome → (σ.arp.table k).state = .pending :=
  (hσ.entry k).waiting

/-- What is to be shown of a step. -/
def StepOk (σ σ' : ArpSys π) : Prop :=
  σ'.Sound ∧ ∃ new, σ'.arp.sent = σ.arp.sent ++ new ∧ σ'.Right new

lemma stepOk_of_moves {s : Etharp π} (h : s.Moves a ps σ'.arp) (hs : s.Inv (EtharpEntry.Good σ'))
    (hps : ∀ q ∈ ps, ∃ x ∈ σ'.submitted, x.For q a ∧ x.time = σ'.now) :
    σ'.Sound ∧ ∃ new, σ'.arp.sent = s.sent ++ new ∧ σ'.Right new := by
  have hkept := EtharpEntry.good_keptBy hps
  obtain ⟨new, hnew, hframes⟩ := h.sent hkept hs
  refine ⟨h.inv hkept hs, new, hnew, fun dst p hp => ?_⟩
  obtain ⟨hq, e, he, hst, hip, rfl⟩ := hframes dst p hp
  obtain ⟨x, hx, hfor, ht⟩ := hps p hq
  obtain ⟨t, hheard, hnow⟩ := he.known hst
  have hage := he.age (EtharpState.isStable_iff.mp hst).1
  rw [hip] at hheard
  exact ⟨x, hx, hfor.1, by rw [ht]; exact Nat.lt_add_of_pos_right (by decide),
    hfor.addressed hheard (by omega)⟩

lemma Sound.output (hσ : σ.Sound) (alloc copy : Bool) (q : π) (dest : Ip4Addr) :
    StepOk σ (σ.step (.output alloc copy q dest)) := by
  set σ' := σ.step (.output alloc copy q dest) with hσ'
  have hmem : (⟨q, dest, σ.netif, σ.now⟩ : Submission π) ∈ σ'.submitted :=
    List.mem_append_right _ (List.mem_singleton_self _)
  have hs : σ.arp.Inv (EtharpEntry.Good σ') :=
    hσ.mono fun e he => he.congr rfl rfl fun x hx => List.mem_append_left _ hx
  -- a frame for the packet itself
  have hdirect : ∀ dst, (⟨q, dest, σ.netif, σ.now⟩ : Submission π).Addressed σ' dst →
      σ'.Right [.ip dst q] := by
    intro dst hdst d p hp
    cases List.mem_singleton.mp hp
    exact ⟨_, hmem, rfl, Nat.lt_add_of_pos_right (by decide), hdst⟩
  rcases etharpOutput_cases hσ.waiting σ.netif alloc copy q dest with ⟨hb, h⟩ | ⟨hb, ⟨hmc, h⟩ |
    ⟨hmc, ⟨-, h⟩ | ⟨a, hhop, h⟩⟩⟩
  · have harp : σ'.arp = σ.arp.send (.ip ethbroadcast q) := congrArg Prod.fst h
    rw [StepOk, Sound, harp]
    refine ⟨⟨hs.distinct, hs.entry⟩, [.ip ethbroadcast q], rfl, hdirect _ ?_⟩
    rw [Submission.Addressed, if_pos hb]
  · have harp : σ'.arp = σ.arp.send (.ip (mcastaddr dest) q) := congrArg Prod.fst h
    rw [StepOk, Sound, harp]
    refine ⟨⟨hs.distinct, hs.entry⟩, [.ip (mcastaddr dest) q], rfl, hdirect _ ?_⟩
    rw [Submission.Addressed, hb, if_neg Bool.false_ne_true, if_pos hmc]
  · have harp : σ'.arp = σ.arp := congrArg Prod.fst h
    rw [StepOk, Sound, harp]
    exact ⟨hs, [], (List.append_nil _).symm, fun _ _ h => (by cases h)⟩
  · refine stepOk_of_moves h hs fun p hp => ?_
    have hp : p = q := by
      split at hp
      · exact List.mem_singleton.mp hp
      · cases hp
    exact ⟨_, hmem, ⟨hp.symm, hb, hmc, hhop⟩, rfl⟩

lemma Sound.input (hσ : σ.Sound) (alloc : Bool) (hdr : EtharpHdr) :
    StepOk σ (σ.step (.input alloc hdr)) := by
  set σ' := σ.step (.input alloc hdr) with hσ'
  rcases etharpInput_cases hσ.waiting σ.netif alloc hdr with ⟨hv, h⟩ | ⟨hv, s₁, hl, hm, -⟩
  · have harp : σ'.arp = σ.arp := h
    have hheard : σ'.heard = σ.heard := if_neg (by simp [hv])
    rw [StepOk, Sound, harp]
    exact ⟨hσ.mono fun e he => he.congr hheard rfl fun _ => id, [], (List.append_nil _).symm,
      fun _ _ h => (by cases h)⟩
  · cases hu : nonUnicast hdr.sipaddr σ.netif with
    | true =>
      have hheard : σ'.heard = σ.heard := if_neg (by simp [hu])
      rw [hl.eq_of_group hu] at hm
      refine stepOk_of_moves hm (hσ.mono fun e he => ?_) (fun _ h => (by cases h))
      exact he.congr hheard rfl fun _ => id
    | false =>
      have hheard : σ'.heard =
          Function.update σ.heard hdr.sipaddr (some (hdr.shwaddr, σ.now)) := if_pos ⟨hv, hu⟩
      have hself : σ'.heard hdr.sipaddr = some (hdr.shwaddr, σ'.now) := by
        rw [hheard, Function.update_self]
        rfl
      have hs₁ : s₁.Inv (EtharpEntry.Good σ') := by
        refine hl.inv hσ hu (fun e he hne => ?_) ?_
        · refine ⟨he.waiting, he.age, he.agePending, fun hst => ?_, he.submitted⟩
          rw [hheard, Function.update_of_ne (hne (EtharpState.isStable_iff.mp hst).1)]
          exact he.known hst
        · exact ⟨fun h => (by cases h), fun _ => show 0 < arpMaxage by decide,
            fun h => (by cases h), fun _ => ⟨_, hself, rfl⟩, fun _ h => (by cases h)⟩
      obtain ⟨hsound, new', hnew', hright'⟩ := stepOk_of_moves hm hs₁ (fun _ h => (by cases h))
      obtain ⟨new, hnew, hframes⟩ := hl.sent
      refine ⟨hsound, new ++ new', ?_, .append (fun dst p hp => ?_) hright'⟩
      · rw [hnew', hnew, List.append_assoc]
      · -- the packet that waited was submitted while the entry was pending
        obtain ⟨rfl, -, i, hq, hip⟩ := hframes dst p hp
        obtain ⟨x, hx, hfor, ht⟩ := (hσ.entry i).submitted p hq
        have hpend := hσ.waiting i (by rw [hq]; rfl)
        have hage := (hσ.entry i).agePending hpend
        rw [hip] at hfor
        exact ⟨x, hx, hfor.1, Nat.lt_of_le_of_lt ht (Nat.add_lt_add_left hage _),
          hfor.addressed hself (Nat.lt_add_of_pos_right (by decide))⟩

lemma stepOk_of_sweeps {f : Etharp π → Fin arpTableSize → Etharp π}
    {g : EtharpEntry π → EtharpEntry π} (hf : Sweeps f g) (hσ : σ.Sound)
    (harp : σ'.arp = (List.finRange arpTableSize).foldl f σ.arp)
    (hgood : ∀ e, e.Good σ → (g e).Good σ')
    (hg : ∀ e, (g e).state ≠ .empty → e.state ≠ .empty ∧ (g e).ipaddr = e.ipaddr) :
    StepOk σ σ' := by
  have htable : ∀ i, σ'.arp.table i = g (σ.arp.table i) := by
    intro i
    rw [harp, hf.foldl_of_mem (List.nodup_finRange _) (List.mem_finRange i)]
  obtain ⟨new, hnew, hip⟩ := hf.foldl_sent (s := σ.arp) (l := List.finRange arpTableSize)
  refine ⟨⟨fun i k hi hk hik => ?_, fun i => ?_⟩, new, ?_, right_of_forall_notMem hip⟩
  · rw [htable] at hi hk
    obtain ⟨hi, hii⟩ := hg _ hi
    obtain ⟨hk, hkk⟩ := hg _ hk
    rw [htable, htable, hii, hkk] at hik
    exact hσ.distinct i k hi hk hik
  · rw [htable]
    exact hgood _ (hσ.entry i)
  · rw [harp, hnew]

/-- **One step** keeps the table sound, and sends frames to the right destinations only. -/
lemma Sound.step (hσ : σ.Sound) (ev : ArpEv π) : StepOk σ (σ.step ev) := by
  cases ev with
  | output alloc copy q dest => exact hσ.output alloc copy q dest
  | input alloc hdr => exact hσ.input alloc hdr
  | query alloc a =>
    have h := etharpQuery_moves hσ.waiting σ.netif alloc true a none
    rw [Option.toList_none, ite_self] at h
    refine stepOk_of_moves h (hσ.mono fun e he => ?_) (fun _ h => (by cases h))
    exact he.congr rfl rfl fun _ => id
  | gratuitous alloc =>
    have h : σ.arp.Moves σ.netif.ipAddr [] (σ.step (.gratuitous alloc)).arp :=
      etharpRaw_moves alloc _ _
    refine stepOk_of_moves h (hσ.mono fun e he => ?_) (fun _ h => (by cases h))
    exact he.congr rfl rfl fun _ => id
  | configure n =>
    exact ⟨hσ.mono fun e he => he.congr rfl rfl fun _ => id, [], (List.append_nil _).symm,
      fun _ _ h => (by cases h)⟩
  | tmr alloc =>
    rw [ArpSys.step]
    generalize harp : etharpTmr σ.netif alloc σ.arp = s
    rw [etharpTmr] at harp
    refine stepOk_of_sweeps (etharpTmrEntry_sweeps σ.netif alloc) hσ harp.symm
      (fun e he => he.aged rfl rfl rfl) fun e he => ?_
    rcases e.aged_cases with ⟨-, h⟩ | ⟨e', h⟩ | ⟨-, -, st, h, hne, -⟩
    · rw [h] at he ⊢
      exact ⟨he, rfl⟩
    · rw [h] at he
      exact absurd rfl he
    · exact ⟨hne, by rw [h]⟩
  | cleanup =>
    rw [ArpSys.step]
    generalize harp : etharpCleanupNetif σ.arp = s
    rw [etharpCleanupNetif] at harp
    refine stepOk_of_sweeps etharpCleanupNetif_sweeps hσ harp.symm (fun e he => ?_) fun e he => ?_
    · split
      · exact e.good_cleared
      · exact he.congr rfl rfl fun _ => id
    · split at he
      · exact absurd rfl he
      next hempty => exact absurd he hempty

/-! ### Runs -/

lemma sound_init (n : Netif) : (init n : ArpSys π).Sound := by
  refine ⟨fun i _ hi => absurd rfl hi, fun i => ?_⟩
  exact ⟨fun h => (by cases h), fun h => absurd rfl h, fun h => (by cases h),
    fun h => (by cases h), fun _ h => (by cases h)⟩

lemma sound_run (n : Netif) (evs : List (ArpEv π)) : (run n evs).Sound :=
  List.foldlRecOn evs step (sound_init n) fun _ hσ ev _ => (hσ.step ev).1

/-- **The table in any run.** No two entries are for one address; no entry is older than five
minutes; an entry that is not waiting for an answer holds the hardware address its host has
announced last; and a packet that waits was submitted for the entry's address, less than five
runs of the timer ago. -/
theorem arp_table_sound (n : Netif) (evs : List (ArpEv π)) :
    (∀ i k, ((run n evs).arp.table i).state ≠ .empty → ((run n evs).arp.table k).state ≠ .empty →
      ((run n evs).arp.table i).ipaddr = ((run n evs).arp.table k).ipaddr → i = k) ∧
    ∀ i, (((run n evs).arp.table i).state.isStable →
        ∃ t, (run n evs).heard ((run n evs).arp.table i).ipaddr =
            some (((run n evs).arp.table i).ethaddr, t) ∧
          (run n evs).now < t + arpMaxage) ∧
      ∀ p, ((run n evs).arp.table i).q = some p →
        ((run n evs).arp.table i).state = .pending ∧ ∃ x ∈ (run n evs).submitted,
          x.For p ((run n evs).arp.table i).ipaddr ∧ (run n evs).now < x.time + arpMaxpending := by
  have hσ := sound_run n evs
  refine ⟨hσ.distinct, fun i => ⟨fun hst => ?_, fun p hp => ?_⟩⟩
  · obtain ⟨t, hheard, hnow⟩ := (hσ.entry i).known hst
    have hage := (hσ.entry i).age (EtharpState.isStable_iff.mp hst).1
    exact ⟨t, hheard, by omega⟩
  · obtain ⟨x, hx, hfor, ht⟩ := (hσ.entry i).submitted p hp
    have hpend := hσ.waiting i (by rw [hp]; rfl)
    have hage := (hσ.entry i).agePending hpend
    exact ⟨hpend, x, hx, hfor, by omega⟩

/-- **Frames go to the right hosts.** In any run, every packet that a call sends was submitted
less than five runs of the timer ago, and goes to everybody, to its group, or to the hardware
address that its next hop has announced last, less than five minutes ago. -/
theorem arp_frames_addressed (n : Netif) (evs : List (ArpEv π)) (ev : ArpEv π) :
    ∃ new, (run n (evs ++ [ev])).arp.sent = (run n evs).arp.sent ++ new ∧
      (run n (evs ++ [ev])).Right new := by
  obtain ⟨-, new, hnew, hright⟩ := (sound_run n evs).step ev
  have hrun : run n (evs ++ [ev]) = (run n evs).step ev := List.foldl_concat ..
  rw [hrun]
  exact ⟨new, hnew, hright⟩

/-! ### The hint -/

/-- `etharp_output` without the test of `etharp_cached_entry`: the table is always searched. -/
def etharpOutputSearch (n : Netif) (alloc copy : Bool) (q : π) (dest : Ip4Addr) (s : Etharp π) :
    Etharp π × Err :=
  if ip4AddrIsbroadcast dest n then (s.send (.ip ethbroadcast q), .ok)
  else if ip4AddrIsmulticast dest then (s.send (.ip (mcastaddr dest) q), .ok)
  else
    match nextHop n dest with
    | none => (s, .rte)
    | some a =>
        match (List.finRange arpTableSize).find? fun i =>
            (s.table i).state.isStable ∧ a = (s.table i).ipaddr with
        | some i => (etharpOutputToArpIndex n alloc q i { s with cachedEntry := i }, .ok)
        | none => etharpQuery n alloc copy a (some q) s

/-- The search finds the entry of the address, as there is only one. -/
lemma Sound.find?_eq_some (hσ : σ.Sound) {i : Fin arpTableSize}
    (hi : (σ.arp.table i).state.isStable ∧ a = (σ.arp.table i).ipaddr) :
    ((List.finRange arpTableSize).find? fun k =>
      (σ.arp.table k).state.isStable ∧ a = (σ.arp.table k).ipaddr) = some i := by
  cases hfind : (List.finRange arpTableSize).find? fun k =>
      (σ.arp.table k).state.isStable ∧ a = (σ.arp.table k).ipaddr with
  | none =>
    have := List.find?_eq_none.mp hfind i (List.mem_finRange i)
    exact absurd (decide_eq_true hi) this
  | some k =>
    have hk : (σ.arp.table k).state.isStable ∧ a = (σ.arp.table k).ipaddr := by
      simpa using List.find?_some hfind
    have hki := hσ.distinct k i (EtharpState.isStable_iff.mp hk.1).1
      (EtharpState.isStable_iff.mp hi.1).1 (hk.2.symm.trans hi.2)
    rw [hki]

/-- **The hint changes nothing.** In any run, `etharp_output` does what it would do if it always
searched the table. -/
theorem arp_hint_agrees (n : Netif) (evs : List (ArpEv π)) (alloc copy : Bool) (q : π)
    (dest : Ip4Addr) :
    etharpOutput (run n evs).netif alloc copy q dest (run n evs).arp =
      etharpOutputSearch (run n evs).netif alloc copy q dest (run n evs).arp := by
  have hσ := sound_run n evs
  generalize run n evs = σ at hσ
  rw [etharpOutput.eq_def, etharpOutputSearch.eq_def]
  split
  · rfl
  split
  · rfl
  cases nextHop σ.netif dest with
  | none => rfl
  | some a =>
    dsimp only
    split
    next hi =>
      -- the hint is the entry that is found, and stays as it is
      rw [hσ.find?_eq_some hi]
    next => rfl

/-! ### No packet is lost or made up -/

/-- The packets that were submitted are those that were taken over and those that were refused. -/
def Accounted (σ : ArpSys π) : Prop :=
  σ.arp.packets + (σ.refused : Multiset π) = (σ.submitted.map Submission.packet : Multiset π)

lemma Accounted.congr (hσ : σ.Accounted) (harp : σ'.arp.packets = σ.arp.packets)
    (hrefused : σ'.refused = σ.refused) (hsub : σ'.submitted = σ.submitted) : σ'.Accounted := by
  rw [Accounted, harp, hrefused, hsub]
  exact hσ

lemma packets_etharpOutput (hσ : σ.Sound) (alloc copy : Bool) (q : π) (dest : Ip4Addr) :
    (etharpOutput σ.netif alloc copy q dest σ.arp).1.packets = σ.arp.packets +
      ((if (etharpOutput σ.netif alloc copy q dest σ.arp).2 = .ok then [q] else [] : List π) :
        Multiset π) := by
  rcases etharpOutput_cases hσ.waiting σ.netif alloc copy q dest with ⟨-, h⟩ | ⟨-, ⟨-, h⟩ |
    ⟨-, ⟨-, h⟩ | ⟨a, -, h⟩⟩⟩
  · rw [h]
    exact Etharp.packets_send _ _
  · rw [h]
    exact Etharp.packets_send _ _
  · rw [h]
    exact (add_zero _).symm
  · exact h.packets

lemma Accounted.step (hσ : σ.Sound) (h : σ.Accounted) (ev : ArpEv π) : (σ.step ev).Accounted := by
  cases ev with
  | output alloc copy q dest =>
    have hout := packets_etharpOutput hσ alloc copy q dest
    rw [Accounted] at h ⊢
    simp only [ArpSys.step, List.map_append, List.map_cons, List.map_nil, ← Multiset.coe_add,
      hout, ← h]
    split
    · abel
    · rw [← Multiset.coe_add, Multiset.coe_nil]
      abel
  | input alloc hdr =>
    refine h.congr ?_ rfl rfl
    rcases etharpInput_cases hσ.waiting σ.netif alloc hdr with ⟨-, hin⟩ | ⟨-, s₁, hl, hm, -⟩
    · exact congrArg Etharp.packets hin
    · exact hm.packets.trans ((add_zero _).trans hl.packets)
  | query alloc a =>
    have hq := etharpQuery_moves hσ.waiting σ.netif alloc true a none
    rw [Option.toList_none, ite_self] at hq
    exact h.congr (hq.packets.trans (add_zero _)) rfl rfl
  | gratuitous alloc =>
    have hm : σ.arp.Moves σ.netif.ipAddr [] (etharpRequest σ.netif alloc σ.netif.ipAddr σ.arp).1 :=
      etharpRaw_moves alloc _ _
    exact h.congr (hm.packets.trans (add_zero _)) rfl rfl
  | configure n => exact h.congr rfl rfl rfl
  | tmr alloc =>
    have hpackets := etharpTmr_packets σ.netif alloc σ.arp
    rw [ArpSys.step]
    generalize etharpTmr σ.netif alloc σ.arp = s at hpackets
    exact h.congr hpackets rfl rfl
  | cleanup =>
    have hpackets := etharpCleanupNetif_packets σ.arp
    rw [ArpSys.step]
    generalize etharpCleanupNetif σ.arp = s at hpackets
    exact h.congr hpackets rfl rfl

lemma accounted_init (n : Netif) : (init n : ArpSys π).Accounted := by
  simp [Accounted, Etharp.packets, init, Etharp.init]

/-- **No packet is lost or made up.** In any run, the packets that were submitted are exactly
those that were sent, those that wait at an entry, those that were freed, and those for which an
error was returned; each as often as it was submitted. -/
theorem arp_packets_accounted (n : Netif) (evs : List (ArpEv π)) :
    ((run n evs).arp.sent.filterMap Frame.packet : Multiset π) +
        ∑ i, (((run n evs).arp.table i).q.toList : Multiset π) +
        ((run n evs).arp.freed : Multiset π) + ((run n evs).refused : Multiset π) =
      ((run n evs).submitted.map Submission.packet : Multiset π) := by
  have h : (run n evs).Sound ∧ (run n evs).Accounted :=
    List.foldlRecOn (motive := fun σ => σ.Sound ∧ σ.Accounted) evs step
      ⟨sound_init n, accounted_init n⟩
      fun _ hσ ev _ => ⟨(hσ.1.step ev).1, hσ.2.step hσ.1 ev⟩
  exact h.2

end ArpSys

end Teensy41Ethernet.Lwip
