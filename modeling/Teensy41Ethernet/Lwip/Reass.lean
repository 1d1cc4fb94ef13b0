import Teensy41Ethernet.Lwip.Output
import Teensy41Ethernet.Lib.Run

/-!
# Reassembly of IPv4 fragments (`core/ipv4/ip4_frag.c`)

`ip4_reass` with the functions it calls, and `ip_reass_tmr`.  A fragment is a chain with the
IP header in its first member.  While it is queued, the code keeps `struct ip_reass_helper` in
the first bytes of that header; here `start` and `stop` stand beside the chain, and `next_pbuf`
is the order of the list.

The state also counts the packet buffers that were given to `pbuf_free`, and keeps the chains
for which an ICMP message "time exceeded" was sent.

* `reass_accounting`: over every run, the buffers that went in are those that came out, were
  freed or are queued, and the limits on what is queued hold.
* `reass_timeout`: nothing is queued for more than four periods of the timer.
-/

namespace Teensy41Ethernet.Lwip

open Lib

/-! ### The code -/

/-- `IP_REASS_MAXAGE`. -/
def ipReassMaxage : ℕ := 3

/-- `IP_REASS_MAX_PBUFS`. -/
def ipReassMaxPbufs : ℕ := 10

/-- `MEMP_NUM_REASSDATA`. -/
def mempNumReassdata : ℕ := 5

/-- `lwip_ntohs(IPH_LEN(iphdr))`. -/
def iphLen (hdr : List UInt8) : ℕ := (hdr.getD 2 0).toNat * 256 + (hdr.getD 3 0).toNat

/-- The identification, the source and the destination address of a header. -/
def iphKey (hdr : List UInt8) : List UInt8 := (hdr.drop 4).take 2 ++ (hdr.drop 12).take 8

/-- `IP_ADDRESSES_AND_ID_MATCH`. -/
def ipMatch (a b : List UInt8) : Bool := iphKey a = iphKey b

/-- The offset of a fragment in bytes. -/
def fragOffset (hdr : List UInt8) : ℕ := iphOffset hdr % (ipOffmask + 1) * 8

/-- The length of its data, in 16 bits. -/
def fragLen (hdr : List UInt8) : ℕ := (iphLen hdr + (65536 - iphHL hdr * 4)) % 65536

/-- A fragment in the queue. -/
structure Queued where
  start : ℕ
  /-- `end` of `struct ip_reass_helper`. -/
  stop : ℕ
  p : Chain
deriving DecidableEq

/-- `struct ip_reassdata`. -/
structure IpReassdata where
  p : List Queued
  iphdr : List UInt8
  datagramLen : ℕ
  /-- `IP_REASS_FLAG_LASTFRAG`. -/
  lastfrag : Bool
  timer : ℕ
deriving DecidableEq

/-- `reassdatagrams`, `ip_reass_pbufcount`, and what has been freed and reported. -/
structure Reass where
  datagrams : List IpReassdata
  pbufcount : ℕ
  freed : ℕ
  icmp : List Chain
deriving DecidableEq

/-- `pbuf_clen` of all fragments together. -/
def clen (qs : List Queued) : ℕ := (qs.map fun q => q.p.length).sum

/-- The header of a fragment is written back over the helper. -/
def restoreHeader (hdr : List UInt8) : Chain → Chain
  | [] => []
  | seg :: p => (hdr ++ seg.drop ipHlen) :: p

/-- `ip_reass_free_complete_datagram` of the datagram at place `i` of the list, with the number
of buffers freed. -/
def ipReassFreeCompleteDatagram (i : ℕ) (s : Reass) : Reass × ℕ :=
  match s.datagrams[i]? with
  | none => (s, 0)
  | some ipr =>
      ({ datagrams := s.datagrams.eraseIdx i
         pbufcount := s.pbufcount - clen ipr.p
         freed := s.freed + clen ipr.p
         icmp := s.icmp ++ match ipr.p with
          | [] => []
          | q :: _ => if q.start = 0 then [restoreHeader ipr.iphdr q.p] else [] },
        clen ipr.p)

/-- The loop of `ip_reass_tmr`, at place `i` of the list. -/
def ipReassTmrLoop : ℕ → ℕ → Reass → Reass
  | 0, _, s => s
  | fuel + 1, i, s =>
      match s.datagrams[i]? with
      | none => s
      | some r =>
          if 0 < r.timer then
            ipReassTmrLoop fuel (i + 1)
              { s with datagrams := s.datagrams.set i { r with timer := r.timer - 1 } }
          else ipReassTmrLoop fuel i (ipReassFreeCompleteDatagram i s).1

/-- `ip_reass_tmr`. -/
def ipReassTmr (s : Reass) : Reass := ipReassTmrLoop s.datagrams.length 0 s

/-- The search of `ip_reass_remove_oldest_datagram`: the place of the datagram with the lowest
timer, of several the last, that does not belong to `fraghdr`. -/
def oldestOther (fraghdr : List UInt8) : List IpReassdata → ℕ → Option (ℕ × ℕ) → Option (ℕ × ℕ)
  | [], _, oldest => oldest
  | r :: l, i, oldest =>
      oldestOther fraghdr l (i + 1) <|
        if ipMatch r.iphdr fraghdr then oldest
        else
          match oldest with
          | none => some (i, r.timer)
          | some (k, t) => if r.timer ≤ t then some (i, r.timer) else some (k, t)

/-- The loop of `ip_reass_remove_oldest_datagram`, with the number of buffers freed so far. -/
def ipReassRemoveOldestLoop (fraghdr : List UInt8) (needed : ℕ) : ℕ → ℕ → Reass → Reass × ℕ
  | 0, freed, s => (s, freed)
  | fuel + 1, freed, s =>
      let others := s.datagrams.countP fun r => !ipMatch r.iphdr fraghdr
      let r :=
        match oldestOther fraghdr s.datagrams 0 none with
        | none => (s, 0)
        | some (i, _) => ipReassFreeCompleteDatagram i s
      if freed + r.2 < needed ∧ 1 < others then
        ipReassRemoveOldestLoop fraghdr needed fuel (freed + r.2) r.1
      else (r.1, freed + r.2)

/-- `ip_reass_remove_oldest_datagram`; each round but the last removes a datagram. -/
def ipReassRemoveOldestDatagram (fraghdr : List UInt8) (needed : ℕ) (s : Reass) : Reass × ℕ :=
  ipReassRemoveOldestLoop fraghdr needed (s.datagrams.length + 1) 0 s

/-- A new entry at the front of the list. -/
def Reass.push (fraghdr : List UInt8) (s : Reass) : Reass :=
  { s with
    datagrams := ⟨[], fraghdr.take ipHlen, 0, false, ipReassMaxage⟩ :: s.datagrams }

/-- `ip_reass_enqueue_new_datagram`, and whether there was room in the pool. -/
def ipReassEnqueueNewDatagram (fraghdr : List UInt8) (clen : ℕ) (s : Reass) : Reass × Bool :=
  if s.datagrams.length < mempNumReassdata then (s.push fraghdr, true)
  else
    let r := ipReassRemoveOldestDatagram fraghdr clen s
    if clen ≤ r.2 ∧ r.1.datagrams.length < mempNumReassdata then (r.1.push fraghdr, true)
    else (r.1, false)

/-- The helper of a new fragment. -/
def Queued.of (p : Chain) : Queued :=
  ⟨fragOffset (p.headD []), (fragOffset (p.headD []) + fragLen (p.headD [])) % 65536, p⟩

/-- The loop of `ip_reass_chain_frag_into_datagram_and_validate` and what comes after it: `prev`
is the end of the fragment passed last.  The result has the new queue, whether there was no
hole up to here, and the fragments behind the new one; `none` is `freepbuf`. -/
def chainFragLoop (new : Queued) : Option ℕ → Bool → List Queued →
    Option (List Queued × Bool × List Queued)
  | prev, valid, [] =>
      -- the fragment with the highest offset, for now
      some ([new], valid && prev.all (· = new.start), [])
  | prev, valid, tmp :: l =>
      if new.start < tmp.start then
        -- overlaps are looked for only if there is a fragment before the new one
        if prev.any fun e => new.start < e || tmp.start < new.stop then none
        else some (new :: tmp :: l, valid, tmp :: l)
      else if new.start = tmp.start then none
      else if new.start < tmp.stop then none
      else
        (chainFragLoop new (some tmp.stop) (valid && prev.all (· = tmp.start)) l).map fun r =>
          (tmp :: r.1, r.2)

/-- The check for holes behind the new fragment, which ends at `e`. -/
def noHoles : ℕ → List Queued → Bool
  | _, [] => true
  | e, q :: l => decide (e = q.start) && noHoles q.stop l

/-- `ip_reass_chain_frag_into_datagram_and_validate`: the queue with the new fragment, and
whether the datagram is complete; `none` is `freepbuf`. -/
def ipReassChainFrag (ipr : IpReassdata) (p : Chain) : Option (List Queued × Bool) :=
  (chainFragLoop (Queued.of p) none true ipr.p).map fun r =>
    (r.1, ipr.lastfrag && r.2.1 && r.1.head?.any (·.start = 0) &&
      noHoles (Queued.of p).stop r.2.2)

/-- The chain of a complete datagram: the header of the first fragment is restored, those of
the others are hidden. -/
def reassembled (ipr : IpReassdata) : Chain :=
  match ipr.p with
  | [] => []
  | q :: l =>
      restoreHeader (fragHeader ipr.iphdr 0 ((ipr.datagramLen + ipHlen) % 65536)) q.p ++
        l.flatMap fun r => pbufHeader r.p ipHlen

/-- A last fragment sets the flag and the length. -/
def IpReassdata.note (ipr : IpReassdata) (hdr : List UInt8) : IpReassdata :=
  if iphOffset hdr / ipMF % 2 = 0 then
    { ipr with lastfrag := true, datagramLen := (fragOffset hdr + fragLen hdr) % 65536 }
  else ipr

/-- The end of `ip4_reass`, once the entry of the datagram is at place `i`. -/
def Reass.accept (i : ℕ) (p : Chain) (s : Reass) : Reass × Option Chain :=
  match s.datagrams[i]? with
  | none => (s, none)
  | some ipr =>
      let ipr := ipr.note (p.headD [])
      match ipReassChainFrag ipr p with
      | none =>
          -- `freepbuf`: the count goes up and down again
          ({ s with
             datagrams := s.datagrams.set i ipr
             freed := s.freed + p.length }, none)
      | some (queue, true) =>
          let ipr := { ipr with p := queue }
          ({ s with
             datagrams := s.datagrams.eraseIdx i
             pbufcount := s.pbufcount + p.length - clen queue }, some (reassembled ipr))
      | some (queue, false) =>
          ({ s with
             datagrams := s.datagrams.set i { ipr with p := queue }
             pbufcount := s.pbufcount + p.length }, none)

/-- The header of the first fragment is kept, once it has come. -/
def IpReassdata.takeHeader (fraghdr : List UInt8) (ipr : IpReassdata) : IpReassdata :=
  if fragOffset fraghdr = 0 ∧ fragOffset ipr.iphdr ≠ 0 then
    { ipr with iphdr := fraghdr.take ipHlen }
  else ipr

/-- The middle of `ip4_reass`, when there is room for the buffers. -/
def Reass.enqueue (p : Chain) (s : Reass) : Reass × Option Chain :=
  let fraghdr := p.headD []
  match s.datagrams.findIdx? fun r => ipMatch r.iphdr fraghdr with
  | some i =>
      Reass.accept i p
        { s with datagrams := s.datagrams.modify i (IpReassdata.takeHeader fraghdr) }
  | none =>
      let r := ipReassEnqueueNewDatagram fraghdr p.length s
      if r.2 then r.1.accept 0 p else ({ r.1 with freed := r.1.freed + p.length }, none)

/-- `ip4_reass`: the chain of a complete datagram, or `none` for `NULL`. -/
def ip4Reass (p : Chain) (s : Reass) : Reass × Option Chain :=
  let fraghdr := p.headD []
  if iphHL fraghdr * 4 ≠ ipHlen then ({ s with freed := s.freed + p.length }, none)
  else if ipReassMaxPbufs < s.pbufcount + p.length then
    let r := ipReassRemoveOldestDatagram fraghdr p.length s
    if r.2 = 0 ∨ ipReassMaxPbufs < r.1.pbufcount + p.length then
      ({ r.1 with freed := r.1.freed + p.length }, none)
    else r.1.enqueue p
  else s.enqueue p

/-! ### The invariant -/

variable {s s' : Reass} {d d' : IpReassdata} {ds xs ys : List IpReassdata} {i : ℕ} {p : Chain}
  {hdr : List UInt8}

@[simp] lemma clen_nil : clen [] = 0 := rfl

@[simp] lemma clen_cons (q : Queued) (qs : List Queued) : clen (q :: qs) = q.p.length + clen qs :=
  rfl

/-- The buffers of all fragments in the list. -/
def queuedLen (ds : List IpReassdata) : ℕ := (ds.map fun d => clen d.p).sum

@[simp] lemma queuedLen_nil : queuedLen [] = 0 := rfl

@[simp] lemma queuedLen_cons : queuedLen (d :: ds) = clen d.p + queuedLen ds := by
  simp [queuedLen]

@[simp] lemma queuedLen_append : queuedLen (xs ++ ys) = queuedLen xs + queuedLen ys := by
  simp [queuedLen]

/-- The keys of the datagrams in the list. -/
def keys (ds : List IpReassdata) : List (List UInt8) := ds.map fun d => iphKey d.iphdr

/-- An entry that is not being set up: it has fragments, in the order of their offsets. -/
structure IpReassdata.Good (d : IpReassdata) : Prop where
  nonempty : d.p ≠ []
  sorted : d.p.Pairwise fun q r => q.start < r.start
  timer_le : d.timer ≤ ipReassMaxage

/-- The state between two calls. -/
structure Reass.WF (s : Reass) : Prop where
  count : s.pbufcount = queuedLen s.datagrams
  count_le : s.pbufcount ≤ ipReassMaxPbufs
  length_le : s.datagrams.length ≤ mempNumReassdata
  keys_nodup : (keys s.datagrams).Nodup
  good : ∀ d ∈ s.datagrams, d.Good

/-- The header that is kept has the key of the fragment. -/
@[simp] lemma iphKey_take (hdr : List UInt8) : iphKey (hdr.take ipHlen) = iphKey hdr := by
  simp only [iphKey, ipHlen, List.drop_take, List.take_take]
  norm_num

lemma split_of_getElem? (h : ds[i]? = some d) :
    ∃ xs ys, ds = xs ++ d :: ys ∧ xs.length = i := by
  obtain ⟨hi, rfl⟩ := List.getElem?_eq_some_iff.mp h
  refine ⟨ds.take i, ds.drop (i + 1), ?_, List.length_take_of_le hi.le⟩
  rw [← List.drop_eq_getElem_cons hi, List.take_append_drop]

lemma set_split : (xs ++ d :: ys).set xs.length d' = xs ++ d' :: ys := by simp

lemma eraseIdx_split : (xs ++ d :: ys).eraseIdx xs.length = xs ++ ys := by
  simp [List.eraseIdx_append_of_length_le]

lemma modify_split (f : IpReassdata → IpReassdata) :
    (xs ++ d :: ys).modify xs.length f = xs ++ f d :: ys := by
  rw [List.modify_eq_set_getElem?]
  simp

/-! ### Removing datagrams -/

/-- What `ip_reass_free_complete_datagram` does. -/
lemma ipReassFree_spec (hs : s.WF) (i : ℕ) :
    (ipReassFreeCompleteDatagram i s).1.WF ∧
      (ipReassFreeCompleteDatagram i s).1.datagrams.Sublist s.datagrams ∧
      (ipReassFreeCompleteDatagram i s).1.pbufcount + (ipReassFreeCompleteDatagram i s).1.freed =
        s.pbufcount + s.freed := by
  rw [ipReassFreeCompleteDatagram]
  cases hi : s.datagrams[i]? with
  | none => exact ⟨hs, List.Sublist.refl _, rfl⟩
  | some d =>
    obtain ⟨xs, ys, hds, rfl⟩ := split_of_getElem? hi
    have hcount := hs.count
    have hle := hs.count_le
    have hlen := hs.length_le
    have hkeys := hs.keys_nodup
    have hsub : (xs ++ ys).Sublist s.datagrams := by
      rw [hds]
      exact List.Sublist.append_left (List.sublist_cons_self d ys) xs
    have herase : s.datagrams.eraseIdx xs.length = xs ++ ys := by rw [hds, eraseIdx_split]
    rw [hds] at hcount
    simp only [queuedLen_append, queuedLen_cons] at hcount
    dsimp only
    rw [herase]
    refine ⟨⟨?_, ?_, hsub.length_le.trans hlen, ?_, fun e he => hs.good e (hsub.subset he)⟩, hsub,
      ?_⟩
    · dsimp only
      rw [queuedLen_append]
      omega
    · dsimp only
      omega
    · exact (hsub.map _).nodup hkeys
    · omega

/-- The removal of the oldest datagrams. -/
lemma ipReassRemoveOldestLoop_spec {needed fuel freed : ℕ} (hs : s.WF) :
    (ipReassRemoveOldestLoop hdr needed fuel freed s).1.WF ∧
      (ipReassRemoveOldestLoop hdr needed fuel freed s).1.datagrams.Sublist s.datagrams ∧
      (ipReassRemoveOldestLoop hdr needed fuel freed s).1.pbufcount +
        (ipReassRemoveOldestLoop hdr needed fuel freed s).1.freed = s.pbufcount + s.freed := by
  induction fuel generalizing s freed with
  | zero => exact ⟨hs, List.Sublist.refl _, rfl⟩
  | succ fuel ih =>
    rw [ipReassRemoveOldestLoop]
    generalize hr : (match oldestOther hdr s.datagrams 0 none with
      | none => (s, 0)
      | some (i, _) => ipReassFreeCompleteDatagram i s) = r
    have hspec : r.1.WF ∧ r.1.datagrams.Sublist s.datagrams ∧
        r.1.pbufcount + r.1.freed = s.pbufcount + s.freed := by
      subst hr
      split
      · exact ⟨hs, List.Sublist.refl _, rfl⟩
      · exact ipReassFree_spec hs _
    split
    · obtain ⟨h₁, h₂, h₃⟩ := ih hspec.1
      exact ⟨h₁, h₂.trans hspec.2.1, h₃.trans hspec.2.2⟩
    · exact hspec

lemma ipReassRemoveOldest_spec (hs : s.WF) (hdr : List UInt8) (needed : ℕ) :
    (ipReassRemoveOldestDatagram hdr needed s).1.WF ∧
      (ipReassRemoveOldestDatagram hdr needed s).1.datagrams.Sublist s.datagrams ∧
      (ipReassRemoveOldestDatagram hdr needed s).1.pbufcount +
        (ipReassRemoveOldestDatagram hdr needed s).1.freed = s.pbufcount + s.freed :=
  ipReassRemoveOldestLoop_spec hs

/-! ### Adding a fragment -/

/-- The loop puts the fragment into the list, without changing the others. -/
lemma chainFragLoop_perm {new : Queued} {prev : Option ℕ} {valid : Bool} {l : List Queued}
    {r : List Queued × Bool × List Queued} (h : chainFragLoop new prev valid l = some r) :
    r.1.Perm (new :: l) := by
  induction l generalizing prev valid r with
  | nil =>
    obtain rfl := Option.some.inj h
    exact List.Perm.refl _
  | cons tmp l ih =>
    rw [chainFragLoop] at h
    split at h
    · split at h
      · cases h
      · obtain rfl := Option.some.inj h
        exact List.Perm.refl _
    · split at h
      · cases h
      · split at h
        · cases h
        · obtain ⟨r', hr', rfl⟩ := Option.map_eq_some_iff.mp h
          exact ((ih hr').cons tmp).trans (List.Perm.swap new tmp l)

/-- The list stays sorted. -/
lemma chainFragLoop_sorted {new : Queued} {prev : Option ℕ} {valid : Bool} {l : List Queued}
    {r : List Queued × Bool × List Queued} (h : chainFragLoop new prev valid l = some r)
    (hl : l.Pairwise fun q r => q.start < r.start) :
    r.1.Pairwise fun q r => q.start < r.start := by
  induction l generalizing prev valid r with
  | nil =>
    obtain rfl := Option.some.inj h
    exact List.pairwise_singleton _ _
  | cons tmp l ih =>
    obtain ⟨htmp, hl'⟩ := List.pairwise_cons.mp hl
    rw [chainFragLoop] at h
    split at h
    next hlt =>
      split at h
      · cases h
      · obtain rfl := Option.some.inj h
        refine List.pairwise_cons.mpr ⟨List.forall_mem_cons.mpr ⟨hlt, fun q hq => ?_⟩, hl⟩
        exact hlt.trans (htmp q hq)
    next hge =>
      split at h
      next => cases h
      next hne =>
        split at h
        next => cases h
        next =>
          obtain ⟨r', hr', rfl⟩ := Option.map_eq_some_iff.mp h
          refine List.pairwise_cons.mpr ⟨fun q hq => ?_, ih hr' hl'⟩
          rcases List.mem_cons.mp ((chainFragLoop_perm hr').mem_iff.mp hq) with rfl | hq
          · omega
          · exact htmp q hq

/-- What the function does to the queue: the fragment is added, and the queue stays sorted. -/
lemma ipReassChainFrag_spec {queue : List Queued} {valid : Bool}
    (h : ipReassChainFrag d p = some (queue, valid)) :
    (∃ new : Queued, new.p = p ∧ queue.Perm (new :: d.p)) ∧
      (d.p.Pairwise (fun q r => q.start < r.start) →
        queue.Pairwise fun q r => q.start < r.start) := by
  obtain ⟨r, hr, heq⟩ := Option.map_eq_some_iff.mp h
  obtain ⟨rfl, -⟩ := Prod.mk.inj heq
  exact ⟨⟨_, rfl, chainFragLoop_perm hr⟩, chainFragLoop_sorted hr⟩

lemma clen_perm {l l' : List Queued} (h : l.Perm l') : clen l = clen l' :=
  (h.map _).sum_eq

lemma note_spec (d : IpReassdata) (hdr : List UInt8) :
    (d.note hdr).p = d.p ∧ (d.note hdr).iphdr = d.iphdr ∧ (d.note hdr).timer = d.timer := by
  rw [IpReassdata.note]
  split <;> exact ⟨rfl, rfl, rfl⟩

lemma takeHeader_spec (d : IpReassdata) (hkey : iphKey d.iphdr = iphKey hdr) :
    (d.takeHeader hdr).p = d.p ∧ iphKey (d.takeHeader hdr).iphdr = iphKey hdr ∧
      (d.takeHeader hdr).timer = d.timer := by
  rw [IpReassdata.takeHeader]
  split
  · exact ⟨rfl, iphKey_take hdr, rfl⟩
  · exact ⟨rfl, hkey, rfl⟩

lemma length_restoreHeader (hdr : List UInt8) (p : Chain) :
    (restoreHeader hdr p).length = p.length := by
  cases p <;> rfl

lemma length_pbufHeader (p : Chain) (n : ℕ) : (pbufHeader p n).length = p.length := by
  cases p with
  | nil => rfl
  | cons seg p =>
    rw [pbufHeader]
    split <;> rfl

/-- No buffer gets lost when the fragments are chained. -/
lemma length_reassembled (d : IpReassdata) : (reassembled d).length = clen d.p := by
  rw [reassembled]
  split
  next h => simp [h]
  next q l h =>
    rw [h, List.length_append, length_restoreHeader, clen_cons, List.length_flatMap, clen]
    simp only [length_pbufHeader]

/-- The end of `ip4_reass`: the entry at place `i` may be one that was just set up. -/
lemma accept_spec (hi : s.datagrams = xs ++ d :: ys) (hcount : s.pbufcount = queuedLen s.datagrams)
    (hroom : s.pbufcount + p.length ≤ ipReassMaxPbufs)
    (hlen : s.datagrams.length ≤ mempNumReassdata) (hkeys : (keys s.datagrams).Nodup)
    (hgood : ∀ e ∈ xs ++ ys, e.Good) (hd : d.p = [] ∨ d.Good) (htimer : d.timer ≤ ipReassMaxage) :
    (s.accept xs.length p).1.WF ∧
      (s.accept xs.length p).1.pbufcount + (s.accept xs.length p).1.freed +
        ((s.accept xs.length p).2.map List.length).getD 0 = s.pbufcount + s.freed + p.length := by
  have hget : s.datagrams[xs.length]? = some d := by rw [hi]; simp
  obtain ⟨hp, hh, ht⟩ := note_spec d (p.headD [])
  have hsorted : d.p.Pairwise fun q r => q.start < r.start := by
    rcases hd with hd | hd
    · rw [hd]
      exact List.Pairwise.nil
    · exact hd.sorted
  have hset : ∀ e : IpReassdata, s.datagrams.set xs.length e = xs ++ e :: ys := fun e => by
    rw [hi, set_split]
  have herase : s.datagrams.eraseIdx xs.length = xs ++ ys := by rw [hi, eraseIdx_split]
  have hlen' : (xs ++ d :: ys).length ≤ mempNumReassdata := by rwa [← hi]
  have hsub : (xs ++ ys).Sublist (xs ++ d :: ys) :=
    List.Sublist.append_left (List.sublist_cons_self d ys) xs
  have hkeys' : ∀ e : IpReassdata, e.iphdr = d.iphdr → (keys (xs ++ e :: ys)).Nodup := by
    intro e he
    rw [hi] at hkeys
    simpa [keys, he] using hkeys
  rw [hi] at hcount
  simp only [queuedLen_append, queuedLen_cons] at hcount
  have hgood' : ∀ e : IpReassdata, e.Good → ∀ x ∈ xs ++ e :: ys, x.Good := by
    intro e he x hx
    rcases List.mem_append.mp hx with hx | hx
    · exact hgood x (List.mem_append_left _ hx)
    · rcases List.mem_cons.mp hx with rfl | hx
      · exact he
      · exact hgood x (List.mem_append_right _ hx)
  rw [Reass.accept, hget]
  dsimp only
  split
  next hnone =>
    -- a fragment is only dropped if there is another one
    have hne : d.p ≠ [] := by
      intro hnil
      rw [ipReassChainFrag, hp, hnil, chainFragLoop] at hnone
      cases hnone
    have hg : (d.note (p.headD [])).Good := by
      obtain hd := hd.resolve_left hne
      exact ⟨by rwa [hp], by rwa [hp], by rwa [ht]⟩
    rw [hset]
    refine ⟨⟨?_, by dsimp only; omega, by simpa using hlen', hkeys' _ hh, hgood' _ hg⟩, ?_⟩
    · simp only [queuedLen_append, queuedLen_cons, hp]
      omega
    · simp only [Option.map_none, Option.getD_none]
      omega
  next queue hsome =>
    obtain ⟨⟨new, hnew, hperm⟩, -⟩ := ipReassChainFrag_spec hsome
    have hc := clen_perm hperm
    rw [clen_cons, hnew, hp] at hc
    rw [herase]
    refine ⟨⟨?_, ?_, hsub.length_le.trans hlen', ?_, hgood⟩, ?_⟩
    · simp only [queuedLen_append]
      omega
    · dsimp only
      omega
    · rw [hi] at hkeys
      exact (hsub.map _).nodup hkeys
    · simp only [Option.map_some, Option.getD_some, length_reassembled]
      omega
  next queue hsome =>
    obtain ⟨⟨new, hnew, hperm⟩, hsort⟩ := ipReassChainFrag_spec hsome
    have hc := clen_perm hperm
    rw [clen_cons, hnew, hp] at hc
    have hg : ({ d.note (p.headD []) with p := queue } : IpReassdata).Good := by
      refine ⟨fun hnil => ?_, hsort (by rwa [hp]), by dsimp only; rwa [ht]⟩
      dsimp only at hnil
      rw [hnil] at hperm
      exact absurd hperm.length_eq (by simp)
    rw [hset]
    refine ⟨⟨?_, hroom, by simpa using hlen', hkeys' _ hh, hgood' _ hg⟩, ?_⟩
    · simp only [queuedLen_append, queuedLen_cons]
      omega
    · simp only [Option.map_none, Option.getD_none]
      omega

/-- An entry is replaced by one with the same fragments and the same key. -/
lemma Reass.WF.replace (hs : s.WF) (d' : IpReassdata) (hds : s.datagrams = xs ++ d :: ys)
    (hp : d'.p = d.p) (hkey : iphKey d'.iphdr = iphKey d.iphdr) (htimer : d'.timer ≤ d.timer) :
    ({ s with datagrams := xs ++ d' :: ys } : Reass).WF := by
  have hcount := hs.count
  have hlen := hs.length_le
  have hkeys := hs.keys_nodup
  have hgood := hs.good
  rw [hds] at hcount hlen hkeys hgood
  have hd : d.Good := hgood d (by simp)
  refine ⟨?_, hs.count_le, by simpa using hlen, by simpa [keys, hkey] using hkeys, fun e he => ?_⟩
  · simpa [hp] using hcount
  · rcases List.mem_append.mp he with he | he
    · exact hgood e (List.mem_append_left _ he)
    · rcases List.mem_cons.mp he with rfl | he
      · exact ⟨by rw [hp]; exact hd.nonempty, by rw [hp]; exact hd.sorted, htimer.trans hd.timer_le⟩
      · exact hgood e (List.mem_append_right _ (List.mem_cons_of_mem _ he))

lemma Reass.WF.addFreed (hs : s.WF) (n : ℕ) : ({ s with freed := s.freed + n } : Reass).WF :=
  ⟨hs.count, hs.count_le, hs.length_le, hs.keys_nodup, hs.good⟩

/-- The entry of a fragment is found by its key. -/
lemma findIdx?_split {f : IpReassdata → Bool} (h : ds.findIdx? f = some i) :
    ∃ xs d ys, ds = xs ++ d :: ys ∧ xs.length = i ∧ f d = true := by
  obtain ⟨hi, hf, -⟩ := List.findIdx?_eq_some_iff_getElem.mp h
  obtain ⟨xs, ys, hds, hxs⟩ := split_of_getElem? (List.getElem?_eq_getElem hi)
  exact ⟨xs, _, ys, hds, hxs, hf⟩

/-- A new entry. -/
lemma accept_push_spec (hs : s.WF) (hnew : iphKey (p.headD []) ∉ keys s.datagrams)
    (hroom : s.pbufcount + p.length ≤ ipReassMaxPbufs)
    (hlen : s.datagrams.length < mempNumReassdata) :
    ((s.push (p.headD [])).accept 0 p).1.WF ∧
      ((s.push (p.headD [])).accept 0 p).1.pbufcount +
        ((s.push (p.headD [])).accept 0 p).1.freed +
        (((s.push (p.headD [])).accept 0 p).2.map List.length).getD 0 =
          s.pbufcount + s.freed + p.length := by
  have hds : (s.push (p.headD [])).datagrams =
      [] ++ ⟨[], (p.headD []).take ipHlen, 0, false, ipReassMaxage⟩ :: s.datagrams := rfl
  refine accept_spec hds ?_ hroom hlen ?_ hs.good (.inl rfl) le_rfl
  · simpa [Reass.push] using hs.count
  · rw [← iphKey_take] at hnew
    exact List.nodup_cons.mpr ⟨hnew, hs.keys_nodup⟩

lemma enqueueNew_spec (hs : s.WF) (hdr : List UInt8) (n : ℕ) :
    (∃ s₀ : Reass, ipReassEnqueueNewDatagram hdr n s = (s₀.push hdr, true) ∧ s₀.WF ∧
        s₀.datagrams.Sublist s.datagrams ∧ s₀.datagrams.length < mempNumReassdata ∧
        s₀.pbufcount + s₀.freed = s.pbufcount + s.freed) ∨
      ∃ s₀ : Reass, ipReassEnqueueNewDatagram hdr n s = (s₀, false) ∧ s₀.WF ∧
        s₀.datagrams.Sublist s.datagrams ∧
        s₀.pbufcount + s₀.freed = s.pbufcount + s.freed := by
  rw [ipReassEnqueueNewDatagram]
  split
  next hlt => exact .inl ⟨s, rfl, hs, List.Sublist.refl _, hlt, rfl⟩
  next =>
    obtain ⟨h₁, h₂, h₃⟩ := ipReassRemoveOldest_spec hs hdr n
    dsimp only
    split
    next h => exact .inl ⟨_, rfl, h₁, h₂, h.2, h₃⟩
    next => exact .inr ⟨_, rfl, h₁, h₂, h₃⟩

lemma queuedLen_le_of_sublist (h : xs.Sublist ys) : queuedLen xs ≤ queuedLen ys := by
  rw [queuedLen, queuedLen]
  exact (h.map _).sum_le_sum (fun _ _ => Nat.zero_le _)

/-- `ip4_reass` from the search for the entry on. -/
lemma enqueue_spec (hs : s.WF) (hroom : s.pbufcount + p.length ≤ ipReassMaxPbufs) :
    (s.enqueue p).1.WF ∧
      (s.enqueue p).1.pbufcount + (s.enqueue p).1.freed +
        ((s.enqueue p).2.map List.length).getD 0 = s.pbufcount + s.freed + p.length := by
  rw [Reass.enqueue]
  dsimp only
  split
  next i hi =>
    obtain ⟨xs, d, ys, hds, rfl, hmatch⟩ := findIdx?_split hi
    have hkey : iphKey d.iphdr = iphKey (p.headD []) := of_decide_eq_true hmatch
    obtain ⟨hp, hk, ht⟩ := takeHeader_spec d hkey
    have hs' := hs.replace (d.takeHeader (p.headD [])) hds hp (hk.trans hkey.symm) ht.le
    have hd : (d.takeHeader (p.headD [])).Good := hs'.good _ (by simp)
    rw [hds, modify_split]
    exact accept_spec rfl hs'.count hroom hs'.length_le hs'.keys_nodup
      (fun e he => hs'.good e (List.Sublist.subset
        (List.Sublist.append_left (List.sublist_cons_self _ ys) xs) he)) (.inr hd) hd.timer_le
  next hnone =>
    have hnew : iphKey (p.headD []) ∉ keys s.datagrams := by
      intro hmem
      obtain ⟨d, hd, hkey⟩ := List.mem_map.mp hmem
      have := List.findIdx?_eq_none_iff.mp hnone d hd
      exact absurd hkey (of_decide_eq_false this)
    obtain ⟨s₀, heq, hs₀, hsub, hlen, hcons⟩ | ⟨s₀, heq, hs₀, hsub, hcons⟩ :=
      enqueueNew_spec hs (p.headD []) p.length
    · have hle := queuedLen_le_of_sublist hsub
      rw [← hs₀.count, ← hs.count] at hle
      rw [heq, if_pos rfl]
      have hspec := accept_push_spec hs₀ (fun h => hnew ((hsub.map _).subset h))
        (by omega : s₀.pbufcount + p.length ≤ _) hlen
      exact ⟨hspec.1, hspec.2.trans (by omega)⟩
    · rw [heq, if_neg Bool.false_ne_true]
      refine ⟨hs₀.addFreed _, ?_⟩
      simp only [Option.map_none, Option.getD_none]
      omega

/-- **`ip4_reass`.** -/
lemma ip4Reass_spec (hs : s.WF) (p : Chain) :
    (ip4Reass p s).1.WF ∧
      (ip4Reass p s).1.pbufcount + (ip4Reass p s).1.freed +
        ((ip4Reass p s).2.map List.length).getD 0 = s.pbufcount + s.freed + p.length := by
  rw [ip4Reass]
  dsimp only
  split
  · exact ⟨hs.addFreed _, (Nat.add_assoc _ _ _).symm⟩
  · split
    · obtain ⟨h₁, -, h₃⟩ := ipReassRemoveOldest_spec hs (p.headD []) p.length
      split
      · refine ⟨h₁.addFreed _, ?_⟩
        simp only [Option.map_none, Option.getD_none]
        omega
      next hroom =>
        obtain ⟨h, h'⟩ := enqueue_spec h₁ (Nat.le_of_not_lt fun hlt => hroom (.inr hlt))
        exact ⟨h, h'.trans (by omega)⟩
    next hroom => exact enqueue_spec hs (Nat.le_of_not_lt hroom)

/-! ### The timer -/

/-- The entries whose time has not run out, one period later. -/
def aged (ds : List IpReassdata) : List IpReassdata :=
  (ds.filter fun r => 0 < r.timer).map fun r => { r with timer := r.timer - 1 }

lemma ipReassTmrLoop_spec (hs : s.WF) (hds : s.datagrams = xs ++ ys) :
    (ipReassTmrLoop ys.length xs.length s).WF ∧
      (ipReassTmrLoop ys.length xs.length s).datagrams = xs ++ aged ys ∧
      (ipReassTmrLoop ys.length xs.length s).pbufcount +
        (ipReassTmrLoop ys.length xs.length s).freed = s.pbufcount + s.freed := by
  induction ys generalizing s xs with
  | nil => exact ⟨hs, hds, rfl⟩
  | cons d ys ih =>
    have hget : s.datagrams[xs.length]? = some d := by rw [hds]; simp
    rw [List.length_cons, ipReassTmrLoop, hget]
    dsimp only
    split
    next hpos =>
      have hset : s.datagrams.set xs.length { d with timer := d.timer - 1 } =
          xs ++ { d with timer := d.timer - 1 } :: ys := by rw [hds, set_split]
      have hs' := hs.replace { d with timer := d.timer - 1 } hds rfl rfl (Nat.sub_le _ _)
      have hrest := ih hs' (List.append_cons xs _ ys)
      rw [hset]
      simpa [aged, hpos] using hrest
    next hzero =>
      obtain ⟨h₁, -, h₃⟩ := ipReassFree_spec hs xs.length
      have hds' : (ipReassFreeCompleteDatagram xs.length s).1.datagrams = xs ++ ys := by
        rw [ipReassFreeCompleteDatagram, hget]
        dsimp only
        rw [hds, eraseIdx_split]
      obtain ⟨i₁, i₂, i₃⟩ := ih h₁ hds'
      refine ⟨i₁, ?_, i₃.trans h₃⟩
      rw [i₂]
      simp [aged, hzero]

/-- **`ip_reass_tmr`.** The datagrams whose timer is at zero are freed, the others get older. -/
lemma ipReassTmr_spec (hs : s.WF) :
    (ipReassTmr s).WF ∧ (ipReassTmr s).datagrams = aged s.datagrams ∧
      (ipReassTmr s).pbufcount + (ipReassTmr s).freed = s.pbufcount + s.freed :=
  ipReassTmrLoop_spec hs (List.nil_append s.datagrams).symm

/-! ### Runs -/

/-- A fragment arrives, or the timer runs. -/
inductive ReassEv
  | frag (p : Chain)
  | tmr
deriving DecidableEq

/-- The state, the number of buffers that came in, and the datagrams that were returned. -/
structure ReassSys where
  reass : Reass
  received : ℕ
  out : List Chain
deriving DecidableEq

namespace ReassSys

variable {t u : ReassSys} {e : ReassEv} {es : List ReassEv}

/-- One event. -/
def step (t : ReassSys) : ReassEv → Option ReassSys
  | .frag p =>
      some ⟨(ip4Reass p t.reass).1, t.received + p.length, t.out ++ (ip4Reass p t.reass).2.toList⟩
  | .tmr => some { t with reass := ipReassTmr t.reass }

/-- Nothing has arrived yet. -/
def init : ReassSys := ⟨⟨[], 0, 0, []⟩, 0, []⟩

/-- The buffers of the datagrams that were returned. -/
def returned (t : ReassSys) : ℕ := (t.out.map List.length).sum

/-- What holds after every event. -/
structure Sound (t : ReassSys) : Prop where
  wf : t.reass.WF
  balance : t.received = t.reass.pbufcount + t.reass.freed + t.returned

lemma sound_init : init.Sound :=
  ⟨⟨rfl, Nat.zero_le _, Nat.zero_le _, List.nodup_nil, fun d hd => by cases hd⟩, rfl⟩

lemma step_sound (ht : t.Sound) (h : t.step e = some u) : u.Sound := by
  have hb := ht.balance
  cases e with
  | frag p =>
    obtain rfl := Option.some.inj h
    obtain ⟨hwf, hcons⟩ := ip4Reass_spec ht.wf p
    refine ⟨hwf, ?_⟩
    cases hr : (ip4Reass p t.reass).2 with
    | none =>
      simp only [hr, Option.map_none, Option.getD_none] at hcons
      simp only [returned, Option.toList_none, List.append_nil] at hb ⊢
      omega
    | some c =>
      simp only [hr, Option.map_some, Option.getD_some] at hcons
      simp only [returned, Option.toList_some, List.map_append, List.sum_append, List.map_cons,
        List.map_nil, List.sum_cons, List.sum_nil] at hb ⊢
      omega
  | tmr =>
    obtain rfl := Option.some.inj h
    obtain ⟨hwf, -, hcons⟩ := ipReassTmr_spec ht.wf
    refine ⟨hwf, ?_⟩
    simp only [returned] at hb ⊢
    omega

/-- **The packet buffers are accounted for, and the limits hold, over every run.** Whatever
fragments arrive, whole or damaged, in whatever order with the timer: the buffers that came in
are as many as were returned with a datagram, were freed or are queued.  `ip_reass_pbufcount` is
the number of those queued and at most `IP_REASS_MAX_PBUFS`, the pool of entries is not
exceeded, no two entries are for the same datagram, and in each entry the fragments are in the
order of their offsets, without two at the same one. -/
theorem reass_accounting (hrun : exec step init es = some t) :
    t.received = t.reass.pbufcount + t.reass.freed + t.returned ∧
      t.reass.pbufcount = queuedLen t.reass.datagrams ∧
      t.reass.pbufcount ≤ ipReassMaxPbufs ∧
      t.reass.datagrams.length ≤ mempNumReassdata ∧
      (keys t.reass.datagrams).Nodup ∧
      ∀ d ∈ t.reass.datagrams, d.p ≠ [] ∧ d.p.Pairwise fun q r => q.start < r.start := by
  have ht : t.Sound := exec_inv (fun _ _ _ hs hstep => step_sound hs hstep) sound_init hrun
  exact ⟨ht.balance, ht.wf.count, ht.wf.count_le, ht.wf.length_le, ht.wf.keys_nodup,
    fun d hd => ⟨(ht.wf.good d hd).nonempty, (ht.wf.good d hd).sorted⟩⟩

/-- A fragment of 8 bytes of a datagram with the identification `id`. -/
def sampleFrag (id : UInt8) (offset : ℕ) : Chain :=
  [fragHeader [0x45, 0, 0, 0, 0, id, 0, 0, 64, 17, 0, 0, 10, 0, 0, 1, 10, 0, 0, 2] offset 28 ++
    [1, 2, 3, 4, 5, 6, 7, 8]]

/-- A datagram of two fragments, of which the last comes first, and a part of another one. -/
def sampleFrags : List ReassEv :=
  [.frag (sampleFrag 1 1), .frag (sampleFrag 2 0x2000), .tmr, .frag (sampleFrag 1 0x2000)]

theorem reass_accounting_sample :
    ∃ t, exec step init sampleFrags = some t ∧ t.returned = 2 ∧ t.reass.pbufcount = 1 ∧
      t.received = t.reass.pbufcount + t.reass.freed + t.returned := by
  obtain ⟨t, hrun⟩ : ∃ t, exec step init sampleFrags = some t := ⟨_, rfl⟩
  refine ⟨t, hrun, ?_, ?_, (reass_accounting hrun).1⟩
  · cases hrun
    decide +kernel
  · cases hrun
    decide +kernel

/-! ### How long a fragment can be queued -/

/-- How often the timer runs. -/
def periods (es : List ReassEv) : ℕ := es.count .tmr

/-- Where the fragments of the entry `d` come from, if `es` has happened since `ds`: the entry
was there and has been aging all the time, or all its fragments are new. -/
def Stems (ds : List IpReassdata) (es : List ReassEv) (d : IpReassdata) : Prop :=
  (∃ d₀ ∈ ds, d.timer + periods es = d₀.timer ∧ ∀ q ∈ d.p, q ∈ d₀.p ∨ .frag q.p ∈ es) ∨
    ∀ q ∈ d.p, .frag q.p ∈ es

lemma stems_of_mem {ds : List IpReassdata} {d : IpReassdata} (hd : d ∈ ds) (p : Chain) :
    Stems ds [.frag p] d :=
  .inl ⟨d, hd, rfl, fun _ hq => .inl hq⟩

lemma Stems.trans {ds ds' : List IpReassdata} {d : IpReassdata} {l l' : List ReassEv}
    (h : ∀ d' ∈ ds', Stems ds l d') (hd : Stems ds' l' d) : Stems ds (l ++ l') d := by
  obtain ⟨d', hd', htimer', hp'⟩ | hp' := hd
  · obtain ⟨d₀, hd₀, htimer, hp⟩ | hp := h d' hd'
    · refine .inl ⟨d₀, hd₀, ?_, fun q hq => ?_⟩
      · rw [← htimer, ← htimer', periods, periods, periods, List.count_append]
        omega
      · rcases hp' q hq with hq | hq
        · exact (hp q hq).imp id (List.mem_append_left _)
        · exact .inr (List.mem_append_right _ hq)
    · -- the entry is new, and what was added to it later is new as well
      refine .inr fun q hq => ?_
      rcases hp' q hq with hq | hq
      · exact List.mem_append_left _ (hp q hq)
      · exact List.mem_append_right _ hq
  · exact .inr fun q hq => List.mem_append_right _ (hp' q hq)

lemma accept_stems {s : Reass} {i : ℕ} {p : Chain} {d : IpReassdata}
    (hd : d ∈ (s.accept i p).1.datagrams) : Stems s.datagrams [.frag p] d := by
  rw [Reass.accept] at hd
  cases hi : s.datagrams[i]? with
  | none =>
    rw [hi] at hd
    exact stems_of_mem hd p
  | some d₀ =>
    have hmem : d₀ ∈ s.datagrams := List.mem_of_getElem? hi
    obtain ⟨hp, -, ht⟩ := note_spec d₀ (p.headD [])
    rw [hi] at hd
    dsimp only at hd
    split at hd
    next =>
      rcases List.mem_or_eq_of_mem_set hd with hd | rfl
      · exact stems_of_mem hd p
      · exact .inl ⟨d₀, hmem, ht, fun q hq => .inl (by rwa [hp] at hq)⟩
    next => exact stems_of_mem (List.mem_of_mem_eraseIdx hd) p
    next queue hsome =>
      rcases List.mem_or_eq_of_mem_set hd with hd | rfl
      · exact stems_of_mem hd p
      · obtain ⟨⟨new, rfl, hperm⟩, -⟩ := ipReassChainFrag_spec hsome
        refine .inl ⟨d₀, hmem, ht, fun q hq => ?_⟩
        rcases List.mem_cons.mp (hperm.mem_iff.mp hq) with rfl | hq
        · exact .inr (List.mem_singleton_self _)
        · exact .inl (by rwa [hp] at hq)

lemma enqueue_stems {s : Reass} (hs : s.WF) {p : Chain} {d : IpReassdata}
    (hd : d ∈ (s.enqueue p).1.datagrams) : Stems s.datagrams [.frag p] d := by
  rw [Reass.enqueue] at hd
  dsimp only at hd
  split at hd
  next i hi =>
    obtain ⟨xs, d₀, ys, hds, rfl, hmatch⟩ := findIdx?_split hi
    obtain ⟨hp, -, ht⟩ := takeHeader_spec d₀ (of_decide_eq_true hmatch)
    refine Stems.trans (l := []) (fun d' hd' => ?_) (accept_stems hd)
    dsimp only at hd'
    rw [hds, modify_split] at hd'
    rw [hds]
    rcases List.mem_append.mp hd' with hd' | hd'
    · exact .inl ⟨d', List.mem_append_left _ hd', rfl, fun _ hq => .inl hq⟩
    · rcases List.mem_cons.mp hd' with rfl | hd'
      · exact .inl ⟨d₀, by simp, ht, fun q hq => .inl (by rwa [hp] at hq)⟩
      · exact .inl ⟨d', by simp [hd'], rfl, fun _ hq => .inl hq⟩
  next =>
    obtain ⟨s₀, heq, -, hsub, -, -⟩ | ⟨s₀, heq, -, hsub, -⟩ :=
      enqueueNew_spec hs (p.headD []) p.length
    · rw [heq, if_pos rfl] at hd
      refine Stems.trans (l := []) (fun d' hd' => ?_) (accept_stems hd)
      rcases List.mem_cons.mp hd' with rfl | hd'
      · exact .inr fun q hq => by cases hq
      · exact .inl ⟨d', hsub.subset hd', rfl, fun _ hq => .inl hq⟩
    · rw [heq, if_neg Bool.false_ne_true] at hd
      exact stems_of_mem (hsub.subset hd) p

lemma ip4Reass_stems {s : Reass} (hs : s.WF) {p : Chain} {d : IpReassdata}
    (hd : d ∈ (ip4Reass p s).1.datagrams) : Stems s.datagrams [.frag p] d := by
  rw [ip4Reass] at hd
  dsimp only at hd
  split at hd
  · exact stems_of_mem hd p
  · split at hd
    · obtain ⟨hwf, hsub, -⟩ := ipReassRemoveOldest_spec hs (p.headD []) p.length
      split at hd
      · exact stems_of_mem (hsub.subset hd) p
      · refine Stems.trans (l := []) (fun d' hd' => ?_) (enqueue_stems hwf hd)
        exact .inl ⟨d', hsub.subset hd', rfl, fun _ hq => .inl hq⟩
    · exact enqueue_stems hs hd

lemma step_stems (ht : t.Sound) (h : t.step e = some u) {d : IpReassdata}
    (hd : d ∈ u.reass.datagrams) : Stems t.reass.datagrams [e] d := by
  cases e with
  | frag p =>
    obtain rfl := Option.some.inj h
    exact ip4Reass_stems ht.wf hd
  | tmr =>
    obtain rfl := Option.some.inj h
    dsimp only at hd
    rw [(ipReassTmr_spec ht.wf).2.1, aged] at hd
    obtain ⟨d₀, hd₀, rfl⟩ := List.mem_map.mp hd
    obtain ⟨hmem, hpos⟩ := List.mem_filter.mp hd₀
    refine .inl ⟨d₀, hmem, ?_, fun _ hq => .inl hq⟩
    have : 0 < d₀.timer := of_decide_eq_true hpos
    simp only [periods, List.count_singleton_self]
    omega

lemma run_stems (ht : t.Sound) (hrun : exec step t es = some u) {d : IpReassdata}
    (hd : d ∈ u.reass.datagrams) : Stems t.reass.datagrams es d := by
  induction es generalizing t with
  | nil =>
    obtain rfl := Option.some.inj hrun
    exact .inl ⟨d, hd, rfl, fun _ hq => .inl hq⟩
  | cons e es ih =>
    obtain ⟨t', hstep, hrest⟩ := exec_cons_eq_some.mp hrun
    exact Stems.trans (fun _ hd' => step_stems ht hstep hd') (ih (step_sound ht hstep) hrest)

/-- **A fragment is queued for at most four periods of the timer.** However often further
fragments of its datagram arrive, they do not give it more time: after a run in which the timer
has run `IP_REASS_MAXAGE + 1` times, everything queued has arrived during that run.  Fragments are
compared by their bytes. -/
theorem reass_timeout {es₁ es₂ : List ReassEv} (hrun₁ : exec step init es₁ = some t)
    (hrun₂ : exec step t es₂ = some u) (hperiods : ipReassMaxage < periods es₂) :
    ∀ d ∈ u.reass.datagrams, ∀ q ∈ d.p, .frag q.p ∈ es₂ := by
  have ht : t.Sound := exec_inv (fun _ _ _ hs hstep => step_sound hs hstep) sound_init hrun₁
  intro d hd
  obtain ⟨d₀, hd₀, htimer, -⟩ | hnew := run_stems ht hrun₂ hd
  · have := (ht.wf.good d₀ hd₀).timer_le
    omega
  · exact hnew

/-- Four periods, with another fragment of the incomplete datagram. -/
def samplePeriods : List ReassEv := [.tmr, .tmr, .frag (sampleFrag 2 2), .tmr, .tmr]

theorem reass_timeout_sample :
    ∃ t u, exec step init sampleFrags = some t ∧ t.reass.datagrams ≠ [] ∧
      exec step t samplePeriods = some u ∧
      ∀ d ∈ u.reass.datagrams, ∀ q ∈ d.p, .frag q.p ∈ samplePeriods := by
  obtain ⟨t, hrun₁⟩ : ∃ t, exec step init sampleFrags = some t := ⟨_, rfl⟩
  obtain ⟨u, hrun₂⟩ : ∃ u, exec step t samplePeriods = some u := ⟨_, rfl⟩
  refine ⟨t, u, hrun₁, ?_, hrun₂, reass_timeout hrun₁ hrun₂ (by decide)⟩
  cases hrun₁
  decide +kernel

end ReassSys

end Teensy41Ethernet.Lwip
