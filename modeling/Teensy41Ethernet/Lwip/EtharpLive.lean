import Teensy41Ethernet.Lwip.EtharpRun
import Mathlib.Data.Fintype.Card

/-!
# Packets that wait are sent

A packet for a host that is not in the table waits at a new entry.  It stays there until the
host announces itself, if that happens before the timer has run five times, no other packet for
the host comes, and packets for fewer than ten hosts wait at any time.
-/

namespace Teensy41Ethernet.Lwip

variable {π : Type*} {σ : ArpSys π} {s s' : Etharp π} {a b : Ip4Addr} {q : π} {ps : List π}
  {H : Finset Ip4Addr} {e : EtharpEntry π} {n : Netif} {i : Fin arpTableSize} {mac : EthAddr}

/-! ### Entries for some hosts only -/

/-- A sound entry at which a packet waits only for one of the hosts `H`. -/
def EtharpEntry.Within (σ : ArpSys π) (H : Finset Ip4Addr) (e : EtharpEntry π) : Prop :=
  e.Good σ ∧ (e.q.isSome → e.ipaddr ∈ H)

lemma EtharpEntry.Within.congr {σ' : ArpSys π} (he : e.Within σ H) (hheard : σ'.heard = σ.heard)
    (hnow : σ'.now = σ.now) (hsub : ∀ x ∈ σ.submitted, x ∈ σ'.submitted) : e.Within σ' H :=
  ⟨he.1.congr hheard hnow hsub, he.2⟩

/-- Packets for fewer hosts than there are entries leave an entry without a packet. -/
lemma Etharp.Inv.exists_spare (hs : s.Inv (EtharpEntry.Within σ H)) (hH : H.card < arpTableSize) :
    ∃ k, (s.table k).q = none := by
  by_contra hall
  have hsome : ∀ k, (s.table k).q.isSome := fun k =>
    Option.isSome_iff_ne_none.mpr fun hk => hall ⟨k, hk⟩
  have hne : ∀ k, (s.table k).state ≠ .empty := by
    intro k hk
    rw [(hs.entry k).1.waiting (hsome k)] at hk
    cases hk
  let f : Fin arpTableSize → H := fun k => ⟨(s.table k).ipaddr, (hs.entry k).2 (hsome k)⟩
  have hf : Function.Injective f := fun i k hik =>
    hs.distinct i k (hne i) (hne k) (Subtype.mk.inj hik)
  have hcard := Fintype.card_le_of_injective f hf
  rw [Fintype.card_fin, Fintype.card_coe] at hcard
  omega

lemma EtharpEntry.within_keptBy
    (hps : ∀ q ∈ ps, b ∈ H ∧ ∃ x ∈ σ.submitted, x.For q b ∧ x.time = σ.now) :
    KeptBy b ps (Within σ H) := by
  have hgood := good_keptBy fun q hq => (hps q hq).2
  refine ⟨fun e he hst => ⟨hgood.mark e he.1 hst, he.2⟩,
    fun mac => ⟨hgood.enter mac, fun h => (by cases h)⟩, fun e q hq he hpend ha => ?_⟩
  exact ⟨hgood.hold e q hq he.1 hpend ha, fun _ => ha ▸ (hps q hq).1⟩

/-! ### One step -/

/-- The packet waits for the host `a` at an entry of age `k`, and all packets that wait are for
hosts of `H`. -/
structure ArpSys.Waits (σ : ArpSys π) (H : Finset Ip4Addr) (a : Ip4Addr) (q : π) (k : ℕ) :
    Prop where
  inv : σ.arp.Inv (EtharpEntry.Within σ H)
  entry : ∃ i mac, σ.arp.table i = ⟨some q, a, mac, k, .pending⟩

/-- The calls that leave a packet for `a` where it waits: none for `a`, no cleanup and no
reconfiguration, and unicast packets for next hops of `H` only. -/
def ArpEv.Spares (n : Netif) (H : Finset Ip4Addr) (a : Ip4Addr) : ArpEv π → Prop
  | .tmr _ => True
  | .input _ hdr => hdr.sipaddr ≠ a
  | .output _ _ _ dest => ip4AddrIsbroadcast dest n = false → ip4AddrIsmulticast dest = false →
      ∀ b, nextHop n dest = some b → b ≠ a ∧ b ∈ H
  | .query _ b => b ≠ a
  | .gratuitous _ => True
  | .cleanup => False
  | .configure _ => False

/-- The number of runs of the timer: one or none for a call, and for a list of calls. -/
def ArpEv.ticks : ArpEv π → ℕ
  | .tmr _ => 1
  | _ => 0

@[inherit_doc ArpEv.ticks]
def ArpEv.totalTicks : List (ArpEv π) → ℕ
  | [] => 0
  | ev :: evs => ev.ticks + totalTicks evs

namespace ArpSys

variable {σ' : ArpSys π} {k : ℕ}

lemma Waits.sound (hw : σ.Waits H a q k) : σ.Sound := hw.inv.mono fun _ he => he.1

lemma waits_of_moves (hm : s.Moves b ps σ'.arp) (hs : s.Inv (EtharpEntry.Within σ' H))
    (hps : ∀ q ∈ ps, b ∈ H ∧ ∃ x ∈ σ'.submitted, x.For q b ∧ x.time = σ'.now) (hb : b ≠ a)
    (hH : H.card < arpTableSize) (hi : s.table i = ⟨some q, a, mac, k, .pending⟩) :
    σ'.Waits H a q k := by
  have hkept := EtharpEntry.within_keptBy hps
  have hkeeps := hm.keeps (i := i) hkept hs (by rw [hi]) (by rw [hi]; rfl)
    (by rw [hi]; exact hb.symm) fun s hs => hs.exists_spare hH
  exact ⟨hm.inv hkept hs, i, mac, hkeeps.trans hi⟩

lemma Waits.output (hw : σ.Waits H a q k) (hH : H.card < arpTableSize) (alloc copy : Bool) (p : π)
    {dest : Ip4Addr} (hdest : (.output alloc copy p dest : ArpEv π).Spares σ.netif H a) :
    (σ.step (.output alloc copy p dest)).Waits H a q k := by
  obtain ⟨i, mac, hi⟩ := hw.entry
  set σ' := σ.step (.output alloc copy p dest) with hσ'
  have hs : σ.arp.Inv (EtharpEntry.Within σ' H) :=
    hw.inv.mono fun e he => he.congr rfl rfl fun x hx => List.mem_append_left _ hx
  rcases etharpOutput_cases hw.sound.waiting σ.netif alloc copy p dest with ⟨hb, h⟩ | ⟨hb,
    ⟨hmc, h⟩ | ⟨hmc, ⟨-, h⟩ | ⟨b, hhop, h⟩⟩⟩
  · have harp : σ'.arp = σ.arp.send (.ip ethbroadcast p) := congrArg Prod.fst h
    exact ⟨by rw [harp]; exact ⟨hs.distinct, hs.entry⟩, i, mac, by rw [harp]; exact hi⟩
  · have harp : σ'.arp = σ.arp.send (.ip (mcastaddr dest) p) := congrArg Prod.fst h
    exact ⟨by rw [harp]; exact ⟨hs.distinct, hs.entry⟩, i, mac, by rw [harp]; exact hi⟩
  · have harp : σ'.arp = σ.arp := congrArg Prod.fst h
    exact ⟨by rw [harp]; exact hs, i, mac, by rw [harp]; exact hi⟩
  · obtain ⟨hne, hmem⟩ := hdest hb hmc b hhop
    refine waits_of_moves h hs (fun x hx => ⟨hmem, ?_⟩) hne hH hi
    have hx : x = p := by
      split at hx
      · exact List.mem_singleton.mp hx
      · cases hx
    exact ⟨⟨p, dest, σ.netif, σ.now⟩, List.mem_append_right _ (List.mem_singleton_self _),
      ⟨hx.symm, hb, hmc, hhop⟩, rfl⟩

lemma Waits.input (hw : σ.Waits H a q k) (hH : H.card < arpTableSize) (alloc : Bool)
    {hdr : EtharpHdr} (hne : hdr.sipaddr ≠ a) : (σ.step (.input alloc hdr)).Waits H a q k := by
  obtain ⟨i, mac, hi⟩ := hw.entry
  set σ' := σ.step (.input alloc hdr) with hσ'
  have hsound' : σ'.Sound := (hw.sound.input alloc hdr).1
  -- only the hosts of the packets remain to be seen
  have hfinal : σ'.arp.table i = σ.arp.table i →
      σ'.arp.Inv (fun e => e.q.isSome → e.ipaddr ∈ H) → σ'.Waits H a q k := fun ht hin =>
    ⟨⟨hsound'.distinct, fun k => ⟨hsound'.entry k, hin.entry k⟩⟩, i, mac, ht.trans hi⟩
  have hin : σ.arp.Inv (fun e => e.q.isSome → e.ipaddr ∈ H) :=
    hw.inv.mono fun _ he => he.2
  rcases etharpInput_cases hw.sound.waiting σ.netif alloc hdr with ⟨-, h⟩ | ⟨-, s₁, hl, -, htable⟩
  · have harp : σ'.arp = σ.arp := h
    exact hfinal (by rw [harp]) (by rw [harp]; exact hin)
  · have htable : σ'.arp.table = s₁.table := htable
    have hs₁ : s₁.Inv (fun e => e.q.isSome → e.ipaddr ∈ H) := by
      cases hu : nonUnicast hdr.sipaddr σ.netif with
      | true => exact hl.eq_of_group hu ▸ hin
      | false => exact hl.inv hin hu (fun e he _ => he) (fun h => (by cases h))
    have hkeeps := hl.keeps (i := i) (by rw [hi]) (by rw [hi]; rfl) (by rw [hi]; exact hne.symm)
      (hw.inv.exists_spare hH)
    exact hfinal (by rw [htable, hkeeps]) ⟨by rw [htable]; exact hs₁.distinct,
      by rw [htable]; exact hs₁.entry⟩

lemma Waits.tmr (hw : σ.Waits H a q k) (hk : k + 1 < arpMaxpending)
    (alloc : Fin arpTableSize → Bool) : (σ.step (.tmr alloc)).Waits H a q (k + 1) := by
  obtain ⟨i, mac, hi⟩ := hw.entry
  have hsound' := (hw.sound.step (.tmr alloc)).1
  have htable := fun j => etharpTmr_table σ.netif alloc σ.arp j
  rw [ArpSys.step] at hsound' ⊢
  generalize etharpTmr σ.netif alloc σ.arp = s at hsound' htable
  refine ⟨⟨hsound'.distinct, fun j => ⟨hsound'.entry j, fun hq => ?_⟩⟩, i, mac, ?_⟩
  · -- the packet was there before, for the same host
    have hj := (hw.inv.entry j).2
    have hq : (s.table j).q.isSome := hq
    change (s.table j).ipaddr ∈ H
    rw [htable] at hq ⊢
    rcases (σ.arp.table j).aged_cases with ⟨-, h⟩ | ⟨e', h⟩ | ⟨-, -, st, h, -⟩
    · rw [h] at hq ⊢
      exact hj hq
    · rw [h] at hq
      cases hq
    · rw [h] at hq ⊢
      exact hj hq
  · change s.table i = _
    have hlt : k + 1 < arpMaxage := hk.trans (by decide)
    rw [htable, hi, EtharpEntry.aged]
    simp [hlt.not_ge, hk.not_ge]

/-- **One step** leaves the packet where it waits. -/
lemma Waits.step (hw : σ.Waits H a q k) (hH : H.card < arpTableSize) {ev : ArpEv π}
    (hev : ev.Spares σ.netif H a) (hk : k + ev.ticks < arpMaxpending) :
    (σ.step ev).Waits H a q (k + ev.ticks) ∧ (σ.step ev).netif = σ.netif := by
  obtain ⟨i, mac, hi⟩ := hw.entry
  cases ev with
  | tmr alloc => exact ⟨hw.tmr hk alloc, by rw [ArpSys.step]⟩
  | input alloc hdr => exact ⟨hw.input hH alloc hev, rfl⟩
  | output alloc copy p dest => exact ⟨hw.output hH alloc copy p hev, rfl⟩
  | query alloc b =>
    have h := etharpQuery_moves hw.sound.waiting σ.netif alloc true b none
    rw [Option.toList_none, ite_self] at h
    refine ⟨waits_of_moves h (hw.inv.mono fun e he => ?_) (fun _ h => (by cases h)) hev hH hi, rfl⟩
    exact he.congr rfl rfl fun _ => id
  | gratuitous alloc =>
    have htable : (σ.step (.gratuitous alloc)).arp.table = σ.arp.table := etharpRaw_table alloc _ _
    refine ⟨⟨⟨by rw [htable]; exact hw.inv.distinct, fun i => ?_⟩, i, mac,
      by rw [htable]; exact hi⟩, rfl⟩
    rw [htable]
    exact (hw.inv.entry i).congr rfl rfl fun _ => id
  | cleanup => cases hev
  | configure n => cases hev

lemma Waits.run (hw : σ.Waits H a q k) (hH : H.card < arpTableSize) {evs : List (ArpEv π)}
    (hevs : ∀ ev ∈ evs, ev.Spares σ.netif H a) (hk : k + ArpEv.totalTicks evs < arpMaxpending) :
    (evs.foldl ArpSys.step σ).Waits H a q (k + ArpEv.totalTicks evs) ∧
      (evs.foldl ArpSys.step σ).netif = σ.netif := by
  induction evs generalizing σ k with
  | nil => exact ⟨hw, rfl⟩
  | cons ev evs ih =>
    rw [ArpEv.totalTicks, ← add_assoc] at hk ⊢
    obtain ⟨hw', hn⟩ := hw.step hH (hevs ev List.mem_cons_self) (by omega)
    have hrest : ∀ ev' ∈ evs, ev'.Spares (σ.step ev).netif H a := by
      intro ev' hev'
      rw [hn]
      exact hevs ev' (List.mem_cons_of_mem ev hev')
    obtain ⟨hw'', hn'⟩ := ih hw' hrest hk
    exact ⟨hw'', hn'.trans hn⟩

/-! ### The first and the last step -/

/-- A packet for a host that is not in the table waits at a new entry, and a request is sent. -/
lemma exists_entry_of_free (hwait : ∀ k, (s.table k).q.isSome → (s.table k).state = .pending)
    {dest : Ip4Addr} (hb : ip4AddrIsbroadcast dest n = false)
    (hmc : ip4AddrIsmulticast dest = false) (hhop : nextHop n dest = some a)
    (hu : nonUnicast a n = false) (hfree : s.Free a) (alloc : Bool) (q : π) :
    (etharpOutput n alloc true q dest s).2 = .ok ∧
      (∃ i mac, (etharpOutput n alloc true q dest s).1.table i = ⟨some q, a, mac, 0, .pending⟩) ∧
      (alloc → .arp ethbroadcast (requestHdr n a) ∈
        (etharpOutput n alloc true q dest s).1.sent) := by
  have hno : ∀ i, ¬((s.table i).state.isStable ∧ a = (s.table i).ipaddr) := fun i hi =>
    hfree i (EtharpState.isStable_iff.mp hi.1).1 hi.2.symm
  have hfind : ((List.finRange arpTableSize).find? fun i =>
      (s.table i).state.isStable ∧ a = (s.table i).ipaddr) = none :=
    List.find?_eq_none.mpr fun i _ => by simpa using hno i
  have hout : etharpOutput n alloc true q dest s = etharpQuery n alloc true a (some q) s := by
    rw [etharpOutput.eq_def, hb, hmc, if_neg Bool.false_ne_true, if_neg Bool.false_ne_true, hhop]
    dsimp only
    rw [if_neg (hno _), hfind]
  rw [hout, etharpQuery.eq_def, hu, if_neg Bool.false_ne_true]
  rcases etharpFindEntry_cases hwait a true with ⟨i, hi, ha, -⟩ | ⟨-, ⟨h, -⟩ | ⟨-, i, -, hf⟩⟩
  · exact absurd ha (hfree i hi)
  · cases h
  · have hstate : ((s.claim i a).table i).state = .empty := by
      rw [Etharp.claim_table, Function.update_self]
    have htable : (etharpRequest n alloc a (s.enter i a)).1.table i =
        ⟨none, a, (s.table i).ethaddr, 0, .pending⟩ := by
      rw [etharpRequest, etharpRequestDst, etharpRaw_table, Etharp.enter_table,
        Function.update_self]
    rw [hf]
    simp only [queryEntry, if_pos hstate]
    have hsent : alloc → .arp ethbroadcast (requestHdr n a) ∈
        (etharpRequest n alloc a (s.enter i a)).1.sent := by
      rintro rfl
      exact List.mem_append_right _ (List.mem_singleton_self _)
    change (queryPacket true q i (etharpRequest n alloc a (s.enter i a)).1).2 = .ok ∧
      (∃ j mac, (queryPacket true q i (etharpRequest n alloc a (s.enter i a)).1).1.table j =
        ⟨some q, a, mac, 0, .pending⟩) ∧
      (alloc → _ ∈ (queryPacket true q i (etharpRequest n alloc a (s.enter i a)).1).1.sent)
    generalize (etharpRequest n alloc a (s.enter i a)).1 = r at htable hsent
    have hpend : ¬(r.table i).state.isStable := by simp [htable, EtharpState.isStable]
    rw [queryPacket, if_neg hpend, if_pos rfl]
    refine ⟨rfl, ⟨i, (s.table i).ethaddr, ?_⟩, hsent⟩
    rw [Etharp.hold, Etharp.put, htable]
    exact Function.update_self ..

lemma Waits.reply (hw : σ.Waits H a q k) (alloc : Bool) {hdr : EtharpHdr} (hv : hdr.valid)
    (ha : hdr.sipaddr = a) (hu : nonUnicast a σ.netif = false) :
    ∃ new, (σ.step (.input alloc hdr)).arp.sent = σ.arp.sent ++ new ∧
      .ip hdr.shwaddr q ∈ new := by
  obtain ⟨i, mac, hi⟩ := hw.entry
  have hne : (σ.arp.table i).state ≠ .empty := by simp [hi]
  have hip : (σ.arp.table i).ipaddr = a := by rw [hi]
  rcases etharpInput_cases hw.sound.waiting σ.netif alloc hdr with ⟨h, -⟩ | ⟨-, s₁, hl, hm, -⟩
  · rw [hv] at h
    cases h
  obtain ⟨new, hnew⟩ := hm.exists_sent
  rw [ha] at hl
  cases hl with
  | group hg =>
    rw [hu] at hg
    cases hg
  | skip hfree => exact absurd hip (hfree i hne)
  | make _ hfree => exact absurd hip (hfree i hne)
  | @found j _ hj hjp =>
    have hji : j = i := hw.inv.distinct j i hj hne (hjp.trans hip.symm)
    refine ⟨[.ip hdr.shwaddr q] ++ new, ?_, List.mem_append_left _ (List.mem_singleton_self _)⟩
    rw [← List.append_assoc]
    refine hnew.trans ?_
    rw [hji, Etharp.learn, hi]
    rfl

lemma Sound.waits_output (hσ : σ.Sound) {dest : Ip4Addr}
    (hb : ip4AddrIsbroadcast dest σ.netif = false) (hmc : ip4AddrIsmulticast dest = false)
    (hhop : nextHop σ.netif dest = some a) (hu : nonUnicast a σ.netif = false)
    (hfree : σ.arp.Free a) (ha : a ∈ H) (hH : ∀ i, (σ.arp.table i).q.isSome →
      (σ.arp.table i).ipaddr ∈ H) (alloc : Bool) (q : π) :
    (σ.step (.output alloc true q dest)).Waits H a q 0 := by
  obtain ⟨hok, hentry, -⟩ := exists_entry_of_free hσ.waiting hb hmc hhop hu hfree alloc q
  refine ⟨?_, hentry⟩
  have hs : σ.arp.Inv (EtharpEntry.Within (σ.step (.output alloc true q dest)) H) :=
    ⟨hσ.distinct, fun i => EtharpEntry.Within.congr ⟨hσ.entry i, hH i⟩ rfl rfl
      fun x hx => List.mem_append_left _ hx⟩
  rcases etharpOutput_cases hσ.waiting σ.netif alloc true q dest with ⟨h, -⟩ | ⟨-, ⟨h, -⟩ |
    ⟨-, ⟨h, -⟩ | ⟨b, hb', hm⟩⟩⟩
  · rw [hb] at h
    cases h
  · rw [hmc] at h
    cases h
  · rw [hhop] at h
    cases h
  · rw [hhop] at hb'
    cases hb'
    refine hm.inv (EtharpEntry.within_keptBy fun p hp => ⟨ha, ?_⟩) hs
    rw [hok, if_pos rfl, List.mem_singleton] at hp
    exact ⟨⟨q, dest, σ.netif, σ.now⟩, List.mem_append_right _ (List.mem_singleton_self _),
      ⟨hp.symm, hb, hmc, hhop⟩, rfl⟩

/-- **A packet that waits is sent when the host answers.** A packet for a next hop `a` without an
entry is submitted after any run.  Whatever calls follow that are not for `a`, without cleanup or
reconfiguration, with fewer than five runs of the timer and unicast packets for fewer than ten
next hops: when an ARP packet from `a` arrives then, the packet is sent to its sender. -/
theorem arp_reply_delivers {evs evs' : List (ArpEv π)} {dest : Ip4Addr} {hdr : EtharpHdr}
    (hσ : run n evs = σ) (hb : ip4AddrIsbroadcast dest σ.netif = false)
    (hmc : ip4AddrIsmulticast dest = false) (hhop : nextHop σ.netif dest = some a)
    (hu : nonUnicast a σ.netif = false) (hfree : σ.arp.Free a) (ha : a ∈ H)
    (hH : ∀ i, (σ.arp.table i).q.isSome → (σ.arp.table i).ipaddr ∈ H)
    (hcard : H.card < arpTableSize) (hevs : ∀ ev ∈ evs', ev.Spares σ.netif H a)
    (hticks : ArpEv.totalTicks evs' < arpMaxpending) (hv : hdr.valid) (hsip : hdr.sipaddr = a)
    (alloc alloc' : Bool) (q : π) :
    ∃ new, (run n (evs ++ .output alloc true q dest :: evs' ++ [.input alloc' hdr])).arp.sent =
        (run n (evs ++ .output alloc true q dest :: evs')).arp.sent ++ new ∧
      .ip hdr.shwaddr q ∈ new := by
  have hsound : σ.Sound := hσ ▸ sound_run n evs
  have hw := hsound.waits_output hb hmc hhop hu hfree ha hH alloc q
  obtain ⟨hw', hn⟩ := hw.run hcard hevs (by rwa [Nat.zero_add])
  have hrun : run n (evs ++ .output alloc true q dest :: evs') =
      evs'.foldl ArpSys.step (σ.step (.output alloc true q dest)) := by
    rw [run, List.foldl_append, List.foldl_cons, ← hσ, run]
  have hlast : run n (evs ++ .output alloc true q dest :: evs' ++ [.input alloc' hdr]) =
      (run n (evs ++ .output alloc true q dest :: evs')).step (.input alloc' hdr) :=
    List.foldl_concat ..
  rw [hlast, hrun]
  have hnetif : (evs'.foldl ArpSys.step (σ.step (.output alloc true q dest))).netif = σ.netif := hn
  exact hw'.reply alloc' hv hsip (by rw [hnetif]; exact hu)

/-- An interface for the example. -/
def sampleNetif : Netif :=
  ⟨#v[4, 0xe9, 0xe5, 0, 0, 1], #v[192, 168, 1, 2], #v[255, 255, 255, 0], #v[192, 168, 1, 1]⟩

/-- A host on its network, and its answer. -/
def sampleHost : Ip4Addr := #v[192, 168, 1, 7]

@[inherit_doc sampleHost]
def sampleReply : EtharpHdr :=
  ⟨1, 0x0800, 6, 4, 2, #v[2, 0, 0, 0, 0, 7], sampleHost, sampleNetif.hwaddr, sampleNetif.ipAddr⟩

/-- The answer comes after four runs of the timer and a packet that goes to the gateway. -/
theorem arp_reply_delivers_late :
    ∃ new, (run sampleNetif ([] ++ .output true true 1 sampleHost ::
          [.tmr fun _ => true, .output true true 2 #v[10, 0, 0, 1], .tmr fun _ => false,
            .tmr fun _ => true, .tmr fun _ => true] ++ [.input true sampleReply])).arp.sent =
        (run sampleNetif ([] ++ .output true true 1 sampleHost ::
          [.tmr fun _ => true, .output true true 2 #v[10, 0, 0, 1], .tmr fun _ => false,
            .tmr fun _ => true, .tmr fun _ => true])).arp.sent ++ new ∧
      .ip sampleReply.shwaddr 1 ∈ new := by
  have hgw : nextHop sampleNetif #v[10, 0, 0, 1] = some sampleNetif.gw := by decide +kernel
  refine arp_reply_delivers (H := {sampleHost, sampleNetif.gw}) rfl (by decide +kernel)
    (by decide) (by decide +kernel) (by decide +kernel) (fun _ h => absurd rfl h) (by decide)
    (fun _ h => (by cases h)) (by decide) ?_ (by decide) (by decide) rfl true true 1
  simp only [List.forall_mem_cons, ArpEv.Spares]
  refine ⟨trivial, fun _ _ b hb => ?_, trivial, trivial, trivial, fun _ h => (by cases h)⟩
  cases hgw.symm.trans hb
  decide

end ArpSys

end Teensy41Ethernet.Lwip
