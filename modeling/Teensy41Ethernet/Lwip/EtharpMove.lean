import Teensy41Ethernet.Lwip.Etharp
import Mathlib.Algebra.BigOperators.Group.Finset.Basic
import Mathlib.Algebra.Order.Group.Multiset

/-!
# What the calls of `etharp.c` do to the table

Every call that asks for a hardware address is a sequence of moves, each of which changes one
entry or sends one frame (`Etharp.Move`).  The calls are taken apart once; what all calls keep
is then shown for one move.  The timer and the cleanup go over the whole table and change each
entry by itself (`foldl_table`).
-/

namespace Teensy41Ethernet.Lwip

section Moves

variable {π : Type*} {n : Netif} {a : Ip4Addr} {s s₁ s' : Etharp π} {ps ps' : List π}
  {i k : Fin arpTableSize}

/-! ### The moves -/

namespace Etharp

/-- A new entry that waits for an answer. -/
def enter (i : Fin arpTableSize) (a : Ip4Addr) (s : Etharp π) : Etharp π :=
  (s.claim i a).put i { (s.claim i a).table i with state := .pending }

/-- What a call about the address `a` does, one thing at a time; the list holds the packet that
is taken over. -/
inductive Move (a : Ip4Addr) : Etharp π → List π → Etharp π → Prop
  | hint (s : Etharp π) (i : Fin arpTableSize) : Move a s [] { s with cachedEntry := i }
  | arp (s : Etharp π) (dst : EthAddr) (hdr : EtharpHdr) : Move a s [] (s.send (.arp dst hdr))
  | mark {s : Etharp π} {i : Fin arpTableSize} (hi : (s.table i).state = .stable) :
      Move a s [] (s.put i { s.table i with state := .stableRerequesting1 })
  | enter {s : Etharp π} {i : Fin arpTableSize} (hfree : s.Free a) (hi : s.Recyclable i) :
      Move a s [] (s.enter i a)
  | hold {s : Etharp π} {i : Fin arpTableSize} (q : π) (hi : (s.table i).state = .pending)
      (ha : (s.table i).ipaddr = a) : Move a s [q] (s.hold i q)
  | ship {s : Etharp π} {i : Fin arpTableSize} (q : π) (hi : (s.table i).state.isStable)
      (ha : (s.table i).ipaddr = a) : Move a s [q] (s.send (.ip (s.table i).ethaddr q))

/-- Moves one after the other, with the packets that are taken over. -/
inductive Moves (a : Ip4Addr) : Etharp π → List π → Etharp π → Prop
  | refl (s : Etharp π) : Moves a s [] s
  | head {s s₁ s' : Etharp π} {ps ps' : List π} (hm : Move a s ps s₁) (hs : Moves a s₁ ps' s') :
      Moves a s (ps ++ ps') s'

lemma Move.moves (hm : Move a s ps s') : Moves a s ps s' := by
  have := Moves.head hm (.refl s')
  rwa [List.append_nil] at this

lemma Moves.trans (h : Moves a s ps s₁) (h' : Moves a s₁ ps' s') :
    Moves a s (ps ++ ps') s' := by
  induction h with
  | refl => exact h'
  | head hm _ ih =>
    rw [List.append_assoc]
    exact .head hm (ih h')

/-! ### The fields after an update -/

lemma claim_table (i : Fin arpTableSize) (a : Ip4Addr) (s : Etharp π) :
    (s.claim i a).table =
      Function.update s.table i ⟨none, a, (s.table i).ethaddr, 0, .empty⟩ := by
  simp [claim, fresh, etharpFreeEntry, put]

lemma enter_table (i : Fin arpTableSize) (a : Ip4Addr) (s : Etharp π) :
    (s.enter i a).table =
      Function.update s.table i ⟨none, a, (s.table i).ethaddr, 0, .pending⟩ := by
  simp [enter, put, claim_table]

lemma claim_learn_table (i : Fin arpTableSize) (a : Ip4Addr) (mac : EthAddr) (s : Etharp π) :
    ((s.claim i a).learn i mac).table =
      Function.update s.table i ⟨none, a, mac, 0, .stable⟩ := by
  simp [learn, put, claim_table]

end Etharp

/-! ### The calls as moves -/

open Etharp

lemma etharpRaw_moves (alloc : Bool) (dst : EthAddr) (hdr : EtharpHdr) :
    Moves a s [] (etharpRaw alloc dst hdr s).1 := by
  cases alloc with
  | false => exact .refl s
  | true => exact (Move.arp s dst hdr).moves

lemma etharpRaw_table (alloc : Bool) (dst : EthAddr) (hdr : EtharpHdr) :
    (etharpRaw alloc dst hdr s).1.table = s.table := by
  cases alloc <;> rfl

lemma rerequest_cases (n : Netif) (alloc : Bool) (i : Fin arpTableSize) (s : Etharp π) :
    rerequest n alloc i s = s ∨ (s.table i).state = .stable ∧ ∃ dst hdr,
      rerequest n alloc i s =
        (s.send (.arp dst hdr)).put i { s.table i with state := .stableRerequesting1 } := by
  by_cases hi : (s.table i).state = .stable
  · cases alloc with
    | false =>
      refine .inl ?_
      simp [rerequest, etharpRequest, etharpRequestDst, etharpRaw]
    | true =>
      simp only [rerequest, if_pos hi, etharpRequest, etharpRequestDst, etharpRaw, if_true]
      by_cases hb : arpAgeRerequestUsedBroadcast ≤ (s.table i).ctime
      · rw [if_pos hb]
        exact .inr ⟨hi, _, _, rfl⟩
      · rw [if_neg hb]
        by_cases hu : arpAgeRerequestUsedUnicast ≤ (s.table i).ctime
        · rw [if_pos hu]
          exact .inr ⟨hi, _, _, rfl⟩
        · rw [if_neg hu]
          exact .inl rfl
  · exact .inl (if_neg hi)

lemma etharpOutputToArpIndex_moves (alloc : Bool) (q : π) (hi : (s.table i).state.isStable)
    (ha : (s.table i).ipaddr = a) : Moves a s [q] (etharpOutputToArpIndex n alloc q i s) := by
  rcases rerequest_cases n alloc i s with h | ⟨hst, dst, hdr, h⟩
  · rw [etharpOutputToArpIndex, h]
    exact (Move.ship q hi ha).moves
  · rw [etharpOutputToArpIndex, h]
    have hmark : Move a (s.send (.arp dst hdr)) [] _ := .mark hst
    refine .head (.arp s dst hdr) (.head hmark (Move.ship q ?_ ?_).moves)
    · simp [put, EtharpState.isStable]
    · simpa [put, send] using ha

lemma queryPacket_moves (copy : Bool) (q : π) (hi : (s.table i).state ≠ .empty)
    (ha : (s.table i).ipaddr = a) :
    Moves a s (if (queryPacket copy q i s).2 = .ok then [q] else [])
      (queryPacket copy q i s).1 := by
  by_cases hst : (s.table i).state.isStable
  · rw [queryPacket, if_pos hst]
    exact .head (.hint s i) (Move.ship (s := { s with cachedEntry := i }) q hst ha).moves
  · have hpend : (s.table i).state = .pending := by
      by_contra h
      exact hst (EtharpState.isStable_iff.mpr ⟨hi, h⟩)
    rw [queryPacket, if_neg hst]
    cases copy with
    | false => exact .refl s
    | true => exact (Move.hold q hpend ha).moves

/-- **A query is a sequence of moves**, and it takes the packet over unless it fails. -/
lemma etharpQuery_moves (hq : ∀ k, (s.table k).q.isSome → (s.table k).state = .pending)
    (n : Netif) (alloc copy : Bool) (a : Ip4Addr) (q : Option π) :
    Moves a s (if (etharpQuery n alloc copy a q s).2 = .ok then q.toList else [])
      (etharpQuery n alloc copy a q s).1 := by
  rw [etharpQuery.eq_def]
  by_cases hu : nonUnicast a n
  · rw [if_pos hu]
    exact .refl s
  rw [if_neg hu]
  rcases etharpFindEntry_cases hq a true with ⟨i, hi, ha, hf⟩ | ⟨hfree, ⟨h, -⟩ | ⟨-, i, hr, hf⟩⟩
  · -- the entry was there
    rw [hf]
    cases q with
    | none =>
      simp only [Option.toList_none, ite_self, queryEntry, if_neg hi]
      exact etharpRaw_moves alloc _ _
    | some q =>
      simp only [queryEntry, if_neg hi]
      exact queryPacket_moves copy q hi ha
  · cases h
  · -- the entry is new: it is pending now, and a request is sent
    have hstate : ((s.claim i a).table i).state = .empty := by simp [claim_table]
    have henter : Moves a s [] (s.enter i a) :=
      (Move.enter hfree hr).moves
    have hreq : Moves a s [] (etharpRequest n alloc a (s.enter i a)).1 :=
      henter.trans (etharpRaw_moves alloc _ _)
    rw [hf]
    cases q with
    | none =>
      simp only [Option.toList_none, ite_self, queryEntry, if_pos hstate]
      exact hreq
    | some q =>
      simp only [queryEntry, if_pos hstate]
      have htable : (etharpRequest n alloc a (s.enter i a)).1.table i =
          ⟨none, a, (s.table i).ethaddr, 0, .pending⟩ := by
        rw [etharpRequest, etharpRequestDst, etharpRaw_table, enter_table, Function.update_self]
      exact hreq.trans (queryPacket_moves copy q (by simp [htable]) (by rw [htable]))

/-- **A packet that goes out**: to all or to a group directly; without a route not at all; and
otherwise by moves for the next hop. -/
lemma etharpOutput_cases (hq : ∀ k, (s.table k).q.isSome → (s.table k).state = .pending)
    (n : Netif) (alloc copy : Bool) (q : π) (dest : Ip4Addr) :
    ip4AddrIsbroadcast dest n ∧
      etharpOutput n alloc copy q dest s = (s.send (.ip ethbroadcast q), .ok) ∨
    ip4AddrIsbroadcast dest n = false ∧ (ip4AddrIsmulticast dest ∧
        etharpOutput n alloc copy q dest s = (s.send (.ip (mcastaddr dest) q), .ok) ∨
      ip4AddrIsmulticast dest = false ∧
        (nextHop n dest = none ∧ etharpOutput n alloc copy q dest s = (s, .rte) ∨
        ∃ a, nextHop n dest = some a ∧
          Moves a s (if (etharpOutput n alloc copy q dest s).2 = .ok then [q] else [])
            (etharpOutput n alloc copy q dest s).1)) := by
  rw [etharpOutput]
  by_cases hb : ip4AddrIsbroadcast dest n
  · exact .inl ⟨hb, if_pos hb⟩
  rw [if_neg hb]
  refine .inr ⟨Bool.eq_false_iff.mpr hb, ?_⟩
  by_cases hmc : ip4AddrIsmulticast dest
  · exact .inl ⟨hmc, if_pos hmc⟩
  rw [if_neg hmc]
  refine .inr ⟨Bool.eq_false_iff.mpr hmc, ?_⟩
  cases hhop : nextHop n dest with
  | none => exact .inl ⟨rfl, rfl⟩
  | some a =>
    refine .inr ⟨a, rfl, ?_⟩
    dsimp only
    split
    next hc => exact etharpOutputToArpIndex_moves alloc q hc.1 hc.2.symm
    next =>
      cases hfind : (List.finRange arpTableSize).find? fun i =>
          (s.table i).state.isStable ∧ a = (s.table i).ipaddr with
      | none => exact etharpQuery_moves hq n alloc copy a (some q)
      | some i =>
        have hi : (s.table i).state.isStable ∧ a = (s.table i).ipaddr := by
          simpa using List.find?_some hfind
        exact .head (.hint s i) (etharpOutputToArpIndex_moves (s := { s with cachedEntry := i })
          alloc q hi.1 hi.2.symm)

/-- What an ARP packet with the sender `a`, `mac` does to the table. -/
inductive Etharp.Learns (n : Netif) (a : Ip4Addr) (mac : EthAddr) : Etharp π → Etharp π → Prop
  | group {s : Etharp π} (ha : nonUnicast a n) : Learns n a mac s s
  | skip {s : Etharp π} (hfree : s.Free a) : Learns n a mac s s
  | found {s : Etharp π} {i : Fin arpTableSize} (ha : nonUnicast a n = false)
      (hi : (s.table i).state ≠ .empty) (hip : (s.table i).ipaddr = a) :
      Learns n a mac s (s.learn i mac)
  | make {s : Etharp π} {i : Fin arpTableSize} (ha : nonUnicast a n = false)
      (hfree : s.Free a) (hi : s.Recyclable i) : Learns n a mac s ((s.claim i a).learn i mac)

lemma etharpUpdateArpEntry_learns
    (hq : ∀ k, (s.table k).q.isSome → (s.table k).state = .pending)
    (n : Netif) (a : Ip4Addr) (mac : EthAddr) (tryHard : Bool) :
    Learns n a mac s (etharpUpdateArpEntry n a mac tryHard s) := by
  rw [etharpUpdateArpEntry.eq_def]
  by_cases hu : nonUnicast a n
  · rw [if_pos hu]
    exact .group hu
  rw [if_neg hu]
  have hu : nonUnicast a n = false := Bool.eq_false_iff.mpr hu
  rcases etharpFindEntry_cases hq a tryHard with ⟨i, hi, ha, hf⟩ | ⟨hfree, ⟨-, hf⟩ | ⟨-, i, hr, hf⟩⟩
  · rw [hf]
    exact .found hu hi ha
  · rw [hf]
    exact .skip hfree
  · rw [hf]
    exact .make hu hfree hr

/-- **An ARP packet that comes in** is dropped, or it is learned from and then perhaps answered. -/
lemma etharpInput_cases (hq : ∀ k, (s.table k).q.isSome → (s.table k).state = .pending)
    (n : Netif) (alloc : Bool) (hdr : EtharpHdr) :
    hdr.valid = false ∧ etharpInput n alloc hdr s = s ∨
      hdr.valid ∧ ∃ s₁, Learns n hdr.sipaddr hdr.shwaddr s s₁ ∧
        Moves hdr.sipaddr s₁ [] (etharpInput n alloc hdr s) ∧
        (etharpInput n alloc hdr s).table = s₁.table := by
  rw [etharpInput]
  cases hv : hdr.valid with
  | false => exact .inl ⟨rfl, if_pos rfl⟩
  | true =>
    refine .inr ⟨rfl, _, etharpUpdateArpEntry_learns hq n hdr.sipaddr hdr.shwaddr (hdr.forUs n), ?_⟩
    rw [if_neg Bool.true_eq_false.mp]
    dsimp only
    split
    next => exact ⟨etharpRaw_moves alloc _ _, etharpRaw_table alloc _ _⟩
    next => exact ⟨.refl _, rfl⟩

/-! ### What the moves keep -/

/-- No two entries are for one address, and every entry is of a kind. -/
structure Etharp.Inv (P : EtharpEntry π → Prop) (s : Etharp π) : Prop where
  distinct : ∀ i k, (s.table i).state ≠ .empty → (s.table k).state ≠ .empty →
    (s.table i).ipaddr = (s.table k).ipaddr → i = k
  entry : ∀ i, P (s.table i)

/-- A kind of entries that the moves for an address do not leave. -/
structure EtharpEntry.KeptBy (a : Ip4Addr) (ps : List π) (P : EtharpEntry π → Prop) :
    Prop where
  mark : ∀ e, P e → e.state = .stable → P { e with state := .stableRerequesting1 }
  enter : ∀ mac, P ⟨none, a, mac, 0, .pending⟩
  hold : ∀ e, ∀ q ∈ ps, P e → e.state = .pending → e.ipaddr = a → P { e with q := some q }

variable {P P' : EtharpEntry π → Prop} {e : EtharpEntry π}

lemma EtharpEntry.KeptBy.mono (hP : EtharpEntry.KeptBy a ps P) (h : ∀ q ∈ ps', q ∈ ps) :
    EtharpEntry.KeptBy a ps' P :=
  ⟨hP.mark, hP.enter, fun e q hq => hP.hold e q (h q hq)⟩

namespace Etharp

lemma Inv.mono (hs : s.Inv P) (h : ∀ e, P e → P' e) : s.Inv P' :=
  ⟨hs.distinct, fun i => h _ (hs.entry i)⟩

/-- One entry is changed; all entries are of another kind then. -/
lemma Inv.update (hs : s.Inv P) (ht : s'.table = Function.update s.table i e) (he : P' e)
    (hk : ∀ k, k ≠ i → P' (s.table k))
    (hne : e.state ≠ .empty → ∀ k, k ≠ i → (s.table k).state ≠ .empty →
      (s.table k).ipaddr ≠ e.ipaddr) : s'.Inv P' := by
  refine ⟨fun j k hj hk hjk => ?_, fun k => ?_⟩
  · rw [ht] at hj hk hjk
    by_cases hji : j = i
    · by_cases hki : k = i
      · rw [hji, hki]
      · rw [hji, Function.update_self] at hj hjk
        rw [Function.update_of_ne hki] at hk hjk
        exact absurd hjk.symm (hne hj k hki hk)
    · rw [Function.update_of_ne hji] at hj hjk
      by_cases hki : k = i
      · rw [hki, Function.update_self] at hk hjk
        exact absurd hjk (hne hk j hji hj)
      · rw [Function.update_of_ne hki] at hk hjk
        exact hs.distinct j k hj hk hjk
  · rw [ht]
    by_cases hki : k = i
    · rwa [hki, Function.update_self]
    · rw [Function.update_of_ne hki]
      exact hk k hki

/-- One entry is changed, and keeps its address. -/
lemma Inv.update_of_eq (hs : s.Inv P) (ht : s'.table = Function.update s.table i e) (he : P' e)
    (hk : ∀ k, k ≠ i → P' (s.table k)) (hi : (s.table i).state ≠ .empty)
    (hip : e.ipaddr = (s.table i).ipaddr) : s'.Inv P' := by
  refine hs.update ht he hk fun _ k hki hk h => hki ?_
  exact hs.distinct k i hk hi (h.trans hip)

lemma Move.inv (hm : Move a s ps s') (hP : EtharpEntry.KeptBy a ps P) (hs : s.Inv P) :
    s'.Inv P := by
  have hk : ∀ i k, k ≠ i → P (s.table k) := fun _ k _ => hs.entry k
  cases hm with
  | hint => exact ⟨hs.distinct, hs.entry⟩
  | arp => exact ⟨hs.distinct, hs.entry⟩
  | ship => exact ⟨hs.distinct, hs.entry⟩
  | mark hi => exact hs.update_of_eq rfl (hP.mark _ (hs.entry _) hi) (hk _) (by rw [hi]; decide) rfl
  | enter hfree =>
    exact hs.update (enter_table _ _ _) (hP.enter _) (hk _) fun _ k _ hk => hfree k hk
  | hold q hi ha =>
    have hq := hP.hold _ q (List.mem_singleton_self q) (hs.entry _) hi ha
    exact hs.update_of_eq rfl hq (hk _) (by rw [hi]; decide) rfl

lemma Moves.inv (h : Moves a s ps s') (hP : EtharpEntry.KeptBy a ps P) (hs : s.Inv P) :
    s'.Inv P := by
  induction h with
  | refl => exact hs
  | head hm _ ih =>
    have hl := hP.mono fun q hq => List.mem_append_left _ hq
    exact ih (hP.mono fun q hq => List.mem_append_right _ hq) (hm.inv hl hs)

lemma Move.sent (hm : Move a s ps s') : ∃ new, s'.sent = s.sent ++ new ∧
    ∀ dst p, .ip dst p ∈ new → p ∈ ps ∧
      ∃ i, (s.table i).state.isStable ∧ (s.table i).ipaddr = a ∧ (s.table i).ethaddr = dst := by
  have hnone : ∀ (dst : EthAddr) (p : π), Frame.ip dst p ∈ ([] : List (Frame π)) → p ∈ ps ∧
      ∃ i, (s.table i).state.isStable ∧ (s.table i).ipaddr = a ∧ (s.table i).ethaddr = dst :=
    fun _ _ h => (by cases h)
  cases hm with
  | hint => exact ⟨[], (List.append_nil _).symm, hnone⟩
  | mark => exact ⟨[], (List.append_nil _).symm, hnone⟩
  | enter => exact ⟨[], (List.append_nil _).symm, hnone⟩
  | hold => exact ⟨[], (List.append_nil _).symm, hnone⟩
  | arp dst hdr => exact ⟨[.arp dst hdr], rfl, fun _ _ h => (by simp at h)⟩
  | @ship i q hi ha =>
    refine ⟨[.ip (s.table i).ethaddr q], rfl, fun dst p h => ?_⟩
    cases List.mem_singleton.mp h
    exact ⟨List.mem_singleton_self q, i, hi, ha, rfl⟩

/-- Every packet that is sent was taken over, and goes to the address that an entry holds. -/
lemma Moves.sent (h : Moves a s ps s') (hP : EtharpEntry.KeptBy a ps P) (hs : s.Inv P) :
    ∃ new, s'.sent = s.sent ++ new ∧ ∀ dst p, .ip dst p ∈ new → p ∈ ps ∧
      ∃ e, P e ∧ e.state.isStable ∧ e.ipaddr = a ∧ e.ethaddr = dst := by
  induction h with
  | refl s => exact ⟨[], (List.append_nil _).symm, fun _ _ h => (by cases h)⟩
  | head hm _ ih =>
    have hl := hP.mono fun q hq => List.mem_append_left _ hq
    have hr := hP.mono fun q hq => List.mem_append_right _ hq
    obtain ⟨new, hnew, hsent⟩ := hm.sent
    obtain ⟨new', hnew', hsent'⟩ := ih hr (hm.inv hl hs)
    refine ⟨new ++ new', by rw [hnew', hnew, List.append_assoc], fun dst p hp => ?_⟩
    rcases List.mem_append.mp hp with hp | hp
    · obtain ⟨hp, i, hi⟩ := hsent dst p hp
      exact ⟨List.mem_append_left _ hp, _, hs.entry i, hi⟩
    · obtain ⟨hp, he⟩ := hsent' dst p hp
      exact ⟨List.mem_append_right _ hp, he⟩

/-- Frames are only added. -/
lemma Moves.exists_sent (h : Moves a s ps s') : ∃ new, s'.sent = s.sent ++ new := by
  induction h with
  | refl s => exact ⟨[], (List.append_nil _).symm⟩
  | head hm _ ih =>
    obtain ⟨new, hnew, -⟩ := hm.sent
    obtain ⟨new', hnew'⟩ := ih
    exact ⟨new ++ new', by rw [hnew', hnew, List.append_assoc]⟩

/-- An entry with a packet is not recycled, unless packets wait everywhere. -/
lemma Recyclable.ne (hk : s.Recyclable k) (hpend : (s.table i).state = .pending)
    (hq : (s.table i).q.isSome) (hspare : ∃ j, (s.table j).q = none) : i ≠ k := by
  rintro rfl
  rcases hk with hk | ⟨-, hk⟩
  · rw [hpend] at hk
    cases hk
  · obtain ⟨j, hj⟩ := hspare
    have := hk hq j
    rw [hj] at this
    cases this

/-- A move for another address leaves a packet where it waits, unless packets wait everywhere. -/
lemma Move.keeps (hm : Move a s ps s') (hpend : (s.table i).state = .pending)
    (hq : (s.table i).q.isSome) (hip : (s.table i).ipaddr ≠ a)
    (hspare : ∃ k, (s.table k).q = none) :
    s'.table i = s.table i := by
  cases hm with
  | hint => rfl
  | arp => rfl
  | ship => rfl
  | @mark k hk =>
    refine Function.update_of_ne (fun h => ?_) _ _
    rw [← h, hpend] at hk
    cases hk
  | enter _ hk =>
    rw [enter_table]
    exact Function.update_of_ne (hk.ne hpend hq hspare) _ _
  | @hold k q _ hk =>
    refine Function.update_of_ne (fun h => ?_) _ _
    exact hip (h ▸ hk)

lemma Moves.keeps (h : Moves a s ps s') (hP : EtharpEntry.KeptBy a ps P) (hs : s.Inv P)
    (hpend : (s.table i).state = .pending) (hq : (s.table i).q.isSome)
    (hip : (s.table i).ipaddr ≠ a) (hspare : ∀ s : Etharp π, s.Inv P → ∃ k, (s.table k).q = none) :
    s'.table i = s.table i := by
  induction h with
  | refl => rfl
  | head hm _ ih =>
    have hl := hP.mono fun q hq => List.mem_append_left _ hq
    have hr := hP.mono fun q hq => List.mem_append_right _ hq
    have hi := hm.keeps hpend hq hip (hspare _ hs)
    rw [← hi] at hpend hq hip
    rw [ih hr (hm.inv hl hs) hpend hq hip, hi]

/-! ### What an ARP packet keeps -/

variable {mac : EthAddr}

lemma Learns.eq_of_group (h : Learns n a mac s s') (ha : nonUnicast a n) : s' = s := by
  cases h with
  | group => rfl
  | skip => rfl
  | found hu =>
    rw [ha] at hu
    cases hu
  | make hu =>
    rw [ha] at hu
    cases hu

/-- All entries are of the new kind, if those for other addresses are and the new one is. -/
lemma Learns.inv (h : Learns n a mac s s') (hs : s.Inv P)
    (ha : nonUnicast a n = false) (hP : ∀ e, P e → (e.state ≠ .empty → e.ipaddr ≠ a) → P' e)
    (hnew : P' ⟨none, a, mac, 0, .stable⟩) : s'.Inv P' := by
  cases h with
  | group hu =>
    rw [ha] at hu
    cases hu
  | skip hfree => exact ⟨hs.distinct, fun i => hP _ (hs.entry i) (hfree i)⟩
  | @found i _ hi hip =>
    refine hs.update_of_eq rfl (hip ▸ hnew) (fun k hki => hP _ (hs.entry k) ?_) hi rfl
    exact fun hk hkip => hki (hs.distinct k i hk hi (hkip.trans hip.symm))
  | make _ hfree =>
    exact hs.update (claim_learn_table _ _ _ _) hnew
      (fun k _ => hP _ (hs.entry k) (hfree k)) fun _ k _ hk => hfree k hk

/-- A packet that waited for the sender is sent to it, and no other one. -/
lemma Learns.sent (h : Learns n a mac s s') : ∃ new, s'.sent = s.sent ++ new ∧
    ∀ dst p, .ip dst p ∈ new → dst = mac ∧ nonUnicast a n = false ∧
      ∃ i, (s.table i).q = some p ∧ (s.table i).ipaddr = a := by
  cases h with
  | group => exact ⟨[], (List.append_nil _).symm, fun _ _ h => (by cases h)⟩
  | skip => exact ⟨[], (List.append_nil _).symm, fun _ _ h => (by cases h)⟩
  | @found i ha hi hip =>
    refine ⟨_, rfl, fun dst p h => ?_⟩
    rw [Option.mem_toList, Option.map_eq_some_iff] at h
    obtain ⟨_, hq, hf⟩ := h
    cases hf
    exact ⟨rfl, ha, i, hq, hip⟩
  | make =>
    refine ⟨_, rfl, fun dst p h => ?_⟩
    simp [claim_table] at h

/-- An ARP packet from another address leaves a packet where it waits, unless packets wait
everywhere. -/
lemma Learns.keeps (h : Learns n a mac s s') (hpend : (s.table i).state = .pending)
    (hq : (s.table i).q.isSome) (hip : (s.table i).ipaddr ≠ a)
    (hspare : ∃ k, (s.table k).q = none) :
    s'.table i = s.table i := by
  cases h with
  | group => rfl
  | skip => rfl
  | @found k _ _ hk =>
    refine Function.update_of_ne (fun h => ?_) _ _
    exact hip (h ▸ hk)
  | make _ _ hk =>
    rw [claim_learn_table]
    exact Function.update_of_ne (hk.ne hpend hq hspare) _ _

end Etharp

/-! ### No packet is lost or made up -/

/-- The packet in a frame. -/
def Frame.packet : Frame π → Option π
  | .ip _ p => some p
  | .arp _ _ => none

namespace Etharp

/-- All packets that were taken over: they were sent, they wait, or they were freed. -/
def packets (s : Etharp π) : Multiset π :=
  (s.sent.filterMap Frame.packet : Multiset π) + ∑ i, ((s.table i).q.toList : Multiset π) +
    (s.freed : Multiset π)

lemma sum_update (t : Fin arpTableSize → EtharpEntry π) (i : Fin arpTableSize)
    (e : EtharpEntry π) :
    ∑ k, ((Function.update t i e k).q.toList : Multiset π) + ((t i).q.toList : Multiset π) =
      ∑ k, ((t k).q.toList : Multiset π) + (e.q.toList : Multiset π) := by
  have h : (fun k => ((Function.update t i e k).q.toList : Multiset π)) =
      Function.update (fun k => ((t k).q.toList : Multiset π)) i e.q.toList := by
    funext k
    exact Function.apply_update (fun _ (e : EtharpEntry π) => (e.q.toList : Multiset π)) t i e k
  rw [h, Finset.sum_update_of_mem (Finset.mem_univ i),
    Finset.sum_eq_add_sum_sdiff_singleton_of_mem (Finset.mem_univ i)]
  abel

/-- One entry is changed, with the packets `l` sent and the packets `f` freed. -/
lemma packets_update {l f p : List π} (ht : s'.table = Function.update s.table i e)
    (hsent : s'.sent.filterMap Frame.packet = s.sent.filterMap Frame.packet ++ l)
    (hfreed : s'.freed = s.freed ++ f)
    (h : (l : Multiset π) + f + e.q.toList = (s.table i).q.toList + (p : Multiset π)) :
    s'.packets = s.packets + p := by
  have key : ∀ S L Q Q' F f o e p : Multiset π, Q' + o = Q + e → L + f + e = o + p →
      S + L + Q' + (F + f) + o = S + Q + F + p + o := by
    intro S L Q Q' F f o e p hQ hp
    calc S + L + Q' + (F + f) + o = S + F + L + f + (Q' + o) := by abel
      _ = S + F + Q + (L + f + e) := by rw [hQ]; abel
      _ = S + Q + F + p + o := by rw [hp]; abel
  have hsum := sum_update s.table i e
  rw [← ht] at hsum
  rw [packets, packets, hsent, hfreed, ← Multiset.coe_add, ← Multiset.coe_add,
    ← add_left_inj ((s.table i).q.toList : Multiset π)]
  exact key _ _ _ _ _ _ _ _ _ hsum h

lemma packets_send (f : Frame π) (s : Etharp π) :
    (s.send f).packets = s.packets + (f.packet.toList : Multiset π) := by
  have hsent : (s.send f).sent.filterMap Frame.packet =
      s.sent.filterMap Frame.packet ++ f.packet.toList := by
    rw [send, List.filterMap_append]
    cases f <;> rfl
  rw [packets, packets, hsent, ← Multiset.coe_add, send]
  abel

lemma Move.packets (hm : Move a s ps s') : s'.packets = s.packets + ps := by
  cases hm with
  | hint => exact (add_zero _).symm
  | arp dst hdr => exact packets_send _ s
  | ship q => exact packets_send _ s
  | @mark i =>
    refine packets_update (l := []) (f := []) rfl (List.append_nil _).symm
      (List.append_nil _).symm ?_
    exact add_comm _ _
  | enter =>
    refine packets_update (l := []) (enter_table _ _ _) (List.append_nil _).symm rfl ?_
    simp
  | hold q =>
    refine packets_update (l := []) rfl (List.append_nil _).symm rfl ?_
    simp

lemma Moves.packets (h : Moves a s ps s') : s'.packets = s.packets + ps := by
  induction h with
  | refl => exact (add_zero _).symm
  | head hm _ ih => rw [ih, hm.packets, ← Multiset.coe_add, add_assoc]

lemma filterMap_learn (i : Fin arpTableSize) (mac : EthAddr) (s : Etharp π) :
    (s.learn i mac).sent.filterMap Frame.packet =
      s.sent.filterMap Frame.packet ++ (s.table i).q.toList := by
  rw [learn, List.filterMap_append]
  cases (s.table i).q <;> rfl

lemma Learns.packets {mac : EthAddr} (h : Learns n a mac s s') : s'.packets = s.packets := by
  cases h with
  | group => rfl
  | skip => rfl
  | @found i =>
    have := packets_update (p := []) rfl (filterMap_learn i mac s) (List.append_nil _).symm
      (by simp)
    exact this.trans (add_zero _)
  | @make i =>
    have := packets_update (p := []) (claim_learn_table i a mac s)
      (filterMap_learn i mac (s.claim i a)) rfl (by simp [claim_table])
    exact this.trans (add_zero _)

end Etharp

/-! ### The loops over the table -/

/-- The body of a loop over the table: it changes the entry as `g` says, and sends no packets. -/
structure Sweeps (f : Etharp π → Fin arpTableSize → Etharp π)
    (g : EtharpEntry π → EtharpEntry π) : Prop where
  table : ∀ s i, (f s i).table = Function.update s.table i (g (s.table i))
  sent : ∀ s i, ∃ new, (f s i).sent = s.sent ++ new ∧ ∀ dst p, .ip dst p ∉ new
  packets : ∀ s i, (f s i).packets = s.packets

section Sweeps

variable {f : Etharp π → Fin arpTableSize → Etharp π} {g : EtharpEntry π → EtharpEntry π}
  {l : List (Fin arpTableSize)}

lemma Sweeps.foldl_of_notMem (hf : Sweeps f g) (hk : k ∉ l) :
    (l.foldl f s).table k = s.table k := by
  induction l generalizing s with
  | nil => rfl
  | cons i l ih =>
    rw [List.foldl_cons, ih (fun h => hk (List.mem_cons_of_mem i h)), hf.table]
    refine Function.update_of_ne (fun h => ?_) _ _
    exact hk (h ▸ List.mem_cons_self)

lemma Sweeps.foldl_of_mem (hf : Sweeps f g) (hl : l.Nodup) (hk : k ∈ l) :
    (l.foldl f s).table k = g (s.table k) := by
  induction l generalizing s with
  | nil => cases hk
  | cons i l ih =>
    obtain ⟨hi, hl⟩ := List.nodup_cons.mp hl
    rw [List.foldl_cons]
    by_cases hki : k = i
    · rw [hf.foldl_of_notMem (hki ▸ hi), hf.table, hki, Function.update_self]
    · rw [ih hl ((List.mem_cons.mp hk).resolve_left hki), hf.table, Function.update_of_ne hki]

lemma Sweeps.foldl_sent (hf : Sweeps f g) :
    ∃ new, (l.foldl f s).sent = s.sent ++ new ∧ ∀ dst p, .ip dst p ∉ new := by
  induction l generalizing s with
  | nil => exact ⟨[], (List.append_nil _).symm, fun _ _ => List.not_mem_nil⟩
  | cons i l ih =>
    obtain ⟨new, hnew, hip⟩ := hf.sent s i
    obtain ⟨new', hnew', hip'⟩ := ih (s := f s i)
    refine ⟨new ++ new', ?_, fun dst p h => ?_⟩
    · rw [List.foldl_cons, hnew', hnew, List.append_assoc]
    · exact (List.mem_append.mp h).elim (hip dst p) (hip' dst p)

lemma Sweeps.foldl_packets (hf : Sweeps f g) : (l.foldl f s).packets = s.packets := by
  induction l generalizing s with
  | nil => rfl
  | cons i l ih => rw [List.foldl_cons, ih, hf.packets]

end Sweeps

/-- An entry that is freed. -/
def EtharpEntry.cleared (e : EtharpEntry π) : EtharpEntry π := { e with q := none, state := .empty }

/-- An entry after a run of the timer. -/
def EtharpEntry.aged (e : EtharpEntry π) : EtharpEntry π :=
  if e.state = .empty then e
  else if arpMaxage ≤ e.ctime + 1 ∨ e.state = .pending ∧ arpMaxpending ≤ e.ctime + 1 then
    { e with ctime := e.ctime + 1 }.cleared
  else
    match e.state with
    | .stableRerequesting1 => { e with ctime := e.ctime + 1, state := .stableRerequesting2 }
    | .stableRerequesting2 => { e with ctime := e.ctime + 1, state := .stable }
    | _ => { e with ctime := e.ctime + 1 }

/-- An entry stays empty, expires, or gets older. -/
lemma EtharpEntry.aged_cases (e : EtharpEntry π) :
    e.state = .empty ∧ e.aged = e ∨ (∃ e' : EtharpEntry π, e.aged = e'.cleared) ∨
      e.ctime + 1 < arpMaxage ∧ (e.state = .pending → e.ctime + 1 < arpMaxpending) ∧
      ∃ st, e.aged = { e with ctime := e.ctime + 1, state := st } ∧ e.state ≠ .empty ∧
        (st = .pending ↔ e.state = .pending) := by
  rw [EtharpEntry.aged.eq_def]
  by_cases hempty : e.state = .empty
  · rw [if_pos hempty]
    exact .inl ⟨hempty, rfl⟩
  rw [if_neg hempty]
  refine .inr ?_
  by_cases hold : arpMaxage ≤ e.ctime + 1 ∨ e.state = .pending ∧ arpMaxpending ≤ e.ctime + 1
  · rw [if_pos hold]
    exact .inl ⟨_, rfl⟩
  rw [if_neg hold]
  rw [not_or, not_and, not_le, not_le] at hold
  refine .inr ⟨hold.1, hold.2, ?_⟩
  cases hst : e.state with
  | empty => exact absurd hst hempty
  | stable => exact ⟨.stable, rfl, by simp⟩
  | pending => exact ⟨.pending, rfl, by simp⟩
  | stableRerequesting1 => exact ⟨.stableRerequesting2, rfl, by simp⟩
  | stableRerequesting2 => exact ⟨.stable, rfl, by simp⟩

lemma etharpFreeEntry_packets (i : Fin arpTableSize) (s : Etharp π) :
    (etharpFreeEntry i s).packets = s.packets := by
  have : (etharpFreeEntry i s).packets = s.packets + ([] : List π) :=
    packets_update (l := []) rfl (List.append_nil _).symm rfl (by simp)
  exact this.trans (add_zero _)

lemma Etharp.put_packets (hq : e.q = (s.table i).q) : (s.put i e).packets = s.packets := by
  have : (s.put i e).packets = s.packets + ([] : List π) :=
    packets_update (l := []) (f := []) rfl (List.append_nil _).symm (List.append_nil _).symm
      (by simp [hq])
  exact this.trans (add_zero _)

/-- The timer leaves an empty entry, frees an expired one, and changes the age and the state of
any other one. -/
lemma etharpTmrEntry_cases (n : Netif) (alloc : Fin arpTableSize → Bool) (s : Etharp π)
    (i : Fin arpTableSize) :
    (s.table i).aged = s.table i ∧ etharpTmrEntry n alloc s i = s ∨
    (∃ e, e.q = (s.table i).q ∧ (s.table i).aged = e.cleared ∧
      etharpTmrEntry n alloc s i = etharpFreeEntry i (s.put i e)) ∨
    (s.table i).aged.q = (s.table i).q ∧ (etharpTmrEntry n alloc s i = s.put i (s.table i).aged ∨
      ∃ dst hdr, etharpTmrEntry n alloc s i = (s.put i (s.table i).aged).send (.arp dst hdr)) := by
  rw [etharpTmrEntry.eq_def, EtharpEntry.aged.eq_def]
  dsimp only
  by_cases hempty : (s.table i).state = .empty
  · rw [if_pos hempty, if_pos hempty]
    exact .inl ⟨rfl, rfl⟩
  rw [if_neg hempty, if_neg hempty]
  refine .inr ?_
  by_cases hold : arpMaxage ≤ (s.table i).ctime + 1 ∨
      (s.table i).state = .pending ∧ arpMaxpending ≤ (s.table i).ctime + 1
  · rw [if_pos hold, if_pos hold]
    exact .inl ⟨{ s.table i with ctime := (s.table i).ctime + 1 }, rfl, rfl, rfl⟩
  rw [if_neg hold, if_neg hold]
  refine .inr ?_
  cases hst : (s.table i).state with
  | empty => exact absurd hst hempty
  | stable => exact ⟨rfl, .inl rfl⟩
  | stableRerequesting1 => exact ⟨rfl, .inl rfl⟩
  | stableRerequesting2 => exact ⟨rfl, .inl rfl⟩
  | pending =>
    refine ⟨rfl, ?_⟩
    cases alloc i with
    | false => exact .inl rfl
    | true => exact .inr ⟨_, _, rfl⟩

lemma etharpTmrEntry_sweeps (n : Netif) (alloc : Fin arpTableSize → Bool) :
    Sweeps (etharpTmrEntry n alloc) (EtharpEntry.aged : EtharpEntry π → EtharpEntry π) := by
  refine ⟨fun s i => ?_, fun s i => ?_, fun s i => ?_⟩
  all_goals
    obtain ⟨ha, h⟩ | ⟨e, hq, ha, h⟩ | ⟨hq, h | ⟨dst, hdr, h⟩⟩ :=
      etharpTmrEntry_cases n alloc s i <;>
    rw [h]
  · rw [ha, Function.update_eq_self]
  · simp [ha, etharpFreeEntry, Etharp.put, EtharpEntry.cleared]
  · rfl
  · rfl
  · exact ⟨[], (List.append_nil _).symm, fun _ _ => List.not_mem_nil⟩
  · exact ⟨[], (List.append_nil _).symm, fun _ _ => List.not_mem_nil⟩
  · exact ⟨[], (List.append_nil _).symm, fun _ _ => List.not_mem_nil⟩
  · exact ⟨[.arp dst hdr], rfl, fun _ _ h => (by simp at h)⟩
  · rw [etharpFreeEntry_packets, Etharp.put_packets hq]
  · exact Etharp.put_packets hq
  · exact (packets_send _ _).trans ((add_zero _).trans (Etharp.put_packets hq))

lemma etharpTmr_table (n : Netif) (alloc : Fin arpTableSize → Bool) (s : Etharp π)
    (i : Fin arpTableSize) : (etharpTmr n alloc s).table i = (s.table i).aged := by
  rw [etharpTmr]
  exact (etharpTmrEntry_sweeps n alloc).foldl_of_mem (List.nodup_finRange _) (List.mem_finRange i)

lemma etharpTmr_packets (n : Netif) (alloc : Fin arpTableSize → Bool) (s : Etharp π) :
    (etharpTmr n alloc s).packets = s.packets := by
  rw [etharpTmr]
  exact (etharpTmrEntry_sweeps n alloc).foldl_packets

lemma etharpCleanupNetif_sweeps :
    Sweeps (fun (s : Etharp π) i => if (s.table i).state ≠ .empty then etharpFreeEntry i s else s)
      (fun e => if e.state ≠ .empty then e.cleared else e) := by
  refine ⟨fun s i => ?_, fun s i => ?_, fun s i => ?_⟩
  all_goals by_cases hi : (s.table i).state ≠ .empty
  · rw [if_pos hi, if_pos hi]
    rfl
  · rw [if_neg hi, if_neg hi, Function.update_eq_self]
  · rw [if_pos hi]
    exact ⟨[], (List.append_nil _).symm, fun _ _ => List.not_mem_nil⟩
  · rw [if_neg hi]
    exact ⟨[], (List.append_nil _).symm, fun _ _ => List.not_mem_nil⟩
  · rw [if_pos hi, etharpFreeEntry_packets]
  · rw [if_neg hi]

lemma etharpCleanupNetif_packets (s : Etharp π) : (etharpCleanupNetif s).packets = s.packets := by
  rw [etharpCleanupNetif]
  exact etharpCleanupNetif_sweeps.foldl_packets

end Moves

end Teensy41Ethernet.Lwip
