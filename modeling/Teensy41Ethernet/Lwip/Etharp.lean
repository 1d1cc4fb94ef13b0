import Teensy41Ethernet.Lwip.Output
import Mathlib.Data.Fintype.Card
import Mathlib.Data.List.FinRange
import Mathlib.Data.UInt

/-!
# Address resolution (`core/ipv4/etharp.c`)

The table of hardware addresses with one packet waiting at each entry (`ARP_QUEUEING` is 0), and
the calls that use it: packets going out (`etharp_output`, `etharp_query`), ARP packets coming in
(`etharp_input`) and the timer (`etharp_tmr`).  There is one interface.

A packet is of any type `π`.  Frames are logged in the order in which they are given to
`ethernet_output`, whose result is taken to be `ERR_OK`; queued packets that are freed are logged
as well.  Whether a buffer can be allocated is an argument of the call that asks for it.
-/

namespace Teensy41Ethernet.Lwip

/-! ### Addresses -/

/-- `ip4_addr_t`, as its bytes in network order. -/
abbrev Ip4Addr := Vector UInt8 4

/-- The fields of `struct netif` that are used here. -/
structure Netif where
  hwaddr : EthAddr
  ipAddr : Ip4Addr
  netmask : Ip4Addr
  gw : Ip4Addr

/-- `IPADDR_ANY`. -/
def ipaddrAny : Ip4Addr := Vector.replicate 4 0

/-- `IPADDR_BROADCAST`. -/
def ipaddrBroadcast : Ip4Addr := Vector.replicate 4 0xff

/-- `ethzero`. -/
def ethzero : EthAddr := Vector.replicate 6 0

/-- `ethbroadcast`. -/
def ethbroadcast : EthAddr := Vector.replicate 6 0xff

/-- The bits of an address under a mask. -/
def masked (a m : Ip4Addr) : Ip4Addr := a.zipWith (· &&& ·) m

/-- The bits of an address outside of a mask. -/
def hostPart (a m : Ip4Addr) : Ip4Addr := a.zipWith (fun x y => x &&& ~~~y) m

/-- `ip4_addr_netcmp`. -/
def ip4AddrNetcmp (a b m : Ip4Addr) : Bool := masked a m = masked b m

/-- `ip4_addr_isbroadcast`, for an interface with `NETIF_FLAG_BROADCAST`. -/
def ip4AddrIsbroadcast (a : Ip4Addr) (n : Netif) : Bool :=
  if a = ipaddrBroadcast ∨ a = ipaddrAny then true
  else if a = n.ipAddr then false
  else ip4AddrNetcmp a n.ipAddr n.netmask &&
    decide (hostPart a n.netmask = hostPart ipaddrBroadcast n.netmask)

/-- `ip4_addr_ismulticast`. -/
def ip4AddrIsmulticast (a : Ip4Addr) : Bool := a[0] &&& 0xf0 = 0xe0

/-- `ip4_addr_islinklocal`. -/
def ip4AddrIslinklocal (a : Ip4Addr) : Bool := a[0] = 169 ∧ a[1] = 254

/-- The addresses that never get into the table. -/
def nonUnicast (a : Ip4Addr) (n : Netif) : Bool :=
  decide (a = ipaddrAny) || ip4AddrIsbroadcast a n || ip4AddrIsmulticast a

/-- The hardware address of a multicast group. -/
def mcastaddr (a : Ip4Addr) : EthAddr := #v[0x01, 0x00, 0x5e, a[1] &&& 0x7f, a[2], a[3]]

/-- The address that is looked up for a unicast destination: the gateway, if the destination is
outside of the local network; `none` is `ERR_RTE`. -/
def nextHop (n : Netif) (dest : Ip4Addr) : Option Ip4Addr :=
  if ip4AddrNetcmp dest n.ipAddr n.netmask = false ∧ ip4AddrIslinklocal dest = false then
    if n.gw ≠ ipaddrAny then some n.gw else none
  else some dest

/-! ### The table -/

/-- `ARP_TABLE_SIZE`. -/
def arpTableSize : ℕ := 10

/-- `ARP_MAXAGE`. -/
def arpMaxage : ℕ := 300

/-- `ARP_MAXPENDING`. -/
def arpMaxpending : ℕ := 5

/-- `ARP_AGE_REREQUEST_USED_UNICAST`. -/
def arpAgeRerequestUsedUnicast : ℕ := arpMaxage - 30

/-- `ARP_AGE_REREQUEST_USED_BROADCAST`. -/
def arpAgeRerequestUsedBroadcast : ℕ := arpMaxage - 15

/-- `struct etharp_hdr`. -/
structure EtharpHdr where
  hwtype : ℕ
  proto : ℕ
  hwlen : ℕ
  protolen : ℕ
  opcode : ℕ
  shwaddr : EthAddr
  sipaddr : Ip4Addr
  dhwaddr : EthAddr
  dipaddr : Ip4Addr
deriving DecidableEq

/-- What is given to `ethernet_output`: an IP packet or an ARP packet, with the destination. -/
inductive Frame (π : Type*) where
  | ip (dst : EthAddr) (p : π)
  | arp (dst : EthAddr) (hdr : EtharpHdr)
deriving DecidableEq

/-- `enum etharp_state`. -/
inductive EtharpState where
  | empty
  | pending
  | stable
  | stableRerequesting1
  | stableRerequesting2
deriving DecidableEq

/-- `>= ETHARP_STATE_STABLE`. -/
def EtharpState.isStable : EtharpState → Bool
  | .empty => false
  | .pending => false
  | _ => true

/-- `struct etharp_entry`. -/
structure EtharpEntry (π : Type*) where
  q : Option π
  ipaddr : Ip4Addr
  ethaddr : EthAddr
  ctime : ℕ
  state : EtharpState
deriving DecidableEq

/-- `arp_table`, `etharp_cached_entry`, and the logs. -/
structure Etharp (π : Type*) where
  table : Fin arpTableSize → EtharpEntry π
  cachedEntry : Fin arpTableSize
  sent : List (Frame π)
  freed : List π

/-- `err_t`, as far as it is used here. -/
inductive Err where
  | ok
  | mem
  | arg
  | rte
deriving DecidableEq

namespace Etharp

variable {π : Type*}

/-- The table before anything has happened. -/
def init : Etharp π where
  table _ := ⟨none, ipaddrAny, ethzero, 0, .empty⟩
  cachedEntry := ⟨0, by decide⟩
  sent := []
  freed := []

/-- One entry is changed. -/
def put (i : Fin arpTableSize) (e : EtharpEntry π) (s : Etharp π) : Etharp π :=
  { s with table := Function.update s.table i e }

/-- A frame is sent. -/
def send (f : Frame π) (s : Etharp π) : Etharp π := { s with sent := s.sent ++ [f] }

end Etharp

section Code

variable {π : Type*}

/-- `etharp_free_entry`. -/
def etharpFreeEntry (i : Fin arpTableSize) (s : Etharp π) : Etharp π :=
  { s.put i { s.table i with q := none, state := .empty } with
    freed := s.freed ++ (s.table i).q.toList }

/-- `etharp_raw`, and whether there was memory for the packet. -/
def etharpRaw (alloc : Bool) (dst : EthAddr) (hdr : EtharpHdr) (s : Etharp π) : Etharp π × Bool :=
  if alloc then (s.send (.arp dst hdr), true) else (s, false)

/-- The header of a request for `a`. -/
def requestHdr (n : Netif) (a : Ip4Addr) : EtharpHdr :=
  ⟨1, 0x0800, 6, 4, 1, n.hwaddr, n.ipAddr, ethzero, a⟩

/-- `etharp_request_dst`. -/
def etharpRequestDst (n : Netif) (alloc : Bool) (a : Ip4Addr) (dst : EthAddr) (s : Etharp π) :
    Etharp π × Bool :=
  etharpRaw alloc dst (requestHdr n a) s

/-- `etharp_request`. -/
def etharpRequest (n : Netif) (alloc : Bool) (a : Ip4Addr) (s : Etharp π) : Etharp π × Bool :=
  etharpRequestDst n alloc a ethbroadcast s

/-- The body of the loop of `etharp_tmr`. -/
def etharpTmrEntry (n : Netif) (alloc : Fin arpTableSize → Bool) (s : Etharp π)
    (i : Fin arpTableSize) : Etharp π :=
  let e := { s.table i with ctime := (s.table i).ctime + 1 }
  if e.state = .empty then s
  else if arpMaxage ≤ e.ctime ∨ e.state = .pending ∧ arpMaxpending ≤ e.ctime then
    etharpFreeEntry i (s.put i e)
  else
    match e.state with
    | .stableRerequesting1 => s.put i { e with state := .stableRerequesting2 }
    | .stableRerequesting2 => s.put i { e with state := .stable }
    | .pending => (etharpRequest n (alloc i) e.ipaddr (s.put i e)).1
    | _ => s.put i e

/-- `etharp_tmr`. -/
def etharpTmr (n : Netif) (alloc : Fin arpTableSize → Bool) (s : Etharp π) : Etharp π :=
  (List.finRange arpTableSize).foldl (etharpTmrEntry n alloc) s

/-- What `etharp_find_entry` remembers of the entries: the first empty one, and the oldest ones
of three kinds with their ages. -/
structure Candidates where
  empty : Option (Fin arpTableSize)
  oldPending : Option (Fin arpTableSize)
  agePending : ℕ
  oldStable : Option (Fin arpTableSize)
  ageStable : ℕ
  oldQueue : Option (Fin arpTableSize)
  ageQueue : ℕ

/-- An entry that does not match is remembered, if it is old enough. -/
def Candidates.note (c : Candidates) (i : Fin arpTableSize) (e : EtharpEntry π) : Candidates :=
  if e.state = .pending then
    if e.q.isSome then
      if c.ageQueue ≤ e.ctime then { c with oldQueue := some i, ageQueue := e.ctime } else c
    else if c.agePending ≤ e.ctime then { c with oldPending := some i, agePending := e.ctime }
    else c
  else if c.ageStable ≤ e.ctime then { c with oldStable := some i, ageStable := e.ctime }
  else c

/-- The entry that is recycled when none is empty. -/
def Candidates.recycled (c : Candidates) : Option (Fin arpTableSize) :=
  match c.oldStable, c.oldPending with
  | some i, _ => some i
  | none, some i => some i
  | none, none => c.oldQueue

/-- The search of `etharp_find_entry`: the entry of the address, or else the candidates. -/
def findLoop (table : Fin arpTableSize → EtharpEntry π) (a : Ip4Addr) :
    List (Fin arpTableSize) → Candidates → Fin arpTableSize ⊕ Candidates
  | [], c => .inr c
  | i :: l, c =>
      if c.empty = none ∧ (table i).state = .empty then
        findLoop table a l { c with empty := some i }
      else if (table i).state ≠ .empty then
        if a = (table i).ipaddr then .inl i else findLoop table a l (c.note i (table i))
      else findLoop table a l c

/-- A new entry: its address is set, and its age. -/
def Etharp.fresh (i : Fin arpTableSize) (a : Ip4Addr) (s : Etharp π) : Etharp π :=
  s.put i { s.table i with ipaddr := a, ctime := 0 }

/-- `etharp_find_entry`, with `ETHARP_FLAG_TRY_HARD` or with `ETHARP_FLAG_FIND_ONLY`; no index
is `ERR_MEM`. -/
def etharpFindEntry (a : Ip4Addr) (tryHard : Bool) (s : Etharp π) :
    Etharp π × Option (Fin arpTableSize) :=
  match findLoop s.table a (List.finRange arpTableSize) ⟨none, none, 0, none, 0, none, 0⟩ with
  | .inl i => (s, some i)
  | .inr c =>
      if tryHard = false then (s, none)
      else
        match c.empty, c.recycled with
        | some i, _ => (s.fresh i a, some i)
        | none, some i => ((etharpFreeEntry i s).fresh i a, some i)
        | none, none => (s, none)

/-- The entry is filled in, and the packet that waited for it is sent. -/
def Etharp.learn (i : Fin arpTableSize) (mac : EthAddr) (s : Etharp π) : Etharp π :=
  { s.put i ⟨none, (s.table i).ipaddr, mac, 0, .stable⟩ with
    sent := s.sent ++ ((s.table i).q.map (Frame.ip mac)).toList }

/-- `etharp_update_arp_entry`. -/
def etharpUpdateArpEntry (n : Netif) (a : Ip4Addr) (mac : EthAddr) (tryHard : Bool)
    (s : Etharp π) : Etharp π :=
  if nonUnicast a n then s
  else
    match etharpFindEntry a tryHard s with
    | (s, none) => s
    | (s, some i) => s.learn i mac

/-- The check of `etharp_input`: an ARP packet for IPv4 on Ethernet. -/
def EtharpHdr.valid (hdr : EtharpHdr) : Bool :=
  hdr.hwtype = 1 ∧ hdr.hwlen = 6 ∧ hdr.protolen = 4 ∧ hdr.proto = 0x0800

/-- Whether an ARP packet is for the interface. -/
def EtharpHdr.forUs (hdr : EtharpHdr) (n : Netif) : Bool :=
  n.ipAddr ≠ ipaddrAny ∧ hdr.dipaddr = n.ipAddr

/-- The header of the reply. -/
def replyHdr (n : Netif) (hdr : EtharpHdr) : EtharpHdr :=
  ⟨1, 0x0800, 6, 4, 2, n.hwaddr, n.ipAddr, hdr.shwaddr, hdr.sipaddr⟩

/-- `etharp_input`. -/
def etharpInput (n : Netif) (alloc : Bool) (hdr : EtharpHdr) (s : Etharp π) : Etharp π :=
  if hdr.valid = false then s
  else
    let s := etharpUpdateArpEntry n hdr.sipaddr hdr.shwaddr (hdr.forUs n) s
    if hdr.opcode = 1 ∧ hdr.forUs n then (etharpRaw alloc hdr.shwaddr (replyHdr n hdr) s).1 else s

/-- The first part of `etharp_output_to_arp_index`: an entry that is about to expire is asked for
again. -/
def rerequest (n : Netif) (alloc : Bool) (i : Fin arpTableSize) (s : Etharp π) : Etharp π :=
  let e := s.table i
  if e.state = .stable then
    let r :=
      if arpAgeRerequestUsedBroadcast ≤ e.ctime then etharpRequest n alloc e.ipaddr s
      else if arpAgeRerequestUsedUnicast ≤ e.ctime then
        etharpRequestDst n alloc e.ipaddr e.ethaddr s
      else (s, false)
    if r.2 then r.1.put i { e with state := .stableRerequesting1 } else r.1
  else s

/-- `etharp_output_to_arp_index`. -/
def etharpOutputToArpIndex (n : Netif) (alloc : Bool) (q : π) (i : Fin arpTableSize)
    (s : Etharp π) : Etharp π :=
  let s := rerequest n alloc i s
  s.send (.ip (s.table i).ethaddr q)

/-- `etharp_query` for the entry that was found or made: a request is sent for a new one, and
if there is no packet. -/
def queryEntry (n : Netif) (alloc : Bool) (a : Ip4Addr) (q : Option π) (i : Fin arpTableSize)
    (s : Etharp π) : Etharp π × Bool :=
  if (s.table i).state = .empty then
    etharpRequest n alloc a (s.put i { s.table i with state := .pending })
  else if q.isNone then etharpRequest n alloc a s
  else (s, true)

/-- The packet waits at the entry, instead of the one that waited there. -/
def Etharp.hold (i : Fin arpTableSize) (q : π) (s : Etharp π) : Etharp π :=
  { s.put i { s.table i with q := some q } with freed := s.freed ++ (s.table i).q.toList }

/-- The packet is sent, or waits at the entry; `copy` says whether there is memory for the copy
that waits. -/
def queryPacket (copy : Bool) (q : π) (i : Fin arpTableSize) (s : Etharp π) : Etharp π × Err :=
  if (s.table i).state.isStable then
    (({ s with cachedEntry := i }).send (.ip (s.table i).ethaddr q), .ok)
  else if copy then (s.hold i q, .ok)
  else (s, .mem)

/-- `etharp_query`, with a packet or without. -/
def etharpQuery (n : Netif) (alloc copy : Bool) (a : Ip4Addr) (q : Option π) (s : Etharp π) :
    Etharp π × Err :=
  if nonUnicast a n then (s, .arg)
  else
    match etharpFindEntry a true s, q with
    | (s, none), _ => (s, .mem)
    | (s, some i), none =>
        ((queryEntry n alloc a none i s).1,
          if (queryEntry n alloc a (none : Option π) i s).2 then .ok else .mem)
    | (s, some i), some q => queryPacket copy q i (queryEntry n alloc a (some q) i s).1

/-- `etharp_output`. -/
def etharpOutput (n : Netif) (alloc copy : Bool) (q : π) (dest : Ip4Addr) (s : Etharp π) :
    Etharp π × Err :=
  if ip4AddrIsbroadcast dest n then (s.send (.ip ethbroadcast q), .ok)
  else if ip4AddrIsmulticast dest then (s.send (.ip (mcastaddr dest) q), .ok)
  else
    match nextHop n dest with
    | none => (s, .rte)
    | some a =>
        if (s.table s.cachedEntry).state.isStable ∧ a = (s.table s.cachedEntry).ipaddr then
          (etharpOutputToArpIndex n alloc q s.cachedEntry s, .ok)
        else
          match (List.finRange arpTableSize).find? fun i =>
              (s.table i).state.isStable ∧ a = (s.table i).ipaddr with
          | some i => (etharpOutputToArpIndex n alloc q i { s with cachedEntry := i }, .ok)
          | none => etharpQuery n alloc copy a (some q) s

/-- `etharp_cleanup_netif`. -/
def etharpCleanupNetif (s : Etharp π) : Etharp π :=
  (List.finRange arpTableSize).foldl
    (fun s i => if (s.table i).state ≠ .empty then etharpFreeEntry i s else s) s

end Code

/-! ### The search -/

section Search

variable {π : Type*} {s : Etharp π} {a : Ip4Addr} {i : Fin arpTableSize}
  {table : Fin arpTableSize → EtharpEntry π} {l : List (Fin arpTableSize)} {c c' : Candidates}

/-- No entry is for the address. -/
def Etharp.Free (s : Etharp π) (a : Ip4Addr) : Prop :=
  ∀ i, (s.table i).state ≠ .empty → (s.table i).ipaddr ≠ a

lemma findLoop_eq_inl (h : findLoop table a l c = .inl i) :
    (table i).state ≠ .empty ∧ (table i).ipaddr = a := by
  induction l generalizing c with
  | nil => cases h
  | cons k l ih =>
    rw [findLoop] at h
    split at h
    · exact ih h
    · split at h
      next hne =>
        split at h
        next ha =>
          cases h
          exact ⟨hne, ha.symm⟩
        next => exact ih h
      next => exact ih h

lemma Candidates.note_empty (c : Candidates) (i : Fin arpTableSize) (e : EtharpEntry π) :
    (c.note i e).empty = c.empty := by
  unfold Candidates.note
  split_ifs <;> rfl

/-- What the candidates say about the entries that were passed: of each kind one is known, if
there is any. -/
structure Candidates.Covers (table : Fin arpTableSize → EtharpEntry π)
    (seen : List (Fin arpTableSize)) (c : Candidates) : Prop where
  stable : ∀ k, c.oldStable = some k → (table k).state.isStable
  pending : ∀ k, c.oldPending = some k → (table k).state = .pending ∧ (table k).q = none
  queue : ∀ k, c.oldQueue = some k → (table k).state = .pending
  no_stable : c.oldStable = none → c.ageStable = 0 ∧ ∀ i ∈ seen, (table i).state.isStable = false
  no_pending : c.oldPending = none →
    c.agePending = 0 ∧ ∀ i ∈ seen, (table i).state = .pending → (table i).q.isSome
  no_queue : c.oldQueue = none →
    c.ageQueue = 0 ∧ ∀ i ∈ seen, (table i).state = .pending → (table i).q = none

lemma EtharpState.isStable_iff {st : EtharpState} :
    st.isStable = true ↔ st ≠ .empty ∧ st ≠ .pending := by
  cases st <;> simp [EtharpState.isStable]

/-- The entry `i` is passed as well, without changing what is said about one of the kinds. -/
lemma forall_mem_snoc {P : Fin arpTableSize → Prop} {seen : List (Fin arpTableSize)}
    (hseen : ∀ k ∈ seen, P k) (hi : P i) : ∀ k ∈ seen ++ [i], P k :=
  List.forall_mem_append.mpr ⟨hseen, List.forall_mem_singleton.mpr hi⟩

lemma Candidates.Covers.note {seen : List (Fin arpTableSize)} (hc : c.Covers table seen)
    (hi : (table i).state ≠ .empty) : (c.note i (table i)).Covers table (seen ++ [i]) := by
  unfold Candidates.note
  by_cases hpend : (table i).state = .pending
  · have hstable : (table i).state.isStable = false := by rw [hpend]; rfl
    rw [if_pos hpend]
    by_cases hq : (table i).q.isSome
    · rw [if_pos hq]
      by_cases hage : c.ageQueue ≤ (table i).ctime
      · rw [if_pos hage]
        exact ⟨hc.stable, hc.pending, fun k hk => Option.some.inj hk ▸ hpend,
          fun h => ⟨(hc.no_stable h).1, forall_mem_snoc (hc.no_stable h).2 hstable⟩,
          fun h => ⟨(hc.no_pending h).1, forall_mem_snoc (hc.no_pending h).2 fun _ => hq⟩,
          fun h => (by cases h)⟩
      · rw [if_neg hage]
        exact ⟨hc.stable, hc.pending, hc.queue,
          fun h => ⟨(hc.no_stable h).1, forall_mem_snoc (hc.no_stable h).2 hstable⟩,
          fun h => ⟨(hc.no_pending h).1, forall_mem_snoc (hc.no_pending h).2 fun _ => hq⟩,
          fun h => absurd ((hc.no_queue h).1 ▸ Nat.zero_le _) hage⟩
    · have hq' : (table i).q = none := Option.not_isSome_iff_eq_none.mp hq
      rw [if_neg hq]
      by_cases hage : c.agePending ≤ (table i).ctime
      · rw [if_pos hage]
        exact ⟨hc.stable, fun k hk => Option.some.inj hk ▸ ⟨hpend, hq'⟩, hc.queue,
          fun h => ⟨(hc.no_stable h).1, forall_mem_snoc (hc.no_stable h).2 hstable⟩,
          fun h => (by cases h),
          fun h => ⟨(hc.no_queue h).1, forall_mem_snoc (hc.no_queue h).2 fun _ => hq'⟩⟩
      · rw [if_neg hage]
        exact ⟨hc.stable, hc.pending, hc.queue,
          fun h => ⟨(hc.no_stable h).1, forall_mem_snoc (hc.no_stable h).2 hstable⟩,
          fun h => absurd ((hc.no_pending h).1 ▸ Nat.zero_le _) hage,
          fun h => ⟨(hc.no_queue h).1, forall_mem_snoc (hc.no_queue h).2 fun _ => hq'⟩⟩
  · rw [if_neg hpend]
    by_cases hage : c.ageStable ≤ (table i).ctime
    · rw [if_pos hage]
      refine ⟨fun k hk => Option.some.inj hk ▸ EtharpState.isStable_iff.mpr ⟨hi, hpend⟩, hc.pending,
        hc.queue, fun h => (by cases h), ?_, ?_⟩
      · exact fun h => ⟨(hc.no_pending h).1,
          forall_mem_snoc (hc.no_pending h).2 fun h => absurd h hpend⟩
      · exact fun h => ⟨(hc.no_queue h).1,
          forall_mem_snoc (hc.no_queue h).2 fun h => absurd h hpend⟩
    · rw [if_neg hage]
      refine ⟨hc.stable, hc.pending, hc.queue,
        fun h => absurd ((hc.no_stable h).1 ▸ Nat.zero_le _) hage, ?_, ?_⟩
      · exact fun h => ⟨(hc.no_pending h).1,
          forall_mem_snoc (hc.no_pending h).2 fun h => absurd h hpend⟩
      · exact fun h => ⟨(hc.no_queue h).1,
          forall_mem_snoc (hc.no_queue h).2 fun h => absurd h hpend⟩

/-- An entry that is empty changes nothing. -/
lemma Candidates.Covers.skip {seen : List (Fin arpTableSize)} (hc : c.Covers table seen)
    (hi : (table i).state = .empty) (e : Option (Fin arpTableSize)) :
    ({ c with empty := e } : Candidates).Covers table (seen ++ [i]) := by
  have hpend : (table i).state ≠ .pending := by rw [hi]; decide
  have hstable : (table i).state.isStable = false := by rw [hi]; rfl
  refine ⟨hc.stable, hc.pending, hc.queue,
    fun h => ⟨(hc.no_stable h).1, forall_mem_snoc (hc.no_stable h).2 hstable⟩, ?_, ?_⟩
  · exact fun h => ⟨(hc.no_pending h).1,
      forall_mem_snoc (hc.no_pending h).2 fun h => absurd h hpend⟩
  · exact fun h => ⟨(hc.no_queue h).1, forall_mem_snoc (hc.no_queue h).2 fun h => absurd h hpend⟩

/-- What the search knows when it finds nothing. -/
lemma findLoop_eq_inr {seen : List (Fin arpTableSize)} (hc : c.Covers table seen)
    (hseen : ∀ i ∈ seen, (table i).state ≠ .empty → (table i).ipaddr ≠ a)
    (hempty : ∀ i, c.empty = some i → (table i).state = .empty)
    (hfull : c.empty = none → ∀ i ∈ seen, (table i).state ≠ .empty)
    (h : findLoop table a l c = .inr c') :
    c'.Covers table (seen ++ l) ∧
      (∀ i ∈ seen ++ l, (table i).state ≠ .empty → (table i).ipaddr ≠ a) ∧
      (∀ i, c'.empty = some i → (table i).state = .empty) ∧
      (c'.empty = none → ∀ i ∈ seen ++ l, (table i).state ≠ .empty) := by
  induction l generalizing c seen with
  | nil =>
    cases h
    rw [List.append_nil]
    exact ⟨hc, hseen, hempty, hfull⟩
  | cons k l ih =>
    rw [List.append_cons]
    rw [findLoop] at h
    split at h
    next hk =>
      exact ih (hc.skip hk.2 _) (forall_mem_snoc hseen fun hne => absurd hk.2 hne)
        (fun i hi => Option.some.inj hi ▸ hk.2) (fun h => (by cases h)) h
    next hk =>
      split at h
      next hne =>
        split at h
        next => cases h
        next ha =>
          have hnote := Candidates.note_empty c k (table k)
          exact ih (hc.note hne) (forall_mem_snoc hseen fun _ h => ha h.symm)
            (fun i hi => hempty i (hnote ▸ hi)) (fun h => forall_mem_snoc (hfull (hnote ▸ h)) hne) h
      next hstate =>
        have hstate : (table k).state = .empty := not_not.mp hstate
        exact ih (hc.skip hstate _) (forall_mem_snoc hseen fun hne => absurd hstate hne) hempty
          (fun h => absurd ⟨h, hstate⟩ hk) h

/-- When no entry is empty one is recycled, and a packet is lost only if packets wait at all
entries. -/
lemma Candidates.Covers.exists_recycled (hc : c.Covers table (List.finRange arpTableSize))
    (hfull : ∀ k, (table k).state ≠ .empty)
    (hq : ∀ k, (table k).q.isSome → (table k).state = .pending) :
    ∃ i, c.recycled = some i ∧ ((table i).q.isSome → ∀ k, (table k).q.isSome) := by
  unfold Candidates.recycled
  cases hstable : c.oldStable with
  | some i =>
    have hi := (EtharpState.isStable_iff.mp (hc.stable i hstable)).2
    exact ⟨i, rfl, fun h => absurd (hq i h) hi⟩
  | none =>
    cases hpend : c.oldPending with
    | some i =>
      refine ⟨i, rfl, fun h => ?_⟩
      rw [(hc.pending i hpend).2] at h
      cases h
    | none =>
      have hstate : ∀ k, (table k).state = .pending := by
        intro k
        by_contra hk
        have := EtharpState.isStable_iff.mpr ⟨hfull k, hk⟩
        rw [(hc.no_stable hstable).2 k (List.mem_finRange k)] at this
        cases this
      have hall : ∀ k, (table k).q.isSome := fun k =>
        (hc.no_pending hpend).2 k (List.mem_finRange k) (hstate k)
      cases hqueue : c.oldQueue with
      | some i => exact ⟨i, rfl, fun _ => hall⟩
      | none =>
        have hnone := (hc.no_queue hqueue).2 ⟨0, by decide⟩ (List.mem_finRange _) (hstate _)
        have := hall ⟨0, by decide⟩
        rw [hnone] at this
        cases this

/-- The new entry for an address: what was there is gone. -/
def Etharp.claim (i : Fin arpTableSize) (a : Ip4Addr) (s : Etharp π) : Etharp π :=
  (etharpFreeEntry i s).fresh i a

/-- An entry may be taken for another address: it is empty, or none is; and a packet that waits
at it is lost only if packets wait at all entries. -/
def Etharp.Recyclable (s : Etharp π) (i : Fin arpTableSize) : Prop :=
  (s.table i).state = .empty ∨
    (∀ k, (s.table k).state ≠ .empty) ∧ ((s.table i).q.isSome → ∀ k, (s.table k).q.isSome)

lemma Etharp.fresh_eq_claim (hi : (s.table i).state = .empty) (hq : (s.table i).q = none) :
    s.fresh i a = s.claim i a := by
  simp [Etharp.claim, Etharp.fresh, etharpFreeEntry, Etharp.put, hi, hq]

/-- **The search.** An entry for the address is found; or none is, and one is made if that is
allowed. -/
lemma etharpFindEntry_cases (hq : ∀ k, (s.table k).q.isSome → (s.table k).state = .pending)
    (a : Ip4Addr) (tryHard : Bool) :
    (∃ i, (s.table i).state ≠ .empty ∧ (s.table i).ipaddr = a ∧
      etharpFindEntry a tryHard s = (s, some i)) ∨
    s.Free a ∧ (tryHard = false ∧ etharpFindEntry a tryHard s = (s, none) ∨
      tryHard = true ∧ ∃ i, s.Recyclable i ∧
        etharpFindEntry a tryHard s = (s.claim i a, some i)) := by
  rw [etharpFindEntry]
  cases hf : findLoop s.table a (List.finRange arpTableSize) ⟨none, none, 0, none, 0, none, 0⟩ with
  | inl i =>
    obtain ⟨hne, ha⟩ := findLoop_eq_inl hf
    exact .inl ⟨i, hne, ha, rfl⟩
  | inr c =>
    have hinit : (⟨none, none, 0, none, 0, none, 0⟩ : Candidates).Covers s.table [] :=
      ⟨fun k hk => (by cases hk), fun k hk => (by cases hk), fun k hk => (by cases hk),
        fun _ => ⟨rfl, fun i hi => (by cases hi)⟩, fun _ => ⟨rfl, fun i hi => (by cases hi)⟩,
        fun _ => ⟨rfl, fun i hi => (by cases hi)⟩⟩
    obtain ⟨hc, hseen, hempty, hfull⟩ := findLoop_eq_inr hinit (fun i hi => (by cases hi))
      (fun i hi => (by cases hi)) (fun _ i hi => (by cases hi)) hf
    rw [List.nil_append] at hc hseen hfull
    refine .inr ⟨fun i => hseen i (List.mem_finRange i), ?_⟩
    cases tryHard with
    | false => exact .inl ⟨rfl, if_pos rfl⟩
    | true =>
      refine .inr ⟨rfl, ?_⟩
      dsimp only
      rw [if_neg Bool.true_eq_false.mp]
      cases he : c.empty with
      | some i =>
        have hi := hempty i he
        have hqi : (s.table i).q = none := by
          rw [← Option.not_isSome_iff_eq_none]
          intro h
          rw [hq i h] at hi
          cases hi
        exact ⟨i, .inl hi, congrArg (fun s => (s, some i)) (Etharp.fresh_eq_claim hi hqi)⟩
      | none =>
        have hfull : ∀ k, (s.table k).state ≠ .empty := fun k => hfull he k (List.mem_finRange k)
        obtain ⟨i, hi, hlost⟩ := hc.exists_recycled hfull hq
        rw [hi]
        exact ⟨i, .inr ⟨hfull, hlost⟩, rfl⟩

end Search

end Teensy41Ethernet.Lwip
