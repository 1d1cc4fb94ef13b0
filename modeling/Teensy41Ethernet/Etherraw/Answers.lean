import Teensy41Ethernet.Etherraw.Node
import Teensy41Ethernet.Etherraw.Pseudo

/-!
# Answers composed from the frame they answer

`ping_reply` and `udp_reply` turn a received frame into its answer by editing it: the sender
becomes the destination, and the node's own address, which was the destination, becomes the
source.  In the IP header this exchanges words, so its checksum stays what it has to be.  The
same is true of the ports of a datagram and of the addresses of its pseudo header.  An echo
request, however, becomes a reply by a new type byte, and the checksum of the message is not
adjusted.
-/

namespace Teensy41Ethernet.Etherraw

open Lib

/-! ### Addressed back -/

/-- The lines that `ping_reply` and `udp_reply` share. -/
def addressed (cfg : Config) (m : ℕ → UInt8) : ℕ → UInt8 :=
  let m := store m (p8 0) (load m (p8 6) 6)
  let m := put32 m (p32 8) (get32 m (p32 7))
  put32 m (p32 7) cfg.myaddress

/-- `m'` is `m` with the sender's hardware address as its destination and with the IP addresses
exchanged. -/
structure Addressed (m m' : ℕ → UInt8) : Prop where
  mac : ∀ i < 6, m' (p8 i) = m (p8 (6 + i))
  src : ∀ i < 4, m' (p8 (26 + i)) = m (p8 (30 + i))
  dst : ∀ i < 4, m' (p8 (30 + i)) = m (p8 (26 + i))
  other : ∀ i, ¬ (p8 0 ≤ i ∧ i < p8 6) → ¬ (p8 26 ≤ i ∧ i < p8 34) → m' i = m i

/-- A frame for this node is addressed back by the edits. -/
lemma addressed_addressed {cfg : Config} {m : ℕ → UInt8} (h : get32 m (p32 8) = cfg.myaddress) :
    Addressed m (addressed cfg m) := by
  have heq : addressed cfg m =
      store (store (store m (p8 0) (load m (p8 6) 6)) (p8 30)
        (load (store m (p8 0) (load m (p8 6) 6)) (p8 26) 4)) (p8 26) (load m (p8 30) 4) := by
    simp only [addressed, ← h, put32_get32]
    rfl
  rw [heq]
  constructor <;> simp only [p8]
  · intro i hi
    rw [store_of_notMem _ (by rw [length_load]; omega),
      store_of_notMem _ (by rw [length_load]; omega), store_load_of_mem _ _ (by omega) (by omega)]
    congr 1
    omega
  · intro i hi
    rw [store_load_of_mem _ _ (by omega) (by omega)]
    congr 1
    omega
  · intro i hi
    rw [store_of_notMem _ (by rw [length_load]; omega), store_load_of_mem _ _ (by omega) (by omega),
      store_of_notMem _ (by rw [length_load]; omega)]
    congr 1
    omega
  · intro i hmac haddr
    rw [store_of_notMem _ (by rw [length_load]; omega),
      store_of_notMem _ (by rw [length_load]; omega),
      store_of_notMem _ (by rw [length_load]; omega)]

/-- The IP header has the same sum when the addresses are exchanged. -/
lemma leSum_header {m m' : ℕ → UInt8} (hsrc : ∀ i < 4, m' (p8 (26 + i)) = m (p8 (30 + i)))
    (hdst : ∀ i < 4, m' (p8 (30 + i)) = m (p8 (26 + i)))
    (hother : ∀ i, p8 14 ≤ i → i < p8 26 → m' i = m i) :
    leSum (load m' (p8 14) 20) = leSum (load m (p8 14) 20) := by
  have hwords : ∀ m : ℕ → UInt8, leSum (load m (p8 14) 20) =
      get16 m (p16 7) + (get16 m (p16 8) + (get16 m (p16 9) + (get16 m (p16 10) +
        (get16 m (p16 11) + (get16 m (p16 12) + (get16 m (p16 13) + (get16 m (p16 14) +
          (get16 m (p16 15) + (get16 m (p16 16) + 0))))))))) := fun _ => rfl
  have hkeep : ∀ k, 7 ≤ k → k < 13 → get16 m' (p16 k) = get16 m (p16 k) := fun k hk hk' =>
    get16_congr fun c hc hc' => hother c (by simp only [p8, p16] at *; omega)
      (by simp only [p8, p16] at *; omega)
  have hsrcs : ∀ k < 2, get16 m' (p16 (13 + k)) = get16 m (p16 (15 + k)) := fun k hk =>
    get16_eq_get16 fun i hi => by
      simpa only [p8, p16, mul_add, add_assoc] using hsrc (2 * k + i) (by omega)
  have hdsts : ∀ k < 2, get16 m' (p16 (15 + k)) = get16 m (p16 (13 + k)) := fun k hk =>
    get16_eq_get16 fun i hi => by
      simpa only [p8, p16, mul_add, add_assoc] using hdst (2 * k + i) (by omega)
  have hsrc₀ : get16 m' (p16 13) = get16 m (p16 15) := hsrcs 0 (by decide)
  have hsrc₁ : get16 m' (p16 14) = get16 m (p16 16) := hsrcs 1 (by decide)
  have hdst₀ : get16 m' (p16 15) = get16 m (p16 13) := hdsts 0 (by decide)
  have hdst₁ : get16 m' (p16 16) = get16 m (p16 14) := hdsts 1 (by decide)
  rw [hwords, hwords, hkeep 7 (by decide) (by decide), hkeep 8 (by decide) (by decide),
    hkeep 9 (by decide) (by decide), hkeep 10 (by decide) (by decide),
    hkeep 11 (by decide) (by decide), hkeep 12 (by decide) (by decide)]
  omega

/-! ### Checksums of a frame -/

/-- The total length of the IP datagram in a frame. -/
def iplth (m : ℕ → UInt8) : ℕ := swap2 (get16 m (p16 8))

/-- The length of the UDP datagram in a frame. -/
def udplth (m : ℕ → UInt8) : ℕ := swap2 (get16 m (p16 19))

/-- The checksum of the IP header, of 20 bytes, is valid. -/
def IpChecks (m : ℕ → UInt8) : Prop := onesSum (beWords (load m (p8 14) 20)) = 0xFFFF

/-- The checksum of the ICMP message behind the IP header is valid. -/
def IcmpChecks (m : ℕ → UInt8) : Prop :=
  onesSum (beWords (load m (p8 34) (iplth m - 20))) = 0xFFFF

/-- The UDP datagram behind the IP header has a valid checksum, or none. -/
def UdpChecks (m : ℕ → UInt8) : Prop :=
  get16 m (p16 20) = 0 ∨
    onesSum (beWords (pseudoHeader (UInt32.ofNat (get32 m (p32 7))) (UInt32.ofNat (get32 m (p32 8)))
      17 (UInt16.ofNat (udplth m)) ++ load m (p8 34) (udplth m))) = 0xFFFF

lemma IpChecks.exchange {m m' : ℕ → UInt8} (h : IpChecks m)
    (hsrc : ∀ i < 4, m' (p8 (26 + i)) = m (p8 (30 + i)))
    (hdst : ∀ i < 4, m' (p8 (30 + i)) = m (p8 (26 + i)))
    (hother : ∀ i, p8 14 ≤ i → i < p8 26 → m' i = m i) : IpChecks m' := by
  rw [IpChecks, onesSum_beWords_eq_ones_iff] at h ⊢
  rwa [leSum_header hsrc hdst hother]

/-! ### Echo replies -/

/-- A frame with an echo request for this node, as `handle_frame` recognises it, with valid
checksums.  The message lies inside the frame. -/
structure EchoRequest (cfg : Config) (m : ℕ → UInt8) (len : ℕ) : Prop where
  type_eq : get16 m (p16 6) = 0x0008
  proto_eq : m (p8 23) = 1
  dst_eq : get32 m (p32 8) = cfg.myaddress
  icmp_eq : m (p8 34) = 8
  header_eq : m (p8 14) = 0x45
  le_iplth : 28 ≤ iplth m
  iplth_le : p8 14 + iplth m ≤ len
  ipChecks : IpChecks m
  icmpChecks : IcmpChecks m

/-- `m'` answers the echo request `m`: type 0, from the node to the sender, with the same
identifier, sequence number and data, and with a valid IP header. -/
structure EchoReply (cfg : Config) (m m' : ℕ → UInt8) : Prop where
  icmp_eq : m' (p8 34) = 0
  mac_eq : load m' (p8 0) 6 = load m (p8 6) 6
  src_eq : get32 m' (p32 7) = cfg.myaddress
  dst_eq : get32 m' (p32 8) = get32 m (p32 7)
  iplth_eq : iplth m' = iplth m
  ident_eq : get16 m' (p8 38) = get16 m (p8 38)
  seqno_eq : get16 m' (p8 40) = get16 m (p8 40)
  data_eq : load m' (p8 42) (iplth m - 28) = load m (p8 42) (iplth m - 28)
  ipChecks : IpChecks m'

/-- A copy of the frame holds the same request. -/
lemma EchoRequest.congr {cfg : Config} {m m₀ : ℕ → UInt8} {len : ℕ} (h : EchoRequest cfg m len)
    (hcopy : ∀ i < len, m₀ i = m i) : EchoRequest cfg m₀ len ∧ iplth m₀ = iplth m := by
  have hlow := h.le_iplth
  have hhigh := h.iplth_le
  simp only [p8] at hhigh
  have hword : ∀ a, a + 2 ≤ 44 → get16 m₀ a = get16 m a :=
    fun a ha => get16_congr fun c _ hc => hcopy c (by omega)
  have hlen : iplth m₀ = iplth m := by
    rw [iplth, iplth, hword _ (by decide)]
  have hload : ∀ a k, a + k ≤ len → load m₀ a k = load m a k :=
    fun a k ha => load_congr fun c _ hc => hcopy c (by omega)
  refine ⟨?_, hlen⟩
  exact
    { type_eq := (hword _ (by decide)).trans h.type_eq
      proto_eq := (hcopy _ (by simp only [p8]; omega)).trans h.proto_eq
      dst_eq := (get32_congr fun c _ hc => hcopy c (by simp only [p32] at hc; omega)).trans h.dst_eq
      icmp_eq := (hcopy _ (by simp only [p8]; omega)).trans h.icmp_eq
      header_eq := (hcopy _ (by simp only [p8]; omega)).trans h.header_eq
      le_iplth := hlow.trans_eq hlen.symm
      iplth_le := by
        rw [hlen]
        exact h.iplth_le
      ipChecks := by
        rw [IpChecks, hload _ _ (by simp only [p8]; omega)]
        exact h.ipChecks
      icmpChecks := by
        rw [IcmpChecks, hlen, hload _ _ (by simp only [p8]; omega)]
        exact h.icmpChecks }

/-- The edits that make a reply of a request. -/
def replied (cfg : Config) (m : ℕ → UInt8) : ℕ → UInt8 := store (addressed cfg m) (p8 34) [0]

section Replied

variable {cfg : Config} {m : ℕ → UInt8} {len : ℕ}

/-- In front of the type the frame is addressed back. -/
lemma replied_of_lt {i : ℕ} (hi : i < p8 34) : replied cfg m i = addressed cfg m i :=
  store_of_notMem _ (Or.inl hi)

lemma replied_type : replied cfg m (p8 34) = 0 :=
  store_getElem _ (p8 34) [0] (i := 0) (by decide)

/-- Behind the type nothing is changed. -/
lemma EchoRequest.replied_of_ge (h : EchoRequest cfg m len) {i : ℕ} (hi : p8 35 ≤ i) :
    replied cfg m i = m i := by
  simp only [p8] at hi
  rw [replied, store_of_notMem _ (Or.inr (by simp only [p8, List.length_singleton]; omega)),
    (addressed_addressed h.dst_eq).other i (by simp only [p8]; omega) (by simp only [p8]; omega)]

lemma EchoRequest.iplth_replied (h : EchoRequest cfg m len) :
    iplth (replied cfg m) = iplth m := by
  have hkeep : get16 (replied cfg m) (p16 8) = get16 m (p16 8) := by
    refine get16_congr fun c hc hc' => ?_
    simp only [p16] at hc hc'
    rw [replied_of_lt (by simp only [p8]; omega), (addressed_addressed h.dst_eq).other c
      (by simp only [p8]; omega) (by simp only [p8]; omega)]
  rw [iplth, iplth, hkeep]

/-- The reply to a request, except for the checksum of the message. -/
lemma EchoRequest.echoReply (h : EchoRequest cfg m len) : EchoReply cfg m (replied cfg m) := by
  have haddr := addressed_addressed h.dst_eq
  refine { icmp_eq := replied_type, mac_eq := ?_, src_eq := ?_, dst_eq := ?_
           iplth_eq := h.iplth_replied
           ident_eq := get16_congr fun c hc _ => h.replied_of_ge (by simp only [p8] at *; omega)
           seqno_eq := get16_congr fun c hc _ => h.replied_of_ge (by simp only [p8] at *; omega)
           data_eq := load_congr fun c hc _ => h.replied_of_ge (by simp only [p8] at *; omega)
           ipChecks := ?_ }
  · refine load_eq_load fun i hi => ?_
    rw [replied_of_lt (by simp only [p8]; omega)]
    simpa only [p8, add_assoc, zero_add] using haddr.mac i hi
  · rw [← h.dst_eq]
    refine get32_eq_get32 fun i hi => ?_
    rw [replied_of_lt (by simp only [p8, p32]; omega)]
    simpa only [p8, p32, ← add_assoc] using haddr.src i hi
  · refine get32_eq_get32 fun i hi => ?_
    rw [replied_of_lt (by simp only [p8, p32]; omega)]
    simpa only [p8, p32, ← add_assoc] using haddr.dst i hi
  · refine h.ipChecks.exchange (fun i hi => ?_) (fun i hi => ?_) fun i hi hi' => ?_
    · rw [replied_of_lt (by simp only [p8]; omega), haddr.src i hi]
    · rw [replied_of_lt (by simp only [p8]; omega), haddr.dst i hi]
    · simp only [p8] at hi hi'
      rw [replied_of_lt (by simp only [p8]; omega), haddr.other i (by simp only [p8]; omega)
        (by simp only [p8]; omega)]

/-- The new type takes 8 from the sum of the message, so that it does not check any more. -/
lemma EchoRequest.not_icmpChecks (h : EchoRequest cfg m len) : ¬ IcmpChecks (replied cfg m) := by
  obtain ⟨k, hk⟩ : ∃ k, iplth m - 20 = k + 2 := ⟨iplth m - 22, by have := h.le_iplth; omega⟩
  have hword : ∀ m : ℕ → UInt8, leSum (load m (p8 34) (k + 2)) =
      (m (p8 34)).toNat + 256 * (m (p8 35)).toNat + leSum (load m (p8 36) k) := fun _ => rfl
  have hrest : load (replied cfg m) (p8 36) k = load m (p8 36) k :=
    load_congr fun c hc _ => h.replied_of_ge (by simp only [p8] at *; omega)
  have hchecks := h.icmpChecks
  rw [IcmpChecks, hk, onesSum_beWords_eq_ones_iff, hword, h.icmp_eq] at hchecks
  rw [IcmpChecks, h.iplth_replied, hk, onesSum_beWords_eq_ones_iff, hword, hrest,
    h.replied_of_ge le_rfl, replied_type]
  have height : (8 : UInt8).toNat = 8 := rfl
  have hzero : (0 : UInt8).toNat = 0 := rfl
  omega

/-- A reply to a copy of the frame is a reply to the frame. -/
lemma EchoReply.congr {m₀ m' : ℕ → UInt8} (h : EchoReply cfg m₀ m') (hm : EchoRequest cfg m len)
    (hcopy : ∀ i < len, m₀ i = m i) : EchoReply cfg m m' := by
  have hlow := hm.le_iplth
  have hhigh := hm.iplth_le
  simp only [p8] at hhigh
  have hlen := (hm.congr hcopy).2
  have hload : ∀ a k, a + k ≤ len → load m₀ a k = load m a k :=
    fun a k ha => load_congr fun c _ hc => hcopy c (by omega)
  have hword : ∀ a, a + 2 ≤ 44 → get16 m₀ a = get16 m a :=
    fun a ha => get16_congr fun c _ hc => hcopy c (by omega)
  exact
    { h with
      mac_eq := h.mac_eq.trans (hload _ _ (by simp only [p8]; omega))
      dst_eq := h.dst_eq.trans (get32_congr fun c _ hc => hcopy c (by simp only [p32] at hc; omega))
      iplth_eq := h.iplth_eq.trans hlen
      ident_eq := h.ident_eq.trans (hword _ (by decide))
      seqno_eq := h.seqno_eq.trans (hword _ (by decide))
      data_eq := by
        rw [← hlen, h.data_eq, hlen, hload _ _ (by simp only [p8]; omega)] }

end Replied

/-- `handle_frame` answers an echo request. -/
lemma EchoRequest.sent_handleFrame {n : Node} {m : ℕ → UInt8} {len : ℕ}
    (h : EchoRequest n.cfg m len) (hlen : len ≤ 128) (stack : ℕ → UInt8) :
    (handleFrame n m len stack).sent = n.sent ++ [load (pingPacket n.cfg m len stack) 0 len] := by
  simp only [handleFrame, h.type_eq, h.proto_eq, h.dst_eq, h.icmp_eq, and_self, if_true, pingReply]
  rw [if_neg (by omega)]
  rfl

/-- **No ping is answered with a valid checksum.**  The frame that answers an echo request of at
most 128 bytes is an echo reply from the node to the sender, with the same identifier,
sequence number and data and with a valid IP header; but the checksum of the message, which
was that of the request, is wrong, whatever the request. -/
theorem pingReply_never_checks {n : Node} {m : ℕ → UInt8} {len : ℕ} (hlen : len ≤ 128)
    (h : EchoRequest n.cfg m len) (stack : ℕ → UInt8) :
    (handleFrame n m len stack).sent = n.sent ++ [load (pingPacket n.cfg m len stack) 0 len] ∧
      EchoReply n.cfg m (pingPacket n.cfg m len stack) ∧
      ¬ IcmpChecks (pingPacket n.cfg m len stack) := by
  have hcopy : ∀ i < len, store stack 0 (load m 0 len) i = m i := by
    intro i hi
    rw [store_load_of_mem _ _ (Nat.zero_le i) (by omega), zero_add, Nat.sub_zero]
  have hrequest := (h.congr hcopy).1
  exact ⟨h.sent_handleFrame hlen stack, hrequest.echoReply.congr h hcopy,
    hrequest.not_icmpChecks⟩

/-- An echo request from 192.168.1.4, with two bytes of data. -/
def echoFrame (i : ℕ) : UInt8 :=
  [0, 0,
   0x04, 0xE9, 0xE5, 0x00, 0x00, 0x01, 0x00, 0x13, 0x20, 0x2E, 0x53, 0x90, 0x08, 0x00,
   0x45, 0x00, 0x00, 0x1E, 0x12, 0x34, 0x00, 0x00, 0x40, 0x01, 0xE5, 0x45,
   0xC0, 0xA8, 0x01, 0x04, 0xC0, 0xA8, 0x01, 0x11,
   0x08, 0x00, 0x96, 0x95, 0x00, 0x07, 0x00, 0x01, 0x61, 0x62].getD i 0

lemma echoRequest_echoFrame : EchoRequest sketchConfig echoFrame 46 where
  type_eq := by decide
  proto_eq := by decide
  dst_eq := by decide
  icmp_eq := by decide
  header_eq := by decide
  le_iplth := by decide
  iplth_le := by decide
  ipChecks := by
    rw [IpChecks]
    decide
  icmpChecks := by
    rw [IcmpChecks]
    decide

/-- The request is answered, with a checksum that is not valid. -/
theorem pingReply_never_checks_echoFrame :
    (handleFrame (Node.init sketchConfig) echoFrame 46 fun _ => 0).sent =
        [load (pingPacket sketchConfig echoFrame 46 fun _ => 0) 0 46] ∧
      ¬ IcmpChecks (pingPacket sketchConfig echoFrame 46 fun _ => 0) := by
  have hping := pingReply_never_checks (n := Node.init sketchConfig) (by decide)
    echoRequest_echoFrame fun _ => 0
  exact ⟨hping.1, hping.2.2⟩

/-- The sum of the answer to this request: the field holds 0x9695 and should hold 0x9E95. -/
theorem pingReply_bad_checksum :
    EchoRequest sketchConfig echoFrame 46 ∧
      (handleFrame (Node.init sketchConfig) echoFrame 46 fun _ => 0).sent =
        [load (pingPacket sketchConfig echoFrame 46 fun _ => 0) 0 46] ∧
      onesSum (beWords (load (pingPacket sketchConfig echoFrame 46 fun _ => 0) (p8 34) 10)) =
        0xF7FF ∧
      ¬ IcmpChecks (pingPacket sketchConfig echoFrame 46 fun _ => 0) := by
  refine ⟨echoRequest_echoFrame, echoRequest_echoFrame.sent_handleFrame (by decide) _, ?_, ?_⟩
  · decide +kernel
  · rw [IcmpChecks]
    decide +kernel

/-! ### Answers to datagrams -/

/-- A frame with a UDP datagram for this node, with a header of 20 bytes and valid checksums. -/
structure UdpFrame (cfg : Config) (m : ℕ → UInt8) (len : ℕ) : Prop where
  type_eq : get16 m (p16 6) = 0x0008
  proto_eq : m (p8 23) = 17
  dst_eq : get32 m (p32 8) = cfg.myaddress
  header_eq : m (p8 14) = 0x45
  le_udplth : 8 ≤ udplth m
  udplth_le : p8 34 + udplth m ≤ len
  ipChecks : IpChecks m
  udpChecks : UdpChecks m

/-- `m'` is the datagram `m`, sent back: to the sender's hardware address, with addresses and
ports exchanged. -/
structure Answered (m m' : ℕ → UInt8) : Prop where
  mac : ∀ i < 6, m' (p8 i) = m (p8 (6 + i))
  src : ∀ i < 4, m' (p8 (26 + i)) = m (p8 (30 + i))
  dst : ∀ i < 4, m' (p8 (30 + i)) = m (p8 (26 + i))
  sport : ∀ i < 2, m' (p8 (34 + i)) = m (p8 (36 + i))
  dport : ∀ i < 2, m' (p8 (36 + i)) = m (p8 (34 + i))
  other : ∀ i, ¬ (p8 0 ≤ i ∧ i < p8 6) → ¬ (p8 26 ≤ i ∧ i < p8 38) → m' i = m i

/-- `udp_reply` sends a datagram for this node back. -/
lemma answered_udpReplyPacket {cfg : Config} {m : ℕ → UInt8} (h : get32 m (p32 8) = cfg.myaddress) :
    Answered m (udpReplyPacket cfg m) := by
  have haddr := addressed_addressed h
  have heq : udpReplyPacket cfg m =
      store (store (addressed cfg m) (p8 34) (load (addressed cfg m) (p8 36) 2)) (p8 36)
        (load (addressed cfg m) (p8 34) 2) := by
    change put16 (put16 (addressed cfg m) (p16 17) (get16 (addressed cfg m) (p16 18))) (p16 18)
      (get16 (addressed cfg m) (p16 17)) = _
    rw [put16_get16, put16_get16]
    rfl
  -- what lies outside of the ports was addressed back
  have hout : ∀ i, ¬ (p8 34 ≤ i ∧ i < p8 38) → udpReplyPacket cfg m i = addressed cfg m i := by
    intro i hi
    simp only [p8] at hi
    rw [heq, store_of_notMem _ (by rw [length_load]; simp only [p8]; omega),
      store_of_notMem _ (by rw [length_load]; simp only [p8]; omega)]
  have hsport : ∀ i < 2, udpReplyPacket cfg m (p8 (34 + i)) = addressed cfg m (p8 (36 + i)) := by
    intro i hi
    simp only [p8] at heq ⊢
    rw [heq, store_of_notMem _ (by rw [length_load]; omega),
      store_load_of_mem _ _ (by omega) (by omega)]
    congr 1
    omega
  have hdport : ∀ i < 2, udpReplyPacket cfg m (p8 (36 + i)) = addressed cfg m (p8 (34 + i)) := by
    intro i hi
    simp only [p8] at heq ⊢
    rw [heq, store_load_of_mem _ _ (by omega) (by omega)]
    congr 1
    omega
  constructor
  · intro i hi
    rw [hout _ (by simp only [p8]; omega), haddr.mac i hi]
  · intro i hi
    rw [hout _ (by simp only [p8]; omega), haddr.src i hi]
  · intro i hi
    rw [hout _ (by simp only [p8]; omega), haddr.dst i hi]
  · intro i hi
    rw [hsport i hi, haddr.other _ (by simp only [p8]; omega) (by simp only [p8]; omega)]
  · intro i hi
    rw [hdport i hi, haddr.other _ (by simp only [p8]; omega) (by simp only [p8]; omega)]
  · intro i hmac hrest
    simp only [p8] at hmac hrest
    rw [hout _ (by simp only [p8]; omega), haddr.other _ (by simp only [p8]; omega)
      (by simp only [p8]; omega)]

namespace Answered

variable {m m' : ℕ → UInt8}

lemma get16_eq (h : Answered m m') {a : ℕ} (ha : p8 38 ≤ a) : get16 m' a = get16 m a := by
  simp only [p8] at ha
  exact get16_congr fun c hc _ => h.other c (by simp only [p8]; omega) (by simp only [p8]; omega)

lemma src_eq (h : Answered m m') : get32 m' (p32 7) = get32 m (p32 8) :=
  get32_eq_get32 fun i hi => by simpa only [p8, p32, ← add_assoc] using h.src i hi

lemma dst_eq (h : Answered m m') : get32 m' (p32 8) = get32 m (p32 7) :=
  get32_eq_get32 fun i hi => by simpa only [p8, p32, ← add_assoc] using h.dst i hi

lemma ipChecks (h : Answered m m') (hm : IpChecks m) : IpChecks m' :=
  hm.exchange h.src h.dst fun i hi hi' => h.other i (by simp only [p8] at *; omega) (by omega)

/-- The datagram has the same sum when its ports are exchanged. -/
lemma leSum_segment (h : Answered m m') {len : ℕ} (hlen : 8 ≤ len) :
    leSum (load m' (p8 34) len) = leSum (load m (p8 34) len) := by
  obtain ⟨k, rfl⟩ : ∃ k, len = k + 4 := ⟨len - 4, by omega⟩
  have hwords : ∀ m : ℕ → UInt8, leSum (load m (p8 34) (k + 4)) =
      get16 m (p8 34) + (get16 m (p8 36) + leSum (load m (p8 38) k)) := fun _ => rfl
  have hsport : get16 m' (p8 34) = get16 m (p8 36) :=
    get16_eq_get16 fun i hi => by simpa only [p8, ← add_assoc] using h.sport i hi
  have hdport : get16 m' (p8 36) = get16 m (p8 34) :=
    get16_eq_get16 fun i hi => by simpa only [p8, ← add_assoc] using h.dport i hi
  have hrest : load m' (p8 38) k = load m (p8 38) k :=
    load_congr fun c hc _ => h.other c (by simp only [p8] at *; omega) (by omega)
  rw [hwords, hwords, hsport, hdport, hrest]
  omega

lemma udpChecks (h : Answered m m') (hlen : 8 ≤ udplth m) (hm : UdpChecks m) : UdpChecks m' := by
  have hudplth : udplth m' = udplth m := by
    rw [udplth, udplth, h.get16_eq (by decide)]
  rcases hm with hzero | hones
  · refine Or.inl ?_
    rw [h.get16_eq (by decide), hzero]
  · refine Or.inr ?_
    rw [onesSum_beWords_eq_ones_iff, leSum_pseudoHeader_append] at hones ⊢
    rw [hudplth, h.src_eq, h.dst_eq, h.leSum_segment hlen, sum_pseudoWords_comm]
    exact hones

/-- Sent back twice, the IP and UDP headers are the original ones. -/
lemma headers_eq {m'' : ℕ → UInt8} (h : Answered m m') (h' : Answered m' m'') {i : ℕ}
    (hi : p8 14 ≤ i) (hi' : i < p8 42) : m'' i = m i := by
  have hfield : ∀ {j k}, i = p8 (j + k) → m'' (p8 (j + k)) = m (p8 (j + k)) → m'' i = m i := by
    rintro j k rfl heq
    exact heq
  simp only [p8] at hi hi'
  by_cases hother : i < p8 26 ∨ p8 38 ≤ i
  · simp only [p8] at hother
    rw [h'.other i (by simp only [p8]; omega) (by simp only [p8]; omega),
      h.other i (by simp only [p8]; omega) (by simp only [p8]; omega)]
  simp only [p8] at hother
  by_cases hsrc : i < p8 30
  · have hk : i - 28 < 4 := by simp only [p8] at hsrc; omega
    exact hfield (k := i - 28) (by simp only [p8] at *; omega)
      ((h'.src _ hk).trans (h.dst _ hk))
  by_cases hdst : i < p8 34
  · have hk : i - 32 < 4 := by simp only [p8] at hdst; omega
    exact hfield (k := i - 32) (by simp only [p8] at *; omega)
      ((h'.dst _ hk).trans (h.src _ hk))
  by_cases hsport : i < p8 36
  · have hk : i - 36 < 2 := by simp only [p8] at hsport; omega
    exact hfield (k := i - 36) (by simp only [p8] at *; omega)
      ((h'.sport _ hk).trans (h.dport _ hk))
  · have hk : i - 38 < 2 := by omega
    exact hfield (k := i - 38) (by simp only [p8] at *; omega)
      ((h'.dport _ hk).trans (h.sport _ hk))

end Answered

/-- **`udp_reply` sends a datagram back with valid checksums.**  The frame that it passes to
`outgoing`, and leaves in the buffer, is the received one with the sender's hardware address
as its destination and with addresses and ports exchanged; the checksums, which it does not
compute, are still valid; and the peer's `udp_reply` restores the IP and UDP headers. -/
theorem udpReply_answers {n : Node} {m : ℕ → UInt8} {len : ℕ} (h : UdpFrame n.cfg m len) :
    (udpReply n m len).1.sent = n.sent ++ [load (udpReply n m len).2 0 len] ∧
      Answered m (udpReply n m len).2 ∧
      (IpChecks (udpReply n m len).2 ∧ UdpChecks (udpReply n m len).2) ∧
      ∀ peer : Node, peer.cfg.myaddress = get32 m (p32 7) → ∀ i, p8 14 ≤ i → i < p8 42 →
        (udpReply peer (udpReply n m len).2 len).2 i = m i := by
  have hanswer : Answered m (udpReply n m len).2 := answered_udpReplyPacket h.dst_eq
  refine ⟨rfl, hanswer,
    ⟨hanswer.ipChecks h.ipChecks, hanswer.udpChecks h.le_udplth h.udpChecks⟩, ?_⟩
  intro peer hpeer i hi hi'
  exact hanswer.headers_eq (answered_udpReplyPacket (hanswer.dst_eq.trans hpeer.symm)) hi hi'

/-- A datagram of three bytes from 192.168.1.4. -/
def datagramFrame (i : ℕ) : UInt8 :=
  [0, 0,
   0x04, 0xE9, 0xE5, 0x00, 0x00, 0x01, 0x00, 0x13, 0x20, 0x2E, 0x53, 0x90, 0x08, 0x00,
   0x45, 0x00, 0x00, 0x1F, 0x12, 0x34, 0x00, 0x00, 0x40, 0x11, 0xE5, 0x34,
   0xC0, 0xA8, 0x01, 0x04, 0xC0, 0xA8, 0x01, 0x11,
   0x1D, 0xE6, 0x00, 0x07, 0x00, 0x0B, 0x9A, 0x22, 0x61, 0x62, 0x63].getD i 0

lemma udpFrame_datagramFrame : UdpFrame sketchConfig datagramFrame 47 where
  type_eq := by decide
  proto_eq := by decide
  dst_eq := by decide
  header_eq := by decide
  le_udplth := by decide
  udplth_le := by decide
  ipChecks := by
    rw [IpChecks]
    decide
  udpChecks := by
    refine Or.inr ?_
    decide

/-- It is sent back with its odd length and a checksum that is not zero. -/
theorem udpReply_answers_datagramFrame :
    IpChecks (udpReply (Node.init sketchConfig) datagramFrame 47).2 ∧
      UdpChecks (udpReply (Node.init sketchConfig) datagramFrame 47).2 ∧
      get16 (udpReply (Node.init sketchConfig) datagramFrame 47).2 (p16 20) ≠ 0 := by
  have hreply := udpReply_answers (n := Node.init sketchConfig) udpFrame_datagramFrame
  exact ⟨hreply.2.2.1.1, hreply.2.2.1.2, by decide⟩

end Teensy41Ethernet.Etherraw
