import Teensy41Ethernet.Etherraw.Arp
import Teensy41Ethernet.Etherraw.Answers

/-!
# What `handle_frame` makes of a frame

`handle_frame` reads the fields of a frame at fixed offsets, as if every IP packet had version 4
and a header of 20 bytes and were no fragment.  `classify` is its decision, and `act` what follows
from it.  The first part compares the decision with the format of the packets
(`handleFrame_classifies_iff`).

A datagram that is recognised is copied to `UDP_buff` with the length of the frame, and `recvfrom`
copies as many bytes out of it as the length field of the UDP header says.  Nothing relates the
two lengths, the size of the buffer and the room that the caller has; the second part says when
they fit (`recvfrom_contained_iff`).
-/

namespace Teensy41Ethernet.Etherraw

open Lib

/-! ### The decision -/

/-- What `handle_frame` does with a frame, besides counting it. -/
inductive Action where
  | pingReply
  | queueUdp
  | countIcmp
  | countTcp
  | arpParse
  | countIp
  | nothing
deriving DecidableEq

/-- The tests of `handle_frame`. -/
def classify (cfg : Config) (packet : ℕ → UInt8) : Action :=
  if get16 packet (p16 6) = 0x0008 then
    if packet (p8 23) = 1 ∧ get32 packet (p32 8) = cfg.myaddress then
      if packet (p8 34) = 8 then .pingReply else .countIcmp
    else if packet (p8 23) = 17 ∧ get32 packet (p32 8) = cfg.myaddress then .queueUdp
    else if packet (p8 23) = 6 ∧ get32 packet (p32 8) = cfg.myaddress then .countTcp
    else .countIp
  else if get16 packet (p16 6) = 0x0608 then .arpParse
  else .nothing

/-- The node that has counted the frame. -/
def Node.counted (n : Node) (packet : ℕ → UInt8) : Node :=
  { n with
    inpkts := n.inpkts + 1
    bcast := if packet (p8 0) = 0xff then n.bcast + 1 else n.bcast
    mcast := if packet (p8 0) = 1 then n.mcast + 1 else n.mcast }

/-- What follows from the decision. -/
def act (n : Node) (packet : ℕ → UInt8) (len : ℕ) (stack : ℕ → UInt8) : Action → Node
  | .pingReply => Etherraw.pingReply
      { n with ippkts := n.ippkts + 1, ipkts := n.ipkts + 1 } packet len stack
  | .queueUdp =>
      { n with
        ippkts := n.ippkts + 1
        udpBuff := store n.udpBuff 0 (load packet 0 len)
        udpLth := len }
  | .countIcmp => { n with ippkts := n.ippkts + 1, ipkts := n.ipkts + 1 }
  | .countTcp => { n with ippkts := n.ippkts + 1, tpkts := n.tpkts + 1 }
  | .arpParse => Etherraw.arpParse n packet stack
  | .countIp => { n with ippkts := n.ippkts + 1 }
  | .nothing => n

lemma handleFrame_eq_act (n : Node) (packet : ℕ → UInt8) (len : ℕ) (stack : ℕ → UInt8) :
    handleFrame n packet len stack =
      act (n.counted packet) packet len stack (classify n.cfg packet) := by
  unfold handleFrame classify
  dsimp only
  split
  · split
    · split <;> rfl
    · split
      · rfl
      · split <;> rfl
  · split <;> rfl

/-- The frame is seen as an IP packet with this protocol to the node. -/
def Seen (cfg : Config) (packet : ℕ → UInt8) (proto : UInt8) : Prop :=
  get16 packet (p16 6) = 0x0008 ∧ packet (p8 23) = proto ∧ get32 packet (p32 8) = cfg.myaddress

instance (cfg : Config) (packet : ℕ → UInt8) (proto : UInt8) : Decidable (Seen cfg packet proto) :=
  inferInstanceAs (Decidable (_ ∧ _ ∧ _))

section Decision

variable {cfg : Config} {packet : ℕ → UInt8}

lemma Seen.proto_eq {p q : UInt8} (h : Seen cfg packet p) (h' : Seen cfg packet q) : p = q :=
  h.2.1.symm.trans h'.2.1

lemma classify_eq_pingReply_iff :
    classify cfg packet = .pingReply ↔ Seen cfg packet 1 ∧ packet (p8 34) = 8 := by
  unfold classify Seen
  split_ifs <;> simp_all

lemma classify_eq_queueUdp_iff : classify cfg packet = .queueUdp ↔ Seen cfg packet 17 := by
  unfold classify Seen
  split_ifs <;> simp_all

end Decision

/-! ### The format of the packets -/

section Format

variable (frame : List UInt8)

/-- The version in the IP header, which begins behind the padding and the Ethernet header. -/
def ipVersion : ℕ := (frame.getD 16 0).toNat / 16

/-- The length of the IP header in words. -/
def ihl : ℕ := (frame.getD 16 0).toNat % 16

/-- The fragment offset. -/
def fragmentOffset : ℕ := be16 frame 22 % 8192

/-- The flag that more fragments follow. -/
def moreFragments : Bool := be16 frame 22 / 8192 % 2 == 1

/-- Where the header of the IP packet ends. -/
def headerEnd : ℕ := 16 + 4 * ihl frame

variable (cfg : Config)

/-- An IPv4 packet to the node. -/
structure IsIpv4 (proto : UInt8) : Prop where
  etherType : (frame.drop 14).take 2 = [0x08, 0x00]
  version : ipVersion frame = 4
  proto : (frame.drop 25).take 1 = [proto]
  dst : (frame.drop 32).take 4 = cfg.addr

/-- The first fragment of an ICMP message to the node, or all of it, with type 8. -/
structure IsEchoRequest : Prop extends IsIpv4 frame cfg 1 where
  offset : fragmentOffset frame = 0
  type : frame[headerEnd frame]? = some 8

/-- A UDP datagram to the node in one packet, its header behind that of the IP packet. -/
structure IsDatagram : Prop extends IsIpv4 frame cfg 17 where
  offset : fragmentOffset frame = 0
  last : moreFragments frame = false
  room : headerEnd frame + 8 ≤ frame.length

/-- Version 4 and fragment offset 0, in a frame that reaches the end of a header of 20 bytes. -/
structure IsFirst : Prop where
  le_length : 36 ≤ frame.length
  version : ipVersion frame = 4
  offset : fragmentOffset frame = 0

/-- What is seen as ICMP is told apart by the byte behind a header of 20 bytes: this byte must say
what the byte behind the header says, and must not be 8 in other versions and later fragments. -/
structure IcmpReadable (packet : ℕ → UInt8) : Prop where
  type_iff : Seen cfg packet 1 → IsFirst frame →
    (packet (p8 34) = 8 ↔ frame[headerEnd frame]? = some 8)
  type_ne : Seen cfg packet 1 → ¬ IsFirst frame → packet (p8 34) ≠ 8

/-- What is seen as UDP is a datagram. -/
structure UdpReadable (packet : ℕ → UInt8) : Prop where
  isFirst : Seen cfg packet 17 → IsFirst frame
  last : Seen cfg packet 17 → moreFragments frame = false
  room : Seen cfg packet 17 → headerEnd frame + 8 ≤ frame.length

end Format

section Compare

variable {n : Node} {cfg : Config} {packet : ℕ → UInt8} {frame : List UInt8}

/-- The format of an IPv4 packet in terms of the words that `handle_frame` reads. -/
lemma isIpv4_iff (hframe : load packet 0 frame.length = frame) {proto : UInt8} :
    IsIpv4 frame cfg proto ↔
      36 ≤ frame.length ∧ ipVersion frame = 4 ∧ Seen cfg packet proto := by
  have hseen : 36 ≤ frame.length → (Seen cfg packet proto ↔ (frame.drop 14).take 2 = [0x08, 0x00] ∧
      (frame.drop 25).take 1 = [proto] ∧ (frame.drop 32).take 4 = cfg.addr) := by
    intro hlen
    rw [take_drop_of_load hframe (by omega), take_drop_of_load hframe (by omega),
      take_drop_of_load hframe (by omega), Seen, get16_eq_iff (by decide),
      get32_eq_iff cfg.myaddress_lt]
    have hproto : packet (p8 23) = proto ↔ load packet 25 1 = [proto] := by simp [load, p8]
    rw [hproto]
    rfl
  constructor
  · intro h
    have hlen : 36 ≤ frame.length := by
      have hdst := congrArg List.length h.dst
      rw [List.length_take, List.length_drop, Config.addr, bytes32] at hdst
      simp only [List.length_cons, List.length_nil] at hdst
      omega
    exact ⟨hlen, h.version, (hseen hlen).mpr ⟨h.etherType, h.proto, h.dst⟩⟩
  · rintro ⟨hlen, hversion, h⟩
    obtain ⟨htype, hproto, hdst⟩ := (hseen hlen).mp h
    exact ⟨htype, hversion, hproto, hdst⟩

lemma isEchoRequest_iff (hframe : load packet 0 frame.length = frame) :
    IsEchoRequest frame cfg ↔
      Seen cfg packet 1 ∧ IsFirst frame ∧ frame[headerEnd frame]? = some 8 := by
  constructor
  · intro h
    obtain ⟨hlen, hversion, hseen⟩ := (isIpv4_iff hframe).mp h.toIsIpv4
    exact ⟨hseen, ⟨hlen, hversion, h.offset⟩, h.type⟩
  · rintro ⟨hseen, hfirst, htype⟩
    exact ⟨(isIpv4_iff hframe).mpr ⟨hfirst.le_length, hfirst.version, hseen⟩, hfirst.offset, htype⟩

lemma isDatagram_iff (hframe : load packet 0 frame.length = frame) :
    IsDatagram frame cfg ↔ Seen cfg packet 17 ∧ IsFirst frame ∧ moreFragments frame = false ∧
      headerEnd frame + 8 ≤ frame.length := by
  constructor
  · intro h
    obtain ⟨hlen, hversion, hseen⟩ := (isIpv4_iff hframe).mp h.toIsIpv4
    exact ⟨hseen, ⟨hlen, hversion, h.offset⟩, h.last, h.room⟩
  · rintro ⟨hseen, hfirst, hlast, hroom⟩
    exact ⟨(isIpv4_iff hframe).mpr ⟨hfirst.le_length, hfirst.version, hseen⟩, hfirst.offset, hlast,
      hroom⟩

lemma pingReply_iff_isEchoRequest_iff (cfg : Config)
    (hframe : load packet 0 frame.length = frame) :
    (classify cfg packet = .pingReply ↔ IsEchoRequest frame cfg) ↔
      IcmpReadable frame cfg packet := by
  rw [classify_eq_pingReply_iff, isEchoRequest_iff hframe]
  constructor
  · intro h
    refine ⟨fun hseen hfirst => ?_, fun hseen hfirst htype => ?_⟩
    · rwa [and_iff_right hseen, and_iff_right hseen, and_iff_right hfirst] at h
    · exact hfirst (h.mp ⟨hseen, htype⟩).2.1
  · intro h
    by_cases hseen : Seen cfg packet 1
    · by_cases hfirst : IsFirst frame
      · rw [and_iff_right hseen, and_iff_right hseen, and_iff_right hfirst, h.type_iff hseen hfirst]
      · exact iff_of_false (fun hc => h.type_ne hseen hfirst hc.2) (fun hc => hfirst hc.2.1)
    · exact iff_of_false (fun hc => hseen hc.1) (fun hc => hseen hc.1)

lemma queueUdp_iff_isDatagram_iff (cfg : Config)
    (hframe : load packet 0 frame.length = frame) :
    (classify cfg packet = .queueUdp ↔ IsDatagram frame cfg) ↔ UdpReadable frame cfg packet := by
  rw [classify_eq_queueUdp_iff, isDatagram_iff hframe]
  constructor
  · intro h
    exact ⟨fun hseen => (h.mp hseen).2.1, fun hseen => (h.mp hseen).2.2.1,
      fun hseen => (h.mp hseen).2.2.2⟩
  · intro h
    exact ⟨fun hseen => ⟨hseen, h.isFirst hseen, h.last hseen, h.room hseen⟩, fun hd => hd.1⟩

end Compare

/-- **What `handle_frame` answers and queues.**  It acts on the decision of `classify`.  For a frame
it answers with `ping_reply` exactly the echo requests for the node and queues exactly the
datagrams whose header is where `recvfrom` takes it to be, if and only if the frame is readable
at the fixed offsets; the last part is the same for datagrams with a header anywhere. -/
theorem handleFrame_classifies_iff (n : Node) (packet stack : ℕ → UInt8) (frame : List UInt8)
    (hframe : load packet 0 frame.length = frame) :
    handleFrame n packet frame.length stack =
        act (n.counted packet) packet frame.length stack (classify n.cfg packet) ∧
      (((classify n.cfg packet = .pingReply ↔ IsEchoRequest frame n.cfg) ∧
          (classify n.cfg packet = .queueUdp ↔
            IsDatagram frame n.cfg ∧ headerEnd frame = p8 34)) ↔
        IcmpReadable frame n.cfg packet ∧ UdpReadable frame n.cfg packet ∧
          (Seen n.cfg packet 17 → headerEnd frame = p8 34)) ∧
      (((classify n.cfg packet = .pingReply ↔ IsEchoRequest frame n.cfg) ∧
          (classify n.cfg packet = .queueUdp ↔ IsDatagram frame n.cfg)) ↔
        IcmpReadable frame n.cfg packet ∧ UdpReadable frame n.cfg packet) := by
  have hecho := pingReply_iff_isEchoRequest_iff n.cfg hframe
  have hudp := queueUdp_iff_isDatagram_iff n.cfg hframe
  refine ⟨handleFrame_eq_act n packet _ stack, and_congr hecho ?_, and_congr hecho hudp⟩
  rw [← hudp, classify_eq_queueUdp_iff]
  constructor
  · intro h
    refine ⟨⟨fun hseen => (h.mp hseen).1, fun hd => ?_⟩, fun hseen => (h.mp hseen).2⟩
    exact ((isDatagram_iff hframe).mp hd).1
  · rintro ⟨h, hend⟩
    exact ⟨fun hseen => ⟨h.mp hseen, hend hseen⟩, fun hd => h.mpr hd.1⟩

/-- A datagram of 20 bytes from 192.168.1.4 to 192.168.1.17, in a packet without options. -/
def plainDatagram : List UInt8 :=
  [0, 0,
   0x04, 0xE9, 0xE5, 0x00, 0x00, 0x01, 0x00, 0x13, 0x20, 0x2E, 0x53, 0x90, 0x08, 0x00,
   0x45, 0, 0, 40, 0, 1, 0, 0, 64, 17, 0, 0, 0xC0, 0xA8, 0x01, 0x04, 0xC0, 0xA8, 0x01, 0x11,
   0x07, 0xD0, 0x07, 0xD0, 0, 20, 0, 0, 1, 2, 3, 4, 5, 6, 7, 8, 9, 10, 11, 12]

theorem handleFrame_classifies_plainDatagram :
    (classify sketchConfig (fun i => plainDatagram.getD i 0) = .pingReply ↔
        IsEchoRequest plainDatagram sketchConfig) ∧
      (classify sketchConfig (fun i => plainDatagram.getD i 0) = .queueUdp ↔
        IsDatagram plainDatagram sketchConfig ∧ headerEnd plainDatagram = p8 34) := by
  have hseen : Seen sketchConfig (fun i => plainDatagram.getD i 0) 17 := by decide
  have h := handleFrame_classifies_iff (Node.init sketchConfig) (fun i => plainDatagram.getD i 0)
    (fun _ => 0xAA) plainDatagram rfl
  refine h.2.1.mpr ⟨⟨fun hicmp => ?_, fun hicmp => ?_⟩, ⟨fun _ => ?_, fun _ => rfl, fun _ => ?_⟩,
    fun _ => rfl⟩
  · exact absurd (hicmp.proto_eq hseen) (by decide)
  · exact absurd (hicmp.proto_eq hseen) (by decide)
  · exact ⟨by decide, rfl, rfl⟩
  · exact (by decide : headerEnd plainDatagram + 8 ≤ plainDatagram.length)

/-- The second fragment of a datagram from 192.168.1.4 to 192.168.1.17. -/
def laterFragment : List UInt8 :=
  [0, 0,
   0x04, 0xE9, 0xE5, 0x00, 0x00, 0x01, 0x00, 0x13, 0x20, 0x2E, 0x53, 0x90, 0x08, 0x00,
   0x45, 0, 0, 40, 0, 1, 0, 185, 64, 17, 0, 0, 0xC0, 0xA8, 0x01, 0x04, 0xC0, 0xA8, 0x01, 0x11,
   1, 2, 3, 4, 5, 6, 7, 8, 9, 10, 11, 12, 13, 14, 15, 16, 17, 18, 19, 20]

/-- An echo request in a packet with four bytes of options, which do nothing. -/
def requestWithOptions : List UInt8 :=
  [0, 0,
   0x04, 0xE9, 0xE5, 0x00, 0x00, 0x01, 0x00, 0x13, 0x20, 0x2E, 0x53, 0x90, 0x08, 0x00,
   0x46, 0, 0, 32, 0, 1, 0, 0, 64, 1, 0, 0, 0xC0, 0xA8, 0x01, 0x04, 0xC0, 0xA8, 0x01, 0x11,
   1, 1, 1, 0, 8, 0, 0xF7, 0xFF, 0, 0, 0, 0]

/-- A fragment without a UDP header is queued, and an echo request with options is not answered. -/
theorem handleFrame_misclassifies :
    (classify sketchConfig (fun i => laterFragment.getD i 0) = .queueUdp ∧
        ¬ IsDatagram laterFragment sketchConfig) ∧
      classify sketchConfig (fun i => requestWithOptions.getD i 0) = .countIcmp ∧
        IsEchoRequest requestWithOptions sketchConfig := by
  refine ⟨⟨by decide, fun h => ?_⟩, by decide, ⟨rfl, rfl, rfl, rfl⟩, rfl, rfl⟩
  exact absurd h.offset (by decide)

/-! ### `UDP_buff` -/

/-- How many bytes `handle_frame` copies to `UDP_buff`. -/
def copied (cfg : Config) (packet : ℕ → UInt8) (len : ℕ) : ℕ :=
  if classify cfg packet = .queueUdp then len else 0

section Buffer

variable (n : Node) (packet stack : ℕ → UInt8) (len : ℕ)

lemma udp_act (a : Action) :
    (act n packet len stack a).udpBuff =
        (if a = .queueUdp then store n.udpBuff 0 (load packet 0 len) else n.udpBuff) ∧
      (act n packet len stack a).udpLth = if a = .queueUdp then len else n.udpLth := by
  cases a with
  | queueUdp => exact ⟨rfl, rfl⟩
  | pingReply =>
    simp only [act, Etherraw.pingReply, outgoing]
    split <;> exact ⟨rfl, rfl⟩
  | arpParse =>
    simp only [act, Etherraw.arpParse, arpReply, outgoing]
    split
    · split <;> exact ⟨rfl, rfl⟩
    · exact ⟨rfl, rfl⟩
  | _ => exact ⟨rfl, rfl⟩

lemma udpBuff_handleFrame : (handleFrame n packet len stack).udpBuff =
    store n.udpBuff 0 (load packet 0 (copied n.cfg packet len)) := by
  rw [handleFrame_eq_act, (udp_act _ packet stack len _).1, copied]
  split <;> rfl

lemma udpLth_handleFrame : (handleFrame n packet len stack).udpLth =
    if classify n.cfg packet = .queueUdp then len else n.udpLth := by
  rw [handleFrame_eq_act, (udp_act _ packet stack len _).2]
  rfl

end Buffer

/-- `recvfrom` copies as many bytes as it returns, no more than the caller has room for and no
more than there are behind the headers of the frame. -/
def ReceivesWithin (n : Node) (room : ℕ) : Prop :=
  ∃ data lth n', recvfrom n = some (data, lth, n') ∧ (data.length : ℤ) = lth ∧ 0 ≤ lth ∧
    lth ≤ room ∧ lth ≤ (n.udpLth : ℤ) - 44

/-- The length field of the datagram counts its header, and what it counts is in the frame and
fits the room of the caller. -/
structure LengthFits (packet : ℕ → UInt8) (len room : ℕ) : Prop where
  le_udplth : 8 ≤ udplth packet
  le_room : udplth packet ≤ 8 + room
  le_len : p8 34 + udplth packet ≤ len

lemma receivesWithin_iff (n : Node) (room : ℕ) :
    ReceivesWithin n room ↔ LengthFits n.udpBuff n.udpLth room := by
  have hlth : ((swap2 (get16 n.udpBuff (p16 19)) : ℕ) : ℤ) = udplth n.udpBuff := rfl
  constructor
  · rintro ⟨data, lth, n', h, -, hpos, hroom, hlen⟩
    simp only [recvfrom, hlth] at h
    split at h
    · exact absurd h (by simp)
    · obtain ⟨-, rfl, -⟩ := h
      refine ⟨by omega, by omega, ?_⟩
      simp only [p8]
      omega
  · intro h
    have hlow := h.le_udplth
    have hroom := h.le_room
    have hlen := h.le_len
    simp only [p8] at hlen
    refine ⟨_, _, _, if_neg ?_, ?_, ?_, ?_, ?_⟩ <;> simp only [hlth]
    · omega
    · rw [length_load]
      omega
    all_goals omega

/-- The length field is copied with the frame. -/
lemma lengthFits_store (m packet : ℕ → UInt8) (len room : ℕ) :
    LengthFits (store m 0 (load packet 0 len)) len room ↔ LengthFits packet len room := by
  have hfield : 44 ≤ len → udplth (store m 0 (load packet 0 len)) = udplth packet := by
    intro hlen
    rw [udplth, udplth, get16_congr fun c hc hc' => ?_]
    simp only [p16] at hc hc'
    rw [store_load_of_mem m packet (Nat.zero_le c) (by omega), Nat.zero_add, Nat.sub_zero]
  constructor
  · rintro ⟨hlow, hroom, hlen⟩
    have h := hfield (by simp only [p8] at hlen; omega)
    rw [h] at hlow hroom hlen
    exact ⟨hlow, hroom, hlen⟩
  · rintro ⟨hlow, hroom, hlen⟩
    have h := hfield (by simp only [p8] at hlen; omega)
    rw [← h] at hlow hroom hlen
    exact ⟨hlow, hroom, hlen⟩

/-- **Received datagrams in their buffers.**  For a frame of any length and contents, `handle_frame`
copies no more than `UDP_buff` holds and the next `recvfrom` keeps to the room of the caller and
to what was received, if and only if a frame that is seen as UDP fits `UDP_buff` and has a
fitting length field; after another frame `recvfrom` depends on what `UDP_buff` held before. -/
theorem recvfrom_contained_iff (n : Node) (packet stack : ℕ → UInt8) (len room : ℕ) :
    (handleFrame n packet len stack).udpBuff =
        store n.udpBuff 0 (load packet 0 (copied n.cfg packet len)) ∧
      (copied n.cfg packet len ≤ buffSize ∧
          ReceivesWithin (handleFrame n packet len stack) room ↔
        if Seen n.cfg packet 17 then len ≤ buffSize ∧ LengthFits packet len room
        else LengthFits n.udpBuff n.udpLth room) := by
  refine ⟨udpBuff_handleFrame n packet stack len, ?_⟩
  rw [receivesWithin_iff, udpBuff_handleFrame, udpLth_handleFrame, copied]
  by_cases hseen : Seen n.cfg packet 17
  · have hqueue := classify_eq_queueUdp_iff.mpr hseen
    rw [if_pos hqueue, if_pos hqueue, if_pos hseen, lengthFits_store]
  · have hqueue := mt classify_eq_queueUdp_iff.mp hseen
    rw [if_neg hqueue, if_neg hqueue, if_neg hseen, load, store]
    exact and_iff_right (Nat.zero_le _)

/-- A frame that is longer than `UDP_buff` is copied whole.  With a length field of 0 `recvfrom`
passes a negative length to `memcpy`, and with one of 65535 it copies 65527 bytes of a frame
of 56. -/
theorem recvfrom_leaves_buffers :
    buffSize < copied sketchConfig (fun i => plainDatagram.getD i 0) 1536 ∧
      recvfrom (handleFrame (Node.init sketchConfig)
        (fun i => (plainDatagram.set 41 0).getD i 0) 56 fun _ => 0xAA) = none ∧
      ¬ ReceivesWithin (handleFrame (Node.init sketchConfig)
        (fun i => ((plainDatagram.set 40 0xFF).set 41 0xFF).getD i 0) 56 fun _ => 0xAA) 1472 := by
  refine ⟨by decide, ?_, fun h => ?_⟩
  · rw [recvfrom]
    exact if_pos (by decide +kernel)
  · exact absurd ((receivesWithin_iff _ _).mp h).le_room (by decide +kernel)

end Teensy41Ethernet.Etherraw
