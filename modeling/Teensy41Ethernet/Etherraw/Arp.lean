import Teensy41Ethernet.Etherraw.Node
import Teensy41Ethernet.Lib.Word

/-!
# The ARP responder

`arp_parse` looks at an ARP packet through 32-bit words that do not respect its fields, and
`arp_reply` composes the answer out of such words: a word of the answer has bytes of `MACADDR1`
and `MACADDR2`, or of `myaddress` and of the hardware address of the request.  Here a packet is
the list of its fields in network order, and the answer is compared with it byte by byte.
-/

namespace Teensy41Ethernet.Etherraw

open Lib

/-! ### ARP packets -/

/-- The addresses of an ARP packet for IPv4 on Ethernet: hardware and protocol address of the
sender and of the target. -/
structure Arp where
  sha : List UInt8
  spa : List UInt8
  tha : List UInt8
  tpa : List UInt8
  length_sha : sha.length = 6
  length_spa : spa.length = 4
  length_tha : tha.length = 6
  length_tpa : tpa.length = 4

/-- The packet with operation `op`: hardware type 1, protocol 0x0800, lengths 6 and 4. -/
def Arp.bytes (a : Arp) (op : UInt8) : List UInt8 :=
  [0x00, 0x01, 0x08, 0x00, 6, 4, 0x00, op] ++ a.sha ++ a.spa ++ a.tha ++ a.tpa

/-- The hardware address of the node. -/
def Config.mac (cfg : Config) : List UInt8 :=
  [UInt8.ofNat (cfg.macaddr1 / 65536), UInt8.ofNat (cfg.macaddr1 / 256), UInt8.ofNat cfg.macaddr1,
   UInt8.ofNat (cfg.macaddr2 / 65536), UInt8.ofNat (cfg.macaddr2 / 256), UInt8.ofNat cfg.macaddr2]

/-- The IP address of the node. -/
def Config.addr (cfg : Config) : List UInt8 := bytes32 cfg.myaddress

/-- The answer of the node: it is the sender, and the target is who has asked. -/
def Arp.reply (a : Arp) (cfg : Config) : Arp where
  sha := cfg.mac
  spa := cfg.addr
  tha := a.sha
  tpa := a.spa
  length_sha := rfl
  length_spa := rfl
  length_tha := a.length_sha
  length_tpa := a.length_spa

/-- A frame with an ARP packet, behind two bytes of padding. -/
def arpFrame (dst src body : List UInt8) : List UInt8 :=
  [0, 0] ++ dst ++ src ++ [0x08, 0x06] ++ body

/-! ### Words out of bytes -/

section Reply

variable (cfg : Config) (mac : ℕ → UInt8)

/-- `packet[6]`: `MACADDR1` and the first byte of `MACADDR2`. -/
lemma bytes32_word6 :
    bytes32 (swap4 cfg.macaddr1 >>> 8 ||| (cfg.macaddr2 <<< 8 % 2 ^ 32 &&& 0xFF000000)) =
      cfg.mac.take 4 := by
  have h₁ := cfg.macaddr1_lt
  have h₂ := cfg.macaddr2_lt
  have hhigh : cfg.macaddr2 <<< 8 % 2 ^ 32 &&& 0xFF000000 = (cfg.macaddr2 / 65536) <<< 24 := by
    have hand := and_high (x := cfg.macaddr2 <<< 8 % 2 ^ 32) (k := 24) (w := 8)
      (Nat.mod_lt _ (by decide))
    rw [show (0xFF000000 : ℕ) = (2 ^ 8 - 1) <<< 24 by rfl, hand, Nat.shiftLeft_eq, Nat.shiftLeft_eq]
    omega
  have hlow : swap4 cfg.macaddr1 >>> 8 < 2 ^ 24 := by
    rw [Nat.shiftRight_eq_div_pow, swap4, swap2, swap2]
    omega
  rw [hhigh, or_shiftLeft hlow]
  refine Eq.trans (congrArg bytes32 ?_) (bytes32_add _ _ _ _)
  rw [Nat.shiftRight_eq_div_pow, swap4, swap2, swap2]
  simp only [UInt8.toNat_ofNat']
  omega

/-- `packet[7]`: the rest of `MACADDR2` and the first half of `myaddress`. -/
lemma bytes32_word7 :
    bytes32 (swap2 (cfg.macaddr2 &&& 0xFFFF) ||| cfg.myaddress <<< 16 % 2 ^ 32) =
      cfg.mac.drop 4 ++ cfg.addr.take 2 := by
  have hlow : cfg.macaddr2 &&& 0xFFFF = cfg.macaddr2 % 65536 :=
    Nat.and_two_pow_sub_one_eq_mod _ 16
  have hhigh : cfg.myaddress <<< 16 % 2 ^ 32 = (cfg.myaddress % 65536) <<< 16 := by
    rw [Nat.shiftLeft_eq, Nat.shiftLeft_eq]
    omega
  rw [hlow, hhigh, or_shiftLeft (swap2_lt _)]
  refine Eq.trans (congrArg bytes32 ?_) (bytes32_add _ _ _ _)
  rw [swap2]
  simp only [UInt8.toNat_ofNat']
  omega

/-- `packet[8]`: the second half of `myaddress` and the beginning of the hardware address. -/
lemma bytes32_word8 :
    bytes32 ((cfg.myaddress &&& 0xFFFF0000) >>> 16 ||| (mac 0).toNat <<< 16 |||
        (mac 1).toNat <<< 24) =
      cfg.addr.drop 2 ++ load mac 0 2 := by
  have h := cfg.myaddress_lt
  have h₀ := (mac 0).toNat_lt
  have hlow : (cfg.myaddress &&& 0xFFFF0000) >>> 16 = cfg.myaddress / 65536 := by
    have hand := and_high (x := cfg.myaddress) (k := 16) (w := 16) h
    rw [show (0xFFFF0000 : ℕ) = (2 ^ 16 - 1) <<< 16 by rfl, hand, Nat.shiftRight_eq_div_pow]
    exact Nat.mul_div_cancel _ (by decide)
  have hmid : cfg.myaddress / 65536 ||| (mac 0).toNat <<< 16 =
      cfg.myaddress / 65536 + 2 ^ 16 * (mac 0).toNat := or_shiftLeft (by omega)
  rw [hlow, hmid, or_shiftLeft (by omega), show load mac 0 2 = [mac 0, mac 1] by rfl]
  refine Eq.trans (congrArg bytes32 ?_) (bytes32_add _ _ _ _)
  simp only [UInt8.toNat_ofNat']
  omega

/-- `packet[9]`: the rest of the hardware address. -/
lemma bytes32_word9 :
    bytes32 ((mac 5).toNat <<< 24 ||| (mac 4).toNat <<< 16 ||| (mac 3).toNat <<< 8 |||
        (mac 2).toNat) =
      load mac 2 4 := by
  have h₂ := (mac 2).toNat_lt
  have h₃ := (mac 3).toNat_lt
  have h₄ := (mac 4).toNat_lt
  have hsum : (mac 5).toNat <<< 24 ||| (mac 4).toNat <<< 16 ||| (mac 3).toNat <<< 8 |||
      (mac 2).toNat = get32 mac 2 := by
    have hlow : (mac 2).toNat ||| (mac 3).toNat <<< 8 = (mac 2).toNat + 2 ^ 8 * (mac 3).toNat :=
      or_shiftLeft h₂
    have hmid : (mac 2).toNat + 2 ^ 8 * (mac 3).toNat ||| (mac 4).toNat <<< 16 =
        (mac 2).toNat + 2 ^ 8 * (mac 3).toNat + 2 ^ 16 * (mac 4).toNat := or_shiftLeft (by omega)
    rw [Nat.or_comm, Nat.or_comm _ ((mac 3).toNat <<< 8), Nat.or_comm ((mac 5).toNat <<< 24),
      ← Nat.or_assoc, ← Nat.or_assoc, hlow, hmid, or_shiftLeft (by omega)]
    simp only [get32, get16, Nat.reduceAdd]
    omega
  rw [hsum, bytes32_get32]

/-- **The packet of `arp_reply`**, byte by byte. -/
lemma load_arpPacket (ip : ℕ) (stack : ℕ → UInt8) :
    load (arpPacket cfg mac ip stack) 0 44 =
      arpFrame (load mac 0 6) (List.replicate 6 0)
        ([0x00, 0x01, 0x08, 0x00, 6, 4, 0x00, 2] ++ cfg.mac ++ cfg.addr ++ load mac 0 6 ++
          bytes32 ip) := by
  -- each store extends the part that is known, from the padding on
  have hext : ∀ {m : ℕ → UInt8} {k : ℕ} {l : List UInt8}, load m 0 k = l →
      ∀ xs k', k + xs.length = k' → load (store m k xs) 0 k' = l ++ xs := by
    rintro m k l h xs k' rfl
    have hend := load_store_end m 0 k xs
    rwa [Nat.zero_add, h] at hend
  have hpad : load (store stack 0 (bytes32 0)) 0 2 = [0, 0] := rfl
  have hdst := hext hpad (load mac 0 6) 8 rfl
  have htype := hext (hext (hext hdst (List.replicate 6 0) 14 rfl) [8] 15 rfl) [6] 16 rfl
  have hfields := hext (hext htype (bytes32 0x00080100) 20 rfl) (bytes32 0x02000406) 24 rfl
  have hsha := hext (hext hfields (cfg.mac.take 4) 28 rfl) (cfg.mac.drop 4 ++ cfg.addr.take 2) 32
    rfl
  have htha := hext (hext hsha (cfg.addr.drop 2 ++ load mac 0 2) 36 rfl) (load mac 2 4) 40 rfl
  have hpacket := hext htha (bytes32 ip) 44 rfl
  -- the words put together again as fields
  have hwords : ∀ l, bytes32 0x00080100 ++ (bytes32 0x02000406 ++ l) =
      [0x00, 0x01, 0x08, 0x00, 6, 4, 0x00, 2] ++ l := by
    intro l
    rw [← List.append_assoc, show bytes32 0x00080100 ++ bytes32 0x02000406 =
      [0x00, 0x01, 0x08, 0x00, 6, 4, 0x00, 2] by decide]
  have hsplit : ∀ (k : ℕ) (l l' : List UInt8), l.take k ++ (l.drop k ++ l') = l ++ l' := by
    intro k l l'
    rw [← List.append_assoc, List.take_append_drop]
  have hmac : ∀ l, load mac 0 2 ++ (load mac 2 4 ++ l) = load mac 0 6 ++ l := by
    intro l
    rw [← List.append_assoc]
    rfl
  simp only [List.append_assoc, hwords, hsplit, hmac] at hpacket
  simp only [arpPacket, put32_eq_store, bytes32_word6, bytes32_word7, bytes32_word8, bytes32_word9,
    p8, p32, Nat.reduceMul, Nat.reduceAdd, arpFrame, List.append_assoc]
  exact hpacket

end Reply

/-! ### Requests -/

/-- The frame is a request for the address of the node, with the addresses `a`. -/
def Asks (cfg : Config) (frame : List UInt8) (a : Arp) : Prop :=
  (frame.drop 16).take 28 = a.bytes 1 ∧ a.tpa = cfg.addr

section Request

variable {packet : ℕ → UInt8}

/-- The fields of a packet in memory. -/
lemma load_eq_bytes_iff (packet : ℕ → UInt8) (a : Arp) (op : UInt8) :
    load packet 16 28 = a.bytes op ↔
      load packet 16 8 = [0x00, 0x01, 0x08, 0x00, 6, 4, 0x00, op] ∧ load packet 24 6 = a.sha ∧
        load packet 30 4 = a.spa ∧ load packet 34 6 = a.tha ∧ load packet 40 4 = a.tpa := by
  have hsplit : load packet 16 28 = load packet 16 8 ++ load packet 24 6 ++ load packet 30 4 ++
      load packet 34 6 ++ load packet 40 4 := rfl
  rw [hsplit, Arp.bytes]
  constructor
  · intro h
    obtain ⟨h, htpa⟩ := List.append_inj' h (by rw [length_load, a.length_tpa])
    obtain ⟨h, htha⟩ := List.append_inj' h (by rw [length_load, a.length_tha])
    obtain ⟨h, hspa⟩ := List.append_inj' h (by rw [length_load, a.length_spa])
    obtain ⟨h, hsha⟩ := List.append_inj' h (by rw [length_load, a.length_sha])
    exact ⟨h, hsha, hspa, htha, htpa⟩
  · rintro ⟨h, hsha, hspa, htha, htpa⟩
    rw [h, hsha, hspa, htha, htpa]

/-- The two words that `arp_parse` looks at are those of a request. -/
lemma words_request_iff (packet : ℕ → UInt8) :
    get32 packet (p32 4) = 0x00080100 ∧ get32 packet (p32 5) = 0x01000406 ↔
      load packet 16 8 = [0x00, 0x01, 0x08, 0x00, 6, 4, 0x00, 1] := by
  have hsplit : load packet 16 8 = load packet (p32 4) 4 ++ load packet (p32 5) 4 := rfl
  rw [get32_eq_iff (by decide), get32_eq_iff (by decide), hsplit]
  constructor
  · rintro ⟨h, h'⟩
    rw [h, h']
    rfl
  · intro h
    have hwords : ([0x00, 0x01, 0x08, 0x00, 6, 4, 0x00, 1] : List UInt8) =
        bytes32 0x00080100 ++ bytes32 0x01000406 := rfl
    rw [hwords] at h
    exact List.append_inj h rfl

lemma sender_eq (packet : ℕ → UInt8) :
    get16 packet (p16 15) <<< 16 ||| get16 packet (p16 14) = get32 packet 30 := by
  rw [Nat.or_comm, or_shiftLeft (get16_lt _ _)]
  rfl

/-- `arp_parse` answers the requests for the address of the node. -/
lemma sent_arpParse (n : Node) (packet stack : ℕ → UInt8) : (arpParse n packet stack).sent =
    if load packet 16 8 = [0x00, 0x01, 0x08, 0x00, 6, 4, 0x00, 1] ∧ load packet 40 4 = n.cfg.addr
    then n.sent ++ [arpFrame (load packet 24 6) (List.replicate 6 0)
      ([0x00, 0x01, 0x08, 0x00, 6, 4, 0x00, 2] ++ n.cfg.mac ++ n.cfg.addr ++ load packet 24 6 ++
        load packet 30 4)]
    else n.sent := by
  have htarget : get32 packet (p32 10) = n.cfg.myaddress ↔ load packet 40 4 = n.cfg.addr :=
    get32_eq_iff n.cfg.myaddress_lt
  have hmac : load (fun i => packet (p8 22 + i)) 0 6 = load packet 24 6 := rfl
  simp only [arpParse, words_request_iff, htarget]
  by_cases hrequest : load packet 16 8 = [0x00, 0x01, 0x08, 0x00, 6, 4, 0x00, 1]
  · rw [if_pos hrequest]
    by_cases hmine : load packet 40 4 = n.cfg.addr
    · rw [if_pos hmine, if_pos ⟨hrequest, hmine⟩, sender_eq]
      simp only [arpReply, outgoing, load_arpPacket, hmac, bytes32_get32]
    · rw [if_neg hmine, if_neg fun h => hmine h.2]
  · rw [if_neg hrequest, if_neg fun h => hrequest h.1]

lemma sent_handleFrame_of_arp (n : Node) (stack : ℕ → UInt8) (len : ℕ)
    (htype : get16 packet (p16 6) = 0x0608) : (handleFrame n packet len stack).sent =
      (arpParse n packet stack).sent := by
  simp only [handleFrame, htype, if_true]
  rw [if_neg (by decide), sent_arpParse, sent_arpParse]

end Request

/-- **The ARP responder.**  For a frame of at least 44 bytes with EtherType ARP, a reply is queued
exactly if the body is a request for the address of the node, and the 44 bytes queued are two
bytes of padding and the reply to who has asked, from the hardware and protocol address of the
node.  The hardware puts in the source of the Ethernet header, which is left zero. -/
theorem handleFrame_answers_arp (n : Node) (packet stack : ℕ → UInt8) (frame : List UInt8)
    (hframe : load packet 0 frame.length = frame) (hlen : 44 ≤ frame.length)
    (htype : (frame.drop 14).take 2 = [0x08, 0x06]) :
    ((handleFrame n packet frame.length stack).sent ≠ n.sent ↔ ∃ a, Asks n.cfg frame a) ∧
      ∀ a, Asks n.cfg frame a → (handleFrame n packet frame.length stack).sent =
        n.sent ++ [arpFrame a.sha (List.replicate 6 0) ((a.reply n.cfg).bytes 2)] := by
  have hasks : ∀ a, Asks n.cfg frame a ↔ load packet 16 28 = a.bytes 1 ∧ a.tpa = n.cfg.addr := by
    intro a
    rw [Asks, take_drop_of_load hframe (by omega)]
  have hword : get16 packet (p16 6) = 0x0608 := by
    rw [take_drop_of_load hframe (by omega)] at htype
    exact (get16_eq_iff (by decide)).mpr htype
  rw [sent_handleFrame_of_arp n stack _ hword, sent_arpParse]
  constructor
  · constructor
    · intro hne
      split at hne
      · next h =>
        let a : Arp :=
          ⟨load packet 24 6, load packet 30 4, load packet 34 6, load packet 40 4, rfl, rfl, rfl,
            rfl⟩
        exact ⟨a, (hasks a).mpr ⟨(load_eq_bytes_iff packet a 1).mpr ⟨h.1, rfl, rfl, rfl, rfl⟩, h.2⟩⟩
      · exact absurd rfl hne
    · rintro ⟨a, ha⟩
      obtain ⟨hbytes, htpa⟩ := (hasks a).mp ha
      obtain ⟨hrequest, -, -, -, htarget⟩ := (load_eq_bytes_iff packet a 1).mp hbytes
      rw [if_pos ⟨hrequest, htarget.trans htpa⟩]
      simp
  · intro a ha
    obtain ⟨hbytes, htpa⟩ := (hasks a).mp ha
    obtain ⟨hrequest, hsha, hspa, -, htarget⟩ := (load_eq_bytes_iff packet a 1).mp hbytes
    rw [if_pos ⟨hrequest, htarget.trans htpa⟩, hsha, hspa]
    rfl

/-- A request of 192.168.1.4 for 192.168.1.17. -/
def whoHas : List UInt8 :=
  [0, 0,
   0xFF, 0xFF, 0xFF, 0xFF, 0xFF, 0xFF, 0x00, 0x13, 0x20, 0x2E, 0x53, 0x90, 0x08, 0x06,
   0x00, 0x01, 0x08, 0x00, 6, 4, 0x00, 0x01,
   0x00, 0x13, 0x20, 0x2E, 0x53, 0x90, 0xC0, 0xA8, 0x01, 0x04,
   0x00, 0x00, 0x00, 0x00, 0x00, 0x00, 0xC0, 0xA8, 0x01, 0x11]

theorem handleFrame_answers_whoHas :
    (handleFrame (Node.init sketchConfig) (fun i => whoHas.getD i 0) 44 fun _ => 0xAA).sent =
      [[0, 0,
        0x00, 0x13, 0x20, 0x2E, 0x53, 0x90, 0, 0, 0, 0, 0, 0, 0x08, 0x06,
        0x00, 0x01, 0x08, 0x00, 6, 4, 0x00, 0x02,
        0x04, 0xE9, 0xE5, 0x00, 0x00, 0x01, 0xC0, 0xA8, 0x01, 0x11,
        0x00, 0x13, 0x20, 0x2E, 0x53, 0x90, 0xC0, 0xA8, 0x01, 0x04]] := by
  let a : Arp := ⟨[0x00, 0x13, 0x20, 0x2E, 0x53, 0x90], [0xC0, 0xA8, 0x01, 0x04],
    [0x00, 0x00, 0x00, 0x00, 0x00, 0x00], [0xC0, 0xA8, 0x01, 0x11], rfl, rfl, rfl, rfl⟩
  have h := handleFrame_answers_arp (Node.init sketchConfig) (fun i => whoHas.getD i 0)
    (fun _ => 0xAA) whoHas rfl (by decide) rfl
  exact h.2 a ⟨rfl, rfl⟩

end Teensy41Ethernet.Etherraw
