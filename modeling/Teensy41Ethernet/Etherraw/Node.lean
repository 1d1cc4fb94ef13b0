import Teensy41Ethernet.Etherraw.Checksum

/-!
# The node of `etherraw.ino`

The sketch answers ARP requests and pings, keeps the last UDP datagram in `UDP_buff` for
`recvfrom`, and sends UDP datagrams from a prefabricated frame, `prefab`, of which `sendto`
and `udp_blast` rewrite some fields in place.

A frame is a block of memory with two bytes of padding before the Ethernet header.  The code
reads and writes it through three pointers: `p8` and `p16`, which point behind the padding,
and `p32`, which points to its beginning.  Stack variables are not initialised; what they
hold is a parameter.
-/

namespace Teensy41Ethernet.Etherraw

open Lib

/-! ### State -/

/-- The address of `p8[i]`. -/
def p8 (i : ℕ) : ℕ := 2 + i

/-- The address of `p16[i]`. -/
def p16 (i : ℕ) : ℕ := 2 + 2 * i

/-- The address of `p32[i]`. -/
def p32 (i : ℕ) : ℕ := 4 * i

/-- `MACADDR1`, `MACADDR2` and `myaddress`, an address as the word that `p32` reads. -/
structure Config where
  macaddr1 : ℕ
  macaddr2 : ℕ
  myaddress : ℕ
  macaddr1_lt : macaddr1 < 2 ^ 24
  macaddr2_lt : macaddr2 < 2 ^ 24
  myaddress_lt : myaddress < 2 ^ 32

/-- The addresses of the sketch: 192.168.1.17. -/
def sketchConfig : Config :=
  ⟨0x04E9E5, 0x000001, 0x1101A8C0, by decide, by decide, by decide⟩

/-- The variables of the sketch, and the frames passed to `outgoing`. -/
structure Node where
  cfg : Config
  prefab : ℕ → UInt8
  udpBuff : ℕ → UInt8
  udpLth : ℕ
  inpkts : UInt32
  outpkts : UInt32
  apkts : UInt32
  tpkts : UInt32
  ipkts : UInt32
  ippkts : UInt32
  bcast : UInt32
  mcast : UInt32
  sent : List (List UInt8)

/-- The initialiser of `prefab`. -/
def prefabInit : List UInt8 :=
  [0, 0, -- pad
   0x00, 0x13, 0x20, 0x2E, 0x53, 0x90, 0x00, 0x13, 0x20, 0x2E, 0x53, 0x90, 0x08, 0x00,
   0x45, 0x00, 0x00, 0x24, 0x3A, 0x0F, 0x40, 0x00, 0x40, 0x11, 0x7D, 0x54,
   0xC0, 0xA8, 0x01, 0x11, 0xC0, 0xA8, 0x01, 0x04,
   0x1D, 0xE6, 0xCB, 0x83, 0x00, 0x10, 0x97, 0x4D, 0x09, 0x00, 0x00, 0x00, 0x67, 0x45]

/-- The size of `prefab` and `UDP_buff`. -/
def buffSize : ℕ := 1522

def Node.init (cfg : Config) : Node where
  cfg := cfg
  prefab i := prefabInit.getD i 0
  udpBuff _ := 0
  udpLth := 0
  inpkts := 0
  outpkts := 0
  apkts := 0
  tpkts := 0
  ipkts := 0
  ippkts := 0
  bcast := 0
  mcast := 0
  sent := []

/-- `outgoing`. -/
def outgoing (n : Node) (packet : ℕ → UInt8) (len : ℕ) : Node :=
  { n with outpkts := n.outpkts + 1, sent := n.sent ++ [load packet 0 len] }

/-! ### Answers -/

/-- The 44 bytes of `packet` in `arp_reply`, composed in uninitialised memory. -/
def arpPacket (cfg : Config) (mac : ℕ → UInt8) (ip : ℕ) (stack : ℕ → UInt8) : ℕ → UInt8 :=
  let m := put32 stack (p32 0) 0
  let m := store m (p8 0) (load mac 0 6)
  let m := store m (p8 6) (List.replicate 6 0)
  let m := store m (p8 12) [8]
  let m := store m (p8 13) [6]
  let m := put32 m (p32 4) 0x00080100
  let m := put32 m (p32 5) 0x02000406
  let m := put32 m (p32 6)
    (swap4 cfg.macaddr1 >>> 8 ||| (cfg.macaddr2 <<< 8 % 2 ^ 32 &&& 0xFF000000))
  let m := put32 m (p32 7) (swap2 (cfg.macaddr2 &&& 0xFFFF) ||| cfg.myaddress <<< 16 % 2 ^ 32)
  let m := put32 m (p32 8)
    ((cfg.myaddress &&& 0xFFFF0000) >>> 16 ||| (mac 0).toNat <<< 16 ||| (mac 1).toNat <<< 24)
  let m := put32 m (p32 9)
    ((mac 5).toNat <<< 24 ||| (mac 4).toNat <<< 16 ||| (mac 3).toNat <<< 8 ||| (mac 2).toNat)
  put32 m (p32 10) ip

/-- `arp_reply`. -/
def arpReply (n : Node) (mac : ℕ → UInt8) (ip : ℕ) (stack : ℕ → UInt8) : Node :=
  outgoing n (arpPacket n.cfg mac ip stack) 44

/-- `arp_parse`.  The answer to a request of our own is only printed. -/
def arpParse (n : Node) (packet stack : ℕ → UInt8) : Node :=
  let n := { n with apkts := n.apkts + 1 }
  if get32 packet (p32 4) = 0x00080100 ∧ get32 packet (p32 5) = 0x01000406 then
    let sender := get16 packet (p16 15) <<< 16 ||| get16 packet (p16 14)
    if get32 packet (p32 10) = n.cfg.myaddress then
      arpReply n (fun i => packet (p8 22 + i)) sender stack
    else n
  else n

/-- `packet` of `ping_reply` when it is passed to `outgoing`. -/
def pingPacket (cfg : Config) (recv : ℕ → UInt8) (len : ℕ) (stack : ℕ → UInt8) : ℕ → UInt8 :=
  let m := store stack 0 (load recv 0 len)
  let m := store m (p8 0) (load m (p8 6) 6)
  let m := put32 m (p32 8) (get32 m (p32 7))
  let m := put32 m (p32 7) cfg.myaddress
  store m (p8 34) [0]

/-- `ping_reply`; its `packet` has 128 bytes. -/
def pingReply (n : Node) (recv : ℕ → UInt8) (len : ℕ) (stack : ℕ → UInt8) : Node :=
  if len > 128 then n else outgoing n (pingPacket n.cfg recv len stack) len

/-- The receive buffer after the edits of `udp_reply`.  `HW_CHKSUMS` is not defined. -/
def udpReplyPacket (cfg : Config) (recv : ℕ → UInt8) : ℕ → UInt8 :=
  let m := store recv (p8 0) (load recv (p8 6) 6)
  let m := put32 m (p32 8) (get32 m (p32 7))
  let m := put32 m (p32 7) cfg.myaddress
  let tmp := get16 m (p16 17)
  let m := put16 m (p16 17) (get16 m (p16 18))
  put16 m (p16 18) tmp

/-- `udp_reply`, with the buffer that it leaves. -/
def udpReply (n : Node) (recv : ℕ → UInt8) (len : ℕ) : Node × (ℕ → UInt8) :=
  (outgoing n (udpReplyPacket n.cfg recv) len, udpReplyPacket n.cfg recv)

/-! ### `handle_frame` -/

/-- `handle_frame`. -/
def handleFrame (n : Node) (packet : ℕ → UInt8) (len : ℕ) (stack : ℕ → UInt8) : Node :=
  let n := { n with
    inpkts := n.inpkts + 1
    bcast := if packet (p8 0) = 0xff then n.bcast + 1 else n.bcast
    mcast := if packet (p8 0) = 1 then n.mcast + 1 else n.mcast }
  let type := get16 packet (p16 6)
  if type = 0x0008 then
    let n := { n with ippkts := n.ippkts + 1 }
    let dst := get32 packet (p32 8)
    if packet (p8 23) = 1 ∧ dst = n.cfg.myaddress then
      let n := { n with ipkts := n.ipkts + 1 }
      if packet (p8 34) = 8 then pingReply n packet len stack else n
    else if packet (p8 23) = 17 ∧ dst = n.cfg.myaddress then
      { n with udpBuff := store n.udpBuff 0 (load packet 0 len), udpLth := len }
    else if packet (p8 23) = 6 ∧ dst = n.cfg.myaddress then { n with tpkts := n.tpkts + 1 }
    else n
  else if type = 0x0608 then arpParse n packet stack
  else n

/-! ### Datagrams -/

/-- A C `int` as `uint16_t`. -/
def u16 (x : ℤ) : ℕ := (x % 65536).toNat

/-- The lines that `sendto` and `udp_blast` share: destination port, lengths and checksums.
`HW_CHKSUMS` and `SW_UDP_CHKSUM` are not defined. -/
def fillHeader (m : ℕ → UInt8) (dport udplth iplth : ℤ) : ℕ → UInt8 :=
  let m := put16 m (p16 18) (swap2 (u16 dport))
  let m := put16 m (p16 19) (swap2 (u16 udplth))
  let m := put16 m (p16 8) (swap2 (u16 iplth))
  let m := put16 m (p16 12) 0
  let m := put16 m (p16 20) 0
  put16 m (p16 12) (inetChksum m (p8 14) 20)

/-- `sendto`; the address `dest` is not used. -/
def sendto (n : Node) (packet : List UInt8) (sport : ℤ) (_dest : ℕ) (dport : ℤ) : Node :=
  let udplth := packet.length + 8
  let iplth := 20 + udplth
  let pktlth := 14 + 2 + iplth
  let m := store n.prefab (p8 42) packet
  let m := put16 m (p16 17) (swap2 (u16 sport))
  let m := fillHeader m dport udplth iplth
  outgoing { n with prefab := m } m pktlth

/-- The loop of `udp_blast`, from packet number `i` on. -/
def udpBlastLoop (n : Node) (pktlth : ℕ) : ℕ → ℕ → Node
  | _, 0 => n
  | i, pkts + 1 =>
      let m := put32 n.prefab (p32 11) (swap4 i)
      udpBlastLoop (outgoing { n with prefab := m } m pktlth) pktlth (i + 1) pkts

/-- `udp_blast`. -/
def udpBlast (n : Node) (pkts bytes : ℕ) : Node :=
  let udplth := bytes + 8
  let iplth := 20 + udplth
  let pktlth := 14 + 2 + iplth
  udpBlastLoop { n with prefab := fillHeader n.prefab 2000 udplth iplth } pktlth 0 pkts

/-- `recvfrom`: the bytes copied to `packet`, their number and the node after it.  A negative
length wraps around in the call of `memcpy`, which the node does not survive. -/
def recvfrom (n : Node) : Option (List UInt8 × ℤ × Node) :=
  let lth : ℤ := swap2 (get16 n.udpBuff (p16 19)) - 8
  if lth < 0 then none
  else some (load n.udpBuff (p8 42) lth.toNat, lth, { n with udpLth := 0 })

end Teensy41Ethernet.Etherraw
