import Teensy41Ethernet.Etherraw.Arp
import Teensy41Ethernet.Lwip.EtharpLive

/-!
# lwIP and the raw node

The two ARP implementations of the repository meet: `etharp.c` asks for the address of a board
that runs `etherraw.ino`, and learns it from the answer.  The frames are given by their bytes,
with two bytes of padding in front, as both boards have them in memory.
-/

namespace Teensy41Ethernet.Lwip

open Etherraw (Node arpFrame handleFrame)
open Lib (load)

/-! ### The header in memory -/

/-- The bytes of `struct etharp_hdr`. -/
def EtharpHdr.bytes (hdr : EtharpHdr) : List UInt8 :=
  be16 hdr.hwtype ++ be16 hdr.proto ++ [UInt8.ofNat hdr.hwlen, UInt8.ofNat hdr.protolen] ++
    be16 hdr.opcode ++ hdr.shwaddr.toList ++ hdr.sipaddr.toList ++ hdr.dhwaddr.toList ++
    hdr.dipaddr.toList

/-- The number in two bytes in network order. -/
def ntohs (l : List UInt8) (i : ℕ) : ℕ := (l.getD i 0).toNat * 256 + (l.getD (i + 1) 0).toNat

/-- `struct etharp_hdr` as `etharp_input` reads it. -/
def EtharpHdr.ofBytes (l : List UInt8) : EtharpHdr where
  hwtype := ntohs l 0
  proto := ntohs l 2
  hwlen := (l.getD 4 0).toNat
  protolen := (l.getD 5 0).toNat
  opcode := ntohs l 6
  shwaddr := Vector.ofFn fun i => l.getD (8 + i) 0
  sipaddr := Vector.ofFn fun i => l.getD (14 + i) 0
  dhwaddr := Vector.ofFn fun i => l.getD (18 + i) 0
  dipaddr := Vector.ofFn fun i => l.getD (24 + i) 0

/-- The frame of an ARP packet, as `etharp_raw` and `ethernet_output` make it. -/
def arpWire (dst src : EthAddr) (hdr : EtharpHdr) : List UInt8 :=
  arpFrame dst.toList src.toList hdr.bytes

variable {n : Netif} {a : Ip4Addr} {packet stack : ℕ → UInt8} {node : Node}

/-- The request, with its fields as `etherraw.ino` has them. -/
def requestArp (n : Netif) (a : Ip4Addr) : Etherraw.Arp :=
  ⟨n.hwaddr.toList, n.ipAddr.toList, ethzero.toList, a.toList, n.hwaddr.length_toList,
    n.ipAddr.length_toList, ethzero.length_toList, a.length_toList⟩

lemma bytes_requestHdr (n : Netif) (a : Ip4Addr) :
    (requestHdr n a).bytes = (requestArp n a).bytes 1 := by
  have h : be16 1 ++ be16 0x0800 ++ [UInt8.ofNat 6, UInt8.ofNat 4] ++ be16 1 =
      [0x00, 0x01, 0x08, 0x00, 6, 4, 0x00, 1] := by decide
  simp only [EtharpHdr.bytes, requestHdr, h]
  rfl

/-- The answer of the node to a request for its address. -/
lemma node_answers (hpacket : load packet 0 44 = arpWire ethbroadcast n.hwaddr (requestHdr n a))
    (ha : a.toList = node.cfg.addr) (len : ℕ) :
    (handleFrame node packet len stack).sent =
      node.sent ++ [arpFrame (load packet 24 6) (List.replicate 6 0)
        ([0x00, 0x01, 0x08, 0x00, 6, 4, 0x00, 2] ++ node.cfg.mac ++ node.cfg.addr ++
          load packet 24 6 ++ load packet 30 4)] := by
  have hsplit : load packet 0 44 = load packet 0 2 ++ load packet 2 6 ++ load packet 8 6 ++
      load packet 14 2 ++ load packet 16 28 := rfl
  rw [hsplit, arpWire, arpFrame, bytes_requestHdr] at hpacket
  have hlen : ((requestArp n a).bytes 1).length = 28 := by
    simp [Etherraw.Arp.bytes, requestArp]
  obtain ⟨hhead, hbody⟩ := List.append_inj' hpacket (by rw [Lib.length_load, hlen])
  obtain ⟨-, htype⟩ := List.append_inj' hhead rfl
  obtain ⟨hrequest, -, -, -, htarget⟩ := (Etherraw.load_eq_bytes_iff packet _ 1).mp hbody
  rw [Etherraw.sent_handleFrame_of_arp node stack len ((Lib.get16_eq_iff (by decide)).mpr htype),
    Etherraw.sent_arpParse, if_pos ⟨hrequest, htarget.trans ha⟩]

/-- What `etharp_input` reads in the answer. -/
lemma ofBytes_answer {cfg : Etherraw.Config} (ha : a.toList = cfg.addr) (rest : List UInt8) :
    (EtharpHdr.ofBytes ([0x00, 0x01, 0x08, 0x00, 6, 4, 0x00, 2] ++ cfg.mac ++ cfg.addr ++
        rest)).valid ∧
      (EtharpHdr.ofBytes ([0x00, 0x01, 0x08, 0x00, 6, 4, 0x00, 2] ++ cfg.mac ++ cfg.addr ++
        rest)).sipaddr = a ∧
      (EtharpHdr.ofBytes ([0x00, 0x01, 0x08, 0x00, 6, 4, 0x00, 2] ++ cfg.mac ++ cfg.addr ++
        rest)).shwaddr.toList = cfg.mac := by
  refine ⟨?_, Vector.toList_inj.mp ?_, ?_⟩
  · simp [EtharpHdr.valid, EtharpHdr.ofBytes, ntohs]
  · rw [ha, EtharpHdr.ofBytes, Vector.toList_ofFn]
    rfl
  · rw [EtharpHdr.ofBytes, Vector.toList_ofFn]
    rfl

/-! ### Address resolution between the two -/

/-- **lwIP resolves the address of the raw node.** After any run without an entry for the address
of the node, a packet for it is submitted, with memory for the request and for the copy of the
packet.  lwIP then broadcasts a request; the node, in any state, answers the frame of that
request with one frame; and when lwIP receives the ARP packet in it, the packet that waited is
sent to the hardware address of the node. -/
theorem arp_resolves_node {π : Type*} {σ : ArpSys π} {evs : List (ArpEv π)} {dest : Ip4Addr}
    (hσ : ArpSys.run n evs = σ) (hb : ip4AddrIsbroadcast dest σ.netif = false)
    (hmc : ip4AddrIsmulticast dest = false) (hhop : nextHop σ.netif dest = some a)
    (hu : nonUnicast a σ.netif = false) (hfree : σ.arp.Free a) (ha : a.toList = node.cfg.addr)
    (hpacket : load packet 0 44 =
      arpWire ethbroadcast σ.netif.hwaddr (requestHdr σ.netif a)) (len : ℕ) (alloc : Bool) (q : π) :
    .arp ethbroadcast (requestHdr σ.netif a) ∈
        (ArpSys.run n (evs ++ [.output true true q dest])).arp.sent ∧
      ∃ frame mac new, (handleFrame node packet len stack).sent = node.sent ++ [frame] ∧
        mac.toList = node.cfg.mac ∧
        (ArpSys.run n (evs ++ [.output true true q dest] ++
          [.input alloc (EtharpHdr.ofBytes (frame.drop 16))])).arp.sent =
            (ArpSys.run n (evs ++ [.output true true q dest])).arp.sent ++ new ∧
        .ip mac q ∈ new := by
  classical
  have hsound : σ.Sound := hσ ▸ ArpSys.sound_run n evs
  have hrun : ArpSys.run n (evs ++ [.output true true q dest]) =
      σ.step (.output true true q dest) := by
    rw [← hσ]
    exact List.foldl_concat ..
  obtain ⟨-, -, hsent⟩ :=
    ArpSys.exists_entry_of_free hsound.waiting hb hmc hhop hu hfree true q
  have hw := hsound.waits_output (H := insert a (Finset.univ.image fun i => (σ.arp.table i).ipaddr))
    hb hmc hhop hu hfree (Finset.mem_insert_self _ _)
    (fun i _ => Finset.mem_insert_of_mem (Finset.mem_image_of_mem _ (Finset.mem_univ i))) true q
  -- the ARP packet in the frame of the node
  have hdrop : ∀ dst body : List UInt8, dst.length = 6 →
      (arpFrame dst (List.replicate 6 0) body).drop 16 = body := by
    intro dst body hdst
    rw [arpFrame, List.drop_left' (by simp [hdst])]
  have hframe : (handleFrame node packet len stack).sent = _ := node_answers hpacket ha len
  obtain ⟨hv, hsip, hmac⟩ := ofBytes_answer ha (load packet 24 6 ++ load packet 30 4)
  rw [← List.append_assoc] at hv hsip hmac
  obtain ⟨new, hnew, hip⟩ := hw.reply alloc hv hsip hu
  refine ⟨by rw [hrun]; exact hsent rfl, _, _, new, hframe, hmac, ?_, hip⟩
  have hlast : ∀ ev, ArpSys.run n (evs ++ [.output true true q dest] ++ [ev]) =
      (σ.step (.output true true q dest)).step ev := by
    intro ev
    rw [← hrun]
    exact List.foldl_concat ..
  rw [hlast, hrun, hdrop _ _ (Lib.length_load _ _ _)]
  exact hnew

/-- The address of the sketch. -/
def sketchAddr : Ip4Addr := #v[192, 168, 1, 17]

/-- The request for it, as the board has it in memory. -/
def sketchPacket (i : ℕ) : UInt8 :=
  (arpWire ethbroadcast ArpSys.sampleNetif.hwaddr
    (requestHdr ArpSys.sampleNetif sketchAddr)).getD i 0

/-- A packet for the sketch, as the first call. -/
def sketchOutput : ArpEv ℕ := .output true true 1 sketchAddr

theorem arp_resolves_node_sketch :
    .arp ethbroadcast (requestHdr ArpSys.sampleNetif sketchAddr) ∈
        (ArpSys.run ArpSys.sampleNetif ([] ++ [sketchOutput])).arp.sent ∧
      ∃ frame mac new,
        (handleFrame (Node.init Etherraw.sketchConfig) sketchPacket 60 fun _ => 0xAA).sent =
          (Node.init Etherraw.sketchConfig).sent ++ [frame] ∧
        mac.toList = Etherraw.sketchConfig.mac ∧
        (ArpSys.run ArpSys.sampleNetif ([] ++ [sketchOutput] ++
          [.input true (EtharpHdr.ofBytes (frame.drop 16))])).arp.sent =
            (ArpSys.run ArpSys.sampleNetif ([] ++ [sketchOutput])).arp.sent ++ new ∧
        .ip mac 1 ∈ new :=
  arp_resolves_node rfl (by decide +kernel) (by decide) (by decide +kernel) (by decide +kernel)
    (fun _ h => absurd rfl h) rfl (by decide +kernel) 60 true 1

end Teensy41Ethernet.Lwip
