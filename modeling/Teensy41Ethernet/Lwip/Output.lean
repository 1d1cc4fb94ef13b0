import Teensy41Ethernet.Lwip.Pbuf

/-!
# From an IPv4 packet to Ethernet frames

The last steps of `ip4_output_if`: a packet that is longer than the MTU of the interface is
cut by `ip4_frag`, any other goes to `netif->output` as it is; `ethernet_output` then puts
the link header in front of it.  Address resolution may hold a packet back but does not
change it, so a packet given to `netif->output` is one given to `ethernet_output`.

The options are those of `lwipopts.h`: `IP_FRAG` on, `LWIP_NETIF_TX_SINGLE_PBUF` off, the
checksums left to the hardware, and two bytes of padding in front of the link header.
-/

namespace Teensy41Ethernet.Lwip

/-- A packet with the room in front of the payload of its first member, which
`pbuf_header` can turn into payload. -/
structure Packet where
  headroom : ℕ
  chain : Chain

/-! ### `ip4_frag` -/

/-- `IP_HLEN`. -/
def ipHlen : ℕ := 20

/-- `IP_MF`, the flag of all fragments but the last. -/
def ipMF : ℕ := 0x2000

/-- `IP_OFFMASK`. -/
def ipOffmask : ℕ := 0x1fff

/-- `PBUF_LINK_HLEN`. -/
def pbufLinkHlen : ℕ := 16

/-- A 16-bit field in network order. -/
def be16 (n : ℕ) : List UInt8 := [UInt8.ofNat (n / 256), UInt8.ofNat n]

/-- `IPH_HL(iphdr)` of the header at the start of a payload. -/
def iphHL (hdr : List UInt8) : ℕ := (hdr.getD 0 0).toNat % 16

/-- `lwip_ntohs(IPH_OFFSET(iphdr))`. -/
def iphOffset (hdr : List UInt8) : ℕ := (hdr.getD 6 0).toNat * 256 + (hdr.getD 7 0).toNat

/-- A copy of the header with a new length, a new offset field and no checksum. -/
def fragHeader (hdr : List UInt8) (offset len : ℕ) : List UInt8 :=
  hdr.take 2 ++ be16 len ++ (hdr.drop 4).take 2 ++ be16 offset ++ (hdr.drop 8).take 2 ++
    [0, 0] ++ (hdr.drop 12).take 8

/-- The inner loop of `ip4_frag`: mirror `left` bytes of the packet from offset `poff` of
its first member on.  `budget` allocations succeed before one fails.  The result has the
mirrored pieces, the rest of the packet with the new offset, and the rest of the budget. -/
def mirror : Chain → ℕ → ℕ → ℕ → Option (Chain × Chain × ℕ × ℕ)
  | [], _, _, _ => none
  | seg :: p, poff, left, budget =>
      let newpbuflen := min left (seg.length - poff)
      -- is this pbuf already empty?
      if newpbuflen = 0 then mirror p 0 left budget
      else
        match budget with
        | 0 => none
        | budget + 1 =>
            let piece := (seg.drop poff).take newpbuflen
            if left - newpbuflen = 0 then some ([piece], seg :: p, poff + newpbuflen, budget)
            else
              (mirror p 0 (left - newpbuflen) budget).map fun r => (piece :: r.1, r.2)

/-- The outer loop of `ip4_frag`: the packets it gives to `netif->output`. -/
def ip4FragLoop (mtu : ℕ) (hdr : List UInt8) : ℕ → Chain → ℕ → ℕ → ℕ → ℕ → List Packet
  | 0, _, _, _, _, _ => []
  | fuel + 1, p, poff, left, ofo, budget =>
      if left = 0 then []
      else
        let nfb := (mtu - ipHlen) / 8
        let fragsize := min left (nfb * 8)
        match budget with
        | 0 => []
        | budget + 1 =>
            match mirror p poff fragsize budget with
            | none => []
            | some (pieces, p', poff', budget') =>
                let last := left ≤ mtu - ipHlen
                let tmp := ofo % (ipOffmask + 1) + if last then 0 else ipMF
                ⟨pbufLinkHlen, fragHeader hdr tmp (fragsize + ipHlen) :: pieces⟩ ::
                  ip4FragLoop mtu hdr fuel p' poff' (left - fragsize) (ofo + nfb) budget'

/-- `ip4_frag`: a packet with IP options or with the flag for more fragments is refused. -/
def ip4Frag (mtu : ℕ) (p : Chain) (budget : ℕ) : List Packet :=
  let hdr := p.headD []
  if iphHL hdr * 4 ≠ ipHlen then []
  else if iphOffset hdr / ipMF % 2 ≠ 0 then []
  else
    ip4FragLoop mtu hdr (totLen p) p ipHlen (totLen p - ipHlen)
      (iphOffset hdr % (ipOffmask + 1)) budget

/-- The end of `ip4_output_if`: the packets given to `netif->output`. -/
def ip4OutputIf (mtu : ℕ) (p : Packet) (budget : ℕ) : List Packet :=
  if mtu ≠ 0 ∧ totLen p.chain > mtu then ip4Frag mtu p.chain budget else [p]

/-- The mirrored pieces have exactly the requested length. -/
lemma totLen_mirror {p : Chain} {poff left budget : ℕ} {r : Chain × Chain × ℕ × ℕ}
    (h : mirror p poff left budget = some r) : totLen r.1 = left := by
  induction p generalizing poff left budget r with
  | nil => exact absurd h (by simp [mirror])
  | cons seg p ih =>
    simp only [mirror] at h
    split at h
    · exact ih h
    · cases budget with
      | zero => exact absurd h (by simp)
      | succ budget =>
        have hpiece : ((seg.drop poff).take (min left (seg.length - poff))).length
            = min left (seg.length - poff) := by simp
        simp only at h
        split at h
        · rw [← Option.some.inj h, totLen_cons, hpiece, totLen_nil]
          omega
        · obtain ⟨r', hr', rfl⟩ := Option.map_eq_some_iff.mp h
          rw [totLen_cons, hpiece, ih hr']
          omega

lemma length_fragHeader_le (hdr : List UInt8) (offset len : ℕ) :
    (fragHeader hdr offset len).length ≤ ipHlen := by
  simp only [fragHeader, be16, ipHlen, List.length_append, List.length_take, List.length_cons,
    List.length_nil]
  omega

/-- A fragment is never longer than its header and the largest multiple of eight bytes that
fits behind it. -/
lemma totLen_ip4FragLoop_le {mtu fuel poff left ofo budget : ℕ} {hdr : List UInt8} {p : Chain}
    {q : Packet} (h : q ∈ ip4FragLoop mtu hdr fuel p poff left ofo budget) :
    totLen q.chain ≤ ipHlen + (mtu - ipHlen) / 8 * 8 := by
  induction fuel generalizing p poff left ofo budget with
  | zero => exact absurd h (by simp [ip4FragLoop])
  | succ fuel ih =>
    rw [ip4FragLoop] at h
    split at h
    · exact absurd h (by simp)
    · cases budget with
      | zero => exact absurd h (by simp)
      | succ budget =>
        simp only at h
        split at h
        · exact absurd h (by simp)
        · rename_i pieces p' poff' budget' hmirror
          rcases List.mem_cons.mp h with rfl | h
          · have hlen := totLen_mirror hmirror
            have hhdr := length_fragHeader_le hdr
            simp only [totLen_cons] at hlen ⊢
            rw [hlen]
            exact Nat.add_le_add (hhdr _ _) (min_le_right _ _)
          · exact ih h

lemma totLen_ip4Frag_le {mtu budget : ℕ} {p : Chain} {q : Packet}
    (h : q ∈ ip4Frag mtu p budget) : totLen q.chain ≤ ipHlen + (mtu - ipHlen) / 8 * 8 := by
  simp only [ip4Frag] at h
  split at h
  · exact absurd h (by simp)
  · split at h
    · exact absurd h (by simp)
    · exact totLen_ip4FragLoop_le h

/-! ### `ethernet_output` -/

/-- `SIZEOF_ETH_HDR`: 14 bytes and `ETH_PAD_SIZE`. -/
def sizeofEthHdr : ℕ := 16

/-- A hardware address. -/
abbrev EthAddr := Vector UInt8 6

/-- `struct eth_hdr`; the padding is whatever the memory holds. -/
def ethHdr (pad : Vector UInt8 2) (dst src : EthAddr) (ethType : ℕ) : List UInt8 :=
  pad.toList ++ dst.toList ++ src.toList ++ be16 ethType

/-- `ethernet_output`: the chain given to `netif->linkoutput`; `none` is `ERR_BUF`, when
there is no room for the link header. -/
def ethernetOutput (p : Packet) (hdr : List UInt8) : Option Chain :=
  if p.headroom < sizeofEthHdr then none
  else
    match p.chain with
    | [] => some [hdr]
    | seg :: rest => some ((hdr ++ seg) :: rest)

@[simp] lemma length_ethHdr (pad : Vector UInt8 2) (dst src : EthAddr) (ethType : ℕ) :
    (ethHdr pad dst src ethType).length = sizeofEthHdr := by
  simp [ethHdr, be16, sizeofEthHdr]

/-- The frame is longer than the packet by the link header. -/
lemma totLen_ethernetOutput {p : Packet} {hdr : List UInt8} {q : Chain}
    (h : ethernetOutput p hdr = some q) : totLen q = hdr.length + totLen p.chain := by
  rw [ethernetOutput] at h
  split at h
  · exact absurd h (by simp)
  · split at h
    · rename_i hnil
      rw [← Option.some.inj h, hnil, totLen_cons]
    · rename_i hcons
      rw [← Option.some.inj h, hcons, totLen_cons, totLen_cons, List.length_append, add_assoc]

end Teensy41Ethernet.Lwip
