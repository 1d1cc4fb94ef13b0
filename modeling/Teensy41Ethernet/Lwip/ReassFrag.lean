import Teensy41Ethernet.Lwip.ReassOrder

/-!
# What `ip4_frag` cuts, `ip4_reass` puts together

A packet that is too long for the interface leaves in fragments.  When these arrive at a stack
of the same kind, in whatever buffers, the packet comes out again.

The two halves meet at `Sent`: which pieces of the payload the packets of `ip4_frag` carry, and
with which headers.

* `frag_reass_round_trip`: the packet comes out whole, for every good order of arrival.
-/

namespace Teensy41Ethernet.Lwip

/-! ### The packets of `ip4_frag` -/

/-- One turn of the inner loops: the bytes are mirrored in order, and the rest of the packet is
what remains. -/
lemma mirror_spec {p : Chain} {poff left budget : ℕ} (hleft : 0 < left)
    (hle : left ≤ (p.flatten.drop poff).length) (hpoff : poff ≤ (p.headD []).length)
    (hbudget : left ≤ budget) :
    ∃ pieces p' poff' budget', mirror p poff left budget = some (pieces, p', poff', budget') ∧
      pieces.flatten = (p.flatten.drop poff).take left ∧
      p'.flatten.drop poff' = (p.flatten.drop poff).drop left ∧
      poff' ≤ (p'.headD []).length ∧ budget ≤ budget' + left := by
  induction p generalizing poff left budget with
  | nil => simp at hle; omega
  | cons seg p ih =>
    rw [List.headD_cons] at hpoff
    have hdrop : (seg :: p).flatten.drop poff = seg.drop poff ++ p.flatten := by
      rw [List.flatten_cons, List.drop_append_of_le_length hpoff]
    have hseg : (seg.drop poff).length = seg.length - poff := List.length_drop
    rw [hdrop, List.length_append, hseg] at hle
    obtain ⟨b, rfl⟩ : ∃ b, budget = b + 1 := ⟨budget - 1, by omega⟩
    rw [hdrop, mirror]
    dsimp only
    split
    next hzero =>
      -- this buffer is empty
      have hnil : seg.drop poff = [] := List.drop_eq_nil_of_le (by omega)
      obtain ⟨pieces, p', poff', budget', hm, h₁, h₂, h₃, h₄⟩ :=
        ih hleft (show _ ≤ (p.flatten.drop 0).length by rw [List.drop_zero]; omega) (Nat.zero_le _)
          hbudget
      rw [List.drop_zero] at h₁ h₂
      exact ⟨pieces, p', poff', budget', hm, by rw [hnil, h₁, List.nil_append],
        by rw [hnil, h₂, List.nil_append], h₃, h₄⟩
    next hpos =>
      split
      next hlast =>
        have hmin : min left (seg.length - poff) = left := by omega
        rw [hmin]
        refine ⟨_, _, _, _, rfl, ?_, ?_, ?_, by omega⟩
        · rw [List.flatten_singleton, List.take_append_of_le_length (by omega)]
        · rw [← hdrop, List.drop_drop]
        · rw [List.headD_cons]
          omega
      next hmore =>
        have hmin : min left (seg.length - poff) = seg.length - poff := by omega
        have hall : (seg.drop poff).take (seg.length - poff) = seg.drop poff :=
          List.take_of_length_le hseg.le
        rw [hmin] at hmore ⊢
        obtain ⟨pieces, p', poff', budget', hm, h₁, h₂, h₃, h₄⟩ :=
          ih (show 0 < left - (seg.length - poff) by omega)
            (show _ ≤ (p.flatten.drop 0).length by rw [List.drop_zero]; omega) (Nat.zero_le _)
            (show _ ≤ b by omega)
        rw [List.drop_zero] at h₁ h₂
        rw [hm, Option.map_some, hall]
        refine ⟨_, _, _, _, rfl, ?_, ?_, h₃, by omega⟩
        · rw [List.flatten_cons, h₁, List.take_append, hseg,
            List.take_of_length_le (show (seg.drop poff).length ≤ left by omega)]
        · rw [h₂, List.drop_append, hseg,
            List.drop_eq_nil_of_le (show (seg.drop poff).length ≤ left by omega), List.nil_append]

/-- The packets carry the pieces, the first at the offset `ofo`, in units of eight bytes; all
but the last are marked with `IP_MF` and have a length that is a multiple of eight. -/
inductive Sent (hdr : List UInt8) : ℕ → List (List UInt8) → List Packet → Prop
  | last {ofo : ℕ} {piece : List UInt8} {q : Packet} (hpiece : piece ≠ [])
      (hq : q.chain.flatten = fragHeader hdr ofo (piece.length + ipHlen) ++ piece) :
      Sent hdr ofo [piece] [q]
  | more {ofo m : ℕ} {piece : List UInt8} {q : Packet} {ps : List (List UInt8)}
      {qs : List Packet} (hpiece : piece ≠ []) (hm : piece.length = m * 8)
      (hq : q.chain.flatten = fragHeader hdr (ofo + ipMF) (piece.length + ipHlen) ++ piece)
      (hrest : Sent hdr (ofo + m) ps qs) : Sent hdr ofo (piece :: ps) (q :: qs)

lemma ip4FragLoop_sent {mtu nfb fuel poff left ofo budget : ℕ} {hdr : List UInt8} {p : Chain}
    (hmtu : mtu - ipHlen = nfb * 8) (hnfb : 0 < nfb) (hleft : 0 < left) (hfuel : left ≤ fuel)
    (hbytes : (p.flatten.drop poff).length = left) (hpoff : poff ≤ (p.headD []).length)
    (hbudget : 2 * left ≤ budget) (hofo : ofo * 8 + left < 65536) :
    ∃ ps, ps.flatten = p.flatten.drop poff ∧
      Sent hdr ofo ps (ip4FragLoop mtu hdr fuel p poff left ofo budget) := by
  induction fuel generalizing p poff left ofo budget with
  | zero => omega
  | succ fuel ih =>
    obtain ⟨b, rfl⟩ : ∃ b, budget = b + 1 := ⟨budget - 1, by omega⟩
    have hdiv : (mtu - ipHlen) / 8 = nfb := by omega
    have hmod : ofo % (ipOffmask + 1) = ofo := Nat.mod_eq_of_lt (by rw [ipOffmask]; omega)
    obtain ⟨pieces, p', poff', budget', hm, h₁, h₂, h₃, h₄⟩ :=
      mirror_spec (show 0 < min left (nfb * 8) by omega)
        (show _ ≤ (p.flatten.drop poff).length by omega) hpoff (show _ ≤ b by omega)
    have hlen : ((p.flatten.drop poff).take (min left (nfb * 8))).length = min left (nfb * 8) := by
      rw [List.length_take]
      omega
    have hne : (p.flatten.drop poff).take (min left (nfb * 8)) ≠ [] := by
      intro hnil
      rw [hnil, List.length_nil] at hlen
      omega
    rw [ip4FragLoop, if_neg hleft.ne']
    dsimp only
    rw [hdiv, hm]
    dsimp only
    rw [hmod, hmtu]
    by_cases hlast : left ≤ nfb * 8
    · have hmin : min left (nfb * 8) = left := by omega
      rw [hmin] at hne hlen h₁ ⊢
      have hend : ip4FragLoop mtu hdr fuel p' poff' (left - left) (ofo + nfb) budget' = [] := by
        rw [Nat.sub_self]
        cases fuel <;> simp [ip4FragLoop]
      refine ⟨[(p.flatten.drop poff).take left], ?_, ?_⟩
      · rw [List.flatten_singleton, List.take_of_length_le hbytes.le]
      · rw [hend, if_pos hlast, Nat.add_zero]
        refine .last hne ?_
        rw [List.flatten_cons, h₁, hlen]
    · have hmin : min left (nfb * 8) = nfb * 8 := by omega
      rw [hmin] at hne hlen h₁ h₂ h₄ ⊢
      obtain ⟨ps, hps, hsent⟩ := ih (show 0 < left - nfb * 8 by omega) (by omega)
        (show (p'.flatten.drop poff').length = _ by rw [h₂, List.length_drop]; omega) h₃
        (show _ ≤ budget' by omega) (show (ofo + nfb) * 8 + _ < _ by omega)
      refine ⟨(p.flatten.drop poff).take (nfb * 8) :: ps, ?_, ?_⟩
      · rw [List.flatten_cons, hps, h₂, List.take_append_drop]
      · rw [if_neg hlast]
        refine .more hne hlen ?_ hsent
        rw [List.flatten_cons, h₁, hlen]

/-! ### The headers -/

section Header

variable {hdr : List UInt8} {offset len : ℕ}

lemma length_fragHeader (h : ipHlen ≤ hdr.length) :
    (fragHeader hdr offset len).length = ipHlen := by
  rw [ipHlen] at h
  simp [fragHeader, be16, ipHlen]
  omega

lemma iphHL_fragHeader (h : ipHlen ≤ hdr.length) :
    iphHL (fragHeader hdr offset len) = iphHL hdr := by
  rw [ipHlen] at h
  have h0 : hdr[0]? = some hdr[0] := List.getElem?_eq_getElem (by omega)
  have h2 : min 2 hdr.length = 2 := by omega
  simp [iphHL, fragHeader, h0, h2]

lemma iphLen_fragHeader (h : ipHlen ≤ hdr.length) (hlen : len < 65536) :
    iphLen (fragHeader hdr offset len) = len := by
  rw [ipHlen] at h
  have h2 : min 2 hdr.length = 2 := by omega
  simp [iphLen, fragHeader, List.getElem?_append, h2, be16]
  omega

lemma iphOffset_fragHeader (h : ipHlen ≤ hdr.length) (hoffset : offset < 65536) :
    iphOffset (fragHeader hdr offset len) = offset := by
  rw [ipHlen] at h
  have h2 : min 2 hdr.length = 2 := by omega
  have h4 : min 2 (hdr.length - 4) = 2 := by omega
  simp [iphOffset, fragHeader, List.getElem?_append, h2, h4, be16]
  omega

/-- The parts of the header that are copied. -/
lemma fragHeader_parts (h : ipHlen ≤ hdr.length) (offset len : ℕ) :
    (fragHeader hdr offset len).take 2 = hdr.take 2 ∧
      ((fragHeader hdr offset len).drop 4).take 2 = (hdr.drop 4).take 2 ∧
      ((fragHeader hdr offset len).drop 8).take 2 = (hdr.drop 8).take 2 ∧
      ((fragHeader hdr offset len).drop 12).take 8 = (hdr.drop 12).take 8 := by
  rw [ipHlen] at h
  have h2 : min 2 hdr.length = 2 := by omega
  have h4 : min 2 (hdr.length - 4) = 2 := by omega
  have h8 : min 2 (hdr.length - 8) = 2 := by omega
  refine ⟨?_, ?_, ?_, ?_⟩ <;>
    simp [fragHeader, be16, List.drop_append, List.drop_take, h2, h4, h8]

lemma iphKey_fragHeader (h : ipHlen ≤ hdr.length) :
    iphKey (fragHeader hdr offset len) = iphKey hdr := by
  obtain ⟨-, h4, -, h12⟩ := fragHeader_parts h offset len
  rw [iphKey, h4, h12, iphKey]

lemma fragHeader_fragHeader (h : ipHlen ≤ hdr.length) (offset' len' : ℕ) :
    fragHeader (fragHeader hdr offset len) offset' len' = fragHeader hdr offset' len' := by
  obtain ⟨h2, h4, h8, h12⟩ := fragHeader_parts h offset len
  rw [fragHeader, h2, h4, h8, h12]
  rfl

end Header

/-! ### From the packets to the fragments -/

section Received

variable {hdr : List UInt8} {ofo : ℕ} {ps : List (List UInt8)} {qs : List Packet}

lemma startOf_cons_succ (piece : List UInt8) (i : ℕ) :
    startOf (piece :: ps) (i + 1) = piece.length + startOf ps i := by
  simp [startOf]

lemma startOf_le_length_flatten (ps : List (List UInt8)) (i : ℕ) :
    startOf ps i ≤ ps.flatten.length := by
  have := congrArg (fun l => l.flatten.length) (List.take_append_drop i ps)
  simp only [List.flatten_append, List.length_append] at this
  rw [startOf]
  omega

lemma iphHL_take (hdr : List UInt8) : iphHL (hdr.take ipHlen) = iphHL hdr := by
  simp [iphHL, ipHlen]

lemma iphOffset_take (hdr : List UInt8) : iphOffset (hdr.take ipHlen) = iphOffset hdr := by
  simp [iphOffset, ipHlen]

lemma iphLen_take (hdr : List UInt8) : iphLen (hdr.take ipHlen) = iphLen hdr := by
  simp [iphLen, ipHlen]

lemma Sent.length_eq (h : Sent hdr ofo ps qs) : qs.length = ps.length := by
  induction h with
  | last => rfl
  | more _ _ _ _ ih => rw [List.length_cons, List.length_cons, ih]

lemma Sent.length_pos (h : Sent hdr ofo ps qs) : 0 < ps.length := by
  cases h
  · exact Nat.one_pos
  · exact Nat.succ_pos _

/-- The packet number `i`. -/
lemma Sent.packet (h : Sent hdr ofo ps qs) {i : ℕ} (hi : i < ps.length) :
    startOf ps i % 8 = 0 ∧ ps.getD i [] ≠ [] ∧ ∃ q, qs[i]? = some q ∧
      q.chain.flatten = fragHeader hdr (ofo + startOf ps i / 8 + if i + 1 = ps.length then 0 else
        ipMF) ((ps.getD i []).length + ipHlen) ++ ps.getD i [] := by
  induction h generalizing i with
  | @last ofo piece q hpiece hq =>
    obtain rfl : i = 0 := by simpa using hi
    exact ⟨rfl, hpiece, q, rfl, by simpa using hq⟩
  | @more ofo m piece q ps qs hpiece hm hq hrest ih =>
    cases i with
    | zero =>
      refine ⟨rfl, hpiece, q, rfl, ?_⟩
      have hne : ¬ 0 + 1 = (piece :: ps).length := by
        have := hrest.length_pos
        rw [List.length_cons]
        omega
      rw [if_neg hne]
      simpa using hq
    | succ i =>
      obtain ⟨h₁, h₂, q', hq', hflat⟩ := ih (Nat.lt_of_succ_lt_succ hi)
      rw [startOf_cons_succ, hm]
      refine ⟨by omega, h₂, q', hq', ?_⟩
      have hdiv : ofo + (m * 8 + startOf ps i) / 8 = ofo + m + startOf ps i / 8 := by omega
      have hlast : i + 1 + 1 = (piece :: ps).length ↔ i + 1 = ps.length := by simp
      rw [hdiv, hflat]
      simp only [hlast]
      rfl

/-- A received chain starts with the header that was sent. -/
lemma take_headD {p : Chain} {data : List UInt8} (hhdr : hdr.length = ipHlen)
    (hp : ipHlen ≤ (p.headD []).length) (hflat : p.flatten = hdr ++ data) :
    (p.headD []).take ipHlen = hdr := by
  cases p with
  | nil => exact absurd hp (by decide)
  | cons seg p =>
    rw [List.headD_cons] at hp ⊢
    rw [List.flatten_cons] at hflat
    have htake := congrArg (List.take ipHlen) hflat
    rwa [List.take_append_of_le_length hp, List.take_left' hhdr] at htake

/-- **The packets of `ip4_frag` are fragments.** -/
lemma Sent.fragmented (h : Sent hdr 0 ps qs) (hhdr : ipHlen ≤ hdr.length)
    (hhl : iphHL hdr * 4 = ipHlen) (hlen : ps.flatten.length + ipHlen < 65536) {frag : ℕ → Chain}
    (hfrag : ∀ i q, qs[i]? = some q →
      (frag i).flatten = q.chain.flatten ∧ ipHlen ≤ ((frag i).headD []).length) :
    Fragmented (iphKey hdr) ps frag := by
  refine ⟨fun piece hpiece => ?_, hlen, fun i hi => ?_⟩
  · obtain ⟨i, hi, rfl⟩ := List.getElem_of_mem hpiece
    have := (h.packet hi).2.1
    rwa [List.getD_eq_getElem?_getD, List.getElem?_eq_getElem hi] at this
  · obtain ⟨hmod, -, q, hq, hflat⟩ := h.packet hi
    obtain ⟨hrecv, hhead⟩ := hfrag i q hq
    have hbound := startOf_le_length_flatten ps (i + 1)
    rw [startOf_succ hi] at hbound
    set len := (ps.getD i []).length with hlendef
    set offset := 0 + startOf ps i / 8 + if i + 1 = ps.length then 0 else ipMF with hoffset
    have hoffset' : offset < 65536 := by
      rw [hoffset, ipMF]
      split <;> omega
    have hseg := take_headD (length_fragHeader hhdr) hhead (hrecv.trans hflat)
    have hHL : iphHL ((frag i).headD []) = iphHL hdr := by
      rw [← iphHL_take, hseg, iphHL_fragHeader hhdr]
    have hOff : iphOffset ((frag i).headD []) = offset := by
      rw [← iphOffset_take, hseg, iphOffset_fragHeader hhdr hoffset']
    have hLen : iphLen ((frag i).headD []) = len + ipHlen := by
      rw [← iphLen_take, hseg, iphLen_fragHeader hhdr (by omega)]
    refine ⟨by rw [hHL, hhl], hhead, ?_, ?_, ?_, ?_, ?_⟩
    · rw [← iphKey_take, hseg, iphKey_fragHeader hhdr]
    · rw [fragOffset, hOff, hoffset, ipOffmask, ipMF]
      split <;> omega
    · rw [hOff, hoffset, ipMF]
      split <;> omega
    · rw [fragLen, hLen, hHL, hhl, ipHlen]
      omega
    · rw [hrecv, hflat, List.drop_left' (length_fragHeader hhdr)]

end Received

/-! ### The round trip -/

/-- A packet with some payload, without IP options, that is not a fragment itself. -/
structure IsPacket (p : Chain) : Prop where
  header : ipHlen ≤ (p.headD []).length
  hl : iphHL (p.headD []) * 4 = ipHlen
  offset : iphOffset (p.headD []) % (ipOffmask + 1) = 0
  whole : iphOffset (p.headD []) / ipMF % 2 = 0
  payload : ipHlen < totLen p
  length_lt : totLen p < 65536

lemma ip4Frag_sent {mtu budget : ℕ} {p : Chain} (hp : IsPacket p) (hmtu : ipHlen < mtu)
    (hmtu' : (mtu - ipHlen) % 8 = 0) (hbudget : 2 * totLen p ≤ budget) :
    ∃ ps, ps.flatten = p.flatten.drop ipHlen ∧
      Sent (p.headD []) 0 ps (ip4Frag mtu p budget) := by
  have hpayload := hp.payload
  have hlen := hp.length_lt
  rw [ip4Frag, if_neg (not_not.mpr hp.hl), if_neg (not_not.mpr hp.whole), hp.offset]
  exact ip4FragLoop_sent (Nat.div_mul_cancel (Nat.dvd_of_mod_eq_zero hmtu')).symm (by omega)
    (by omega) (Nat.sub_le _ _) (by rw [List.length_drop, length_flatten_eq_totLen]) hp.header
    (by omega) (by omega)

/-- **The round trip.** A packet is cut by `ip4_frag`, with memory for all its fragments and an
MTU that leaves a multiple of eight bytes for the payload.  (The one of the driver, 1522, does
not: the last fragment but one may then be marked as the last.)  The fragments arrive in an order
in which none skips a hole, each in buffers of any lengths of which the first holds the header,
all in all not more buffers than `IP_REASS_MAX_PBUFS` leaves.  Then `ip4_reass` returns nothing
for all but the last, and with the last the packet: the payload byte for byte, and the header
with the right length, without flags and without a checksum. -/
theorem frag_reass_round_trip {mtu budget : ℕ} {p : Chain} (hp : IsPacket p)
    (hmtu : ipHlen < mtu) (hmtu' : (mtu - ipHlen) % 8 = 0) (hbudget : 2 * totLen p ≤ budget)
    {frag : ℕ → Chain}
    (hfrag : ∀ i q, (ip4Frag mtu p budget)[i]? = some q →
      (frag i).flatten = q.chain.flatten ∧ ipHlen ≤ ((frag i).headD []).length)
    {order : List ℕ} (horder : order.Perm (List.range (ip4Frag mtu p budget).length))
    (hgood : ∀ before j after, order = before ++ j :: after →
      ¬ Skips (ip4Frag mtu p budget).length before j)
    {s : Reass} (hs : s.Ready (iphKey (p.headD [])) (buffers frag order)) :
    ∃ c : Chain,
      deliver s (order.map frag) =
        (s, List.replicate ((ip4Frag mtu p budget).length - 1) none ++ [some c]) ∧
      c.flatten = fragHeader (p.headD []) 0 (totLen p) ++ p.flatten.drop ipHlen := by
  obtain ⟨ps, hps, hsent⟩ := ip4Frag_sent hp hmtu hmtu' hbudget
  have hpayload := hp.payload
  have hlen : ps.flatten.length + ipHlen = totLen p := by
    rw [hps, List.length_drop, length_flatten_eq_totLen]
    omega
  have hfrags := hsent.fragmented hp.header hp.hl (hlen ▸ hp.length_lt) hfrag
  have hpos := hsent.length_pos
  rw [hsent.length_eq] at horder hgood ⊢
  have horder' : order.length = ps.length := by rw [horder.length_eq, List.length_range]
  have hne : order ≠ [] := by
    rintro rfl
    exact hpos.ne horder'
  obtain ⟨c, hrun, hflat⟩ :=
    (hfrags.deliver_iff (l := []) horder hs (.inl ⟨rfl, rfl⟩) hne).mpr hgood
  rw [horder'] at hrun
  refine ⟨c, hrun, ?_⟩
  -- the header of the first fragment differs from that of the packet only where it is written over
  obtain ⟨-, -, q, hq, hsent₀⟩ := hsent.packet hpos
  obtain ⟨hrecv, hhead⟩ := hfrag 0 q hq
  have hseg := take_headD (length_fragHeader hp.header) hhead (hrecv.trans hsent₀)
  rw [hflat, Fragmented.datagram, hlen, hps, ← fragHeader_take, hseg,
    fragHeader_fragHeader hp.header]

/-- A packet of 40 bytes in two buffers. -/
def samplePacket : Chain :=
  [[0x45, 0, 0, 40, 0, 7, 0x40, 0, 64, 17, 1, 2, 10, 0, 0, 1, 10, 0, 0, 2, 1, 2, 3, 4, 5],
    [6, 7, 8, 9, 10, 11, 12, 13, 14, 15, 16, 17, 18, 19, 20]]

/-- What arrives: the packets of `ip4_frag`, each in one buffer. -/
def sampleReceived (i : ℕ) : Chain :=
  ((ip4Frag 28 samplePacket 80)[i]?.map fun q => [q.chain.flatten]).getD []

theorem frag_reass_round_trip_sample :
    ∃ c : Chain, deliver ⟨[], 0, 0, []⟩ ([2, 0, 1].map sampleReceived) =
        (⟨[], 0, 0, []⟩, [none, none, some c]) ∧
      c.flatten = fragHeader (samplePacket.headD []) 0 40 ++ samplePacket.flatten.drop 20 := by
  have hlen : (ip4Frag 28 samplePacket 80).length = 3 := by decide
  have hgood : ∀ before j after, [2, 0, 1] = before ++ j :: after → ¬ Skips 3 before j := by
    simp only [Fragmented.forall_split_cons]
    exact ⟨by decide, by decide, by decide, fun _ _ _ h => absurd h (by simp)⟩
  have hfrag : ∀ i q, (ip4Frag 28 samplePacket 80)[i]? = some q →
      (sampleReceived i).flatten = q.chain.flatten ∧
        ipHlen ≤ ((sampleReceived i).headD []).length := by
    intro i q hq
    have hrecv : sampleReceived i = [q.chain.flatten] := by rw [sampleReceived, hq]; rfl
    refine ⟨by rw [hrecv, List.flatten_singleton], ?_⟩
    have hi : i < 3 := hlen ▸ (List.getElem?_eq_some_iff.mp hq).1
    clear hq hrecv
    revert i
    decide
  exact frag_reass_round_trip ⟨by decide, by decide, by decide, by decide, by decide, by decide⟩
    (by decide) (by decide) (by decide) hfrag (hlen ▸ by decide) (hlen ▸ hgood)
    ⟨by simp [keys], by decide, by decide⟩

/-- With 14 bytes for the payload already the second of three fragments says that no more
follow. -/
example : (ip4Frag 34 samplePacket 80).map (fun q => iphOffset (q.chain.headD [])) =
    [0x2000, 1, 2] := by decide

end Teensy41Ethernet.Lwip
