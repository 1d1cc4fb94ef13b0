import Teensy41Ethernet.Etherraw.Node
import Teensy41Ethernet.Lib.Run

/-!
# Datagrams sent and received

The frame that `sendto` passes to `outgoing` is the prefabricated frame with the ports, the
lengths, the checksums and the payload of the datagram.  Whatever the node did before, the
other bytes of its headers are those of the initialiser; so each field of the frame can be
read off the last write to it.
-/

namespace Teensy41Ethernet.Etherraw

open Lib

/-! ### What a node does -/

/-- A payload that fits into `prefab`. -/
structure Payload where
  bytes : List UInt8
  fits : p8 42 + bytes.length ≤ buffSize

/-- A call of one of the functions that use `prefab` or `UDP_buff`. -/
inductive Op where
  | sendto (packet : Payload) (sport : ℤ) (dest : ℕ) (dport : ℤ)
  | udpBlast (pkts bytes : ℕ)
  | handleFrame (packet : ℕ → UInt8) (len : ℕ) (stack : ℕ → UInt8)
  | recvfrom

/-- The node after a call. -/
def nodeStep (n : Node) : Op → Option Node
  | .sendto packet sport dest dport => some (sendto n packet.bytes sport dest dport)
  | .udpBlast pkts bytes => some (udpBlast n pkts bytes)
  | .handleFrame packet len stack => some (handleFrame n packet len stack)
  | .recvfrom => (recvfrom n).map fun r => r.2.2

/-! ### The fixed part of the headers -/

/-- The Ethernet and IP headers are those of the initialiser, but for the total length and the
checksum. -/
def Prefab (m : ℕ → UInt8) : Prop :=
  ∀ i < p8 34, ¬ (p8 16 ≤ i ∧ i < p8 18) → ¬ (p8 24 ≤ i ∧ i < p8 26) → m i = prefabInit.getD i 0

/-- The bytes that `fillHeader` does not write. -/
lemma fillHeader_of_notMem {m : ℕ → UInt8} {dport udplth iplth : ℤ} {i : ℕ}
    (hlen : ¬ (p8 16 ≤ i ∧ i < p8 18)) (hsum : ¬ (p8 24 ≤ i ∧ i < p8 26))
    (hudp : ¬ (p8 36 ≤ i ∧ i < p8 42)) : fillHeader m dport udplth iplth i = m i := by
  simp only [p8] at hlen hsum hudp
  simp only [fillHeader, p16]
  rw [put16_of_notMem (by omega), put16_of_notMem (by omega), put16_of_notMem (by omega),
    put16_of_notMem (by omega), put16_of_notMem (by omega), put16_of_notMem (by omega)]

lemma Prefab.fillHeader {m : ℕ → UInt8} (h : Prefab m) (dport udplth iplth : ℤ) :
    Prefab (fillHeader m dport udplth iplth) := by
  intro i hi hlen hsum
  rw [fillHeader_of_notMem hlen hsum (by simp only [p8] at *; omega)]
  exact h i hi hlen hsum

/-- Changes behind the IP header do not touch the fixed part. -/
lemma Prefab.of_eq {m m' : ℕ → UInt8} (h : Prefab m) (heq : ∀ i < p8 34, m' i = m i) : Prefab m' :=
  fun i hi hlen hsum => (heq i hi).trans (h i hi hlen hsum)

/-- The memory in which `sendto` composes its frame. -/
def sendtoMem (m : ℕ → UInt8) (packet : List UInt8) (sport dport : ℤ) : ℕ → UInt8 :=
  fillHeader (put16 (store m (p8 42) packet) (p16 17) (swap2 (u16 sport))) dport
    (packet.length + 8 : ℕ) (20 + (packet.length + 8) : ℕ)

lemma sendto_eq (n : Node) (packet : List UInt8) (sport : ℤ) (dest : ℕ) (dport : ℤ) :
    sendto n packet sport dest dport =
      outgoing { n with prefab := sendtoMem n.prefab packet sport dport }
        (sendtoMem n.prefab packet sport dport) (44 + packet.length) := by
  rw [show 44 + packet.length = 14 + 2 + (20 + (packet.length + 8)) by omega]
  rfl

lemma Prefab.sendtoMem {m : ℕ → UInt8} (h : Prefab m) (packet : List UInt8) (sport dport : ℤ) :
    Prefab (sendtoMem m packet sport dport) := by
  refine Prefab.fillHeader (h.of_eq fun i hi => ?_) _ _ _
  simp only [p8] at hi
  rw [put16_of_notMem (Or.inl (by simp only [p16]; omega)),
    store_of_notMem _ (Or.inl (by simp only [p8]; omega))]

lemma Prefab.udpBlastLoop {n : Node} (h : Prefab n.prefab) (pktlth i pkts : ℕ) :
    Prefab (udpBlastLoop n pktlth i pkts).prefab := by
  induction pkts generalizing n i with
  | zero => exact h
  | succ pkts ih =>
    refine ih (h.of_eq fun j hj => ?_) (i + 1)
    simp only [p8] at hj
    exact put32_of_notMem (Or.inl (by simp only [p32]; omega))

/-- Receiving does not write `prefab`. -/
lemma prefab_handleFrame (n : Node) (packet : ℕ → UInt8) (len : ℕ) (stack : ℕ → UInt8) :
    (handleFrame n packet len stack).prefab = n.prefab := by
  have hping : ∀ n : Node, (pingReply n packet len stack).prefab = n.prefab := by
    intro n
    rw [pingReply]
    split <;> rfl
  have harp : ∀ n : Node, (arpParse n packet stack).prefab = n.prefab := by
    intro n
    simp only [arpParse]
    split
    · split <;> rfl
    · rfl
  simp only [handleFrame]
  split
  · split
    · split
      · exact hping _
      · rfl
    · split
      · rfl
      · split <;> rfl
  · split
    · exact harp _
    · rfl

/-- Every call keeps the fixed part. -/
lemma Prefab.step {n n' : Node} {op : Op} (h : Prefab n.prefab) (hstep : nodeStep n op = some n') :
    Prefab n'.prefab := by
  cases op with
  | sendto packet sport dest dport =>
    obtain rfl := Option.some.inj hstep
    rw [sendto_eq]
    exact h.sendtoMem packet.bytes sport dport
  | udpBlast pkts bytes =>
    obtain rfl := Option.some.inj hstep
    exact Prefab.udpBlastLoop (h.fillHeader _ _ _) _ _ _
  | handleFrame packet len stack =>
    obtain rfl := Option.some.inj hstep
    rwa [prefab_handleFrame]
  | recvfrom =>
    obtain ⟨r, hr, rfl⟩ := Option.map_eq_some_iff.mp hstep
    simp only [recvfrom, Option.ite_none_left_eq_some, Option.some.injEq] at hr
    obtain ⟨-, rfl⟩ := hr
    exact h

lemma Prefab.run {cfg : Config} {ops : List Op} {n : Node}
    (h : exec nodeStep (Node.init cfg) ops = some n) : Prefab n.prefab :=
  exec_inv (P := fun n => Prefab n.prefab) (fun _ _ _ hs hstep => hs.step hstep)
    (fun _ _ _ _ => rfl) h

/-! ### The fields of the frame -/

section Fields

variable (m : ℕ → UInt8) (packet : List UInt8) (sport dport udplth iplth : ℤ)

lemma get16_fillHeader_dport :
    get16 (fillHeader m dport udplth iplth) (p16 18) = swap2 (u16 dport) := by
  simp only [fillHeader, p16]
  rw [get16_put16_of_disjoint (by omega), get16_put16_of_disjoint (by omega),
    get16_put16_of_disjoint (by omega), get16_put16_of_disjoint (by omega),
    get16_put16_of_disjoint (by omega), get16_put16, Nat.mod_eq_of_lt (swap2_lt _)]

lemma get16_fillHeader_udplth :
    get16 (fillHeader m dport udplth iplth) (p16 19) = swap2 (u16 udplth) := by
  simp only [fillHeader, p16]
  rw [get16_put16_of_disjoint (by omega), get16_put16_of_disjoint (by omega),
    get16_put16_of_disjoint (by omega), get16_put16_of_disjoint (by omega), get16_put16,
    Nat.mod_eq_of_lt (swap2_lt _)]

lemma get16_fillHeader_iplth :
    get16 (fillHeader m dport udplth iplth) (p16 8) = swap2 (u16 iplth) := by
  simp only [fillHeader, p16]
  rw [get16_put16_of_disjoint (by omega), get16_put16_of_disjoint (by omega),
    get16_put16_of_disjoint (by omega), get16_put16, Nat.mod_eq_of_lt (swap2_lt _)]

/-- The IP header checks. -/
lemma onesSum_fillHeader :
    onesSum (beWords (load (fillHeader m dport udplth iplth) (p8 14) 20)) = 0xFFFF := by
  simp only [fillHeader]
  rw [show p16 12 = p8 14 + 2 * 5 from rfl]
  refine onesSum_put16_inetChksum (by omega) (by omega) ?_
  simp only [p8, p16]
  rw [get16_put16_of_disjoint (by omega), get16_put16]

lemma get16_sendtoMem_sport :
    get16 (sendtoMem m packet sport dport) (p16 17) = swap2 (u16 sport) := by
  have hkeep : get16 (sendtoMem m packet sport dport) (p16 17) =
      get16 (put16 (store m (p8 42) packet) (p16 17) (swap2 (u16 sport))) (p16 17) := by
    refine get16_congr fun c hc hc' => ?_
    simp only [p16] at hc hc'
    exact fillHeader_of_notMem (by simp only [p8]; omega) (by simp only [p8]; omega)
      (by simp only [p8]; omega)
  rw [hkeep, get16_put16, Nat.mod_eq_of_lt (swap2_lt _)]

/-- The payload stands behind the headers. -/
lemma load_sendtoMem : load (sendtoMem m packet sport dport) (p8 42) packet.length = packet := by
  have hkeep : load (sendtoMem m packet sport dport) (p8 42) packet.length =
      load (store m (p8 42) packet) (p8 42) packet.length := by
    refine load_congr fun c hc _ => ?_
    simp only [p8] at hc
    rw [sendtoMem, fillHeader_of_notMem (by simp only [p8]; omega) (by simp only [p8]; omega)
      (by simp only [p8]; omega), put16_of_notMem (Or.inr (by simp only [p16]; omega))]
  rw [hkeep, load_store]

end Fields

/-- A word of 16 bits, with its bytes exchanged twice. -/
lemma swap2_swap2_u16 {x : ℕ} (h : x < 65536) : swap2 (swap2 (u16 x)) = x := by
  rw [u16, show ((x : ℤ) % 65536).toNat = x by omega, swap2_swap2 h]

/-- The memory holds the frame of a datagram. -/
structure Carries (m : ℕ → UInt8) (payload : List UInt8) (sport dport : ℕ) : Prop where
  type_eq : get16 m (p16 6) = 0x0008
  proto_eq : m (p8 23) = 17
  iplth_eq : swap2 (get16 m (p16 8)) = 28 + payload.length
  udplth_eq : swap2 (get16 m (p16 19)) = payload.length + 8
  sport_eq : swap2 (get16 m (p16 17)) = sport
  dport_eq : swap2 (get16 m (p16 18)) = dport
  checks : onesSum (beWords (load m (p8 14) 20)) = 0xFFFF
  payload_eq : load m (p8 42) payload.length = payload

/-- `sendto` composes the frame of its datagram. -/
lemma Prefab.carries {m : ℕ → UInt8} (h : Prefab m) {payload : List UInt8}
    (hlen : payload.length ≤ 1460) (sport dport : UInt16) :
    Carries (Etherraw.sendtoMem m payload sport.toNat dport.toNat) payload sport.toNat
      dport.toNat := by
  have hfixed := h.sendtoMem payload sport.toNat dport.toNat
  refine { type_eq := ?_, proto_eq := hfixed (p8 23) (by decide) (by decide) (by decide)
           iplth_eq := ?_, udplth_eq := ?_, sport_eq := ?_, dport_eq := ?_
           checks := onesSum_fillHeader _ _ _ _, payload_eq := load_sendtoMem _ _ _ _ }
  · rw [get16, hfixed (p16 6) (by decide) (by decide) (by decide),
      hfixed (p16 6 + 1) (by decide) (by decide) (by decide)]
    rfl
  · rw [Etherraw.sendtoMem, get16_fillHeader_iplth, swap2_swap2_u16 (by omega)]
    omega
  · rw [Etherraw.sendtoMem, get16_fillHeader_udplth, swap2_swap2_u16 (by omega)]
  · rw [get16_sendtoMem_sport, swap2_swap2_u16 sport.toNat_lt]
  · rw [Etherraw.sendtoMem, get16_fillHeader_dport, swap2_swap2_u16 dport.toNat_lt]

/-! ### The way back -/

/-- Two memories that hold the same frame hold the same datagram. -/
lemma Carries.congr {m m' : ℕ → UInt8} {payload : List UInt8} {sport dport : ℕ}
    (h : Carries m payload sport dport) (heq : ∀ i < 44 + payload.length, m' i = m i) :
    Carries m' payload sport dport := by
  have hword : ∀ a, a + 2 ≤ 44 → get16 m' a = get16 m a :=
    fun a ha => get16_congr fun c _ hc' => heq c (by omega)
  have hload : ∀ a k, a + k ≤ 44 + payload.length → load m' a k = load m a k :=
    fun a k ha => load_congr fun c _ hc' => heq c (by omega)
  exact
    { type_eq := (hword _ (by decide)).trans h.type_eq
      proto_eq := (heq _ (by simp only [p8]; omega)).trans h.proto_eq
      iplth_eq := by rw [hword _ (by decide), h.iplth_eq]
      udplth_eq := by rw [hword _ (by decide), h.udplth_eq]
      sport_eq := by rw [hword _ (by decide), h.sport_eq]
      dport_eq := by rw [hword _ (by decide), h.dport_eq]
      checks := by rw [hload _ _ (by simp only [p8]; omega), h.checks]
      payload_eq := (hload _ _ (by simp only [p8]; omega)).trans h.payload_eq }

/-- A datagram for this node goes to `UDP_buff`, and `recvfrom` returns its payload. -/
lemma Carries.recvfrom_handleFrame {packet : ℕ → UInt8} {payload : List UInt8} {sport dport : ℕ}
    (h : Carries packet payload sport dport) {r : Node}
    (hdst : get32 packet (p32 8) = r.cfg.myaddress) (stack : ℕ → UInt8) :
    ∃ r', recvfrom (handleFrame r packet (44 + payload.length) stack) =
      some (payload, (payload.length : ℤ), r') := by
  have hbuff : (handleFrame r packet (44 + payload.length) stack).udpBuff =
      store r.udpBuff 0 (load packet 0 (44 + payload.length)) := by
    simp only [handleFrame, h.type_eq, h.proto_eq, hdst]
    rfl
  -- the buffer holds the frame, hence the datagram
  have hcopy : ∀ i < 44 + payload.length,
      (handleFrame r packet (44 + payload.length) stack).udpBuff i = packet i := by
    intro i hi
    have hback := congrArg (fun bs => bs.getD i 0)
      (load_store r.udpBuff 0 (load packet 0 (44 + payload.length)))
    simp only [length_load] at hback
    rw [getD_load _ hi, getD_load _ hi, zero_add] at hback
    rw [hbuff, hback]
  have hkept := h.congr hcopy
  have hlth : ((payload.length + 8 : ℕ) : ℤ) - 8 = payload.length := by omega
  simp only [recvfrom, hkept.udplth_eq, hlth]
  rw [if_neg (by omega), Int.toNat_natCast, hkept.payload_eq]
  exact ⟨_, rfl⟩

/-- **A datagram comes back as it was sent.**  Whatever the node has sent and received before,
the frame that `sendto` passes to `outgoing` has the lengths, the protocol and the ports of
the datagram; its IP header checks; and a node with the destination address that is given the
frame returns the payload from `recvfrom`. -/
theorem sendto_recvfrom (cfg : Config) (ops : List Op) {n : Node}
    (hrun : exec nodeStep (Node.init cfg) ops = some n) (payload : List UInt8)
    (hlen : payload.length ≤ 1460) (sport dport : UInt16) (dest : ℕ) :
    ∃ frame,
      (sendto n payload sport.toNat dest dport.toNat).sent = n.sent ++ [frame] ∧
      (frame.length = 44 + payload.length ∧ be16 frame (p8 16) = 28 + payload.length ∧
        be16 frame (p8 38) = 8 + payload.length ∧ frame.getD (p8 23) 0 = 17 ∧
        be16 frame (p8 34) = sport.toNat ∧ be16 frame (p8 36) = dport.toNat) ∧
      onesSum (beWords ((frame.drop (p8 14)).take 20)) = 0xFFFF ∧
      ∀ (r : Node) (packet stack : ℕ → UInt8),
        load packet 0 frame.length = frame → r.cfg.myaddress = le32 frame (p32 8) →
          ∃ r', recvfrom (handleFrame r packet frame.length stack) =
            some (payload, (payload.length : ℤ), r') := by
  have hcarries := (Prefab.run hrun).carries hlen sport dport
  rw [sendto_eq]
  generalize sendtoMem n.prefab payload sport.toNat dport.toNat = m at hcarries ⊢
  refine ⟨load m 0 (44 + payload.length), rfl, ⟨length_load _ _ _, ?_, ?_, ?_, ?_, ?_⟩, ?_, ?_⟩
  · rw [be16_load m (by simp only [p8]; omega)]
    exact hcarries.iplth_eq
  · rw [be16_load m (by simp only [p8]; omega), add_comm]
    exact hcarries.udplth_eq
  · rw [getD_load m (by simp only [p8]; omega), zero_add, hcarries.proto_eq]
  · rw [be16_load m (by simp only [p8]; omega)]
    exact hcarries.sport_eq
  · rw [be16_load m (by simp only [p8]; omega)]
    exact hcarries.dport_eq
  · rw [take_drop_load m (by simp only [p8]; omega), zero_add]
    exact hcarries.checks
  · intro r packet stack hpacket haddr
    rw [length_load] at hpacket ⊢
    -- the receive buffer holds the frame
    have hsame : ∀ i < 44 + payload.length, packet i = m i := by
      intro i hi
      have hget := congrArg (fun bs => bs.getD i 0) hpacket
      simpa only [getD_load _ hi, zero_add] using hget
    refine (hcarries.congr hsame).recvfrom_handleFrame ?_ stack
    rw [haddr, le32_load m (by simp only [p32]; omega)]
    exact get32_congr fun c _ hc' => hsame c (by simp only [p32] at hc'; omega)

/-- Three bytes to port 7654, after a blast and another datagram, given to a node with the
destination address. -/
theorem sendto_recvfrom_three_bytes :
    let ops : List Op := [.udpBlast 2 20, .sendto ⟨[9, 9], by decide⟩ 4444 0 7]
    ∃ n frame r, exec nodeStep (Node.init sketchConfig) ops = some n ∧
      (sendto n [1, 2, 3] (4444 : UInt16).toNat 0 (7654 : UInt16).toNat).sent = n.sent ++ [frame] ∧
      frame.length = 47 ∧ onesSum (beWords ((frame.drop (p8 14)).take 20)) = 0xFFFF ∧
      ∃ r', recvfrom (handleFrame r (fun i => frame.getD i 0) frame.length fun _ => 0) =
        some ([1, 2, 3], 3, r') := by
  intro ops
  obtain ⟨frame, hsent, ⟨hlength, -⟩, hchecks, hrecv⟩ :=
    sendto_recvfrom sketchConfig ops rfl [1, 2, 3] (by decide) 4444 7654 0
  have hlt : le32 frame (p32 8) < 2 ^ 32 := get32_lt _ _
  let r := Node.init ⟨0, 0, le32 frame (p32 8), by decide, by decide, hlt⟩
  refine ⟨_, frame, r, rfl, hsent, hlength, hchecks, hrecv r _ _ ?_ rfl⟩
  refine List.ext_getElem (length_load _ _ _) fun i h₁ h₂ => ?_
  have hget := getD_load (fun i => frame.getD i 0) h₂ 0
  rw [List.getD_eq_getElem?_getD, List.getElem?_eq_getElem h₁, zero_add] at hget
  simpa [h₂] using hget

end Teensy41Ethernet.Etherraw
