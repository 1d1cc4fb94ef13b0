import Mathlib.Data.UInt
import Teensy41Ethernet.Lib.CString
import Teensy41Ethernet.Lwip.Pbuf

/-!
# Sketches that consume what lwIP delivers

`recv_callback` of `lwip_perf` opens the TCP window again for the data of a chain of buffers and
counts them.  It adds up the `tot_len` fields of the members, each of which counts the members
behind it too.

`udp_callback` of `ethernet28266/lwip_udp` copies a datagram to a buffer of 256 bytes with the
length of the datagram, as if it were in one piece, and `udp_sink` prints the buffer in a loop
whose counter has 8 bits.
-/

namespace Teensy41Ethernet.Sketch

open Lib Lwip

/-! ### `recv_callback` of `lwip_perf` -/

/-- `t0` and `bytes` of `recv_callback`, and `tcprx_running`.  The last fields record the lengths
passed to `tcp_recved`, and what was printed at the end of each connection: `bytes` and the time. -/
structure Perf where
  t0 : UInt32
  bytes : UInt32
  tcprxRunning : Bool
  recved : List UInt16
  printed : List (UInt32 × UInt32)

/-- The loop over the chain, with what has been added up before. -/
def addTotLens : UInt32 → Chain → UInt32
  | qbytes, [] => qbytes
  | qbytes, seg :: q => addTotLens (qbytes + UInt32.ofNat (totLen (seg :: q))) q

/-- `recv_callback` at the time `t`; without a chain the other end has closed.  The parameter of
`tcp_recved` is a `u16_t`. -/
def recvCallback (s : Perf) (t : UInt32) (p : Option Chain) : Perf :=
  let t0 := if s.t0 = 0 then t else s.t0
  match p with
  | none =>
      { s with
        t0 := 0
        bytes := 0
        tcprxRunning := false
        printed := s.printed ++ [(s.bytes, t - t0)] }
  | some p =>
      let qbytes := addTotLens 0 p
      { s with
        t0 := t0
        bytes := s.bytes + qbytes
        recved := s.recved ++ [qbytes.toUInt16] }

/-- The `tot_len` fields of a chain, added up. -/
def totLenSum : Chain → ℕ
  | [] => 0
  | seg :: q => totLen (seg :: q) + totLenSum q

/-- The window is opened and the counter advanced by the number of bytes in the chain. -/
structure CountsBytes (s : Perf) (t : UInt32) (p : Chain) : Prop where
  recved_eq : (recvCallback s t (some p)).recved = s.recved ++ [UInt16.ofNat (totLen p)]
  bytes_eq : (recvCallback s t (some p)).bytes = s.bytes + UInt32.ofNat (totLen p)

section Perf

variable {p : Chain}

lemma toNat_addTotLens (qbytes : UInt32) (p : Chain) :
    (addTotLens qbytes p).toNat = (qbytes.toNat + totLenSum p) % 2 ^ 32 := by
  induction p generalizing qbytes with
  | nil => exact (Nat.mod_eq_of_lt qbytes.toNat_lt).symm
  | cons seg q ih =>
    rw [addTotLens, ih, totLenSum, UInt32.toNat_add, UInt32.toNat_ofNat', Nat.mod_add_mod,
      Nat.add_assoc, Nat.add_left_comm, Nat.mod_add_mod]
    congr 1
    omega

lemma totLenSum_eq (p : Chain) : totLenSum p = totLen p + totLenSum p.tail := by
  cases p with
  | nil => rfl
  | cons seg q => rfl

lemma totLenSum_le (p : Chain) : totLenSum p ≤ p.length * totLen p := by
  induction p with
  | nil => exact Nat.zero_le _
  | cons seg q ih =>
    have hle : totLen q ≤ totLen (seg :: q) := Nat.le_add_left _ _
    have hmul : q.length * totLen q ≤ q.length * totLen (seg :: q) := Nat.mul_le_mul_left _ hle
    rw [totLenSum, List.length_cons, Nat.succ_mul]
    omega

/-- The members behind the first are counted once for each member that they are behind. -/
lemma countsBytes_iff (s : Perf) (t : UInt32) (htot : totLen p < 2 ^ 16) :
    CountsBytes s t p ↔ totLenSum p.tail % 2 ^ 32 = 0 := by
  have hsum := toNat_addTotLens 0 p
  have hsplit := totLenSum_eq p
  have hzero : (0 : UInt32).toNat = 0 := rfl
  have hlen : (UInt32.ofNat (totLen p)).toNat = totLen p := by
    rw [UInt32.toNat_ofNat']
    omega
  have hqbytes : addTotLens 0 p = UInt32.ofNat (totLen p) ↔ totLenSum p.tail % 2 ^ 32 = 0 := by
    rw [← UInt32.toNat_inj, hsum, hlen]
    omega
  rw [← hqbytes]
  constructor
  · intro h
    exact add_left_cancel h.bytes_eq
  · intro h
    refine ⟨?_, ?_⟩
    · have hcast : (UInt32.ofNat (totLen p)).toUInt16 = UInt16.ofNat (totLen p) := by
        refine UInt16.toNat_inj.mp ?_
        rw [UInt32.toNat_toUInt16, hlen, UInt16.toNat_ofNat']
      simp only [recvCallback, h, hcast]
    · simp only [recvCallback, h]

end Perf

/-- **Window accounting.**  For a chain with less than 64 KiB, as many bytes are passed to
`tcp_recved` and added to the counter as there are in the chain, if and only if the `tot_len` fields
behind the first member add up to 0 in 32 bits.  In chains of up to 65537 members this means that
all data are in the first one. -/
theorem recvCallback_counts_iff (s : Perf) (t : UInt32) (p : Chain) (htot : totLen p < 2 ^ 16) :
    (CountsBytes s t p ↔ totLenSum p.tail % 2 ^ 32 = 0) ∧
      (p.length ≤ 65537 → (CountsBytes s t p ↔ totLen p.tail = 0)) := by
  refine ⟨countsBytes_iff s t htot, fun hlength => ?_⟩
  have htail : totLen p.tail ≤ totLen p := by
    cases p with
    | nil => exact le_rfl
    | cons seg q => exact Nat.le_add_left _ _
  have hsum := totLenSum_le p.tail
  have hlow := totLenSum_eq p.tail
  have hbound : p.tail.length * totLen p.tail ≤ 65536 * 65535 := by
    refine Nat.mul_le_mul ?_ (by omega)
    rw [List.length_tail]
    omega
  rw [countsBytes_iff s t htot]
  constructor
  · intro h
    omega
  · intro h
    rw [h, Nat.mul_zero] at hsum
    omega

theorem recvCallback_counts_single : CountsBytes ⟨0, 0, true, [], []⟩ 1 [[1, 2, 3]] :=
  ((recvCallback_counts_iff ⟨0, 0, true, [], []⟩ 1 [[1, 2, 3]] (by decide)).2 (by decide)).mpr rfl

/-- Three bytes in two members are counted as four. -/
theorem recvCallback_miscounts :
    (recvCallback ⟨0, 0, true, [], []⟩ 1 (some [[1, 2], [3]])).recved = [4] ∧
      (recvCallback ⟨0, 0, true, [], []⟩ 1 (some [[1, 2], [3]])).bytes = 4 ∧
      totLen [[1, 2], [3]] = 3 := by
  decide

/-! ### `udp_callback` and `udp_sink` of `lwip_udp` -/

/-- `udp_bytes`, `udp_pkts` and `rx_buffer`. -/
structure Sink where
  udpBytes : ℕ
  udpPkts : ℕ
  rxBuffer : List UInt8
deriving DecidableEq

/-- The size of `rx_buffer`. -/
def rxBufferSize : ℕ := 256

/-- `udp_callback`, with the memory behind the first member of the chain; `none` when it writes past
the end of `rx_buffer`. -/
def udpCallback (s : Sink) (p : Option Chain) (behind : ℕ → UInt8) : Option Sink :=
  match p with
  | none => some s
  | some p =>
      let copy :=
        if totLen p > 0 then copyTo s.rxBuffer 0 (payloadBytes p behind (totLen p))
        else some s.rxBuffer
      copy.map fun rxBuffer => { udpBytes := totLen p, udpPkts := 1, rxBuffer := rxBuffer }

/-- The loop of `udp_sink` that prints the buffer, from `ii` on, with what it has printed; `none`
when it has not ended after as many rounds as there is fuel. -/
def printLoop (s : Sink) : ℕ → UInt8 → List UInt8 → Option (List UInt8)
  | 0, _, _ => none
  | fuel + 1, ii, out =>
      if ii.toNat < s.udpBytes then
        printLoop s fuel (ii + 1) (out ++ [s.rxBuffer.getD ii.toNat 0])
      else some out

/-- One round of `udp_sink` after the packets have been taken: what it prints, and the variables
after it. -/
def udpSink (s : Sink) (fuel : ℕ) : Option (List UInt8 × Sink) :=
  (if s.udpBytes > 0 then printLoop s fuel 0 [] else some []).map fun out =>
    (out, { s with udpBytes := 0, udpPkts := 0 })

/-- The datagram is stored as far as `rx_buffer` goes, and `udp_sink` prints what was stored. -/
def PrintsDatagram (s : Sink) (p : Chain) (behind : ℕ → UInt8) : Prop :=
  ∃ s', udpCallback s (some p) behind = some s' ∧ s'.udpBytes ≤ rxBufferSize ∧
    s'.rxBuffer.take s'.udpBytes = p.flatten.take s'.udpBytes ∧
    ∃ fuel, udpSink s' fuel =
      some (s'.rxBuffer.take s'.udpBytes, { s' with udpBytes := 0, udpPkts := 0 })

section Sink

variable {s : Sink}

lemma printLoop_of_large (h : 256 ≤ s.udpBytes) (fuel : ℕ) (ii : UInt8) (out : List UInt8) :
    printLoop s fuel ii out = none := by
  induction fuel generalizing ii out with
  | zero => rfl
  | succ fuel ih =>
    have hii : ii.toNat < s.udpBytes := ii.toNat_lt.trans_le h
    rw [printLoop, if_pos hii, ih]

/-- With fewer bytes the loop prints them one after the other; `k` are left. -/
lemma printLoop_of_small (h : s.udpBytes ≤ 255) (hbuffer : s.udpBytes ≤ s.rxBuffer.length) (k : ℕ)
    (ii : UInt8) (out : List UInt8) (hk : ii.toNat + k = s.udpBytes) :
    printLoop s (k + 1) ii out = some (out ++ (s.rxBuffer.drop ii.toNat).take k) := by
  induction k generalizing ii out with
  | zero =>
    rw [printLoop, if_neg (by omega), List.take_zero, List.append_nil]
  | succ k ih =>
    have hnext : (ii + 1).toNat = ii.toNat + 1 := by
      rw [UInt8.toNat_add]
      exact Nat.mod_eq_of_lt (by change _ + 1 < 256; omega)
    have hlt : ii.toNat < s.rxBuffer.length := by omega
    rw [printLoop, if_pos (by omega), ih (ii + 1) _ (by omega), hnext,
      List.drop_eq_getElem_cons hlt, List.take_succ_cons, List.append_assoc,
      List.singleton_append, List.getD_eq_getElem?_getD, List.getElem?_eq_getElem hlt,
      Option.getD_some]

lemma udpCallback_eq (hs : s.rxBuffer.length = rxBufferSize) {p : Chain} (behind : ℕ → UInt8)
    (hpos : 0 < totLen p) : udpCallback s (some p) behind =
      if totLen p ≤ rxBufferSize then
        some ⟨totLen p, 1, payloadBytes p behind (totLen p) ++ s.rxBuffer.drop (totLen p)⟩
      else none := by
  have hlen := length_payloadBytes p behind (totLen p)
  simp only [udpCallback, if_pos hpos]
  split
  · next hle =>
    have hcopy := copyTo_append [] (s.rxBuffer.take (totLen p)) (s.rxBuffer.drop (totLen p))
      (payloadBytes p behind (totLen p)) (by rw [List.length_take, hlen]; omega)
    rw [List.nil_append, List.nil_append, List.take_append_drop, List.length_nil] at hcopy
    rw [hcopy, Option.map_some]
  · next hgt =>
    rw [copyTo_eq_none (Nat.zero_le _) (by omega), Option.map_none]

lemma exists_udpSink_iff (hpos : 0 < s.udpBytes) (hbuffer : s.udpBytes ≤ s.rxBuffer.length) :
    (∃ fuel, udpSink s fuel =
      some (s.rxBuffer.take s.udpBytes, { s with udpBytes := 0, udpPkts := 0 })) ↔
      s.udpBytes ≤ 255 := by
  constructor
  · rintro ⟨fuel, h⟩
    by_contra hlarge
    rw [udpSink, if_pos hpos, printLoop_of_large (by omega)] at h
    cases h
  · intro hsmall
    have hprint := printLoop_of_small hsmall hbuffer s.udpBytes 0 [] (Nat.zero_add _)
    refine ⟨s.udpBytes + 1, ?_⟩
    rw [udpSink, if_pos hpos, hprint]
    rfl

end Sink

/-- **The UDP sink.**  For a datagram of any length, in one buffer or in a chain, the datagram is
stored in `rx_buffer` as far as it goes and `udp_sink` ends after it has printed each stored byte
once, if and only if the datagram has at most 255 bytes and the memory behind the first member of
the chain holds the others. -/
theorem udpSink_prints_iff (s : Sink) (p : Chain) (behind : ℕ → UInt8)
    (hs : s.rxBuffer.length = rxBufferSize) :
    PrintsDatagram s p behind ↔
      totLen p ≤ 255 ∧ (List.range (totLen p.tail)).map behind = p.tail.flatten := by
  rw [← payloadBytes_totLen_eq_iff]
  rcases Nat.eq_zero_or_pos (totLen p) with hzero | hpos
  · -- an empty datagram is neither copied nor printed
    have hflatten : p.flatten = [] := by
      rw [← List.length_eq_zero_iff, length_flatten_eq_totLen, hzero]
    have hempty : payloadBytes p behind 0 = [] :=
      List.eq_nil_of_length_eq_zero (length_payloadBytes p behind 0)
    rw [hzero, hflatten]
    refine iff_of_true ⟨⟨0, 1, s.rxBuffer⟩, ?_, Nat.zero_le _, rfl, 0, rfl⟩
      ⟨Nat.zero_le _, hempty⟩
    simp only [udpCallback, hzero, Nat.lt_irrefl, gt_iff_lt, if_false, Option.map_some]
  have hlen := length_payloadBytes p behind (totLen p)
  have hflatten : p.flatten.take (totLen p) = p.flatten :=
    List.take_of_length_le (length_flatten_eq_totLen p).le
  have htake : ∀ rest, (payloadBytes p behind (totLen p) ++ rest).take (totLen p) =
      payloadBytes p behind (totLen p) := fun rest => List.take_left' hlen
  rw [PrintsDatagram, udpCallback_eq hs behind hpos]
  constructor
  · rintro ⟨s', hs', hle, hbytes, hprint⟩
    split at hs'
    · obtain rfl := Option.some.inj hs'
      have hsmall := (exists_udpSink_iff hpos ?_).mp hprint
      · simp only [htake, hflatten] at hbytes
        exact ⟨hsmall, hbytes⟩
      · rw [List.length_append, hlen]
        exact Nat.le_add_right _ _
    · cases hs'
  · rintro ⟨hsmall, hbytes⟩
    have hle : totLen p ≤ rxBufferSize := hsmall.trans (by decide)
    refine ⟨_, if_pos hle, hle, ?_, (exists_udpSink_iff hpos ?_).mpr hsmall⟩
    · simp only [htake, hflatten]
      exact hbytes
    · rw [List.length_append, hlen]
      exact Nat.le_add_right _ _

theorem udpSink_prints_single :
    PrintsDatagram ⟨0, 0, List.replicate 256 0⟩ [[1, 2, 3]] fun _ => 0 :=
  (udpSink_prints_iff ⟨0, 0, List.replicate 256 0⟩ [[1, 2, 3]] (fun _ => 0)
    List.length_replicate).mpr ⟨by decide, rfl⟩

/-- A datagram of 256 bytes fits `rx_buffer`, but the printing does not end; one of 257 bytes is
written past the end; and of a chain only the first member is stored. -/
theorem udpSink_fails :
    (∀ fuel, udpSink ⟨256, 1, List.replicate 256 7⟩ fuel = none) ∧
      udpCallback ⟨0, 0, List.replicate 256 0⟩ (some [List.replicate 256 7]) (fun _ => 0) =
        some ⟨256, 1, List.replicate 256 7⟩ ∧
      udpCallback ⟨0, 0, List.replicate 256 0⟩ (some [List.replicate 257 7]) (fun _ => 0) = none ∧
      (udpCallback ⟨0, 0, List.replicate 256 0⟩ (some [[1, 2], [3]]) fun _ => 0).map
        (fun s => s.rxBuffer.take s.udpBytes) = some [1, 2, 0] := by
  have hs : (List.replicate 256 (0 : UInt8)).length = rxBufferSize := List.length_replicate
  refine ⟨fun fuel => ?_, ?_, ?_, ?_⟩
  · rw [udpSink, if_pos (by decide), printLoop_of_large le_rfl, Option.map_none]
  · rw [udpCallback_eq hs _ (by decide +kernel)]
    decide +kernel
  · rw [udpCallback_eq hs _ (by decide +kernel)]
    decide +kernel
  · rw [udpCallback_eq hs _ (by decide)]
    rfl

end Teensy41Ethernet.Sketch
