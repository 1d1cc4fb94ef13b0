import Teensy41Ethernet.Etherraw.Checksum

/-!
# The checksum with the pseudo header

`inet_chksum_pseudo` adds to the sum of a segment the words of a pseudo header: the addresses,
the protocol and the length.  The result is the checksum over the pseudo header followed by
the segment.  If the length is odd, the bytes of the sum are exchanged twice.

The routines compute modulo `2 ^ 32`.  The sums that they form before the reduction are listed
by a function beside each of them; none of these reaches `2 ^ 32`.
-/

namespace Teensy41Ethernet.Etherraw

open Lib

/-! ### The code -/

/-- `acc = ((acc & 0xFF) << 8) | ((acc & 0xFF00) >> 8)`. -/
def swapAcc (acc : ℕ) : ℕ := (acc &&& 0xFF) <<< 8 ||| (acc &&& 0xFF00) >>> 8

/-- Statements `acc += w`, one for each word. -/
def addWords (acc : ℕ) (ws : List ℕ) : ℕ := ws.foldl (fun acc w => (acc + w) % 2 ^ 32) acc

/-- What `inet_chksum_pseudo` adds to the sum of the segment. -/
def pseudoWords (srcaddr destaddr : UInt32) (proto : UInt8) (protoLen : UInt16) : List ℕ :=
  [srcaddr.toNat &&& 0xFFFF, srcaddr.toNat >>> 16 &&& 0xFFFF,
   destaddr.toNat &&& 0xFFFF, destaddr.toNat >>> 16 &&& 0xFFFF,
   swap2 proto.toNat, swap2 protoLen.toNat]

/-- The accumulator of `inet_chksum_pseudo` after the sum of the segment. -/
def segmentAcc (mem : ℕ → UInt8) (p : ℕ) (protoLen : UInt16) : ℕ :=
  let swapped := 0
  let acc := whileCarries (chksum mem p protoLen.toNat)
  let (swapped, acc) :=
    if protoLen.toNat % 2 ≠ 0 then (1 - swapped, swapAcc acc) else (swapped, acc)
  if swapped ≠ 0 then swapAcc acc else acc

/-- `inet_chksum_pseudo`. -/
def inetChksumPseudo (mem : ℕ → UInt8) (p : ℕ) (srcaddr destaddr : UInt32) (proto : UInt8)
    (protoLen : UInt16) : ℕ :=
  let acc := segmentAcc mem p protoLen
  let acc := addWords acc (pseudoWords srcaddr destaddr proto protoLen)
  0xFFFF - (whileCarries acc &&& 0xFFFF)

/-- The lines of `sendto` that store the checksum of a datagram at `p`: an address of the
frame's memory, with the field behind ports and length; zero would mean no checksum. -/
def putUdpChksum (m : ℕ → UInt8) (p : ℕ) (srcaddr destaddr : UInt32) (udplth : UInt16) :
    ℕ → UInt8 :=
  let m := put16 m (p + 6) (inetChksumPseudo m p srcaddr destaddr 17 udplth)
  if get16 m (p + 6) = 0 then put16 m (p + 6) 0xFFFF else m

/-! ### The sums that it forms -/

/-- The sums of the loop of `chksum`. -/
def chksumLoopSums (mem : ℕ → UInt8) : ℕ → ℕ → ℕ → List ℕ
  | _, 0, _ => []
  | p, 1, acc => [acc + (mem p).toNat]
  | p, len + 2, acc =>
      (acc + get16 mem p) :: chksumLoopSums mem (p + 2) len ((acc + get16 mem p) % 2 ^ 32)

/-- The sums of `chksum`. -/
def chksumSums (mem : ℕ → UInt8) (dataptr len : ℕ) : List ℕ :=
  let acc := addCarries (chksumLoop mem dataptr len 0)
  chksumLoopSums mem dataptr len 0 ++ acc ::
    if acc &&& 0xFFFF0000 ≠ 0 then [addCarries acc] else []

/-- The sums of the loop that adds the carries. -/
def whileCarriesSums (acc : ℕ) : List ℕ :=
  if acc >>> 16 = 0 then [] else addCarries acc :: whileCarriesSums (addCarries acc)
termination_by acc
decreasing_by
  rename_i h
  rw [Nat.shiftRight_eq_div_pow] at h
  rw [addCarries_eq]
  omega

/-- The sums of the statements `acc += w`. -/
def addWordsSums : ℕ → List ℕ → List ℕ
  | _, [] => []
  | acc, w :: ws => (acc + w) :: addWordsSums ((acc + w) % 2 ^ 32) ws

/-- The sums of `inet_chksum`. -/
def inetChksumSums (mem : ℕ → UInt8) (dataptr len : ℕ) : List ℕ :=
  chksumSums mem dataptr len ++ whileCarriesSums (chksum mem dataptr len)

/-- The sums of `inet_chksum_pseudo`. -/
def inetChksumPseudoSums (mem : ℕ → UInt8) (p : ℕ) (srcaddr destaddr : UInt32) (proto : UInt8)
    (protoLen : UInt16) : List ℕ :=
  let acc := segmentAcc mem p protoLen
  let ws := pseudoWords srcaddr destaddr proto protoLen
  inetChksumSums mem p protoLen.toNat ++ addWordsSums acc ws ++ whileCarriesSums (addWords acc ws)

/-! ### No overflow -/

lemma chksumLoopSums_lt {mem : ℕ → UInt8} {p len acc : ℕ}
    (h : acc + leSum (load mem p len) < 2 ^ 32) :
    ∀ s ∈ chksumLoopSums mem p len acc, s < 2 ^ 32 := by
  induction p, len, acc using chksumLoopSums.induct mem with
  | case1 p acc => exact fun s hs => absurd hs List.not_mem_nil
  | case2 p acc =>
    intro s hs
    rw [chksumLoopSums, List.mem_singleton] at hs
    exact hs ▸ h
  | case3 p len acc ih =>
    rw [leSum_load_two] at h
    rw [Nat.mod_eq_of_lt (by omega)] at ih
    intro s hs
    rw [chksumLoopSums, List.mem_cons, Nat.mod_eq_of_lt (by omega)] at hs
    rcases hs with rfl | hs
    · omega
    · exact ih (by omega) s hs

lemma addCarries_lt {acc : ℕ} (h : acc < 2 ^ 32) : addCarries acc < 2 ^ 17 := by
  rw [addCarries_eq]
  omega

lemma chksum_lt {mem : ℕ → UInt8} {p len : ℕ} (h : chksumLoop mem p len 0 < 2 ^ 32) :
    chksum mem p len < 2 ^ 17 := by
  have hfirst := addCarries_lt h
  rw [chksum]
  split
  · exact addCarries_lt (by omega)
  · exact hfirst

/-- Adding carries makes the accumulator smaller. -/
lemma whileCarriesSums_lt (acc : ℕ) : ∀ s ∈ whileCarriesSums acc, s < acc := by
  induction acc using whileCarriesSums.induct with
  | case1 acc h =>
    intro s hs
    rw [whileCarriesSums, if_pos h] at hs
    exact absurd hs List.not_mem_nil
  | case2 acc h ih =>
    intro s hs
    rw [whileCarriesSums, if_neg h, List.mem_cons] at hs
    have hless : addCarries acc < acc := by
      rw [Nat.shiftRight_eq_div_pow] at h
      rw [addCarries_eq]
      omega
    rcases hs with rfl | hs
    · exact hless
    · exact (ih s hs).trans hless

lemma addWords_eq {acc : ℕ} {ws : List ℕ} (h : acc + ws.sum < 2 ^ 32) :
    addWords acc ws = acc + ws.sum := by
  induction ws generalizing acc with
  | nil => rfl
  | cons w ws ih =>
    rw [List.sum_cons] at h ⊢
    rw [addWords, List.foldl_cons, Nat.mod_eq_of_lt (by omega)]
    exact (ih (by omega)).trans (by omega)

lemma addWordsSums_lt {acc : ℕ} {ws : List ℕ} (h : acc + ws.sum < 2 ^ 32) :
    ∀ s ∈ addWordsSums acc ws, s < 2 ^ 32 := by
  induction ws generalizing acc with
  | nil => exact fun s hs => absurd hs List.not_mem_nil
  | cons w ws ih =>
    rw [List.sum_cons] at h
    intro s hs
    rw [addWordsSums, List.mem_cons, Nat.mod_eq_of_lt (by omega)] at hs
    rcases hs with rfl | hs
    · omega
    · exact ih (by omega) s hs

/-- `inet_chksum` does not overflow on a block of at most 65535 bytes. -/
lemma inetChksumSums_lt (mem : ℕ → UInt8) (p : ℕ) {len : ℕ} (hlen : len ≤ 65535) :
    ∀ s ∈ inetChksumSums mem p len, s < 2 ^ 32 := by
  have hsum := leSum_load_le mem p len
  have hloop : chksumLoop mem p len 0 < 2 ^ 32 := by
    rw [chksumLoop_zero mem p hlen]
    omega
  have hfirst := addCarries_lt hloop
  have hchksum := chksum_lt hloop
  intro s hs
  rcases List.mem_append.mp hs with hs | hs
  · rcases List.mem_append.mp hs with hs | hs
    · exact chksumLoopSums_lt (by omega) s hs
    · rcases List.mem_cons.mp hs with rfl | hs
      · omega
      · split at hs
        · have hsecond := addCarries_lt (hfirst.trans (by decide : 2 ^ 17 < 2 ^ 32))
          rw [List.mem_singleton.mp hs]
          omega
        · exact absurd hs List.not_mem_nil
  · have := whileCarriesSums_lt _ s hs
    omega

/-! ### What it computes -/

/-- The pseudo header. -/
def pseudoHeader (srcaddr destaddr : UInt32) (proto : UInt8) (protoLen : UInt16) : List UInt8 :=
  let bytes (addr : UInt32) : List UInt8 :=
    [addr.toUInt8, (addr >>> 8).toUInt8, (addr >>> 16).toUInt8, (addr >>> 24).toUInt8]
  bytes srcaddr ++ bytes destaddr ++ [0, proto, (protoLen >>> 8).toUInt8, protoLen.toUInt8]

lemma swapAcc_eq (acc : ℕ) : swapAcc acc = swap2 acc := by
  have hlow : acc &&& 0xFF = acc % 256 := Nat.and_two_pow_sub_one_eq_mod acc 8
  have hhigh : (acc &&& 0xFF00) >>> 8 = acc / 256 % 256 := by
    rw [Nat.shiftRight_and_distrib, Nat.shiftRight_eq_div_pow]
    exact Nat.and_two_pow_sub_one_eq_mod _ 8
  rw [swapAcc, hlow, hhigh, ← Nat.shiftLeft_add_eq_or_of_lt (by omega), Nat.shiftLeft_eq, swap2]

/-- The bytes are exchanged twice or not at all. -/
lemma segmentAcc_eq (mem : ℕ → UInt8) (p : ℕ) (protoLen : UInt16) :
    segmentAcc mem p protoLen = whileCarries (chksum mem p protoLen.toNat) := by
  have hle := (folds_whileCarries (chksum mem p protoLen.toNat)).le
  simp only [segmentAcc]
  by_cases hodd : protoLen.toNat % 2 ≠ 0
  · rw [if_pos hodd, if_pos (Nat.one_ne_zero : 1 - 0 ≠ 0), swapAcc_eq, swapAcc_eq,
      swap2_swap2 (by omega)]
  · rw [if_neg hodd, if_neg (not_not_intro rfl)]

/-- The words that are added are those of the pseudo header. -/
lemma leSum_pseudoHeader_append (srcaddr destaddr : UInt32) (proto : UInt8) (protoLen : UInt16)
    (bs : List UInt8) :
    leSum (pseudoHeader srcaddr destaddr proto protoLen ++ bs) =
      leSum bs + (pseudoWords srcaddr destaddr proto protoLen).sum := by
  have hsrc := srcaddr.toNat_lt
  have hdst := destaddr.toNat_lt
  have hproto := proto.toNat_lt
  have hlen := protoLen.toNat_lt
  simp [pseudoHeader, pseudoWords, leSum, swap2, and_ffff, Nat.shiftRight_eq_div_pow]
  omega

lemma sum_pseudoWords_le (srcaddr destaddr : UInt32) (proto : UInt8) (protoLen : UInt16) :
    (pseudoWords srcaddr destaddr proto protoLen).sum ≤ 6 * 65535 := by
  have hproto := swap2_lt proto.toNat
  have hlen := swap2_lt protoLen.toNat
  simp only [pseudoWords, and_ffff, List.sum_cons, List.sum_nil]
  omega

/-- The sum does not depend on the direction. -/
lemma sum_pseudoWords_comm (srcaddr destaddr : UInt32) (proto : UInt8) (protoLen : UInt16) :
    (pseudoWords srcaddr destaddr proto protoLen).sum =
      (pseudoWords destaddr srcaddr proto protoLen).sum := by
  simp only [pseudoWords, List.sum_cons, List.sum_nil]
  omega

section Segment

variable (mem : ℕ → UInt8) (p : ℕ) (srcaddr destaddr : UInt32) (proto : UInt8) (protoLen : UInt16)

/-- The accumulator before the last carries. -/
lemma addWords_segmentAcc :
    addWords (segmentAcc mem p protoLen) (pseudoWords srcaddr destaddr proto protoLen) =
      whileCarries (chksum mem p protoLen.toNat) +
        (pseudoWords srcaddr destaddr proto protoLen).sum := by
  have hle := (folds_whileCarries (chksum mem p protoLen.toNat)).le
  have hwords := sum_pseudoWords_le srcaddr destaddr proto protoLen
  rw [segmentAcc_eq, addWords_eq (by omega)]

/-- The checksum is the complement of the one's-complement sum of pseudo header and segment. -/
lemma inetChksumPseudo_eq :
    ∃ x, Folds (leSum (pseudoHeader srcaddr destaddr proto protoLen ++
        load mem p protoLen.toNat)) x ∧
      inetChksumPseudo mem p srcaddr destaddr proto protoLen = 65535 - x := by
  have hlen := protoLen.toNat_lt
  have hsegment := folds_whileCarries_chksum mem p (Nat.le_of_lt_succ hlen)
  have hall := folds_whileCarries (whileCarries (chksum mem p protoLen.toNat) +
    (pseudoWords srcaddr destaddr proto protoLen).sum)
  refine ⟨_, ?_, complement_and_ffff (folds_whileCarries _)⟩
  rw [leSum_pseudoHeader_append, addWords_segmentAcc]
  exact hsegment.of_add_left hall

/-- `inet_chksum_pseudo` does not overflow. -/
lemma inetChksumPseudoSums_lt :
    ∀ s ∈ inetChksumPseudoSums mem p srcaddr destaddr proto protoLen, s < 2 ^ 32 := by
  have hlen := protoLen.toNat_lt
  have hle := (folds_whileCarries (chksum mem p protoLen.toNat)).le
  have hwords := sum_pseudoWords_le srcaddr destaddr proto protoLen
  intro s hs
  rcases List.mem_append.mp hs with hs | hs
  · rcases List.mem_append.mp hs with hs | hs
    · exact inetChksumSums_lt mem p (by omega) s hs
    · rw [segmentAcc_eq] at hs
      exact addWordsSums_lt (by omega) s hs
  · have hless := whileCarriesSums_lt _ s hs
    rw [addWords_segmentAcc] at hless
    omega

end Segment

/-- A complement in the byte order of the machine is one in network order, with its bytes
exchanged. -/
lemma swap2_complement {bs : List UInt8} {x : ℕ} (h : Folds (leSum bs) x) :
    swap2 (65535 - x) = 0xFFFF - onesSum (beWords bs) := by
  have hle := (folds_onesSum fun w (hw : w ∈ beWords bs) => beWords_le hw).le
  rw [h.unique (folds_leSum bs), swap2_sub_swap2 hle]

/-- The field holds the checksum, or all ones if that is zero. -/
lemma putUdpChksum_eq (m : ℕ → UInt8) (p : ℕ) (srcaddr destaddr : UInt32) (udplth : UInt16) :
    ∃ x, Folds (leSum (pseudoHeader srcaddr destaddr 17 udplth ++ load m p udplth.toNat)) x ∧
      putUdpChksum m p srcaddr destaddr udplth =
        put16 m (p + 6) (if x = 65535 then 65535 else 65535 - x) := by
  obtain ⟨x, hx, hchksum⟩ := inetChksumPseudo_eq m p srcaddr destaddr 17 udplth
  have hle := hx.le
  refine ⟨x, hx, ?_⟩
  simp only [putUdpChksum, hchksum, get16_put16]
  by_cases hones : x = 65535
  · rw [if_pos (by omega), if_pos hones, put16_put16]
  · rw [if_neg (by omega), if_neg hones]

/-- A datagram into which its checksum is stored checks, if the field was zero before. -/
lemma onesSum_putUdpChksum {m : ℕ → UInt8} {p : ℕ} (srcaddr destaddr : UInt32) {udplth : UInt16}
    (hlen : 8 ≤ udplth.toNat) (hzero : get16 m (p + 6) = 0) :
    onesSum (beWords (pseudoHeader srcaddr destaddr 17 udplth ++
      load (putUdpChksum m p srcaddr destaddr udplth) p udplth.toNat)) = 0xFFFF := by
  obtain ⟨x, hx, hput⟩ := putUdpChksum_eq m p srcaddr destaddr udplth
  have hmod : x % 65535 = leSum (pseudoHeader srcaddr destaddr 17 udplth ++
    load m p udplth.toNat) % 65535 := hx.modEq
  have hle := hx.le
  rw [leSum_pseudoHeader_append] at hmod
  rw [onesSum_beWords_eq_ones_iff, leSum_pseudoHeader_append, hput]
  generalize hv : (if x = 65535 then 65535 else 65535 - x) = v
  have hsum : leSum (load (put16 m (p + 6) v) p udplth.toNat) + get16 m (p + 6) =
      leSum (load m p udplth.toNat) + v % 65536 :=
    leSum_load_put16 m p v (k := 3) (by omega)
  -- the stored value is not zero, and the complement of the sum
  have hvx : v ≠ 0 ∧ v ≤ 65535 ∧ (v + x) % 65535 = 0 := by
    split at hv <;> omega
  rw [hzero] at hsum
  omega

/-- **The software checksums.**  For every block of at most 65535 bytes `inet_chksum` returns the
complement of the one's-complement sum of its words, and `inet_chksum_pseudo` that of the sum
over pseudo header and segment; the value is in the byte order of the machine, so that the
field, stored with the low byte first, holds the complement in network order.  A UDP datagram
whose field was zero checks when the value is stored, with zero replaced by all ones.  No sum
reaches `2 ^ 32`. -/
theorem inetChksum_complement (mem : ℕ → UInt8) (p : ℕ) (srcaddr destaddr : UInt32)
    (proto : UInt8) (len : UInt16) :
    (swap2 (inetChksum mem p len.toNat) = 0xFFFF - onesSum (beWords (load mem p len.toNat)) ∧
      ∀ s ∈ inetChksumSums mem p len.toNat, s < 2 ^ 32) ∧
    (swap2 (inetChksumPseudo mem p srcaddr destaddr proto len) =
        0xFFFF - onesSum (beWords (pseudoHeader srcaddr destaddr proto len ++
          load mem p len.toNat)) ∧
      ∀ s ∈ inetChksumPseudoSums mem p srcaddr destaddr proto len, s < 2 ^ 32) ∧
    (8 ≤ len.toNat → get16 mem (p + 6) = 0 →
      onesSum (beWords (pseudoHeader srcaddr destaddr 17 len ++
        load (putUdpChksum mem p srcaddr destaddr len) p len.toNat)) = 0xFFFF) := by
  have hlen : len.toNat ≤ 65535 := Nat.le_of_lt_succ len.toNat_lt
  refine ⟨⟨?_, inetChksumSums_lt mem p hlen⟩,
    ⟨?_, inetChksumPseudoSums_lt mem p srcaddr destaddr proto len⟩,
    onesSum_putUdpChksum srcaddr destaddr⟩
  · obtain ⟨x, hx, hchksum⟩ := inetChksum_eq mem p hlen
    rw [hchksum, swap2_complement hx]
  · obtain ⟨x, hx, hchksum⟩ := inetChksumPseudo_eq mem p srcaddr destaddr proto len
    rw [hchksum, swap2_complement hx]

/-- The datagram of `prefab`, cut to an odd length and with an empty field. -/
theorem inetChksum_complement_prefab :
    let bs : List UInt8 := [0x1D, 0xE6, 0xCB, 0x83, 0x00, 0x0B, 0, 0, 0x09, 0x00, 0x67]
    onesSum (beWords (pseudoHeader 0x1101A8C0 0x0401A8C0 17 11 ++
      load (putUdpChksum (fun i => bs.getD i 0) 0 0x1101A8C0 0x0401A8C0 11) 0 11)) = 0xFFFF := by
  intro bs
  exact (inetChksum_complement (fun i => bs.getD i 0) 0 0x1101A8C0 0x0401A8C0 17 11).2.2
    (by decide) (by decide)

end Teensy41Ethernet.Etherraw
