import Mathlib.Data.UInt
import Teensy41Ethernet.Lib.Crc

/-!
# The multicast filter of `lwip_mcast`

The MAC drops a multicast frame unless a table of 64 bits, in the registers `ENET_GAUR` and
`ENET_GALR`, has the bit that the CRC of the frame's destination address selects.  `mcast_init`
sets the bit for one group.  Its `crc32` never xors a byte into the register; it is compared here
with the CRC that does.
-/

namespace Teensy41Ethernet.Sketch

open Lib

/-! ### `crc32` -/

/-- The polynomial of the Ethernet CRC, reversed. -/
def crcPoly : BitVec 32 := 0xEDB88320#32

/-- The body of the inner loop on `crc` and `c`. -/
def crcRound (s : BitVec 32 × BitVec 8) : BitVec 32 × BitVec 8 :=
  let (crc, c) := s
  if (c.setWidth 32 ^^^ crc) &&& 1#32 ≠ 0#32 then
    (crc >>> 1 ^^^ crcPoly, c >>> 1)
  else
    (crc >>> 1, c >>> 1)

/-- The loops of `crc32` over the bytes at `address`, where the inner one makes eight rounds. -/
def crcLoop (crc : BitVec 32) : List UInt8 → BitVec 32
  | [] => crc
  | c :: address => crcLoop (crcRound^[8] (crc, c.toBitVec)).1 address

/-- `crc32` -/
def crc32 (address : List UInt8) : BitVec 32 := crcLoop 0xFFFFFFFF#32 address

/-- The reflected CRC-32 of bytes from the register `crc` on: each byte is xored into the register,
which then makes eight steps. -/
def crcReference (crc : BitVec 32) (l : List UInt8) : BitVec 32 :=
  Crc.message crcPoly 8 crc (l.map fun c => c.toBitVec.setWidth 32)

/-- `c` converted to 32 bits, as the comparison with `crc` has it. -/
def widen (s : BitVec 32 × BitVec 8) : BitVec 32 × BitVec 32 := (s.1, s.2.setWidth 32)

lemma and_one_ne_zero (x : BitVec 32) : x &&& 1#32 ≠ 0#32 ↔ x.getLsbD 0 = true := by
  rw [BitVec.and_one_eq_setWidth_ofBool_getLsbD]
  cases x.getLsbD 0 <;> decide

/-- A round shifts register and byte together. -/
lemma crcRound_semiconj : Function.Semiconj widen crcRound (Crc.shiftBoth crcPoly) := by
  rintro ⟨crc, c⟩
  have hshift : (c >>> 1).setWidth 32 = c.setWidth 32 >>> 1 :=
    BitVec.setWidth_ushiftRight (by decide)
  change widen (if (c.setWidth 32 ^^^ crc) &&& 1#32 ≠ 0#32 then (crc >>> 1 ^^^ crcPoly, c >>> 1)
      else (crc >>> 1, c >>> 1)) =
    (if (c.setWidth 32 ^^^ crc).getLsbD 0 then crc >>> 1 ^^^ crcPoly else crc >>> 1,
      c.setWidth 32 >>> 1)
  by_cases hbit : (c.setWidth 32 ^^^ crc).getLsbD 0 = true
  · rw [if_pos ((and_one_ne_zero _).mpr hbit), if_pos hbit, widen, hshift]
  · rw [if_neg (mt (and_one_ne_zero _).mp hbit), if_neg hbit, widen, hshift]

lemma crcRound_byte (crc : BitVec 32) (c : UInt8) :
    (crcRound^[8] (crc, c.toBitVec)).1 = Crc.datum crcPoly 8 crc (c.toBitVec.setWidth 32) := by
  have hiter := crcRound_semiconj.iterate_right 8 (crc, c.toBitVec)
  have hused : c.toBitVec.setWidth 32 >>> 8 = 0 := by
    rw [← BitVec.setWidth_ushiftRight (by decide), BitVec.ushiftRight_eq_zero (by decide)]
    rfl
  exact (congrArg Prod.fst hiter).trans (Crc.shiftBoth_iterate_fst crcPoly hused crc)

lemma crcLoop_eq (crc : BitVec 32) (l : List UInt8) : crcLoop crc l = crcReference crc l := by
  induction l generalizing crc with
  | nil => rfl
  | cons c l ih =>
    rw [crcLoop, ih, crcRound_byte]
    rfl

/-- **The CRC of the multicast filter.**  For every list of bytes, `crc32` is the register of the
reflected CRC-32 that starts with all ones and is not complemented at the end; and on a list in two
parts it goes on with the second part from the register that the first one left. -/
theorem crc32_eq_reference :
    (∀ l, crc32 l = crcReference 0xFFFFFFFF#32 l) ∧
      ∀ a b, crc32 (a ++ b) = crcLoop (crc32 a) b ∧
        crc32 (a ++ b) = crcReference (crc32 a) b := by
  refine ⟨fun l => crcLoop_eq _ l, fun a b => ?_⟩
  have happend : crc32 (a ++ b) = crcReference (crc32 a) b := by
    rw [crc32, crc32, crcLoop_eq, crcLoop_eq, crcReference, List.map_append, Crc.message_append]
    rfl
  exact ⟨happend.trans (crcLoop_eq _ b).symm, happend⟩

/-! ### `mcast_init` -/

/-- `ENET_GAUR` and `ENET_GALR` -/
structure Filter where
  gaur : BitVec 32
  galr : BitVec 32
deriving DecidableEq, Repr

/-- The registers as one table of 64 bits. -/
def Filter.table (f : Filter) : BitVec 64 := f.gaur ++ f.galr

/-- `mac`: the address that the frames to a group have. -/
def groupMac (ip : ℕ → UInt8) : List UInt8 := [1, 0, 0x5e, ip 1 &&& 0x7f, ip 2, ip 3]

/-- `hash`: the upper six bits of the CRC. -/
def filterHash (mac : List UInt8) : ℕ := (crc32 mac >>> 26 &&& 0x3f#32).toNat

/-- `mcast_init` for the group with the address `ip`: the filter afterwards. -/
def mcastInit (ip : ℕ → UInt8) (f : Filter) : Filter :=
  let hash := filterHash (groupMac ip)
  if hash &&& 0x20 ≠ 0 then
    { f with gaur := f.gaur ||| 1#32 <<< (hash &&& 0x1f) }
  else
    { f with galr := f.galr ||| 1#32 <<< (hash &&& 0x1f) }

/-- What the MAC does with the table: a multicast frame for `mac` comes through if its bit is
set. -/
def Filter.Passes (f : Filter) (mac : List UInt8) : Prop := f.table.getLsbD (filterHash mac) = true

lemma filterHash_lt (mac : List UInt8) : filterHash mac < 64 := by
  rw [filterHash, BitVec.toNat_and]
  exact Nat.lt_of_le_of_lt Nat.and_le_right (by decide)

lemma getLsbD_setBit (x : BitVec 32) {n i : ℕ} (hi : i < 32) :
    (x ||| 1#32 <<< n).getLsbD i = (x.getLsbD i || decide (i = n)) := by
  rw [BitVec.getLsbD_or, BitVec.getLsbD_shiftLeft, BitVec.getLsbD_one]
  congr 1
  simp only [hi, decide_true, Bool.true_and]
  grind

lemma hash_parts : ∀ h < 64, (h &&& 0x20 ≠ 0 ↔ 32 ≤ h) ∧ h &&& 0x1f = h % 32 := by
  decide

/-- `mcast_init` sets the bit of the group in the table, in whichever register that is, and leaves
the others as they are. -/
theorem mcastInit_table (ip : ℕ → UInt8) (f : Filter) {i : ℕ} (hi : i < 64) :
    (mcastInit ip f).table.getLsbD i =
      (f.table.getLsbD i || decide (i = filterHash (groupMac ip))) := by
  have hhash := filterHash_lt (groupMac ip)
  obtain ⟨hreg, hbit⟩ := hash_parts _ hhash
  rw [mcastInit, hbit]
  by_cases hupper : 32 ≤ filterHash (groupMac ip)
  · rw [if_pos (hreg.mpr hupper), Filter.table, Filter.table, BitVec.getLsbD_append,
      BitVec.getLsbD_append]
    by_cases hlow : i < 32
    · have hne : i ≠ filterHash (groupMac ip) := by omega
      simp [hlow, hne]
    · rw [if_neg hlow, if_neg hlow, getLsbD_setBit _ (by omega)]
      congr 2
      exact propext (by omega)
  · rw [if_neg (mt hreg.mp hupper), Filter.table, Filter.table, BitVec.getLsbD_append,
      BitVec.getLsbD_append]
    by_cases hlow : i < 32
    · rw [if_pos hlow, if_pos hlow, getLsbD_setBit _ hlow]
      congr 2
      exact propext (by omega)
    · have hne : i ≠ filterHash (groupMac ip) := by omega
      simp [hlow, hne]

/-- **The multicast filter.**  After `mcast_init` the frames to the group come through, with those
that came through before; and of the others only those whose address has the same hash. -/
theorem mcastInit_passes (ip : ℕ → UInt8) (f : Filter) (mac : List UInt8) :
    (mcastInit ip f).Passes mac ↔
      f.Passes mac ∨ filterHash mac = filterHash (groupMac ip) := by
  rw [Filter.Passes, Filter.Passes, mcastInit_table ip f (filterHash_lt mac), Bool.or_eq_true,
    decide_eq_true_iff]

/-- Groups are joined one after another, in any order. -/
theorem mcastInit_foldl_passes (groups : List (ℕ → UInt8)) (f : Filter) (mac : List UInt8) :
    (groups.foldl (fun f ip => mcastInit ip f) f).Passes mac ↔
      f.Passes mac ∨ ∃ ip ∈ groups, filterHash mac = filterHash (groupMac ip) := by
  induction groups generalizing f with
  | nil => simp
  | cons ip groups ih =>
    rw [List.foldl_cons, ih, mcastInit_passes, or_assoc]
    simp only [List.mem_cons, exists_eq_or_imp]

/-- `MGROUP` -/
def mgroup : ℕ → UInt8 := fun i => [224, 7, 8, 9].getD i 0

example : mcastInit mgroup ⟨0, 0⟩ = ⟨0, 0x40⟩ := by decide +kernel

end Teensy41Ethernet.Sketch
