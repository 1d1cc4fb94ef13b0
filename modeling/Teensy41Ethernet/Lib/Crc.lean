import Mathlib.Data.List.Basic
import Mathlib.Logic.Function.Iterate
import Mathlib.Tactic

/-!
# Reflected cyclic redundancy checks

The register of a reflected CRC moves to the right, and takes the polynomial in whenever a 1 leaves
it.  A datum of the message is xored into the register before it moves.  A loop that shifts the
datum along with the register instead, and decides by both their low bits, keeps the two apart;
their exclusive or is the register that the datum was xored into at once.
-/

namespace Teensy41Ethernet.Lib.Crc

variable {w : ℕ} (poly : BitVec w)

/-- One step of the register. -/
def shift (r : BitVec w) : BitVec w :=
  if r.getLsbD 0 then r >>> 1 ^^^ poly else r >>> 1

/-- One step of a register and a datum beside it. -/
def shiftBoth (s : BitVec w × BitVec w) : BitVec w × BitVec w :=
  (if (s.2 ^^^ s.1).getLsbD 0 then s.1 >>> 1 ^^^ poly else s.1 >>> 1, s.2 >>> 1)

/-- The register after the datum `c` of `k` bits: it is xored in, then `k` steps are made. -/
def datum (k : ℕ) (r c : BitVec w) : BitVec w := (shift poly)^[k] (r ^^^ c)

/-- The register after a message. -/
def message (k : ℕ) (r : BitVec w) (l : List (BitVec w)) : BitVec w := l.foldl (datum poly k) r

lemma message_append (k : ℕ) (r : BitVec w) (a b : List (BitVec w)) :
    message poly k r (a ++ b) = message poly k (message poly k r a) b :=
  List.foldl_append

/-- The exclusive or of register and datum makes one step of the register. -/
lemma shiftBoth_semiconj :
    Function.Semiconj (fun s : BitVec w × BitVec w => s.1 ^^^ s.2) (shiftBoth poly)
      (shift poly) := by
  rintro ⟨r, c⟩
  change (if (c ^^^ r).getLsbD 0 then r >>> 1 ^^^ poly else r >>> 1) ^^^ c >>> 1 =
    shift poly (r ^^^ c)
  rw [shift, BitVec.xor_comm r c, BitVec.ushiftRight_xor_distrib]
  split
  · rw [BitVec.xor_comm (c >>> 1), BitVec.xor_assoc, BitVec.xor_assoc, BitVec.xor_comm poly]
  · rw [BitVec.xor_comm]

/-- The datum only moves. -/
lemma shiftBoth_iterate_snd (k : ℕ) (s : BitVec w × BitVec w) :
    ((shiftBoth poly)^[k] s).2 = s.2 >>> k := by
  induction k with
  | zero => rw [Function.iterate_zero_apply, BitVec.ushiftRight_zero]
  | succ k ih =>
    rw [Function.iterate_succ_apply', BitVec.shiftRight_add, ← ih]
    rfl

/-- Once the datum is used up, the register is the one that it was xored into at once. -/
theorem shiftBoth_iterate_fst {k : ℕ} {c : BitVec w} (hc : c >>> k = 0) (r : BitVec w) :
    ((shiftBoth poly)^[k] (r, c)).1 = datum poly k r c := by
  have hxor := (shiftBoth_semiconj poly).iterate_right k (r, c)
  have hsnd := shiftBoth_iterate_snd poly k (r, c)
  dsimp only at hxor hsnd
  rw [hsnd, hc] at hxor
  rw [datum, ← hxor]
  exact BitVec.xor_zero.symm

end Teensy41Ethernet.Lib.Crc
