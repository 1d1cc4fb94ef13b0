import Teensy41Ethernet.Lib.Memory
import Mathlib.Data.UInt

/-!
# Words of a byte memory

A byte memory is read and written through views of different widths: the 16-bit and the
32-bit word at an address, with the low byte first.  Words are natural numbers; what is
written is taken modulo the width.  A field in network order is such a word with its bytes
exchanged.
-/

namespace Teensy41Ethernet.Lib

/-- The 16-bit word at an address. -/
def get16 (mem : ℕ → UInt8) (a : ℕ) : ℕ := (mem a).toNat + 256 * (mem (a + 1)).toNat

/-- The 32-bit word at an address. -/
def get32 (mem : ℕ → UInt8) (a : ℕ) : ℕ := get16 mem a + 65536 * get16 mem (a + 2)

/-- Write the 16-bit word at an address. -/
def put16 (mem : ℕ → UInt8) (a v : ℕ) : ℕ → UInt8 :=
  store mem a [UInt8.ofNat v, UInt8.ofNat (v / 256)]

/-- Write the 32-bit word at an address. -/
def put32 (mem : ℕ → UInt8) (a v : ℕ) : ℕ → UInt8 := put16 (put16 mem a v) (a + 2) (v / 65536)

/-- The bytes of a 32-bit word, the low one first. -/
def bytes32 (v : ℕ) : List UInt8 :=
  [UInt8.ofNat v, UInt8.ofNat (v / 256), UInt8.ofNat (v / 65536), UInt8.ofNat (v / 65536 / 256)]

/-- Exchange the bytes of a 16-bit word. -/
def swap2 (v : ℕ) : ℕ := v % 256 * 256 + v / 256 % 256

/-- Reverse the bytes of a 32-bit word. -/
def swap4 (v : ℕ) : ℕ := swap2 v * 65536 + swap2 (v / 65536)

/-- The 16-bit field in network order at position `i` of a packet. -/
def be16 (bs : List UInt8) (i : ℕ) : ℕ := 256 * (bs.getD i 0).toNat + (bs.getD (i + 1) 0).toNat

/-- The 32-bit word at position `i` of a packet. -/
def le32 (bs : List UInt8) (i : ℕ) : ℕ := get32 (fun a => bs.getD a 0) i

section Words

variable {mem mem' : ℕ → UInt8} {a b v : ℕ}

lemma get16_lt (mem : ℕ → UInt8) (a : ℕ) : get16 mem a < 65536 := by
  have hlo := (mem a).toNat_lt
  have hhi := (mem (a + 1)).toNat_lt
  rw [get16]
  omega

lemma get32_lt (mem : ℕ → UInt8) (a : ℕ) : get32 mem a < 2 ^ 32 := by
  have hlo := get16_lt mem a
  have hhi := get16_lt mem (a + 2)
  rw [get32]
  omega

/-- Two words are equal if they agree byte by byte. -/
lemma get16_eq_get16 (h : ∀ i < 2, mem (a + i) = mem' (b + i)) : get16 mem a = get16 mem' b := by
  rw [get16, get16, show mem a = mem' b from h 0 (by omega), h 1 (by omega)]

lemma get32_eq_get32 (h : ∀ i < 4, mem (a + i) = mem' (b + i)) : get32 mem a = get32 mem' b := by
  rw [get32, get32, get16_eq_get16 fun i hi => h i (by omega),
    get16_eq_get16 (a := a + 2) fun i hi => ?_]
  rw [add_assoc, add_assoc]
  exact h (2 + i) (by omega)

lemma get16_congr (h : ∀ c, a ≤ c → c < a + 2 → mem c = mem' c) : get16 mem a = get16 mem' a :=
  get16_eq_get16 fun i hi => h (a + i) (by omega) (by omega)

lemma get32_congr (h : ∀ c, a ≤ c → c < a + 4 → mem c = mem' c) : get32 mem a = get32 mem' a :=
  get32_eq_get32 fun i hi => h (a + i) (by omega) (by omega)

/-- A write leaves the bytes outside its word. -/
lemma put16_of_notMem (h : b < a ∨ a + 2 ≤ b) : put16 mem a v b = mem b :=
  store_of_notMem mem h

lemma put32_of_notMem (h : b < a ∨ a + 4 ≤ b) : put32 mem a v b = mem b := by
  rw [put32, put16_of_notMem (by omega), put16_of_notMem (by omega)]

/-- A write leaves the words that it does not meet. -/
lemma get16_put16_of_disjoint (h : b + 2 ≤ a ∨ a + 2 ≤ b) :
    get16 (put16 mem a v) b = get16 mem b :=
  get16_congr fun c hc hc' => put16_of_notMem (by omega)

/-- What was written is read back. -/
lemma get16_put16 : get16 (put16 mem a v) a = v % 65536 := by
  have hlo : put16 mem a v a = UInt8.ofNat v :=
    store_getElem mem a [UInt8.ofNat v, UInt8.ofNat (v / 256)] (i := 0) (by simp)
  have hhi : put16 mem a v (a + 1) = UInt8.ofNat (v / 256) :=
    store_getElem mem a [UInt8.ofNat v, UInt8.ofNat (v / 256)] (i := 1) (by simp)
  rw [get16, hlo, hhi, UInt8.toNat_ofNat', UInt8.toNat_ofNat']
  omega

/-- A second write to a word replaces the first. -/
lemma put16_put16 {w : ℕ} : put16 (put16 mem a v) a w = put16 mem a w := by
  have hne : a ≠ a + 1 := by omega
  simp only [put16, store]
  rw [Function.update_comm hne, Function.update_idem, Function.update_comm hne.symm,
    Function.update_idem]

/-- Only the low bits of a value are written. -/
lemma put16_add_mul {w : ℕ} : put16 mem a (v + 65536 * w) = put16 mem a v := by
  have hlo : UInt8.ofNat (v + 65536 * w) = UInt8.ofNat v := by
    refine UInt8.toNat_inj.mp ?_
    rw [UInt8.toNat_ofNat', UInt8.toNat_ofNat']
    omega
  have hhi : UInt8.ofNat ((v + 65536 * w) / 256) = UInt8.ofNat (v / 256) := by
    refine UInt8.toNat_inj.mp ?_
    rw [UInt8.toNat_ofNat', UInt8.toNat_ofNat']
    omega
  rw [put16, put16, hlo, hhi]

/-- To copy a word is to copy its bytes. -/
lemma put16_get16 : put16 mem a (get16 mem' b) = store mem a (load mem' b 2) := by
  have hlt := (mem' b).toNat_lt
  have hlo : UInt8.ofNat (get16 mem' b) = mem' b := by
    refine UInt8.toNat_inj.mp ?_
    rw [UInt8.toNat_ofNat', get16]
    omega
  have hhi : UInt8.ofNat (get16 mem' b / 256) = mem' (b + 1) := by
    have hlt' := (mem' (b + 1)).toNat_lt
    refine UInt8.toNat_inj.mp ?_
    rw [UInt8.toNat_ofNat', get16]
    omega
  rw [put16, hlo, hhi]
  rfl

lemma put32_get32 : put32 mem a (get32 mem' b) = store mem a (load mem' b 4) := by
  have hlt := get16_lt mem' b
  have hhi : (get16 mem' b + 65536 * get16 mem' (b + 2)) / 65536 = get16 mem' (b + 2) := by omega
  rw [put32, get32, put16_add_mul, hhi, put16_get16, put16_get16]
  rfl

/-- To write a word is to write its bytes. -/
lemma put32_eq_store : put32 mem a v = store mem a (bytes32 v) := (rfl)

/-- The bytes of a word put together from bytes. -/
lemma bytes32_add (b₀ b₁ b₂ b₃ : UInt8) :
    bytes32 (b₀.toNat + 256 * b₁.toNat + 65536 * (b₂.toNat + 256 * b₃.toNat)) =
      [b₀, b₁, b₂, b₃] := by
  have h₀ := b₀.toNat_lt
  have h₁ := b₁.toNat_lt
  have h₂ := b₂.toNat_lt
  have h₃ := b₃.toNat_lt
  have hbyte : ∀ (b : UInt8) (n : ℕ), n % 256 = b.toNat → UInt8.ofNat n = b := fun b n h =>
    UInt8.toNat_inj.mp (UInt8.toNat_ofNat'.trans h)
  rw [bytes32, hbyte b₀ _ (by omega), hbyte b₁ _ (by omega), hbyte b₂ _ (by omega),
    hbyte b₃ _ (by omega)]

lemma bytes32_get32 : bytes32 (get32 mem a) = load mem a 4 := bytes32_add _ _ _ _

lemma get32_of_bytes32 (h : load mem a 4 = bytes32 v) : get32 mem a = v % 2 ^ 32 := by
  obtain ⟨h₀, h⟩ := List.cons.inj h
  obtain ⟨h₁, h⟩ := List.cons.inj h
  obtain ⟨h₂, h⟩ := List.cons.inj h
  have h₃ := (List.cons.inj h).1
  have hword : get32 mem a = (mem a).toNat + 256 * (mem (a + 1)).toNat +
      65536 * ((mem (a + 1 + 1)).toNat + 256 * (mem (a + 1 + 1 + 1)).toNat) := rfl
  rw [hword, h₀, h₁, h₂, h₃]
  simp only [UInt8.toNat_ofNat']
  omega

/-- A word is known by its bytes. -/
lemma get16_eq_iff (hv : v < 65536) : get16 mem a = v ↔
    load mem a 2 = [UInt8.ofNat v, UInt8.ofNat (v / 256)] := by
  have hlow := (mem a).toNat_lt
  have hhigh := (mem (a + 1)).toNat_lt
  constructor
  · intro h
    rw [get16] at h
    have h₀ : mem a = UInt8.ofNat v := by
      refine UInt8.toNat_inj.mp ?_
      rw [UInt8.toNat_ofNat']
      omega
    have h₁ : mem (a + 1) = UInt8.ofNat (v / 256) := by
      refine UInt8.toNat_inj.mp ?_
      rw [UInt8.toNat_ofNat']
      omega
    rw [load, load, load, h₀, h₁]
  · intro h
    obtain ⟨h₀, h⟩ := List.cons.inj h
    have h₁ := (List.cons.inj h).1
    rw [get16, h₀, h₁, UInt8.toNat_ofNat', UInt8.toNat_ofNat']
    omega

lemma get32_eq_iff (hv : v < 2 ^ 32) : get32 mem a = v ↔ load mem a 4 = bytes32 v := by
  constructor
  · intro h
    rw [← h, bytes32_get32]
  · intro h
    rw [get32_of_bytes32 h, Nat.mod_eq_of_lt hv]

end Words

lemma swap2_lt (v : ℕ) : swap2 v < 65536 := by
  rw [swap2]
  omega

lemma swap2_swap2 {v : ℕ} (h : v < 65536) : swap2 (swap2 v) = v := by
  have hhi : swap2 v / 256 = v % 256 := by
    rw [swap2]
    omega
  have hlo : swap2 v % 256 = v / 256 := by
    rw [swap2]
    omega
  rw [swap2, hlo, hhi]
  omega

lemma swap2_mul_add {a b : ℕ} (ha : a < 256) (hb : b < 256) :
    swap2 (256 * a + b) = 256 * b + a := by
  rw [swap2]
  omega

/-- Exchanging bytes commutes with the complement. -/
lemma swap2_sub_swap2 {v : ℕ} (h : v ≤ 65535) : swap2 (65535 - swap2 v) = 65535 - v := by
  have ha : v / 256 < 256 := by omega
  have hb : v % 256 < 256 := by omega
  rw [← Nat.div_add_mod v 256]
  generalize v / 256 = a at ha
  generalize v % 256 = b at hb
  rw [swap2_mul_add ha hb, show 65535 - (256 * b + a) = 256 * (255 - b) + (255 - a) by omega,
    swap2_mul_add (by omega) (by omega)]
  omega

/-! ### Packets -/

lemma getD_load (mem : ℕ → UInt8) {i n : ℕ} (h : i < n) (a : ℕ) :
    (load mem a n).getD i 0 = mem (a + i) := by
  induction n generalizing i a with
  | zero => exact absurd h (Nat.not_lt_zero i)
  | succ n ih =>
    cases i with
    | zero => rfl
    | succ i =>
      rw [load, List.getD_cons_succ, ih (by omega), show a + 1 + i = a + (i + 1) by omega]

/-- A field in network order of a packet taken from memory. -/
lemma be16_load (mem : ℕ → UInt8) {i n : ℕ} (h : i + 2 ≤ n) :
    be16 (load mem 0 n) i = swap2 (get16 mem i) := by
  have hlo := (mem i).toNat_lt
  have hhi := (mem (i + 1)).toNat_lt
  rw [be16, getD_load mem (by omega), getD_load mem (by omega), zero_add, zero_add, swap2, get16]
  omega

lemma le32_load (mem : ℕ → UInt8) {i n : ℕ} (h : i + 4 ≤ n) :
    le32 (load mem 0 n) i = get32 mem i := by
  refine get32_congr fun c hc hc' => ?_
  rw [getD_load mem (by omega), zero_add]

end Teensy41Ethernet.Lib
