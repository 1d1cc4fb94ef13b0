import Teensy41Ethernet.Lwip.Etharp

/-!
# Addresses as text (`core/ipv4/ip4_addr.c`)

`ip4addr_ntoa_r` writes an address with dots, into a buffer of a given length, and
`ip4addr_aton` reads one in any of the notations of C.  A C string is the list of its characters
in front of the zero; a pointer into it is what is left of it.
-/

namespace Teensy41Ethernet.Lwip

/-! ### Reading -/

/-- `isdigit`. -/
def isdigit (c : UInt8) : Bool := 48 ≤ c && c ≤ 57

/-- `isxdigit`. -/
def isxdigit (c : UInt8) : Bool := isdigit c || (65 ≤ c && c ≤ 70) || (97 ≤ c && c ≤ 102)

/-- `islower`. -/
def islower (c : UInt8) : Bool := 97 ≤ c && c ≤ 122

/-- `isspace`. -/
def isspace (c : UInt8) : Bool := c = 32 || (9 ≤ c && c ≤ 13)

/-- The inner loop of `ip4addr_aton`: the digits of a number, in 32 bits; octal numbers may have
all decimal digits. -/
def atonDigits (base : UInt32) : UInt32 → List UInt8 → UInt32 × List UInt8
  | val, [] => (val, [])
  | val, c :: cp =>
      if isdigit c then atonDigits base (val * base + (c - 48).toUInt32) cp
      else if base = 16 ∧ isxdigit c then
        atonDigits base
          (val <<< 4 ||| (c.toUInt32 + 10 - (if islower c then 97 else 65))) cp
      else (val, c :: cp)

/-- A number: its base is given by how it begins. -/
def atonPart (cp : List UInt8) : Option (UInt32 × List UInt8) :=
  if isdigit (cp.headD 0) = false then none
  else if cp.headD 0 = 48 then
    if cp.tail.headD 0 = 120 ∨ cp.tail.headD 0 = 88 then some (atonDigits 16 0 cp.tail.tail)
    else some (atonDigits 8 0 cp.tail)
  else some (atonDigits 10 0 cp)

/-- The outer loop of `ip4addr_aton`, with room for `k` more parts. -/
def atonParts : ℕ → List UInt32 → List UInt8 → Option (List UInt32 × UInt32 × List UInt8)
  | k, parts, cp =>
      match atonPart cp with
      | none => none
      | some (val, rest) =>
          if rest.headD 0 = 46 then
            match k with
            | 0 => none
            | k + 1 => atonParts k (parts ++ [val]) rest.tail
          else some (parts, val, rest)

/-- The address from its parts, of which the last one fills up. -/
def atonValue (val : UInt32) : List UInt32 → Option UInt32
  | [] => some val
  | [p₀] => if 0xffffff < val ∨ 0xff < p₀ then none else some (val ||| p₀ <<< 24)
  | [p₀, p₁] =>
      if 0xffff < val ∨ 0xff < p₀ ∨ 0xff < p₁ then none
      else some (val ||| (p₀ <<< 24 ||| p₁ <<< 16))
  | [p₀, p₁, p₂] =>
      if 0xff < val ∨ 0xff < p₀ ∨ 0xff < p₁ ∨ 0xff < p₂ then none
      else some (val ||| (p₀ <<< 24 ||| p₁ <<< 16 ||| p₂ <<< 8))
  | _ => some val

/-- The bytes of `lwip_htonl`. -/
def htonlBytes (v : UInt32) : Ip4Addr :=
  #v[(v >>> 24).toUInt8, (v >>> 16).toUInt8, (v >>> 8).toUInt8, v.toUInt8]

/-- `ip4addr_aton`; `none` is the result 0. -/
def ip4addrAton (cp : List UInt8) : Option Ip4Addr :=
  match atonParts 3 [] cp with
  | none => none
  | some (parts, val, rest) =>
      if rest.headD 0 ≠ 0 ∧ isspace (rest.headD 0) = false then none
      else (atonValue val parts).map htonlBytes

/-! ### Writing -/

/-- The do loop of `ip4addr_ntoa_r`: the digits of a byte, the last one first; `inv` has room
for three. -/
def ntoaInv : ℕ → UInt8 → List UInt8
  | 0, _ => []
  | k + 1, b => (48 + b % 10) :: if b / 10 ≠ 0 then ntoaInv k (b / 10) else []

/-- The characters of a byte. -/
def ntoaOctet (b : UInt8) : List UInt8 := (ntoaInv 3 b).reverse

/-- The characters are stored one after the other as long as there is room. -/
def ntoaPut (buflen : ℕ) : List UInt8 → List UInt8 → Option (List UInt8)
  | buf, [] => some buf
  | buf, c :: cs => if buflen ≤ buf.length then none else ntoaPut buflen (buf ++ [c]) cs

/-- The characters that are stored for an address: every byte with a dot after it. -/
def ntoaText (a : Ip4Addr) : List UInt8 := a.toList.flatMap fun b => ntoaOctet b ++ [46]

/-- `ip4addr_ntoa_r`: the string in the buffer, whose end is put over the last dot; `none` is
`NULL`. -/
def ip4addrNtoaR (a : Ip4Addr) (buflen : ℕ) : Option (List UInt8) :=
  (ntoaPut buflen [] (ntoaText a)).map List.dropLast

/-- `IP4ADDR_STRLEN_MAX`. -/
def ip4addrStrlenMax : ℕ := 16

/-! ### One byte -/

/-- The value of digits in base ten, after `val`. -/
def digitsValue (val : UInt32) (ds : List UInt8) : UInt32 :=
  ds.foldl (fun v c => v * 10 + (c - 48).toUInt32) val

/-- What the text of a byte is like: three digits at most; either a zero, or without a zero in
front and with the right value. -/
lemma ntoaOctet_spec (b : UInt8) : (ntoaOctet b).length ≤ 3 ∧ (∀ c ∈ ntoaOctet b, isdigit c) ∧
    (ntoaOctet b = [48] ∧ b = 0 ∨ (ntoaOctet b).headD 0 ≠ 48 ∧ isdigit ((ntoaOctet b).headD 0) ∧
      digitsValue 0 (ntoaOctet b) = b.toUInt32) := by
  have h : ∀ k : Fin 256, (ntoaOctet (UInt8.ofNat k)).length ≤ 3 ∧
      (ntoaOctet (UInt8.ofNat k)).all isdigit ∧
      (ntoaOctet (UInt8.ofNat k) = [48] ∧ UInt8.ofNat k = 0 ∨
        (ntoaOctet (UInt8.ofNat k)).headD 0 ≠ 48 ∧
        isdigit ((ntoaOctet (UInt8.ofNat k)).headD 0) ∧
        digitsValue 0 (ntoaOctet (UInt8.ofNat k)) = (UInt8.ofNat k).toUInt32) := by
    decide +kernel
  obtain ⟨hlen, hall, hb⟩ := h ⟨b.toNat, b.toNat_lt⟩
  rw [UInt8.ofNat_toNat] at hlen hall hb
  exact ⟨hlen, List.all_eq_true.mp hall, hb⟩

variable {rest : List UInt8} {ds : List UInt8} {val : UInt32}

/-- The text does not go on with a digit. -/
def Ends (rest : List UInt8) : Prop :=
  isdigit (rest.headD 0) = false ∧ rest.headD 0 ≠ 120 ∧ rest.headD 0 ≠ 88

lemma atonDigits_of_ends {base : UInt32} (hbase : base ≠ 16) (hrest : Ends rest) :
    atonDigits base val rest = (val, rest) := by
  cases rest with
  | nil => rfl
  | cons c cp =>
    have hc : ¬isdigit c := Bool.eq_false_iff.mp hrest.1
    rw [atonDigits, if_neg hc, if_neg fun h => hbase h.1]

lemma atonDigits_append (hds : ∀ c ∈ ds, isdigit c) (hrest : Ends rest) :
    atonDigits 10 val (ds ++ rest) = (digitsValue val ds, rest) := by
  induction ds generalizing val with
  | nil => exact atonDigits_of_ends (by decide) hrest
  | cons c ds ih =>
    rw [List.cons_append, atonDigits, if_pos (hds c List.mem_cons_self),
      ih fun d hd => hds d (List.mem_cons_of_mem c hd)]
    rfl

/-- **One byte** is read back, whatever follows it. -/
lemma atonPart_ntoaOctet (b : UInt8) (hrest : Ends rest) :
    atonPart (ntoaOctet b ++ rest) = some (b.toUInt32, rest) := by
  obtain ⟨-, hds, ⟨h, rfl⟩ | ⟨hhead, hdigit, hval⟩⟩ := ntoaOctet_spec b
  · have hx : ¬(rest.headD 0 = 120 ∨ rest.headD 0 = 88) := not_or.mpr hrest.2
    rw [h, List.singleton_append, atonPart, List.headD_cons, List.tail_cons,
      if_neg (by decide), if_pos rfl, if_neg hx, atonDigits_of_ends (by decide) hrest]
    rfl
  · have hne : (ntoaOctet b ++ rest).headD 0 = (ntoaOctet b).headD 0 := by
      cases hoct : ntoaOctet b with
      | nil =>
        rw [hoct] at hdigit
        cases hdigit
      | cons c cs => rfl
    rw [atonPart, hne, if_neg (by rw [hdigit]; decide), if_neg hhead, atonDigits_append hds hrest,
      hval]

/-! ### Four bytes -/

lemma atonParts_dot (k : ℕ) (parts : List UInt32) (b : UInt8) (cp : List UInt8) :
    atonParts (k + 1) parts (ntoaOctet b ++ 46 :: cp) =
      atonParts k (parts ++ [b.toUInt32]) cp := by
  have hends : Ends (46 :: cp) := ⟨by rfl, by simp, by simp⟩
  rw [atonParts.eq_def]
  dsimp only
  rw [atonPart_ntoaOctet b hends]
  exact if_pos rfl

lemma atonParts_last (k : ℕ) (parts : List UInt32) (b : UInt8) (hrest : Ends rest)
    (hdot : rest.headD 0 ≠ 46) :
    atonParts k parts (ntoaOctet b ++ rest) = some (parts, b.toUInt32, rest) := by
  rw [atonParts.eq_def]
  dsimp only
  rw [atonPart_ntoaOctet b hrest]
  exact if_neg hdot

/-- The bytes of a byte that is shifted. -/
lemma toUInt8_shift (b : UInt8) : ∀ s ∈ ([24, 16, 8, 0] : List UInt32),
    ∀ r ∈ ([24, 16, 8, 0] : List UInt32),
      ((b.toUInt32 <<< s) >>> r).toUInt8 = if s = r then b else 0 := by
  -- as a computation over the lists, since the type of the shifts is too large to go through
  have h : ∀ k : Fin 256, ([24, 16, 8, 0] : List UInt32).all fun s =>
      ([24, 16, 8, 0] : List UInt32).all fun r => decide
        ((((UInt8.ofNat k).toUInt32 <<< s) >>> r).toUInt8 =
          if s = r then UInt8.ofNat k else 0) := by
    decide +kernel
  intro s hs r hr
  have hb := List.all_eq_true.mp (List.all_eq_true.mp (h ⟨b.toNat, b.toNat_lt⟩) s hs) r hr
  rw [UInt8.ofNat_toNat] at hb
  exact of_decide_eq_true hb

lemma toUInt32_le (b : UInt8) : ¬0xff < b.toUInt32 := by
  rw [UInt32.lt_iff_toNat_lt, UInt8.toNat_toUInt32]
  have := b.toNat_lt
  simp only [UInt32.reduceToNat]
  omega

/-- The bytes of the number that is put together: every part is shifted, and the result is
shifted back. -/
lemma toUInt8_parts (b₀ b₁ b₂ b₃ : UInt8) : ∀ r ∈ ([24, 16, 8, 0] : List UInt32),
    ((b₃.toUInt32 ||| (b₀.toUInt32 <<< 24 ||| b₁.toUInt32 <<< 16 ||| b₂.toUInt32 <<< 8)) >>>
      r).toUInt8 = (if (0 : UInt32) = r then b₃ else 0) |||
        ((if (24 : UInt32) = r then b₀ else 0) ||| (if (16 : UInt32) = r then b₁ else 0) |||
          (if (8 : UInt32) = r then b₂ else 0)) := by
  intro r hr
  have h₃ := toUInt8_shift b₃ 0 (by simp) r hr
  rw [UInt32.shiftLeft_zero] at h₃
  rw [← h₃, ← toUInt8_shift b₀ 24 (by simp) r hr, ← toUInt8_shift b₁ 16 (by simp) r hr,
    ← toUInt8_shift b₂ 8 (by simp) r hr]
  simp only [UInt32.shiftRight_or, UInt32.toUInt8_or]

/-- The address of four bytes. -/
lemma atonValue_bytes (b₀ b₁ b₂ b₃ : UInt8) :
    (atonValue b₃.toUInt32 [b₀.toUInt32, b₁.toUInt32, b₂.toUInt32]).map htonlBytes =
      some #v[b₀, b₁, b₂, b₃] := by
  have hfits : ¬(0xff < b₃.toUInt32 ∨ 0xff < b₀.toUInt32 ∨ 0xff < b₁.toUInt32 ∨
      0xff < b₂.toUInt32) := by
    rw [not_or, not_or, not_or]
    exact ⟨toUInt32_le b₃, toUInt32_le b₀, toUInt32_le b₁, toUInt32_le b₂⟩
  have h₃ := toUInt8_parts b₀ b₁ b₂ b₃ 0 (by simp)
  rw [UInt32.shiftRight_zero] at h₃
  simp only [atonValue, if_neg hfits, Option.map_some, htonlBytes, h₃,
    toUInt8_parts b₀ b₁ b₂ b₃ 24 (by simp), toUInt8_parts b₀ b₁ b₂ b₃ 16 (by simp),
    toUInt8_parts b₀ b₁ b₂ b₃ 8 (by simp)]
  simp

lemma ntoaPut_eq {buflen : ℕ} {buf : List UInt8} (hbuf : buf.length ≤ buflen) (cs : List UInt8) :
    ntoaPut buflen buf cs = if buf.length + cs.length ≤ buflen then some (buf ++ cs) else none := by
  induction cs generalizing buf with
  | nil => rw [ntoaPut, List.length_nil, Nat.add_zero, if_pos hbuf, List.append_nil]
  | cons c cs ih =>
    rw [ntoaPut]
    by_cases hfull : buflen ≤ buf.length
    · rw [if_pos hfull, if_neg (by rw [List.length_cons]; omega)]
    · have hsnoc : (buf ++ [c]).length = buf.length + 1 := List.length_append
      rw [if_neg hfull, ih (by rw [hsnoc]; omega), hsnoc, List.length_cons, List.append_assoc,
        Nat.add_right_comm, Nat.add_assoc]
      rfl

lemma exists_bytes (a : Ip4Addr) : ∃ b₀ b₁ b₂ b₃, a = #v[b₀, b₁, b₂, b₃] := by
  refine ⟨a[0], a[1], a[2], a[3], Vector.ext fun i hi => ?_⟩
  have hcases : i = 0 ∨ i = 1 ∨ i = 2 ∨ i = 3 := by omega
  rcases hcases with rfl | rfl | rfl | rfl <;> rfl

/-- The text without its last dot. -/
lemma dropLast_ntoaText (b₀ b₁ b₂ b₃ : UInt8) : (ntoaText #v[b₀, b₁, b₂, b₃]).dropLast =
    ntoaOctet b₀ ++ 46 :: (ntoaOctet b₁ ++ 46 :: (ntoaOctet b₂ ++ 46 :: ntoaOctet b₃)) := by
  have h : ntoaText #v[b₀, b₁, b₂, b₃] =
      (ntoaOctet b₀ ++ 46 :: (ntoaOctet b₁ ++ 46 :: (ntoaOctet b₂ ++ 46 :: ntoaOctet b₃))) ++
        [46] := by
    simp [ntoaText]
  rw [h, List.dropLast_concat]

lemma length_ntoaText_le (a : Ip4Addr) : (ntoaText a).length ≤ ip4addrStrlenMax := by
  obtain ⟨b₀, b₁, b₂, b₃, rfl⟩ := exists_bytes a
  have h₀ := (ntoaOctet_spec b₀).1
  have h₁ := (ntoaOctet_spec b₁).1
  have h₂ := (ntoaOctet_spec b₂).1
  have h₃ := (ntoaOctet_spec b₃).1
  simp only [ntoaText, ip4addrStrlenMax, Vector.toList_mk, List.flatMap_cons, List.flatMap_nil,
    List.length_append, List.length_cons, List.length_nil]
  omega

/-- A number ends at the end of the string and in front of a space. -/
lemma ends_of_space (hrest : rest = [] ∨ isspace (rest.headD 0)) : Ends rest ∧
    rest.headD 0 ≠ 46 ∧ ¬(rest.headD 0 ≠ 0 ∧ isspace (rest.headD 0) = false) := by
  rcases hrest with rfl | hspace
  · exact ⟨⟨rfl, by decide, by decide⟩, by decide, fun h => h.1 rfl⟩
  · have h : ∀ k : Fin 256, isspace (UInt8.ofNat k) → isdigit (UInt8.ofNat k) = false ∧
        UInt8.ofNat k ≠ 120 ∧ UInt8.ofNat k ≠ 88 ∧ UInt8.ofNat k ≠ 46 := by decide +kernel
    have hc := h ⟨(rest.headD 0).toNat, (rest.headD 0).toNat_lt⟩
    rw [UInt8.ofNat_toNat] at hc
    obtain ⟨hdigit, hx, hX, hdot⟩ := hc hspace
    exact ⟨⟨hdigit, hx, hX⟩, hdot, fun h => by rw [hspace] at h; cases h.2⟩

/-- **Addresses as text.** What `ip4addr_ntoa_r` writes fits the buffer with its end, and
`ip4addr_aton` reads the address back from it, at the end of the string or in front of a space;
and a buffer of `IP4ADDR_STRLEN_MAX` characters is enough for every address. -/
theorem ip4addr_text_round_trip (a : Ip4Addr) (buflen : ℕ) :
    (∀ text, ip4addrNtoaR a buflen = some text → text.length < buflen ∧
      ∀ rest : List UInt8, rest = [] ∨ isspace (rest.headD 0) →
        ip4addrAton (text ++ rest) = some a) ∧
    (ip4addrStrlenMax ≤ buflen → ∃ text, ip4addrNtoaR a buflen = some text) := by
  have hput : ip4addrNtoaR a buflen =
      if (ntoaText a).length ≤ buflen then some (ntoaText a).dropLast else none := by
    rw [ip4addrNtoaR, ntoaPut_eq (Nat.zero_le _), List.length_nil, Nat.zero_add, List.nil_append]
    split <;> rfl
  refine ⟨fun text htext => ?_, fun hlen => ⟨_, hput.trans (if_pos ?_)⟩⟩
  · rw [hput] at htext
    split at htext
    next hfits =>
      cases htext
      obtain ⟨b₀, b₁, b₂, b₃, rfl⟩ := exists_bytes a
      refine ⟨?_, fun rest hrest => ?_⟩
      · have hpos : 0 < (ntoaText #v[b₀, b₁, b₂, b₃]).length := by simp [ntoaText]
        rw [List.length_dropLast]
        omega
      · obtain ⟨hends, hdot, hend⟩ := ends_of_space hrest
        rw [dropLast_ntoaText]
        simp only [List.append_assoc, List.cons_append]
        rw [ip4addrAton.eq_def, atonParts_dot, atonParts_dot, atonParts_dot,
          atonParts_last 0 _ b₃ hends hdot]
        exact (if_neg hend).trans (atonValue_bytes b₀ b₁ b₂ b₃)
    next => cases htext
  · exact (length_ntoaText_le a).trans hlen

end Teensy41Ethernet.Lwip
