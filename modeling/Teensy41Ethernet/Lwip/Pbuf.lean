import Mathlib.Tactic

/-!
# Packet buffers

A packet buffer is a chain of `struct pbuf`s.  What the functions modelled here read and
write of it are the payloads of its members, so a chain is the list of these payloads; the
`len` field of a member is the length of its payload and the `tot_len` field of the first
member is the sum of all of them.
-/

namespace Teensy41Ethernet.Lwip

/-- A chain of packet buffers, as the payloads of its members. -/
abbrev Chain := List (List UInt8)

/-- The `tot_len` field of the first member. -/
def totLen (p : Chain) : ℕ := (p.map List.length).sum

@[simp] lemma totLen_nil : totLen [] = 0 := rfl

@[simp] lemma totLen_cons (seg : List UInt8) (p : Chain) :
    totLen (seg :: p) = seg.length + totLen p := rfl

lemma length_flatten_eq_totLen (p : Chain) : p.flatten.length = totLen p := by
  rw [List.length_flatten, totLen]

/-! ### `pbuf_copy_partial` -/

/-- The bytes that `pbuf_copy_partial` copies: up to `len` bytes from `off` on.  Its
return value is their number. -/
def pbufCopyPartial : Chain → ℕ → ℕ → List UInt8
  | [], _, _ => []
  | seg :: p, len, off =>
      if len = 0 then []
      else if off ≠ 0 ∧ off ≥ seg.length then
        -- don't copy from this buffer -> on to the next
        pbufCopyPartial p len (off - seg.length)
      else
        let n := min (seg.length - off) len
        (seg.drop off).take n ++ pbufCopyPartial p (len - n) 0

/-- The copy is a block of the flattened chain, wherever the chain is cut into members. -/
theorem pbufCopyPartial_eq (p : Chain) (len off : ℕ) :
    pbufCopyPartial p len off = (p.flatten.drop off).take len := by
  induction p generalizing len off with
  | nil => simp [pbufCopyPartial]
  | cons seg p ih =>
    unfold pbufCopyPartial
    by_cases hlen : len = 0
    · simp [hlen]
    rw [if_neg hlen, List.flatten_cons]
    by_cases hoff : off ≠ 0 ∧ off ≥ seg.length
    · rw [if_pos hoff, ih, List.drop_append, List.drop_eq_nil_of_le hoff.2, List.nil_append]
    · have hle : off ≤ seg.length := by
        by_contra hgt
        exact hoff ⟨by omega, by omega⟩
      simp only [if_neg hoff, ih, List.drop_zero]
      rw [List.drop_append_of_le_length hle, List.take_append, List.length_drop]
      congr 1
      · rcases le_total (seg.length - off) len with h | h
        · rw [min_eq_left h, List.take_of_length_le (by simp),
            List.take_of_length_le (by simpa using h)]
        · rw [min_eq_right h]
      · congr 1
        omega

/-- A copy of the whole chain is the flattened chain. -/
lemma pbufCopyPartial_all (p : Chain) : pbufCopyPartial p (totLen p) 0 = p.flatten := by
  rw [pbufCopyPartial_eq, List.drop_zero, ← length_flatten_eq_totLen, List.take_length]

/-! ### Reading through `p->payload` -/

/-- The `n` bytes from `p->payload` on, for code that takes the chain for one block.  Only the
first member lies there; `behind` is the memory after it. -/
def payloadBytes (p : Chain) (behind : ℕ → UInt8) (n : ℕ) : List UInt8 :=
  (p.headD []).take n ++ (List.range (n - (p.headD []).length)).map behind

@[simp] lemma length_payloadBytes (p : Chain) (behind : ℕ → UInt8) (n : ℕ) :
    (payloadBytes p behind n).length = n := by
  simp only [payloadBytes, List.length_append, List.length_take, List.length_map, List.length_range]
  omega

/-- As long as the bytes are in the first member, they are the first bytes of the chain. -/
lemma payloadBytes_of_le {p : Chain} {n : ℕ} (behind : ℕ → UInt8) (h : n ≤ (p.headD []).length) :
    payloadBytes p behind n = p.flatten.take n := by
  rw [payloadBytes, Nat.sub_eq_zero_of_le h, List.range_zero, List.map_nil, List.append_nil]
  cases p with
  | nil => rfl
  | cons seg p => exact (List.take_append_of_le_length h).symm

/-- Reading a whole chain as one block gives its bytes if the memory behind the first member
holds the others. -/
lemma payloadBytes_totLen_eq_iff (p : Chain) (behind : ℕ → UInt8) :
    payloadBytes p behind (totLen p) = p.flatten ↔
      (List.range (totLen p.tail)).map behind = p.tail.flatten := by
  cases p with
  | nil => simp [payloadBytes]
  | cons seg p =>
    simp only [payloadBytes, List.headD_cons, totLen_cons, List.flatten_cons, List.tail_cons]
    rw [List.take_of_length_le (by omega), Nat.add_sub_cancel_left, List.append_cancel_left_eq]

/-! ### `pbuf_header` and `pbuf_memfind` -/

/-- `pbuf_header(p, -n)`: hide the first `n` bytes.  They have to be in the first member;
otherwise nothing happens. -/
def pbufHeader (p : Chain) (n : ℕ) : Chain :=
  match p with
  | [] => []
  | seg :: p => if n ≤ seg.length then seg.drop n :: p else seg :: p

/-- What is left when the bytes are in the first member. -/
lemma flatten_pbufHeader {p : Chain} {n : ℕ} (h : n ≤ (p.headD []).length) :
    (pbufHeader p n).flatten = p.flatten.drop n := by
  cases p with
  | nil => simp [pbufHeader]
  | cons seg p =>
    rw [List.headD_cons] at h
    rw [pbufHeader, if_pos h, List.flatten_cons, List.flatten_cons, List.drop_append_of_le_length h]

lemma tail_pbufHeader (p : Chain) (n : ℕ) : (pbufHeader p n).tail = p.tail := by
  cases p with
  | nil => rfl
  | cons seg p =>
    rw [pbufHeader]
    split <;> rfl

/-- `pbuf_memfind(p, mem, 1, start)`: where the byte first occurs from `start` on. -/
def pbufMemfind (p : Chain) (mem : UInt8) (start : ℕ) : ℕ :=
  if start + 1 ≤ totLen p then
    match (p.flatten.drop start).findIdx? (· = mem) with
    | some i => start + i
    | none => 0xFFFF
  else 0xFFFF

/-- `pbuf_skip_const`: the chain from the member on in which the offset lies, and the offset in
this member. -/
def pbufSkip : Chain → ℕ → Chain × ℕ
  | [], off => ([], off)
  | seg :: p, off => if seg.length ≤ off then pbufSkip p (off - seg.length) else (seg :: p, off)

/-- `pbuf_try_get_at`; `none` is the result -1. -/
def pbufTryGetAt (p : Chain) (off : ℕ) : Option UInt8 :=
  ((pbufSkip p off).1.headD [])[(pbufSkip p off).2]?

/-- `pbuf_get_at`. -/
def pbufGetAt (p : Chain) (off : ℕ) : UInt8 := (pbufTryGetAt p off).getD 0

/-- The loop of `pbuf_memcmp`, which compares `s2` from index `i` on. -/
def pbufMemcmpLoop (q : Chain) (start : ℕ) : ℕ → List UInt8 → ℕ
  | _, [] => 0
  | i, b :: s2 => if pbufGetAt q (start + i) ≠ b then i + 1 else pbufMemcmpLoop q start (i + 1) s2

/-- `pbuf_memcmp`. -/
def pbufMemcmp (p : Chain) (offset : ℕ) (s2 : List UInt8) : ℕ :=
  if totLen p < offset + s2.length then 0xFFFF
  else pbufMemcmpLoop (pbufSkip p offset).1 (pbufSkip p offset).2 0 s2

/-- The loop of `pbuf_memfind`.  As `tot_len` is a `u16_t`, the counter comes to 0xFFFF at most. -/
def pbufMemfindLoop (p : Chain) (mem : List UInt8) (max i : ℕ) : ℕ :=
  if i ≤ max then
    if pbufMemcmp p i mem = 0 then i else pbufMemfindLoop p mem max (i + 1)
  else 0xFFFF
termination_by max + 1 - i

/-- `pbuf_memfind` for any `mem`. -/
def pbufMemfindBytes (p : Chain) (mem : List UInt8) (start : ℕ) : ℕ :=
  if totLen p ≥ mem.length + start then pbufMemfindLoop p mem (totLen p - mem.length) start
  else 0xFFFF

/-- The byte at an offset of the chain. -/
lemma pbufTryGetAt_eq (p : Chain) (off : ℕ) : pbufTryGetAt p off = p.flatten[off]? := by
  induction p generalizing off with
  | nil => rfl
  | cons seg p ih =>
    rw [List.flatten_cons]
    by_cases h : seg.length ≤ off
    · rw [List.getElem?_append_right h, ← ih, pbufTryGetAt, pbufTryGetAt, pbufSkip, if_pos h]
    · rw [List.getElem?_append_left (by omega), pbufTryGetAt, pbufSkip, if_neg h, List.headD_cons]

/-- Going on from the member that holds the offset. -/
lemma pbufTryGetAt_skip (p : Chain) (off : ℕ) :
    pbufTryGetAt (pbufSkip p off).1 (pbufSkip p off).2 = pbufTryGetAt p off := by
  induction p generalizing off with
  | nil => rfl
  | cons seg p ih =>
    by_cases h : seg.length ≤ off
    · have hskip : pbufSkip (seg :: p) off = pbufSkip p (off - seg.length) := if_pos h
      rw [hskip, ih, pbufTryGetAt_eq, pbufTryGetAt_eq, List.flatten_cons,
        List.getElem?_append_right h]
    · have hskip : pbufSkip (seg :: p) off = (seg :: p, off) := if_neg h
      rw [hskip]

lemma pbufMemcmp_singleton {p : Chain} {i : ℕ} (hi : i < p.flatten.length) (b : UInt8) :
    pbufMemcmp p i [b] = 0 ↔ p.flatten[i] = b := by
  have hlen : ¬ totLen p < i + [b].length := by
    rw [← length_flatten_eq_totLen, List.length_singleton]
    omega
  have hget : pbufGetAt (pbufSkip p i).1 (pbufSkip p i).2 = p.flatten[i] := by
    rw [pbufGetAt, pbufTryGetAt_skip, pbufTryGetAt_eq, List.getElem?_eq_getElem hi,
      Option.getD_some]
  rw [pbufMemcmp, if_neg hlen, pbufMemcmpLoop, pbufMemcmpLoop, Nat.add_zero, hget]
  simp

/-- The search from an offset on, by what is left of the chain from there. -/
lemma pbufMemfindLoop_singleton {p : Chain} (hpos : 0 < totLen p) (b : UInt8) {l : List UInt8}
    {i : ℕ} (hl : p.flatten.drop i = l) : pbufMemfindLoop p [b] (totLen p - 1) i =
      match l.findIdx? (· = b) with
      | some j => i + j
      | none => 0xFFFF := by
  have hlen := length_flatten_eq_totLen p
  induction l generalizing i with
  | nil =>
    have hge := List.drop_eq_nil_iff.mp hl
    rw [pbufMemfindLoop, if_neg (by omega), List.findIdx?_nil]
  | cons x l ih =>
    have hi : i < p.flatten.length := by
      by_contra hge
      rw [List.drop_eq_nil_of_le (by omega)] at hl
      exact List.cons_ne_nil x l hl.symm
    rw [List.drop_eq_getElem_cons hi] at hl
    obtain ⟨hx, hrest⟩ := List.cons.inj hl
    rw [pbufMemfindLoop, if_pos (by omega), List.findIdx?_cons]
    by_cases hxb : x = b
    · rw [if_pos ((pbufMemcmp_singleton hi b).mpr (hx.trans hxb)), if_pos (decide_eq_true hxb)]
      rfl
    · rw [if_neg fun h => hxb (hx.symm.trans ((pbufMemcmp_singleton hi b).mp h)), ih hrest,
        if_neg (by simpa using hxb)]
      cases l.findIdx? (· = b) with
      | none => rfl
      | some j =>
        change i + 1 + j = i + (j + 1)
        omega

/-- The search for one byte finds its first occurrence. -/
theorem pbufMemfindBytes_singleton (p : Chain) (b : UInt8) (start : ℕ) :
    pbufMemfindBytes p [b] start = pbufMemfind p b start := by
  rw [pbufMemfindBytes, pbufMemfind, List.length_singleton]
  by_cases h : start + 1 ≤ totLen p
  · rw [if_pos h, if_pos (by omega)]
    exact pbufMemfindLoop_singleton (by omega) b rfl
  · rw [if_neg h, if_neg (by omega)]

/-! ### `pbuf_alloc` from the pool -/

/-- `PBUF_POOL_BUFSIZE`: `LWIP_MEM_ALIGN_SIZE(TCP_MSS + 40 + PBUF_LINK_HLEN)`, with the
link header of 14 bytes and two bytes of padding. -/
def pbufPoolBufsize : ℕ := 1516

/-- The loop of `pbuf_alloc` that allocates the tail of a chain for `rem` more bytes, with
`free` members left in the pool. -/
def pbufAllocTail : ℕ → ℕ → Option Chain
  | _, 0 => some []
  | 0, _ + 1 => none
  | free + 1, rem + 1 =>
      let len := min (rem + 1) pbufPoolBufsize
      (pbufAllocTail free (rem + 1 - len)).map (List.replicate len 0 :: ·)

/-- `pbuf_alloc(PBUF_RAW, length, PBUF_POOL)` with `free` members left in the pool; the
payload is not initialised, which is rendered by zeros. -/
def pbufAlloc (length free : ℕ) : Option Chain :=
  match free with
  | 0 => none
  | free + 1 =>
      let len := min length pbufPoolBufsize
      (pbufAllocTail free (length - len)).map (List.replicate len 0 :: ·)

lemma totLen_pbufAllocTail {free rem : ℕ} {p : Chain} (h : pbufAllocTail free rem = some p) :
    totLen p = rem := by
  induction free generalizing rem p with
  | zero =>
    cases rem with
    | zero =>
      rw [pbufAllocTail, Option.some.injEq] at h
      rw [← h, totLen_nil]
    | succ rem => exact absurd h (by simp [pbufAllocTail])
  | succ free ih =>
    cases rem with
    | zero =>
      rw [pbufAllocTail, Option.some.injEq] at h
      rw [← h, totLen_nil]
    | succ rem =>
      simp only [pbufAllocTail, Option.map_eq_some_iff] at h
      obtain ⟨q, hq, rfl⟩ := h
      rw [totLen_cons, ih hq, List.length_replicate]
      omega

/-- An allocated chain has exactly the requested length. -/
lemma totLen_pbufAlloc {length free : ℕ} {p : Chain} (h : pbufAlloc length free = some p) :
    totLen p = length := by
  cases free with
  | zero => exact absurd h (by simp [pbufAlloc])
  | succ free =>
    simp only [pbufAlloc, Option.map_eq_some_iff] at h
    obtain ⟨q, hq, rfl⟩ := h
    rw [totLen_cons, totLen_pbufAllocTail hq, List.length_replicate]
    omega

/-! ### `pbuf_take` -/

/-- The loop of `pbuf_take` that copies `data` into the members of a chain. -/
def pbufTakeLoop : Chain → List UInt8 → Chain
  | [], _ => []
  | seg :: p, data =>
      (data.take seg.length ++ seg.drop data.length) :: pbufTakeLoop p (data.drop seg.length)

/-- `pbuf_take`: `none` is `ERR_MEM`, when the chain is not large enough. -/
def pbufTake (p : Chain) (data : List UInt8) : Option Chain :=
  if totLen p < data.length then none else some (pbufTakeLoop p data)

lemma flatten_pbufTakeLoop {p : Chain} {data : List UInt8} (h : data.length = totLen p) :
    (pbufTakeLoop p data).flatten = data := by
  induction p generalizing data with
  | nil =>
    rw [totLen_nil] at h
    rw [List.eq_nil_of_length_eq_zero h]
    rfl
  | cons seg p ih =>
    rw [totLen_cons] at h
    rw [pbufTakeLoop, List.flatten_cons, ih (by rw [List.length_drop]; omega),
      List.drop_eq_nil_of_le (by omega), List.append_nil, List.take_append_drop]

/-- Filling a whole chain: its bytes are then the data. -/
lemma flatten_pbufTake {p : Chain} {data : List UInt8} (h : data.length = totLen p) :
    ∃ q, pbufTake p data = some q ∧ q.flatten = data :=
  ⟨_, if_neg (by omega), flatten_pbufTakeLoop h⟩

end Teensy41Ethernet.Lwip
