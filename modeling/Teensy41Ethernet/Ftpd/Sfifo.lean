import Teensy41Ethernet.Lib.Run
import Teensy41Ethernet.Lib.Memory
import Teensy41Ethernet.Lib.Word

/-!
# The byte FIFO of the FTP daemon

`sfifo_t` is a circular buffer whose size is a power of two and of which one byte always
stays free.  The read and write positions are not reduced modulo the size when they reach
it, so both run through `0 … size`; the number of bytes in use is the difference of the
positions, masked with `size - 1`.

Two functions of the daemon take bytes out of a FIFO, `send_data` for a data connection and
`send_msgdata` for the control connection.  They have the same body, `sfifoDrain`: up to two
calls of `tcp_write`, one for the bytes up to the end of the buffer and one for the rest,
each of which may fail.
-/

namespace Teensy41Ethernet.Ftpd

open Lib

/-! ### The data structure and its operations -/

def EINVAL : ℤ := 1
def ENOMEM : ℤ := 2
def ENODEV : ℤ := 3

/-- `SFIFO_MAX_BUFFER_SIZE` -/
def sfifoMaxBufferSize : ℤ := 0x7fffffff

/-- `sfifo_t`: a buffer (`none` is the null pointer), its size and the two positions. -/
structure Sfifo where
  buffer : Option (ℕ → UInt8)
  size : ℤ
  readpos : ℤ
  writepos : ℤ

/-- `sfifo_used` -/
def sfifoUsed (f : Sfifo) : ℤ := land32 (f.writepos - f.readpos) (f.size - 1)

/-- `sfifo_space` -/
def sfifoSpace (f : Sfifo) : ℤ := f.size - 1 - sfifoUsed f

/-- The loop `for (; f->size <= size; f->size <<= 1)` on a 32-bit `int`.  A power of two that
is shifted out of the word becomes `0` after 32 rounds, and `0` stays `0`: a loop that is
still running after 33 rounds never ends. -/
def sfifoSizeLoop : ℕ → ℤ → ℤ → Option ℤ
  | 0, _, _ => none
  | fuel + 1, cur, size =>
      if cur ≤ size then sfifoSizeLoop fuel (BitVec.ofInt 32 cur <<< 1).toInt size else some cur

/-- `sfifo_init`: the return code and the FIFO it leaves behind, or `none` when the sizing
loop does not end.  `malloc` is the block that the allocator returns, if any. -/
def sfifoInit (size : ℤ) (malloc : Option (ℕ → UInt8)) : Option (ℤ × Sfifo) :=
  if size > sfifoMaxBufferSize then
    some (-EINVAL, ⟨none, 0, 0, 0⟩)
  else
    (sfifoSizeLoop 33 1 size).map fun n =>
      match malloc with
      | none => (-ENOMEM, ⟨none, n, 0, 0⟩)
      | some mem => (0, ⟨some mem, n, 0, 0⟩)

/-- `sfifo_write` of the bytes `buf`: the number of bytes written or an error code, and the
FIFO afterwards. -/
def sfifoWrite (f : Sfifo) (buf : List UInt8) : ℤ × Sfifo :=
  match f.buffer with
  | none => (-ENODEV, f)
  | some mem =>
      let space := sfifoSpace f
      -- total = len = min(space, len)
      let total : ℤ := if (buf.length : ℤ) > space then space else buf.length
      let i := f.writepos
      if i + total > f.size then
        let n := f.size - i
        let mem := store mem i.toNat (buf.take n.toNat)
        let buf := buf.drop n.toNat
        let len := total - n
        (total, { f with buffer := some (store mem 0 (buf.take len.toNat)), writepos := 0 + len })
      else
        (total, { f with
          buffer := some (store mem i.toNat (buf.take total.toNat)), writepos := i + total })

/-- What TCP answers during one drain of a FIFO: the free space `tcp_sndbuf` of the send
buffer and the outcome of the two calls of `tcp_write`, the one that ends at the end of the
buffer and the one after it. -/
structure Drain where
  sndbuf : UInt16
  wrapOk : Bool
  writeOk : Bool
deriving DecidableEq, Repr

/-- The bytes behind the buffer pointer.  A null pointer is never read: such a FIFO stays
empty. -/
def Sfifo.mem (f : Sfifo) : ℕ → UInt8 := f.buffer.getD fun _ => 0

/-- The common body of `send_data` and `send_msgdata`: the blocks that `tcp_write` accepted,
in order, and the FIFO afterwards.  `len` is a `u16_t`. -/
def sfifoDrain (f : Sfifo) (d : Drain) : List (List UInt8) × Sfifo :=
  if sfifoUsed f > 0 then
    -- We cannot send more data than space available in the send buffer.
    let len : ℤ :=
      if (d.sndbuf.toNat : ℤ) < sfifoUsed f then d.sndbuf.toNat else sfifoUsed f % 2 ^ 16
    let i := f.readpos
    if i + len > f.size then
      if d.wrapOk then
        let block := load f.mem i.toNat ((f.size - i) % 2 ^ 16).toNat
        let len := (len - (f.size - i)) % 2 ^ 16
        if d.writeOk then
          ([block, load f.mem 0 len.toNat], { f with readpos := 0 + len })
        else
          ([block], { f with readpos := 0 })
      else
        ([], f)
    else
      if d.writeOk then
        ([load f.mem i.toNat len.toNat], { f with readpos := i + len })
      else
        ([], f)
  else
    ([], f)

/-- `send_data`, which drains the FIFO of a data session into its connection. -/
def sendData (f : Sfifo) (d : Drain) : List (List UInt8) × Sfifo := sfifoDrain f d

/-- `send_msgdata`, which drains the FIFO of a control session into its connection. -/
def sendMsgdata (f : Sfifo) (d : Drain) : List (List UInt8) × Sfifo := sfifoDrain f d

/-! ### Well-formed FIFOs -/

/-- A FIFO as `sfifo_init` sets it up and the operations keep it. -/
structure Sfifo.Wf (f : Sfifo) : Prop where
  pow : ∃ k ≤ 30, f.size = 2 ^ k
  readpos_nonneg : 0 ≤ f.readpos
  readpos_le : f.readpos ≤ f.size
  writepos_nonneg : 0 ≤ f.writepos
  writepos_le : f.writepos ≤ f.size
  /-- Nothing was ever written through a null pointer. -/
  null : f.buffer = none → f.readpos = 0 ∧ f.writepos = 0

/-- The bytes in a FIFO, oldest first. -/
def Sfifo.contents (f : Sfifo) : List UInt8 :=
  ring f.mem f.size.toNat f.readpos.toNat (sfifoUsed f).toNat

namespace Sfifo.Wf

variable {f : Sfifo}

lemma size_pos (h : f.Wf) : 0 < f.size := by
  obtain ⟨k, -, hk⟩ := h.pow
  rw [hk]
  positivity

lemma used_eq (h : f.Wf) : sfifoUsed f = (f.writepos - f.readpos) % f.size := by
  obtain ⟨k, hk, hsize⟩ := h.pow
  rw [sfifoUsed, hsize, land32_mask _ hk]

lemma used_nonneg (h : f.Wf) : 0 ≤ sfifoUsed f := by
  rw [h.used_eq]
  exact Int.emod_nonneg _ h.size_pos.ne'

lemma used_lt (h : f.Wf) : sfifoUsed f < f.size := by
  rw [h.used_eq]
  exact Int.emod_lt_of_pos _ h.size_pos

/-- The write position is the read position plus the number of bytes in use. -/
lemma readpos_add_used (h : f.Wf) : (f.readpos + sfifoUsed f) % f.size = f.writepos % f.size := by
  rw [h.used_eq, Int.add_emod, Int.emod_emod_of_dvd _ (dvd_refl _), ← Int.add_emod,
    add_sub_cancel]

end Sfifo.Wf

/-- The number of bytes in use, from a congruence for the write position. -/
lemma sfifoUsed_of_emod {f : Sfifo} (h : f.Wf) {u : ℤ} (hu : 0 ≤ u) (hlt : u < f.size)
    (hw : f.writepos % f.size = (f.readpos + u) % f.size) : sfifoUsed f = u := by
  rw [h.used_eq, Int.sub_emod, hw, ← Int.sub_emod, add_sub_cancel_left]
  exact Int.emod_eq_of_lt hu hlt

lemma length_contents (f : Sfifo) : f.contents.length = (sfifoUsed f).toNat := by
  rw [Sfifo.contents, length_ring]

lemma contents_eq_nil_of_used {f : Sfifo} (hused : ¬ sfifoUsed f > 0) : f.contents = [] := by
  rw [← List.length_eq_zero_iff, length_contents]
  omega

lemma buffer_ne_none_of_used_pos {f : Sfifo} (h : f.Wf) (hu : 0 < sfifoUsed f) :
    f.buffer ≠ none := by
  intro hnone
  obtain ⟨hr, hw⟩ := h.null hnone
  rw [h.used_eq, hr, hw] at hu
  simp at hu

/-- A congruence of two nonnegative positions, as naturals. -/
lemma toNat_emod_toNat {a b n : ℤ} (ha : 0 ≤ a) (hb : 0 ≤ b) (hn : 0 ≤ n)
    (h : a % n = b % n) : a.toNat % n.toNat = b.toNat % n.toNat := by
  apply Int.ofNat_inj.mp
  rw [Int.natCast_emod, Int.natCast_emod, Int.toNat_of_nonneg ha, Int.toNat_of_nonneg hb,
    Int.toNat_of_nonneg hn, h]

/-- Moving the read position forward by `m` bytes takes these bytes off the front of the
content. -/
lemma contents_advance {f : Sfifo} (h : f.Wf) (hbuf : f.buffer ≠ none) {m p : ℤ}
    (hm : 0 ≤ m) (hmu : m ≤ sfifoUsed f) (hp : 0 ≤ p) (hps : p ≤ f.size)
    (hpm : p % f.size = (f.readpos + m) % f.size) :
    ({ f with readpos := p } : Sfifo).Wf ∧
      f.contents = ring f.mem f.size.toNat f.readpos.toNat m.toNat ++
        ({ f with readpos := p } : Sfifo).contents := by
  have hwf : ({ f with readpos := p } : Sfifo).Wf :=
    ⟨h.pow, hp, hps, h.writepos_nonneg, h.writepos_le, fun hnone => absurd hnone hbuf⟩
  have hlt := h.used_lt
  have hused : sfifoUsed { f with readpos := p } = sfifoUsed f - m := by
    refine sfifoUsed_of_emod hwf (by omega) (by simp only; omega) ?_
    simp only
    rw [Int.add_emod, hpm, ← Int.add_emod, show f.readpos + m + (sfifoUsed f - m)
      = f.readpos + sfifoUsed f by ring, h.readpos_add_used]
  refine ⟨hwf, ?_⟩
  have hr := h.readpos_nonneg
  have hmod : (f.readpos.toNat + m.toNat) % f.size.toNat = p.toNat % f.size.toNat := by
    rw [← Int.toNat_add hr hm]
    exact toNat_emod_toNat (by omega) hp h.size_pos.le hpm.symm
  have hsplit : (sfifoUsed f).toNat = m.toNat + (sfifoUsed f - m).toNat := by omega
  rw [Sfifo.contents, Sfifo.contents, hused, hsplit, ring_add, ring_mod _ _ hmod]
  rfl

/-! ### Taking bytes out -/

/-- The bytes from the read position on, when they cross the end of the buffer. -/
lemma ring_wrap (mem : ℕ → UInt8) {n r k : ℕ} (hr : r ≤ n) (hk : n ≤ r + k) (hkn : k ≤ n) :
    ring mem n r k = load mem r (n - r) ++ load mem 0 (k - (n - r)) := by
  have hsplit : k = (n - r) + (k - (n - r)) := by omega
  have hend : (r + (n - r)) % n = 0 % n := by
    rw [Nat.add_sub_cancel' hr, Nat.mod_self, Nat.zero_mod]
  conv_lhs => rw [hsplit]
  rw [ring_add, ring_mod _ _ hend, ring_eq_load _ (by omega), ring_eq_load _ (by omega)]

lemma sfifoDrain_buffer (f : Sfifo) (d : Drain) : (sfifoDrain f d).2.buffer = f.buffer := by
  unfold sfifoDrain
  dsimp only
  repeat' split
  all_goals rfl

/-- The number of bytes a drain offers to TCP: the truncation to `u16_t` loses nothing, because
the send buffer is a `u16_t` itself. -/
lemma drain_len_bounds (f : Sfifo) (d : Drain) (hu : sfifoUsed f > 0) : ∃ len : ℤ,
    (if (d.sndbuf.toNat : ℤ) < sfifoUsed f then (d.sndbuf.toNat : ℤ)
      else sfifoUsed f % 2 ^ 16) = len ∧ 0 ≤ len ∧ len ≤ sfifoUsed f ∧ len < 2 ^ 16 := by
  have hsnd : d.sndbuf.toNat < 2 ^ 16 := d.sndbuf.toNat_lt
  split
  · exact ⟨_, rfl, by omega, by omega, by omega⟩
  · have hmod : sfifoUsed f % 2 ^ 16 = sfifoUsed f := Int.emod_eq_of_lt (by omega) (by omega)
    exact ⟨_, rfl, by omega, by omega, by omega⟩

/-- **One drain**: what TCP accepted, followed by what is left in the FIFO, is what was in
the FIFO, whichever of the two writes succeed. -/
theorem sfifoDrain_spec {f : Sfifo} (h : f.Wf) (d : Drain) :
    (sfifoDrain f d).2.Wf ∧ (sfifoDrain f d).2.size = f.size ∧
      f.contents = (sfifoDrain f d).1.flatten ++ (sfifoDrain f d).2.contents := by
  have hr := h.readpos_nonneg
  have hrs := h.readpos_le
  have hlt := h.used_lt
  unfold sfifoDrain
  by_cases hu : sfifoUsed f > 0
  swap
  · rw [if_neg hu]
    exact ⟨h, rfl, rfl⟩
  rw [if_pos hu]
  have hbuf := buffer_ne_none_of_used_pos h hu
  obtain ⟨len, hlen, hlen0, hlenu, hlen16⟩ := drain_len_bounds f d hu
  simp only [hlen]
  by_cases hwrap : f.readpos + len > f.size
  · -- the block crosses the end of the buffer
    have hn : (f.size - f.readpos) % 2 ^ 16 = f.size - f.readpos :=
      Int.emod_eq_of_lt (by omega) (by omega)
    have hl : (len - (f.size - f.readpos)) % 2 ^ 16 = len - (f.size - f.readpos) :=
      Int.emod_eq_of_lt (by omega) (by omega)
    rw [if_pos hwrap, hn, hl]
    by_cases hw : d.wrapOk = true
    swap
    · rw [if_neg hw]
      exact ⟨h, rfl, rfl⟩
    rw [if_pos hw]
    by_cases hw2 : d.writeOk = true
    · rw [if_pos hw2]
      obtain ⟨hwf, hcont⟩ := contents_advance h hbuf (p := 0 + (len - (f.size - f.readpos)))
        hlen0 hlenu (by omega) (by omega) (by
          rw [show f.readpos + len = 0 + (len - (f.size - f.readpos)) + f.size by ring,
            Int.add_emod_right])
      refine ⟨hwf, rfl, ?_⟩
      rw [hcont, ring_wrap _ (by omega) (by omega) (by omega)]
      simp only [List.flatten_cons, List.flatten_nil, List.append_nil]
      congr 3 <;> omega
    · rw [if_neg hw2]
      obtain ⟨hwf, hcont⟩ := contents_advance h hbuf (m := f.size - f.readpos) (p := 0)
        (by omega) (by omega) (by omega) (by omega) (by
          rw [add_sub_cancel, Int.emod_self, Int.zero_emod])
      refine ⟨hwf, rfl, ?_⟩
      rw [hcont, ring_eq_load _ (by omega)]
      simp
  · rw [if_neg hwrap]
    by_cases hw : d.writeOk = true
    · rw [if_pos hw]
      obtain ⟨hwf, hcont⟩ := contents_advance h hbuf (p := f.readpos + len)
        hlen0 hlenu (by omega) (by omega) rfl
      refine ⟨hwf, rfl, ?_⟩
      rw [hcont, ring_eq_load _ (by omega)]
      simp
    · rw [if_neg hw]
      exact ⟨h, rfl, rfl⟩

/-! ### Putting bytes in -/

/-- The number of bytes `sfifo_write` accepts. -/
def sfifoAccepts (f : Sfifo) (buf : List UInt8) : ℤ :=
  if (buf.length : ℤ) > sfifoSpace f then sfifoSpace f else buf.length

lemma sfifoAccepts_bounds {f : Sfifo} (h : f.Wf) (buf : List UInt8) :
    0 ≤ sfifoAccepts f buf ∧ sfifoAccepts f buf ≤ buf.length ∧
      sfifoUsed f + sfifoAccepts f buf < f.size := by
  have hlt := h.used_lt
  unfold sfifoAccepts sfifoSpace
  split <;> omega

/-- The two block copies of `sfifo_write` are one circular write behind the content. -/
lemma sfifoWrite_eq {f : Sfifo} (h : f.Wf) {mem : ℕ → UInt8} (hbuf : f.buffer = some mem)
    (buf : List UInt8) :
    ∃ w, 0 ≤ w ∧ w ≤ f.size ∧ w % f.size = (f.writepos + sfifoAccepts f buf) % f.size ∧
      sfifoWrite f buf = (sfifoAccepts f buf,
        ⟨some (ringStore mem f.size.toNat f.writepos.toNat
          (buf.take (sfifoAccepts f buf).toNat)), f.size, f.readpos, w⟩) := by
  obtain ⟨h0, hlen, hlt⟩ := sfifoAccepts_bounds h buf
  have hu := h.used_nonneg
  have hw := h.writepos_nonneg
  have hws := h.writepos_le
  have htake : (buf.take (sfifoAccepts f buf).toNat).length = (sfifoAccepts f buf).toNat := by
    rw [List.length_take]
    omega
  have hdef : sfifoWrite f buf =
      if f.writepos + sfifoAccepts f buf > f.size then
        (sfifoAccepts f buf, { f with
          buffer := some (store (store mem f.writepos.toNat
            (buf.take (f.size - f.writepos).toNat)) 0
            ((buf.drop (f.size - f.writepos).toNat).take
              (sfifoAccepts f buf - (f.size - f.writepos)).toNat))
          writepos := 0 + (sfifoAccepts f buf - (f.size - f.writepos)) })
      else
        (sfifoAccepts f buf, { f with
          buffer := some (store mem f.writepos.toNat (buf.take (sfifoAccepts f buf).toNat))
          writepos := f.writepos + sfifoAccepts f buf }) := by
    simp only [sfifoWrite, hbuf]
    rfl
  by_cases hwrap : f.writepos + sfifoAccepts f buf > f.size
  · refine ⟨0 + (sfifoAccepts f buf - (f.size - f.writepos)), by omega, by omega, ?_, ?_⟩
    · rw [show f.writepos + sfifoAccepts f buf
        = 0 + (sfifoAccepts f buf - (f.size - f.writepos)) + f.size by ring, Int.add_emod_right]
    · have hsplit : buf.take (sfifoAccepts f buf).toNat
          = buf.take (f.size - f.writepos).toNat ++
            (buf.drop (f.size - f.writepos).toNat).take
              (sfifoAccepts f buf - (f.size - f.writepos)).toNat := by
        rw [← List.take_add]
        congr 1
        omega
      have hfst : (buf.take (f.size - f.writepos).toNat).length
          = (f.size - f.writepos).toNat := by
        rw [List.length_take]
        omega
      have hend : (f.writepos.toNat + (f.size - f.writepos).toNat) % f.size.toNat
          = 0 % f.size.toNat := by
        rw [show f.writepos.toNat + (f.size - f.writepos).toNat = f.size.toNat by omega,
          Nat.mod_self, Nat.zero_mod]
      rw [hdef, if_pos hwrap, hsplit, ringStore_append, hfst, ringStore_mod _ _ hend,
        ringStore_eq_store mem (by rw [hfst]; omega), ringStore_eq_store _ (by
          rw [List.length_take]
          omega)]
  · refine ⟨f.writepos + sfifoAccepts f buf, by omega, by omega, rfl, ?_⟩
    rw [hdef, if_neg hwrap, ringStore_eq_store _ (by rw [htake]; omega)]

/-- **One write**: as many bytes as fit are accepted, and they are appended to the content. -/
theorem sfifoWrite_spec {f : Sfifo} (h : f.Wf) (hbuf : f.buffer ≠ none) (buf : List UInt8) :
    (sfifoWrite f buf).1 = sfifoAccepts f buf ∧ (sfifoWrite f buf).2.Wf ∧
      (sfifoWrite f buf).2.size = f.size ∧ (sfifoWrite f buf).2.buffer ≠ none ∧
      (sfifoWrite f buf).2.contents
        = f.contents ++ buf.take (sfifoAccepts f buf).toNat := by
  obtain ⟨mem, hmem⟩ := Option.ne_none_iff_exists'.mp hbuf
  obtain ⟨h0, hlen, hlt⟩ := sfifoAccepts_bounds h buf
  obtain ⟨w, hw0, hws, hwmod, heq⟩ := sfifoWrite_eq h hmem buf
  have hu := h.used_nonneg
  rw [heq]
  have hwf : (⟨some (ringStore mem f.size.toNat f.writepos.toNat
      (buf.take (sfifoAccepts f buf).toNat)), f.size, f.readpos, w⟩ : Sfifo).Wf :=
    ⟨h.pow, h.readpos_nonneg, h.readpos_le, hw0, hws, fun hnone => absurd hnone (by simp)⟩
  have hused : sfifoUsed ⟨some (ringStore mem f.size.toNat f.writepos.toNat
      (buf.take (sfifoAccepts f buf).toNat)), f.size, f.readpos, w⟩
      = sfifoUsed f + sfifoAccepts f buf := by
    refine sfifoUsed_of_emod hwf (by omega) hlt ?_
    simp only
    rw [hwmod, Int.add_emod, ← h.readpos_add_used, ← Int.add_emod, add_assoc]
  refine ⟨rfl, hwf, rfl, by simp, ?_⟩
  have hpos : f.writepos.toNat % f.size.toNat
      = (f.readpos.toNat + (sfifoUsed f).toNat) % f.size.toNat := by
    rw [← Int.toNat_add h.readpos_nonneg hu]
    exact toNat_emod_toNat h.writepos_nonneg (add_nonneg h.readpos_nonneg hu) h.size_pos.le
      h.readpos_add_used.symm
  have htake : (buf.take (sfifoAccepts f buf).toNat).length = (sfifoAccepts f buf).toNat := by
    rw [List.length_take]
    omega
  have hcount : (sfifoUsed f + sfifoAccepts f buf).toNat
      = (sfifoUsed f).toNat + (buf.take (sfifoAccepts f buf).toNat).length := by
    rw [htake]
    omega
  have hcont : f.contents = ring mem f.size.toNat f.readpos.toNat (sfifoUsed f).toNat := by
    rw [Sfifo.contents, Sfifo.mem, hmem]
    rfl
  rw [hcont, ← ring_ringStore mem (buf.take (sfifoAccepts f buf).toNat) (by rw [htake]; omega),
    ← ringStore_mod mem _ hpos, ← hcount, Sfifo.contents, hused]
  rfl

lemma sfifoWrite_null {f : Sfifo} (hbuf : f.buffer = none) (buf : List UInt8) :
    sfifoWrite f buf = (-ENODEV, f) := by
  simp only [sfifoWrite, hbuf]

/-- A block that fits goes into the FIFO as a whole. -/
lemma sfifoWrite_fits {f : Sfifo} (h : f.Wf) (hbuf : f.buffer ≠ none) {buf : List UInt8}
    (hlen : (buf.length : ℤ) ≤ sfifoSpace f) :
    (sfifoWrite f buf).2.Wf ∧ (sfifoWrite f buf).2.buffer ≠ none ∧
      (sfifoWrite f buf).2.contents = f.contents ++ buf := by
  obtain ⟨-, hwf, -, hbuffer, hcontents⟩ := sfifoWrite_spec h hbuf buf
  refine ⟨hwf, hbuffer, ?_⟩
  rw [hcontents, sfifoAccepts, if_neg (by omega), Int.toNat_natCast, List.take_length]

/-- A write keeps a FIFO in order, with or without its buffer. -/
lemma sfifoWrite_wf {f : Sfifo} (h : f.Wf) (buf : List UInt8) : (sfifoWrite f buf).2.Wf := by
  by_cases hbuf : f.buffer = none
  · rw [sfifoWrite_null hbuf]
    exact h
  · exact (sfifoWrite_spec h hbuf buf).2.1

/-! ### Initialisation -/

lemma shl_two_pow : ∀ j < 30, (BitVec.ofInt 32 (2 ^ j) <<< 1).toInt = 2 ^ (j + 1) := by
  decide

/-- The sizing loop ends with the least power of two above `size`, before its 32-bit shift can
overflow, from any power of two that is not larger than that. -/
lemma sfifoSizeLoop_least {size : ℤ} (hsize : size < 2 ^ 30) (fuel j : ℕ) (hj : j ≤ 30)
    (hfuel : 31 ≤ fuel + j) (hleast : ∀ i : ℕ, size < 2 ^ i → j ≤ i) :
    ∃ k, k ≤ 30 ∧ sfifoSizeLoop fuel (2 ^ j) size = some (2 ^ k) ∧ size < 2 ^ k ∧
      ∀ i : ℕ, size < 2 ^ i → k ≤ i := by
  induction fuel generalizing j with
  | zero => omega
  | succ fuel ih =>
    by_cases hle : (2 : ℤ) ^ j ≤ size
    · have hj30 : j < 30 := by
        by_contra hge
        obtain rfl : j = 30 := by omega
        omega
      have hnext : ∀ i : ℕ, size < 2 ^ i → j + 1 ≤ i := by
        intro i hi
        have hji := hleast i hi
        have hne : j ≠ i := by
          rintro rfl
          omega
        omega
      obtain ⟨k, hk, hloop, hlt, hmin⟩ := ih (j + 1) (by omega) (by omega) hnext
      refine ⟨k, hk, ?_, hlt, hmin⟩
      rw [sfifoSizeLoop, if_pos hle, shl_two_pow j hj30, hloop]
    · refine ⟨j, hj, ?_, by omega, hleast⟩
      rw [sfifoSizeLoop, if_neg hle]

/-- The FIFO that `sfifo_init` leaves behind for a size below `2 ^ 30`, whatever `malloc`
returned. -/
lemma sfifoInit_eq {size : ℤ} (hsize : size < 2 ^ 30) (malloc : Option (ℕ → UInt8)) :
    ∃ rc k, sfifoInit size malloc = some (rc, ⟨malloc, 2 ^ k, 0, 0⟩) ∧ k ≤ 30 ∧ size < 2 ^ k ∧
      ∀ i : ℕ, size < 2 ^ i → k ≤ i := by
  obtain ⟨k, hk, hloop, hlt, hmin⟩ :=
    sfifoSizeLoop_least hsize 33 0 (by omega) (by omega) fun _ _ => Nat.zero_le _
  have hmax : ¬ size > sfifoMaxBufferSize := by
    unfold sfifoMaxBufferSize
    omega
  rw [pow_zero] at hloop
  cases malloc with
  | none => exact ⟨-ENOMEM, k, by rw [sfifoInit, if_neg hmax, hloop]; rfl, hk, hlt, hmin⟩
  | some mem => exact ⟨0, k, by rw [sfifoInit, if_neg hmax, hloop]; rfl, hk, hlt, hmin⟩

/-- `sfifo_init` with a size below `2 ^ 30` leaves an empty well-formed FIFO behind, with the
block that `malloc` returned as its buffer. -/
lemma sfifoInit_spec {size : ℤ} (hsize : size < 2 ^ 30) (malloc : Option (ℕ → UInt8)) :
    ∃ rc f, sfifoInit size malloc = some (rc, f) ∧ f.Wf ∧ f.buffer = malloc ∧
      f.contents = [] := by
  obtain ⟨rc, k, hinit, hk, -, -⟩ := sfifoInit_eq hsize malloc
  have hpos : (0 : ℤ) ≤ 2 ^ k := by positivity
  have hwf : (⟨malloc, 2 ^ k, 0, 0⟩ : Sfifo).Wf :=
    ⟨⟨k, hk, rfl⟩, le_rfl, hpos, le_rfl, hpos, fun _ => ⟨rfl, rfl⟩⟩
  refine ⟨rc, _, hinit, hwf, rfl, ?_⟩
  rw [Sfifo.contents, hwf.used_eq]
  simp

/-! ### Whole runs -/

/-- A FIFO with a ledger of its traffic: the bytes that `sfifo_write` reported as accepted and
the bytes that `tcp_write` accepted, each in order. -/
structure Ledger where
  fifo : Sfifo
  accepted : List UInt8
  sent : List UInt8

/-- A use of a FIFO. -/
inductive FifoOp
  | write (buf : List UInt8)
  | sendData (d : Drain)
  | sendMsgdata (d : Drain)

/-- One use of the FIFO, entered in the ledger. -/
def Ledger.step (s : Ledger) : FifoOp → Ledger
  | .write buf =>
      let r := sfifoWrite s.fifo buf
      { s with fifo := r.2, accepted := s.accepted ++ buf.take r.1.toNat }
  | .sendData d =>
      let r := Ftpd.sendData s.fifo d
      { s with fifo := r.2, sent := s.sent ++ r.1.flatten }
  | .sendMsgdata d =>
      let r := Ftpd.sendMsgdata s.fifo d
      { s with fifo := r.2, sent := s.sent ++ r.1.flatten }

/-- The FIFO is well formed and no byte is lost, duplicated or reordered. -/
structure Ledger.Faithful (s : Ledger) : Prop where
  wf : s.fifo.Wf
  stream : s.sent ++ s.fifo.contents = s.accepted

lemma Ledger.Faithful.drain {s : Ledger} (h : s.Faithful) (d : Drain) :
    Ledger.Faithful
      { s with fifo := (sfifoDrain s.fifo d).2
               sent := s.sent ++ (sfifoDrain s.fifo d).1.flatten } := by
  obtain ⟨hwf, -, hcont⟩ := sfifoDrain_spec h.wf d
  refine ⟨hwf, ?_⟩
  simp only
  rw [List.append_assoc, ← hcont, h.stream]

/-- Every use of the FIFO keeps the ledger faithful. -/
lemma Ledger.Faithful.step {s : Ledger} (h : s.Faithful) (op : FifoOp) :
    (s.step op).Faithful := by
  cases op with
  | write buf =>
    by_cases hbuf : s.fifo.buffer = none
    · have hid : s.step (.write buf) = s := by
        simp [Ledger.step, sfifoWrite_null hbuf, ENODEV]
      rw [hid]
      exact h
    · obtain ⟨hrc, hwf, -, -, hcont⟩ := sfifoWrite_spec h.wf hbuf buf
      refine ⟨hwf, ?_⟩
      simp only [Ledger.step]
      rw [hcont, hrc, ← List.append_assoc, h.stream]
  | sendData d => exact h.drain d
  | sendMsgdata d => exact h.drain d

/-- **Stream fidelity.**  From `sfifo_init` with any size below `2 ^ 30`, whether or not its
`malloc` succeeds, every interleaving of writes and drains keeps the two positions inside
`0 … size` and the used and free bytes adding up to `size - 1`; and the bytes that TCP
accepted, followed by the bytes still in the FIFO, are the bytes that the writes accepted. -/
theorem sfifo_stream_fidelity (size : ℤ) (hsize : size < 2 ^ 30)
    (malloc : Option (ℕ → UInt8)) (ops : List FifoOp) :
    ∃ rc f, sfifoInit size malloc = some (rc, f) ∧
      ∃ t, ops.foldl Ledger.step ⟨f, [], []⟩ = t ∧
        (0 ≤ t.fifo.readpos ∧ t.fifo.readpos ≤ t.fifo.size) ∧
        (0 ≤ t.fifo.writepos ∧ t.fifo.writepos ≤ t.fifo.size) ∧
        sfifoUsed t.fifo + sfifoSpace t.fifo = t.fifo.size - 1 ∧
        t.sent ++ t.fifo.contents = t.accepted := by
  obtain ⟨rc, f, hinit, hwf, -, hnil⟩ := sfifoInit_spec hsize malloc
  refine ⟨rc, f, hinit, _, rfl, ?_⟩
  have hrun : (ops.foldl Ledger.step ⟨f, [], []⟩).Faithful :=
    List.foldlRecOn ops Ledger.step ⟨hwf, hnil⟩ fun _ h op _ => h.step op
  refine ⟨⟨hrun.wf.readpos_nonneg, hrun.wf.readpos_le⟩,
    ⟨hrun.wf.writepos_nonneg, hrun.wf.writepos_le⟩, ?_, hrun.stream⟩
  unfold sfifoSpace
  ring

/-- A run in which the first of the two writes at the end of the buffer succeeds and the
second fails: `4` is sent, `5` and `6` stay. -/
theorem sfifo_stream_fidelity_split_write :
    (∃ rc f, sfifoInit 3 (some fun _ => 0) = some (rc, f) ∧
      ∃ t, [.write [1, 2, 3], .sendData ⟨9, true, true⟩, .write [4, 5, 6],
          .sendMsgdata ⟨9, true, false⟩].foldl Ledger.step ⟨f, [], []⟩ = t ∧
        (0 ≤ t.fifo.readpos ∧ t.fifo.readpos ≤ t.fifo.size) ∧
        (0 ≤ t.fifo.writepos ∧ t.fifo.writepos ≤ t.fifo.size) ∧
        sfifoUsed t.fifo + sfifoSpace t.fifo = t.fifo.size - 1 ∧
        t.sent ++ t.fifo.contents = t.accepted) ∧
      ([.write [1, 2, 3], .sendData ⟨9, true, true⟩, .write [4, 5, 6],
        .sendMsgdata ⟨9, true, false⟩].foldl Ledger.step
          ⟨⟨some fun _ => 0, 4, 0, 0⟩, [], []⟩).sent = [1, 2, 3, 4] :=
  ⟨sfifo_stream_fidelity 3 (by norm_num) _ _, by decide⟩

end Teensy41Ethernet.Ftpd
