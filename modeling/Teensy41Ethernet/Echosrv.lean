import Teensy41Ethernet.Lib.Run
import Teensy41Ethernet.Lwip.Pbuf

/-!
# The TCP echo server

`recv_callback` of `lwip_echosrv.ino` sends back what it receives.  It hands the whole length
of the packet to `tcp_write`, but the address of its first buffer only; it does not look at
the result of `tcp_write`; and it acknowledges the packet in any case.  Hence the echo is
exact as long as the send buffer has room and a packet is one buffer.
-/

namespace Teensy41Ethernet.Echosrv

open Lib Lwip

/-! ### The connection -/

/-- A call of `recv_callback`: the packet, or none when the other end has closed; whether
`tcp_write` has room for the bytes; and the memory behind the packet's first buffer. -/
structure Delivery where
  p : Option Chain
  room : Bool
  behind : ℕ → UInt8

/-- One connection.  `received` are the bytes delivered, `recved` the number of bytes
acknowledged with `tcp_recved`, and `queued` the bytes queued by `tcp_write`.  The callback
is registered while `live`. -/
structure Conn where
  live : Bool
  received : List UInt8
  recved : ℕ
  queued : List UInt8

/-- The connection when `accept_callback` has registered `recv_callback`. -/
def accepted : Conn := ⟨true, [], 0, []⟩

/-- `tcp_write(tpcb, arg, len, TCP_WRITE_FLAG_COPY)`: all the bytes, or none. -/
def tcpWrite (s : Conn) (room : Bool) (arg : List UInt8) : Conn :=
  if room then { s with queued := s.queued ++ arg } else s

/-- `echo_close`. -/
def echoClose (s : Conn) : Conn := { s with live := false }

/-- `recv_callback`. -/
def recvCallback (s : Conn) (d : Delivery) : Option Conn :=
  if s.live then
    match d.p with
    | none => some (echoClose s)
    | some p =>
        -- the result of `tcp_write` is not used
        let s' := tcpWrite s d.room (payloadBytes p d.behind (totLen p))
        some { s' with received := s.received ++ p.flatten, recved := s.recved + totLen p }
  else none

/-- The bytes acknowledged. -/
def Conn.acknowledged (s : Conn) : List UInt8 := s.received.take s.recved

/-! ### What one call adds -/

/-- The bytes of the packet. -/
def Delivery.bytes (d : Delivery) : List UInt8 := (d.p.getD []).flatten

/-- The bytes that the call queues. -/
def Delivery.echo (d : Delivery) : List UInt8 :=
  if d.room then payloadBytes (d.p.getD []) d.behind (totLen (d.p.getD [])) else []

/-- The packet is empty, or the send buffer has room for it and the memory behind its first
buffer holds the bytes of its other buffers, if it has any. -/
def Delivery.Faithful (d : Delivery) : Prop :=
  totLen (d.p.getD []) = 0 ∨
    d.room = true ∧
      (List.range (totLen (d.p.getD []).tail)).map d.behind = (d.p.getD []).tail.flatten

instance (d : Delivery) : Decidable d.Faithful :=
  inferInstanceAs (Decidable (_ ∨ _ ∧ _))

lemma Delivery.length_bytes (d : Delivery) : d.bytes.length = totLen (d.p.getD []) :=
  length_flatten_eq_totLen _

lemma Delivery.length_echo_le (d : Delivery) : d.echo.length ≤ d.bytes.length := by
  rw [d.length_bytes, echo]
  split
  · rw [length_payloadBytes]
  · exact Nat.zero_le _

/-- The call echoes its packet exactly if the packet is faithful. -/
lemma Delivery.echo_eq_iff (d : Delivery) : d.echo = d.bytes ↔ d.Faithful := by
  by_cases hempty : totLen (d.p.getD []) = 0
  · refine iff_of_true ?_ (Or.inl hempty)
    have hle := d.length_echo_le
    have hbytes := d.length_bytes
    rw [List.eq_nil_of_length_eq_zero (by omega : d.echo.length = 0),
      List.eq_nil_of_length_eq_zero (by omega : d.bytes.length = 0)]
  · rw [Faithful, or_iff_right hempty, echo]
    by_cases hroom : d.room = true
    · rw [if_pos hroom, and_iff_right hroom]
      exact payloadBytes_totLen_eq_iff _ _
    · refine iff_of_false (fun h => hempty ?_) fun h => hroom h.1
      rw [if_neg hroom] at h
      rw [← d.length_bytes, ← h]
      rfl

/-- A call appends the bytes of its packet to what was received and its echo to what was
queued. -/
lemma recvCallback_eq {s s' : Conn} {d : Delivery} (h : recvCallback s d = some s') :
    s'.received = s.received ++ d.bytes ∧ s'.recved = s.recved + d.bytes.length ∧
      s'.queued = s.queued ++ d.echo := by
  rw [recvCallback, Option.ite_none_right_eq_some] at h
  obtain ⟨-, h⟩ := h
  rw [d.length_bytes]
  cases hp : d.p with
  | none =>
    rw [hp] at h
    obtain rfl := Option.some.inj h
    have hecho : d.echo = [] := by
      rw [Delivery.echo, hp]
      split <;> rfl
    simp [echoClose, Delivery.bytes, hp, hecho]
  | some p =>
    rw [hp] at h
    obtain rfl := Option.some.inj h
    cases hroom : d.room <;> simp [tcpWrite, Delivery.bytes, Delivery.echo, hp, hroom]

/-! ### The whole connection -/

/-- Two pairs of blocks are equal as wholes exactly if they are equal blockwise, when no block
on the left is longer than the one on the right. -/
lemma append_eq_append_iff_of_le {α : Type*} {as bs cs ds : List α}
    (hac : as.length ≤ cs.length) (hbd : bs.length ≤ ds.length) :
    as ++ bs = cs ++ ds ↔ as = cs ∧ bs = ds := by
  constructor
  · intro h
    have hlen := congrArg List.length h
    rw [List.length_append, List.length_append] at hlen
    exact List.append_inj h (by omega)
  · rintro ⟨rfl, rfl⟩
    rfl

/-- From a state on, the echo is exact if it was and every packet is faithful. -/
lemma queued_eq_received_iff {s t : Conn} {ds : List Delivery}
    (hle : s.queued.length ≤ s.received.length) (hrun : exec recvCallback s ds = some t) :
    t.queued = t.received ↔ s.queued = s.received ∧ ∀ d ∈ ds, d.Faithful := by
  induction ds generalizing s with
  | nil =>
    obtain rfl := Option.some.inj hrun
    simp
  | cons d ds ih =>
    obtain ⟨s', hstep, hrest⟩ := exec_cons_eq_some.mp hrun
    obtain ⟨hreceived, -, hqueued⟩ := recvCallback_eq hstep
    have hecho := d.length_echo_le
    have hle' : s'.queued.length ≤ s'.received.length := by
      rw [hreceived, hqueued, List.length_append, List.length_append]
      omega
    rw [ih hle' hrest, hreceived, hqueued, append_eq_append_iff_of_le hle hecho, d.echo_eq_iff,
      List.forall_mem_cons, and_assoc]

/-- **The echo is exact** if and only if every packet that is not empty finds room in the send
buffer and lies, behind the address of its first buffer, in one block. -/
theorem echo_exact_iff (ds : List Delivery) {t : Conn}
    (hrun : exec recvCallback accepted ds = some t) :
    t.queued = t.acknowledged ↔ ∀ d ∈ ds, d.Faithful := by
  have hall : t.recved = t.received.length := by
    refine exec_inv (P := fun s => s.recved = s.received.length) (fun s d s' hs hstep => ?_)
      rfl hrun
    obtain ⟨hreceived, hrecved, -⟩ := recvCallback_eq hstep
    rw [hreceived, hrecved, List.length_append, hs]
  rw [Conn.acknowledged, hall, List.take_length, queued_eq_received_iff (Nat.zero_le _) hrun]
  exact and_iff_right rfl

/-- Two packets of one buffer, and the other end closes. -/
theorem echo_exact_two_packets :
    let ds : List Delivery := [⟨some [[1, 2, 3]], true, fun _ => 0⟩, ⟨some [[4]], true, fun _ => 0⟩,
      ⟨none, true, fun _ => 0⟩]
    ∃ t, exec recvCallback accepted ds = some t ∧ t.queued = t.acknowledged := by
  intro ds
  exact ⟨_, rfl, (echo_exact_iff ds rfl).mpr (by decide)⟩

/-- A packet of two buffers: the bytes of the second are acknowledged, but what lies behind
the first one is sent back.  A second packet finds no room and is acknowledged too. -/
theorem echo_not_exact :
    ∃ ds t, exec recvCallback accepted ds = some t ∧ t.queued = [1, 2, 9, 9] ∧
      t.acknowledged = [1, 2, 3, 4, 5] ∧ t.queued ≠ t.acknowledged := by
  let ds : List Delivery :=
    [⟨some [[1, 2], [3, 4]], true, fun _ => 9⟩, ⟨some [[5]], false, fun _ => 0⟩]
  exact ⟨ds, _, rfl, rfl, rfl, by decide⟩

end Teensy41Ethernet.Echosrv
