import Teensy41Ethernet.Ftpd.Commands

/-!
# The search for a port

`cmd_pasv` keeps the last port that it tried in a static variable and tries the ports behind
it, in a circle from 4096 to 0x7fff, until one can be bound or it is back at the port it
started from.  `cyclicPorts` is the order in which the ports come; the loop finds the first
of them that is not in use.
-/

namespace Teensy41Ethernet.Ftpd

open Lib

/-! ### The circle of ports -/

/-- The ports that are still to be tried after `port` until the search is back at `start`. -/
def portsToTry (start port : ℕ) : List ℕ :=
  if port < start then List.range' (port + 1) (start - port)
  else List.range' (port + 1) (0x7fff - port) ++ List.range' 4096 (start - 4095)

/-- `port + 1, …, 0x7fff, 4096, …, port`. -/
def cyclicPorts (port : UInt16) : List UInt16 :=
  (List.range' (port.toNat + 1) (0x7fff - port.toNat) ++
    List.range' 4096 (port.toNat - 4095)).map UInt16.ofNat

lemma cyclicPorts_eq (port : UInt16) :
    cyclicPorts port = (portsToTry port.toNat port.toNat).map UInt16.ofNat := by
  rw [cyclicPorts, portsToTry, if_neg (lt_irrefl _)]

/-- The first port to try, and those after it. -/
lemma portsToTry_eq_cons {start port next : ℕ} (hstart : 4096 ≤ start) (hle : start ≤ 0x7fff)
    (hport : port ≤ 0x7fff) (hnext : next = if port = 0x7fff then 4096 else port + 1) :
    portsToTry start port = next :: if start = next then [] else portsToTry start next := by
  have hcons : ∀ a n, n ≠ 0 → List.range' a n = a :: List.range' (a + 1) (n - 1) := by
    intro a n hn
    obtain ⟨k, rfl⟩ := Nat.exists_eq_succ_of_ne_zero hn
    rfl
  by_cases hlt : port < start
  · -- the search has passed the end of the range
    have hnext' : next = port + 1 := by rw [hnext, if_neg (by omega)]
    rw [portsToTry, if_pos hlt, hcons _ _ (by omega), hnext']
    by_cases hround : start = port + 1
    · rw [if_pos hround, hround]
      simp
    · rw [if_neg hround, portsToTry, if_pos (by omega),
        show start - port - 1 = start - (port + 1) by omega]
  · rw [portsToTry, if_neg hlt]
    by_cases hlast : port = 0x7fff
    · rw [hlast, if_pos rfl] at hnext
      rw [hlast, hnext, Nat.sub_self, List.range'_zero, List.nil_append, hcons _ _ (by omega)]
      by_cases hround : start = 4096
      · rw [if_pos hround, hround]
        rfl
      · rw [if_neg hround, portsToTry, if_pos (by omega),
          show start - 4095 - 1 = start - 4096 by omega]
    · rw [if_neg hlast] at hnext
      rw [hcons _ _ (by omega), List.cons_append, hnext, if_neg (by omega), portsToTry,
        if_neg (by omega), show 0x7fff - port - 1 = 0x7fff - (port + 1) by omega]

/-- The ports of the circle are those of the range. -/
lemma mem_portsToTry {start p : ℕ} (hstart : 4096 ≤ start) (hle : start ≤ 0x7fff) :
    p ∈ portsToTry start start ↔ 4096 ≤ p ∧ p ≤ 0x7fff := by
  rw [portsToTry, if_neg (lt_irrefl _), List.mem_append, List.mem_range'_1, List.mem_range'_1]
  omega

lemma mem_cyclicPorts {port p : UInt16} (h : InPortRange port) :
    p ∈ cyclicPorts port ↔ InPortRange p := by
  rw [cyclicPorts_eq, List.mem_map]
  constructor
  · rintro ⟨n, hn, rfl⟩
    rw [mem_portsToTry h.1 h.2] at hn
    rwa [InPortRange, UInt16.toNat_ofNat_of_lt' (by change n < 65536; omega)]
  · intro hp
    exact ⟨p.toNat, (mem_portsToTry h.1 h.2).mpr hp, UInt16.ofNat_toNat⟩

/-! ### The loop -/

/-- How many ports there are to try until the search is back at the one it started from. -/
def portsLeft (start port : UInt16) : ℕ :=
  if port.toNat < start.toNat then start.toNat - port.toNat
  else 28672 - (port.toNat - start.toNat)

lemma toNat_nextPort {port : UInt16} (h : InPortRange port) :
    (if port + 1 > 0x7fff then 4096 else port + 1).toNat =
      if port.toNat = 0x7fff then 4096 else port.toNat + 1 := by
  obtain ⟨-, hle⟩ := h
  have hsucc : (port + 1).toNat = port.toNat + 1 := by
    rw [UInt16.toNat_add]
    exact Nat.mod_eq_of_lt (show port.toNat + 1 < 2 ^ 16 by omega)
  have hgt : port + 1 > 0x7fff ↔ port.toNat = 0x7fff := by
    rw [gt_iff_lt, UInt16.lt_iff_toNat_lt, hsucc]
    change 0x7fff < port.toNat + 1 ↔ _
    omega
  by_cases hlast : port.toNat = 0x7fff
  · rw [if_pos (hgt.mpr hlast), if_pos hlast]
    rfl
  · rw [if_neg (mt hgt.mp hlast), if_neg hlast, hsucc]

/-- The first of the ports that is not in use ends the search; without one the search gives up
at `start`. -/
def searchResult (bind : UInt16 → BindResult) (start : UInt16) (ports : List UInt16) :
    UInt16 × Bool :=
  match ports.find? fun p => bind p ≠ .use with
  | some p => (p, bind p = .ok)
  | none => (start, false)

/-- The loop searches the ports that are left. -/
lemma bindLoop_eq {bind : UInt16 → BindResult} {start : UInt16} (hstart : InPortRange start)
    (fuel : ℕ) : ∀ port, InPortRange port → portsLeft start port ≤ fuel →
      bindLoop bind start fuel port =
        some (searchResult bind start ((portsToTry start.toNat port.toNat).map UInt16.ofNat)) := by
  induction fuel with
  | zero =>
    intro port hport hleft
    obtain ⟨h₁, h₂⟩ := hport
    obtain ⟨h₃, h₄⟩ := hstart
    rw [portsLeft] at hleft
    split at hleft
    · omega
    · omega
  | succ fuel ih =>
    intro port hport hleft
    have hnext := toNat_nextPort hport
    rw [bindLoop]
    generalize (if port + 1 > 0x7fff then 4096 else port + 1) = next at hnext ⊢
    obtain ⟨h₁, h₂⟩ := hport
    rw [portsToTry_eq_cons hstart.1 hstart.2 h₂ hnext, List.map_cons, UInt16.ofNat_toNat,
      searchResult]
    cases hbind : bind next with
    | ok => simp [hbind]
    | other => simp [hbind]
    | use =>
      rw [List.find?_cons_of_neg (by simp [hbind])]
      by_cases hround : start = next
      · simp [hround]
      · have hne : start.toNat ≠ next.toNat := fun h => hround (UInt16.toNat_inj.mp h)
        dsimp only
        rw [if_neg hround, if_neg hne]
        obtain ⟨h₃, h₄⟩ := hstart
        refine ih next ⟨?_, ?_⟩ ?_
        · split at hnext <;> omega
        · split at hnext <;> omega
        · rw [portsLeft] at hleft ⊢
          grind

/-- The search from the counter on. -/
lemma bindLoop_cyclic {bind : UInt16 → BindResult} {port : UInt16} (h : InPortRange port) :
    bindLoop bind port (2 ^ 16) port = some (searchResult bind port (cyclicPorts port)) := by
  rw [cyclicPorts_eq]
  refine bindLoop_eq h (2 ^ 16) port h ?_
  rw [portsLeft, if_neg (lt_irrefl _), Nat.sub_self]
  norm_num

/-- The search ends at a port of the range. -/
lemma inPortRange_searchResult {port : UInt16} (h : InPortRange port)
    (bind : UInt16 → BindResult) : InPortRange (searchResult bind port (cyclicPorts port)).1 := by
  rw [searchResult]
  split
  · next p hp => exact (mem_cyclicPorts h).mp (List.mem_of_find?_eq_some hp)
  · exact h

lemma bindLoop_spec {port : UInt16} (h : InPortRange port) (bind : UInt16 → BindResult) :
    ∃ r, bindLoop bind port (2 ^ 16) port = some r ∧ InPortRange r.1 :=
  ⟨_, bindLoop_cyclic h, inPortRange_searchResult h bind⟩

/-- The values of the counter: 4096, and what a search has left there. -/
inductive PortCounter : UInt16 → Prop
  | init : PortCounter 4096
  | pasv {port port' : UInt16} {bind : UInt16 → BindResult} {bound : Bool} :
      PortCounter port → bindLoop bind port (2 ^ 16) port = some (port', bound) →
      PortCounter port'

/-- The counter stays in the range. -/
lemma PortCounter.inPortRange {port : UInt16} (h : PortCounter port) : InPortRange port := by
  induction h with
  | init => exact ⟨by decide, by decide⟩
  | pasv _ hrun ih =>
    obtain ⟨r, hr, hrange⟩ := bindLoop_spec ih _
    obtain rfl := Option.some.inj (hrun.symm.trans hr)
    exact hrange

/-- `tcp_bind` when the ports in use are given. -/
def bindUnless (busy : UInt16 → Bool) (port : UInt16) : BindResult :=
  if busy port then .use else .ok

lemma find_bindUnless (busy : UInt16 → Bool) (ports : List UInt16) :
    (ports.find? fun p => bindUnless busy p ≠ .use) = ports.find? fun p => !busy p := by
  congr 1
  funext p
  cases h : busy p with
  | _ => simp [bindUnless, h]

/-- With the ports in use given, the first free one is bound. -/
lemma searchResult_bindUnless (busy : UInt16 → Bool) (start : UInt16) (ports : List UInt16) :
    searchResult (bindUnless busy) start ports =
      match ports.find? fun p => !busy p with
      | some p => (p, true)
      | none => (start, false) := by
  rw [searchResult, find_bindUnless]
  cases hfind : ports.find? fun p => !busy p with
  | none => rfl
  | some p =>
    have hfree : busy p = false := by simpa using List.find?_some hfind
    simp [bindUnless, hfree]

/-- **The search for a port.**  For every value of the counter and every set of busy ports the
loop ends.  It binds the first free port in the order `port + 1, …, 0x7fff, 4096, …, port`, the
counter stays in the range, and it gives up exactly if all 28672 ports are busy. -/
theorem bindLoop_first_free {port : UInt16} (h : PortCounter port) (busy : UInt16 → Bool) :
    ∃ r, bindLoop (bindUnless busy) port (2 ^ 16) port = some r ∧
      InPortRange port ∧ InPortRange r.1 ∧
      (∀ p, r = (p, true) ↔ (cyclicPorts port).find? (fun q => !busy q) = some p) ∧
      (r.2 = false ↔ ∀ p, InPortRange p → busy p = true) ∧
      (cyclicPorts port).length = 28672 ∧ ∀ p, p ∈ cyclicPorts port ↔ InPortRange p := by
  have hrange := h.inPortRange
  have hlen : (cyclicPorts port).length = 28672 := by
    obtain ⟨h₁, h₂⟩ := hrange
    rw [cyclicPorts, List.length_map, List.length_append, List.length_range', List.length_range']
    omega
  refine ⟨_, bindLoop_cyclic hrange, hrange, inPortRange_searchResult hrange _, ?_, ?_, hlen,
    fun p => mem_cyclicPorts hrange⟩
  · intro p
    rw [searchResult_bindUnless]
    cases (cyclicPorts port).find? fun q => !busy q with
    | none => simp
    | some q => simp
  · rw [searchResult_bindUnless]
    cases hfind : (cyclicPorts port).find? fun q => !busy q with
    | none =>
      rw [List.find?_eq_none] at hfind
      refine iff_of_true rfl fun p hp => ?_
      simpa using hfind p ((mem_cyclicPorts hrange).mpr hp)
    | some q =>
      have hfree : busy q = false := by simpa using List.find?_some hfind
      have hq := (mem_cyclicPorts hrange).mp (List.mem_of_find?_eq_some hfind)
      refine iff_of_false (Bool.noConfusion ·) fun hall => ?_
      rw [hall q hq] at hfree
      cases hfree

/-- Port 4097 is in use: from 4096 on the search finds 4098. -/
theorem bindLoop_first_free_second :
    bindLoop (bindUnless fun p => p = 4097) 4096 (2 ^ 16) 4096 = some (4098, true) := by
  obtain ⟨r, hrun, -, -, hfirst, -⟩ :=
    bindLoop_first_free PortCounter.init fun p => p = (4097 : UInt16)
  rw [hrun, (hfirst 4098).mpr (by rfl)]

end Teensy41Ethernet.Ftpd
