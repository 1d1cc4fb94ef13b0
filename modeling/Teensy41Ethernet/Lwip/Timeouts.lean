import Teensy41Ethernet.Lib.DeltaList
import Mathlib.Data.UInt

/-!
# The timers of the stack (`core/timeouts.c`)

`sys_timeout`, `sys_untimeout` and the round of the loop of `sys_check_timeouts`.  The list
`next_timeout` is a delta list: an entry holds the milliseconds from the entry before it, the
first one those from `timeouts_last_time`.  All of this is arithmetic in 32 bits.  The entries
come from the pool `MEMP_SYS_TIMEOUT`, which nothing else uses; `sys_timeout` does nothing when
all of them are in the list.

A handler and its argument are one value of a type `α`.

The theorem of this file, `deadlines_sysTimeout`, says which deadline a new timer gets and what
happens to the others.  It is not always the one asked for: `sys_timeout` counts from the time
of the call, but compares with, and takes off, times that count from `timeouts_last_time`.
-/

namespace Teensy41Ethernet.Lwip

open Lib.DeltaList

variable {α : Type*}

/-- `struct sys_timeo`. -/
structure SysTimeo (α : Type*) where
  time : UInt32
  what : α
deriving DecidableEq

/-- `next_timeout` and `timeouts_last_time`. -/
structure Timeouts (α : Type*) where
  next : List (SysTimeo α)
  last : UInt32
deriving DecidableEq

/-- `MEMP_NUM_SYS_TIMEOUT`: one for TCP, reassembly, ARP, IGMP and DNS, two for DHCP. -/
def mempNumSysTimeout : ℕ := 7

/-- The loop of `sys_timeout`: `first` is `next_timeout->time`, `time` the value of
`timeout->time` before `t` is passed. -/
def sysTimeoutLoop (msecs first : UInt32) (what : α) :
    UInt32 → SysTimeo α → List (SysTimeo α) → List (SysTimeo α)
  | time, t, [] =>
      -- the end of the list: `timeouts_last_time` and the time of the call may differ too much
      let time := time - t.time
      [t, ⟨if msecs < time then msecs + first else time, what⟩]
  | time, t, n :: l =>
      let time := time - t.time
      if time < n.time then t :: ⟨time, what⟩ :: { n with time := n.time - time } :: l
      else t :: sysTimeoutLoop msecs first what time n l

/-- `sys_timeout` at the time `now`. -/
def sysTimeout (now msecs : UInt32) (what : α) (s : Timeouts α) : Timeouts α :=
  if mempNumSysTimeout ≤ s.next.length then s
  else
    match s.next with
    | [] => ⟨[⟨msecs + 0, what⟩], now⟩
    | n :: l =>
        let diff := now - s.last
        if msecs < n.time then
          { s with next := ⟨msecs + diff, what⟩ :: { n with time := n.time - msecs } :: l }
        else { s with next := sysTimeoutLoop msecs n.time what (msecs + diff) n l }

/-- The time of a removed entry is added to the next one. -/
def SysTimeo.carry (d : UInt32) : List (SysTimeo α) → List (SysTimeo α)
  | [] => []
  | n :: l => { n with time := n.time + d } :: l

/-- The loop of `sys_untimeout`; `p` says whether handler and argument match. -/
def sysUntimeoutLoop (p : α → Bool) : List (SysTimeo α) → List (SysTimeo α)
  | [] => []
  | t :: l => if p t.what then SysTimeo.carry t.time l else t :: sysUntimeoutLoop p l

/-- `sys_untimeout`. -/
def sysUntimeout (p : α → Bool) (s : Timeouts α) : Timeouts α :=
  { s with next := sysUntimeoutLoop p s.next }

/-- A round of the loop of `sys_check_timeouts`, with its local variable `diff`: the timer whose
handler is called, with `diff` and the list as they are when it is called, or `none` when no
timer has expired. -/
def sysCheckRound (diff : UInt32) (s : Timeouts α) :
    Option (SysTimeo α × UInt32 × Timeouts α) :=
  match s.next with
  | [] => none
  | t :: l => if t.time ≤ diff then some (t, diff - t.time, ⟨l, s.last + t.time⟩) else none

/-! ### Deadlines -/

/-- The list with its times as numbers. -/
def deltas (l : List (SysTimeo α)) : List (ℕ × α) := l.map fun t => (t.time.toNat, t.what)

@[simp] lemma deltas_nil : deltas ([] : List (SysTimeo α)) = [] := rfl

@[simp] lemma deltas_cons (t : SysTimeo α) (l : List (SysTimeo α)) :
    deltas (t :: l) = (t.time.toNat, t.what) :: deltas l := rfl

/-- The deadlines of the timers, for a list that counts from `base`. -/
def Timeouts.deadlines (base : ℕ) (s : Timeouts α) : List (ℕ × α) :=
  Lib.DeltaList.deadlines base (deltas s.next)

/-- The time from `timeouts_last_time` to the last deadline. -/
def Timeouts.span (s : Timeouts α) : ℕ := Lib.DeltaList.span (deltas s.next)

variable {what : α} {now base : ℕ} {msecs time first : UInt32} {s : Timeouts α}
  {t n : SysTimeo α} {l : List (SysTimeo α)}

/-- The milliseconds between two readings of the clock, if they are not too far apart. -/
lemma toNat_sub_clock (hle : base ≤ now) (hlt : now - base < 2 ^ 32) :
    (UInt32.ofNat now - UInt32.ofNat base).toNat = now - base := by
  rw [UInt32.toNat_sub, UInt32.toNat_ofNat', UInt32.toNat_ofNat']
  omega

lemma toNat_add_of_lt {a b : UInt32} (h : a.toNat + b.toNat < 2 ^ 32) :
    (a + b).toNat = a.toNat + b.toNat := by
  rw [UInt32.toNat_add, Nat.mod_eq_of_lt h]

/-- The loop puts the timer in its place, unless all deadlines are past. -/
lemma deltas_sysTimeoutLoop (ht : t.time ≤ time)
    (hspan : time.toNat ≤ span (deltas (t :: l)) + msecs.toNat) :
    deltas (sysTimeoutLoop msecs first what time t l) =
      (t.time.toNat, t.what) :: insertDelta what (time.toNat - t.time.toNat) (deltas l) := by
  induction l generalizing time t with
  | nil =>
    have hsub : (time - t.time).toNat = time.toNat - t.time.toNat :=
      UInt32.toNat_sub_of_le time t.time ht
    have hle : ¬ msecs < time - t.time := by
      rw [UInt32.lt_iff_toNat_lt, hsub]
      simp only [deltas_cons, deltas_nil, span_cons, span_nil] at hspan
      omega
    rw [sysTimeoutLoop]
    simp only [if_neg hle, deltas_cons, deltas_nil, hsub]
    rfl
  | cons n l ih =>
    have hsub : (time - t.time).toNat = time.toNat - t.time.toNat :=
      UInt32.toNat_sub_of_le time t.time ht
    simp only [sysTimeoutLoop, deltas_cons, insertDelta, ← hsub]
    by_cases hlt : time - t.time < n.time
    · have hlt' : (time - t.time).toNat < n.time.toNat := UInt32.lt_iff_toNat_lt.mp hlt
      rw [if_pos hlt, if_pos hlt']
      simp only [deltas_cons]
      rw [UInt32.toNat_sub_of_le _ _ (UInt32.le_of_lt hlt)]
    · have hlt' : ¬ (time - t.time).toNat < n.time.toNat := by
        rwa [← UInt32.lt_iff_toNat_lt]
      rw [if_neg hlt, if_neg hlt', deltas_cons, ih (UInt32.not_lt.mp hlt)]
      simp only [deltas_cons, span_cons] at hspan ⊢
      have : t.time.toNat ≤ time.toNat := UInt32.le_iff_toNat_le.mp ht
      omega

/-- If all deadlines are past, the timer goes to the end, where it counts `first` milliseconds
more than were asked for. -/
lemma sysTimeoutLoop_overdue (ht : t.time ≤ time)
    (hspan : span (deltas (t :: l)) + msecs.toNat < time.toNat) :
    sysTimeoutLoop msecs first what time t l = t :: l ++ [⟨msecs + first, what⟩] := by
  induction l generalizing time t with
  | nil =>
    have hsub : (time - t.time).toNat = time.toNat - t.time.toNat :=
      UInt32.toNat_sub_of_le time t.time ht
    have hlt : msecs < time - t.time := by
      rw [UInt32.lt_iff_toNat_lt, hsub]
      simp only [deltas_cons, deltas_nil, span_cons, span_nil] at hspan
      omega
    simp only [sysTimeoutLoop]
    rw [if_pos hlt]
    rfl
  | cons n l ih =>
    have hsub : (time - t.time).toNat = time.toNat - t.time.toNat :=
      UInt32.toNat_sub_of_le time t.time ht
    simp only [deltas_cons, span_cons] at hspan
    have hlt : ¬ time - t.time < n.time := by
      rw [UInt32.lt_iff_toNat_lt, hsub]
      omega
    simp only [sysTimeoutLoop]
    rw [if_neg hlt, ih (UInt32.not_lt.mp hlt)]
    · rfl
    · simp only [deltas_cons, span_cons, hsub]
      omega

/-! ### Which timers are in the list -/

lemma map_what_sysTimeoutLoop :
    ((sysTimeoutLoop msecs first what time t l).map SysTimeo.what).Perm
      (what :: (t :: l).map SysTimeo.what) := by
  induction l generalizing time t with
  | nil => exact List.Perm.swap _ _ _
  | cons n l ih =>
    simp only [sysTimeoutLoop]
    split
    · exact List.Perm.swap _ _ _
    · exact (ih.cons t.what).trans (List.Perm.swap _ _ _)

/-- `sys_timeout` adds one timer, if the pool has an entry left. -/
lemma map_what_sysTimeout (hroom : s.next.length < mempNumSysTimeout) (now msecs : UInt32)
    (what : α) :
    ((sysTimeout now msecs what s).next.map SysTimeo.what).Perm
      (what :: s.next.map SysTimeo.what) := by
  rw [sysTimeout, if_neg (by omega)]
  cases hs : s.next with
  | nil => exact List.Perm.refl _
  | cons n l =>
    dsimp only
    split
    · exact List.Perm.refl _
    · exact map_what_sysTimeoutLoop

/-- `sys_untimeout` takes one timer out, if one matches. -/
lemma map_what_sysUntimeout (p : α → Bool) :
    (sysUntimeout p s).next.map SysTimeo.what = (s.next.map SysTimeo.what).eraseP p := by
  rw [sysUntimeout]
  induction s.next with
  | nil => rfl
  | cons t l ih =>
    rw [sysUntimeoutLoop, List.map_cons]
    by_cases hp : p t.what
    · rw [if_pos hp, List.eraseP_cons_of_pos hp]
      cases l <;> rfl
    · rw [if_neg hp, List.eraseP_cons_of_neg hp, List.map_cons, ih]

/-! ### What is done to the deadlines -/

/-- `sys_untimeout` leaves the other deadlines as they are. -/
lemma deadlines_sysUntimeout {p : α → Bool} (hspan : s.span < 2 ^ 32) :
    (sysUntimeout p s).deadlines base = (s.deadlines base).eraseP fun x => p x.2 := by
  have hloop : ∀ l : List (SysTimeo α), span (deltas l) < 2 ^ 32 →
      deltas (sysUntimeoutLoop p l) = removeDelta p (deltas l) := by
    intro l hl
    induction l with
    | nil => rfl
    | cons t l ih =>
      rw [deltas_cons, span_cons] at hl
      rw [sysUntimeoutLoop, deltas_cons, removeDelta]
      by_cases hp : p t.what
      · rw [if_pos hp, if_pos hp]
        cases l with
        | nil => rfl
        | cons n l =>
          rw [deltas_cons, span_cons] at hl
          rw [SysTimeo.carry, deltas_cons, deltas_cons, carryDelta,
            toNat_add_of_lt (by dsimp only at hl; omega)]
      · rw [if_neg hp, if_neg hp, deltas_cons, ih (by omega)]
  rw [Timeouts.deadlines, sysUntimeout, hloop s.next hspan, deadlines_removeDelta]
  rfl

section Place

variable (hroom : s.next.length < mempNumSysTimeout) (hlast : s.last = UInt32.ofNat base)
  (hbase : base ≤ now) (hmsecs : msecs.toNat + (now - base) < 2 ^ 32)

lemma sysTimeout_nil (hroom : s.next.length < mempNumSysTimeout) (hs : s.next = [])
    (now msecs : UInt32) : sysTimeout now msecs what s = ⟨[⟨msecs, what⟩], now⟩ := by
  rw [sysTimeout, if_neg (by omega), hs]
  simp

include hroom in
lemma sysTimeout_last (hs : s.next = n :: l) (now : UInt32) :
    (sysTimeout now msecs what s).last = s.last := by
  rw [sysTimeout, if_neg (by omega), hs]
  dsimp only
  split <;> rfl

include hlast hbase hmsecs in
/-- `timeout->time` before the list is searched. -/
lemma toNat_time : (msecs + (UInt32.ofNat now - s.last)).toNat = msecs.toNat + (now - base) := by
  have hdiff := toNat_sub_clock hbase (by omega)
  rw [hlast, toNat_add_of_lt (by omega), hdiff]

include hroom hlast hbase hmsecs

/-- In front of a list whose first time is larger: the others are put off. -/
lemma deadlines_sysTimeout_front (hs : s.next = n :: l) (hlt : msecs < n.time) :
    (sysTimeout (UInt32.ofNat now) msecs what s).deadlines base =
      (now + msecs.toNat, what) ::
        (s.deadlines base).map fun x => (x.1 + (now - base), x.2) := by
  have htime := toNat_time hlast hbase hmsecs
  have hlt' := UInt32.lt_iff_toNat_lt.mp hlt
  rw [sysTimeout, if_neg (by omega), Timeouts.deadlines, Timeouts.deadlines, hs]
  simp only [if_pos hlt, deltas_cons, deadlines_cons, htime, List.map_cons,
    UInt32.toNat_sub_of_le _ _ (UInt32.le_of_lt hlt)]
  have e₁ : base + (msecs.toNat + (now - base)) = now + msecs.toNat := by omega
  have e₂ : now + msecs.toNat + (n.time.toNat - msecs.toNat) =
      base + n.time.toNat + (now - base) := by omega
  rw [e₁, e₂, deadlines_add]

/-- In its place, if some deadline has not been reached. -/
lemma deadlines_sysTimeout_place (hs : s.next = n :: l) (hle : n.time ≤ msecs)
    (hspan : now ≤ base + s.span) :
    (sysTimeout (UInt32.ofNat now) msecs what s).deadlines base =
      ((s.deadlines base).takeWhile fun x => x.1 ≤ now + msecs.toNat) ++
        (now + msecs.toNat, what) ::
          (s.deadlines base).dropWhile fun x => x.1 ≤ now + msecs.toNat := by
  have htime := toNat_time hlast hbase hmsecs
  have hle' := UInt32.le_iff_toNat_le.mp hle
  rw [sysTimeout, if_neg (by omega), Timeouts.deadlines, Timeouts.deadlines, hs]
  simp only [Timeouts.span, hs, deltas_cons, span_cons] at hspan
  simp only [if_neg (UInt32.not_lt.mpr hle)]
  rw [deltas_sysTimeoutLoop (UInt32.le_iff_toNat_le.mpr (by omega))
    (by simp only [deltas_cons, span_cons]; omega), htime]
  -- the loop starts behind the first timer; so does `insertDelta`, which would pass it
  have hins : (n.time.toNat, n.what) ::
      insertDelta what (msecs.toNat + (now - base) - n.time.toNat) (deltas l) =
      insertDelta what (msecs.toNat + (now - base)) (deltas (n :: l)) := by
    rw [deltas_cons, insertDelta, if_neg (by omega)]
  have e : base + (msecs.toNat + (now - base)) = now + msecs.toNat := by omega
  rw [hins, deadlines_insertDelta, e]

/-- At the end, if all deadlines are past. -/
lemma deadlines_sysTimeout_overdue (hs : s.next = n :: l) (hle : n.time ≤ msecs)
    (hspan : base + s.span < now) :
    (sysTimeout (UInt32.ofNat now) msecs what s).deadlines base =
      s.deadlines base ++ [(base + s.span + (msecs.toNat + n.time.toNat), what)] := by
  have htime := toNat_time hlast hbase hmsecs
  have hle' := UInt32.le_iff_toNat_le.mp hle
  rw [sysTimeout, if_neg (by omega), Timeouts.deadlines, Timeouts.deadlines, Timeouts.span, hs]
  simp only [Timeouts.span, hs, deltas_cons, span_cons] at hspan
  simp only [if_neg (UInt32.not_lt.mpr hle)]
  rw [sysTimeoutLoop_overdue (UInt32.le_iff_toNat_le.mpr (by omega))
    (by simp only [deltas_cons, span_cons]; omega)]
  have happ : deltas (n :: l ++ [⟨msecs + n.time, what⟩]) =
      deltas (n :: l) ++ [((msecs + n.time).toNat, what)] := by
    simp [deltas]
  rw [happ, deadlines_append, toNat_add_of_lt (by omega)]
  rfl

end Place

/-- **Which deadline a timer gets.**  A call of `sys_timeout` for `msecs` milliseconds at the
time `now`, with a list that counts from `base`:
* into an empty list, the deadline is `now + msecs`;
* in front of a list whose first time is larger than `msecs`, it is `now + msecs` too, but
  every other timer is put off by the time that has passed since `base`;
* otherwise it is put in its place, with the deadline `now + msecs` and no other one changed, if
  some deadline of the list has not been reached yet;
* and if all deadlines are past, it comes after them, `msecs` and the first time after the last
  one, which may be before `now + msecs`. -/
theorem deadlines_sysTimeout (hroom : s.next.length < mempNumSysTimeout)
    (hlast : s.last = UInt32.ofNat base) (hbase : base ≤ now)
    (hmsecs : msecs.toNat + (now - base) < 2 ^ 32) :
    (s.next = [] →
      (sysTimeout (UInt32.ofNat now) msecs what s).last = UInt32.ofNat now ∧
      (sysTimeout (UInt32.ofNat now) msecs what s).deadlines now =
        [(now + msecs.toNat, what)]) ∧
    ∀ n l, s.next = n :: l →
      (sysTimeout (UInt32.ofNat now) msecs what s).last = s.last ∧
      (msecs < n.time →
        (sysTimeout (UInt32.ofNat now) msecs what s).deadlines base =
          (now + msecs.toNat, what) ::
            (s.deadlines base).map fun x => (x.1 + (now - base), x.2)) ∧
      (n.time ≤ msecs → now ≤ base + s.span →
        (sysTimeout (UInt32.ofNat now) msecs what s).deadlines base =
          ((s.deadlines base).takeWhile fun x => x.1 ≤ now + msecs.toNat) ++
            (now + msecs.toNat, what) ::
              (s.deadlines base).dropWhile fun x => x.1 ≤ now + msecs.toNat) ∧
      (n.time ≤ msecs → base + s.span < now →
        (sysTimeout (UInt32.ofNat now) msecs what s).deadlines base =
          s.deadlines base ++ [(base + s.span + (msecs.toNat + n.time.toNat), what)]) := by
  refine ⟨fun hs => ?_, fun n l hs => ⟨sysTimeout_last hroom hs _, fun hlt => ?_,
    fun hle hspan => ?_, fun hle hspan => ?_⟩⟩
  · rw [sysTimeout_nil hroom hs]
    exact ⟨rfl, rfl⟩
  · exact deadlines_sysTimeout_front hroom hlast hbase hmsecs hs hlt
  · exact deadlines_sysTimeout_place hroom hlast hbase hmsecs hs hle hspan
  · exact deadlines_sysTimeout_overdue hroom hlast hbase hmsecs hs hle hspan

/-- Two timers, 100 and 200 milliseconds from 1000 on; at 1040 one for 30 milliseconds comes in
front, and the other two are put off by 40. -/
theorem deadlines_sysTimeout_front_sample :
    (sysTimeout 1040 30 "c" ⟨[⟨100, "a"⟩, ⟨100, "b"⟩], 1000⟩).deadlines 1000 =
      [(1070, "c"), (1140, "a"), (1240, "b")] :=
  ((@deadlines_sysTimeout String "c" 1040 1000 30 ⟨[⟨100, "a"⟩, ⟨100, "b"⟩], 1000⟩
    (by decide) rfl (by decide) (by decide)).2 _ _ rfl).2.1 (by decide)

end Teensy41Ethernet.Lwip
