import Teensy41Ethernet.Lwip.Timeouts
import Teensy41Ethernet.Lib.Run
import Mathlib.Data.Fintype.Card

/-!
# The timers of the stack over a whole run

`sys_timeouts_init` starts the cyclic timers, each handler of which starts its timer again; the
timer of TCP runs only while there are connections (`tcp_timer_needed`, `tcpip_tcp_timer`); and
an application may have timers of its own, as the SNTP client and the TFTP server have.  The
program polls `sys_check_timeouts`, whose handlers may start and stop timers while its loop
runs.

* `timers_never_early`: no handler is called before its time, if no timer is set at a moment
  when the list is overdue as a whole, nothing overflows and no handler restarts the list.
* `check_leaves_none_due`: when `sys_check_timeouts` returns, no timer is left whose time had
  come when it was called.
* `stack_timers_kept`: without timers of the application, no timer of the stack is ever lost.
* `tcp_timer_never_starts`: with them, the timer of TCP may find the pool empty, and then it
  never runs again, however long the program goes on and whatever it does.
-/

namespace Teensy41Ethernet.Lwip

open Lib

/-- The handlers: of TCP, of `lwip_cyclic_timers` from its second entry on (reassembly, ARP,
DHCP coarse and fine, IGMP, DNS), and of the application. -/
inductive Timer where
  | tcp
  | cyclic (i : Fin 6)
  | app (n : ℕ)
deriving DecidableEq

/-- `TCP_TMR_INTERVAL`. -/
def tcpTmrInterval : UInt32 := 250

/-- The intervals of `lwip_cyclic_timers`. -/
def cyclicInterval : Fin 6 → UInt32
  | 0 => 1000
  | 1 => 1000
  | 2 => 60000
  | 3 => 500
  | 4 => 100
  | 5 => 1000

/-- The state of the timers and of the loop of `sys_check_timeouts`.  A timer carries the time
it was asked for. -/
structure TimerSys where
  q : Timeouts (Timer × ℕ)
  /-- The clock, which does not wrap around as `sys_now` does. -/
  now : ℕ
  /-- The time of which `timeouts_last_time` has the last 32 bits. -/
  base : ℕ
  /-- The variable `diff` while `sys_check_timeouts` runs. -/
  diff : Option UInt32
  /-- The handler that is being called. -/
  running : Option Timer
  /-- `tcpip_tcp_timer_active`. -/
  active : Bool
  /-- Whether there are PCBs, active or in the state TIME-WAIT. -/
  pcbs : Bool
  /-- The handlers that have been called: what they were asked for and when it happened. -/
  calls : List (Timer × ℕ × ℕ)

/-- What happens. -/
inductive TimerEv where
  /-- Time passes. -/
  | tick (d : ℕ)
  /-- `sys_check_timeouts` is called, with timers in the list. -/
  | check
  /-- A handler is called by it. -/
  | fire
  /-- The handler does what it does last. -/
  | finish
  /-- `sys_check_timeouts` returns. -/
  | done
  /-- `tcp_timer_needed` is called. -/
  | needed
  /-- A connection is opened, or the last one is closed. -/
  | pcbs (b : Bool)
  /-- The application calls `sys_timeout`. -/
  | set (msecs : UInt32) (n : ℕ)
  /-- The application calls `sys_untimeout`. -/
  | unset (n : ℕ)
  /-- `sys_restart_timeouts` is called. -/
  | restart
deriving DecidableEq

namespace TimerSys

/-- A call of `sys_timeout`. -/
def arm (s : TimerSys) (msecs : UInt32) (k : Timer) : TimerSys :=
  { s with
    q := sysTimeout (UInt32.ofNat s.now) msecs (k, s.now + msecs.toNat) s.q
    base := if s.q.next.isEmpty then s.now else s.base }

/-- The end of a handler: `cyclic_timer` starts its timer again, `tcpip_tcp_timer` if it is
still needed. -/
def finish (s : TimerSys) : Timer → TimerSys
  | .cyclic i => { s with running := none }.arm (cyclicInterval i) (.cyclic i)
  | .tcp =>
      if s.pcbs then { s with running := none }.arm tcpTmrInterval .tcp
      else { s with running := none, active := false }
  | .app _ => { s with running := none }

/-- One event. -/
def step (s : TimerSys) : TimerEv → Option TimerSys
  | .tick d => some { s with now := s.now + d }
  | .check =>
      if s.diff = none ∧ s.running = none ∧ s.q.next.isEmpty = false then
        some { s with diff := some (UInt32.ofNat s.now - s.q.last) }
      else none
  | .fire =>
      match s.diff, s.running with
      | some diff, none =>
          (sysCheckRound diff s.q).map fun r =>
            { s with
              q := r.2.2
              base := s.base + r.1.time.toNat
              diff := some r.2.1
              running := some r.1.what.1
              calls := (r.1.what.1, r.1.what.2, s.now) :: s.calls }
      | _, _ => none
  | .finish => s.running.map s.finish
  | .done =>
      match s.diff, s.running with
      | some diff, none =>
          if (sysCheckRound diff s.q).isNone then some { s with diff := none } else none
      | _, _ => none
  | .needed =>
      if s.active = false ∧ s.pcbs = true then
        some ({ s with active := true }.arm tcpTmrInterval .tcp)
      else some s
  | .pcbs b => some { s with pcbs := b }
  | .set msecs n => some (s.arm msecs (.app n))
  | .unset n => some { s with q := sysUntimeout (fun x => decide (x.1 = .app n)) s.q }
  | .restart => some { s with q := { s.q with last := UInt32.ofNat s.now }, base := s.now }

/-- `sys_timeouts_init`, at the time `now`. -/
def init (now : ℕ) : TimerSys :=
  let s : TimerSys := ⟨⟨[], 0⟩, now, 0, none, none, false, false, []⟩
  let s := (List.finRange 6).foldl (fun s i => s.arm (cyclicInterval i) (.cyclic i)) s
  { s with q := { s.q with last := UInt32.ofNat now }, base := now }

/-! ### No timer is early -/

/-- A moment at which a timer can be set and will not be early: the loop of
`sys_check_timeouts` does not run with an empty list, and the time since `base` is not more
than the times of the list and its first one together. -/
def CanArm (s : TimerSys) (msecs : UInt32) : Prop :=
  (s.q.next = [] → s.diff = none) ∧
    ∀ n ∈ s.q.next.head?,
      msecs.toNat + (s.now - s.base) < 2 ^ 32 ∧ s.now ≤ s.base + s.q.span + n.time.toNat

/-- The time for which an event sets a timer. -/
def arms (s : TimerSys) : TimerEv → Option UInt32
  | .finish =>
      match s.running with
      | some (.cyclic i) => some (cyclicInterval i)
      | some .tcp => if s.pcbs then some tcpTmrInterval else none
      | _ => none
  | .needed => if s.active = false ∧ s.pcbs = true then some tcpTmrInterval else none
  | .set msecs _ => some msecs
  | _ => none

/-- The clock does not wrap around between two calls of `sys_check_timeouts`, the list spans
less than that when a time in it is added to the next one, and the list is not restarted by a
handler. -/
def InRange (s : TimerSys) : TimerEv → Prop
  | .check => s.now - s.base < 2 ^ 32
  | .unset _ => s.q.span < 2 ^ 32
  | .restart => s.diff = none
  | _ => True

/-- The conditions under which no timer is early. -/
def Ok (s : TimerSys) (e : TimerEv) : Prop := (∀ m ∈ s.arms e, s.CanArm m) ∧ s.InRange e

instance (s : TimerSys) (msecs : UInt32) : Decidable (s.CanArm msecs) :=
  inferInstanceAs (Decidable (_ ∧ _))

instance (s : TimerSys) : ∀ e, Decidable (s.InRange e)
  | .check => inferInstanceAs (Decidable (s.now - s.base < 2 ^ 32))
  | .unset _ => inferInstanceAs (Decidable (s.q.span < 2 ^ 32))
  | .restart => inferInstanceAs (Decidable (s.diff = none))
  | .tick _ => inferInstanceAs (Decidable True)
  | .fire => inferInstanceAs (Decidable True)
  | .finish => inferInstanceAs (Decidable True)
  | .done => inferInstanceAs (Decidable True)
  | .needed => inferInstanceAs (Decidable True)
  | .pcbs _ => inferInstanceAs (Decidable True)
  | .set _ _ => inferInstanceAs (Decidable True)

instance (s : TimerSys) (e : TimerEv) : Decidable (s.Ok e) :=
  -- not by going through all values of `UInt32`
  have : Decidable (∀ m ∈ s.arms e, s.CanArm m) := Option.decidableForallMem (s.arms e)
  inferInstanceAs (Decidable (_ ∧ _))

/-- Every deadline of the list is one that was asked for, or later, and no handler was called
early. -/
structure Sound (s : TimerSys) : Prop where
  last_eq : s.q.last = UInt32.ofNat s.base
  base_le : s.base ≤ s.now
  diff_le : ∀ d ∈ s.diff, s.base + d.toNat ≤ s.now
  asked : ∀ x ∈ s.q.deadlines s.base, x.2.2 ≤ x.1
  calls : ∀ c ∈ s.calls, c.2.1 ≤ c.2.2

variable {s s' : TimerSys} {e : TimerEv} {es : List TimerEv} {m : UInt32} {k : Timer}

lemma arm_sound (hs : s.Sound) (hm : s.CanArm m) : (s.arm m k).Sound := by
  obtain ⟨hnil, hcons⟩ := hm
  by_cases hroom : s.q.next.length < mempNumSysTimeout
  · cases hq : s.q.next with
    | nil =>
      refine ⟨?_, ?_, ?_, ?_, hs.calls⟩ <;>
        simp only [arm, hq, List.isEmpty_nil, if_true, sysTimeout_nil hroom hq]
      · exact le_rfl
      · rw [hnil hq]
        simp
      · intro x hx
        obtain rfl : x = (s.now + m.toNat, k, s.now + m.toNat) := by
          simpa [Timeouts.deadlines, deltas, DeltaList.deadlines] using hx
        exact le_rfl
    | cons n l =>
      obtain ⟨hmsecs, hdue⟩ := hcons n (by rw [hq]; rfl)
      refine ⟨?_, ?_, ?_, ?_, hs.calls⟩ <;>
        simp only [arm, hq, List.isEmpty_cons, Bool.false_eq_true, if_false]
      · rw [sysTimeout_last hroom hq]
        exact hs.last_eq
      · exact hs.base_le
      · exact hs.diff_le
      · intro x hx
        by_cases hlt : m < n.time
        · rw [deadlines_sysTimeout_front hroom hs.last_eq hs.base_le hmsecs hq hlt] at hx
          rcases List.mem_cons.mp hx with rfl | hx
          · exact le_rfl
          · obtain ⟨y, hy, rfl⟩ := List.mem_map.mp hx
            exact (hs.asked y hy).trans (Nat.le_add_right _ _)
        · have hle := UInt32.not_lt.mp hlt
          by_cases hspan : s.now ≤ s.base + s.q.span
          · rw [deadlines_sysTimeout_place hroom hs.last_eq hs.base_le hmsecs hq hle hspan] at hx
            rcases List.mem_append.mp hx with hx | hx
            · exact hs.asked x ((List.takeWhile_prefix _).subset hx)
            · rcases List.mem_cons.mp hx with rfl | hx
              · exact le_rfl
              · exact hs.asked x ((List.dropWhile_suffix _).subset hx)
          · rw [deadlines_sysTimeout_overdue hroom hs.last_eq hs.base_le hmsecs hq hle
              (by omega)] at hx
            rcases List.mem_append.mp hx with hx | hx
            · exact hs.asked x hx
            · obtain rfl := List.mem_singleton.mp hx
              dsimp only
              omega
  · -- the pool is empty: nothing happens
    have hq : s.q.next.isEmpty = false := by
      cases hn : s.q.next with
      | nil => exact absurd (by rw [hn]; decide) hroom
      | cons n l => rfl
    have hfull : sysTimeout (UInt32.ofNat s.now) m (k, s.now + m.toNat) s.q = s.q := by
      rw [sysTimeout, if_pos (by omega)]
    have harm : s.arm m k = s := by
      simp only [arm, hq, Bool.false_eq_true, if_false, hfull]
    rw [harm]
    exact hs

lemma finish_sound (hs : s.Sound) (hk : s.running = some k)
    (hok : ∀ m ∈ s.arms .finish, s.CanArm m) : (s.finish k).Sound := by
  have hidle : { s with running := none }.Sound :=
    ⟨hs.last_eq, hs.base_le, hs.diff_le, hs.asked, hs.calls⟩
  cases k with
  | cyclic i => exact arm_sound hidle (hok _ (by rw [arms, hk]; rfl))
  | tcp =>
    rw [finish]
    split
    next hp => exact arm_sound hidle (hok _ (by rw [arms, hk]; simp [hp]))
    next => exact ⟨hs.last_eq, hs.base_le, hs.diff_le, hs.asked, hs.calls⟩
  | app n => exact hidle

/-- What `sysCheckRound` does. -/
lemma sysCheckRound_eq_some {diff : UInt32} {q : Timeouts (Timer × ℕ)}
    {r : SysTimeo (Timer × ℕ) × UInt32 × Timeouts (Timer × ℕ)}
    (h : sysCheckRound diff q = some r) :
    ∃ l, q.next = r.1 :: l ∧ r.1.time ≤ diff ∧ r.2.1 = diff - r.1.time ∧
      r.2.2 = ⟨l, q.last + r.1.time⟩ := by
  rw [sysCheckRound] at h
  cases hq : q.next with
  | nil =>
    rw [hq] at h
    cases h
  | cons t l =>
    rw [hq] at h
    dsimp only at h
    split at h
    next hle =>
      obtain rfl := Option.some.inj h
      exact ⟨l, rfl, hle, rfl, rfl⟩
    next => cases h

lemma fire_cases (h : s.step .fire = some s') :
    ∃ diff t l, s.diff = some diff ∧ s.running = none ∧ s.q.next = t :: l ∧ t.time ≤ diff ∧
      s' = { s with
        q := ⟨l, s.q.last + t.time⟩
        base := s.base + t.time.toNat
        diff := some (diff - t.time)
        running := some t.what.1
        calls := (t.what.1, t.what.2, s.now) :: s.calls } := by
  rw [step] at h
  split at h
  next diff hdiff hrun =>
    obtain ⟨r, hr, rfl⟩ := Option.map_eq_some_iff.mp h
    obtain ⟨l, hq, hle, h₁, h₂⟩ := sysCheckRound_eq_some hr
    exact ⟨diff, r.1, l, hdiff, hrun, hq, hle, by rw [h₁, h₂]⟩
  next => cases h

lemma fire_sound (hs : s.Sound) (h : s.step .fire = some s') : s'.Sound := by
  obtain ⟨diff, t, l, hdiff, -, hq, hle, rfl⟩ := fire_cases h
  have hle' := UInt32.le_iff_toNat_le.mp hle
  have hdl := hs.diff_le diff hdiff
  have hdead : s.q.deadlines s.base = (s.base + t.time.toNat, t.what) ::
      DeltaList.deadlines (s.base + t.time.toNat) (deltas l) := by
    rw [Timeouts.deadlines, hq, deltas_cons, DeltaList.deadlines_cons]
  refine ⟨?_, ?_, ?_, ?_, ?_⟩
  · dsimp only
    rw [hs.last_eq, UInt32.ofNat_add, UInt32.ofNat_toNat]
  · dsimp only
    omega
  · intro d hd
    obtain rfl := Option.some.inj hd
    dsimp only
    rw [UInt32.toNat_sub_of_le _ _ hle]
    omega
  · intro x hx
    exact hs.asked x (by rw [hdead]; exact List.mem_cons_of_mem _ hx)
  · intro c hc
    rcases List.mem_cons.mp hc with rfl | hc
    · have := hs.asked (s.base + t.time.toNat, t.what) (by rw [hdead]; exact List.mem_cons_self)
      dsimp only at this ⊢
      omega
    · exact hs.calls c hc

/-- **One event.** -/
lemma step_sound (hs : s.Sound) (hok : s.Ok e) (h : s.step e = some s') : s'.Sound := by
  obtain ⟨harm, hok⟩ := hok
  cases e with
  | tick d =>
    obtain rfl := Option.some.inj h
    refine ⟨hs.last_eq, hs.base_le.trans (Nat.le_add_right _ _), fun x hx => ?_, hs.asked, hs.calls⟩
    exact (hs.diff_le x hx).trans (Nat.le_add_right _ _)
  | check =>
    rw [step] at h
    split at h
    next =>
      obtain rfl := Option.some.inj h
      refine ⟨hs.last_eq, hs.base_le, fun d hd => ?_, hs.asked, hs.calls⟩
      obtain rfl := Option.some.inj hd
      dsimp only
      rw [hs.last_eq, toNat_sub_clock hs.base_le hok]
      have := hs.base_le
      omega
    next => cases h
  | fire => exact fire_sound hs h
  | finish =>
    obtain ⟨k, hk, rfl⟩ := Option.map_eq_some_iff.mp h
    exact finish_sound hs hk harm
  | done =>
    rw [step] at h
    split at h
    next =>
      split at h
      next =>
        obtain rfl := Option.some.inj h
        exact ⟨hs.last_eq, hs.base_le, fun d hd => (by cases hd), hs.asked, hs.calls⟩
      next => cases h
    next => cases h
  | needed =>
    rw [step] at h
    split at h
    next hp =>
      obtain rfl := Option.some.inj h
      refine arm_sound ⟨hs.last_eq, hs.base_le, hs.diff_le, hs.asked, hs.calls⟩ (harm _ ?_)
      rw [arms, if_pos hp]
      rfl
    next =>
      obtain rfl := Option.some.inj h
      exact hs
  | pcbs b =>
    obtain rfl := Option.some.inj h
    exact ⟨hs.last_eq, hs.base_le, hs.diff_le, hs.asked, hs.calls⟩
  | set msecs n =>
    obtain rfl := Option.some.inj h
    exact arm_sound hs (harm msecs rfl)
  | unset n =>
    obtain rfl := Option.some.inj h
    refine ⟨hs.last_eq, hs.base_le, hs.diff_le, fun x hx => ?_, hs.calls⟩
    dsimp only at hx
    rw [deadlines_sysUntimeout hok] at hx
    exact hs.asked x (List.mem_of_mem_eraseP hx)
  | restart =>
    obtain rfl := Option.some.inj h
    refine ⟨rfl, le_rfl, fun d hd => ?_, fun x hx => ?_, hs.calls⟩
    · dsimp only at hd
      rw [hok] at hd
      cases hd
    · -- the deadlines move with the start of the list
      have hsum : s.now = s.base + (s.now - s.base) := (Nat.add_sub_cancel' hs.base_le).symm
      change x ∈ DeltaList.deadlines s.now (deltas s.q.next) at hx
      rw [hsum, DeltaList.deadlines_add] at hx
      obtain ⟨y, hy, rfl⟩ := List.mem_map.mp hx
      exact (hs.asked y hy).trans (Nat.le_add_right _ _)

/-- While the cyclic timers are started no time passes. -/
lemma init_sound (now : ℕ) : (init now).Sound := by
  have hfold : ∀ (l : List (Fin 6)) (s : TimerSys), s.Sound → s.diff = none → s.now = now →
      (s.q.next = [] ∨ s.base = now) →
      ∃ s', l.foldl (fun s i => s.arm (cyclicInterval i) (.cyclic i)) s = s' ∧ s'.Sound ∧
        s'.diff = none ∧ s'.now = now := by
    intro l
    induction l with
    | nil => exact fun s hs hd hn _ => ⟨s, rfl, hs, hd, hn⟩
    | cons i l ih =>
      intro s hs hd hn hb
      refine ih (s.arm (cyclicInterval i) (.cyclic i)) (arm_sound hs ⟨fun _ => hd, ?_⟩) hd hn ?_
      · intro n hq
        have hbase : s.base = now := hb.resolve_left fun h => by simp [h] at hq
        have := (cyclicInterval i).toNat_lt
        omega
      · refine Or.inr ?_
        simp only [arm]
        split
        next => exact hn
        next hq =>
          refine hb.resolve_left ?_
          rintro hnil
          rw [hnil] at hq
          exact hq rfl
  obtain ⟨s', hs', hsound, hdiff, hnow⟩ := hfold (List.finRange 6)
    ⟨⟨[], 0⟩, now, 0, none, none, false, false, []⟩
    ⟨rfl, Nat.zero_le _, fun d hd => (by cases hd), by simp [Timeouts.deadlines], by simp⟩
    rfl rfl (Or.inl rfl)
  have hstep : s'.step .restart = some (init now) := by
    simp only [step, init, hs', hnow]
  have hok : s'.Ok .restart := ⟨fun m hm => (by cases hm), hdiff⟩
  exact step_sound hsound hok hstep

/-- **No timer is early.**  In every run from `sys_timeouts_init` on, in which timers are set
only when some deadline of the list is not too far back, the clock and the times of the list do
not overflow 32 bits, and no handler restarts the list, a handler is called at the time it was
asked for or later, whatever other timers are set, stopped and called in between. -/
theorem timers_never_early {now : ℕ} (hok : Admits step Ok (init now) es)
    (hrun : exec step (init now) es = some s) : ∀ c ∈ s.calls, c.2.1 ≤ c.2.2 :=
  (exec_inv_of_admits (fun _ _ _ hs hok h => step_sound hs hok h) (init_sound now) hok hrun).calls

theorem timers_never_early_sample :
    ∃ s, exec step (init 0) [.tick 600, .check, .fire, .finish, .done] = some s ∧
      s.calls = [(.cyclic 4, 100, 600)] ∧ ∀ c ∈ s.calls, c.2.1 ≤ c.2.2 := by
  obtain ⟨s, hrun⟩ : ∃ s, exec step (init 0) [.tick 600, .check, .fire, .finish, .done] = some s :=
    ⟨_, rfl⟩
  have hcalls : s.calls = [(.cyclic 4, 100, 600)] := by
    cases hrun
    rfl
  exact ⟨s, hrun, hcalls, timers_never_early (by decide +kernel) hrun⟩

/-! ### No timer is left -/

/-- `sys_check_timeouts` runs and looks for timers at least up to the time `b`, which has come. -/
def ChecksUpTo (b : ℕ) (s : TimerSys) : Prop :=
  b ≤ s.now ∧ ∃ d, s.diff = some d ∧ b ≤ s.base + d.toNat

/-- A timer that is set in the empty list makes it start later. -/
lemma arm_checksUpTo {b : ℕ} (hs : s.ChecksUpTo b) : (s.arm m k).ChecksUpTo b := by
  obtain ⟨hnow, d, hd, hb⟩ := hs
  refine ⟨hnow, d, hd, ?_⟩
  simp only [arm]
  split
  · exact hnow.trans (Nat.le_add_right _ _)
  · exact hb

lemma finish_checksUpTo {b : ℕ} (hs : s.ChecksUpTo b) (k : Timer) :
    (s.finish k).ChecksUpTo b := by
  have hidle : { s with running := none }.ChecksUpTo b := hs
  cases k with
  | cyclic i => exact arm_checksUpTo hidle
  | tcp =>
    rw [finish]
    split
    · exact arm_checksUpTo hidle
    · exact hs
  | app n => exact hs

lemma step_checksUpTo {b : ℕ} (hs : s.ChecksUpTo b) (he : e ≠ .done) (h : s.step e = some s') :
    s'.ChecksUpTo b := by
  obtain ⟨hnow, d, hd, hb⟩ := id hs
  cases e with
  | tick d' =>
    obtain rfl := Option.some.inj h
    exact ⟨hnow.trans (Nat.le_add_right _ _), d, hd, hb⟩
  | check =>
    rw [step, if_neg (by simp [hd])] at h
    cases h
  | fire =>
    obtain ⟨diff, t, l, hdiff, -, -, hle, rfl⟩ := fire_cases h
    obtain rfl : d = diff := Option.some.inj (hd.symm.trans hdiff)
    refine ⟨hnow, d - t.time, rfl, ?_⟩
    have hle' := UInt32.le_iff_toNat_le.mp hle
    dsimp only
    rw [UInt32.toNat_sub_of_le _ _ hle]
    omega
  | finish =>
    obtain ⟨k, -, rfl⟩ := Option.map_eq_some_iff.mp h
    exact finish_checksUpTo hs k
  | done => exact absurd rfl he
  | needed =>
    rw [step] at h
    split at h
    · obtain rfl := Option.some.inj h
      exact arm_checksUpTo (s := { s with active := true }) hs
    · obtain rfl := Option.some.inj h
      exact hs
  | pcbs b =>
    obtain rfl := Option.some.inj h
    exact hs
  | set msecs n =>
    obtain rfl := Option.some.inj h
    exact arm_checksUpTo hs
  | unset n =>
    obtain rfl := Option.some.inj h
    exact hs
  | restart =>
    obtain rfl := Option.some.inj h
    exact ⟨hnow, d, hd, hnow.trans (Nat.le_add_right _ _)⟩

/-- **No timer is left.**  A call of `sys_check_timeouts` after such a run: its handlers may set
and stop timers as they like, and take any time.  When it returns, every timer in the list has a
deadline after the time of the call. -/
theorem check_leaves_none_due {now : ℕ} {s₁ s₂ t : TimerSys} {es' : List TimerEv}
    (hok : Admits step Ok (init now) es) (hrun : exec step (init now) es = some s)
    (hcheck : s.Ok .check) (hs₁ : s.step .check = some s₁) (hes' : ∀ e ∈ es', e ≠ .done)
    (hrun' : exec step s₁ es' = some s₂) (hdone : s₂.step .done = some t) :
    ∀ x ∈ t.q.deadlines t.base, s.now < x.1 := by
  have hs := exec_inv_of_admits (fun _ _ _ hs hok h => step_sound hs hok h) (init_sound now)
    hok hrun
  have hstart : s₁.ChecksUpTo s.now := by
    rw [step] at hs₁
    split at hs₁
    next =>
      obtain rfl := Option.some.inj hs₁
      refine ⟨le_rfl, _, rfl, ?_⟩
      dsimp only
      rw [hs.last_eq, toNat_sub_clock hs.base_le hcheck.2, Nat.add_sub_cancel' hs.base_le]
    next => cases hs₁
  have hadmits : Admits step (fun _ e => e ≠ .done) s₁ es' :=
    admits_of_forall fun e he _ => hes' e he
  obtain ⟨-, d, hd, hb⟩ :=
    exec_inv_of_admits (fun _ _ _ hs he h => step_checksUpTo hs he h) hstart hadmits hrun'
  rw [step] at hdone
  split at hdone
  next diff hdiff _ =>
    obtain rfl : d = diff := Option.some.inj (hd.symm.trans hdiff)
    split at hdone
    next hnone =>
      obtain rfl := Option.some.inj hdone
      intro x hx
      change x ∈ DeltaList.deadlines s₂.base (deltas s₂.q.next) at hx
      -- the first timer is later than `diff`, so all are
      cases hq : s₂.q.next with
      | nil =>
        rw [hq] at hx
        exact absurd hx List.not_mem_nil
      | cons n l =>
        have hlt : d.toNat < n.time.toNat := by
          rw [← UInt32.lt_iff_toNat_lt, ← UInt32.not_le]
          intro hle
          rw [sysCheckRound, hq] at hnone
          simp [hle] at hnone
        rw [hq, deltas_cons, DeltaList.deadlines_cons] at hx
        have : s₂.base + n.time.toNat ≤ x.1 := by
          rcases List.mem_cons.mp hx with rfl | hx
          · exact le_rfl
          · exact DeltaList.le_of_mem_deadlines hx
        omega
    next => cases hdone
  next => cases hdone

theorem check_leaves_none_due_sample :
    ∃ s s₁ s₂ t, exec step (init 0) [.tick 600] = some s ∧ s.step .check = some s₁ ∧
      exec step s₁ [.fire, .tick 30, .finish] = some s₂ ∧ s₂.step .done = some t ∧
      ∀ x ∈ t.q.deadlines t.base, s.now < x.1 := by
  obtain ⟨s, hrun⟩ : ∃ s, exec step (init 0) [.tick 600] = some s := ⟨_, rfl⟩
  obtain ⟨s₁, hs₁⟩ : ∃ s₁, s.step .check = some s₁ := by
    cases hrun
    exact ⟨_, rfl⟩
  obtain ⟨s₂, hs₂⟩ : ∃ s₂, exec step s₁ [.fire, .tick 30, .finish] = some s₂ := by
    cases hrun
    cases hs₁
    exact ⟨_, rfl⟩
  obtain ⟨t, ht⟩ : ∃ t, s₂.step .done = some t := by
    cases hrun
    cases hs₁
    cases hs₂
    exact ⟨_, rfl⟩
  have hcheck : s.Ok .check := by
    cases hrun
    decide +kernel
  exact ⟨s, s₁, s₂, t, hrun, hs₁, hs₂, ht,
    check_leaves_none_due (by decide +kernel) hrun hcheck hs₁ (by decide) hs₂ ht⟩

/-! ### No timer is lost -/

/-- The timers in the list. -/
def armed (s : TimerSys) : List Timer := s.q.next.map fun t => t.what.1

lemma armed_arm (hroom : s.q.next.length < mempNumSysTimeout) :
    (s.arm m k).armed.Perm (k :: s.armed) := by
  have := (map_what_sysTimeout hroom (UInt32.ofNat s.now) m (k, s.now + m.toNat)).map Prod.fst
  rw [List.map_map, List.map_cons, List.map_map] at this
  exact this

lemma armed_arm_of_full (hfull : mempNumSysTimeout ≤ s.q.next.length) :
    (s.arm m k).armed = s.armed := by
  simp only [armed, arm, sysTimeout, if_pos hfull]

/-- The timers of the stack itself. -/
def stackTimers : Finset Timer := insert .tcp (Finset.univ.image Timer.cyclic)

lemma card_stackTimers : stackTimers.card = mempNumSysTimeout := by decide

/-- Each cyclic timer is in the list or its handler is running, and the timer of TCP is if
`tcpip_tcp_timer_active` says so; none is in the list twice, and there are no others. -/
structure Kept (s : TimerSys) : Prop where
  nodup : s.armed.Nodup
  stack : ∀ k ∈ s.armed, k ∈ stackTimers
  cyclic : ∀ i, .cyclic i ∈ s.armed ↔ s.running ≠ some (.cyclic i)
  tcp : .tcp ∈ s.armed ↔ s.active = true ∧ s.running ≠ some .tcp
  running : s.running = some .tcp → s.active = true

/-- The pool has an entry for a timer that is not in the list. -/
lemma Kept.room (hs : s.Kept) (hk : k ∈ stackTimers) (hk' : k ∉ s.armed) :
    s.q.next.length < mempNumSysTimeout := by
  have hsub : s.armed.toFinset ⊂ stackTimers := by
    refine (Finset.ssubset_iff_of_subset fun x hx => hs.stack x (List.mem_toFinset.mp hx)).mpr ?_
    exact ⟨k, hk, fun h => hk' (List.mem_toFinset.mp h)⟩
  have := Finset.card_lt_card hsub
  rwa [List.toFinset_card_of_nodup hs.nodup, card_stackTimers, armed, List.length_map] at this

/-- An event that is not a call by the application. -/
def FromStack : TimerEv → Prop
  | .set _ _ => False
  | .unset _ => False
  | _ => True

lemma cyclic_mem_stackTimers (i : Fin 6) : .cyclic i ∈ stackTimers := by simp [stackTimers]

lemma tcp_mem_stackTimers : .tcp ∈ stackTimers := by simp [stackTimers]

/-- The end of a handler puts its timer back. -/
lemma finish_kept (hs : s.Kept) (hk : s.running = some k) : (s.finish k).Kept := by
  cases k with
  | cyclic i =>
    have hnot : .cyclic i ∉ s.armed := fun h => (hs.cyclic i).mp h hk
    have hperm := armed_arm (s := { s with running := none }) (m := cyclicInterval i)
      (k := .cyclic i) (hs.room (cyclic_mem_stackTimers i) hnot)
    refine ⟨?_, fun k hk' => ?_, fun j => ?_, ?_, fun h => by cases h⟩
    · exact hperm.nodup_iff.mpr (List.nodup_cons.mpr ⟨hnot, hs.nodup⟩)
    · rcases List.mem_cons.mp (hperm.mem_iff.mp hk') with rfl | h
      · exact cyclic_mem_stackTimers i
      · exact hs.stack k h
    · refine iff_of_true (hperm.mem_iff.mpr ?_) (by simp [finish, arm])
      by_cases hj : j = i
      · exact List.mem_cons.mpr (Or.inl (by rw [hj]))
      · refine List.mem_cons_of_mem _ ((hs.cyclic j).mpr ?_)
        rw [hk]
        simpa using Ne.symm hj
    · have h : .tcp ∈ s.armed ↔ s.active = true := by simpa [hk] using hs.tcp
      refine hperm.mem_iff.trans ?_
      simpa [finish, arm, armed] using h
  | tcp =>
    have hnot : .tcp ∉ s.armed := fun h => (hs.tcp.mp h).2 hk
    have hcyc : ∀ i, .cyclic i ∈ s.armed := fun i => (hs.cyclic i).mpr (by simp [hk])
    rw [finish]
    split
    · have hperm := armed_arm (s := { s with running := none }) (m := tcpTmrInterval)
        (k := .tcp) (hs.room tcp_mem_stackTimers hnot)
      refine ⟨?_, fun k hk' => ?_, fun j => ?_, ?_, fun h => by cases h⟩
      · exact hperm.nodup_iff.mpr (List.nodup_cons.mpr ⟨hnot, hs.nodup⟩)
      · rcases List.mem_cons.mp (hperm.mem_iff.mp hk') with rfl | h
        · exact tcp_mem_stackTimers
        · exact hs.stack k h
      · exact iff_of_true (hperm.mem_iff.mpr (List.mem_cons_of_mem _ (hcyc j))) (by simp [arm])
      · exact iff_of_true (hperm.mem_iff.mpr List.mem_cons_self)
          ⟨hs.running hk, by simp [arm]⟩
    · exact ⟨hs.nodup, hs.stack, fun j => iff_of_true (hcyc j) (by simp),
        iff_of_false hnot (by simp), fun h => by cases h⟩
  | app n =>
    refine ⟨hs.nodup, hs.stack, fun j => ?_, ?_, fun h => by cases h⟩
    · exact iff_of_true ((hs.cyclic j).mpr (by simp [hk])) (by simp [finish])
    · have h := hs.tcp
      rw [hk] at h
      simpa [finish, armed] using h

lemma step_kept (hs : s.Kept) (he : FromStack e) (h : s.step e = some s') : s'.Kept := by
  cases e with
  | tick d =>
    obtain rfl := Option.some.inj h
    exact ⟨hs.nodup, hs.stack, hs.cyclic, hs.tcp, hs.running⟩
  | check =>
    rw [step] at h
    split at h
    next =>
      obtain rfl := Option.some.inj h
      exact ⟨hs.nodup, hs.stack, hs.cyclic, hs.tcp, hs.running⟩
    next => cases h
  | fire =>
    obtain ⟨diff, t, l, -, hrun, hq, -, rfl⟩ := fire_cases h
    have harmed : s.armed = t.what.1 :: l.map fun t => t.what.1 := by rw [armed, hq]; rfl
    have hnd := hs.nodup
    rw [harmed, List.nodup_cons] at hnd
    have hcyc := hs.cyclic
    have htcp := hs.tcp
    simp only [harmed, hrun, List.mem_cons, ne_eq, reduceCtorEq, not_false_eq_true, iff_true,
      and_true] at hcyc htcp
    refine ⟨hnd.2, fun k hk => hs.stack k (by rw [harmed]; exact List.mem_cons_of_mem _ hk),
      fun i => ?_, ?_, fun hr => ?_⟩
    · refine ⟨fun hi hr => hnd.1 ?_, fun hr => (hcyc i).resolve_left fun hi => hr (by rw [hi])⟩
      rw [Option.some.inj hr]
      exact hi
    · refine ⟨fun hi => ⟨htcp.mp (Or.inr hi), fun hr => hnd.1 ?_⟩, fun hr =>
        (htcp.mpr hr.1).resolve_left fun hi => hr.2 (by rw [hi])⟩
      rw [Option.some.inj hr]
      exact hi
    · exact htcp.mp (Or.inl (Option.some.inj hr).symm)
  | finish =>
    obtain ⟨k, hk, rfl⟩ := Option.map_eq_some_iff.mp h
    exact finish_kept hs hk
  | done =>
    rw [step] at h
    split at h
    next =>
      split at h
      next =>
        obtain rfl := Option.some.inj h
        exact ⟨hs.nodup, hs.stack, hs.cyclic, hs.tcp, hs.running⟩
      next => cases h
    next => cases h
  | needed =>
    rw [step] at h
    split at h
    next hp =>
      obtain rfl := Option.some.inj h
      have hnot : .tcp ∉ s.armed := fun h => by
        have := (hs.tcp.mp h).1
        rw [hp.1] at this
        cases this
      have hrun : s.running ≠ some .tcp := fun hr => by
        have := hs.running hr
        rw [hp.1] at this
        cases this
      have hperm := armed_arm (s := { s with active := true }) (m := tcpTmrInterval) (k := .tcp)
        (hs.room tcp_mem_stackTimers hnot)
      refine ⟨?_, fun k hk' => ?_, fun j => ?_, ?_, fun _ => rfl⟩
      · exact hperm.nodup_iff.mpr (List.nodup_cons.mpr ⟨hnot, hs.nodup⟩)
      · rcases List.mem_cons.mp (hperm.mem_iff.mp hk') with rfl | h
        · exact tcp_mem_stackTimers
        · exact hs.stack k h
      · refine Iff.trans hperm.mem_iff (Iff.trans ?_ (hs.cyclic j))
        simp [armed]
      · exact iff_of_true (hperm.mem_iff.mpr List.mem_cons_self) ⟨rfl, hrun⟩
    next =>
      obtain rfl := Option.some.inj h
      exact hs
  | pcbs b =>
    obtain rfl := Option.some.inj h
    exact ⟨hs.nodup, hs.stack, hs.cyclic, hs.tcp, hs.running⟩
  | set msecs n => exact he.elim
  | unset n => exact he.elim
  | restart =>
    obtain rfl := Option.some.inj h
    exact ⟨hs.nodup, hs.stack, hs.cyclic, hs.tcp, hs.running⟩

lemma init_kept (now : ℕ) : (init now).Kept := by
  have hfold : ∀ (l : List (Fin 6)) (s : TimerSys), s.running = none → s.active = false →
      s.armed.length + l.length ≤ mempNumSysTimeout →
      ∃ s', l.foldl (fun s i => s.arm (cyclicInterval i) (.cyclic i)) s = s' ∧
        s'.running = none ∧ s'.active = false ∧
        s'.armed.Perm (l.map Timer.cyclic ++ s.armed) := by
    intro l
    induction l with
    | nil => exact fun s hr ha _ => ⟨s, rfl, hr, ha, List.Perm.refl _⟩
    | cons i l ih =>
      intro s hr ha hlen
      rw [List.length_cons] at hlen
      have hroom : s.q.next.length < mempNumSysTimeout := by
        rw [armed, List.length_map] at hlen
        omega
      have hperm := armed_arm (m := cyclicInterval i) (k := .cyclic i) hroom
      have hlen' := hperm.length_eq
      rw [List.length_cons] at hlen'
      obtain ⟨s', hs', hr', ha', hp'⟩ := ih (s.arm (cyclicInterval i) (.cyclic i)) hr ha (by omega)
      refine ⟨s', hs', hr', ha', hp'.trans ?_⟩
      exact (List.Perm.append_left _ hperm).trans List.perm_middle
  obtain ⟨s', hs', hr, ha, hp⟩ := hfold (List.finRange 6)
    ⟨⟨[], 0⟩, now, 0, none, none, false, false, []⟩ rfl rfl (by simp [armed, mempNumSysTimeout])
  have harmed : (init now).armed.Perm ((List.finRange 6).map Timer.cyclic) := by
    have : (init now).armed = s'.armed := by rw [init, hs']; rfl
    rw [this]
    simpa [armed] using hp
  have hrun : (init now).running = none := by rw [init, hs', ← hr]
  have hact : (init now).active = false := by rw [init, hs', ← ha]
  refine ⟨?_, fun k hk => ?_, fun i => ?_, ?_, fun h => ?_⟩
  · refine harmed.nodup_iff.mpr ((List.nodup_map_iff ?_).mpr (List.nodup_finRange 6))
    exact fun i j hij => Timer.cyclic.inj hij
  · obtain ⟨i, -, rfl⟩ := List.mem_map.mp (harmed.mem_iff.mp hk)
    exact cyclic_mem_stackTimers i
  · refine iff_of_true (harmed.mem_iff.mpr (List.mem_map_of_mem (List.mem_finRange i))) ?_
    simp [hrun]
  · refine iff_of_false (fun h => ?_) (by simp [hact])
    obtain ⟨i, -, hi⟩ := List.mem_map.mp (harmed.mem_iff.mp h)
    cases hi
  · rw [hrun] at h
    cases h

/-- How often the timer of TCP is in the list or its handler running. -/
def tcpLive (s : TimerSys) : ℕ :=
  s.armed.count .tcp + if s.running = some .tcp then 1 else 0

lemma Kept.tcpLive_eq (hs : s.Kept) : s.tcpLive = if s.active then 1 else 0 := by
  rw [tcpLive]
  by_cases hr : s.running = some .tcp
  · rw [if_pos hr, if_pos (hs.running hr),
      List.count_eq_zero_of_not_mem fun h => (hs.tcp.mp h).2 hr]
  · rw [if_neg hr]
    by_cases ha : s.active = true
    · rw [if_pos ha, List.count_eq_one_of_mem hs.nodup (hs.tcp.mpr ⟨ha, hr⟩)]
    · rw [if_neg ha, List.count_eq_zero_of_not_mem fun h => ha (hs.tcp.mp h).1]

/-- **No timer is lost.**  In every run in which only the stack has timers, each of the six
cyclic timers is in the list exactly once, except while its handler is running, and so is the
timer of TCP as long as `tcpip_tcp_timer_active` is set; the pool always has an entry for the
timer that is set. -/
theorem stack_timers_kept {now : ℕ} (he : ∀ e ∈ es, FromStack e)
    (hrun : exec step (init now) es = some s) :
    (∀ i, s.armed.count (.cyclic i) + (if s.running = some (.cyclic i) then 1 else 0) = 1) ∧
      s.armed.count .tcp + (if s.running = some .tcp then 1 else 0) =
        if s.active then 1 else 0 := by
  have hs : s.Kept := exec_inv_of_admits
    (fun _ _ _ hs he h => step_kept hs he h) (init_kept now)
    (admits_of_forall fun e h _ => he e h) hrun
  refine ⟨fun i => ?_, hs.tcpLive_eq⟩
  by_cases hi : s.running = some (.cyclic i)
  · rw [if_pos hi, List.count_eq_zero_of_not_mem fun h => (hs.cyclic i).mp h hi]
  · rw [if_neg hi, List.count_eq_one_of_mem hs.nodup ((hs.cyclic i).mpr hi)]

theorem stack_timers_kept_sample :
    ∃ s, exec step (init 0) [.pcbs true, .needed, .tick 300, .check, .fire, .finish, .done] =
        some s ∧
      (∀ i, s.armed.count (.cyclic i) + (if s.running = some (.cyclic i) then 1 else 0) = 1) ∧
      s.armed.count .tcp + (if s.running = some .tcp then 1 else 0) =
        if s.active then 1 else 0 := by
  obtain ⟨s, hrun⟩ : ∃ s, exec step (init 0)
    [.pcbs true, .needed, .tick 300, .check, .fire, .finish, .done] = some s := ⟨_, rfl⟩
  exact ⟨s, hrun, stack_timers_kept (by simp [FromStack]) hrun⟩

/-! ### A timer that cannot be started -/

/-- `sys_timeout` adds the timer or does nothing. -/
lemma count_arm_le (j : Timer) :
    (s.arm m k).armed.count j ≤ s.armed.count j + if k = j then 1 else 0 := by
  by_cases hroom : s.q.next.length < mempNumSysTimeout
  · rw [(armed_arm hroom).count_eq, List.count_cons]
    simp
  · rw [armed_arm_of_full (by omega)]
    exact Nat.le_add_right _ _

lemma finish_running : (s.finish k).running = none := by
  cases k with
  | tcp =>
    rw [finish]
    split <;> rfl
  | _ => rfl

lemma finish_calls : (s.finish k).calls = s.calls := by
  cases k with
  | tcp =>
    rw [finish]
    split <;> rfl
  | _ => rfl

/-- The end of a handler: that of TCP puts its timer back, or gives it up. -/
lemma finish_tcpLive (hk : s.running = some k) :
    ((s.finish k).tcpLive ≤ s.tcpLive ∧ (s.finish k).active = s.active) ∨
      ((s.finish k).tcpLive + 1 ≤ s.tcpLive ∧ (s.finish k).active = false) := by
  rw [tcpLive, tcpLive, finish_running, hk, if_neg (by simp)]
  cases k with
  | cyclic i =>
    have := count_arm_le (s := { s with running := none }) (m := cyclicInterval i)
      (k := .cyclic i) .tcp
    rw [if_neg (by simp)] at this ⊢
    exact Or.inl ⟨this, rfl⟩
  | tcp =>
    rw [if_pos rfl, finish]
    by_cases hp : s.pcbs = true
    · have := count_arm_le (s := { s with running := none }) (m := tcpTmrInterval) (k := .tcp) .tcp
      rw [if_pos rfl] at this
      rw [if_pos hp]
      exact Or.inl ⟨this, rfl⟩
    · rw [if_neg hp]
      exact Or.inr ⟨le_rfl, rfl⟩
  | app n => exact Or.inl ⟨by simp [finish, armed], rfl⟩

/-- What an event does to the timer of TCP: only `tcp_timer_needed` makes it active, only the
end of its handler inactive, and nothing else adds to it. -/
lemma step_tcpLive (h : s.step e = some s') :
    (s'.tcpLive ≤ s.tcpLive ∧ s'.active = s.active) ∨
      (s'.tcpLive + 1 ≤ s.tcpLive ∧ s'.active = false) ∨
      (s'.tcpLive ≤ s.tcpLive + 1 ∧ s.active = false ∧ s'.active = true) := by
  cases e with
  | check =>
    rw [step] at h
    split at h
    next =>
      obtain rfl := Option.some.inj h
      exact Or.inl ⟨le_rfl, rfl⟩
    next => cases h
  | fire =>
    obtain ⟨diff, t, l, -, hrun, hq, -, rfl⟩ := fire_cases h
    refine Or.inl ⟨?_, rfl⟩
    simp only [tcpLive, armed, hq, hrun, List.map_cons, List.count_cons, Option.some.injEq,
      beq_iff_eq]
    omega
  | finish =>
    obtain ⟨k, hk, rfl⟩ := Option.map_eq_some_iff.mp h
    rcases finish_tcpLive hk with h | h
    · exact Or.inl h
    · exact Or.inr (Or.inl h)
  | done =>
    rw [step] at h
    split at h
    next =>
      split at h
      next =>
        obtain rfl := Option.some.inj h
        exact Or.inl ⟨le_rfl, rfl⟩
      next => cases h
    next => cases h
  | needed =>
    rw [step] at h
    split at h
    next hp =>
      obtain rfl := Option.some.inj h
      refine Or.inr (Or.inr ⟨?_, hp.1, rfl⟩)
      have := count_arm_le (s := { s with active := true }) (m := tcpTmrInterval) (k := .tcp) .tcp
      rw [if_pos rfl] at this
      change _ + (if s.running = some .tcp then 1 else 0) ≤
        s.armed.count .tcp + (if s.running = some .tcp then 1 else 0) + 1
      change _ ≤ s.armed.count .tcp + 1 at this
      omega
    next =>
      obtain rfl := Option.some.inj h
      exact Or.inl ⟨le_rfl, rfl⟩
  | set msecs n =>
    obtain rfl := Option.some.inj h
    refine Or.inl ⟨?_, rfl⟩
    have := count_arm_le (s := s) (m := msecs) (k := .app n) .tcp
    rw [if_neg (by simp)] at this
    exact Nat.add_le_add_right this _
  | unset n =>
    obtain rfl := Option.some.inj h
    refine Or.inl ⟨Nat.add_le_add_right ?_ _, rfl⟩
    have hsub := (List.eraseP_sublist (p := fun x : Timer × ℕ => decide (x.1 = .app n))
      (l := s.q.next.map SysTimeo.what)).map Prod.fst
    rw [← map_what_sysUntimeout, List.map_map, List.map_map] at hsub
    exact hsub.count_le .tcp
  | _ =>
    obtain rfl := Option.some.inj h
    exact Or.inl ⟨le_rfl, rfl⟩

/-- A handler is called from the list. -/
lemma step_calls (h : s.step e = some s') :
    s'.calls = s.calls ∨ ∃ k a n, k ∈ s.armed ∧ s'.calls = (k, a, n) :: s.calls := by
  cases e with
  | check =>
    rw [step] at h
    split at h
    next =>
      obtain rfl := Option.some.inj h
      exact Or.inl rfl
    next => cases h
  | fire =>
    obtain ⟨diff, t, l, -, -, hq, -, rfl⟩ := fire_cases h
    refine Or.inr ⟨t.what.1, t.what.2, s.now, ?_, rfl⟩
    rw [armed, hq]
    exact List.mem_cons_self
  | finish =>
    obtain ⟨k, -, rfl⟩ := Option.map_eq_some_iff.mp h
    exact Or.inl finish_calls
  | done =>
    rw [step] at h
    split at h
    next =>
      split at h
      next =>
        obtain rfl := Option.some.inj h
        exact Or.inl rfl
      next => cases h
    next => cases h
  | needed =>
    rw [step] at h
    split at h <;>
    · obtain rfl := Option.some.inj h
      exact Or.inl rfl
  | _ =>
    obtain rfl := Option.some.inj h
    exact Or.inl rfl

/-- The timer of TCP counts as active, is not in the list, and its handler is not running. -/
def TcpDead (s : TimerSys) : Prop := s.active = true ∧ s.tcpLive = 0

lemma step_tcpDead (hs : s.TcpDead) (h : s.step e = some s') : s'.TcpDead := by
  obtain ⟨ha, h0⟩ := hs
  rcases step_tcpLive h with ⟨hle, hact⟩ | ⟨hlt, -⟩ | ⟨-, hna, -⟩
  · exact ⟨hact.trans ha, by omega⟩
  · omega
  · rw [ha] at hna
    cases hna

/-- **A timer that cannot be started.**  If the pool has no entry left when `tcp_timer_needed`
is called for the first connection (an application with a timer of its own is enough), the
timer of TCP counts as started and is not: in every continuation, even after the application
has stopped its timers and all connections were closed, it is not in the list and its handler
is not called. -/
theorem tcp_timer_never_starts {now : ℕ} {s₁ t : TimerSys} {es' : List TimerEv}
    (hrun : exec step (init now) es = some s) (hfull : s.q.next.length = mempNumSysTimeout)
    (hact : s.active = false) (hpcbs : s.pcbs = true) (hstep : s.step .needed = some s₁)
    (hrun' : exec step s₁ es' = some t) :
    t.active = true ∧ .tcp ∉ t.armed ∧ ∀ c ∈ t.calls, c.1 = .tcp → c ∈ s.calls := by
  -- before the call, the timer is in the list at most as often as it counts as active
  have hflag : s.tcpLive ≤ if s.active then 1 else 0 := by
    refine exec_inv (P := fun s : TimerSys => s.tcpLive ≤ if s.active then 1 else 0)
      (fun s e s' hs h => ?_) ?_ hrun
    · rcases step_tcpLive h with ⟨hle, ha⟩ | ⟨hlt, ha⟩ | ⟨hle, hna, ha⟩
      · rw [ha]
        omega
      · rw [ha]
        split at hs <;> omega
      · rw [hna, if_neg (by simp)] at hs
        rw [ha, if_pos rfl]
        omega
    · exact (init_kept now).tcpLive_eq.le
  rw [hact, if_neg (by simp)] at hflag
  have hs₁ : s₁ = { s with active := true }.arm tcpTmrInterval .tcp := by
    rw [step, if_pos ⟨hact, hpcbs⟩] at hstep
    exact (Option.some.inj hstep).symm
  have hdead : s₁.TcpDead := by
    refine ⟨by rw [hs₁]; rfl, ?_⟩
    have harmed : s₁.armed = s.armed := by
      rw [hs₁]
      exact armed_arm_of_full (s := { s with active := true }) hfull.ge
    rw [tcpLive] at hflag ⊢
    rw [harmed, hs₁]
    change s.armed.count .tcp + (if s.running = some .tcp then 1 else 0) = 0
    omega
  have hcalls : s₁.calls = s.calls := by rw [hs₁]; rfl
  have hend : t.TcpDead ∧ ∀ c ∈ t.calls, c.1 = .tcp → c ∈ s.calls := by
    refine exec_inv (P := fun t : TimerSys => t.TcpDead ∧ ∀ c ∈ t.calls, c.1 = .tcp → c ∈ s.calls)
      (fun u e u' hu h => ⟨step_tcpDead hu.1 h, ?_⟩) ⟨hdead, fun c hc _ => hcalls ▸ hc⟩ hrun'
    rcases step_calls h with hc | ⟨k, a, n, hk, hc⟩ <;> rw [hc]
    · exact hu.2
    · refine List.forall_mem_cons.mpr ⟨fun hkt => ?_, hu.2⟩
      obtain rfl : k = .tcp := hkt
      have := List.count_pos_iff.mpr hk
      have hlive := hu.1.2
      rw [tcpLive] at hlive
      omega
  refine ⟨hend.1.1, fun hmem => ?_, hend.2⟩
  have := List.count_pos_iff.mpr hmem
  have hlive := hend.1.2
  rw [tcpLive] at hlive
  omega

theorem tcp_timer_never_starts_sample :
    ∃ s s₁ t, exec step (init 0) [.set 15000 0, .pcbs true] = some s ∧
      s.step .needed = some s₁ ∧
      exec step s₁ [.unset 0, .tick 1000, .check, .fire, .finish, .done, .needed] = some t ∧
      t.active = true ∧ .tcp ∉ t.armed := by
  obtain ⟨s, hrun⟩ : ∃ s, exec step (init 0) [.set 15000 0, .pcbs true] = some s := ⟨_, rfl⟩
  obtain ⟨s₁, hs₁⟩ : ∃ s₁, s.step .needed = some s₁ := by
    cases hrun
    exact ⟨_, rfl⟩
  obtain ⟨t, ht⟩ : ∃ t, exec step s₁
      [.unset 0, .tick 1000, .check, .fire, .finish, .done, .needed] = some t := by
    cases hrun
    cases hs₁
    exact ⟨_, rfl⟩
  have hs : s.q.next.length = mempNumSysTimeout ∧ s.active = false ∧ s.pcbs = true := by
    cases hrun
    decide +kernel
  obtain ⟨ha, hn, -⟩ := tcp_timer_never_starts hrun hs.1 hs.2.1 hs.2.2 hs₁ ht
  exact ⟨s, s₁, t, hrun, hs₁, ht, ha, hn⟩

end TimerSys

end Teensy41Ethernet.Lwip
