import Teensy41Ethernet.Driver.Receive

/-!
# The order of received frames

Between two calls the filled descriptors are those of the frames not yet taken, from
`p_rxbd` on, and a call that starts then takes the oldest one.  The search of an empty ring
is different: a frame may arrive in a descriptor that the search has already passed, and a
later one ahead of the search, which then takes the later one first.

`rx_order` shows that this is the only way to take a frame out of order: the frames come in
the order of their arrival in every run in which no frame arrives ahead of a search that
has already been overtaken.
-/

namespace Teensy41Ethernet.Driver

open Lib Lwip

/-- The number of descriptors, from `p_rxbd` on, that the running search has found empty. -/
def RxSys.passed (b : Board) (s : RxSys) : ℕ :=
  match s.pc with
  | .scan bd => offset b.rxSize s.pRxbd bd
  | .wrap bd => offset b.rxSize s.pRxbd bd + 1
  | _ => 0

/-- A fill does not overtake the search: if a descriptor that the search has passed holds a
frame by now, then the one that is filled has been passed, too. -/
def NotOvertaking (b : Board) (s : RxSys) : RxEvent → Prop
  | .fill _ =>
      (∃ i < b.rxSize, offset b.rxSize s.pRxbd i < s.passed b ∧ s.filled i = true) →
        offset b.rxSize s.pRxbd s.dma < s.passed b
  | _ => True

instance (b : Board) (s : RxSys) : (e : RxEvent) → Decidable (NotOvertaking b s e)
  | .fill _ => inferInstanceAs (Decidable (_ → _))
  | .call => isTrue trivial
  | .step _ => isTrue trivial

/-- The numbers of the frames that `enet_rx_next` has returned, in the order of the calls. -/
def RxSys.returned (s : RxSys) : List ℕ :=
  s.results.filterMap fun r => r.2.map fun _ => r.1

/-- The invariant of the runs that are not overtaken: the filled descriptors are a window of
the ring, and what the search has passed covers the window. -/
structure RxOrder (b : Board) (s : RxSys) : Prop where
  base : RxInv b s
  handed_le : s.handed.length ≤ s.fills
  room : s.fills ≤ s.handed.length + b.rxSize
  window : ∀ i < b.rxSize, s.filled i = true ↔
    Window b.rxSize s.handed.length s.fills i ∨ s.pc.taken = some i
  apart : ∀ bd, s.pc.taken = some bd → ¬ Window b.rxSize s.handed.length s.fills bd
  serial : ∀ k, s.handed.length ≤ k → k < s.fills → s.serial (k % b.rxSize) = k
  taken_serial : ∀ bd, s.pc = .input bd → s.handed = s.results.map Prod.fst ++ [s.serial bd]
  results_eq : (∀ bd, s.pc ≠ .input bd) → s.handed = s.results.map Prod.fst
  handed_eq : s.handed = List.range s.handed.length
  passed : 0 < s.passed b → s.fills ≤ s.handed.length + s.passed b
  found : ∀ bd, s.pc = .advance bd → bd = s.pRxbd

namespace RxOrder

variable {b : Board} {s s' : RxSys} {e : RxEvent}

lemma init (b : Board) : RxOrder b (rxInit b) where
  base := RxInv.init b
  handed_le := le_rfl
  room := Nat.zero_le _
  window i h := by
    have hempty : (rxInit b).filled i = false := by
      have howed := (RxInv.init b).owed_eq i h
      simpa [rxInit, RxPc.taken, owed] using howed
    rw [hempty]
    refine iff_of_false Bool.false_ne_true ?_
    rintro (h' | h')
    · exact not_window_self h'
    · exact absurd h' (by simp [rxInit, RxPc.taken])
  apart := by rintro _ ⟨⟩
  serial k _ hk := absurd hk (Nat.not_lt_zero k)
  taken_serial := by rintro _ ⟨⟩
  results_eq _ := rfl
  handed_eq := rfl
  passed h := absurd h (lt_irrefl 0)
  found := by rintro _ ⟨⟩

lemma filled_pRxbd (hi : RxOrder b s) (h : s.handed.length < s.fills) :
    s.filled s.pRxbd = true := by
  rw [hi.window _ hi.base.pRxbd_lt]
  refine Or.inl ?_
  rw [hi.base.ptr_eq]
  exact window_first h

lemma setPc (hi : RxOrder b s) (pc : RxPc) (hbase : RxInv b { s with pc := pc })
    (ht : pc.taken = s.pc.taken) (hfrom : ∀ bd, s.pc ≠ .input bd) (hto : ∀ bd, pc ≠ .input bd)
    (hpassed : 0 < RxSys.passed b { s with pc := pc } →
      s.fills ≤ s.handed.length + RxSys.passed b { s with pc := pc })
    (hfound : ∀ bd, pc = .advance bd → bd = s.pRxbd) : RxOrder b { s with pc := pc } :=
  { hi with
    base := hbase
    window := fun i h => (hi.window i h).trans (by simp only [ht])
    apart := fun bd h => hi.apart bd (ht ▸ h)
    taken_serial := fun bd h => absurd h (hto bd)
    results_eq := fun _ => hi.results_eq hfrom
    passed := hpassed
    found := hfound }

/-- What the search has passed when it goes on after an empty descriptor. -/
lemma passed_pass (hi : RxOrder b s) {bd : ℕ} (hpc : s.pc = .scan bd)
    (hempty : s.filled bd = false) :
    s.fills ≤ s.handed.length + (offset b.rxSize s.pRxbd bd + 1) := by
  by_cases hpos : 0 < s.passed b
  · have := hi.passed hpos
    simp only [RxSys.passed, hpc] at this
    omega
  · -- the first descriptor of the search is empty, so no frame waits
    have hptr : bd = s.pRxbd := by
      have hoff : offset b.rxSize s.pRxbd bd = 0 := by simpa [RxSys.passed, hpc] using hpos
      have := add_offset hi.base.pRxbd_lt (hi.base.cursor_lt bd (by rw [hpc]; rfl))
      rwa [hoff, add_zero, Nat.mod_eq_of_lt hi.base.pRxbd_lt, eq_comm] at this
    have hnone : ¬ s.handed.length < s.fills := by
      intro h
      have := hi.filled_pRxbd h
      rw [← hptr, hempty] at this
      exact Bool.false_ne_true this
    omega

/-- A search that finds a frame finds it in the first descriptor. -/
lemma found_eq (hi : RxOrder b s) {bd : ℕ} (hpc : s.pc = .scan bd) (hfound : s.filled bd = true) :
    bd = s.pRxbd := by
  have hlt := hi.base.cursor_lt bd (by rw [hpc]; rfl)
  have hoff := add_offset hi.base.pRxbd_lt hlt
  have hoff_lt := offset_lt (p := s.pRxbd) (i := bd) b.rx_pos
  rcases (hi.window bd hlt).mp hfound with ⟨k, hk, hkf, hkbd⟩ | htaken
  · by_contra hne
    have hpos : 0 < offset b.rxSize s.pRxbd bd := by
      rw [Nat.pos_iff_ne_zero]
      intro hzero
      rw [hzero, add_zero, Nat.mod_eq_of_lt hi.base.pRxbd_lt] at hoff
      exact hne hoff.symm
    have hcover := hi.passed (by simpa only [RxSys.passed, hpc] using hpos)
    simp only [RxSys.passed, hpc] at hcover
    -- the descriptor is the one of use `handed + offset`, which the window does not reach
    have hsame : k % b.rxSize = (s.handed.length + offset b.rxSize s.pRxbd bd) % b.rxSize := by
      rw [hkbd, ← Nat.mod_add_mod, ← hi.base.ptr_eq, hoff]
    have := eq_of_mod_eq hk (by omega) (Nat.le_add_right _ _) (by omega) hsame
    omega
  · exact absurd htaken (by simp [hpc, RxPc.taken])

/-- The handover takes the oldest frame. -/
lemma advance (hi : RxOrder b s) {bd : ℕ} (hpc : s.pc = .advance bd) :
    RxOrder b { s with
      pRxbd := nextRxbd s s.pRxbd
      pc := .input bd
      handed := s.handed ++ [s.serial bd]
      log := s.log ++ [.handover bd] } := by
  have hbd := hi.found bd hpc
  have hfilled := hi.base.found bd hpc
  have hlt := hi.base.cursor_lt bd (by rw [hpc]; rfl)
  have hcell : bd = s.handed.length % b.rxSize := by rw [hbd, hi.base.ptr_eq]
  have hlen : (s.handed ++ [s.serial bd]).length = s.handed.length + 1 := by simp
  have hnot : ∀ i, s.pc.taken ≠ some i := by simp [hpc, RxPc.taken]
  have hwaits : s.handed.length < s.fills := by
    rcases (hi.window bd hlt).mp hfilled with ⟨k, hk, hkf, -⟩ | htaken
    · omega
    · exact absurd htaken (hnot bd)
  have hserial : s.serial bd = s.handed.length := by
    rw [hcell]
    exact hi.serial _ le_rfl hwaits
  have hroom := hi.room
  refine { base := hi.base.advance hpc
           handed_le := by simp only [hlen]; omega
           room := by simp only [hlen]; omega
           window := fun i h => ?_, apart := ?_, serial := fun k hk hkf => ?_
           taken_serial := ?_, results_eq := fun h => absurd rfl (h bd)
           handed_eq := ?_, passed := fun h => absurd h (lt_irrefl 0), found := by rintro _ ⟨⟩ }
  · refine ((hi.window i h).trans (or_iff_left (hnot i))).trans ?_
    simp only [hlen, window_drop hwaits hroom, ← hcell, RxPc.taken, Option.some.injEq]
    constructor
    · intro hw
      by_cases hib : bd = i
      · exact Or.inr hib
      · exact Or.inl ⟨hw, Ne.symm hib⟩
    · rintro (hw | rfl)
      · exact hw.1
      · rw [hcell]
        exact window_first hwaits
  · rintro _ ⟨⟩
    simp only [hlen, window_drop hwaits hroom]
    exact fun h => h.2 hcell
  · simp only [hlen] at hk
    exact hi.serial k (by omega) hkf
  · rintro _ ⟨⟩
    rw [← hi.results_eq (by simp [hpc])]
  · rw [hlen, hserial, List.range_succ, ← hi.handed_eq]

lemma fills_lt (hi : RxOrder b s) (hempty : s.filled s.dma = false) :
    s.fills < s.handed.length + b.rxSize := by
  refine lt_of_le_of_ne hi.room fun hfullring => ?_
  have hfilled := (hi.window s.dma hi.base.dma_lt).mpr (Or.inl (by
    rw [hi.base.dma_eq]
    exact (window_next_iff b.rx_pos hi.handed_le hi.room).mpr hfullring))
  rw [hempty] at hfilled
  exact Bool.false_ne_true hfilled

/-- The DMA is as far ahead of the read pointer as there are frames waiting. -/
lemma offset_dma (hi : RxOrder b s) (hroom : s.fills < s.handed.length + b.rxSize) :
    offset b.rxSize s.pRxbd s.dma = s.fills - s.handed.length := by
  have hle := hi.handed_le
  have hcell : s.dma = (s.pRxbd + (s.fills - s.handed.length)) % b.rxSize := by
    rw [hi.base.dma_eq, hi.base.ptr_eq, Nat.mod_add_mod]
    congr 1
    omega
  rw [hcell]
  exact offset_add hi.base.pRxbd_lt (by omega)

lemma fill (hi : RxOrder b s) {f : RxFill} (hbase : RxInv b (rxFilled b s f))
    (hempty : s.filled s.dma = false) (hfull : hasFlag f.status kEnetRxBdEmpty = false)
    (hok : NotOvertaking b s (.fill f)) : RxOrder b (rxFilled b s f) := by
  have hle := hi.handed_le
  have hroom := hi.fills_lt hempty
  have hoff := hi.offset_dma hroom
  have hne : ∀ bd, s.pc.taken = some bd → bd ≠ s.dma := by
    rintro bd h rfl
    rw [(hi.base.taken _ h).2] at hempty
    exact absurd hempty (by simp)
  refine { base := hbase
           handed_le := by rw [rxFilled]; simp only; omega
           room := by rw [rxFilled]; simp only; omega
           window := fun i h => ?_, apart := fun bd h => ?_, serial := fun k hk hkf => ?_
           taken_serial := fun bd h => ?_, results_eq := hi.results_eq
           handed_eq := hi.handed_eq, passed := fun hpos => ?_, found := hi.found }
  · rw [filled_rxFilled hfull, Bool.or_eq_true, hi.window i h, decide_eq_true_eq, hi.base.dma_eq]
    simp only [rxFilled, window_succ hle]
    tauto
  · simp only [rxFilled, window_succ hle, ← hi.base.dma_eq, not_or]
    exact ⟨hi.apart bd h, hne bd h⟩
  · simp only [rxFilled] at hk hkf ⊢
    rcases Nat.lt_succ_iff_lt_or_eq.mp hkf with hkf | rfl
    · have hne : k % b.rxSize ≠ s.dma := by
        rw [hi.base.dma_eq]
        intro h
        have := eq_of_mod_eq hk (by omega) hle hroom h
        omega
      rw [modifyAt_of_ne s.serial _ hne]
      exact hi.serial k hk hkf
    · rw [← hi.base.dma_eq, modifyAt_self]
  · have hbd := hne bd (by rw [show s.pc = .input bd from h]; rfl)
    simp only [rxFilled, modifyAt_of_ne s.serial _ hbd]
    exact hi.taken_serial bd h
  · have hpos' : 0 < s.passed b := hpos
    have hgoal : s.fills + 1 ≤ s.handed.length + s.passed b := by
      by_cases hwaits : s.handed.length < s.fills
      · have := hok ⟨s.pRxbd, hi.base.pRxbd_lt, by rwa [offset_self], hi.filled_pRxbd hwaits⟩
        omega
      · omega
    exact hgoal

lemma release (hi : RxOrder b s) {bd : ℕ} {p : Option Chain} (hpc : s.pc = .release bd p) :
    RxOrder b (rxGiveBack s bd p) := by
  have hapart := hi.apart bd (by rw [hpc]; rfl)
  refine { hi with base := hi.base.release hpc, window := fun i h => ?_, apart := by rintro _ ⟨⟩
                   taken_serial := by rintro _ ⟨⟩
                   results_eq := fun _ => hi.results_eq (by simp [hpc])
                   passed := fun h => absurd h (lt_irrefl 0), found := by rintro _ ⟨⟩ }
  rw [filled_rxGiveBack, Bool.and_eq_true, hi.window i h, decide_eq_true_eq, hpc]
  simp only [RxPc.taken, rxGiveBack, Option.some.injEq, reduceCtorEq, or_false]
  constructor
  · rintro ⟨hw | rfl, hne⟩
    · exact hw
    · exact absurd rfl hne
  · intro hw
    refine ⟨Or.inl hw, ?_⟩
    rintro rfl
    exact hapart hw

lemma step (hi : RxOrder b s) (hok : NotOvertaking b s e) (h : rxStep b s e = some s') :
    RxOrder b s' := by
  have hbase := hi.base.step h
  cases RxMove.of_step h with
  | call hpc =>
    refine hi.setPc _ hbase (by rw [hpc]; rfl) (by simp [hpc]) (by rintro _ ⟨⟩) (fun hpos => ?_)
      (by rintro _ ⟨⟩)
    simp [RxSys.passed, offset_self] at hpos
  | pass hpc hempty =>
    exact hi.setPc _ hbase (by rw [hpc]; rfl) (by simp [hpc]) (by rintro _ ⟨⟩)
      (fun _ => hi.passed_pass hpc hempty) (by rintro _ ⟨⟩)
  | found hpc hfound =>
    refine hi.setPc _ hbase (by rw [hpc]; rfl) (by simp [hpc]) (by rintro _ ⟨⟩)
      (fun hpos => absurd hpos (lt_irrefl 0)) ?_
    rintro _ ⟨⟩
    exact hi.found_eq hpc hfound
  | round hpc _ =>
    exact hi.setPc _ hbase (by rw [hpc]; rfl) (by simp [hpc]) (by rintro _ ⟨⟩)
      (fun hpos => absurd hpos (lt_irrefl 0)) (by rintro _ ⟨⟩)
  | @next bd _ hpc hne =>
    refine hi.setPc _ hbase (by rw [hpc]; rfl) (by simp [hpc]) (by rintro _ ⟨⟩) (fun _ => ?_)
      (by rintro _ ⟨⟩)
    have hlt := hi.base.cursor_lt bd (by rw [hpc]; rfl)
    have hcover := hi.passed (by simp [RxSys.passed, hpc])
    rw [hi.base.nextRxbd_eq hlt] at hne ⊢
    simp only [RxSys.passed, hpc] at hcover ⊢
    rwa [offset_succ hi.base.pRxbd_lt hlt hne]
  | advance hpc => exact hi.advance hpc
  | @input bd free hpc =>
    refine { hi with base := hbase
                     window := fun i h => (hi.window i h).trans (by simp only [hpc]; rfl)
                     apart := fun i h => hi.apart i (by rw [hpc]; exact h)
                     taken_serial := by rintro _ ⟨⟩, results_eq := fun _ => ?_
                     passed := fun h => absurd h (lt_irrefl 0), found := by rintro _ ⟨⟩ }
    rw [List.map_append]
    exact hi.taken_serial bd hpc
  | release hpc => exact hi.release hpc
  | rdar hpc =>
    exact hi.setPc _ hbase (by rw [hpc]; rfl) (by simp [hpc]) (by rintro _ ⟨⟩)
      (fun hpos => absurd hpos (lt_irrefl 0)) (by rintro _ ⟨⟩)
  | fill hempty hfull _ _ => exact hi.fill hbase hempty hfull hok

lemma returned_sublist (hi : RxOrder b s) : s.returned.Sublist s.handed := by
  have hsub : s.returned.Sublist (s.results.map Prod.fst) := by
    rw [RxSys.returned]
    induction s.results with
    | nil => exact List.Sublist.slnil
    | cons r rs ih =>
      cases hr : r.2 with
      | none => simpa [hr] using ih.cons r.1
      | some p => simpa [hr] using ih.cons_cons r.1
  refine hsub.trans ?_
  by_cases hin : ∃ bd, s.pc = .input bd
  · obtain ⟨bd, hpc⟩ := hin
    rw [hi.taken_serial bd hpc]
    exact List.sublist_append_left _ _
  · rw [hi.results_eq fun bd hpc => hin ⟨bd, hpc⟩]

end RxOrder

/-- **Frames come in the order of their arrival**, in every run in which no fill overtakes
the search of `rxbd_next`: the numbers of the frames returned by the calls of `enet_rx_next`
increase. -/
theorem rx_order (b : Board) (es : List RxEvent) {t : RxSys}
    (hok : Admits (rxStep b) (NotOvertaking b) (rxInit b) es)
    (hrun : exec (rxStep b) (rxInit b) es = some t) : t.returned.Pairwise (· < ·) := by
  have hi : RxOrder b t := exec_inv_of_admits (fun _ _ _ hs hok h => hs.step hok h)
    (RxOrder.init b) hok hrun
  refine List.Pairwise.sublist hi.returned_sublist ?_
  rw [hi.handed_eq]
  exact List.pairwise_lt_range

/-- A frame that arrives behind the search is found by the next call, before a later one. -/
theorem rx_order_behind_search :
    let f : RxFill := ⟨kEnetRxBdLast, 1, [7]⟩
    let steps (n : ℕ) : List RxEvent := List.replicate n (.step 1)
    let es : List RxEvent := List.flatten [[.call, .step 1, .fill f], steps 9, [.fill f, .call],
      steps 5, [.call], steps 5]
    ∃ t, exec (rxStep t41) (rxInit t41) es = some t ∧ t.returned = [0, 1] ∧
      t.returned.Pairwise (· < ·) := by
  intro f steps es
  have hret : (exec (rxStep t41) (rxInit t41) es).map RxSys.returned = some [0, 1] := by
    decide +kernel
  obtain ⟨t, ht, hret⟩ := Option.map_eq_some_iff.mp hret
  exact ⟨t, ht, hret, rx_order t41 es (by decide +kernel) ht⟩

/-- Two frames arrive while the search stands behind the first descriptor: the second one,
which is ahead of the search, is returned first. -/
theorem rx_search_overtaken :
    let f : RxFill := ⟨kEnetRxBdLast, 1, [7]⟩
    let steps (n : ℕ) : List RxEvent := List.replicate n (.step 1)
    let es : List RxEvent := List.flatten [[.call, .step 1, .fill f, .fill f], steps 6, [.call],
      steps 13]
    ∃ t, exec (rxStep t41) (rxInit t41) es = some t ∧ t.returned = [1, 0] := by
  intro f steps es
  have hret : (exec (rxStep t41) (rxInit t41) es).map RxSys.returned = some [1, 0] := by
    decide +kernel
  exact Option.map_eq_some_iff.mp hret

end Teensy41Ethernet.Driver
