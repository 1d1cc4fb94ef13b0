import Teensy41Ethernet.Sketch.Poll

/-!
# Frames in several buffers

In `teensy41_ethernet.ino` a receive buffer has 512 bytes, but the receiver takes frames of
up to 1522 bytes.  The DMA stores such a frame in up to three descriptors and sets the last
flag in the final one.  `loop` does not look at that flag: it calls `incoming` for every
descriptor, and `incoming` looks for an Ethernet header at the beginning of the buffer it is
given.  So there is one call for each frame exactly if all the frames fit into one buffer.
-/

namespace Teensy41Ethernet.Sketch

open Lib

/-! ### Pieces -/

namespace Frame

variable {f : Frame} {m : ℕ}

lemma length_pieces (f : Frame) (m : ℕ) :
    (f.pieces m).length = (f.bytes.length + m - 1) / m := by
  rw [pieces, List.length_map, List.length_range]

lemma length_pieces_pos (hm : 0 < m) : 0 < (f.pieces m).length := by
  rw [length_pieces]
  have := f.pos
  exact Nat.div_pos (by omega) hm

lemma pieces_eq_singleton (hfit : f.bytes.length ≤ m) : f.pieces m = [f.bytes] := by
  have hone : (f.bytes.length + m - 1) / m = 1 := by
    have := f.pos
    exact Nat.div_eq_of_lt_le (by omega) (by omega)
  rw [pieces, hone, List.range_one, List.map_singleton, zero_mul, List.drop_zero,
    List.take_of_length_le hfit]

lemma fits_of_length_pieces (hm : 0 < m) (hone : (f.pieces m).length ≤ 1) :
    f.bytes.length ≤ m := by
  rw [length_pieces] at hone
  have hlt : (f.bytes.length + m - 1) / m < 2 := by omega
  rw [Nat.div_lt_iff_lt_mul hm] at hlt
  omega

end Frame

lemma flatMap_pieces_eq {m : ℕ} {fs : List Frame}
    (hfit : ∀ f ∈ fs, f.bytes.length ≤ m) : fs.flatMap (Frame.pieces m) = fs.map Frame.bytes := by
  rw [List.map_eq_flatMap]
  exact List.flatMap_congr fun f hf => Frame.pieces_eq_singleton (hfit f hf)

lemma fits_of_length_flatMap {m : ℕ} (hm : 0 < m) {fs : List Frame}
    (hlen : (fs.flatMap (Frame.pieces m)).length ≤ fs.length) :
    ∀ f ∈ fs, f.bytes.length ≤ m := by
  -- every frame has a piece, so no frame can have two
  have hge : ∀ gs : List Frame, gs.length ≤ (gs.flatMap (Frame.pieces m)).length := by
    intro gs
    induction gs with
    | nil => exact le_rfl
    | cons g gs ih =>
      have hg := Frame.length_pieces_pos (f := g) hm
      rw [List.flatMap_cons, List.length_append, List.length_cons]
      omega
  induction fs with
  | nil => simp
  | cons f fs ih =>
    rw [List.flatMap_cons, List.length_append, List.length_cons] at hlen
    have hf := Frame.length_pieces_pos (f := f) hm
    have hfs := hge fs
    intro g hg
    rcases List.mem_cons.mp hg with rfl | hg
    · exact Frame.fits_of_length_pieces hm (by omega)
    · exact ih (by omega) g hg

/-! ### One call for each frame -/

/-- Every piece received has been parsed and the sketch is between calls. -/
def PollSys.Settled (s : PollSys) : Prop :=
  s.todo = [] ∧ s.pc = .idle ∧ ∀ i < rxsize, s.empty i = true

instance (s : PollSys) : Decidable s.Settled :=
  inferInstanceAs (Decidable (s.todo = [] ∧ s.pc = .idle ∧ ∀ i < rxsize, s.empty i = true))

/-- The call is one of `incoming`, on a buffer of `m` bytes that holds the frame's first
bytes. -/
def Parse.OnFrame (m : ℕ) (c : Parse) (f : Frame) : Prop :=
  c.parser = .incoming ∧ f.bytes.take m <+: c.data

/-- In a settled state every piece has been parsed. -/
lemma PollInv.length_parses {src : Source} {s : PollSys} (hi : PollInv src s) (hs : s.Settled) :
    s.parses.length = s.stored.length := by
  obtain ⟨-, hpc, hempty⟩ := hs
  have howes : s.parses.length = s.released := by simpa [hpc, PollPc.owes] using hi.owes
  have hle := hi.parsed_le
  by_contra hne
  have hlt : s.released < s.stored.length := by omega
  have hmod : s.released % rxsize < rxsize := Nat.mod_lt _ PollInv.rxsize_pos
  have hfull := (hi.full_iff _ hmod).mpr (window_first hlt)
  exact absurd ((hempty _ hmod).symm.trans hfull) (by simp)

/-- If the frames fit, the calls of `incoming` are on the first frames, one call on each. -/
lemma PollInv.parses_onFrame {s : PollSys} (hi : PollInv teensy41 s)
    (hfit : ∀ f ∈ s.frames, f.bytes.length ≤ 512) :
    List.Forall₂ (Parse.OnFrame 512) s.parses (s.frames.take s.parses.length) := by
  have hframes : s.frames.map Frame.bytes = s.stored ++ s.todo :=
    (flatMap_pieces_eq hfit).symm.trans hi.frames_eq
  have htake : s.stored.take s.parses.length = (s.frames.take s.parses.length).map Frame.bytes := by
    rw [List.map_take, hframes, List.take_append_of_le_length hi.parsed_le]
  have hparsed := hi.parsed
  rw [htake, List.forall₂_map_right_iff] at hparsed
  have hparser : ∀ c ∈ s.parses, c.parser = .incoming := by
    intro c hc
    simpa [teensy41, loop] using hi.parser_mem c hc
  rw [List.forall₂_iff_get] at hparsed ⊢
  refine ⟨hparsed.1, fun i h₁ h₂ => ⟨hparser _ (List.get_mem _ _), ?_⟩⟩
  exact (List.take_prefix 512 _).trans (hparsed.2 i h₁ h₂)

/-- **One frame, one parse.**  In every run of `teensy41_ethernet.ino`: as long as every frame
received has at most 512 bytes, the calls of `incoming` are on the first frames received, one
call on each and on the buffer with its first bytes; and once everything received has been
parsed, there is one such call for each frame exactly if every frame has at most 512 bytes. -/
theorem one_parse_per_frame_iff (es : List PollEvent) {t : PollSys}
    (hrun : exec (pollStep teensy41) pollInit es = some t) :
    ((∀ f ∈ t.frames, f.bytes.length ≤ 512) →
      List.Forall₂ (Parse.OnFrame 512) t.parses (t.frames.take t.parses.length)) ∧
    (t.Settled → (List.Forall₂ (Parse.OnFrame 512) t.parses t.frames ↔
      ∀ f ∈ t.frames, f.bytes.length ≤ 512)) := by
  have hi := PollInv.run hrun
  refine ⟨hi.parses_onFrame, fun hs => ⟨fun hone => ?_, fun hfit => ?_⟩⟩
  · -- as many calls as frames, and as many calls as pieces
    have hpieces := hi.frames_eq
    rw [hs.1, List.append_nil] at hpieces
    have hlen := hi.length_parses hs
    rw [hone.length_eq, ← hpieces] at hlen
    exact fits_of_length_flatMap (by decide) hlen.ge
  · have hall := hi.parses_onFrame hfit
    have hlen := hi.length_parses hs
    have hframes : t.frames.map Frame.bytes = t.stored ++ t.todo :=
      (flatMap_pieces_eq hfit).symm.trans hi.frames_eq
    rw [hs.1, List.append_nil] at hframes
    rwa [hlen, ← hframes, List.length_map, List.take_length] at hall

/-- A short frame is parsed once. -/
theorem one_parse_per_frame_short :
    let es : List PollEvent := [.arrive shortFrame, .store lastFlag 64, .call loop, .step, .step,
      .step, .step]
    ∃ t, exec (pollStep teensy41) pollInit es = some t ∧ t.Settled ∧ t.frames.length = 1 ∧
      List.Forall₂ (Parse.OnFrame 512) t.parses t.frames := by
  intro es
  have hrun : (exec (pollStep teensy41) pollInit es).map
      (fun t => (decide t.Settled, t.frames.map fun f => f.bytes.length)) = some (true, [60]) := by
    decide +kernel
  obtain ⟨t, ht, hview⟩ := Option.map_eq_some_iff.mp hrun
  simp only [Prod.mk.injEq, decide_eq_true_eq] at hview
  obtain ⟨hsettled, hframes⟩ := hview
  have hfit : ∀ f ∈ t.frames, f.bytes.length ≤ 512 := by
    intro f hf
    have hmem : f.bytes.length ∈ t.frames.map fun f => f.bytes.length :=
      List.mem_map_of_mem hf
    rw [hframes, List.mem_singleton] at hmem
    omega
  refine ⟨t, ht, hsettled, by simpa using congrArg List.length hframes, ?_⟩
  exact ((one_parse_per_frame_iff es ht).2 hsettled).mpr hfit

/-- A frame of 600 bytes, of which the last 88 are twos. -/
def longFrame : Frame where
  bytes := List.replicate 512 1 ++ List.replicate 88 2
  pos := by rw [List.length_append, List.length_replicate]; omega
  le_max := by rw [List.length_append, List.length_replicate, List.length_replicate]; omega

/-- The frame of 600 bytes is parsed twice, the second time from its byte 512 on. -/
theorem long_frame_parsed_twice :
    ∃ es t, exec (pollStep teensy41) pollInit es = some t ∧ t.Settled ∧ t.frames.length = 1 ∧
      t.parses.map (fun c => (c.parser, c.buf, c.data.take 4)) =
        [(.incoming, 0, [1, 1, 1, 1]), (.incoming, 1, [2, 2, 2, 2])] ∧
      ¬ List.Forall₂ (Parse.OnFrame 512) t.parses t.frames := by
  let es : List PollEvent := [.arrive longFrame, .store 0 512, .store lastFlag 600] ++
    (List.replicate 2 [.call loop, .step, .step, .step, .step]).flatten
  have hrun : (exec (pollStep teensy41) pollInit es).map
      (fun t => decide (t.Settled ∧ t.frames.length = 1 ∧
        t.parses.map (fun c => (c.parser, c.buf, c.data.take 4)) =
          [(.incoming, 0, [1, 1, 1, 1]), (.incoming, 1, [2, 2, 2, 2])])) = some true := by
    decide +kernel
  obtain ⟨t, ht, hview⟩ := Option.map_eq_some_iff.mp hrun
  obtain ⟨hsettled, hframes, hparses⟩ := of_decide_eq_true hview
  refine ⟨es, t, ht, hsettled, hframes, hparses, fun hone => ?_⟩
  have htwo : t.parses.length = 2 := by simpa using congrArg List.length hparses
  have := hone.length_eq
  omega

end Teensy41Ethernet.Sketch
