import Teensy41Ethernet.Tftp.Server
import Teensy41Ethernet.Lib.Run

/-!
# The timeouts of the TFTP server

`recv` arms `tftp_tmr` as soon as it sees a request while no transfer is active, before it
looks at the request; a request that is refused after that leaves the timeout pending, and
`tftp_tmr` drops it when it expires.  `close_handle` cancels one timeout.  So another request
that comes before the timeout of a refused one has expired adds a second timeout, which
nothing cancels.  This is the only way to have more than one.
-/

namespace Teensy41Ethernet.Tftp

open Lib Lwip

/-- At most one timeout is pending, exactly one during a transfer, and no `close_handle` left
one. -/
structure Disciplined (s : Server) : Prop where
  le_one : s.timeouts ≤ 1
  armed : s.handle = true → s.timeouts = 1
  cancelled : ∀ n ∈ s.closes, n = 0

/-- The opcode of a datagram, as `recv` reads it. -/
def Datagram.opcode (m : Datagram) (env : Env) : ℕ :=
  be16 (payloadBytes m.p env.behind headerLength) 0

/-- A request that is let through while no transfer is active comes while no timeout is
pending. -/
def NoneLeft (s : Server) : Event → Prop
  | .recv m env =>
      s.refuses m.addr m.port = false → (m.opcode env = 1 ∨ m.opcode env = 2) →
        s.handle = false → s.timeouts = 0
  | .tmr _ => True

instance (s : Server) (e : Event) : Decidable (NoneLeft s e) :=
  Event.casesOn e
    (fun m env => inferInstanceAs (Decidable (s.refuses m.addr m.port = false →
      (m.opcode env = 1 ∨ m.opcode env = 2) → s.handle = false → s.timeouts = 0)))
    (fun _ => .isTrue trivial)

/-! ### What the parts of the server do to the timeouts -/

section Parts

variable {sk : Sketch} {s : Server} {m : Datagram} {env : Env}

/-- The timeouts and the handle are as they were. -/
def SameTimeouts (s s' : Server) : Prop :=
  s'.handle = s.handle ∧ s'.timeouts = s.timeouts ∧ s'.closes = s.closes

lemma Disciplined.of_same {s' : Server} (h : Disciplined s) (hsame : SameTimeouts s s') :
    Disciplined s' := by
  obtain ⟨hhandle, htimeouts, hcloses⟩ := hsame
  exact ⟨htimeouts ▸ h.le_one, fun hs => htimeouts ▸ h.armed (hhandle ▸ hs), hcloses ▸ h.cancelled⟩

lemma Disciplined.closeHandle (h : Disciplined s) : Disciplined (closeHandle s) := by
  have hle := h.le_one
  refine ⟨?_, by rintro ⟨⟩, fun n hn => ?_⟩
  · change s.timeouts - 1 ≤ 1
    omega
  · rcases List.mem_append.mp hn with hn | hn
    · exact h.cancelled n hn
    · rw [List.mem_singleton] at hn
      omega

lemma sendData_cases (sk : Sketch) (s : Server) (env : Env) :
    SameTimeouts s (sendData sk s env) ∨
      ∃ s₁, SameTimeouts s s₁ ∧ sendData sk s env = closeHandle s₁ := by
  simp only [sendData]
  split
  · exact Or.inl ⟨rfl, rfl, rfl⟩
  · split
    · refine Or.inr ⟨_, ?_, rfl⟩
      exact ⟨rfl, rfl, rfl⟩
    · exact Or.inl ⟨rfl, rfl, rfl⟩

lemma recvRequest_cases (sk : Sketch) (m : Datagram) (env : Env) (write : Bool)
    (hhandle : s.handle = false) :
    (recvRequest sk s m env write).timeouts = s.timeouts + 1 ∧
        (recvRequest sk s m env write).closes = s.closes ∨
      ∃ s₁ : Server, s₁.timeouts = s.timeouts + 1 ∧ s₁.closes = s.closes ∧
        recvRequest sk s m env write = closeHandle s₁ := by
  have hrequested := requested_recvRequest sk s m env write
  generalize recvRequest sk s m env write = s' at hrequested ⊢
  cases hrequested with
  | busy h => exact absurd (hhandle.symm.trans h) Bool.false_ne_true
  | refused => exact Or.inl ⟨rfl, rfl⟩
  | upload => exact Or.inl ⟨rfl, rfl⟩
  | @download _ f _ opens =>
    rcases sendData_cases sk (s.begun m f false opens) env with
      ⟨-, htimeouts, hcloses⟩ | ⟨s₁, ⟨-, htimeouts, hcloses⟩, heq⟩
    · exact Or.inl ⟨htimeouts, hcloses⟩
    · exact Or.inr ⟨s₁, htimeouts, hcloses, heq⟩

/-- A request keeps the discipline exactly if no timeout was pending. -/
lemma disciplined_recvRequest_iff (h : Disciplined s) (write : Bool) (hhandle : s.handle = false) :
    Disciplined (recvRequest sk s m env write) ↔ s.timeouts = 0 := by
  rcases recvRequest_cases sk m env write hhandle with
    ⟨htimeouts, hcloses⟩ | ⟨s₁, htimeouts, hcloses, heq⟩
  · constructor
    · intro h'
      have := h'.le_one
      omega
    · intro hzero
      exact ⟨by omega, fun _ => by omega, hcloses ▸ h.cancelled⟩
  · rw [heq]
    constructor
    · intro h'
      have hmem : s₁.timeouts - 1 ∈ (Tftp.closeHandle s₁).closes :=
        List.mem_append_right _ List.mem_cons_self
      have := h'.cancelled _ hmem
      omega
    · intro hzero
      have h₁ : Disciplined s₁ := ⟨by omega, fun _ => by omega, hcloses ▸ h.cancelled⟩
      exact h₁.closeHandle

lemma Disciplined.steady {s' : Server} (hsteady : Steady s s') (h : Disciplined s) :
    Disciplined s' :=
  h.of_same ⟨hsteady.handle, hsteady.timeouts, hsteady.closes⟩

lemma Disciplined.recvData (h : Disciplined s) (blknum : UInt16) :
    Disciplined (recvData sk s m env blknum) :=
  recvData_rule (fun _ _ => Disciplined.steady) (fun _ => Disciplined.closeHandle) h blknum

lemma Disciplined.recvAck (h : Disciplined s) (blknum : UInt16) :
    Disciplined (recvAck sk s m env blknum) :=
  recvAck_rule (fun _ _ => Disciplined.steady) (fun _ => Disciplined.closeHandle) h blknum

lemma Disciplined.tftpTmr (h : Disciplined s) (hpos : s.timeouts ≠ 0) :
    Disciplined (tftpTmr { s with timeouts := s.timeouts - 1 } env) := by
  have hle := h.le_one
  have hone : s.timeouts - 1 + 1 = s.timeouts := by omega
  have hticked := ticked_tftpTmr { s with timeouts := s.timeouts - 1 } env
  generalize Tftp.tftpTmr { s with timeouts := s.timeouts - 1 } env = s' at hticked ⊢
  cases hticked with
  | idle hhandle =>
    refine ⟨?_, fun htrue => absurd (hhandle.symm.trans htrue) Bool.false_ne_true, h.cancelled⟩
    change s.timeouts - 1 ≤ 1
    omega
  | armed => exact h.of_same ⟨rfl, hone, rfl⟩
  | resent => exact h.of_same ⟨rfl, hone, rfl⟩
  | closed =>
    refine Disciplined.closeHandle ?_
    exact h.of_same ⟨rfl, hone, rfl⟩

end Parts

/-! ### Runs -/

/-- An event keeps the discipline exactly if it meets the condition. -/
lemma disciplined_step_iff {sk : Sketch} {s s' : Server} {e : Event} (h : Disciplined s)
    (hstep : step sk s e = some s') : Disciplined s' ↔ NoneLeft s e := by
  cases e with
  | tmr env =>
    simp only [step, Option.ite_none_left_eq_some, Option.some.injEq] at hstep
    obtain ⟨hpos, rfl⟩ := hstep
    exact iff_of_true (h.tftpTmr hpos) trivial
  | recv m env =>
    obtain rfl := Option.some.inj hstep
    by_cases hrefuses : s.refuses m.addr m.port = true
    · refine iff_of_true ?_ fun hnot => absurd (hrefuses.symm.trans hnot) (by simp)
      rw [recv, if_pos hrefuses]
      exact h.of_same ⟨rfl, rfl, rfl⟩
    have hnot : s.refuses m.addr m.port = false := Bool.eq_false_iff.mpr hrefuses
    have hseen : Disciplined { s with lastPkt := s.timer, retries := 0 } :=
      h.of_same ⟨rfl, rfl, rfl⟩
    rw [recv, if_neg hrefuses]
    dsimp only
    change Disciplined (if m.opcode env = 1 ∨ m.opcode env = 2 then _ else _) ↔
      (_ → (m.opcode env = 1 ∨ m.opcode env = 2) → _ → _)
    by_cases hrequest : m.opcode env = 1 ∨ m.opcode env = 2
    · rw [if_pos hrequest]
      by_cases hhandle : s.handle = true
      · refine iff_of_true ?_ fun _ _ h' => absurd (hhandle.symm.trans h') (by simp)
        rw [recvRequest, if_pos hhandle]
        exact hseen.of_same ⟨rfl, rfl, rfl⟩
      · have hidle : s.handle = false := Bool.eq_false_iff.mpr hhandle
        rw [disciplined_recvRequest_iff hseen _ hidle]
        exact ⟨fun hzero _ _ _ => hzero, fun hall => hall hnot hrequest hidle⟩
    · rw [if_neg hrequest]
      refine iff_of_true ?_ fun _ h' => absurd h' hrequest
      split
      · exact hseen.recvData _
      split
      · exact hseen.recvAck _
      · exact hseen.of_same ⟨rfl, rfl, rfl⟩

/-- **The timeouts are disciplined** in every state of a run exactly if every request that is
let through while no transfer is active comes while no timeout is pending. -/
theorem timeouts_disciplined_iff (sk : Sketch) (es : List Event) {t : Server}
    (hrun : exec (step sk) tftpInit es = some t) :
    (∀ es₁ es₂ s, es = es₁ ++ es₂ → exec (step sk) tftpInit es₁ = some s →
      s.timeouts ≤ 1 ∧ (s.handle = true → s.timeouts = 1) ∧ ∀ n ∈ s.closes, n = 0) ↔
      Admits (step sk) NoneLeft tftpInit es := by
  have hinit : Disciplined tftpInit := ⟨by decide, by rintro ⟨⟩, by simp [tftpInit]⟩
  rw [← forall_states_iff_admits (fun _ _ _ hs hstep => disciplined_step_iff hs hstep) hinit hrun]
  refine forall_congr' fun es₁ => forall_congr' fun es₂ => forall_congr' fun s =>
    imp_congr_right fun _ => imp_congr_right fun _ => ?_
  exact ⟨fun ⟨h₁, h₂, h₃⟩ => ⟨h₁, h₂, h₃⟩, fun h => ⟨h.le_one, h.armed, h.cancelled⟩⟩

/-- Every allocation succeeds, and a file with one byte is opened, read and written. -/
def plainEnv : Env := ⟨true, true, true, true, some [7], .got 512, .stored 512, fun _ => 0⟩

/-- A request for the file `a`, in mode `b`, with the given opcode. -/
def requestFor (opcode : UInt8) : Datagram := ⟨[[0, opcode, 97, 0, 98, 0]], 1, 1000⟩

/-- A download of one block: request, a tick, acknowledgement of the only block. -/
theorem timeouts_disciplined_download :
    let es : List Event := [.recv (requestFor 1) plainEnv, .tmr plainEnv,
      .recv ⟨[[0, 4, 0, 1]], 1, 1000⟩ plainEnv]
    ∃ t, exec (step .sd) tftpInit es = some t ∧ t.closes.length = 1 ∧ t.timeouts ≤ 1 ∧
      ∀ n ∈ t.closes, n = 0 := by
  intro es
  have hadmits : Admits (step .sd) NoneLeft tftpInit es := by decide +kernel
  have hcloses : (exec (step .sd) tftpInit es).map (fun t => t.closes.length) = some 1 := by
    decide +kernel
  obtain ⟨t, ht, hlength⟩ := Option.map_eq_some_iff.mp hcloses
  obtain ⟨hle, -, hzero⟩ :=
    (timeouts_disciplined_iff .sd es ht).mpr hadmits es [] t (List.append_nil es).symm ht
  exact ⟨t, ht, hlength, hle, hzero⟩

/-- A request for a missing file and, before its timeout has expired, one for a file of one
byte: two timeouts are pending during the transfer, and `close_handle` leaves one of them. -/
theorem timeouts_pile_up :
    let es : List Event := [.recv (requestFor 1) { plainEnv with opened := none },
      .recv (requestFor 1) plainEnv]
    ∃ s t, exec (step .sd) tftpInit es = some s ∧ s.handle = true ∧ s.timeouts = 2 ∧
      step .sd s (.recv ⟨[[0, 4, 0, 1]], 1, 1000⟩ plainEnv) = some t ∧ t.closes = [1] ∧
      t.timeouts = 1 := by
  intro es
  have hrun : (exec (step .sd) tftpInit es).map (fun s => (s.handle, s.timeouts,
      (step .sd s (.recv ⟨[[0, 4, 0, 1]], 1, 1000⟩ plainEnv)).map
        fun t => (t.closes, t.timeouts))) = some (true, 2, some ([1], 1)) := by
    decide +kernel
  obtain ⟨s, hs, hview⟩ := Option.map_eq_some_iff.mp hrun
  simp only [Prod.mk.injEq] at hview
  obtain ⟨hhandle, htimeouts, hnext⟩ := hview
  obtain ⟨t, ht, hview⟩ := Option.map_eq_some_iff.mp hnext
  rw [Prod.mk.injEq] at hview
  exact ⟨s, t, hs, hhandle, htimeouts, ht, hview.1, hview.2⟩

end Teensy41Ethernet.Tftp
