import Teensy41Ethernet.Lib.TakeWhile
import Teensy41Ethernet.Ftpd.Deeds

/-!
# The argument of `PORT`

The argument of `PORT` is an address and a port: six decimal numbers of at most 255 with commas
between them.  `cmd_port` reads it with `sscanf`, which takes more: white space and a sign before
each number, numbers of any size, and anything behind the last one.  This file finds the texts that
`sscanf` takes, and with them the arguments on which `cmd_port` does what it is for: those that have
the right form, and those that have not even the form that `sscanf` takes.
-/

namespace Teensy41Ethernet.Ftpd

open Lib

/-! ### The two forms -/

/-- A text of digits. -/
def IsNumber (f : Str) : Prop := f ≠ [] ∧ ∀ c ∈ f, isDigit c = true

instance : DecidablePred IsNumber := fun f =>
  inferInstanceAs (Decidable (f ≠ [] ∧ ∀ c ∈ f, isDigit c = true))

/-- The number that the digits denote. -/
def number (f : Str) : ℕ := f.foldl (fun v c => v * 10 + (c.toNat - 48)) 0

/-- The argument is six numbers of at most 255 with commas between them, with the given values. -/
def PortArg (a : Str) (vs : List ℕ) : Prop :=
  ∃ fields : List Str, fields.length = 6 ∧ a = [44].intercalate fields ∧
    (∀ f ∈ fields, IsNumber f ∧ number f ≤ 255) ∧ vs = fields.map number

/-- What `%u` takes: white space, perhaps a sign, and digits. -/
def LooseNumber (f : Str) : Prop :=
  ∃ blanks sign ds, f = blanks ++ (sign ++ ds) ∧ (∀ c ∈ blanks, isSpace c = true) ∧
    (sign = [] ∨ sign = [43] ∨ sign = [45]) ∧ IsNumber ds

/-- The text does not go on with a digit. -/
def EndsNumber (rest : Str) : Prop := ∀ c ∈ rest.head?, isDigit c = false

/-- What `sscanf` takes: six such numbers with commas between them, and anything behind the last
one. -/
def LoosePortArg (a : Str) : Prop :=
  ∃ (fields : List Str) (rest : Str), fields.length = 6 ∧ (∀ f ∈ fields, LooseNumber f) ∧
    EndsNumber rest ∧ a = [44].intercalate fields ++ rest

/-! ### One number -/

/-- One conversion reads the text and finds the value. -/
def ScansTo (f : Str) (v : ℕ) : Prop := ∀ rest, EndsNumber rest → scanU (f ++ rest) = some (v, rest)

/-- The value of `%u` for digits, perhaps behind a minus sign. -/
def scanned (neg : Prop) [Decidable neg] (ds : Str) : ℕ :=
  let value := if number ds < 2 ^ 32 then number ds else 2 ^ 32 - 1
  if neg then (2 ^ 32 - value) % 2 ^ 32 else value

/-- A text without the sign at its start. -/
def skipSign (t : Str) : Str := if t.head? = some 45 ∨ t.head? = some 43 then t.tail else t

lemma not_isSpace_of_isDigit {c : UInt8} (h : isDigit c = true) : isSpace c = false := by
  simp only [isDigit, isSpace, decide_eq_true_eq, decide_eq_false_iff_not] at *
  grind

lemma ne_sign_of_isDigit {c : UInt8} (h : isDigit c = true) : c ≠ 45 ∧ c ≠ 43 := by
  simp only [isDigit, decide_eq_true_eq] at h
  grind

/-- A conversion reads the digits behind white space and a sign. -/
lemma scanU_eq {t t₁ ds rest : Str} (ht₁ : t.dropWhile isSpace = t₁)
    (hds : skipSign t₁ = ds ++ rest) (hnum : IsNumber ds) (hrest : EndsNumber rest) :
    scanU t = some (scanned (t₁.head? = some 45) ds, rest) := by
  rw [skipSign] at hds
  simp only [scanU, ht₁, hds, takeWhile_append_eq_left hnum.2 hrest, if_neg hnum.1, List.drop_left]
  rfl

lemma scansTo_of_blanks {blanks sign ds : Str} (hblanks : ∀ c ∈ blanks, isSpace c = true)
    (hsign : sign = [] ∨ sign = [43] ∨ sign = [45]) (hds : IsNumber ds) :
    ScansTo (blanks ++ (sign ++ ds)) (scanned (sign = [45]) ds) := by
  intro rest hrest
  rw [List.append_assoc, List.append_assoc]
  rcases hsign with rfl | rfl | rfl
  · obtain ⟨d, ds', rfl⟩ := List.exists_cons_of_ne_nil hds.1
    have hd : isDigit d = true := hds.2 d List.mem_cons_self
    obtain ⟨hminus, hplus⟩ := ne_sign_of_isDigit hd
    have hskip : skipSign (d :: (ds' ++ rest)) = d :: ds' ++ rest := by
      rw [skipSign, if_neg (by simp [hminus, hplus])]
      rfl
    have hblank := head_cons (not_isSpace_of_isDigit hd) (ds' ++ rest)
    refine (scanU_eq (dropWhile_append_eq_right hblanks hblank) hskip hds hrest).trans ?_
    simp [scanned, hminus]
  · exact scanU_eq (dropWhile_append_eq_right hblanks (head_cons rfl (ds ++ rest))) rfl hds hrest
  · exact scanU_eq (dropWhile_append_eq_right hblanks (head_cons rfl (ds ++ rest))) rfl hds hrest

lemma LooseNumber.scansTo {f : Str} (h : LooseNumber f) : ∃ v, ScansTo f v := by
  obtain ⟨blanks, sign, ds, rfl, hblanks, hsign, hds⟩ := h
  exact ⟨_, scansTo_of_blanks hblanks hsign hds⟩

/-- A number that fits is read as it is. -/
lemma IsNumber.scansTo {f : Str} (h : IsNumber f) (hfits : number f ≤ 255) :
    ScansTo f (number f) := by
  have hscan : ScansTo f (scanned (([] : Str) = [45]) f) :=
    scansTo_of_blanks (fun c hc => absurd hc List.not_mem_nil) (Or.inl rfl) h
  rwa [scanned, if_neg (by decide), if_pos (by omega)] at hscan

lemma exists_sign (t : Str) :
    ∃ sign, (sign = [] ∨ sign = [43] ∨ sign = [45]) ∧ t = sign ++ skipSign t := by
  rw [skipSign]
  split
  · next h =>
    cases t with
    | nil => simp at h
    | cons c t =>
      rcases h with h | h
      · exact ⟨[45], by simp, by rw [← Option.some.inj h]; rfl⟩
      · exact ⟨[43], by simp, by rw [← Option.some.inj h]; rfl⟩
  · exact ⟨[], Or.inl rfl, rfl⟩

/-- What a conversion reads is a number in the loose form. -/
lemma scanU_eq_some {t rest : Str} {v : ℕ} (h : scanU t = some (v, rest)) :
    ∃ f, LooseNumber f ∧ EndsNumber rest ∧ t = f ++ rest := by
  obtain ⟨sign, hsign, ht⟩ := exists_sign (t.dropWhile isSpace)
  have hrest : (skipSign (t.dropWhile isSpace)).takeWhile isDigit ≠ [] ∧
      rest = (skipSign (t.dropWhile isSpace)).dropWhile isDigit := by
    rw [← drop_length_takeWhile (p := isDigit)]
    simp only [scanU, ← skipSign.eq_1] at h
    split at h
    · cases h
    · next hne => exact ⟨hne, (Prod.mk.inj (Option.some.inj h)).2.symm⟩
  obtain ⟨hne, rfl⟩ := hrest
  refine ⟨t.takeWhile isSpace ++ (sign ++ (skipSign (t.dropWhile isSpace)).takeWhile isDigit),
    ⟨_, sign, _, rfl, fun c hc => List.mem_takeWhile_imp hc, hsign, hne,
      fun c hc => List.mem_takeWhile_imp hc⟩, head_dropWhile _, ?_⟩
  rw [List.append_assoc, List.append_assoc, List.takeWhile_append_dropWhile, ← ht,
    List.takeWhile_append_dropWhile]

/-! ### Six numbers -/

/-- Fields, each behind a comma. -/
def commas (fields : List Str) : Str := (fields.map (44 :: ·)).flatten

lemma intercalate_eq (f : Str) (fields : List Str) :
    [44].intercalate (f :: fields) = f ++ commas fields := by
  induction fields generalizing f with
  | nil => rw [List.intercalate_singleton, commas, List.map_nil, List.flatten_nil, List.append_nil]
  | cons g fields ih =>
    rw [List.intercalate_cons_cons, ih, List.append_assoc]
    rfl

lemma EndsNumber.commas_append {rest : Str} (hrest : EndsNumber rest) (fields : List Str) :
    EndsNumber (commas fields ++ rest) := by
  cases fields with
  | nil => exact hrest
  | cons f fields => exact head_cons rfl _

lemma scanMore_fields {fields : List Str} {value : Str → ℕ}
    (hfields : ∀ f ∈ fields, ScansTo f (value f)) {rest : Str} (hrest : EndsNumber rest) :
    scanMore fields.length (commas fields ++ rest) = some (fields.map value) := by
  induction fields with
  | nil => rfl
  | cons f fields ih =>
    have hf := hfields f List.mem_cons_self _ (hrest.commas_append fields)
    have hmore := ih fun g hg => hfields g (List.mem_cons_of_mem f hg)
    have hsplit : commas (f :: fields) ++ rest = 44 :: (f ++ (commas fields ++ rest)) := by
      simp [commas]
    rw [List.length_cons, hsplit, scanMore, hf, Option.bind_some, hmore, Option.map_some,
      List.map_cons]

/-- Six fields that a conversion reads. -/
lemma scanPort_fields {fields : List Str} {value : Str → ℕ} (hlen : fields.length = 6)
    (hfields : ∀ f ∈ fields, ScansTo f (value f)) {rest : Str} (hrest : EndsNumber rest) :
    scanPort ([44].intercalate fields ++ rest) = some (fields.map value) := by
  obtain ⟨f, fields, rfl⟩ := List.exists_cons_of_length_eq_add_one hlen
  have hlen' : fields.length = 5 := Nat.succ.inj hlen
  have hf := hfields f List.mem_cons_self _ (hrest.commas_append fields)
  have hmore := scanMore_fields (fun g hg => hfields g (List.mem_cons_of_mem f hg)) hrest
  rw [hlen'] at hmore
  rw [intercalate_eq, List.append_assoc, scanPort, hf, Option.bind_some, hmore, Option.map_some,
    List.map_cons]

lemma scanMore_eq_some {n : ℕ} {t : Str} {vs : List ℕ} (h : scanMore n t = some vs)
    (ht : EndsNumber t) :
    vs.length = n ∧ ∃ fields rest, fields.length = n ∧ (∀ f ∈ fields, LooseNumber f) ∧
      EndsNumber rest ∧ t = commas fields ++ rest := by
  induction n generalizing t vs with
  | zero =>
    obtain rfl : [] = vs := Option.some.inj h
    exact ⟨rfl, [], t, rfl, fun f hf => absurd hf List.not_mem_nil, ht, rfl⟩
  | succ n ih =>
    unfold scanMore at h
    split at h
    · next t =>
      obtain ⟨⟨v, t₁⟩, hscan, hmore⟩ := Option.bind_eq_some_iff.mp h
      obtain ⟨vs, hvs, rfl⟩ := Option.map_eq_some_iff.mp hmore
      obtain ⟨f, hf, hends, rfl⟩ := scanU_eq_some hscan
      obtain ⟨hlen, fields, rest, hfields, hloose, hrest, rfl⟩ := ih hvs hends
      refine ⟨by rw [List.length_cons, hlen], f :: fields, rest, by rw [List.length_cons, hfields],
        fun g hg => ?_, hrest, by simp [commas]⟩
      rcases List.mem_cons.mp hg with rfl | hg
      · exact hf
      · exact hloose g hg
    · cases h

lemma scanPort_eq_some {a : Str} {vs : List ℕ} (h : scanPort a = some vs) :
    vs.length = 6 ∧ LoosePortArg a := by
  obtain ⟨⟨v, t⟩, hscan, hmore⟩ := Option.bind_eq_some_iff.mp h
  obtain ⟨vs, hvs, rfl⟩ := Option.map_eq_some_iff.mp hmore
  obtain ⟨f, hf, hends, rfl⟩ := scanU_eq_some hscan
  obtain ⟨hlen, fields, rest, hfields, hloose, hrest, rfl⟩ := scanMore_eq_some hvs hends
  refine ⟨by rw [List.length_cons, hlen], f :: fields, rest, by rw [List.length_cons, hfields],
    fun g hg => ?_, hrest, by rw [intercalate_eq, List.append_assoc]⟩
  rcases List.mem_cons.mp hg with rfl | hg
  · exact hf
  · exact hloose g hg

/-- **`sscanf` takes exactly the loose form.** -/
theorem scanPort_isSome_iff (a : Str) : (scanPort a).isSome ↔ LoosePortArg a := by
  constructor
  · intro h
    obtain ⟨vs, hvs⟩ := Option.isSome_iff_exists.mp h
    exact (scanPort_eq_some hvs).2
  · rintro ⟨fields, rest, hlen, hloose, hrest, rfl⟩
    have hvalue : ∀ f, ∃ v, LooseNumber f → ScansTo f v := fun f => by
      by_cases hf : LooseNumber f
      · exact hf.scansTo.imp fun v hv _ => hv
      · exact ⟨0, fun h => absurd h hf⟩
    choose value hvalue using hvalue
    rw [scanPort_fields hlen (fun f hf => hvalue f (hloose f hf)) hrest]
    rfl

/-- The values of an argument in the right form. -/
lemma PortArg.scanPort {a : Str} {vs : List ℕ} (h : PortArg a vs) : scanPort a = some vs := by
  obtain ⟨fields, hlen, rfl, hfields, rfl⟩ := h
  have hnil : EndsNumber [] := fun c hc => (by cases hc)
  have hscan := scanPort_fields hlen (fun f hf => (hfields f hf).1.scansTo (hfields f hf).2) hnil
  rwa [List.append_nil] at hscan

lemma PortArg.le {a : Str} {vs : List ℕ} (h : PortArg a vs) : ∀ v ∈ vs, v ≤ 255 := by
  obtain ⟨fields, -, -, hfields, rfl⟩ := h
  intro v hv
  obtain ⟨f, hf, rfl⟩ := List.mem_map.mp hv
  exact (hfields f hf).2

/-! ### What `PORT` does -/

/-- `PORT` sets address and port from an argument in the right form and answers 200, and refuses
every other argument with 501. -/
def PortParses (a : Str) (env : Env) (s : Sys) : Prop :=
  ∃ m s' m', s.fsm = some m ∧ (cmdPort (some a) env).run s = .ok ((), s') ∧ s'.fsm = some m' ∧
    (∀ i₀ i₁ i₂ i₃ p₁ p₂, PortArg a [i₀, i₁, i₂, i₃, p₁, p₂] →
      replies s'.log = replies s.log ++ [msg200] ∧
        m'.dataip.map UInt8.toNat = [i₀, i₁, i₂, i₃] ∧ m'.dataport.toNat = 256 * p₁ + p₂) ∧
    ((∀ vs, ¬ PortArg a vs) → replies s'.log = replies s.log ++ [msg501] ∧
      m'.dataip = m.dataip ∧ m'.dataport = m.dataport)

section

variable {s : Sys} {m : MsgState} {a : Str}

lemma cmdPort_refuses (hm : s.fsm = some m) (env : Env) (h : scanPort a = none) :
    ∃ fifo log, replies log = replies s.log ++ [msg501] ∧
      (cmdPort (some a) env).run s =
        .ok ((), { s with fsm := some { m with fifo := fifo }, log := log }) := by
  have hprog : cmdPort (some a) env = sendMsg env.msg₁ msg501 := by
    simp only [cmdPort, checkStr, pure_bind, h]
  obtain ⟨_, s', hrun, fifo, log, hlog, rfl⟩ := wp_returns (sendMsg_replies hm env.msg₁
    (fixedReplies_short msg501 (by simp [fixedReplies])))
  exact ⟨fifo, log, hlog, hprog ▸ hrun⟩

lemma cmdPort_accepts (hm : s.fsm = some m) (env : Env) {i₀ i₁ i₂ i₃ pHi pLo : ℕ}
    (h : scanPort a = some [i₀, i₁, i₂, i₃, pHi, pLo]) :
    ∃ fifo log, replies log = replies s.log ++ [msg200] ∧
      (cmdPort (some a) env).run s = .ok ((), { s with
        fsm := some { m with
          dataip := [UInt8.ofNat i₀, UInt8.ofNat i₁, UInt8.ofNat i₂, UInt8.ofNat i₃]
          dataport := (UInt16.ofNat pHi <<< 8) ||| UInt16.ofNat pLo
          fifo := fifo }
        log := log }) := by
  have hwp : wp (cmdPort (some a) env) (fun _ s' => ∃ fifo log,
      replies log = replies s.log ++ [msg200] ∧ s' = { s with
        fsm := some { m with
          dataip := [UInt8.ofNat i₀, UInt8.ofNat i₁, UInt8.ofNat i₂, UInt8.ofNat i₃]
          dataport := (UInt16.ofNat pHi <<< 8) ||| UInt16.ofNat pLo
          fifo := fifo }
        log := log }) (fun _ => False) s := by
    simp only [cmdPort, checkStr, pure_bind, h]
    rw [wp_bind, wp_setMsg_of hm]
    exact wp_mono (sendMsg_replies rfl env.msg₁
      (fixedReplies_short msg200 (by simp [fixedReplies]))) (fun _ _ h => h) fun _ h => h
  obtain ⟨_, s', hrun, fifo, log, hlog, rfl⟩ := wp_returns hwp
  exact ⟨fifo, log, hlog, hrun⟩

/-- Two bytes make a port. -/
lemma toNat_port {pHi pLo : ℕ} (hHi : pHi ≤ 255) (hLo : pLo ≤ 255) :
    ((UInt16.ofNat pHi <<< 8) ||| UInt16.ofNat pLo).toNat = 256 * pHi + pLo := by
  have hlo : (UInt16.ofNat pLo).toNat = pLo := UInt16.toNat_ofNat_of_lt' (hLo.trans_lt (by decide))
  have hhi : (UInt16.ofNat pHi <<< 8).toNat = pHi <<< 8 := by
    rw [UInt16.toNat_shiftLeft, UInt16.toNat_ofNat_of_lt' (hHi.trans_lt (by decide))]
    change pHi <<< 8 % 65536 = pHi <<< 8
    rw [Nat.shiftLeft_eq]
    omega
  rw [UInt16.toNat_or, hhi, hlo, ← Nat.shiftLeft_add_eq_or_of_lt (by omega), Nat.shiftLeft_eq]
  omega

/-- **`PORT` parses its argument exactly if** it has the right form or not even the loose one. -/
theorem portParses_iff (hm : s.fsm = some m) (a : Str) (env : Env) :
    PortParses a env s ↔ (∃ vs, PortArg a vs) ∨ ¬ LoosePortArg a := by
  rw [← scanPort_isSome_iff, Bool.not_eq_true, Option.isSome_eq_false_iff,
    Option.isNone_iff_eq_none]
  constructor
  · rintro ⟨m₁, s', m', -, hrun, -, -, hrefuses⟩
    by_contra hno
    rw [not_or, not_exists] at hno
    -- `sscanf` takes the argument, and the answer is 200
    obtain ⟨vs, hvs⟩ := Option.ne_none_iff_exists'.mp hno.2
    match vs, (scanPort_eq_some hvs).1 with
    | [i₀, i₁, i₂, i₃, pHi, pLo], _ =>
      obtain ⟨fifo, log, hlog, hrun'⟩ := cmdPort_accepts hm env hvs
      rw [hrun'] at hrun
      cases hrun
      have hreply := (hrefuses hno.1).1
      rw [hlog] at hreply
      exact absurd (List.append_cancel_left hreply) (by decide)
  · rintro (⟨vs, hvs⟩ | hnone)
    · have hscan := hvs.scanPort
      match vs, (scanPort_eq_some hscan).1 with
      | [i₀, i₁, i₂, i₃, pHi, pLo], _ =>
        obtain ⟨fifo, log, hlog, hrun⟩ := cmdPort_accepts hm env hscan
        refine ⟨m, _, _, hm, hrun, rfl, ?_, fun hno => absurd hvs (hno _)⟩
        intro j₀ j₁ j₂ j₃ p₁ p₂ hvs'
        rw [hvs'.scanPort] at hscan
        cases hscan
        have hle := hvs.le
        simp only [List.forall_mem_cons] at hle
        obtain ⟨h₀, h₁, h₂, h₃, hHi, hLo, -⟩ := hle
        refine ⟨hlog, ?_, toNat_port hHi hLo⟩
        have hbyte : ∀ {i : ℕ}, i ≤ 255 → (UInt8.ofNat i).toNat = i := fun hi =>
          UInt8.toNat_ofNat_of_lt' (hi.trans_lt (by decide))
        simp only [List.map_cons, List.map_nil, hbyte h₀, hbyte h₁, hbyte h₂, hbyte h₃]
    · obtain ⟨fifo, log, hlog, hrun⟩ := cmdPort_refuses hm env hnone
      refine ⟨m, _, _, hm, hrun, rfl, ?_, fun _ => ⟨hlog, rfl, rfl⟩⟩
      intro i₀ i₁ i₂ i₃ p₁ p₂ hvs
      rw [hvs.scanPort] at hnone
      cases hnone

end

theorem portParses_localhost : PortParses (lit "127,0,0,1,4,210") calm session := by
  obtain ⟨m, hm⟩ := exists_fsm_session
  exact (portParses_iff hm _ calm).mpr (Or.inl ⟨[127, 0, 0, 1, 4, 210], [lit "127", lit "0",
    lit "0", lit "1", lit "4", lit "210"], rfl, by decide, by decide +kernel, by decide⟩)

/-- A number above 255 is cut to a byte in the address, and runs into the other byte of the port;
the answer is 200. -/
theorem port_takes_large_numbers :
    (∀ vs, ¬ PortArg (lit "257,2,3,4,4,256") vs) ∧
    ((cmdPort (some (lit "257,2,3,4,4,256")) calm).run session).toOption.map
        (fun r => (replies r.2.log, r.2.fsm.map fun m => (m.dataip, m.dataport))) =
      some (replies session.log ++ [msg200], some ([1, 2, 3, 4], 1280)) ∧
    ¬ PortParses (lit "257,2,3,4,4,256") calm session := by
  have hno : ∀ vs, ¬ PortArg (lit "257,2,3,4,4,256") vs := by
    intro vs hvs
    have hscan : some vs = some [257, 2, 3, 4, 4, 256] := hvs.scanPort.symm.trans (by decide)
    exact absurd (hvs.le 257 (by rw [Option.some.inj hscan]; decide)) (by decide)
  have hrun : ((cmdPort (some (lit "257,2,3,4,4,256")) calm).run session).toOption.map
      (fun r => (replies r.2.log, r.2.fsm.map fun m => (m.dataip, m.dataport))) =
      some (replies session.log ++ [msg200], some ([1, 2, 3, 4], 1280)) := by decide +kernel
  refine ⟨hno, hrun, ?_⟩
  rintro ⟨m, s', m', -, hrun', -, -, hrefuses⟩
  rw [hrun'] at hrun
  have hreply := (hrefuses hno).1
  rw [(Prod.mk.inj (Option.some.inj hrun)).1] at hreply
  exact absurd (List.append_cancel_left hreply) (by decide)

end Teensy41Ethernet.Ftpd
