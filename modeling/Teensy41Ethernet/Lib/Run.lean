import Mathlib.Data.Set.Basic
import Mathlib.Tactic.Common

/-!
# Runs of a step function

A system is a step function `step : σ → ε → Option σ`: the state after an event, or `none`
when the event is not possible in the state (or the program does not survive it).  A run is
the left-to-right execution of a list of events.  This file has the two rules by which
every property of a run is derived from what one step does: the invariant rule, and its
form for runs in which every step meets a side condition on the state it starts from.  At the
end there is a rule for two runs, of which one leaves some events of the other out.
-/

namespace Teensy41Ethernet.Lib

variable {σ ε : Type*} {step : σ → ε → Option σ} {ok : σ → ε → Prop}

/-- The state after a list of events, `none` as soon as one of them is not possible. -/
def exec (step : σ → ε → Option σ) : σ → List ε → Option σ
  | s, [] => some s
  | s, e :: es => (step s e).bind fun s' => exec step s' es

@[simp] lemma exec_nil (s : σ) : exec step s [] = some s := rfl

lemma exec_cons (s : σ) (e : ε) (es : List ε) :
    exec step s (e :: es) = (step s e).bind fun s' => exec step s' es := rfl

lemma exec_cons_eq_some {s t : σ} {e : ε} {es : List ε} :
    exec step s (e :: es) = some t ↔ ∃ s', step s e = some s' ∧ exec step s' es = some t := by
  rw [exec_cons, Option.bind_eq_some_iff]

/-- A run of two parts goes through a state between them. -/
lemma exec_append_eq_some {s t : σ} {es es' : List ε} :
    exec step s (es ++ es') = some t ↔
      ∃ s', exec step s es = some s' ∧ exec step s' es' = some t := by
  induction es generalizing s with
  | nil => simp
  | cons e es ih =>
    rw [List.cons_append, exec_cons, exec_cons, Option.bind_eq_some_iff]
    simp only [ih, Option.bind_eq_some_iff]
    tauto

/-- **The invariant rule.** What every step preserves holds at the end of every run. -/
theorem exec_inv {P : σ → Prop} (hstep : ∀ s e s', P s → step s e = some s' → P s')
    {s t : σ} {es : List ε} (hs : P s) (hrun : exec step s es = some t) : P t := by
  induction es generalizing s with
  | nil =>
    rw [exec_nil, Option.some.injEq] at hrun
    exact hrun ▸ hs
  | cons e es ih =>
    obtain ⟨s', hs', hrest⟩ := exec_cons_eq_some.mp hrun
    exact ih (hstep s e s' hs hs') hrest

/-- Every event of the list meets `ok` in the state in which it happens. -/
def Admits (step : σ → ε → Option σ) (ok : σ → ε → Prop) : σ → List ε → Prop
  | _, [] => True
  | s, e :: es => ok s e ∧ ∀ s', step s e = some s' → Admits step ok s' es

@[simp] lemma admits_nil (s : σ) : Admits step ok s [] := trivial

lemma admits_cons {s : σ} {e : ε} {es : List ε} :
    Admits step ok s (e :: es) ↔
      ok s e ∧ ∀ s', step s e = some s' → Admits step ok s' es := Iff.rfl

/-- A weaker condition. -/
lemma Admits.mono {ok' : σ → ε → Prop} (hok : ∀ s e, ok s e → ok' s e) {s : σ} {es : List ε}
    (h : Admits step ok s es) : Admits step ok' s es := by
  induction es generalizing s with
  | nil => trivial
  | cons e es ih => exact ⟨hok s e h.1, fun s' hs' => ih (h.2 s' hs')⟩

/-- The second part of a run meets the condition if the whole run does. -/
lemma Admits.of_append {s s' : σ} {es es' : List ε} (h : Admits step ok s (es ++ es'))
    (hrun : exec step s es = some s') : Admits step ok s' es' := by
  induction es generalizing s with
  | nil =>
    obtain rfl := Option.some.inj hrun
    exact h
  | cons e es ih =>
    obtain ⟨s₁, hs₁, hrest⟩ := exec_cons_eq_some.mp hrun
    exact ih (h.2 s₁ hs₁) hrest

instance decidableAdmits [∀ s e, Decidable (ok s e)] :
    ∀ (s : σ) (es : List ε), Decidable (Admits step ok s es)
  | _, [] => isTrue trivial
  | s, e :: es =>
      match h : step s e with
      | none =>
          decidable_of_iff (ok s e) ⟨fun hok => ⟨hok, fun s' hs' => by simp [h] at hs'⟩, And.left⟩
      | some s' =>
          have := decidableAdmits s' es
          decidable_of_iff (ok s e ∧ Admits step ok s' es)
            (by rw [admits_cons, h]; simp)

/-- A side condition that does not depend on the state holds along every run of a list of
events that meet it. -/
lemma admits_of_forall {s : σ} {es : List ε} (h : ∀ e ∈ es, ∀ s, ok s e) :
    Admits step ok s es := by
  induction es generalizing s with
  | nil => trivial
  | cons e es ih =>
    exact ⟨h e List.mem_cons_self s, fun s' _ => ih fun e' he' => h e' (List.mem_cons_of_mem e he')⟩

/-- **The invariant rule under a side condition.** What every step that meets the condition
preserves holds at the end of every run whose steps all meet it. -/
theorem exec_inv_of_admits {P : σ → Prop}
    (hstep : ∀ s e s', P s → ok s e → step s e = some s' → P s')
    {s t : σ} {es : List ε} (hs : P s) (hok : Admits step ok s es)
    (hrun : exec step s es = some t) : P t := by
  induction es generalizing s with
  | nil =>
    rw [exec_nil, Option.some.injEq] at hrun
    exact hrun ▸ hs
  | cons e es ih =>
    obtain ⟨s', hs', hrest⟩ := exec_cons_eq_some.mp hrun
    exact ih (hstep s e s' hs hok.1 hs') (hok.2 s' hs') hrest

/-- **The invariant rule, both ways.** If a step preserves `P` exactly when it meets the
condition, `P` holds all along a run exactly when every step of the run meets it. -/
theorem forall_states_iff_admits {P : σ → Prop}
    (hstep : ∀ s e s', P s → step s e = some s' → (P s' ↔ ok s e))
    {s t : σ} {es : List ε} (hs : P s) (hrun : exec step s es = some t) :
    (∀ es₁ es₂ s', es = es₁ ++ es₂ → exec step s es₁ = some s' → P s') ↔ Admits step ok s es := by
  induction es generalizing s with
  | nil =>
    refine iff_of_true (fun es₁ es₂ s' hes hrun' => ?_) trivial
    rw [(List.append_eq_nil_iff.mp hes.symm).1, exec_nil, Option.some.injEq] at hrun'
    exact hrun' ▸ hs
  | cons e es ih =>
    obtain ⟨s₁, hs₁, hrest⟩ := exec_cons_eq_some.mp hrun
    constructor
    · intro hall
      have hP : P s₁ := hall [e] es s₁ rfl (exec_cons_eq_some.mpr ⟨s₁, hs₁, rfl⟩)
      refine ⟨(hstep s e s₁ hs hs₁).mp hP, fun s' hs' => ?_⟩
      obtain rfl := Option.some.inj (hs₁.symm.trans hs')
      refine (ih hP hrest).mp fun es₁ es₂ s' hes hrun' => ?_
      exact hall (e :: es₁) es₂ s' (by rw [hes]; rfl) (exec_cons_eq_some.mpr ⟨s₁, hs₁, hrun'⟩)
    · rintro ⟨hok, hadm⟩ es₁ es₂ s' hes hrun'
      have hP : P s₁ := (hstep s e s₁ hs hs₁).mpr hok
      cases es₁ with
      | nil =>
        rw [exec_nil, Option.some.injEq] at hrun'
        exact hrun' ▸ hs
      | cons e' es₁ =>
        obtain ⟨rfl, htail⟩ := List.cons.inj hes
        obtain ⟨s₂, hs₂, hrest'⟩ := exec_cons_eq_some.mp hrun'
        obtain rfl := Option.some.inj (hs₁.symm.trans hs₂)
        exact (ih hP hrest).mpr (hadm s₁ hs₁) es₁ es₂ s' htail hrest'

/-- **The rule for runs that go through.** If every step that meets the condition is possible
and preserves `P`, a run whose steps all meet it reaches its end. -/
theorem exec_total_of_admits {P : σ → Prop}
    (hstep : ∀ s e, P s → ok s e → ∃ s', step s e = some s' ∧ P s')
    {s : σ} {es : List ε} (hs : P s) (hok : Admits step ok s es) :
    ∃ t, exec step s es = some t ∧ P t := by
  induction es generalizing s with
  | nil => exact ⟨s, rfl, hs⟩
  | cons e es ih =>
    obtain ⟨s', hs', hP⟩ := hstep s e hs hok.1
    obtain ⟨t, hrun, ht⟩ := ih hP (hok.2 s' hs')
    exact ⟨t, exec_cons_eq_some.mpr ⟨s', hs', hrun⟩, ht⟩

/-! ### What has happened in a run -/

section History

variable {ι : Type*}

/-- Some step of the run did `did`. -/
def Happened (step : σ → ε → Option σ) (did : σ → ε → σ → Prop) : σ → List ε → Prop
  | _, [] => False
  | s, e :: es => ∃ s', step s e = some s' ∧ (did s e s' ∨ Happened step did s' es)

/-- **The invariant rule with a history.** The invariant also speaks of the set of those `i`
for which `did i` has happened so far, which each step may enlarge. -/
theorem exec_inv_history {did : ι → σ → ε → σ → Prop} {P : σ → Set ι → Prop}
    (hstep : ∀ s e s' A, P s A → ok s e → step s e = some s' → P s' (A ∪ {i | did i s e s'}))
    {s t : σ} {es : List ε} {A : Set ι} (hs : P s A) (hok : Admits step ok s es)
    (hrun : exec step s es = some t) : P t (A ∪ {i | Happened step (did i) s es}) := by
  induction es generalizing s A with
  | nil =>
    rw [exec_nil, Option.some.injEq] at hrun
    have hnone : A ∪ {i | Happened step (did i) s []} = A := by
      refine Set.union_eq_self_of_subset_right ?_
      rintro i ⟨⟩
    rw [hnone]
    exact hrun ▸ hs
  | cons e es ih =>
    obtain ⟨s', hs', hrest⟩ := exec_cons_eq_some.mp hrun
    have hmore : A ∪ {i | Happened step (did i) s (e :: es)} =
        A ∪ {i | did i s e s'} ∪ {i | Happened step (did i) s' es} := by
      ext i
      simp only [Happened, hs', Option.some.injEq, exists_eq_left', Set.mem_union,
        Set.mem_ofPred_eq, or_assoc]
    rw [hmore]
    exact ih (hstep s e s' A hs hok.1 hs') (hok.2 s' hs') hrest

end History

/-! ### What an observer sees of a run -/

section Trace

variable {τ δ ω : Type*} {step' : τ → δ → Option τ} {obs : σ → ε → σ → Option ω}
  {obs' : τ → δ → τ → Option ω}

/-- What an observer sees of a run, if `obs` is what there is to see of one step. -/
def trace (step : σ → ε → Option σ) (obs : σ → ε → σ → Option ω) : σ → List ε → List ω
  | _, [] => []
  | s, e :: es =>
      match step s e with
      | none => []
      | some s' => (obs s e s').toList ++ trace step obs s' es

lemma trace_cons {s s' : σ} {e : ε} (hs' : step s e = some s') (es : List ε) :
    trace step obs s (e :: es) = (obs s e s').toList ++ trace step obs s' es := by
  rw [trace, hs']

/-- **The invariant rule with an observer.**  The invariant also speaks of what has been seen so
far. -/
theorem exec_inv_trace {P : σ → List ω → Prop}
    (hstep : ∀ s e s' l, P s l → ok s e → step s e = some s' → P s' (l ++ (obs s e s').toList))
    {s t : σ} {es : List ε} {l : List ω} (hs : P s l) (hok : Admits step ok s es)
    (hrun : exec step s es = some t) : P t (l ++ trace step obs s es) := by
  induction es generalizing s l with
  | nil =>
    obtain rfl := Option.some.inj hrun
    rw [trace, List.append_nil]
    exact hs
  | cons e es ih =>
    obtain ⟨s', hs', hrest⟩ := exec_cons_eq_some.mp hrun
    rw [trace_cons hs', ← List.append_assoc]
    exact ih (hstep s e s' l hs hok.1 hs') (hok.2 s' hs') hrest

/-- **The rule for two runs.**  The second run leaves out the events without an image under
`proj`.  If steps with these events show nothing and keep the states related, and if steps
with the others show the same on both sides and keep them related, then the runs show the
same. -/
theorem trace_eq_of_unwinding {R : σ → τ → Prop} {proj : ε → Option δ}
    (hhidden : ∀ s e s' t, R s t → ok s e → proj e = none → step s e = some s' →
      obs s e s' = none ∧ R s' t)
    (hseen : ∀ s e s' t d t', R s t → proj e = some d → step s e = some s' →
      step' t d = some t' → obs s e s' = obs' t d t' ∧ R s' t')
    {es : List ε} : ∀ {s s' : σ} {t t' : τ}, R s t → Admits step ok s es →
      exec step s es = some s' → exec step' t (es.filterMap proj) = some t' →
      trace step obs s es = trace step' obs' t (es.filterMap proj) := by
  induction es with
  | nil =>
    intro s s' t t' _ _ _ _
    rfl
  | cons e es ih =>
    intro s s' t t' hR hok hrun hrun'
    obtain ⟨s₁, hs₁, hrest⟩ := exec_cons_eq_some.mp hrun
    cases hproj : proj e with
    | none =>
      obtain ⟨hnone, hR₁⟩ := hhidden s e s₁ t hR hok.1 hproj hs₁
      rw [List.filterMap_cons, hproj] at hrun' ⊢
      rw [trace_cons hs₁, hnone, Option.toList_none, List.nil_append]
      exact ih hR₁ (hok.2 s₁ hs₁) hrest hrun'
    | some d =>
      rw [List.filterMap_cons, hproj] at hrun' ⊢
      obtain ⟨t₁, ht₁, hrest'⟩ := exec_cons_eq_some.mp hrun'
      obtain ⟨hobs, hR₁⟩ := hseen s e s₁ t d t₁ hR hproj hs₁ ht₁
      rw [trace_cons hs₁, trace_cons ht₁, hobs, ih hR₁ (hok.2 s₁ hs₁) hrest hrest']

end Trace

end Teensy41Ethernet.Lib
