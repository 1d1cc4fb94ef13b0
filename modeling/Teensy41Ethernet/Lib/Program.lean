import Mathlib.Tactic.Common

/-!
# Programs with state and faults

A C function that works on shared objects is a program `Prog σ φ α`: it changes a state, and
it returns a value or stops with a fault, such as the use of a null pointer.  What a program
does is derived backwards: `wp m Q E s` says that `m`, started in `s`, returns with `Q` or
stops with a fault in `E`.  There is one rule for each way to build a program; with the
rules as rewrite lemmas, `simp` turns a statement about a program into a statement about
the state it starts from.
-/

namespace Teensy41Ethernet.Lib

universe u

/-- A program over states `σ` with faults `φ`. -/
abbrev Prog (σ φ α : Type u) := StateT σ (Except φ) α

variable {σ φ α β : Type u}

/-- From `s`, the program returns with `Q` or stops with a fault in `E`. -/
def wp (m : Prog σ φ α) (Q : α → σ → Prop) (E : φ → Prop) (s : σ) : Prop :=
  match m.run s with
  | .ok (a, s') => Q a s'
  | .error e => E e

variable {m : Prog σ φ α} {f : α → Prog σ φ β} {Q Q' : α → σ → Prop} {R : β → σ → Prop}
  {E E' : φ → Prop} {s : σ}

@[simp] lemma wp_pure (a : α) : wp (pure a : Prog σ φ α) Q E s ↔ Q a s := Iff.rfl

@[simp] lemma wp_bind : wp (m >>= f) R E s ↔ wp m (fun a s' => wp (f a) R E s') E s := by
  unfold wp
  rw [StateT.run_bind]
  cases m.run s with
  | error e => rfl
  | ok r => rfl

@[simp] lemma wp_map (g : α → β) : wp (g <$> m) R E s ↔ wp m (fun a s' => R (g a) s') E s := by
  unfold wp
  rw [StateT.run_map]
  cases m.run s with
  | error e => rfl
  | ok r => rfl

@[simp] lemma wp_get {Q : σ → σ → Prop} : wp (get : Prog σ φ σ) Q E s ↔ Q s s := Iff.rfl

@[simp] lemma wp_set {Q : PUnit → σ → Prop} (s' : σ) :
    wp (set s' : Prog σ φ PUnit) Q E s ↔ Q ⟨⟩ s' := Iff.rfl

@[simp] lemma wp_modify {Q : PUnit → σ → Prop} (g : σ → σ) :
    wp (modify g : Prog σ φ PUnit) Q E s ↔ Q ⟨⟩ (g s) := Iff.rfl

@[simp] lemma wp_throw (e : φ) : wp (throw e : Prog σ φ α) Q E s ↔ E e := Iff.rfl

@[simp] lemma wp_ite (c : Prop) [Decidable c] (m₁ m₂ : Prog σ φ α) :
    wp (if c then m₁ else m₂) Q E s ↔ (c → wp m₁ Q E s) ∧ (¬ c → wp m₂ Q E s) := by
  by_cases h : c
  · simp [h]
  · simp [h]

/-- The rule of consequence. -/
lemma wp_mono (hm : wp m Q E s) (hQ : ∀ a s', Q a s' → Q' a s') (hE : ∀ e, E e → E' e) :
    wp m Q' E' s := by
  unfold wp at hm ⊢
  cases hr : m.run s with
  | error e =>
    rw [hr] at hm
    exact hE e hm
  | ok r =>
    rw [hr] at hm
    exact hQ r.1 r.2 hm

/-- Two results of one program, with the faults of the first. -/
lemma wp_and (hm : wp m Q E s) (hm' : wp m Q' E' s) : wp m (fun a s' => Q a s' ∧ Q' a s') E s := by
  unfold wp at hm hm' ⊢
  cases hr : m.run s with
  | error e =>
    rw [hr] at hm
    exact hm
  | ok r =>
    rw [hr] at hm hm'
    exact ⟨hm, hm'⟩

/-- What a returning run shows. -/
lemma wp_ok (hm : wp m Q E s) {a : α} {s' : σ} (hr : m.run s = .ok (a, s')) : Q a s' := by
  unfold wp at hm
  rwa [hr] at hm

/-- What a faulty run shows. -/
lemma wp_error (hm : wp m Q E s) {e : φ} (hr : m.run s = .error e) : E e := by
  unfold wp at hm
  rwa [hr] at hm

/-- A program without faults returns. -/
lemma wp_returns (hm : wp m Q (fun _ => False) s) : ∃ a s', m.run s = .ok (a, s') ∧ Q a s' := by
  cases hr : m.run s with
  | error e => exact (wp_error hm hr).elim
  | ok r => exact ⟨r.1, r.2, rfl, wp_ok hm hr⟩

/-- A program without results fails. -/
lemma wp_fails (hm : wp m (fun _ _ => False) E s) : ∃ e, m.run s = .error e ∧ E e := by
  cases hr : m.run s with
  | error e => exact ⟨e, rfl, wp_error hm hr⟩
  | ok r => exact (wp_ok hm hr).elim

/-- The rule of sequence, for a first part whose effect is known. -/
lemma wp_seq (hm : wp m Q E s) (hf : ∀ a s', Q a s' → wp (f a) R E s') :
    wp (m >>= f) R E s :=
  wp_bind.mpr (wp_mono hm hf fun _ he => he)

/-! ### Programs that leave a view of the state as it is -/

section Keeps

variable {ν : Type*} {v : σ → ν}

/-- What `v` shows of the state does not change, and the faults are in `E`. -/
def Keeps (v : σ → ν) (E : φ → Prop) (m : Prog σ φ α) : Prop :=
  ∀ s, wp m (fun _ s' => v s' = v s) E s

lemma keeps_pure (a : α) : Keeps v E (pure a : Prog σ φ α) := fun _ => rfl

lemma keeps_get : Keeps v E (get : Prog σ φ σ) := fun _ => rfl

lemma keeps_throw {e : φ} (he : E e) : Keeps v E (throw e : Prog σ φ α) := fun _ => he

lemma keeps_modify {g : σ → σ} (hg : ∀ s, v (g s) = v s) :
    Keeps v E (modify g : Prog σ φ PUnit) := hg

/-- What is kept set aside: the faults of the program are in the set. -/
lemma Keeps.faults (hm : Keeps v E m) : wp m (fun _ _ => True) E s :=
  wp_mono (hm s) (fun _ _ _ => trivial) fun _ he => he

/-- A first part that leaves the view as it is. -/
lemma Keeps.wp_seq (hm : Keeps v E m) (hf : ∀ a s', v s' = v s → wp (f a) R E s') :
    wp (m >>= f) R E s :=
  Lib.wp_seq (hm s) hf

lemma Keeps.bind (hm : Keeps v E m) (hf : ∀ a, Keeps v E (f a)) : Keeps v E (m >>= f) := by
  intro s
  refine hm.wp_seq fun a s' hs' => ?_
  exact wp_mono (hf a s') (fun b s'' hs'' => hs''.trans hs') fun _ he => he

lemma keeps_ite {c : Prop} [Decidable c] {m₁ m₂ : Prog σ φ α} (h₁ : Keeps v E m₁)
    (h₂ : Keeps v E m₂) : Keeps v E (if c then m₁ else m₂) := by
  split
  · exact h₁
  · exact h₂

end Keeps

/-! ### Programs that keep a property of the state -/

section Safe

variable {P : σ → Prop}

/-- From a state with `P` the program returns to one, or stops with a fault in `E`. -/
def Safe (P : σ → Prop) (E : φ → Prop) (m : Prog σ φ α) : Prop :=
  ∀ s, P s → wp m (fun _ s' => P s') E s

lemma safe_pure (a : α) : Safe P E (pure a : Prog σ φ α) := fun _ hs => hs

lemma safe_get : Safe P E (get : Prog σ φ σ) := fun _ hs => hs

lemma safe_throw {e : φ} (he : E e) : Safe P E (throw e : Prog σ φ α) := fun _ _ => he

/-- What the state is afterwards set aside. -/
lemma Safe.ends (hm : Safe P E m) (hs : P s) : wp m (fun _ _ => True) E s :=
  wp_mono (hm s hs) (fun _ _ _ => trivial) fun _ he => he

/-- A first part that keeps the property. -/
lemma Safe.wp_seq (hm : Safe P E m) (hs : P s) (hf : ∀ a s', P s' → wp (f a) R E s') :
    wp (m >>= f) R E s :=
  Lib.wp_seq (hm s hs) hf

lemma Safe.bind (hm : Safe P E m) (hf : ∀ a, Safe P E (f a)) : Safe P E (m >>= f) :=
  fun _ hs => hm.wp_seq hs fun a s' hs' => hf a s' hs'

lemma safe_ite {c : Prop} [Decidable c] {m₁ m₂ : Prog σ φ α} (h₁ : Safe P E m₁)
    (h₂ : Safe P E m₂) : Safe P E (if c then m₁ else m₂) := by
  split
  · exact h₁
  · exact h₂

end Safe

end Teensy41Ethernet.Lib
