import Mathlib.Data.List.Basic
import Mathlib.Data.List.Forall2
import Mathlib.Algebra.BigOperators.Group.List.Basic

/-!
# Runs of labelled transition systems, and fallible loops

A system is a relation `step : σ → α → σ → Prop` between states, labelled by what
happened. `Trace step s labels t` says that the labels, in order, lead from `s`
to `t`. The rule used most is `Trace.invariant`: what every step keeps holds at the
end. The runs of a deterministic system are played from their inputs (`play`, `Plays`,
`playIf`).

For the bodies of the steps: inversion of `do` blocks in `Except`
(`bind_eq_ok`), checks (`failWhen`) and the invariant rule of a fallible loop
(`foldlM_invariant`).
-/

namespace Common

section Trace

variable {σ α : Type}

/-- The labels lead from the first state to the last, step by step. -/
inductive Trace (step : σ → α → σ → Prop) : σ → List α → σ → Prop
  | nil {s : σ} : Trace step s [] s
  | cons {s t u : σ} {a : α} {labels : List α} :
      step s a t → Trace step t labels u → Trace step s (a :: labels) u

variable {step : σ → α → σ → Prop} {s t u : σ} {l l' : List α} {a : α}

theorem Trace.append (h : Trace step s l t) (h' : Trace step t l' u) : Trace step s (l ++ l') u := by
  induction h with
  | nil => exact h'
  | cons hstep _ ih => exact .cons hstep (ih h')

theorem Trace.snoc (h : Trace step s l t) (hstep : step t a u) : Trace step s (l ++ [a]) u :=
  h.append (.cons hstep .nil)

/-- A run over two label lists passes through a state between them. -/
theorem trace_append : Trace step s (l ++ l') u ↔ ∃ t, Trace step s l t ∧ Trace step t l' u := by
  constructor
  · intro h
    induction l generalizing s with
    | nil => exact ⟨s, .nil, h⟩
    | cons a l ih =>
      cases h with
      | cons hstep hrest =>
        obtain ⟨t, h1, h2⟩ := ih hrest
        exact ⟨t, .cons hstep h1, h2⟩
  · rintro ⟨t, h1, h2⟩; exact h1.append h2

theorem trace_cons : Trace step s (a :: l) u ↔ ∃ t, step s a t ∧ Trace step t l u := by
  constructor
  · intro h
    cases h with
    | cons hstep hrest => exact ⟨_, hstep, hrest⟩
  · rintro ⟨t, h1, h2⟩; exact .cons h1 h2

/-- **Invariant rule.** What every step keeps holds in every state reached. -/
theorem Trace.invariant {P : σ → Prop} (h : Trace step s l t) (h0 : P s)
    (hstep : ∀ {s a t}, P s → step s a t → P t) : P t := by
  induction h with
  | nil => exact h0
  | cons hs _ ih => exact ih (hstep h0 hs)

/-- The steps of a run have the labels of the run. -/
theorem Trace.labelled {Q : α → Prop} (h : Trace step s l t) (hlabels : ∀ a ∈ l, Q a) :
    Trace (fun s a t => step s a t ∧ Q a) s l t := by
  induction h with
  | nil => exact .nil
  | cons hs _ ih =>
    exact .cons ⟨hs, hlabels _ List.mem_cons_self⟩ (ih fun a ha => hlabels a (List.mem_cons_of_mem _ ha))

/-- A run of one system is a run of another whose steps include its own. -/
theorem Trace.mono {step' : σ → α → σ → Prop} (h : Trace step s l t)
    (hstep : ∀ {s a t}, step s a t → step' s a t) : Trace step' s l t := by
  induction h with
  | nil => exact .nil
  | cons hs _ ih => exact .cons (hstep hs) ih

/-- **Simulation rule.** When each step of one system is followed by steps of another that keep two
states related, each run is followed by a run. -/
theorem Trace.simulate {σ' β : Type} {step' : σ' → β → σ' → Prop} {R : σ → σ' → Prop}
    {follows : α → List β → Prop} {s' : σ'} (h : Trace step s l t) (h0 : R s s')
    (hsim : ∀ {s a t s'}, R s s' → step s a t →
      ∃ labels t', follows a labels ∧ Trace step' s' labels t' ∧ R t t') :
    ∃ parts t', List.Forall₂ follows l parts ∧ Trace step' s' parts.flatten t' ∧ R t t' := by
  induction h generalizing s' with
  | nil => exact ⟨[], s', .nil, .nil, h0⟩
  | cons hs _ ih =>
    obtain ⟨labels, t', hfollows, hpart, hnext⟩ := hsim h0 hs
    obtain ⟨parts, u', hrest, hrun, hlast⟩ := ih hnext
    exact ⟨labels :: parts, u', .cons hfollows hrest, hpart.append hrun, hlast⟩

end Trace

section Play

variable {σ ι α : Type} (next : σ → ι → Option (α × σ))

/-- The state a deterministic system reaches on a list of inputs; an impossible input
    ends the run. -/
def play : σ → List ι → σ
  | s, [] => s
  | s, input :: inputs => match next s input with
    | none => s
    | some (_, t) => play t inputs

/-- Every input is possible, and its step meets `P`. -/
def Plays (P : σ → α → σ → Prop) : σ → List ι → Prop
  | _, [] => True
  | s, input :: inputs => match next s input with
    | none => False
    | some (a, t) => P s a t ∧ Plays P t inputs

instance decidablePlays (P : σ → α → σ → Prop) [∀ s a t, Decidable (P s a t)] :
    (inputs : List ι) → (s : σ) → Decidable (Plays next P s inputs)
  | [], _ => inferInstanceAs (Decidable True)
  | input :: inputs, s =>
    match h : next s input with
    | none => isFalse (by unfold Plays; rw [h]; exact not_false)
    | some (a, t) =>
      have := decidablePlays P inputs t
      decidable_of_iff (P s a t ∧ Plays next P t inputs) (by rw [Plays, h])

variable {next}

/-- A list of possible inputs makes a run. -/
theorem play_trace {P : σ → α → σ → Prop} (step : σ → α → σ → Prop)
    (hnext : ∀ {s input a t}, next s input = some (a, t) → step s a t) :
    ∀ {inputs : List ι} {s : σ}, Plays next P s inputs →
      ∃ labels, Trace (fun s a t => step s a t ∧ P s a t) s labels (play next s inputs) := by
  intro inputs
  induction inputs with
  | nil => exact fun _ => ⟨[], .nil⟩
  | cons input inputs ih =>
    intro s h
    unfold Plays at h
    unfold play
    cases hresult : next s input with
    | none =>
      rw [hresult] at h
      exact h.elim
    | some result =>
      obtain ⟨a, t⟩ := result
      rw [hresult] at h
      obtain ⟨labels, hrun⟩ := ih h.2
      exact ⟨a :: labels, .cons ⟨hnext hresult, h.1⟩ hrun⟩

/-- The state that a system reaches on a list of labels, if each step is possible and starts in a state that
    meets the condition. -/
def playIf (next : σ → α → Option σ) (P : σ → α → Prop) [∀ s a, Decidable (P s a)] : σ → List α → Option σ
  | s, [] => some s
  | s, a :: labels => if P s a then (next s a).bind fun t => playIf next P t labels else none

/-- What is played is a run. -/
theorem trace_of_playIf {next : σ → α → Option σ} {P : σ → α → Prop} [∀ s a, Decidable (P s a)] {s t : σ}
    {labels : List α} (h : playIf next P s labels = some t) :
    Trace (fun s a t => next s a = some t ∧ P s a) s labels t := by
  induction labels generalizing s with
  | nil =>
    cases h
    exact .nil
  | cons a labels ih =>
    rw [playIf] at h
    obtain ⟨hP, h⟩ := Option.ite_none_right_eq_some.mp h
    obtain ⟨u, hu, hrest⟩ := Option.bind_eq_some_iff.mp h
    exact .cons ⟨hu, hP⟩ (ih hrest)

end Play

section Fallible

variable {ε α β σ : Type} {l : List α}

theorem bind_eq_ok {x : Except ε α} {f : α → Except ε β} {b : β} :
    (x >>= f) = .ok b ↔ ∃ a, x = .ok a ∧ f a = .ok b := by
  cases x with
  | error e => simp [bind, Except.bind]
  | ok a => simp [bind, Except.bind]

theorem mapError_eq_ok {ε' : Type} {x : Except ε α} {f : ε → ε'} {a : α} :
    x.mapError f = .ok a ↔ x = .ok a := by
  cases x <;> simp [Except.mapError]

/-- `Option::ok_or`. -/
theorem elim_eq_ok {x : Option α} {e : ε} {a : α} : x.elim (.error e) Except.ok = .ok a ↔ x = some a := by
  cases x <;> simp

/-- An early return with an error that was not taken. -/
theorem guard_eq_ok {c : Prop} [Decidable c] {e : ε} {k : Unit → Except ε β} {b : β} :
    (if c then (throw e : Except ε Unit) >>= k else k ()) = .ok b ↔ ¬ c ∧ k () = .ok b := by
  by_cases hc : c
  · rw [if_pos hc]
    simp [hc, bind, Except.bind, throw, throwThe, MonadExceptOf.throw]
  · rw [if_neg hc]
    simp [hc]

/-- A value that was not refused. -/
theorem ite_eq_ok {c : Prop} [Decidable c] {e : ε} {a b : α} :
    (if c then Except.ok a else Except.error e) = .ok b ↔ c ∧ a = b := by
  by_cases hc : c
  · simp [hc]
  · simp [hc]

/-- A check: the error where the condition holds. -/
def failWhen (c : Prop) [Decidable c] (e : ε) : Except ε Unit := if c then .error e else .ok ()

@[simp] theorem failWhen_eq_ok {c : Prop} [Decidable c] {e : ε} {u : Unit} :
    failWhen c e = .ok u ↔ ¬ c := by
  unfold failWhen
  by_cases hc : c
  · simp [hc]
  · simp [hc]

/-- A loop of checks succeeds if each does. -/
theorem forM_eq_ok {f : α → Except ε Unit} {u : Unit} :
    l.forM f = .ok u ↔ ∀ a ∈ l, f a = .ok () := by
  induction l with
  | nil => exact iff_of_true rfl (by simp)
  | cons a l ih =>
    show (f a >>= fun _ => l.forM f) = .ok u ↔ _
    rw [bind_eq_ok, List.forall_mem_cons]
    constructor
    · rintro ⟨_, ha, hl⟩
      exact ⟨ha, ih.mp hl⟩
    · rintro ⟨ha, hl⟩
      exact ⟨(), ha, ih.mpr hl⟩

/-- A loop that collects the results succeeds if each round does. -/
theorem mapM_eq_ok {f : α → Except ε β} {r : List β} :
    l.mapM f = .ok r ↔ List.Forall₂ (fun a b => f a = .ok b) l r := by
  induction l generalizing r with
  | nil => simp [pure, Except.pure, eq_comm]
  | cons a l ih =>
    rw [List.mapM_cons, bind_eq_ok, List.forall₂_cons_left_iff]
    constructor
    · rintro ⟨b, ha, h⟩
      obtain ⟨r', hr', h⟩ := bind_eq_ok.mp h
      cases h
      exact ⟨b, r', ha, ih.mp hr', rfl⟩
    · rintro ⟨b, r', ha, hr', rfl⟩
      exact ⟨b, ha, bind_eq_ok.mpr ⟨r', ih.mpr hr', rfl⟩⟩

/-- **Loop rule.** What every successful round keeps holds after a successful
    loop. -/
theorem foldlM_invariant {P : σ → Prop} {f : σ → α → Except ε σ} {s t : σ}
    (h : l.foldlM f s = .ok t) (h0 : P s)
    (hstep : ∀ {s a t}, a ∈ l → P s → f s a = .ok t → P t) : P t := by
  induction l generalizing s with
  | nil => cases h; exact h0
  | cons a l ih =>
    rw [List.foldlM_cons, bind_eq_ok] at h
    obtain ⟨s', h1, h2⟩ := h
    exact ih h2 (hstep (by simp) h0 h1) (fun ha => hstep (List.mem_cons_of_mem _ ha))

/-- A successful loop is a run whose steps are its rounds. -/
theorem foldlM_eq_ok {f : σ → α → Except ε σ} {s t : σ} :
    l.foldlM f s = .ok t ↔ Trace (fun s a t => f s a = .ok t) s l t := by
  induction l generalizing s with
  | nil =>
    constructor
    · intro h; cases h; exact .nil
    · intro h; cases h; rfl
  | cons a l ih =>
    rw [List.foldlM_cons, bind_eq_ok, trace_cons]
    simp only [ih]

end Fallible

end Common
