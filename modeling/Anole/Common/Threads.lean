import Anole.Common.Crash
import Mathlib.Logic.Function.Basic

/-!
# Threads on a shared store

A thread is a program of atomic steps. A step changes the store, and what the thread does next depends on the
store that the step found. `Thread.run` is the run of a thread that is alone.

Main results:

* `Thread.Agrees`: a thread that is alone ends as a procedure does, with one rule for each way to put
  procedures together. What is proved of the procedure holds of the thread then (`Agrees.meets`).
* `main_outcome`: a thread among others that are idle ends as if it were alone.
-/

namespace Common

/-- A program of atomic steps on the store `σ` with errors `ε`. -/
inductive Thread (σ ε α : Type) where
  | done (result : Except ε α)
  | step (change : σ → σ) (next : σ → Thread σ ε α)

namespace Thread

variable {σ ε ε' α β : Type}

/-- One atomic step with a result. -/
def call (f : σ → Except ε α × σ) : Thread σ ε α := .step (fun s => (f s).2) fun s => .done (f s).1

/-- One atomic step that only looks. -/
def look (f : σ → α) : Thread σ ε α := call fun s => (.ok (f s), s)

/-- `t` and then, when it succeeds, `k`. -/
def andThen : Thread σ ε α → (α → Thread σ ε β) → Thread σ ε β
  | .done (.ok a), k => k a
  | .done (.error e), _ => .done (.error e)
  | .step change next, k => .step change fun s => (next s).andThen k

/-- Run `t` and hand its result over, error or not. -/
def attempt : Thread σ ε α → Thread σ ε' (Except ε α)
  | .done result => .done (.ok result)
  | .step change next => .step change fun s => (next s).attempt

/-- Run `t` and hand its error over in another form. -/
def mapError (f : ε → ε') : Thread σ ε α → Thread σ ε' α
  | .done result => .done (result.mapError f)
  | .step change next => .step change fun s => (next s).mapError f

instance : Monad (Thread σ ε) where
  pure a := .done (.ok a)
  bind := andThen

/-- The run of a thread that is alone. -/
def run : Thread σ ε α → σ → Except ε α × σ
  | .done result, s => (result, s)
  | .step change next, s => (next s).run (change s)

/-- The result of a thread that has ended. -/
def result? : Thread σ ε α → Option (Except ε α)
  | .done result => some result
  | .step _ _ => none

theorem result?_eq_some {t : Thread σ ε α} {result : Except ε α} : t.result? = some result ↔ t = .done result := by
  cases t with
  | done other => simp [result?]
  | step change next => simp [result?]

section Alone

variable {s : σ}

theorem run_andThen (t : Thread σ ε α) (k : α → Thread σ ε β) (s : σ) :
    (t.andThen k).run s = match t.run s with
      | (.ok a, s') => (k a).run s'
      | (.error e, s') => (.error e, s') := by
  induction t generalizing s with
  | done result => cases result <;> rfl
  | step change next ih => exact ih s (change s)

theorem run_attempt (t : Thread σ ε α) (s : σ) :
    (t.attempt : Thread σ ε' (Except ε α)).run s = (.ok (t.run s).1, (t.run s).2) := by
  induction t generalizing s with
  | done result => rfl
  | step change next ih => exact ih s (change s)

theorem run_mapError (f : ε → ε') (t : Thread σ ε α) (s : σ) :
    (t.mapError f).run s = ((t.run s).1.mapError f, (t.run s).2) := by
  induction t generalizing s with
  | done result => rfl
  | step change next ih => exact ih s (change s)

/-! ## Threads and procedures -/

/-- Alone, the thread ends as the procedure does. -/
def Agrees (t : Thread σ ε α) (p : Proc σ ε α) (s : σ) : Prop := t.run s = ((p s).result, (p s).final)

namespace Agrees

variable {t : Thread σ ε α} {p : Proc σ ε α} {k : α → Thread σ ε β} {q : α → Proc σ ε β} {I : σ → Prop}
  {E : ε → σ → Prop} {Q : α → σ → Prop}

theorem pure (a : α) : (Pure.pure a : Thread σ ε α).Agrees (Pure.pure a) s := rfl

theorem lift (outcome : Except ε α) : (Thread.done outcome).Agrees (Proc.lift outcome) s := by
  cases outcome <;> rfl

theorem op {f : σ → Except ε Unit × σ} {g : σ → σ} (h : f s = (.ok (), g s)) : (call f).Agrees (Proc.op g) s := by
  show ((f s).1, (f s).2) = _
  rw [h]
  rfl

theorem bind (h : t.Agrees p s) (hk : ∀ a s', Proc.Succeeds p s a s' → (k a).Agrees (q a) s') :
    (t >>= k).Agrees (p >>= q) s := by
  show (t.andThen k).run s = ((Proc.andThen p q s).result, (Proc.andThen p q s).final)
  rw [run_andThen, h]
  have hnext := hk
  unfold Proc.Succeeds at hnext
  unfold Proc.andThen
  revert hnext
  rcases p s with ⟨moments, final, _ | a⟩
  · exact fun _ => rfl
  · exact fun hnext => hnext a final ⟨rfl, rfl⟩

/-- What is known of the procedure is known where the thread goes on. -/
theorem bind_wp (h : t.Agrees p s) (hp : Proc.wp p I E Q s) (hk : ∀ a s', Q a s' → (k a).Agrees (q a) s') :
    (t >>= k).Agrees (p >>= q) s :=
  h.bind fun a s' hsucceeds => hk a s' (hsucceeds.of_wp hp)

/-- The procedure looks at the whole store, in no step, -/
theorem get {q : σ → Proc σ ε α} (h : t.Agrees (q s) s) : t.Agrees (Proc.get >>= q) s := h

/-- and the thread at a part of it in one. -/
theorem look {γ : Type} {f : σ → γ} {k : γ → Thread σ ε α} (h : (k (f s)).Agrees p s) :
    (Thread.look f >>= k).Agrees p s := h

theorem ite {c : Prop} [Decidable c] {t' : Thread σ ε α} {p' : Proc σ ε α} (h : c → t.Agrees p s)
    (h' : ¬ c → t'.Agrees p' s) : (if c then t else t').Agrees (if c then p else p') s := by
  split
  · exact h ‹_›
  · exact h' ‹_›

theorem attempt (h : t.Agrees p s) : (t.attempt : Thread σ ε' (Except ε α)).Agrees (Proc.attempt p) s := by
  unfold Agrees at h ⊢
  rw [run_attempt, h]
  rfl

/-- A step whose error would be handled succeeds, where the procedure does not fail. -/
theorem attempt_op {f : σ → Except ε' Unit × σ} {g : σ → σ} {k : Except ε' Unit → Thread σ ε β}
    {q : Unit → Proc σ ε β} (h : f s = (.ok (), g s)) (hk : (k (.ok ())).Agrees (q ()) (g s)) :
    ((call f).attempt >>= k).Agrees (Proc.op g >>= q) s := by
  show (k (f s).1).run (f s).2 = _
  rw [h]
  exact hk

theorem mapError (f : ε → ε') (h : t.Agrees p s) : (t.mapError f).Agrees (Proc.mapError f p) s := by
  unfold Agrees at h ⊢
  rw [run_mapError, h]
  rfl

/-- What holds where the procedure ends holds where the thread does. -/
theorem meets {R : Except ε α → σ → Prop} (h : t.Agrees p s)
    (hp : Proc.wp p I (fun e => R (.error e)) (fun a => R (.ok a)) s) : R (t.run s).1 (t.run s).2 := by
  have hend := hp.2
  rw [h]
  revert hend
  cases (p s).result <;> exact fun hend => hend

end Agrees

end Alone

/-! ## A thread among others -/

/-- The next step; a thread that has ended makes none. -/
def next : Thread σ ε α → σ → σ × Thread σ ε α
  | .done result, s => (s, .done result)
  | .step change next, s => (change s, next s)

theorem run_next (t : Thread σ ε α) (s : σ) : (t.next s).2.run (t.next s).1 = t.run s := by
  cases t <;> rfl

/-- Where `P` holds the thread changes nothing, now and later. -/
def Idle (P : σ → Prop) : Thread σ ε α → Prop
  | .done _ => True
  | .step change next => ∀ s, P s → change s = s ∧ (next s).Idle P

theorem Idle.next {P : σ → Prop} {t : Thread σ ε α} {s : σ} (h : t.Idle P) (hs : P s) :
    (t.next s).1 = s ∧ (t.next s).2.Idle P := by
  cases t with
  | done result => exact ⟨rfl, trivial⟩
  | step change next => exact h s hs

end Thread

section Beside

variable {σ ε α β : Type}

/-- A thread with others beside it, on one store. -/
structure Beside (σ ε α β : Type) where
  store : σ
  main : Thread σ ε α
  others : ℕ → Thread σ ε β

/-- Whose turn it is. -/
inductive Turn where
  | main
  | other (i : ℕ)
  deriving DecidableEq

def Beside.turn (threads : Beside σ ε α β) : Turn → Beside σ ε α β
  | .main => { threads with
      store := (threads.main.next threads.store).1
      main := (threads.main.next threads.store).2 }
  | .other i => { threads with
      store := ((threads.others i).next threads.store).1
      others := Function.update threads.others i ((threads.others i).next threads.store).2 }

/-- The turns are taken in this order. -/
def Beside.turns (threads : Beside σ ε α β) (order : List Turn) : Beside σ ε α β := order.foldl Beside.turn threads

/-- The others take their turns where `P` holds. -/
def Beside.Spares (P : σ → Prop) : Beside σ ε α β → List Turn → Prop
  | _, [] => True
  | threads, turn :: rest => (turn ≠ .main → P threads.store) ∧ (threads.turn turn).Spares P rest

instance Beside.decidableSpares {P : σ → Prop} [DecidablePred P] : (threads : Beside σ ε α β) →
    (order : List Turn) → Decidable (threads.Spares P order)
  | _, [] => .isTrue trivial
  | threads, turn :: rest =>
    have now : Decidable (turn ≠ .main → P threads.store) := inferInstance
    have later := Beside.decidableSpares (threads.turn turn) rest
    @instDecidableAnd _ _ now later

/-- **Among idle threads** the thread ends as if it were alone. -/
theorem main_outcome {P : σ → Prop} {threads : Beside σ ε α β} {order : List Turn}
    (hidle : ∀ i, (threads.others i).Idle P) (hspares : threads.Spares P order) {result : Except ε α}
    (hdone : (threads.turns order).main = .done result) :
    threads.main.run threads.store = (result, (threads.turns order).store) := by
  induction order generalizing threads with
  | nil =>
    rw [show threads.main = .done result from hdone]
    rfl
  | cons turn rest ih =>
    obtain ⟨hnow, hlater⟩ := hspares
    cases turn with
    | main =>
      have hothers : ∀ i, ((threads.turn .main).others i).Idle P := hidle
      rw [← Thread.run_next threads.main]
      exact ih hothers hlater hdone
    | other i =>
      obtain ⟨hsame, hnext⟩ := (hidle i).next (hnow (by simp))
      have hstore : (threads.turn (.other i)).store = threads.store := hsame
      have hothers : ∀ j, ((threads.turn (.other i)).others j).Idle P := by
        intro j
        show (Function.update threads.others i _ j).Idle P
        by_cases hj : j = i
        · rw [hj, Function.update_self]
          exact hnext
        · rw [Function.update_of_ne hj]
          exact hidle j
      have hrest := ih hothers hlater hdone
      rw [hstore] at hrest
      exact hrest

end Beside

end Common
