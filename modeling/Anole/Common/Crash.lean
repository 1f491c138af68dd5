import Mathlib.Data.List.Basic

/-!
# Procedures that may be cut off

A procedure works on a store `σ` in atomic operations and ends with a value or an error.
Its run records the stores after each operation (its moments), so that a crash is a
moment of the run. `Proc.wp p I E Q s` says of the run of `p` from `s` that every moment
satisfies `I`, and its end satisfies `Q` for a value and `E` for an error.

The rules below (`wp_pure`, `wp_bind`, `wp_op`, …) turn `wp` of a body into conditions on
the stores it goes through. `Crashes p s t` is a crash of `p` in the store `t`;
`Crashes.of_wp` and `wp.mono` are how a specification of `p` is used.
-/

namespace Common

/-- What running a procedure gives: the stores after each of its operations, the last of
    its stores, and its result. -/
structure Run (σ ε α : Type) where
  moments : List σ
  final : σ
  result : Except ε α

/-- A procedure over the store `σ` with errors `ε`. -/
def Proc (σ ε α : Type) : Type := σ → Run σ ε α

namespace Proc

variable {σ ε ε' α β : Type}

/-- No operation, one value. -/
def ret (a : α) : Proc σ ε α := fun s => ⟨[], s, .ok a⟩

/-- No operation, an error. -/
def fail (e : ε) : Proc σ ε α := fun s => ⟨[], s, .error e⟩

/-- Look at the store. -/
def get : Proc σ ε σ := fun s => ⟨[], s, .ok s⟩

/-- One atomic operation. -/
def op (f : σ → σ) : Proc σ ε Unit := fun s => ⟨[f s], f s, .ok ()⟩

/-- Go through the listed stores on the way to a last one. -/
def through (via : σ → List σ) (f : σ → σ) : Proc σ ε Unit := fun s => ⟨via s ++ [f s], f s, .ok ()⟩

/-- `p` and then, when it succeeds, `k`. -/
def andThen (p : Proc σ ε α) (k : α → Proc σ ε β) : Proc σ ε β := fun s =>
  match p s with
  | ⟨moments, t, .ok a⟩ =>
    match k a t with
    | ⟨moments', u, result⟩ => ⟨moments ++ moments', u, result⟩
  | ⟨moments, t, .error e⟩ => ⟨moments, t, .error e⟩

/-- Run `p` and hand its result over, error or not. -/
def attempt (p : Proc σ ε α) : Proc σ ε' (Except ε α) := fun s =>
  match p s with
  | ⟨moments, t, result⟩ => ⟨moments, t, .ok result⟩

instance : Monad (Proc σ ε) where
  pure := ret
  bind := andThen

/-- Run `p` and hand its error over in another form. -/
def mapError (f : ε → ε') (p : Proc σ ε α) : Proc σ ε' α := fun s =>
  match p s with
  | ⟨moments, t, result⟩ => ⟨moments, t, result.mapError f⟩

/-- An outcome that is known beforehand. -/
def lift : Except ε α → Proc σ ε α
  | .ok a => ret a
  | .error e => fail e

/-- An operation that the environment may refuse. -/
def tryOp (fault : Option ε) (f : σ → σ) : Proc σ ε Unit :=
  match fault with
  | some e => fail e
  | none => op f

/-- One atomic operation with a result. -/
def atomically (f : σ → Except ε α × σ) : Proc σ ε α := fun s => ⟨[(f s).2], (f s).2, (f s).1⟩

/-- A step that changes nothing and may be refused. -/
def check (fault : Option ε) : Proc σ ε Unit :=
  match fault with
  | some e => fail e
  | none => ret ()

/-- Run `p`. When it fails, run `cleanup`, drop the result of that and hand the error on. -/
def orCleanup (p : Proc σ ε α) (cleanup : Proc σ ε' Unit) : Proc σ ε α := fun s =>
  match p s with
  | ⟨moments, t, .ok a⟩ => ⟨moments, t, .ok a⟩
  | ⟨moments, t, .error e⟩ =>
    match cleanup t with
    | ⟨moments', u, _⟩ => ⟨moments ++ moments', u, .error e⟩

/-! ## What a run satisfies -/

/-- Every moment satisfies `I`; at the end `Q` holds for a value and `E` for an error. -/
def wp (p : Proc σ ε α) (I : σ → Prop) (E : ε → σ → Prop) (Q : α → σ → Prop) (s : σ) : Prop :=
  (∀ m ∈ (p s).moments, I m) ∧
    match (p s).result with
    | .ok a => Q a (p s).final
    | .error e => E e (p s).final

section Rules

variable {I I' : σ → Prop} {E E' : ε → σ → Prop} {Q Q' : α → σ → Prop} {R : β → σ → Prop} {s : σ} {p : Proc σ ε α}

@[simp] theorem wp_ret {a : α} : wp (ret a) I E Q s ↔ Q a s := by
  simp [wp, ret]

@[simp] theorem wp_pure {a : α} : wp (pure a : Proc σ ε α) I E Q s ↔ Q a s := wp_ret

@[simp] theorem wp_fail {e : ε} : wp (fail e) I E Q s ↔ E e s := by
  simp [wp, fail]

@[simp] theorem wp_get {Q : σ → σ → Prop} : wp get I E Q s ↔ Q s s := by
  simp [wp, get]

@[simp] theorem wp_op {Q : Unit → σ → Prop} {f : σ → σ} :
    wp (op f) I E Q s ↔ I (f s) ∧ Q () (f s) := by
  simp [wp, op]

@[simp] theorem wp_through {Q : Unit → σ → Prop} {via : σ → List σ} {f : σ → σ} :
    wp (through via f) I E Q s ↔ (∀ m ∈ via s, I m) ∧ I (f s) ∧ Q () (f s) := by
  simp only [wp, through, List.mem_append, List.mem_singleton]
  constructor
  · rintro ⟨hI, hQ⟩
    exact ⟨fun m hm => hI m (.inl hm), hI _ (.inr rfl), hQ⟩
  · rintro ⟨hvia, hI, hQ⟩
    refine ⟨?_, hQ⟩
    rintro m (hm | rfl)
    · exact hvia m hm
    · exact hI

theorem wp_andThen {k : α → Proc σ ε β} :
    wp (andThen p k) I E R s ↔ wp p I E (fun a t => wp (k a) I E R t) s := by
  unfold wp andThen
  rcases p s with ⟨moments, t, e | a⟩
  · rfl
  · simp only [List.mem_append]
    constructor
    · rintro ⟨hI, hR⟩
      exact ⟨fun m hm => hI m (.inl hm), fun m hm => hI m (.inr hm), hR⟩
    · rintro ⟨hI, hI', hR⟩
      exact ⟨fun m hm => hm.elim (hI m) (hI' m), hR⟩

@[simp] theorem wp_bind {p : Proc σ ε α} {k : α → Proc σ ε β} :
    wp (p >>= k) I E R s ↔ wp p I E (fun a t => wp (k a) I E R t) s := wp_andThen

@[simp] theorem wp_attempt {p : Proc σ ε α} {E : ε' → σ → Prop} {Q : Except ε α → σ → Prop} :
    wp (attempt p) I E Q s ↔ wp p I (fun e t => Q (.error e) t) (fun a t => Q (.ok a) t) s := by
  unfold wp attempt
  rcases p s with ⟨moments, t, e | a⟩ <;> rfl

@[simp] theorem wp_mapError {p : Proc σ ε α} {f : ε → ε'} {E : ε' → σ → Prop} :
    wp (mapError f p) I E Q s ↔ wp p I (fun e t => E (f e) t) Q s := by
  unfold wp mapError
  rcases p s with ⟨moments, t, e | a⟩ <;> rfl

@[simp] theorem wp_lift {o : Except ε α} :
    wp (lift o) I E Q s ↔ (∀ e, o = .error e → E e s) ∧ ∀ a, o = .ok a → Q a s := by
  cases o <;> simp [lift]

@[simp] theorem wp_tryOp {Q : Unit → σ → Prop} {fault : Option ε} {f : σ → σ} :
    wp (tryOp fault f) I E Q s ↔
      (∀ e, fault = some e → E e s) ∧ (fault = none → I (f s) ∧ Q () (f s)) := by
  cases fault <;> simp [tryOp]

@[simp] theorem wp_check {Q : Unit → σ → Prop} {fault : Option ε} :
    wp (check fault) I E Q s ↔ (∀ e, fault = some e → E e s) ∧ (fault = none → Q () s) := by
  cases fault <;> simp [check]

@[simp] theorem wp_atomically {f : σ → Except ε α × σ} :
    wp (atomically f) I E Q s ↔ I (f s).2 ∧
      match f s with
      | (.ok a, t) => Q a t
      | (.error e, t) => E e t := by
  unfold wp atomically
  rcases f s with ⟨e | a, t⟩ <;> simp

@[simp] theorem wp_orCleanup {p : Proc σ ε α} {cleanup : Proc σ ε' Unit} :
    wp (orCleanup p cleanup) I E Q s ↔
      wp p I (fun e t => wp cleanup I (fun _ => E e) (fun _ => E e) t) Q s := by
  unfold wp orCleanup
  rcases p s with ⟨moments, t, e | a⟩
  · simp only [List.mem_append]
    rcases cleanup t with ⟨moments', u, e' | b⟩
    · constructor
      · rintro ⟨hI, hE⟩
        exact ⟨fun m hm => hI m (.inl hm), fun m hm => hI m (.inr hm), hE⟩
      · rintro ⟨hI, hI', hE⟩
        exact ⟨fun m hm => hm.elim (hI m) (hI' m), hE⟩
    · constructor
      · rintro ⟨hI, hE⟩
        exact ⟨fun m hm => hI m (.inl hm), fun m hm => hI m (.inr hm), hE⟩
      · rintro ⟨hI, hI', hE⟩
        exact ⟨fun m hm => hm.elim (hI m) (hI' m), hE⟩
  · rfl

@[simp] theorem wp_ite {c : Prop} [Decidable c] {p q : Proc σ ε α} :
    wp (if c then p else q) I E Q s ↔ (c → wp p I E Q s) ∧ (¬c → wp q I E Q s) := by
  by_cases hc : c <;> simp [hc]

/-- What holds anyway. -/
theorem wp_const {P : Prop} (h : P) :
    wp p (fun _ => True) (fun _ _ => True) (fun _ _ => P) s := by
  refine ⟨fun _ _ => trivial, ?_⟩
  split
  · exact h
  · trivial

/-- The rule of consequence. -/
theorem wp.mono (h : wp p I E Q s) (hI : ∀ m, I m → I' m)
    (hE : ∀ e m, E e m → E' e m) (hQ : ∀ a m, Q a m → Q' a m) : wp p I' E' Q' s := by
  refine ⟨fun m hm => hI m (h.1 m hm), ?_⟩
  have hend := h.2
  split at hend
  · exact hQ _ _ hend
  · exact hE _ _ hend

end Rules

/-! ## Crashes and ends -/

/-- A crash of `p`, started in `s`, that leaves the store `t`. -/
def Crashes (p : Proc σ ε α) (s t : σ) : Prop := t = s ∨ t ∈ (p s).moments

/-- `p`, started in `s`, leaves the store `t`: it was cut off there or ended there. -/
def Leaves (p : Proc σ ε α) (s t : σ) : Prop := Crashes p s t ∨ (p s).final = t

/-- `p`, started in `s`, succeeds with `a` in the store `t`. -/
def Succeeds (p : Proc σ ε α) (s : σ) (a : α) (t : σ) : Prop :=
  (p s).result = .ok a ∧ (p s).final = t

/-- `p`, started in `s`, ends with the error `e` in the store `t`. -/
def Fails (p : Proc σ ε α) (s : σ) (e : ε) (t : σ) : Prop :=
  (p s).result = .error e ∧ (p s).final = t

section Ends

variable {I : σ → Prop} {E : ε → σ → Prop} {Q : α → σ → Prop} {p : Proc σ ε α} {s t : σ} {a : α}
  {e : ε}

theorem Crashes.of_wp (h : Crashes p s t) (hp : wp p I E Q s) (hs : I s) : I t := by
  rcases h with rfl | hm
  · exact hs
  · exact hp.1 t hm

/-- What holds at the start, at every moment and at both ends holds of what is left. -/
theorem Leaves.of_wp (h : Leaves p s t) (hp : wp p I (fun _ => I) (fun _ => I) s) (hs : I s) :
    I t := by
  rcases h with hcrash | rfl
  · exact hcrash.of_wp hp hs
  · have hend := hp.2
    split at hend <;> exact hend

theorem Succeeds.of_wp (h : Succeeds p s a t) (hp : wp p I E Q s) : Q a t := by
  have hend := hp.2
  rw [h.1] at hend
  rw [← h.2]
  exact hend

theorem Fails.of_wp (h : Fails p s e t) (hp : wp p I E Q s) : E e t := by
  have hend := hp.2
  rw [h.1] at hend
  rw [← h.2]
  exact hend

/-- A procedure that cannot fail succeeds. -/
theorem wp.succeeds (hp : wp p I (fun _ _ => False) Q s) : ∃ a t, Succeeds p s a t ∧ Q a t := by
  have hend := hp.2
  cases hr : (p s).result with
  | error e => rw [hr] at hend; exact hend.elim
  | ok a =>
    rw [hr] at hend
    exact ⟨a, (p s).final, ⟨hr, rfl⟩, hend⟩

/-- A procedure that cannot succeed fails. -/
theorem wp.fails (hp : wp p I E (fun _ _ => False) s) : ∃ e t, Fails p s e t ∧ E e t := by
  have hend := hp.2
  cases hr : (p s).result with
  | ok a => rw [hr] at hend; exact hend.elim
  | error e =>
    rw [hr] at hend
    exact ⟨e, (p s).final, ⟨hr, rfl⟩, hend⟩

end Ends

/-! ## Commit points -/

/-- The run of `p` from `s` goes through unmarked moments with `I`, and from its first marked
    moment on through moments with `J`. When it succeeds it has come to one. -/
def Commits (p : Proc σ ε α) (mark I J : σ → Prop) (Q : α → σ → Prop) (s : σ) : Prop :=
  ∃ before after, (p s).moments = before ++ after ∧ (∀ m ∈ before, ¬mark m ∧ I m) ∧
    (∀ m, after.head? = some m → mark m) ∧ (∀ m ∈ after, J m) ∧
    ∀ a, (p s).result = .ok a → after ≠ [] ∧ Q a (p s).final

section CommitPoints

variable {mark I J : σ → Prop} {Q : α → σ → Prop} {R : β → σ → Prop} {p : Proc σ ε α}
  {k : α → Proc σ ε β} {s t : σ}

theorem moments_bind_of_ok {a : α} (h : (p s).result = .ok a) :
    ((p >>= k) s).moments = (p s).moments ++ (k a (p s).final).moments ∧
      ((p >>= k) s).result = (k a (p s).final).result ∧
      ((p >>= k) s).final = (k a (p s).final).final := by
  show (andThen p k s).moments = _ ∧ (andThen p k s).result = _ ∧ (andThen p k s).final = _
  unfold andThen
  revert h
  rcases p s with ⟨moments, t, e | b⟩
  · rintro ⟨⟩
  · rintro ⟨⟩
    exact ⟨rfl, rfl, rfl⟩

theorem bind_of_error {e : ε} (h : (p s).result = .error e) :
    (p >>= k) s = ⟨(p s).moments, (p s).final, .error e⟩ := by
  show andThen p k s = _
  unfold andThen
  revert h
  rcases p s with ⟨moments, t, e' | b⟩
  · rintro ⟨⟩
    rfl
  · rintro ⟨⟩

/-- The commit point is an operation. -/
theorem Commits.op {f : σ → σ} {Q : Unit → σ → Prop} (hmark : mark (f s)) (hJ : J (f s))
    (hQ : Q () (f s)) : Commits (op f : Proc σ ε Unit) mark I J Q s := by
  refine ⟨[], [f s], rfl, by simp, ?_, ?_, ?_⟩
  · rintro m ⟨⟩
    exact hmark
  · intro m hm
    rwa [List.mem_singleton.mp hm]
  · rintro _ ⟨⟩
    exact ⟨by simp, hQ⟩

/-- The commit point comes after `p`. -/
theorem Commits.later {S : α → σ → Prop} (hp : wp p (fun m => ¬mark m ∧ I m) (fun _ _ => True) S s)
    (hk : ∀ a t, S a t → Commits (k a) mark I J R t) : Commits (p >>= k) mark I J R s := by
  obtain ⟨hmoments, hend⟩ := hp
  cases hr : (p s).result with
  | error e =>
    rw [Commits, bind_of_error hr]
    exact ⟨_, [], (List.append_nil _).symm, hmoments, by simp, by simp, by simp⟩
  | ok a =>
    rw [hr] at hend
    obtain ⟨hm, hres, hfin⟩ := moments_bind_of_ok (k := k) hr
    obtain ⟨before, after, hsplit, hbefore, hhead, hafter, hQ⟩ := hk a _ hend
    refine ⟨(p s).moments ++ before, after, ?_, ?_, hhead, hafter, ?_⟩
    · rw [hm, hsplit, List.append_assoc]
    · intro m hmem
      rcases List.mem_append.mp hmem with h | h
      · exact hmoments m h
      · exact hbefore m h
    · intro b hb
      rw [hfin]
      exact hQ b (hres ▸ hb)

/-- The commit point comes in `p`. -/
theorem Commits.earlier (hp : Commits p mark I J Q s)
    (hk : ∀ a t, Q a t → wp (k a) J (fun _ _ => True) R t) : Commits (p >>= k) mark I J R s := by
  obtain ⟨before, after, hsplit, hbefore, hhead, hafter, hQ⟩ := hp
  cases hr : (p s).result with
  | error e =>
    rw [Commits, bind_of_error hr]
    exact ⟨before, after, hsplit, hbefore, hhead, hafter, by simp⟩
  | ok a =>
    obtain ⟨hm, hres, hfin⟩ := moments_bind_of_ok (k := k) hr
    obtain ⟨hne, hend⟩ := hQ a hr
    obtain ⟨hJ, hend⟩ := hk a _ hend
    refine ⟨before, after ++ (k a (p s).final).moments, ?_, hbefore, ?_, ?_, ?_⟩
    · rw [hm, hsplit, List.append_assoc]
    · intro m' hm'
      rw [List.head?_append_of_ne_nil _ hne] at hm'
      exact hhead m' hm'
    · intro m' hm'
      rcases List.mem_append.mp hm' with h | h
      · exact hafter m' h
      · exact hJ m' h
    · intro b hb
      rw [hres] at hb
      rw [hb] at hend
      rw [hfin]
      exact ⟨by simp [hne], hend⟩

theorem Commits.mono {I' J' : σ → Prop} (h : Commits p mark I J Q s) (hI : ∀ m, I m → I' m)
    (hJ : ∀ m, J m → J' m) : Commits p mark I' J' Q s := by
  obtain ⟨before, after, hsplit, hbefore, hhead, hafter, hQ⟩ := h
  exact ⟨before, after, hsplit, fun m hm => ⟨(hbefore m hm).1, hI m (hbefore m hm).2⟩, hhead,
    fun m hm => hJ m (hafter m hm), hQ⟩

/-- A cut at `t` after the moments `pre`: either the commit point is passed, or not. -/
theorem Commits.cut (h : Commits p mark I J Q s) {pre post : List σ}
    (hcut : (p s).moments = pre ++ t :: post) :
    ((∃ m ∈ pre ++ [t], mark m) ∧ J t) ∨ ((∀ m ∈ pre ++ [t], ¬mark m) ∧ I t) := by
  obtain ⟨before, after, hsplit, hbefore, hhead, hafter, -⟩ := h
  have hsame : before ++ after = (pre ++ [t]) ++ post := by
    rw [← hsplit, hcut, List.append_assoc]
    rfl
  rcases List.append_eq_append_iff.mp hsame with ⟨mid, hpre, hmid⟩ | ⟨mid, hbefore', -⟩
  · cases mid with
    | nil =>
      right
      rw [List.append_nil] at hpre
      rw [hpre]
      exact ⟨fun m hm => (hbefore m hm).1, (hbefore t (hpre ▸ by simp)).2⟩
    | cons m mid =>
      left
      refine ⟨⟨m, by rw [hpre]; simp, hhead m (by rw [hmid]; rfl)⟩, hafter t ?_⟩
      have hlast : t ∈ m :: mid := by
        have := congrArg List.getLast? hpre
        rw [List.getLast?_append, List.getLast?_append] at this
        exact List.mem_of_getLast? (by simpa using this.symm)
      rw [hmid]
      exact List.mem_append_left _ hlast
  · right
    rw [hbefore'] at hbefore
    exact ⟨fun m hm => (hbefore m (List.mem_append_left _ hm)).1,
      (hbefore t (List.mem_append_left _ (by simp))).2⟩

end CommitPoints

end Proc

end Common
