import Mathlib.Data.List.Basic
import Mathlib.Data.Nat.Notation

/-!
# Short reads

A reader gives some of the bytes that are asked for, at least one while there are any, or fails. A loop reads until
it has a number of bytes, or until a read gives none.

Results:
* `readLoop_eq_some`: the bytes that the loop has are the first ones, however the reads were cut.
* `isSome_readLoop`: the loop ends, and it fails only when a read fails.
-/

namespace Common

variable {α : Type} (schedule : ℕ → Option ℕ) (bufferSize : ℕ)

/-- A read into a buffer: as many bytes as the schedule says, within the bounds. -/
def shortRead (count limit : ℕ) (rest : List α) : List α := rest.take (min (max 1 count) limit)

/-- Reads until nothing remains to be read; `none` is a read that fails. -/
def readLoop (turn remaining : ℕ) (rest : List α) : Option (List α) :=
  if remaining = 0 then some []
  else
    match schedule turn with
    | none => none
    | some count =>
      if _h : (shortRead count (min remaining bufferSize) rest).length = 0 then some []
      else
        (readLoop (turn + 1) (remaining - (shortRead count (min remaining bufferSize) rest).length)
          (rest.drop (shortRead count (min remaining bufferSize) rest).length)).map
          (shortRead count (min remaining bufferSize) rest ++ ·)
termination_by rest.length
decreasing_by
  simp only [shortRead, List.length_take, List.length_drop] at *
  omega

variable {schedule : ℕ → Option ℕ} {bufferSize turn remaining : ℕ} {rest out : List α}

theorem shortRead_length (count limit : ℕ) (rest : List α) :
    (shortRead count limit rest).length = min (min (max 1 count) limit) rest.length := by
  rw [shortRead, List.length_take]

theorem shortRead_eq (count limit : ℕ) (rest : List α) :
    shortRead count limit rest = rest.take (shortRead count limit rest).length := by
  rw [shortRead_length, shortRead, List.take_eq_take_iff]
  omega

theorem readLoop_eq_some (hbuffer : 0 < bufferSize) (h : readLoop schedule bufferSize turn remaining rest = some out) :
    out = rest.take remaining := by
  fun_induction readLoop schedule bufferSize turn remaining rest generalizing out with
  | case1 =>
    rw [Option.some.injEq] at h
    rw [← h, List.take_zero]
  | case2 => cases h
  | case3 turn remaining rest hremaining count hcount hempty =>
    rw [Option.some.injEq] at h
    rw [shortRead_length] at hempty
    rw [← h, List.length_eq_zero_iff.mp (show rest.length = 0 by omega), List.take_nil]
  | case4 turn remaining rest hremaining count hcount hread ih =>
    obtain ⟨tail, htail, rfl⟩ := Option.map_eq_some_iff.mp h
    have hlength := shortRead_length count (min remaining bufferSize) rest
    have hread := shortRead_eq count (min remaining bufferSize) rest
    generalize shortRead count (min remaining bufferSize) rest = read at *
    rw [ih htail, hread, List.length_take, Nat.min_eq_left (by omega), ← List.take_add,
      Nat.add_sub_cancel' (by omega)]

theorem isSome_readLoop (hschedule : ∀ turn, (schedule turn).isSome) :
    (readLoop schedule bufferSize turn remaining rest).isSome := by
  fun_induction readLoop schedule bufferSize turn remaining rest with
  | case1 => rfl
  | case2 turn remaining rest hremaining hnone =>
    have hsome := hschedule turn
    rw [hnone] at hsome
    cases hsome
  | case3 => rfl
  | case4 turn remaining rest hremaining count hcount hread ih => rw [Option.isSome_map, ih]

end Common
