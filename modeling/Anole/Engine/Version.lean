import Mathlib.Algebra.Ring.Nat
import Mathlib.Data.List.Basic

/-!
# The order of engine versions

Model of `VersionKey` (`crates/core/src/engine_registry.rs`, lines 409–476).

* `VersionKey.compare` is a total order (`Std.TransCmp`, `Std.LawfulEqCmp`).
* `VersionKey.compare_eq_numeric_iff`: for versions of numbers separated by `.` and `-` it is
  the order of the numbers exactly when it is so at the first part in which they differ.

**Deviation.** A part such as `1-39` is compared as text: `7.1.1-9` is above `7.1.1-39`.
-/

namespace Anole

/-- `VersionSegment`. -/
inductive VersionSegment where
  | numeric (number : ℕ)
  | text (part : String)
  deriving DecidableEq

/-- The value of decimal digits. -/
def digitsValue (digits : List Char) : ℕ :=
  digits.foldl (fun value digit => 10 * value + (digit.toNat - '0'.toNat)) 0

/-- `str::parse::<u64>`: a `+` sign may stand before the digits. -/
def parseU64 (part : List Char) : Option ℕ :=
  let digits := if part.head? = some '+' then part.tail else part
  if digits ≠ [] ∧ digits.all Char.isDigit ∧ digitsValue digits < 2 ^ 64 then
    some (digitsValue digits)
  else none

/-- One part of a version. -/
def VersionSegment.parse (part : List Char) : VersionSegment :=
  match parseU64 part with
  | some number => .numeric number
  | none => .text (String.ofList part)

/-- The comparison of two segments: numbers above texts. -/
def VersionSegment.compare : VersionSegment → VersionSegment → Ordering
  | .numeric a, .numeric b => Ord.compare a b
  | .text a, .text b => Ord.compare a b
  | .numeric _, .text _ => .gt
  | .text _, .numeric _ => .lt

/-- `VersionKey`. -/
abbrev VersionKey := List VersionSegment

/-- The `.`-separated parts of a version. -/
def versionParts (value : String) : List (List Char) := value.toList.splitOn '.'

/-- `VersionKey::parse` (lines 420–431). -/
def VersionKey.parse (value : String) : VersionKey := (versionParts value).map VersionSegment.parse

/-- `VersionKey::compare` (lines 433–463). -/
def VersionKey.compare : VersionKey → VersionKey → Ordering
  | left :: own, right :: theirs =>
    match left.compare right with
    | .eq => compare own theirs
    | ordering => ordering
  | own, theirs => Ord.compare own.length theirs.length

/-! ## A total order -/

theorem VersionSegment.compare_swap (a b : VersionSegment) :
    a.compare b = (b.compare a).swap := by
  cases a <;> cases b
  · exact Std.OrientedOrd.eq_swap
  · rfl
  · rfl
  · exact Std.OrientedOrd.eq_swap

instance : Std.TransCmp VersionSegment.compare where
  eq_swap {a b} := VersionSegment.compare_swap a b
  isLE_trans {a b c} hab hbc := by
    cases a <;> cases b <;> cases c <;> simp only [VersionSegment.compare] at *
    all_goals first | exact Std.TransOrd.isLE_trans hab hbc | contradiction | rfl

instance : Std.LawfulEqCmp VersionSegment.compare where
  compare_self {a} := by cases a <;> simp [VersionSegment.compare]
  eq_of_compare {a b} h := by
    cases a <;> cases b <;> simp only [VersionSegment.compare] at h
    · rw [Std.LawfulEqOrd.eq_of_compare h]
    · cases h
    · cases h
    · rw [Std.LawfulEqOrd.eq_of_compare h]

theorem VersionKey.compare_eq_compareLex (a b : VersionKey) :
    a.compare b = List.compareLex VersionSegment.compare a b := by
  induction a generalizing b with
  | nil => cases b <;> rfl
  | cons left own ih =>
    cases b with
    | nil => rfl
    | cons right theirs =>
      rw [VersionKey.compare, List.compareLex_cons_cons]
      cases left.compare right
      · rfl
      · exact ih theirs
      · rfl

theorem VersionKey.compare_fun : VersionKey.compare = List.compareLex VersionSegment.compare := by
  funext a b
  exact VersionKey.compare_eq_compareLex a b

instance : Std.TransCmp VersionKey.compare := by
  rw [VersionKey.compare_fun]
  infer_instance

instance : Std.LawfulEqCmp VersionKey.compare := by
  rw [VersionKey.compare_fun]
  infer_instance

/-! ## The order of the numbers -/

/-- The numbers of a part, separated by `-`. -/
def partNumbers (part : List Char) : List ℕ := (part.splitOn '-').map digitsValue

/-- The numbers of a version, separated by `.` and `-`. -/
def versionNumbers (value : String) : List ℕ := (versionParts value).flatMap partNumbers

/-- Numbers separated by `-`. -/
def IsNumbers (part : List Char) : Prop :=
  ∀ number ∈ part.splitOn '-', number ≠ [] ∧ number.all Char.isDigit

/-- Numbers separated by `.` and `-`, the form of the pack versions. -/
def IsPackVersion (value : String) : Prop := ∀ part ∈ versionParts value, IsNumbers part

instance (part : List Char) : Decidable (IsNumbers part) :=
  inferInstanceAs (Decidable (∀ number ∈ part.splitOn '-', number ≠ [] ∧ number.all Char.isDigit))

instance (value : String) : Decidable (IsPackVersion value) :=
  inferInstanceAs (Decidable (∀ part ∈ versionParts value, IsNumbers part))

/-- At the first parts in which two versions differ, both are plain numbers below `2^64`, or
    the code orders these parts as their numbers and what follows. -/
def FirstDifferenceFits : List (List Char) → List (List Char) → Prop
  | p :: ps, q :: qs =>
    if VersionSegment.parse p = VersionSegment.parse q then FirstDifferenceFits ps qs
    else (parseU64 p).isSome ∧ (parseU64 q).isSome ∨
      (VersionSegment.parse p).compare (VersionSegment.parse q) =
        compare ((p :: ps).flatMap partNumbers) ((q :: qs).flatMap partNumbers)
  | _, _ => True

/-- An element is the separator or in one of the pieces. -/
theorem mem_splitOn {separator c : Char} {text : List Char} (h : c ∈ text) :
    c = separator ∨ ∃ piece ∈ text.splitOn separator, c ∈ piece := by
  induction text with
  | nil => cases h
  | cons d text ih =>
    rw [List.splitOn_cons_eq_if_modifyHead]
    obtain ⟨first, rest, hpieces⟩ := List.exists_cons_of_ne_nil (List.splitOn_ne_nil separator text)
    rw [hpieces] at ih ⊢
    by_cases hd : d = separator
    · rw [if_pos (beq_iff_eq.mpr hd)]
      rcases List.mem_cons.mp h with rfl | h
      · exact .inl hd
      · exact (ih h).imp_right fun ⟨piece, hpiece, hc⟩ => ⟨piece, List.mem_cons_of_mem _ hpiece, hc⟩
    · rw [if_neg (by simpa using hd), List.modifyHead_cons]
      rcases List.mem_cons.mp h with rfl | h
      · exact .inr ⟨_, List.mem_cons_self, List.mem_cons_self⟩
      · refine (ih h).imp_right fun ⟨piece, hpiece, hc⟩ => ?_
        rcases List.mem_cons.mp hpiece with rfl | hpiece
        · exact ⟨_, List.mem_cons_self, List.mem_cons_of_mem _ hc⟩
        · exact ⟨piece, List.mem_cons_of_mem _ hpiece, hc⟩

theorem IsNumbers.head_ne {part : List Char} (hpart : IsNumbers part) : part.head? ≠ some '+' := by
  intro hhead
  obtain h | ⟨number, hnumber, hplus⟩ : '+' = '-' ∨ ∃ number ∈ part.splitOn '-', '+' ∈ number :=
    mem_splitOn (List.mem_of_head? hhead)
  · exact absurd h (by decide)
  · have hdigit := List.all_eq_true.mp (hpart number hnumber).2 _ hplus
    exact absurd hdigit (by decide)

theorem partNumbers_of_parseU64 {part : List Char} {number : ℕ} (hpart : IsNumbers part)
    (h : parseU64 part = some number) : partNumbers part = [number] := by
  unfold parseU64 at h
  rw [if_neg hpart.head_ne] at h
  simp only [Option.ite_none_right_eq_some, Option.some.injEq] at h
  obtain ⟨⟨-, hdigits, -⟩, rfl⟩ := h
  have hsingle : part.splitOn '-' = [part] := by
    refine List.splitOn_eq_singleton fun hdash => ?_
    exact absurd (List.all_eq_true.mp hdigits _ hdash) (by decide)
  rw [partNumbers, hsingle, List.map_singleton]

theorem partNumbers_congr {p q : List Char} (hp : IsNumbers p) (hq : IsNumbers q)
    (h : VersionSegment.parse p = VersionSegment.parse q) : partNumbers p = partNumbers q := by
  unfold VersionSegment.parse at h
  cases hpn : parseU64 p with
  | some n =>
    cases hqn : parseU64 q with
    | some m =>
      rw [hpn, hqn] at h
      cases h
      rw [partNumbers_of_parseU64 hp hpn, partNumbers_of_parseU64 hq hqn]
    | none =>
      rw [hpn, hqn] at h
      cases h
  | none =>
    cases hqn : parseU64 q with
    | some m =>
      rw [hpn, hqn] at h
      cases h
    | none =>
      rw [hpn, hqn] at h
      rw [String.ofList_inj.mp (VersionSegment.text.inj h)]

theorem partNumbers_ne_nil (part : List Char) : partNumbers part ≠ [] := by
  unfold partNumbers
  simp [List.splitOn_ne_nil]

/-- Equal numbers in front do not matter. -/
theorem compare_append_left (common a b : List ℕ) : compare (common ++ a) (common ++ b) = compare a b := by
  induction common with
  | nil => rfl
  | cons n common ih =>
    rw [List.cons_append, List.cons_append, List.compare_cons_cons, Std.ReflOrd.compare_self, ih]
    rfl

theorem compare_of_plain {p q : List Char} (hp : IsNumbers p) (hq : IsNumbers q)
    (hpn : (parseU64 p).isSome) (hqn : (parseU64 q).isSome)
    (hne : VersionSegment.parse p ≠ VersionSegment.parse q) (a b : List ℕ) :
    (VersionSegment.parse p).compare (VersionSegment.parse q) =
      compare (partNumbers p ++ a) (partNumbers q ++ b) := by
  obtain ⟨n, hn⟩ := Option.isSome_iff_exists.mp hpn
  obtain ⟨m, hm⟩ := Option.isSome_iff_exists.mp hqn
  have hkey : ∀ {part number}, parseU64 part = some number →
      VersionSegment.parse part = .numeric number := by
    intro part number h
    unfold VersionSegment.parse
    rw [h]
  rw [hkey hn, hkey hm] at hne ⊢
  rw [partNumbers_of_parseU64 hp hn, partNumbers_of_parseU64 hq hm, List.singleton_append,
    List.singleton_append, List.compare_cons_cons]
  have hnm : compare n m ≠ .eq := fun h => hne (by rw [Std.LawfulEqOrd.eq_of_compare h])
  show compare n m = _
  cases hcompare : compare n m
  · rfl
  · exact absurd hcompare hnm
  · rfl

/-- **The order of the code and the order of the numbers** agree on two versions exactly when
    they agree at the first difference. -/
theorem compare_parts_iff {ps qs : List (List Char)} (hps : ∀ p ∈ ps, IsNumbers p)
    (hqs : ∀ q ∈ qs, IsNumbers q) :
    VersionKey.compare (ps.map VersionSegment.parse) (qs.map VersionSegment.parse) =
      compare (ps.flatMap partNumbers) (qs.flatMap partNumbers) ↔ FirstDifferenceFits ps qs := by
  induction ps generalizing qs with
  | nil =>
    refine iff_of_true ?_ (by unfold FirstDifferenceFits; trivial)
    cases qs with
    | nil => rfl
    | cons q qs =>
      obtain ⟨n, rest, hq⟩ := List.exists_cons_of_ne_nil (partNumbers_ne_nil q)
      rw [List.flatMap_nil, List.flatMap_cons, hq, List.cons_append, List.compare_nil_cons]
      rfl
  | cons p ps ih =>
    cases qs with
    | nil =>
      refine iff_of_true ?_ (by unfold FirstDifferenceFits; trivial)
      obtain ⟨n, rest, hp⟩ := List.exists_cons_of_ne_nil (partNumbers_ne_nil p)
      rw [List.flatMap_nil, List.flatMap_cons, hp, List.cons_append, List.compare_cons_nil]
      rfl
    | cons q qs =>
      obtain ⟨hp, hps⟩ := List.forall_mem_cons.mp hps
      obtain ⟨hq, hqs⟩ := List.forall_mem_cons.mp hqs
      rw [List.map_cons, List.map_cons, VersionKey.compare, FirstDifferenceFits]
      by_cases hsame : VersionSegment.parse p = VersionSegment.parse q
      · have hself : (VersionSegment.parse q).compare (VersionSegment.parse q) = .eq :=
          Std.ReflCmp.compare_self
        rw [if_pos hsame, hsame, hself, List.flatMap_cons, List.flatMap_cons,
          partNumbers_congr hp hq hsame, compare_append_left]
        exact ih hps hqs
      · have hne : (VersionSegment.parse p).compare (VersionSegment.parse q) ≠ .eq :=
          fun h => hsame (Std.LawfulEqCmp.eq_of_compare h)
        have hhead : (match (VersionSegment.parse p).compare (VersionSegment.parse q) with
            | .eq => VersionKey.compare (ps.map VersionSegment.parse) (qs.map VersionSegment.parse)
            | ordering => ordering) = (VersionSegment.parse p).compare (VersionSegment.parse q) := by
          split
          · rename_i h
            exact absurd h hne
          · rfl
        rw [if_neg hsame, hhead]
        refine ⟨.inr, ?_⟩
        rintro (⟨hpn, hqn⟩ | h)
        · exact compare_of_plain hp hq hpn hqn hsame _ _
        · exact h

theorem VersionKey.compare_eq_numeric_iff {v w : String} (hv : IsPackVersion v)
    (hw : IsPackVersion w) :
    (parse v).compare (parse w) = Ord.compare (versionNumbers v) (versionNumbers w) ↔
      FirstDifferenceFits (versionParts v) (versionParts w) :=
  compare_parts_iff hv hw

end Anole
