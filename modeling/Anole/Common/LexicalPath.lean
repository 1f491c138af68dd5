import Mathlib.Data.List.Basic
import Mathlib.Data.Nat.Notation

/-!
# Lexical normalization of paths

The parts of a path lead from a directory to another one by their names alone: a name goes down, and
`..` goes up, which at the top leads nowhere. What a list of parts does from any directory is to climb
up some levels, and then to go down some names (`resolve_eq`).
-/

namespace Anole.Common

variable {α β : Type}

/-- A part of a path: `.`, `..` or a name. -/
inductive PathPart (α : Type) where
  | here
  | parent
  | name (name : α)

namespace PathPart

/-- The directory where a part leads. -/
def follow (directory : List α) : PathPart α → List α
  | here => directory
  | parent => directory.dropLast
  | name a => directory ++ [a]

/-- The directory where the parts lead. -/
def resolve (directory : List α) (parts : List (PathPart α)) : List α := parts.foldl follow directory

/-- Levels up, and then names down. -/
structure Climb (α : Type) where
  up : ℕ
  names : List α

def Climb.follow (climb : Climb α) : PathPart α → Climb α
  | here => climb
  | parent => if climb.names = [] then ⟨climb.up + 1, []⟩ else ⟨climb.up, climb.names.dropLast⟩
  | name a => ⟨climb.up, climb.names ++ [a]⟩

/-- What the parts do, from any directory. -/
def climb (parts : List (PathPart α)) : Climb α := parts.foldl Climb.follow ⟨0, []⟩

/-- The directory after a climb. -/
def Climb.from (climb : Climb α) (directory : List α) : List α :=
  directory.take (directory.length - climb.up) ++ climb.names

theorem Climb.from_follow (climb : Climb α) (directory : List α) (part : PathPart α) :
    (climb.follow part).from directory = PathPart.follow (climb.from directory) part := by
  cases part with
  | here => rfl
  | name a => rw [Climb.follow, Climb.from, PathPart.follow, Climb.from, List.append_assoc]
  | parent =>
    rw [Climb.follow, PathPart.follow]
    split
    · rename_i hnil
      rw [Climb.from, Climb.from, hnil, List.append_nil, List.append_nil, List.dropLast_eq_take, List.take_take,
        List.length_take]
      have hlength : directory.length - (climb.up + 1) =
          min (min (directory.length - climb.up) directory.length - 1) (directory.length - climb.up) := by omega
      rw [← hlength]
    · rename_i hnames
      rw [Climb.from, Climb.from, List.dropLast_append_of_ne_nil hnames]

/-- **The parts climb** from any directory in the same way. -/
theorem resolve_eq (directory : List α) (parts : List (PathPart α)) :
    resolve directory parts = (climb parts).from directory := by
  have hfrom : ∀ start : Climb α, resolve (start.from directory) parts =
      (parts.foldl Climb.follow start).from directory := by
    induction parts with
    | nil => exact fun start => rfl
    | cons part parts ih =>
      intro start
      rw [List.foldl_cons, ← ih, Climb.from_follow]
      rfl
  have hstart : (⟨0, []⟩ : Climb α).from directory = directory := by
    rw [Climb.from, Nat.sub_zero, List.take_length, List.append_nil]
  rw [climb, ← hfrom, hstart]

/-- A part with another name. -/
def map (f : α → β) : PathPart α → PathPart β
  | here => here
  | parent => parent
  | name a => name (f a)

/-- Parts climb in the same way under other names. -/
theorem climb_map (f : α → β) (parts : List (PathPart α)) :
    climb (parts.map (map f)) = ⟨(climb parts).up, (climb parts).names.map f⟩ := by
  have hfrom : ∀ start : Climb α, (parts.map (map f)).foldl Climb.follow ⟨start.up, start.names.map f⟩ =
      ⟨(parts.foldl Climb.follow start).up, (parts.foldl Climb.follow start).names.map f⟩ := by
    induction parts with
    | nil => exact fun start => rfl
    | cons part parts ih =>
      intro start
      rw [List.map_cons, List.foldl_cons, List.foldl_cons, ← ih]
      congr 1
      cases part with
      | here => rfl
      | name a => simp only [map, Climb.follow, List.map_append, List.map_cons, List.map_nil]
      | parent =>
        simp only [map, Climb.follow, List.map_eq_nil_iff]
        split
        · rfl
        · rw [List.map_dropLast]
  exact hfrom ⟨0, []⟩

/-! ## A name and the parts after it -/

/-- Where the parts after a first name lead, which is `none`. -/
def excursion (rest : List (PathPart α)) : Climb (Option α) := climb (name none :: rest.map (map some))

theorem climb_cons (first : α) (rest : List (PathPart α)) :
    climb (name first :: rest) = ⟨(excursion rest).up, (excursion rest).names.map (·.getD first)⟩ := by
  rw [excursion, ← climb_map]
  congr 1
  rw [List.map_cons, List.map_map]
  congr 1
  refine (List.map_id'' (fun part => ?_) rest).symm
  cases part <;> rfl

/-- Above the start the first name is left. -/
theorem none_not_mem_excursion (rest : List (PathPart α)) (h : (excursion rest).up ≠ 0) :
    none ∉ (excursion rest).names := by
  have hfrom : ∀ start : Climb (Option α), (start.up ≠ 0 → none ∉ start.names) →
      ((rest.map (map some)).foldl Climb.follow start).up ≠ 0 →
        none ∉ ((rest.map (map some)).foldl Climb.follow start).names := by
    clear h
    induction rest with
    | nil => exact fun start hstart => hstart
    | cons part rest ih =>
      intro start hstart
      rw [List.map_cons, List.foldl_cons]
      refine ih _ ?_
      cases part with
      | here => exact hstart
      | name a =>
        intro hup hmem
        rcases List.mem_append.mp hmem with hold | hnew
        · exact hstart hup hold
        · cases List.mem_singleton.mp hnew
      | parent =>
        simp only [map, Climb.follow]
        split
        · exact fun _ => List.not_mem_nil
        · exact fun hup hmem => hstart hup (List.dropLast_subset _ hmem)
  exact hfrom ⟨0, [none]⟩ (fun hzero => absurd rfl hzero) h

/-- The parts lead back to one name in the directory: down to it when they never leave the directory,
    and else through the names of the directory that they have left. -/
def Returns (directory : List α) (rest : List (PathPart α)) : Prop :=
  ∃ last, (excursion rest).names =
    (directory.drop (directory.length - (excursion rest).up)).map some ++ [last]

/-- **A name with parts after it** leads to a child of the directory exactly when the parts return. -/
theorem resolve_child_iff (directory : List α) (first : α) (rest : List (PathPart α)) :
    (∃ child, resolve directory (name first :: rest) = directory ++ [child]) ↔ Returns directory rest := by
  have hsplit : ∀ child, resolve directory (name first :: rest) = directory ++ [child] ↔
      (excursion rest).names.map (·.getD first) =
        directory.drop (directory.length - (excursion rest).up) ++ [child] := by
    intro child
    have hdirectory : directory ++ [child] = directory.take (directory.length - (excursion rest).up) ++
        (directory.drop (directory.length - (excursion rest).up) ++ [child]) := by
      rw [← List.append_assoc, List.take_append_drop]
    rw [resolve_eq, climb_cons, Climb.from, hdirectory, List.append_cancel_left_eq]
  constructor
  · rintro ⟨child, hchild⟩
    have hnames := (hsplit child).mp hchild
    by_cases hup : (excursion rest).up = 0
    · rw [hup, Nat.sub_zero, List.drop_length, List.nil_append] at hnames
      obtain ⟨last, hlast, -⟩ := List.map_eq_singleton_iff.mp hnames
      refine ⟨last, ?_⟩
      rw [hup, Nat.sub_zero, List.drop_length, List.map_nil, List.nil_append, hlast]
    · have hsome : (excursion rest).names = ((excursion rest).names.map (·.getD first)).map some := by
        rw [List.map_map]
        refine (List.map_id'' (fun _ => rfl) _).symm.trans (List.map_congr_left fun part hpart => ?_)
        cases part with
        | none => exact absurd hpart (none_not_mem_excursion rest hup)
        | some a => rfl
      refine ⟨some child, ?_⟩
      rw [hsome, hnames, List.map_append, List.map_cons, List.map_nil]
  · rintro ⟨last, hlast⟩
    refine ⟨last.getD first, (hsplit _).mpr ?_⟩
    rw [hlast, List.map_append, List.map_map, List.map_cons, List.map_nil]
    congr 1
    exact List.map_id'' (fun _ => rfl) _

/-- A name alone returns. -/
theorem returns_nil (directory : List α) : Returns directory ([] : List (PathPart α)) :=
  ⟨none, by rw [show excursion ([] : List (PathPart α)) = ⟨0, [none]⟩ from rfl, Nat.sub_zero, List.drop_length]; rfl⟩

end PathPart

end Anole.Common
