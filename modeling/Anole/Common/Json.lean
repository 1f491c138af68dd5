import Mathlib.Data.Int.Notation
import Mathlib.Data.List.Basic
import Mathlib.Data.Nat.Notation

/-!
# JSON values and ordered maps

Maps from text in the order of their keys, and JSON values with whole numbers.
-/

namespace Anole.Common

/-- A map from text, as the list of its entries in the order of their keys. -/
abbrev TextMap (α : Type) := List (String × α)

namespace TextMap

variable {α : Type} {key other : String} {value : α} {map : TextMap α}

/-- The map with a key set to a value. -/
def insert (key : String) (value : α) : TextMap α → TextMap α
  | [] => [(key, value)]
  | entry :: rest =>
    if key = entry.1 then (key, value) :: rest
    else if key < entry.1 then (key, value) :: entry :: rest
    else entry :: insert key value rest

/-- The map of a list of entries, of which later ones replace earlier ones. -/
def ofList (entries : List (String × α)) : TextMap α :=
  entries.foldl (fun map entry => insert entry.1 entry.2 map) []

@[simp] theorem lookup_insert : (insert key value map).lookup key = some value := by
  induction map with
  | nil => simp [insert]
  | cons entry rest ih =>
    rw [insert]
    split_ifs with hsame hbefore
    · simp
    · simp
    · rw [List.lookup_cons, show (key == entry.1) = false by simpa using hsame]
      exact ih

theorem lookup_insert_of_ne (h : other ≠ key) :
    (insert key value map).lookup other = map.lookup other := by
  have hkey : (other == key) = false := by simpa using h
  induction map with
  | nil => simp [insert, List.lookup_cons, hkey]
  | cons entry rest ih =>
    rw [insert]
    split_ifs with hsame hbefore
    · rw [List.lookup_cons, List.lookup_cons, ← hsame, hkey]
    · rw [List.lookup_cons, hkey]
    · rw [List.lookup_cons, List.lookup_cons, ih]

/-- The last entry of a key is the one that counts. -/
theorem lookup_ofList (entries : List (String × α)) (key : String) :
    (ofList entries).lookup key = entries.reverse.lookup key := by
  rw [ofList, ← List.foldr_reverse]
  induction entries.reverse with
  | nil => rfl
  | cons entry rest ih =>
    rw [List.foldr_cons]
    by_cases hkey : key = entry.1
    · rw [hkey, lookup_insert, List.lookup_cons, beq_self_eq_true]
    · rw [lookup_insert_of_ne hkey, ih, List.lookup_cons, beq_false_of_ne hkey]

/-- Where no key is listed twice, each entry counts. -/
theorem lookup_ofList_of_mem {entries : List (String × α)} (hkeys : (entries.map Prod.fst).Nodup)
    (h : (key, value) ∈ entries) : (ofList entries).lookup key = some value := by
  rw [lookup_ofList]
  obtain ⟨before, after, rfl⟩ := List.append_of_mem h
  rw [List.map_append, List.map_cons] at hkeys
  have hafter : after.reverse.lookup key = none := by
    rw [List.lookup_eq_none_iff]
    intro entry hentry
    have hne : key ≠ entry.1 := by
      intro heq
      rw [heq] at hkeys
      exact (List.nodup_cons.mp (List.nodup_append.mp hkeys).2.1).1
        (List.mem_map.mpr ⟨entry, List.mem_reverse.mp hentry, rfl⟩)
    simpa using hne
  rw [List.reverse_append, List.reverse_cons, List.append_assoc, List.singleton_append, List.lookup_append, hafter,
    Option.none_or, List.lookup_cons, beq_self_eq_true]

end TextMap

/-- A JSON value. -/
inductive Json where
  | null
  | bool (value : Bool)
  | number (value : ℤ)
  | string (text : String)
  | array (items : List Json)
  | object (entries : List (String × Json))

namespace Json

/-- An optional value. -/
def ofOption {α : Type} (f : α → Json) : Option α → Json
  | none => null
  | some a => f a

/-- The value under a key of an object. -/
def field? (key : String) : Json → Option Json
  | object entries => entries.lookup key
  | _ => none

def natural (n : ℕ) : Json := number n

def strings (texts : List String) : Json := array (texts.map string)

end Json

end Anole.Common
