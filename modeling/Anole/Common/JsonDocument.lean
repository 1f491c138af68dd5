import Anole.Common.Json
import Anole.Common.JsonSchema

/-!
# JSON values as documents

A JSON value with whole numbers is a document, from which it is read back.

* `Json.ofDocument_document`: the value that is read is the value that was written.
* `lookup_documents`: the field of an object is written as the document of its value.
* `optionalField_ofOption`: an optional value is read back from its field, null or not.
-/

open Common

namespace Anole.Common

namespace Json

mutual

/-- The document of a value. -/
def document : Json → Document
  | null => .null
  | bool value => .bool value
  | number value => .number (.integer value)
  | string text => .string text
  | array items => .array (documents items)
  | object entries => .object (entryDocuments entries)

def documents : List Json → List Document
  | [] => []
  | item :: items => item.document :: documents items

def entryDocuments : List (String × Json) → List (String × Document)
  | [] => []
  | (key, value) :: entries => (key, value.document) :: entryDocuments entries

end

mutual

/-- The value of a document, if its numbers are whole. -/
def ofDocument : Document → Option Json
  | .null => some null
  | .bool value => some (bool value)
  | .number (.integer value) => some (number value)
  | .number (.decimal _) => none
  | .string text => some (string text)
  | .array items => (ofDocuments items).map array
  | .object entries => (ofEntryDocuments entries).map object

def ofDocuments : List Document → Option (List Json)
  | [] => some []
  | item :: items => do
    let value ← ofDocument item
    let values ← ofDocuments items
    some (value :: values)

def ofEntryDocuments : List (String × Document) → Option (List (String × Json))
  | [] => some []
  | (key, item) :: entries => do
    let value ← ofDocument item
    let values ← ofEntryDocuments entries
    some ((key, value) :: values)

end

mutual

/-- What was written is read back. -/
@[simp] theorem ofDocument_document : ∀ value : Json, ofDocument value.document = some value
  | null => by rw [document, ofDocument]
  | bool value => by rw [document, ofDocument]
  | number value => by rw [document, ofDocument]
  | string text => by rw [document, ofDocument]
  | array items => by rw [document, ofDocument, ofDocuments_documents items, Option.map_some]
  | object entries => by rw [document, ofDocument, ofEntryDocuments_documents entries, Option.map_some]

theorem ofDocuments_documents : ∀ items : List Json, ofDocuments (documents items) = some items
  | [] => by rw [documents, ofDocuments]
  | item :: items => by
    rw [documents, ofDocuments, ofDocument_document item, ofDocuments_documents items]
    rfl

theorem ofEntryDocuments_documents :
    ∀ entries : List (String × Json), ofEntryDocuments (entryDocuments entries) = some entries
  | [] => by rw [entryDocuments, ofEntryDocuments]
  | (key, value) :: entries => by
    rw [entryDocuments, ofEntryDocuments, ofDocument_document value, ofEntryDocuments_documents entries]
    rfl

end

theorem documents_eq_map (items : List Json) : documents items = items.map document := by
  induction items with
  | nil => rw [documents, List.map_nil]
  | cons item items ih => rw [documents, ih, List.map_cons]

theorem lookup_documents (entries : List (String × Json)) (key : String) :
    (entryDocuments entries).lookup key = (entries.lookup key).map document := by
  induction entries with
  | nil => rw [entryDocuments, List.lookup_nil, List.lookup_nil, Option.map_none]
  | cons entry entries ih =>
    rw [entryDocuments, List.lookup_cons, List.lookup_cons, ih]
    cases key == entry.1 <;> rfl

end Json

/-! ## Reading what was written -/

section Readers

variable {α : Type} {read : Document → Option α} {write : α → Json}

/-- A reader of what a writer writes. -/
def ReadsBack (read : Document → Option α) (write : α → Json) (a : α) : Prop :=
  read (write a).document = some a

theorem readsBack_string (text : String) : ReadsBack readString .string text := by
  rw [ReadsBack, Json.document, readString]

theorem readsBack_bool (value : Bool) : ReadsBack readBool .bool value := by
  rw [ReadsBack, Json.document, readBool]

theorem readsBack_natural {bits n : ℕ} (h : n < 2 ^ bits) : ReadsBack (readUnsigned bits) .natural n := by
  rw [ReadsBack, Json.natural, Json.document, readUnsigned, if_pos ⟨Int.natCast_nonneg n, by exact_mod_cast h⟩,
    Int.toNat_natCast]

/-- The items of an array are read back, where the writer may refuse one. -/
theorem readArray_mapM {write : α → Option Json} {items : List α} {values : List Json}
    (h : ∀ a ∈ items, ∀ value, write a = some value → read value.document = some a)
    (hvalues : items.mapM write = some values) : readArray read (Json.array values).document = some items := by
  rw [Json.document, Json.documents_eq_map, readArray]
  induction items generalizing values with
  | nil =>
    cases hvalues
    rfl
  | cons a items ih =>
    rw [List.mapM_cons] at hvalues
    obtain ⟨value, hvalue, hvalues⟩ := Option.bind_eq_some_iff.mp hvalues
    obtain ⟨rest, hrest, heq⟩ := Option.bind_eq_some_iff.mp hvalues
    cases heq
    rw [List.map_cons, List.mapM_cons, h a List.mem_cons_self value hvalue,
      ih (fun b hb => h b (List.mem_cons_of_mem a hb)) hrest]
    rfl

theorem readArray_strings (texts : List String) : readArray readString (Json.strings texts).document = some texts := by
  have hwritten : texts.mapM (fun text => some (Json.string text)) = some (texts.map .string) := List.mapM_pure
  refine readArray_mapM ?_ hwritten
  intro text _ value hvalue
  cases hvalue
  exact readsBack_string text

variable {entries : List (String × Json)} (key : String)

theorem requiredField_document {a : α} (value : Json) (hfield : entries.lookup key = some value)
    (h : read value.document = some a) : requiredField read (Json.entryDocuments entries) key = some a := by
  rw [requiredField, Json.lookup_documents, hfield, Option.map_some, Option.bind_some, h]

theorem defaultedField_document {a default : α} (value : Json) (hfield : entries.lookup key = some value)
    (h : read value.document = some a) :
    defaultedField read (Json.entryDocuments entries) key default = some a := by
  rw [defaultedField, Json.lookup_documents, hfield]
  exact h

/-- A writer that never writes null is read back from an optional field. -/
theorem optionalField_ofOption (a : Option α) (hfield : entries.lookup key = some (.ofOption write a))
    (hnull : ∀ a, (write a).document ≠ .null) (h : ∀ b ∈ a, ReadsBack read write b) :
    optionalField read (Json.entryDocuments entries) key = some a := by
  rw [optionalField, Json.lookup_documents, hfield, Option.map_some]
  cases a with
  | none => rw [Json.ofOption, Json.document]
  | some b =>
    have hread : read (write b).document = some b := h b rfl
    rw [Json.ofOption]
    split
    · contradiction
    · rename_i heq
      exact absurd (Option.some_inj.mp heq) (hnull b)
    · rename_i heq
      rw [← Option.some_inj.mp heq, hread, Option.map_some]

end Readers

end Anole.Common
