import Mathlib.Algebra.Ring.Int.Defs
import Mathlib.Algebra.Ring.Nat
import Mathlib.Data.List.Nodup
import Mathlib.Data.Rat.Defs

/-!
# JSON documents, schemas and field readers

A JSON document keeps its number literals apart: a whole number written without
fraction and exponent, and every other literal. A schema is a test of documents; the
constructors are the keywords of JSON Schema, for which a number is its value however
it is written. A reader takes a value out of a document as a typed deserializer does:
only a plain literal in range is a machine integer, a missing or null optional field
is `none`, and a struct may refuse fields it does not know.
-/

namespace Common

/-- A number as a document writes it: digits, with a minus before a positive number, or
    a literal with a fraction or an exponent (and `-0`). -/
inductive NumberLiteral where
  | integer (n : ℤ)
  | decimal (value : ℚ)

/-- The number a literal denotes. -/
def NumberLiteral.value : NumberLiteral → ℚ
  | integer n => n
  | decimal value => value

/-- A JSON document. -/
inductive Document where
  | null
  | bool (value : Bool)
  | number (literal : NumberLiteral)
  | string (text : String)
  | array (items : List Document)
  | object (entries : List (String × Document))

/-- The value of a field of an object. -/
def Document.field? (key : String) : Document → Option Document
  | object entries => entries.lookup key
  | _ => none

/-! ## Schemas -/

/-- A schema, as the documents it accepts. -/
abbrev Schema := Document → Bool

namespace Schema

/-- `{ "const": n }` -/
def const (n : ℤ) : Schema
  | .number literal => literal.value = n
  | _ => false

/-- `{ "type": "integer", "minimum": …, "maximum": … }` -/
def integer (minimum maximum : ℤ) : Schema
  | .number literal => literal.value.den = 1 ∧ minimum ≤ literal.value ∧ literal.value ≤ maximum
  | _ => false

/-- `{ "type": "string" }` with what its `minLength`, `maxLength` and `pattern` ask. -/
def string (test : List Char → Bool) : Schema
  | .string text => test text.toList
  | _ => false

/-- `{ "type": "boolean" }` -/
def boolean : Schema
  | .bool _ => true
  | _ => false

/-- `{ "enum": … }` -/
def enum (texts : List String) : Schema
  | .string text => text ∈ texts
  | _ => false

/-- `{ "anyOf": [schema, { "type": "null" }] }` -/
def orNull (schema : Schema) : Schema
  | .null => true
  | document => schema document

/-- `{ "type": "array", "maxItems": …, "items": … }` -/
def array (maxItems : ℕ) (items : Schema) : Schema
  | .array documents => documents.length ≤ maxItems ∧ ∀ document ∈ documents, items document
  | _ => false

/-- `{ "type": "object", "additionalProperties": false, "required": …, "properties": … }` -/
def object (required : List String) (properties : List (String × Schema)) : Schema
  | .object entries =>
    (entries.map Prod.fst).Nodup ∧ (∀ key ∈ required, key ∈ entries.map Prod.fst) ∧
      ∀ entry ∈ entries, (properties.lookup entry.1).any fun schema => schema entry.2
  | _ => false

section Accepted

variable {required : List String} {properties : List (String × Schema)} {document : Document}
  {entries : List (String × Document)} {key : String} {schema : Schema}

theorem object_eq_true : object required properties document = true ↔
    ∃ entries, document = .object entries ∧ (entries.map Prod.fst).Nodup ∧
      (∀ key ∈ required, key ∈ entries.map Prod.fst) ∧
      ∀ entry ∈ entries, (properties.lookup entry.1).any fun schema => schema entry.2 := by
  cases document with
  | object entries => simp [object]
  | _ => simp [object]

/-- A required field is there, and its schema accepts its value. -/
theorem field_of_object (h : object required properties document = true) (hkey : key ∈ required)
    (hschema : properties.lookup key = some schema) :
    ∃ value, document.field? key = some value ∧ schema value = true := by
  obtain ⟨entries, rfl, -, hrequired, hentries⟩ := object_eq_true.mp h
  rw [Document.field?]
  cases hvalue : entries.lookup key with
  | none =>
    obtain ⟨entry, hentry, rfl⟩ := List.mem_map.mp (hrequired key hkey)
    have habsent := List.lookup_eq_none_iff.mp hvalue entry hentry
    simp at habsent
  | some value =>
    obtain ⟨before, after, hsplit, -⟩ := List.lookup_eq_some_iff.mp hvalue
    have hmem : (key, value) ∈ entries := by
      rw [hsplit]
      exact List.mem_append_right _ List.mem_cons_self
    have haccepted := hentries (key, value) hmem
    rw [hschema] at haccepted
    exact ⟨value, rfl, haccepted⟩

end Accepted

end Schema

/-! ## Readers -/

/-- An unsigned integer of some width: a plain literal in range. -/
def readUnsigned (bits : ℕ) : Document → Option ℕ
  | .number (.integer n) => if 0 ≤ n ∧ n < 2 ^ bits then some n.toNat else none
  | _ => none

def readU8 (document : Document) : Option UInt8 := (readUnsigned 8 document).map UInt8.ofNat

def readU16 (document : Document) : Option UInt16 := (readUnsigned 16 document).map UInt16.ofNat

def readU32 (document : Document) : Option UInt32 := (readUnsigned 32 document).map UInt32.ofNat

def readString : Document → Option String
  | .string text => some text
  | _ => none

def readBool : Document → Option Bool
  | .bool value => some value
  | _ => none

def readArray {α : Type} (read : Document → Option α) : Document → Option (List α)
  | .array items => items.mapM read
  | _ => none

section Fields

variable {α : Type} (read : Document → Option α) (entries : List (String × Document)) (key : String)

/-- A field that must be there. -/
def requiredField : Option α := (entries.lookup key).bind read

/-- A field of an optional type: `none` when it is missing or null. -/
def optionalField : Option (Option α) := match entries.lookup key with
  | none => some none
  | some .null => some none
  | some document => (read document).map some

/-- A field with a default for when it is missing. -/
def defaultedField (default : α) : Option α := match entries.lookup key with
  | none => some default
  | some document => read document

/-- The object has no two fields of one name. -/
def distinctFields : Bool := (entries.map Prod.fst).Nodup

/-- The object has no fields but the known ones (`deny_unknown_fields`). -/
def onlyFields (known : List String) : Bool := ∀ entry ∈ entries, entry.1 ∈ known

end Fields

end Common
