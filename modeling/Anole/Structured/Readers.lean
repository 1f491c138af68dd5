import Anole.Common.Json
import Anole.Store.Jobs

/-!
# Readers of structured data

Model of the readers of CSV, JSON, YAML and XML (`crates/core/src/structured.rs`, lines 381–639 and
895–937 and 1002–1107). Each of them turns what a parser hands over into records, which are maps
from field names to values.

A parser of JSON or YAML hands over a tree: a place where it reports an error is part of the tree,
and so is a key that is no text. A parser of XML hands over a list of events. The texts of parsers
are kept without line and column.
-/

namespace Anole

open Anole.Common

/-! ## Values -/

/-- `serde_json::Number`; a float is given by its bits. -/
inductive Number where
  | integer (value : ℤ)
  | float (bits : UInt64)

/-- `f64::is_finite`. -/
def isFinite (bits : UInt64) : Bool := bits.toNat / 2 ^ 52 % 2 ^ 11 ≠ 2 ^ 11 - 1

/-- `serde_json::Value`. -/
inductive Value where
  | null
  | bool (value : Bool)
  | number (number : Number)
  | string (text : String)
  | array (items : List Value)
  | object (entries : List (String × Value))

/-- A record: `BTreeMap<String, Value>`. -/
abbrev Record := TextMap Value

/-! ## Errors -/

def inputError (message : String) : AnoleError :=
  .new .inputInvalid .inspect message "Correct the structured input or choose an explicit mapping."

def parseError (label error : String) : AnoleError :=
  (AnoleError.new .inputInvalid .inspect s!"Unable to parse {label}" "Correct the input and retry.").withDiagnostic error

/-! ## JSON and YAML -/

/-- What a deserializer hands over, in the order of the document. -/
inductive Node where
  | null
  | bool (value : Bool)
  | integer (value : ℤ)
  | float (bits : UInt64)
  | text (text : String)
  | sequence (items : List Node)
  | mapping (entries : List (Option String × Node))
  | failing (error : String)

mutual

/-- `StrictJsonValue::deserialize` with the visits of `StrictJsonVisitor` (lines 1015–1107). -/
def strictValue : Node → Except String Value
  | .null => .ok .null
  | .bool value => .ok (.bool value)
  | .integer value => .ok (.number (.integer value))
  | .float bits => if isFinite bits then .ok (.number (.float bits)) else .error "non-finite JSON number"
  | .text text => .ok (.string text)
  | .sequence items => strictSeq items []
  | .mapping entries => strictMap entries []
  | .failing error => .error error

/-- `StrictJsonVisitor::visit_seq`. -/
def strictSeq : List Node → List Value → Except String Value
  | [], values => .ok (.array values)
  | item :: items, values => do
    let value ← strictValue item
    strictSeq items (values ++ [value])

/-- `StrictJsonVisitor::visit_map`. -/
def strictMap : List (Option String × Node) → TextMap Value → Except String Value
  | [], values => .ok (.object values)
  | (none, _) :: _, _ => .error "invalid type for a key, expected a string"
  | (some key, node) :: entries, values => do
    let value ← strictValue node
    if (values.lookup key).isSome then .error s!"duplicate JSON key: {key}"
    else strictMap entries (values.insert key value)

end

mutual

/-- `serde_json::Value::deserialize`, which `read_yaml` uses. -/
def plainValue : Node → Except String Value
  | .null => .ok .null
  | .bool value => .ok (.bool value)
  | .integer value => .ok (.number (.integer value))
  | .float bits => .ok (if isFinite bits then .number (.float bits) else .null)
  | .text text => .ok (.string text)
  | .sequence items => plainSeq items []
  | .mapping entries => plainMap entries []
  | .failing error => .error error

def plainSeq : List Node → List Value → Except String Value
  | [], values => .ok (.array values)
  | item :: items, values => do
    let value ← plainValue item
    plainSeq items (values ++ [value])

/-- A later entry replaces an earlier one. -/
def plainMap : List (Option String × Node) → TextMap Value → Except String Value
  | [], values => .ok (.object values)
  | (none, _) :: _, _ => .error "invalid type for a key, expected a string"
  | (some key, node) :: entries, values => do
    let value ← plainValue node
    plainMap entries (values.insert key value)

end

/-- The record of an item. -/
def recordOf (label : String) (index : ℕ) : Value → Except AnoleError Record
  | .object entries => .ok entries
  | _ => .error (inputError s!"{label} record {index} is not an object")

def recordsOf (label : String) : (index : ℕ) → List Value → Except AnoleError (List Record)
  | _, [] => .ok []
  | index, item :: items => do
    let record ← recordOf label index item
    let records ← recordsOf label (index + 1) items
    .ok (record :: records)

/-- `records_from_value` (lines 609–624). -/
def recordsFromValue (value : Value) (label : String) : Except AnoleError (List Record) :=
  match value with
  | .array items => recordsOf label 0 items
  | _ => .error (inputError s!"{label} input must be a top-level array of record objects")

/-- `read_json` (lines 463–472); `trailing` is the error of the deserializer for what follows. -/
def readJson (document : Node) (trailing : Option String) : Except AnoleError (List Record) :=
  match strictValue document with
  | .error error => .error (parseError "JSON" error)
  | .ok value => match trailing with
    | some error => .error (parseError "JSON trailing data" error)
    | none => recordsFromValue value "JSON"

/-- `read_yaml` (lines 474–478). -/
def readYaml (document : Node) : Except AnoleError (List Record) :=
  match plainValue document with
  | .error error => .error (parseError "YAML" error)
  | .ok value => recordsFromValue value "YAML"

/-! ## CSV -/

/-- The rows of a file, each as a record of the headers. -/
def csvRecords (headers : List String) : List (Except String (List String)) → Except AnoleError (List Record)
  | [] => .ok []
  | .error error :: _ => .error (parseError "CSV record" error)
  | .ok row :: rows => do
    let records ← csvRecords headers rows
    .ok (TextMap.ofList ((headers.zip row).map fun field => (field.1, Value.string field.2)) :: records)

/-- `read_csv` (lines 434–461). -/
def readCsv (header : Except String (List String)) (rows : List (Except String (List String))) :
    Except AnoleError (List Record) :=
  match header with
  | .error error => .error (parseError "CSV header" error)
  | .ok headers =>
    if headers = [] ∨ "" ∈ headers then .error (inputError "CSV headers must be non-empty")
    else if ¬ headers.Nodup then .error (inputError "Duplicate CSV headers are not allowed")
    else csvRecords headers rows

/-! ## XML -/

/-- The classes of characters of the Unicode tables that the program asks for. -/
structure Unicode where
  alphabetic : Char → Bool
  numeric : Char → Bool

/-- An error of the text of an event: of its encoding, or of a reference in it. -/
inductive XmlTextError where
  | decode (error : String)
  | entity (error : String)

/-- An event of `quick_xml`. A name is missing when it is not UTF-8; `attributes` says that the
    iterator over the attributes has a first item. -/
inductive XmlEvent where
  | start (name : Option String) (attributes : Bool)
  | empty (name : Option String) (attributes : Bool)
  | close (name : Option String)
  | text (content : Except XmlTextError String)
  | cdata (content : Except String String)
  | generalRef (name : Except String String)
  | docType
  | decl
  | comment
  | pi
  | failed (error : String)

/-- The variables of `read_xml`. -/
structure XmlState where
  depth : ℕ := 0
  records : List Record := []
  currentRecord : Option Record := none
  currentField : Option (String × String) := none

/-- `valid_xml_name` (lines 927–937). -/
def validXmlName (unicode : Unicode) (name : String) : Bool :=
  match name.toList with
  | [] => false
  | first :: rest =>
    (first = '_' || unicode.alphabetic first) && rest.all fun c =>
      c = '_' || c = '-' || c = '.' || (unicode.alphabetic c || unicode.numeric c)

/-- `insert_xml_field` (lines 895–908). -/
def insertXmlField (record : Option Record) (field value : String) : Except AnoleError Record :=
  match record with
  | none => .error (inputError "XML field is outside a record")
  | some record =>
    if (record.lookup field).isSome then .error (inputError s!"Duplicate XML field: {field}")
    else .ok (record.insert field (.string value))

/-- `reject_xml_attributes` and `xml_event_name` (lines 910–925). -/
def elementName (name : Option String) (attributes : Bool) : Except AnoleError String :=
  if attributes then .error (.new .policyBlocked .inspect "XML attributes are outside the records-v1 mapping"
    "Represent values as record field elements or choose JSON/YAML.")
  else match name with
    | none => .error (parseError "XML element name" "invalid utf-8")
    | some name => .ok name

/-- The text of one of the five predefined entities. -/
def predefinedEntity : String → Option String
  | "amp" => some "&"
  | "lt" => some "<"
  | "gt" => some ">"
  | "apos" => some "'"
  | "quot" => some "\""
  | _ => none

/-- Text goes to the field that is open; elsewhere it has to be blank. -/
def pushXmlText (state : XmlState) (text message : String) : Except AnoleError XmlState :=
  match state.currentField with
  | some (name, value) => .ok { state with currentField := some (name, value ++ text) }
  | none => if text.toList.all isWhitespace then .ok state else .error (inputError message)

/-- One round of the loop of `read_xml` (lines 491–600). -/
def xmlStep (unicode : Unicode) (state : XmlState) : XmlEvent → Except AnoleError XmlState
  | .start name attributes => do
    let name ← elementName name attributes
    let depth := state.depth + 1
    if depth = 1 ∧ name = "records" then .ok { state with depth := depth }
    else if depth = 2 ∧ name = "record" then .ok { state with depth := depth, currentRecord := some [] }
    else if depth = 3 ∧ state.currentRecord.isSome ∧ validXmlName unicode name then
      .ok { state with depth := depth, currentField := some (name, "") }
    else .error (inputError "XML must use records/record/field without nesting")
  | .empty name attributes => do
    let name ← elementName name attributes
    if state.depth = 2 ∧ state.currentRecord.isSome ∧ validXmlName unicode name then
      let record ← insertXmlField state.currentRecord name ""
      .ok { state with currentRecord := some record }
    else .error (inputError "Unexpected empty XML element")
  | .text (.error (.decode error)) => .error (parseError "XML text" error)
  | .text (.error (.entity error)) => .error (parseError "XML entity" error)
  | .text (.ok text) => pushXmlText state text "XML text is only allowed inside record fields"
  | .cdata (.error error) => .error (parseError "XML CDATA" error)
  | .cdata (.ok text) => pushXmlText state text "XML CDATA is only allowed inside record fields"
  | .generalRef (.error error) => .error (parseError "XML entity reference" error)
  | .generalRef (.ok name) => match predefinedEntity name with
    | none => .error (.new .policyBlocked .inspect s!"XML entity reference is disabled: &{name};"
        "Use literal text or one of the five predefined XML entities.")
    | some text => match state.currentField with
      | none => .error (inputError "XML entities are only allowed inside fields")
      | some (field, value) => .ok { state with currentField := some (field, value ++ text) }
  | .close none => .error (parseError "XML element name" "invalid utf-8")
  | .close (some name) =>
    if state.depth = 3 then match state.currentField with
      | none => .error (inputError "XML field close is unbalanced")
      | some (field, value) =>
        if field ≠ name then .error (inputError "XML field close name does not match")
        else do
          let record ← insertXmlField state.currentRecord field value
          .ok { state with depth := 2, currentRecord := some record, currentField := none }
    else if state.depth = 2 ∧ name = "record" then match state.currentRecord with
      | none => .error (inputError "XML record close is unbalanced")
      | some record => .ok { state with depth := 1, records := state.records ++ [record], currentRecord := none }
    else if state.depth = 1 ∧ name = "records" then .ok { state with depth := 0 }
    else .error (inputError "Unexpected XML closing element")
  | .docType => .error (.new .policyBlocked .inspect "XML document types and external entities are disabled"
      "Remove the DTD and retry with self-contained records.")
  | .decl | .comment | .pi => .ok state
  | .failed error => .error (parseError "XML" error)

def xmlRun (unicode : Unicode) : XmlState → List XmlEvent → Except AnoleError XmlState
  | state, [] => .ok state
  | state, event :: events => do
    let state ← xmlStep unicode state event
    xmlRun unicode state events

/-- `read_xml` (lines 482–607), on the events up to the end of the file. -/
def readXml (unicode : Unicode) (events : List XmlEvent) : Except AnoleError (List Record) := do
  let state ← xmlRun unicode {} events
  if state.depth ≠ 0 ∨ state.currentRecord.isSome ∨ state.currentField.isSome then
    .error (inputError "XML document ended with unclosed elements")
  else .ok state.records

/-! ## Files -/

/-- What the parser of its format hands over of a file. -/
inductive Source where
  | csv (header : Except String (List String)) (rows : List (Except String (List String)))
  | json (document : Node) (trailing : Option String)
  | yaml (document : Node)
  | xml (events : List XmlEvent)

/-- The readers of `load_dataset` (lines 381–388). -/
def loadRecords (unicode : Unicode) : Source → Except AnoleError (List Record)
  | .csv header rows => readCsv header rows
  | .json document trailing => readJson document trailing
  | .yaml document => readYaml document
  | .xml events => readXml unicode events

end Anole
