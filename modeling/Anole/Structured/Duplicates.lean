import Anole.Structured.XmlRecords

/-!
# Duplicate keys

A plan says that duplicate keys are rejected. The reader of CSV looks at the headers, that of XML
at the fields of a record, and that of JSON at the keys of every object. The reader of YAML has no
such check: `serde_json::Value` keeps the last of the values of a key.

* `strictValue_repeats`: JSON with a key twice is refused, however deep.
* `plainValue_ok_iff`: what YAML is accepted does not depend on its keys.
* `duplicates_rejected_iff`: when a file with a key twice is refused.
-/

open Common

namespace Anole

open Anole.Common

/-! ## Keys that come twice -/

/-- Some mapping of a tree has a key twice. -/
inductive Node.Repeats : Node → Prop where
  | here {entries : List (Option String × Node)} : ¬ (entries.filterMap Prod.fst).Nodup → Repeats (.mapping entries)
  | item {items : List Node} {item : Node} : item ∈ items → Repeats item → Repeats (.sequence items)
  | value {entries : List (Option String × Node)} {entry : Option String × Node} :
      entry ∈ entries → Repeats entry.2 → Repeats (.mapping entries)

/-- The elements of one parent in a record, or deeper, that are called the same. `open?` are the
    names so far in the elements that are open, the innermost first. -/
def xmlRepeats : (open? : List (List String)) → List XmlEvent → Bool
  | _, [] => false
  | names :: outer, .start (some name) _ :: events =>
    (2 ≤ outer.length && names.contains name) || xmlRepeats ([] :: (name :: names) :: outer) events
  | names :: outer, .empty (some name) _ :: events =>
    (2 ≤ outer.length && names.contains name) || xmlRepeats ((name :: names) :: outer) events
  | _ :: outer, .close _ :: events => xmlRepeats outer events
  | names, _ :: events => xmlRepeats names events

/-- Some mapping, object, header or record of a file has a key twice. -/
def Source.Repeats : Source → Prop
  | .csv header _ => ∃ headers, header = .ok headers ∧ ¬ headers.Nodup
  | .json document _ | .yaml document => document.Repeats
  | .xml events => xmlRepeats [[]] events = true

/-! ## JSON -/

section Json

variable {node : Node} {value : Value} {items : List Node} {entries : List (Option String × Node)} {values : List Value}
  {map : TextMap Value}

theorem strictSeq_ok (h : strictSeq items values = .ok value) : ∀ item ∈ items, ∃ found, strictValue item = .ok found := by
  induction items generalizing values with
  | nil => exact fun item hitem => absurd hitem List.not_mem_nil
  | cons first items ih =>
    rw [strictSeq] at h
    obtain ⟨found, hfirst, hrest⟩ := bind_eq_ok.mp h
    intro item hitem
    rcases List.mem_cons.mp hitem with rfl | hitem
    · exact ⟨found, hfirst⟩
    · exact ih hrest item hitem

/-- **An object that is read** has text keys, none of them twice, and values that are read. -/
theorem strictMap_ok (h : strictMap entries map = .ok value) :
    (entries.filterMap Prod.fst).Nodup ∧ (∀ key ∈ entries.filterMap Prod.fst, map.lookup key = none) ∧
      ∀ entry ∈ entries, ∃ found, strictValue entry.2 = .ok found := by
  induction entries generalizing map with
  | nil => simp
  | cons entry entries ih =>
    obtain ⟨key?, node⟩ := entry
    cases key? with
    | none =>
      rw [strictMap] at h
      cases h
    | some key =>
      rw [strictMap] at h
      obtain ⟨found, hnode, hrest⟩ := bind_eq_ok.mp h
      split at hrest
      · cases hrest
      · next hlookup =>
        have hnew : map.lookup key = none := Option.not_isSome_iff_eq_none.mp hlookup
        obtain ⟨hnodup, hlater, hvalues⟩ := ih hrest
        have hkeys : ((some key, node) :: entries).filterMap Prod.fst = key :: entries.filterMap Prod.fst := rfl
        rw [hkeys]
        refine ⟨List.nodup_cons.mpr ⟨fun hmem => ?_, hnodup⟩, ?_, ?_⟩
        · have := hlater key hmem
          rw [TextMap.lookup_insert] at this
          cases this
        · intro other hother
          rcases List.mem_cons.mp hother with rfl | hother
          · exact hnew
          · by_cases hsame : other = key
            · rw [hsame]
              exact hnew
            · rw [← hlater other hother, TextMap.lookup_insert_of_ne hsame]
        · intro entry hentry
          rcases List.mem_cons.mp hentry with rfl | hentry
          · exact ⟨found, hnode⟩
          · exact hvalues entry hentry

/-- **JSON with a key twice** is refused, however deep. -/
theorem strictValue_repeats (h : node.Repeats) : ∀ value, strictValue node ≠ .ok value := by
  induction h with
  | here hrepeats =>
    intro value hvalue
    rw [strictValue] at hvalue
    exact hrepeats (strictMap_ok hvalue).1
  | item hitem _ ih =>
    intro value hvalue
    rw [strictValue] at hvalue
    obtain ⟨found, hfound⟩ := strictSeq_ok hvalue _ hitem
    exact ih found hfound
  | value hentry _ ih =>
    intro value hvalue
    rw [strictValue] at hvalue
    obtain ⟨found, hfound⟩ := (strictMap_ok hvalue).2.2 _ hentry
    exact ih found hfound

end Json

/-! ## YAML -/

/-- No place of the tree is one where the deserializer fails, and its keys are texts. -/
inductive Node.Readable : Node → Prop where
  | null : Readable .null
  | bool (value : Bool) : Readable (.bool value)
  | integer (value : ℤ) : Readable (.integer value)
  | float (bits : UInt64) : Readable (.float bits)
  | text (text : String) : Readable (.text text)
  | sequence {items : List Node} : (∀ item ∈ items, Readable item) → Readable (.sequence items)
  | mapping {entries : List (Option String × Node)} : (∀ entry ∈ entries, entry.1.isSome) →
      (∀ entry ∈ entries, Readable entry.2) → Readable (.mapping entries)

/-- A sequence of mappings. -/
def Node.IsRecords (node : Node) : Prop :=
  ∃ items, node = .sequence items ∧ ∀ item ∈ items, ∃ entries, item = .mapping entries

section Yaml

variable {node : Node} {value : Value} {items : List Node} {values found : List Value}

/-- **What YAML is accepted** does not depend on its keys. -/
theorem plainValue_ok_iff (node : Node) : (∃ value, plainValue node = .ok value) ↔ node.Readable := by
  refine plainValue.induct (fun node => (∃ value, plainValue node = .ok value) ↔ node.Readable)
    (fun entries map => (∃ value, plainMap entries map = .ok value) ↔
      (∀ entry ∈ entries, entry.1.isSome) ∧ ∀ entry ∈ entries, entry.2.Readable)
    (fun items values => (∃ value, plainSeq items values = .ok value) ↔ ∀ item ∈ items, item.Readable)
    ?null ?bool ?integer ?float ?text ?sequence ?mapping ?failing ?seqNil ?seqCons ?mapNil ?mapKey ?mapCons node
  case null => exact ⟨fun _ => .null, fun _ => ⟨_, rfl⟩⟩
  case bool => exact fun value => ⟨fun _ => .bool value, fun _ => ⟨_, rfl⟩⟩
  case integer => exact fun value => ⟨fun _ => .integer value, fun _ => ⟨_, rfl⟩⟩
  case float => exact fun bits => ⟨fun _ => .float bits, fun _ => ⟨_, rfl⟩⟩
  case text => exact fun text => ⟨fun _ => .text text, fun _ => ⟨_, rfl⟩⟩
  case sequence =>
    intro items ih
    rw [plainValue, ih]
    constructor
    · exact .sequence
    · intro h
      cases h with
      | sequence hitems => exact hitems
  case mapping =>
    intro entries ih
    rw [plainValue, ih]
    constructor
    · exact fun h => .mapping h.1 h.2
    · intro h
      cases h with
      | mapping hkeys hvalues => exact ⟨hkeys, hvalues⟩
  case failing =>
    intro error
    constructor
    · rintro ⟨value, hvalue⟩
      cases hvalue
    · intro h
      cases h
  case seqNil => exact fun values => ⟨fun _ item hitem => absurd hitem List.not_mem_nil, fun _ => ⟨_, rfl⟩⟩
  case seqCons =>
    intro item items values hitem hitems
    rw [plainSeq, List.forall_mem_cons, ← hitem]
    constructor
    · rintro ⟨value, hvalue⟩
      obtain ⟨first, hfirst, hrest⟩ := bind_eq_ok.mp hvalue
      exact ⟨⟨first, hfirst⟩, (hitems first).mp ⟨value, hrest⟩⟩
    · rintro ⟨⟨first, hfirst⟩, hrest⟩
      obtain ⟨value, hvalue⟩ := (hitems first).mpr hrest
      exact ⟨value, bind_eq_ok.mpr ⟨first, hfirst, hvalue⟩⟩
  case mapNil => exact fun map => ⟨fun _ => by simp, fun _ => ⟨_, rfl⟩⟩
  case mapKey =>
    intro node entries map
    constructor
    · rintro ⟨value, hvalue⟩
      rw [plainMap] at hvalue
      cases hvalue
    · intro h
      have := h.1 _ List.mem_cons_self
      cases this
  case mapCons =>
    intro key node entries map hnode hentries
    rw [plainMap, List.forall_mem_cons, List.forall_mem_cons, ← hnode]
    constructor
    · rintro ⟨value, hvalue⟩
      obtain ⟨first, hfirst, hrest⟩ := bind_eq_ok.mp hvalue
      obtain ⟨hkeys, hvalues⟩ := (hentries first).mp ⟨value, hrest⟩
      exact ⟨⟨rfl, hkeys⟩, ⟨first, hfirst⟩, hvalues⟩
    · rintro ⟨⟨-, hkeys⟩, ⟨first, hfirst⟩, hvalues⟩
      obtain ⟨value, hvalue⟩ := (hentries first).mpr ⟨hkeys, hvalues⟩
      exact ⟨value, bind_eq_ok.mpr ⟨first, hfirst, hvalue⟩⟩

theorem plainSeq_ok (h : plainSeq items values = .ok value) :
    ∃ found, value = .array (values ++ found) ∧ List.Forall₂ (fun item value => plainValue item = .ok value) items found := by
  induction items generalizing values with
  | nil =>
    cases h
    exact ⟨[], by rw [List.append_nil], .nil⟩
  | cons item items ih =>
    rw [plainSeq] at h
    obtain ⟨first, hfirst, hrest⟩ := bind_eq_ok.mp h
    obtain ⟨found, rfl, hfound⟩ := ih hrest
    exact ⟨first :: found, by rw [List.append_assoc]; rfl, .cons hfirst hfound⟩

theorem recordsOf_ok (label : String) (index : ℕ) (values : List Value) :
    (∃ records, recordsOf label index values = .ok records) ↔ ∀ value ∈ values, ∃ entries, value = .object entries := by
  induction values generalizing index with
  | nil => simp [recordsOf]
  | cons value values ih =>
    rw [recordsOf, List.forall_mem_cons, ← ih (index + 1)]
    constructor
    · rintro ⟨records, hrecords⟩
      obtain ⟨record, hrecord, hrest⟩ := bind_eq_ok.mp hrecords
      obtain ⟨others, hothers, -⟩ := bind_eq_ok.mp hrest
      refine ⟨?_, others, hothers⟩
      cases value with
      | object entries => exact ⟨entries, rfl⟩
      | null | bool | number | string | array => cases hrecord
    · rintro ⟨⟨entries, rfl⟩, others, hothers⟩
      exact ⟨entries :: others, bind_eq_ok.mpr ⟨entries, rfl, bind_eq_ok.mpr ⟨others, hothers, rfl⟩⟩⟩

theorem plainMap_ok {entries : List (Option String × Node)} {map : TextMap Value} (h : plainMap entries map = .ok value) :
    ∃ map', value = .object map' := by
  induction entries generalizing map with
  | nil =>
    cases h
    exact ⟨map, rfl⟩
  | cons entry entries ih =>
    obtain ⟨key?, node⟩ := entry
    cases key? with
    | none =>
      rw [plainMap] at h
      cases h
    | some key =>
      rw [plainMap] at h
      obtain ⟨first, -, hrest⟩ := bind_eq_ok.mp h
      exact ih hrest

theorem plainValue_object (h : plainValue node = .ok value) :
    (∃ map, value = .object map) ↔ ∃ entries, node = .mapping entries := by
  cases node with
  | mapping entries =>
    rw [plainValue] at h
    exact ⟨fun _ => ⟨entries, rfl⟩, fun _ => plainMap_ok h⟩
  | sequence items =>
    rw [plainValue] at h
    obtain ⟨found, rfl, -⟩ := plainSeq_ok h
    simp
  | float bits =>
    rw [plainValue] at h
    cases h
    split <;> simp
  | null | bool | integer | text =>
    rw [plainValue] at h
    cases h
    simp
  | failing error =>
    rw [plainValue] at h
    cases h

theorem objects_iff (h : List.Forall₂ (fun item value => plainValue item = .ok value) items found) :
    (∀ value ∈ found, ∃ map, value = .object map) ↔ ∀ item ∈ items, ∃ entries, item = .mapping entries := by
  induction h with
  | nil => simp
  | cons hvalue _ ih => rw [List.forall_mem_cons, List.forall_mem_cons, plainValue_object hvalue, ih]

/-- **YAML is read** if and only if it is a sequence of mappings with text keys. -/
theorem readYaml_ok_iff (document : Node) :
    (∃ records, readYaml document = .ok records) ↔ document.Readable ∧ document.IsRecords := by
  rw [← plainValue_ok_iff, readYaml]
  cases hvalue : plainValue document with
  | error error => simp
  | ok value =>
    rw [and_iff_right ⟨value, rfl⟩]
    cases document with
    | sequence items =>
      rw [plainValue] at hvalue
      obtain ⟨found, rfl, hfound⟩ := plainSeq_ok hvalue
      have hrecords := (recordsOf_ok "YAML" 0 found).trans (objects_iff hfound)
      refine hrecords.trans ⟨fun hitems => ⟨items, rfl, hitems⟩, ?_⟩
      rintro ⟨items', heq, hitems⟩
      cases heq
      exact hitems
    | mapping entries =>
      rw [plainValue] at hvalue
      obtain ⟨map, rfl⟩ := plainMap_ok hvalue
      simp [recordsFromValue, Node.IsRecords]
    | float bits =>
      rw [plainValue] at hvalue
      cases hvalue
      by_cases hfinite : isFinite bits = true
      · simp [recordsFromValue, Node.IsRecords, hfinite]
      · simp [recordsFromValue, Node.IsRecords, hfinite]
    | null | bool | integer | text =>
      rw [plainValue] at hvalue
      cases hvalue
      simp [recordsFromValue, Node.IsRecords]
    | failing error =>
      rw [plainValue] at hvalue
      cases hvalue

end Yaml

/-! ## XML -/

section Xml

variable {unicode : Unicode} {names : List String} {outer : List (List String)} {rest : List XmlEvent}

theorem xmlRepeats_content {content : List XmlEvent} (h : ∀ event ∈ content, event.content?.isSome) :
    xmlRepeats (names :: outer) (content ++ rest) = xmlRepeats (names :: outer) rest := by
  induction content with
  | nil => rfl
  | cons event content ih =>
    have hrest := ih fun other hother => h other (List.mem_cons_of_mem _ hother)
    have hevent := h event List.mem_cons_self
    cases event with
    | start | empty | close => cases hevent
    | text | cdata | generalRef | docType | decl | comment | pi | failed => exact hrest

theorem xmlRepeats_filler {event : XmlEvent} (h : event.isFiller = true) :
    xmlRepeats (names :: outer) (event :: rest) = xmlRepeats (names :: outer) rest := by
  cases event with
  | start | empty | close => cases h
  | text | cdata | generalRef | docType | decl | comment | pi | failed => rfl

theorem xmlRepeats_field {field : XmlField} (h : field.Valid unicode) :
    xmlRepeats (names :: outer) (field.events ++ rest) =
      ((2 ≤ outer.length && names.contains field.name) || xmlRepeats ((field.name :: names) :: outer) rest) := by
  cases field with
  | empty name => rfl
  | filled name content =>
    rw [XmlField.events, List.cons_append, List.cons_append, List.append_assoc, xmlRepeats, xmlRepeats_content h.2]
    rfl

/-- **Fields with different names** are not called the same. -/
theorem xmlRepeats_fields (names : List String) (outer : List (List String)) (rest : List XmlEvent)
    {items : Filled XmlField} (h : items.All (XmlField.Valid unicode))
    (hnodup : (items.elements.map XmlField.name).Nodup) (hnew : ∀ name ∈ items.elements.map XmlField.name, name ∉ names) :
    ∃ names', xmlRepeats (names :: outer) (items.events XmlField.events ++ rest) = xmlRepeats (names' :: outer) rest := by
  induction items generalizing names with
  | nil => exact ⟨names, rfl⟩
  | cons item items ih =>
    have hlater : Filled.All (XmlField.Valid unicode) items := fun other hother => h other (List.mem_cons_of_mem _ hother)
    have hitem := h item List.mem_cons_self
    rw [Filled.events, List.flatMap_cons, List.append_assoc]
    cases item with
    | inl event =>
      obtain ⟨names', hnames⟩ := ih names hlater hnodup hnew
      exact ⟨names', (xmlRepeats_filler hitem).trans hnames⟩
    | inr field =>
      have hfields : Filled.elements (.inr field :: items) = field :: Filled.elements items := rfl
      rw [hfields, List.map_cons] at hnodup hnew
      obtain ⟨names', hnames⟩ := ih (field.name :: names) hlater hnodup.of_cons (by
        intro name hname
        rw [List.mem_cons, not_or]
        exact ⟨fun hsame => (List.nodup_cons.mp hnodup).1 (hsame ▸ hname), hnew name (List.mem_cons_of_mem _ hname)⟩)
      refine ⟨names', (xmlRepeats_field hitem).trans ?_⟩
      have hfirst : names.contains field.name = false := by simpa using hnew field.name List.mem_cons_self
      rw [hfirst, Bool.and_false, Bool.false_or]
      exact hnames

/-- Elements that leave nothing but names behind. -/
theorem xmlRepeats_filled (names : List String) (outer : List (List String)) (rest : List XmlEvent) {α : Type} {P : α → Prop} {ofElement : α → List XmlEvent} {items : Filled α} (h : items.All P)
    (hof : ∀ element names rest, P element →
      ∃ names', xmlRepeats (names :: outer) (ofElement element ++ rest) = xmlRepeats (names' :: outer) rest) :
    ∃ names', xmlRepeats (names :: outer) (items.events ofElement ++ rest) = xmlRepeats (names' :: outer) rest := by
  induction items generalizing names with
  | nil => exact ⟨names, rfl⟩
  | cons item items ih =>
    have hlater : Filled.All P items := fun other hother => h other (List.mem_cons_of_mem _ hother)
    have hitem := h item List.mem_cons_self
    rw [Filled.events, List.flatMap_cons, List.append_assoc]
    cases item with
    | inl event =>
      obtain ⟨names', hnames⟩ := ih names hlater
      exact ⟨names', (xmlRepeats_filler hitem).trans hnames⟩
    | inr element =>
      obtain ⟨middle, hmiddle⟩ := hof element names (Filled.events ofElement items ++ rest) hitem
      obtain ⟨names', hnames⟩ := ih middle hlater
      exact ⟨names', hmiddle.trans hnames⟩

theorem xmlRepeats_record {element : XmlRecord} (h : element.Valid unicode) (hdepth : outer.length = 1) :
    ∃ names', xmlRepeats (names :: outer) (element.events ++ rest) = xmlRepeats (names' :: outer) rest := by
  have hshallow : decide (2 ≤ outer.length) = false := by simp [hdepth]
  cases element with
  | empty =>
    refine ⟨"record" :: names, ?_⟩
    show ((decide (2 ≤ outer.length) && _) || _) = _
    rw [hshallow, Bool.false_and, Bool.false_or]
    rfl
  | filled items =>
    obtain ⟨names', hnames⟩ := xmlRepeats_fields [] (("record" :: names) :: outer) (.close (some "record") :: rest)
      h.1 h.2 fun _ _ => List.not_mem_nil
    refine ⟨"record" :: names, ?_⟩
    rw [XmlRecord.events, List.cons_append, List.cons_append, List.append_assoc, List.singleton_append, xmlRepeats, hnames,
      hshallow, Bool.false_and, Bool.false_or]
    rfl

theorem xmlRepeats_root {root : XmlRoot} (h : root.Valid unicode) :
    ∃ names', xmlRepeats [names] (root.events ++ rest) = xmlRepeats [names'] rest := by
  cases root with
  | empty => exact ⟨"records" :: names, rfl⟩
  | filled items =>
    obtain ⟨names', hnames⟩ := xmlRepeats_filled [] ["records" :: names] (.close (some "records") :: rest) h
      fun element _ _ helement => xmlRepeats_record helement rfl
    refine ⟨"records" :: names, ?_⟩
    rw [XmlRoot.events, List.cons_append, List.cons_append, List.append_assoc, List.singleton_append, xmlRepeats, hnames]
    rfl

/-- **XML with a key twice** in a record is refused. -/
theorem readXml_repeats {events : List XmlEvent} {records : List Record} (h : readXml unicode events = .ok records) :
    xmlRepeats [[]] events = false := by
  obtain ⟨document, hvalid, -, rfl, -⟩ := document_of_readXml h
  obtain ⟨names', hnames⟩ := xmlRepeats_filled [] [] [] hvalid
    fun root _ _ hroot => xmlRepeats_root hroot
  rw [List.append_nil] at hnames
  exact hnames

end Xml

/-- **A file with a key twice is refused** if and only if it is not YAML that is read. -/
theorem duplicates_rejected_iff (unicode : Unicode) (source : Source) :
    (source.Repeats → ∃ error, loadRecords unicode source = .error error) ↔
      ∀ document, source = .yaml document → document.Repeats → ¬ (document.Readable ∧ document.IsRecords) := by
  cases source with
  | csv header rows =>
    refine ⟨fun _ _ heq => Source.noConfusion heq, ?_⟩
    rintro - ⟨headers, rfl, hrepeats⟩
    rw [loadRecords, readCsv]
    simp only [hrepeats, not_false_eq_true, if_true]
    split <;> exact ⟨_, rfl⟩
  | json document trailing =>
    refine ⟨fun _ _ heq => Source.noConfusion heq, fun _ hrepeats => ?_⟩
    rw [loadRecords, readJson]
    cases hvalue : strictValue document with
    | error error => exact ⟨_, rfl⟩
    | ok value => exact absurd hvalue (strictValue_repeats hrepeats value)
  | yaml document =>
    have hread : (∃ error, readYaml document = .error error) ↔ ¬ ∃ records, readYaml document = .ok records := by
      cases readYaml document <;> simp
    rw [loadRecords, hread, readYaml_ok_iff]
    constructor
    · rintro h document' heq hrepeats
      cases heq
      exact h hrepeats
    · exact fun h => h document rfl
  | xml events =>
    refine ⟨fun _ _ heq => Source.noConfusion heq, fun _ hrepeats => ?_⟩
    rw [loadRecords]
    cases hrecords : readXml unicode events with
    | error error => exact ⟨error, rfl⟩
    | ok records =>
      have hnone := readXml_repeats hrecords
      rw [Source.Repeats] at hrepeats
      rw [hnone] at hrepeats
      cases hrepeats

/-! ## YAML with a key twice -/

namespace DuplicateSample

/-- `- {a: 1, a: 2}` -/
def repeated : Node := .sequence [.mapping [(some "a", .integer 1), (some "a", .integer 2)]]

/-- **Dropped, not refused**: only the last value is left. -/
theorem yaml_drops_value : Source.Repeats (.yaml repeated) ∧
    loadRecords XmlSample.ascii (.yaml repeated) = .ok [[("a", .number (.integer 2))]] := by
  refine ⟨.item List.mem_cons_self (.here ?_), rfl⟩
  decide

end DuplicateSample

end Anole
