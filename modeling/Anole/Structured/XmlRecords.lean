import Anole.Structured.Readers

/-!
# The grammar of `read_xml`

A document of records is a tree: `records` elements of `record` elements of field elements, with
blank text, comments, declarations and processing instructions in between. No element has an
attribute. `read_xml` keeps a depth and two registers instead; `XmlPhase` is what these can be.

* `readXml_events`: a document without empty `records` and `record` elements is read as its records.
* `document_of_readXml`: only such documents are read.
* `readXml_exact_iff`: when `read_xml` accepts exactly the documents of one `records` element.
-/

open Common

namespace Anole

open Anole.Common

/-! ## Documents -/

/-- What may stand between elements. -/
def XmlEvent.isFiller : XmlEvent → Bool
  | .text (.ok piece) | .cdata (.ok piece) => piece.toList.all isWhitespace
  | .decl | .comment | .pi => true
  | _ => false

/-- What an event adds to the text of a field, when it may stand in one. -/
def XmlEvent.content? : XmlEvent → Option String
  | .text (.ok piece) | .cdata (.ok piece) => some piece
  | .generalRef (.ok name) => predefinedEntity name
  | .decl | .comment | .pi => some ""
  | _ => none

/-- Elements with fillers between them. -/
abbrev Filled (α : Type) := List (XmlEvent ⊕ α)

namespace Filled

variable {α : Type}

def events (ofElement : α → List XmlEvent) (items : Filled α) : List XmlEvent :=
  items.flatMap (Sum.elim ([·]) ofElement)

def elements (items : Filled α) : List α := items.filterMap Sum.getRight?

/-- The fillers are fillers, and the elements satisfy `P`. -/
def All (P : α → Prop) (items : Filled α) : Prop :=
  ∀ item ∈ items, Sum.elim (fun event => event.isFiller = true) P item

end Filled

/-- A field element. -/
inductive XmlField where
  | filled (name : String) (content : List XmlEvent)
  | empty (name : String)

namespace XmlField

def name : XmlField → String
  | filled name _ | empty name => name

/-- The text of the pieces, one after the other. -/
def text : XmlField → String
  | filled _ content => String.join (content.map fun event => event.content?.getD "")
  | empty _ => ""

def events : XmlField → List XmlEvent
  | filled name content => .start (some name) false :: content ++ [.close (some name)]
  | empty name => [.empty (some name) false]

def Valid (unicode : Unicode) (field : XmlField) : Prop :=
  validXmlName unicode field.name = true ∧ match field with
    | filled _ content => ∀ event ∈ content, event.content?.isSome
    | empty _ => True

end XmlField

/-- A `record` element. -/
inductive XmlRecord where
  | filled (items : Filled XmlField)
  | empty

namespace XmlRecord

def fields : XmlRecord → List XmlField
  | filled items => items.elements
  | empty => []

def events : XmlRecord → List XmlEvent
  | filled items => .start (some "record") false :: items.events XmlField.events ++ [.close (some "record")]
  | empty => [.empty (some "record") false]

/-- The fields as they are inserted into a record. -/
def insertFields (record : Record) (fields : List XmlField) : Record :=
  fields.foldl (fun record field => record.insert field.name (.string field.text)) record

def record (element : XmlRecord) : Record := insertFields [] element.fields

def Valid (unicode : Unicode) : XmlRecord → Prop
  | filled items => items.All (XmlField.Valid unicode) ∧ (items.elements.map XmlField.name).Nodup
  | empty => True

/-- The element is not written as an empty one. -/
def Plain (element : XmlRecord) : Prop := element ≠ empty

end XmlRecord

/-- A `records` element. -/
inductive XmlRoot where
  | filled (items : Filled XmlRecord)
  | empty

namespace XmlRoot

def elements : XmlRoot → List XmlRecord
  | filled items => items.elements
  | empty => []

def events : XmlRoot → List XmlEvent
  | filled items => .start (some "records") false :: items.events XmlRecord.events ++ [.close (some "records")]
  | empty => [.empty (some "records") false]

def Valid (unicode : Unicode) : XmlRoot → Prop
  | filled items => items.All (XmlRecord.Valid unicode)
  | empty => True

def Plain (root : XmlRoot) : Prop := root ≠ empty ∧ ∀ element ∈ root.elements, element.Plain

end XmlRoot

/-- `records` elements with fillers between them. -/
abbrev XmlDocument := Filled XmlRoot

namespace XmlDocument

def xmlEvents (document : XmlDocument) : List XmlEvent := document.events XmlRoot.events

def Valid (unicode : Unicode) (document : XmlDocument) : Prop := document.All (XmlRoot.Valid unicode)

/-- No `records` or `record` element is written as an empty one. -/
def Plain (document : XmlDocument) : Prop := ∀ root ∈ document.elements, root.Plain

/-- The records in the order of the document. -/
def records (document : XmlDocument) : List Record :=
  document.elements.flatMap fun root => root.elements.map XmlRecord.record

end XmlDocument

/-! ## Phases -/

/-- What the depth and the registers of `read_xml` can be. -/
inductive XmlPhase where
  | outside
  | root
  | record (record : Record)
  | field (record : Record) (name value : String)

/-- The variables of `read_xml` in a phase. -/
def XmlPhase.state (records : List Record) : XmlPhase → XmlState
  | outside => { records := records }
  | root => { depth := 1, records := records }
  | record current => { depth := 2, records := records, currentRecord := some current }
  | field current name value =>
    { depth := 3, records := records, currentRecord := some current, currentField := some (name, value) }

/-- What an event does in a phase: the records that are complete, and the next phase. -/
inductive XmlMove (unicode : Unicode) : List Record → XmlPhase → XmlEvent → List Record → XmlPhase → Prop where
  | filler {records phase event} : event.isFiller = true → (∀ current name value, phase ≠ .field current name value) →
      XmlMove unicode records phase event records phase
  | openRoot {records} : XmlMove unicode records .outside (.start (some "records") false) records .root
  | openRecord {records} : XmlMove unicode records .root (.start (some "record") false) records (.record [])
  | openField {records current name} : validXmlName unicode name = true →
      XmlMove unicode records (.record current) (.start (some name) false) records (.field current name "")
  | emptyField {records current name} : validXmlName unicode name = true → current.lookup name = none →
      XmlMove unicode records (.record current) (.empty (some name) false) records
        (.record (TextMap.insert name (.string "") current))
  | content {records current name value event text} : event.content? = some text →
      XmlMove unicode records (.field current name value) event records (.field current name (value ++ text))
  | closeField {records current name value} : current.lookup name = none →
      XmlMove unicode records (.field current name value) (.close (some name)) records
        (.record (TextMap.insert name (.string value) current))
  | closeRecord {records current} :
      XmlMove unicode records (.record current) (.close (some "record")) (records ++ [current]) .root
  | closeRoot {records} : XmlMove unicode records .root (.close (some "records")) records .outside

section Moves

variable {unicode : Unicode} {records records' : List Record} {phase phase' : XmlPhase} {event : XmlEvent}
  {state : XmlState} {name : Option String} {attributes : Bool}

theorem elementName_ok {found : String} :
    elementName name attributes = .ok found ↔ attributes = false ∧ name = some found := by
  cases attributes <;> cases name <;> simp [elementName]

theorem insertXmlField_ok {current record : Record} {name value : String} :
    insertXmlField (some current) name value = .ok record ↔
      current.lookup name = none ∧ record = TextMap.insert name (.string value) current := by
  rw [insertXmlField]
  cases current.lookup name with
  | none => simp [eq_comm]
  | some found => simp

theorem move_of_pushXmlText {text message : String} (hcontent : event.content? = some text)
    (hfiller : event.isFiller = text.toList.all isWhitespace)
    (h : pushXmlText (phase.state records) text message = .ok state) :
    ∃ records' phase', state = phase'.state records' ∧ XmlMove unicode records phase event records' phase' := by
  cases phase with
  | field current name value =>
    simp only [pushXmlText, XmlPhase.state, Except.ok.injEq] at h
    exact ⟨records, .field current name (value ++ text), h.symm, .content hcontent⟩
  | outside | root | record current =>
    rw [pushXmlText] at h
    simp only [XmlPhase.state] at h
    split at h
    · next hblank =>
      cases h
      exact ⟨records, _, rfl, .filler (hfiller.trans hblank) fun _ _ _ heq => XmlPhase.noConfusion heq⟩
    · cases h

theorem move_of_start
    (h : xmlStep unicode (phase.state records) (.start name attributes) = .ok state) :
    ∃ records' phase', state = phase'.state records' ∧
      XmlMove unicode records phase (.start name attributes) records' phase' := by
  obtain ⟨found, hname, hstep⟩ := bind_eq_ok.mp h
  obtain ⟨rfl, rfl⟩ := elementName_ok.mp hname
  cases phase with
  | outside =>
    simp [XmlPhase.state] at hstep
    obtain ⟨rfl, rfl⟩ := ite_eq_ok.mp hstep
    exact ⟨records, .root, rfl, .openRoot⟩
  | root =>
    simp [XmlPhase.state] at hstep
    obtain ⟨rfl, rfl⟩ := ite_eq_ok.mp hstep
    exact ⟨records, .record [], rfl, .openRecord⟩
  | record current =>
    simp [XmlPhase.state] at hstep
    obtain ⟨hvalid, rfl⟩ := ite_eq_ok.mp hstep
    exact ⟨records, .field current found "", rfl, .openField hvalid⟩
  | field current field value => simp [XmlPhase.state] at hstep

theorem move_of_empty
    (h : xmlStep unicode (phase.state records) (.empty name attributes) = .ok state) :
    ∃ records' phase', state = phase'.state records' ∧
      XmlMove unicode records phase (.empty name attributes) records' phase' := by
  obtain ⟨found, hname, hstep⟩ := bind_eq_ok.mp h
  obtain ⟨rfl, rfl⟩ := elementName_ok.mp hname
  cases phase with
  | record current =>
    split at hstep
    · next hvalid =>
      obtain ⟨record, hinsert, hrest⟩ := bind_eq_ok.mp hstep
      obtain ⟨hnew, rfl⟩ := insertXmlField_ok.mp hinsert
      cases hrest
      exact ⟨records, .record _, rfl, .emptyField hvalid.2.2 hnew⟩
    · cases hstep
  | outside | root | field current field value => simp [XmlPhase.state] at hstep

theorem move_of_close (h : xmlStep unicode (phase.state records) (.close name) = .ok state) :
    ∃ records' phase', state = phase'.state records' ∧ XmlMove unicode records phase (.close name) records' phase' := by
  cases name with
  | none => cases h
  | some name =>
    cases phase with
    | outside => simp [xmlStep, XmlPhase.state] at h
    | root =>
      simp [xmlStep, XmlPhase.state] at h
      obtain ⟨rfl, rfl⟩ := ite_eq_ok.mp h
      exact ⟨records, .outside, rfl, .closeRoot⟩
    | record current =>
      simp [xmlStep, XmlPhase.state] at h
      obtain ⟨rfl, rfl⟩ := ite_eq_ok.mp h
      exact ⟨records ++ [current], .root, rfl, .closeRecord⟩
    | field current field value =>
      rw [xmlStep] at h
      simp only [XmlPhase.state, if_true] at h
      split at h
      · cases h
      · next hsame =>
        obtain ⟨record, hinsert, hrest⟩ := bind_eq_ok.mp h
        obtain ⟨hnew, rfl⟩ := insertXmlField_ok.mp hinsert
        cases hrest
        rw [not_not] at hsame
        rw [← hsame]
        exact ⟨records, .record _, rfl, .closeField hnew⟩

theorem move_of_generalRef {name : Except String String}
    (h : xmlStep unicode (phase.state records) (.generalRef name) = .ok state) :
    ∃ records' phase', state = phase'.state records' ∧
      XmlMove unicode records phase (.generalRef name) records' phase' := by
  cases name with
  | error error => cases h
  | ok name =>
    rw [xmlStep] at h
    split at h
    · cases h
    · next text htext =>
      cases phase with
      | field current field value =>
        cases h
        exact ⟨records, .field current field (value ++ text), rfl, .content htext⟩
      | outside | root | record current => cases h

/-- **What a round of `read_xml` does** is a move. -/
theorem move_of_xmlStep (h : xmlStep unicode (phase.state records) event = .ok state) :
    ∃ records' phase', state = phase'.state records' ∧ XmlMove unicode records phase event records' phase' := by
  have hsame : ∀ {event : XmlEvent}, event.isFiller = true → event.content? = some "" →
      ∃ records' phase', phase.state records = phase'.state records' ∧
        XmlMove unicode records phase event records' phase' := by
    intro event hfiller hcontent
    cases phase with
    | field current name value =>
      exact ⟨records, .field current name (value ++ ""), by rw [String.append_empty], .content hcontent⟩
    | outside | root | record current =>
      exact ⟨records, _, rfl, .filler hfiller fun _ _ _ heq => XmlPhase.noConfusion heq⟩
  cases event with
  | start name attributes => exact move_of_start h
  | empty name attributes => exact move_of_empty h
  | close name => exact move_of_close h
  | text content =>
    cases content with
    | error error => cases error <;> cases h
    | ok text => exact move_of_pushXmlText rfl rfl h
  | cdata content =>
    cases content with
    | error error => cases h
    | ok text => exact move_of_pushXmlText rfl rfl h
  | generalRef name => exact move_of_generalRef h
  | docType => cases h
  | decl | comment | pi =>
    cases h
    exact hsame rfl rfl
  | failed error => cases h

/-- Fillers are skipped outside of fields. -/
theorem xmlStep_filler (hfiller : event.isFiller = true)
    (hphase : ∀ current name value, phase ≠ .field current name value) :
    xmlStep unicode (phase.state records) event = .ok (phase.state records) := by
  have hpush : ∀ text message, text.toList.all isWhitespace = true →
      pushXmlText (phase.state records) text message = .ok (phase.state records) := by
    intro text message hblank
    cases phase with
    | field current name value => exact absurd rfl (hphase current name value)
    | outside | root | record current => exact if_pos hblank
  cases event with
  | text content =>
    cases content with
    | error error => cases hfiller
    | ok text => exact hpush text _ hfiller
  | cdata content =>
    cases content with
    | error error => cases hfiller
    | ok text => exact hpush text _ hfiller
  | decl | comment | pi => rfl
  | start | empty | close | generalRef | docType | failed => cases hfiller

/-- The text of a field grows. -/
theorem xmlStep_content {current : Record} {name value text : String} (h : event.content? = some text) :
    xmlStep unicode ((XmlPhase.field current name value).state records) event =
      .ok ((XmlPhase.field current name (value ++ text)).state records) := by
  cases event with
  | text content =>
    cases content with
    | error error => cases h
    | ok piece =>
      cases h
      rfl
  | cdata content =>
    cases content with
    | error error => cases h
    | ok piece =>
      cases h
      rfl
  | generalRef name =>
    cases name with
    | error error => cases h
    | ok name =>
      rw [xmlStep]
      rw [XmlEvent.content?] at h
      simp only [h]
      rfl
  | decl | comment | pi =>
    cases h
    rw [String.append_empty]
    rfl
  | start | empty | close | docType | failed => cases h

/-- **A move** is what a round of `read_xml` does. -/
theorem XmlMove.xmlStep (h : XmlMove unicode records phase event records' phase') :
    xmlStep unicode (phase.state records) event = .ok (phase'.state records') := by
  cases h with
  | filler hfiller hphase => exact xmlStep_filler hfiller hphase
  | openRoot => rfl
  | openRecord => rfl
  | openField hvalid => simp [Anole.xmlStep, elementName, XmlPhase.state, hvalid, bind, Except.bind]
  | emptyField hvalid hnew =>
    simp [Anole.xmlStep, elementName, XmlPhase.state, insertXmlField, hvalid, hnew, bind, Except.bind]
  | content htext => exact xmlStep_content htext
  | closeField hnew => simp [Anole.xmlStep, XmlPhase.state, insertXmlField, hnew, bind, Except.bind]
  | closeRecord => simp [Anole.xmlStep, XmlPhase.state]
  | closeRoot => simp [Anole.xmlStep, XmlPhase.state]

end Moves

/-! ## Runs -/

/-- Moves one after the other. -/
inductive XmlMoves (unicode : Unicode) :
    List Record → XmlPhase → List XmlEvent → List Record → XmlPhase → Prop where
  | nil {records phase} : XmlMoves unicode records phase [] records phase
  | cons {records phase event records' phase' events records'' phase''} :
      XmlMove unicode records phase event records' phase' →
      XmlMoves unicode records' phase' events records'' phase'' →
      XmlMoves unicode records phase (event :: events) records'' phase''

section Runs

variable {unicode : Unicode} {records records' records'' : List Record} {phase phase' phase'' : XmlPhase}
  {event : XmlEvent} {events events' : List XmlEvent} {state : XmlState}

theorem XmlMoves.append (h : XmlMoves unicode records phase events records' phase')
    (h' : XmlMoves unicode records' phase' events' records'' phase'') :
    XmlMoves unicode records phase (events ++ events') records'' phase'' := by
  induction h with
  | nil => exact h'
  | cons hmove _ ih => exact .cons hmove (ih h')

theorem XmlMove.moves (h : XmlMove unicode records phase event records' phase') :
    XmlMoves unicode records phase [event] records' phase' := .cons h .nil

theorem xmlRun_iff : xmlRun unicode (phase.state records) events = .ok state ↔
    ∃ records' phase', state = phase'.state records' ∧ XmlMoves unicode records phase events records' phase' := by
  induction events generalizing records phase with
  | nil =>
    constructor
    · intro h
      cases h
      exact ⟨records, phase, rfl, .nil⟩
    · rintro ⟨records', phase', rfl, hmoves⟩
      cases hmoves
      rfl
  | cons event events ih =>
    rw [xmlRun, bind_eq_ok]
    constructor
    · rintro ⟨middle, hstep, hrest⟩
      obtain ⟨records', phase', rfl, hmove⟩ := move_of_xmlStep hstep
      obtain ⟨records'', phase'', hstate, hmoves⟩ := ih.mp hrest
      exact ⟨records'', phase'', hstate, .cons hmove hmoves⟩
    · rintro ⟨records'', phase'', hstate, hmoves⟩
      cases hmoves with
      | cons hmove hmoves => exact ⟨_, hmove.xmlStep, ih.mpr ⟨records'', phase'', hstate, hmoves⟩⟩

/-- **What `read_xml` returns** are the records of the moves that end outside. -/
theorem readXml_iff : readXml unicode events = .ok records ↔
    XmlMoves unicode [] .outside events records .outside := by
  have hinit : ({} : XmlState) = XmlPhase.outside.state [] := rfl
  rw [readXml, hinit, bind_eq_ok]
  constructor
  · rintro ⟨state, hrun, hend⟩
    obtain ⟨records', phase', rfl, hmoves⟩ := xmlRun_iff.mp hrun
    split at hend
    · cases hend
    · next hclosed =>
      cases hend
      cases phase' with
      | outside => exact hmoves
      | root | record | field => simp [XmlPhase.state] at hclosed
  · intro hmoves
    exact ⟨_, xmlRun_iff.mpr ⟨records, .outside, rfl, hmoves⟩, rfl⟩

end Runs

/-! ## Documents are read -/

section Reading

variable {unicode : Unicode} {records : List Record} {current : Record} {name value : String}

theorem moves_content {content : List XmlEvent} (h : ∀ event ∈ content, event.content?.isSome) :
    XmlMoves unicode records (.field current name value) content records
      (.field current name (value ++ String.join (content.map fun event => event.content?.getD ""))) := by
  induction content generalizing value with
  | nil =>
    rw [List.map_nil, String.join_nil, String.append_empty]
    exact .nil
  | cons event content ih =>
    obtain ⟨text, htext⟩ := Option.isSome_iff_exists.mp (h event List.mem_cons_self)
    refine .cons (.content htext) ?_
    rw [List.map_cons, htext, Option.getD_some, String.join_cons, ← String.append_assoc]
    exact ih fun other hother => h other (List.mem_cons_of_mem _ hother)

/-- **A field** is inserted. -/
theorem XmlField.Valid.moves {field : XmlField} (h : field.Valid unicode) (hnew : current.lookup field.name = none) :
    XmlMoves unicode records (.record current) field.events records
      (.record (TextMap.insert field.name (.string field.text) current)) := by
  cases field with
  | empty name => exact (XmlMove.emptyField h.1 hnew).moves
  | filled name content =>
    refine .cons (.openField h.1) (.append (moves_content h.2) ?_)
    rw [String.empty_append]
    exact (XmlMove.closeField hnew).moves

/-- **The fields** of a record are inserted one after the other. -/
theorem moves_fields {items : Filled XmlField} (h : items.All (XmlField.Valid unicode))
    (hnodup : (items.elements.map XmlField.name).Nodup)
    (hnew : ∀ name ∈ items.elements.map XmlField.name, current.lookup name = none) :
    XmlMoves unicode records (.record current) (items.events XmlField.events) records
      (.record (XmlRecord.insertFields current items.elements)) := by
  induction items generalizing current with
  | nil => exact .nil
  | cons item items ih =>
    have hrest : Filled.All (XmlField.Valid unicode) items := fun other hother => h other (List.mem_cons_of_mem _ hother)
    have hitem := h item List.mem_cons_self
    cases item with
    | inl event => exact .cons (.filler hitem fun _ _ _ heq => XmlPhase.noConfusion heq) (ih hrest hnodup hnew)
    | inr field =>
      have hfields : Filled.elements (.inr field :: items) = field :: Filled.elements items := rfl
      rw [hfields, List.map_cons] at hnodup hnew
      refine .append (XmlField.Valid.moves hitem (hnew field.name List.mem_cons_self)) (ih hrest hnodup.of_cons ?_)
      intro name hname
      have hne : name ≠ field.name := fun hsame => (List.nodup_cons.mp hnodup).1 (hsame ▸ hname)
      rw [TextMap.lookup_insert_of_ne hne]
      exact hnew name (List.mem_cons_of_mem _ hname)

/-- **A record** is read. -/
theorem XmlRecord.Valid.moves {element : XmlRecord} (h : element.Valid unicode) (hplain : element.Plain) :
    XmlMoves unicode records .root element.events (records ++ [element.record]) .root := by
  cases element with
  | empty => exact absurd rfl hplain
  | filled items =>
    exact .cons .openRecord (.append (moves_fields h.1 h.2 fun _ _ => rfl) XmlMove.closeRecord.moves)

/-- **The records** of a `records` element are read in its order. -/
theorem moves_records {items : Filled XmlRecord} (h : items.All (XmlRecord.Valid unicode))
    (hplain : ∀ element ∈ items.elements, element.Plain) :
    XmlMoves unicode records .root (items.events XmlRecord.events)
      (records ++ items.elements.map XmlRecord.record) .root := by
  induction items generalizing records with
  | nil =>
    rw [Filled.elements, List.filterMap_nil, List.map_nil, List.append_nil]
    exact .nil
  | cons item items ih =>
    have hrest : Filled.All (XmlRecord.Valid unicode) items := fun other hother => h other (List.mem_cons_of_mem _ hother)
    have hitem := h item List.mem_cons_self
    cases item with
    | inl event => exact .cons (.filler hitem fun _ _ _ heq => XmlPhase.noConfusion heq) (ih hrest hplain)
    | inr element =>
      refine .append (XmlRecord.Valid.moves hitem (hplain element List.mem_cons_self)) ?_
      have hlater := @ih (records ++ [element.record]) hrest
        fun other hother => hplain other (List.mem_cons_of_mem _ hother)
      rwa [List.append_assoc] at hlater

/-- **A `records` element** is read. -/
theorem XmlRoot.Valid.moves {root : XmlRoot} (h : root.Valid unicode) (hplain : root.Plain) :
    XmlMoves unicode records .outside root.events (records ++ root.elements.map XmlRecord.record) .outside := by
  cases root with
  | empty => exact absurd rfl hplain.1
  | filled items => exact .cons .openRoot (.append (moves_records h hplain.2) XmlMove.closeRoot.moves)

theorem moves_document {document : XmlDocument} (h : document.Valid unicode) (hplain : document.Plain) :
    XmlMoves unicode records .outside document.xmlEvents (records ++ document.records) .outside := by
  induction document generalizing records with
  | nil =>
    rw [XmlDocument.records, Filled.elements, List.filterMap_nil, List.flatMap_nil, List.append_nil]
    exact .nil
  | cons item items ih =>
    have hrest : XmlDocument.Valid unicode items := fun other hother => h other (List.mem_cons_of_mem _ hother)
    have hitem := h item List.mem_cons_self
    cases item with
    | inl event => exact .cons (.filler hitem fun _ _ _ heq => XmlPhase.noConfusion heq) (ih hrest hplain)
    | inr root =>
      refine .append (XmlRoot.Valid.moves hitem (hplain root List.mem_cons_self)) ?_
      have hlater := @ih (records ++ root.elements.map XmlRecord.record) hrest
        fun other hother => hplain other (List.mem_cons_of_mem _ hother)
      rwa [List.append_assoc] at hlater

/-- **A document** without empty `records` and `record` elements is read, with all its records. -/
theorem readXml_events {document : XmlDocument} (h : document.Valid unicode) (hplain : document.Plain) :
    readXml unicode document.xmlEvents = .ok document.records :=
  readXml_iff.mpr (moves_document h hplain)

end Reading

/-! ## What is read is a document -/

section Accepting

variable (unicode : Unicode)

/-- The events are those of a document of so many records. -/
def RestOutside (events : List XmlEvent) (gained : List Record) : Prop :=
  ∃ document : XmlDocument, document.Valid unicode ∧ document.Plain ∧ events = document.xmlEvents ∧
    gained = document.records

/-- The rest of a `records` element, and of the document. -/
def RestRoot (events : List XmlEvent) (gained : List Record) : Prop :=
  ∃ (items : Filled XmlRecord) (more : List XmlEvent) (tail : List Record), items.All (XmlRecord.Valid unicode) ∧
    (∀ element ∈ items.elements, element.Plain) ∧ RestOutside unicode more tail ∧
    events = items.events XmlRecord.events ++ .close (some "records") :: more ∧
    gained = items.elements.map XmlRecord.record ++ tail

/-- The rest of a record, and of the document. -/
def RestRecord (current : Record) (events : List XmlEvent) (gained : List Record) : Prop :=
  ∃ (fields : Filled XmlField) (more : List XmlEvent) (tail : List Record), fields.All (XmlField.Valid unicode) ∧
    (fields.elements.map XmlField.name).Nodup ∧
    (∀ name ∈ fields.elements.map XmlField.name, current.lookup name = none) ∧ RestRoot unicode more tail ∧
    events = fields.events XmlField.events ++ .close (some "record") :: more ∧
    gained = XmlRecord.insertFields current fields.elements :: tail

/-- The rest of a field, and of the document. -/
def RestField (current : Record) (name value : String) (events : List XmlEvent) (gained : List Record) : Prop :=
  ∃ content more : List XmlEvent, (∀ event ∈ content, event.content?.isSome) ∧ current.lookup name = none ∧
    RestRecord unicode (TextMap.insert name
      (.string (value ++ String.join (content.map fun event => event.content?.getD ""))) current) more gained ∧
    events = content ++ .close (some name) :: more

/-- The events from a phase on are the rest of a document, which has so many records more. -/
def XmlPhase.Rest : XmlPhase → List XmlEvent → List Record → Prop
  | outside => RestOutside unicode
  | root => RestRoot unicode
  | record current => RestRecord unicode current
  | field current name value => RestField unicode current name value

variable {unicode} {records records' gained : List Record} {phase phase' : XmlPhase} {event : XmlEvent}
  {events : List XmlEvent}

theorem Filled.All.cons {α : Type} {P : α → Prop} {item : XmlEvent ⊕ α} {items : Filled α}
    (hitem : Sum.elim (fun event => event.isFiller = true) P item) (h : items.All P) : Filled.All P (item :: items) := by
  intro other hother
  rcases List.mem_cons.mp hother with rfl | hother
  · exact hitem
  · exact h other hother

theorem rest_filler (hfiller : event.isFiller = true) (hphase : ∀ current name value, phase ≠ .field current name value)
    (h : phase.Rest unicode events gained) : phase.Rest unicode (event :: events) gained := by
  cases phase with
  | outside =>
    obtain ⟨document, hvalid, hplain, rfl, rfl⟩ := h
    exact ⟨.inl event :: document, .cons hfiller hvalid, hplain, rfl, rfl⟩
  | root =>
    obtain ⟨items, more, tail, hvalid, hplain, hmore, rfl, rfl⟩ := h
    exact ⟨.inl event :: items, more, tail, .cons hfiller hvalid, hplain, hmore, rfl, rfl⟩
  | record current =>
    obtain ⟨fields, more, tail, hvalid, hnodup, hnew, hmore, rfl, rfl⟩ := h
    exact ⟨.inl event :: fields, more, tail, .cons hfiller hvalid, hnodup, hnew, hmore, rfl, rfl⟩
  | field current name value => exact absurd rfl (hphase current name value)

theorem rest_openRecord (h : RestRecord unicode [] events gained) :
    RestRoot unicode (.start (some "record") false :: events) gained := by
  obtain ⟨fields, more, tail, hvalid, hnodup, -, ⟨items, more', tail', hitems, hplain, hmore, rfl, rfl⟩, rfl, rfl⟩ := h
  refine ⟨.inr (.filled fields) :: items, more', tail', .cons ⟨hvalid, hnodup⟩ hitems, ?_, hmore, ?_, rfl⟩
  · intro element helement
    rcases List.mem_cons.mp helement with rfl | helement
    · exact fun heq => XmlRecord.noConfusion heq
    · exact hplain element helement
  · simp [Filled.events, XmlRecord.events]

theorem rest_field {current : Record} {field : XmlField} (hvalid : field.Valid unicode)
    (hnew : current.lookup field.name = none)
    (h : RestRecord unicode (TextMap.insert field.name (.string field.text) current) events gained) :
    RestRecord unicode current (field.events ++ events) gained := by
  obtain ⟨fields, more, tail, hfields, hnodup, hlater, hmore, rfl, rfl⟩ := h
  refine ⟨.inr field :: fields, more, tail, .cons hvalid hfields, ?_, ?_, hmore, ?_, rfl⟩
  · refine List.nodup_cons.mpr ⟨fun hmem => ?_, hnodup⟩
    have := hlater field.name hmem
    rw [TextMap.lookup_insert] at this
    cases this
  · intro name hname
    rcases List.mem_cons.mp hname with rfl | hname
    · exact hnew
    · by_cases hsame : name = field.name
      · rw [hsame]
        exact hnew
      · rw [← hlater name hname, TextMap.lookup_insert_of_ne hsame]
  · simp [Filled.events]

/-- **The rest of a document** follows each phase that ends outside. -/
theorem XmlMoves.rest (h : XmlMoves unicode records phase events records' .outside) :
    ∃ gained, records' = records ++ gained ∧ phase.Rest unicode events gained := by
  generalize hend : XmlPhase.outside = phase' at h
  induction h with
  | nil =>
    subst hend
    exact ⟨[], (List.append_nil _).symm, [], fun _ hitem => absurd hitem List.not_mem_nil, fun _ hroot => absurd hroot List.not_mem_nil, rfl, rfl⟩
  | cons hmove _ ih =>
    obtain ⟨gained, hgained, hrest⟩ := ih hend
    cases hmove with
    | filler hfiller hphase => exact ⟨gained, hgained, rest_filler hfiller hphase hrest⟩
    | openRoot =>
      obtain ⟨items, more, tail, hvalid, hplain, ⟨document, hdocument, hplain', rfl, rfl⟩, rfl, rfl⟩ := hrest
      refine ⟨_, hgained, .inr (.filled items) :: document, .cons hvalid hdocument, ?_, ?_, rfl⟩
      · intro root hroot
        rcases List.mem_cons.mp hroot with rfl | hroot
        · exact ⟨fun heq => XmlRoot.noConfusion heq, hplain⟩
        · exact hplain' root hroot
      · simp [Filled.events, XmlDocument.xmlEvents, XmlRoot.events]
    | openRecord => exact ⟨gained, hgained, rest_openRecord hrest⟩
    | @openField current name hvalid =>
      obtain ⟨content, more, hcontent, hnew, hmore, rfl⟩ := hrest
      rw [String.empty_append] at hmore
      have hfield : XmlField.Valid unicode (.filled name content) := ⟨hvalid, hcontent⟩
      have hrecord := rest_field hfield hnew hmore
      rw [XmlField.events, List.cons_append, List.cons_append, List.append_assoc, List.singleton_append] at hrecord
      exact ⟨gained, hgained, hrecord⟩
    | @emptyField current name hvalid hnew =>
      have hfield : XmlField.Valid unicode (.empty name) := ⟨hvalid, trivial⟩
      exact ⟨gained, hgained, rest_field hfield hnew hrest⟩
    | content htext =>
      obtain ⟨content, more, hcontent, hnew, hmore, rfl⟩ := hrest
      refine ⟨gained, hgained, _ :: content, more, ?_, hnew, ?_, rfl⟩
      · intro event hevent
        rcases List.mem_cons.mp hevent with rfl | hevent
        · rw [htext]
          rfl
        · exact hcontent event hevent
      · rw [List.map_cons, htext, Option.getD_some, String.join_cons, ← String.append_assoc]
        exact hmore
    | closeField hnew =>
      refine ⟨gained, hgained, [], _, fun _ hevent => absurd hevent List.not_mem_nil, hnew, ?_, rfl⟩
      rw [List.map_nil, String.join_nil, String.append_empty]
      exact hrest
    | closeRecord =>
      rw [List.append_assoc] at hgained
      exact ⟨_, hgained, [], _, gained, fun _ hfield => absurd hfield List.not_mem_nil, List.nodup_nil,
        fun _ hname => absurd hname List.not_mem_nil, hrest, rfl, rfl⟩
    | closeRoot =>
      exact ⟨gained, hgained, [], _, gained, fun _ hitem => absurd hitem List.not_mem_nil,
        fun _ helement => absurd helement List.not_mem_nil, hrest, rfl, rfl⟩

/-- **What is read** is a document without empty `records` and `record` elements. -/
theorem document_of_readXml (h : readXml unicode events = .ok records) :
    ∃ document : XmlDocument, document.Valid unicode ∧ document.Plain ∧ events = document.xmlEvents ∧
      records = document.records := by
  obtain ⟨gained, hgained, hrest⟩ := (readXml_iff.mp h).rest
  rw [List.nil_append] at hgained
  rw [hgained]
  exact hrest

end Accepting

/-! ## Empty elements -/

section Empties

variable {unicode : Unicode} {records records' records'' : List Record} {phase phase' phase'' : XmlPhase}
  {event : XmlEvent} {events rest : List XmlEvent}

theorem XmlPhase.state_inj (h : phase.state records = phase'.state records') : records = records' ∧ phase = phase' := by
  cases phase <;> cases phase' <;> simp_all [XmlPhase.state]

theorem XmlMove.unique (h : XmlMove unicode records phase event records' phase')
    (h' : XmlMove unicode records phase event records'' phase'') : records' = records'' ∧ phase' = phase'' :=
  XmlPhase.state_inj (Except.ok.inj (h.xmlStep.symm.trans h'.xmlStep))

/-- Moves go on from where their start leads to. -/
theorem XmlMoves.after (h : XmlMoves unicode records phase events records' phase')
    (hall : XmlMoves unicode records phase (events ++ rest) records'' phase'') :
    XmlMoves unicode records' phase' rest records'' phase'' := by
  induction h with
  | nil => exact hall
  | cons hmove _ ih =>
    cases hall with
    | cons hmove' hrest =>
      obtain ⟨rfl, rfl⟩ := hmove.unique hmove'
      exact ih hrest

theorem plain_records {items : Filled XmlRecord} (hvalid : items.All (XmlRecord.Valid unicode))
    (h : XmlMoves unicode records .root (items.events XmlRecord.events ++ rest) records' phase') :
    ∀ element ∈ items.elements, element.Plain := by
  induction items generalizing records with
  | nil => exact fun element helement => absurd helement List.not_mem_nil
  | cons item items ih =>
    have hlater : Filled.All (XmlRecord.Valid unicode) items := fun other hother => hvalid other (List.mem_cons_of_mem _ hother)
    have hitem := hvalid item List.mem_cons_self
    rw [Filled.events, List.flatMap_cons, List.append_assoc] at h
    cases item with
    | inl event =>
      exact ih hlater (XmlMoves.after (XmlMove.filler hitem fun _ _ _ heq => XmlPhase.noConfusion heq).moves h)
    | inr element =>
      have hplain : element.Plain := by
        rintro rfl
        cases h with
        | cons hmove _ =>
          cases hmove with
          | filler hfiller => cases hfiller
      intro other hother
      rcases List.mem_cons.mp hother with rfl | hother
      · exact hplain
      · exact ih hlater (XmlMoves.after (XmlRecord.Valid.moves hitem hplain) h) other hother

theorem plain_roots {document : XmlDocument} (hvalid : document.Valid unicode)
    (h : XmlMoves unicode records .outside (document.xmlEvents ++ rest) records' phase') : document.Plain := by
  induction document generalizing records with
  | nil => exact fun root hroot => absurd hroot List.not_mem_nil
  | cons item items ih =>
    have hlater : XmlDocument.Valid unicode items := fun other hother => hvalid other (List.mem_cons_of_mem _ hother)
    have hitem := hvalid item List.mem_cons_self
    rw [XmlDocument.xmlEvents, Filled.events, List.flatMap_cons, List.append_assoc] at h
    cases item with
    | inl event =>
      exact ih hlater (XmlMoves.after (XmlMove.filler hitem fun _ _ _ heq => XmlPhase.noConfusion heq).moves h)
    | inr root =>
      have hplain : root.Plain := by
        cases root with
        | empty =>
          cases h with
          | cons hmove _ =>
            cases hmove with
            | filler hfiller => cases hfiller
        | filled items =>
          refine ⟨fun heq => XmlRoot.noConfusion heq, ?_⟩
          rw [Sum.elim_inr, XmlRoot.events, List.cons_append, List.cons_append, List.append_assoc] at h
          exact plain_records hitem (XmlMoves.after XmlMove.openRoot.moves h)
      intro other hother
      rcases List.mem_cons.mp hother with rfl | hother
      · exact hplain
      · exact ih hlater (XmlMoves.after (XmlRoot.Valid.moves hitem hplain) h) other hother

/-- **Empty `records` and `record` elements** are refused. -/
theorem plain_of_readXml {document : XmlDocument} (hvalid : document.Valid unicode)
    (h : readXml unicode document.xmlEvents = .ok records) : document.Plain := by
  have hmoves := readXml_iff.mp h
  rw [← List.append_nil document.xmlEvents] at hmoves
  exact plain_roots hvalid hmoves

end Empties

/-! ## One `records` element -/

/-- The elements that are in no other. -/
def topElements : (depth : ℕ) → List XmlEvent → ℕ
  | _, [] => 0
  | depth, .start _ _ :: events => (if depth = 0 then 1 else 0) + topElements (depth + 1) events
  | depth, .empty _ _ :: events => (if depth = 0 then 1 else 0) + topElements depth events
  | depth, .close _ :: events => topElements (depth - 1) events
  | depth, _ :: events => topElements depth events

section TopElements

variable {unicode : Unicode} {depth : ℕ} {rest : List XmlEvent}

theorem topElements_content {content : List XmlEvent} (h : ∀ event ∈ content, event.content?.isSome) :
    topElements depth (content ++ rest) = topElements depth rest := by
  induction content with
  | nil => rfl
  | cons event content ih =>
    have hrest := ih fun other hother => h other (List.mem_cons_of_mem _ hother)
    have hevent := h event List.mem_cons_self
    cases event with
    | start | empty | close => cases hevent
    | text | cdata | generalRef | docType | decl | comment | pi | failed => exact hrest

theorem topElements_filler {event : XmlEvent} (h : event.isFiller = true) :
    topElements depth (event :: rest) = topElements depth rest := by
  cases event with
  | start | empty | close => cases h
  | text | cdata | generalRef | docType | decl | comment | pi | failed => rfl

theorem topElements_filled {α : Type} {P : α → Prop} {ofElement : α → List XmlEvent} {items : Filled α}
    (h : items.All P)
    (hof : ∀ element rest, P element → topElements depth (ofElement element ++ rest) = topElements depth rest) :
    topElements depth (items.events ofElement ++ rest) = topElements depth rest := by
  induction items with
  | nil => rfl
  | cons item items ih =>
    have hrest := ih fun other hother => h other (List.mem_cons_of_mem _ hother)
    have hitem := h item List.mem_cons_self
    rw [Filled.events, List.flatMap_cons, List.append_assoc]
    cases item with
    | inl event => exact (topElements_filler hitem).trans hrest
    | inr element => exact (hof element _ hitem).trans hrest

theorem topElements_field {field : XmlField} (h : field.Valid unicode) (hpos : 0 < depth) :
    topElements depth (field.events ++ rest) = topElements depth rest := by
  cases field with
  | empty name =>
    show (if depth = 0 then 1 else 0) + topElements depth rest = _
    rw [if_neg hpos.ne', Nat.zero_add]
  | filled name content =>
    rw [XmlField.events, List.cons_append, List.cons_append, List.append_assoc, topElements, topElements_content h.2,
      if_neg hpos.ne', Nat.zero_add]
    rfl

theorem topElements_record {element : XmlRecord} (h : element.Valid unicode) (hpos : 0 < depth) :
    topElements depth (element.events ++ rest) = topElements depth rest := by
  cases element with
  | empty =>
    show (if depth = 0 then 1 else 0) + topElements depth rest = _
    rw [if_neg hpos.ne', Nat.zero_add]
  | filled items =>
    rw [XmlRecord.events, List.cons_append, List.cons_append, List.append_assoc, topElements,
      topElements_filled h.1 fun field rest hfield => topElements_field hfield (Nat.succ_pos _),
      if_neg hpos.ne', Nat.zero_add]
    rfl

theorem topElements_root {root : XmlRoot} (h : root.Valid unicode) :
    topElements 0 (root.events ++ rest) = 1 + topElements 0 rest := by
  cases root with
  | empty => rfl
  | filled items =>
    rw [XmlRoot.events, List.cons_append, List.cons_append, List.append_assoc, topElements,
      topElements_filled h fun element rest helement => topElements_record helement (Nat.succ_pos _)]
    rfl

/-- **The `records` elements** of a document are its top elements. -/
theorem topElements_document {document : XmlDocument} (h : document.Valid unicode) :
    topElements 0 document.xmlEvents = document.elements.length := by
  induction document with
  | nil => rfl
  | cons item items ih =>
    have hrest := ih fun other hother => h other (List.mem_cons_of_mem _ hother)
    have hitem := h item List.mem_cons_self
    rw [XmlDocument.xmlEvents, Filled.events, List.flatMap_cons]
    cases item with
    | inl event => exact (topElements_filler hitem).trans hrest
    | inr root =>
      refine (topElements_root hitem).trans ?_
      rw [Nat.add_comm]
      exact congrArg (· + 1) hrest

end TopElements

/-- The records-v1 grammar: the events of a document with just one `records` element. -/
def IsRecordsV1 (unicode : Unicode) (events : List XmlEvent) (records : List Record) : Prop :=
  ∃ document : XmlDocument, document.Valid unicode ∧ document.elements.length = 1 ∧ document.xmlEvents = events ∧
    document.records = records

/-- **`read_xml` accepts the grammar**, and returns its records, if and only if the events are not
    those of `records` elements of which there is one with an empty `records` or `record` element, or
    several or none without. -/
theorem readXml_exact_iff (unicode : Unicode) (events : List XmlEvent) :
    (∀ records, readXml unicode events = .ok records ↔ IsRecordsV1 unicode events records) ↔
      ∀ document : XmlDocument, document.Valid unicode → document.xmlEvents = events →
        (document.elements.length = 1 ↔ document.Plain) := by
  constructor
  · rintro hexact document hvalid rfl
    constructor
    · intro hone
      exact plain_of_readXml hvalid ((hexact document.records).mpr ⟨document, hvalid, hone, rfl, rfl⟩)
    · intro hplain
      obtain ⟨other, hother, hone, hevents, -⟩ := (hexact document.records).mp (readXml_events hvalid hplain)
      rw [← topElements_document hvalid, ← hevents, topElements_document hother, hone]
  · intro hforms records
    constructor
    · intro hread
      obtain ⟨document, hvalid, hplain, rfl, rfl⟩ := document_of_readXml hread
      exact ⟨document, hvalid, (hforms document hvalid rfl).mpr hplain, rfl, rfl⟩
    · rintro ⟨document, hvalid, hone, rfl, rfl⟩
      exact readXml_events hvalid ((hforms document hvalid rfl).mp hone)

/-! ## Several `records` elements, and an empty one -/

namespace XmlSample

/-- The classes of ASCII characters. -/
def ascii : Unicode := ⟨Char.isAlpha, Char.isDigit⟩

/-- `<records></records><records></records>` -/
def twice : List XmlEvent :=
  [.start (some "records") false, .close (some "records"), .start (some "records") false, .close (some "records")]

/-- `<records/>` -/
def emptyRecords : List XmlEvent := [.empty (some "records") false]

/-- **Accepted and refused**: two `records` elements are read, no element at all is, and one empty
    `records` element is not. -/
theorem readXml_not_exact :
    (readXml ascii twice = .ok [] ∧ ¬ IsRecordsV1 ascii twice []) ∧
      (readXml ascii [] = .ok [] ∧ ¬ IsRecordsV1 ascii [] []) ∧
      IsRecordsV1 ascii emptyRecords [] ∧ readXml ascii emptyRecords ≠ .ok [] := by
  have hone : ∀ {events records}, IsRecordsV1 ascii events records → topElements 0 events = 1 := by
    rintro events records ⟨document, hvalid, hone, rfl, -⟩
    rw [topElements_document hvalid, hone]
  refine ⟨⟨rfl, fun h => ?_⟩, ⟨rfl, fun h => ?_⟩, ?_, fun h => ?_⟩
  · have := hone h
    cases this
  · have := hone h
    cases this
  · refine ⟨[.inr .empty], ?_, rfl, rfl, rfl⟩
    intro item hitem
    rw [List.mem_singleton.mp hitem]
    trivial
  · cases h

end XmlSample

end Anole
