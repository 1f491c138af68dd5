import Anole.Structured.XmlRecords

/-!
# Records that are written and read again

Model of `write_xml` and `scalar_text` (`crates/core/src/structured.rs`, lines 691–752), and what
`read_xml` makes of a document that was written.

A document is a list of tags and of raw text between them. The writer escapes text, and may put blank
text before a tag that does not follow a text. The reader hands raw text over in pieces, in which the
references are events of their own.

* `pieces_escapeXml`: however escaped text is cut into pieces, they add up to the text.
* `readXml_of_readBack`: what is written is read as records of texts.
-/

open Common

namespace Anole

open Anole.Common

/-! ## The writer -/

/-- The value is an array or an object. -/
def Value.isNested : Value → Bool
  | .array _ | .object _ => true
  | _ => false

/-- The fields of a `Dataset`: the names of the fields of all records, in order (lines 393–398). -/
def fieldsOf (records : List Record) : List String :=
  (records.flatten.map Prod.fst).dedup.insertionSort (· ≤ ·)

/-- `scalar_text` (lines 740–752). -/
def scalarText (numberText : Number → String) : Option Value → Except AnoleError String
  | none | some .null => .ok ""
  | some (.string text) => .ok text
  | some (.bool value) => .ok (if value then "true" else "false")
  | some (.number number) => .ok (numberText number)
  | some (.array _) | some (.object _) =>
    .error (.new .policyBlocked .execute "Nested data reached a flat serializer"
      "Choose JSON/YAML or create an explicit flatten mapping.")

/-- The declaration, or a tag of an element. -/
inductive XmlTag where
  | decl
  | start (name : String)
  | close (name : String)

/-- An event that is written. -/
inductive XmlOutput where
  | tag (tag : XmlTag)
  | text (content : String)

/-- The element of a field. -/
def fieldOutput (numberText : Number → String) (record : Record) (field : String) :
    Except AnoleError (List XmlOutput) := do
  let value ← scalarText numberText (record.lookup field)
  .ok [.tag (.start field), .text value, .tag (.close field)]

/-- The element of a record. -/
def recordOutput (numberText : Number → String) (fields : List String) (record : Record) :
    Except AnoleError (List XmlOutput) := do
  let elements ← fields.mapM (fieldOutput numberText record)
  .ok (.tag (.start "record") :: (elements.flatten ++ [.tag (.close "record")]))

/-- `write_xml` (lines 691–738), up to the events that are written. -/
def writeXml (unicode : Unicode) (numberText : Number → String) (fields : List String) (records : List Record) :
    Except AnoleError (List XmlOutput) :=
  match fields.find? fun field => ¬ validXmlName unicode field with
  | some field => .error (.new .policyBlocked .execute s!"Field is not a valid XML element name: {field}"
      "Rename the field or choose JSON/YAML/CSV.")
  | none => do
    let elements ← records.mapM (recordOutput numberText fields)
    .ok (.tag .decl :: .tag (.start "records") :: (elements.flatten ++ [.tag (.close "records")]))

/-! ## Escaped text -/

/-- The names of the five predefined entities. -/
def entityName : Char → Option String
  | '&' => some "amp"
  | '<' => some "lt"
  | '>' => some "gt"
  | '\'' => some "apos"
  | '"' => some "quot"
  | _ => none

def escapeChar (c : Char) : List Char :=
  match entityName c with
  | none => [c]
  | some name => '&' :: name.toList ++ [';']

/-- `quick_xml::escape::escape`, which `BytesText::new` calls. -/
def escapeXml (text : List Char) : List Char := text.flatMap escapeChar

/-- What `quick_xml::escape::unescape` makes of a text without a reference. -/
def KeepsPlainText (unescape : String → Except String String) : Prop :=
  ∀ text : String, '&' ∉ text.toList → unescape text = .ok text

/-- Raw text is handed over in pieces: text without a reference, which is unescaped once more, and
    references. -/
inductive Pieces (unescape : String → Except String String) : List Char → List XmlEvent → Prop where
  | nil : Pieces unescape [] []
  | text {piece rest events} : '&' ∉ piece → Pieces unescape rest events →
      Pieces unescape (piece ++ rest) (.text ((unescape (String.ofList piece)).mapError .entity) :: events)
  | reference {name rest events} : ';' ∉ name → Pieces unescape rest events →
      Pieces unescape ('&' :: (name ++ ';' :: rest)) (.generalRef (.ok (String.ofList name)) :: events)

section Escaped

variable {unescape : String → Except String String} {text : List Char} {events : List XmlEvent}

@[simp] theorem escapeXml_nil : escapeXml [] = [] := rfl

theorem escapeXml_cons (c : Char) (text : List Char) : escapeXml (c :: text) = escapeChar c ++ escapeXml text :=
  List.flatMap_cons

theorem escapeChar_cases (c : Char) :
    (c ≠ '&' ∧ escapeChar c = [c]) ∨
      ∃ name, predefinedEntity name = some (String.singleton c) ∧ ';' ∉ name.toList ∧
        escapeChar c = '&' :: (name.toList ++ [';']) := by
  rw [escapeChar]
  unfold entityName
  split
  · next name heq =>
    split at heq <;> cases heq
    all_goals exact .inl ⟨by assumption, rfl⟩
  · next name heq =>
    refine .inr ⟨name, ?_⟩
    split at heq <;> cases heq
    all_goals exact ⟨by decide, by decide, rfl⟩

/-- Text without a reference that stands at the front of escaped text was not changed. -/
theorem plain_of_escapeXml {piece rest : List Char} (hplain : '&' ∉ piece) (h : piece ++ rest = escapeXml text) :
    ∃ text', text = piece ++ text' ∧ rest = escapeXml text' := by
  induction piece generalizing text with
  | nil => exact ⟨text, rfl, h⟩
  | cons c piece ih =>
    obtain ⟨hc, hplain⟩ := not_or.mp (mt List.mem_cons.mpr hplain)
    cases text with
    | nil => cases h
    | cons d text =>
      rw [escapeXml_cons] at h
      obtain ⟨-, hd⟩ | ⟨name, -, -, hd⟩ := escapeChar_cases d
      · rw [hd] at h
        obtain ⟨rfl, htail⟩ := List.cons.inj h
        obtain ⟨text', rfl, hrest⟩ := ih hplain htail
        exact ⟨text', rfl, hrest⟩
      · rw [hd] at h
        exact absurd (List.cons.inj h).1.symm hc

/-- Texts are cut in one way at the first `c`. -/
theorem append_cons_inj {c : Char} {before before' after after' : List Char} (h : c ∉ before) (h' : c ∉ before')
    (heq : before ++ c :: after = before' ++ c :: after') : before = before' ∧ after = after' := by
  induction before generalizing before' with
  | nil =>
    cases before' with
    | nil => exact ⟨rfl, (List.cons.inj heq).2⟩
    | cons d before' => exact absurd ((List.cons.inj heq).1 ▸ List.mem_cons_self) h'
  | cons d before ih =>
    cases before' with
    | nil => exact absurd ((List.cons.inj heq).1 ▸ List.mem_cons_self) h
    | cons d' before' =>
      obtain ⟨rfl, htail⟩ := List.cons.inj heq
      obtain ⟨rfl, rfl⟩ := ih (mt (List.mem_cons_of_mem _) h) (mt (List.mem_cons_of_mem _) h') htail
      exact ⟨rfl, rfl⟩

/-- A reference at the front of escaped text stands for its first character. -/
theorem reference_of_escapeXml {name rest : List Char} (hname : ';' ∉ name)
    (h : '&' :: (name ++ ';' :: rest) = escapeXml text) :
    ∃ c text', text = c :: text' ∧ predefinedEntity (String.ofList name) = some (String.singleton c) ∧
      rest = escapeXml text' := by
  cases text with
  | nil => cases h
  | cons c text =>
    rw [escapeXml_cons] at h
    obtain ⟨hc, hplain⟩ | ⟨found, hfound, hsemicolon, hescaped⟩ := escapeChar_cases c
    · rw [hplain] at h
      exact absurd (List.cons.inj h).1.symm hc
    · rw [hescaped, List.cons_append, List.append_assoc] at h
      obtain ⟨rfl, rfl⟩ := append_cons_inj hname hsemicolon (List.cons.inj h).2
      rw [String.ofList_toList]
      exact ⟨c, text, rfl, hfound, rfl⟩

/-- **Pieces of escaped text** may all stand in a field, and add up to the text. -/
theorem pieces_escapeXml (hunescape : KeepsPlainText unescape)
    (h : Pieces unescape (escapeXml text) events) :
    (∀ event ∈ events, event.content?.isSome) ∧
      String.join (events.map fun event => event.content?.getD "") = String.ofList text := by
  generalize hraw : escapeXml text = raw at h
  induction h generalizing text with
  | nil =>
    obtain rfl : text = [] := by
      cases text with
      | nil => rfl
      | cons c text =>
        rw [escapeXml_cons] at hraw
        obtain ⟨-, hc⟩ | ⟨name, -, -, hc⟩ := escapeChar_cases c
        · rw [hc] at hraw
          cases hraw
        · rw [hc] at hraw
          cases hraw
    exact ⟨fun event hevent => absurd hevent List.not_mem_nil, rfl⟩
  | @text piece rest events hplain _ ih =>
    obtain ⟨text', rfl, hrest⟩ := plain_of_escapeXml hplain hraw.symm
    obtain ⟨hall, hjoin⟩ := ih hrest.symm
    rw [hunescape _ (by rwa [String.toList_ofList])]
    constructor
    · intro event hevent
      rcases List.mem_cons.mp hevent with rfl | hevent
      · rfl
      · exact hall event hevent
    · rw [List.map_cons, String.join_cons, hjoin, String.ofList_append]
      rfl
  | @reference name rest events hname _ ih =>
    obtain ⟨c, text', rfl, hentity, hrest⟩ := reference_of_escapeXml hname hraw.symm
    obtain ⟨hall, hjoin⟩ := ih hrest.symm
    constructor
    · intro event hevent
      rcases List.mem_cons.mp hevent with rfl | hevent
      · rw [XmlEvent.content?, hentity]
        rfl
      · exact hall event hevent
    · rw [List.map_cons, String.join_cons, hjoin, XmlEvent.content?, hentity, Option.getD_some,
        ← String.toList_inj]
      simp

end Escaped

/-! ## Documents -/

/-- A part of a document. -/
inductive XmlMarkup where
  | tag (tag : XmlTag)
  | raw (text : List Char)

/-- The event of a tag that is read. -/
def XmlTag.event : XmlTag → XmlEvent
  | decl => .decl
  | start name => .start (some name) false
  | close name => .close (some name)

/-- What the writer makes of events; `afterText` says that the last of them was a text. A tag that follows
    a text is not indented. -/
inductive Written : (afterText : Bool) → List XmlOutput → List XmlMarkup → Prop where
  | nil {afterText} : Written afterText [] []
  | text {afterText content outputs markup} : Written true outputs markup →
      Written afterText (.text content :: outputs) (.raw (escapeXml content.toList) :: markup)
  | tag {afterText tag outputs markup} : Written false outputs markup →
      Written afterText (.tag tag :: outputs) (.tag tag :: markup)
  | indented {blank tag outputs markup} : (∀ c ∈ blank, c = ' ' ∨ c = '\n') → Written false outputs markup →
      Written false (.tag tag :: outputs) (.raw blank :: .tag tag :: markup)

/-- What the reader makes of a document. -/
inductive Yields (unescape : String → Except String String) : List XmlMarkup → List XmlEvent → Prop where
  | nil : Yields unescape [] []
  | tag {tag markup events} : Yields unescape markup events → Yields unescape (.tag tag :: markup) (tag.event :: events)
  | raw {text pieces markup events} : Pieces unescape text pieces → Yields unescape markup events →
      Yields unescape (.raw text :: markup) (pieces ++ events)

/-- The events are read from a document that was written. -/
def ReadBack (unescape : String → Except String String) (afterText : Bool) (outputs : List XmlOutput)
    (events : List XmlEvent) : Prop :=
  ∃ markup, Written afterText outputs markup ∧ Yields unescape markup events

section Documents

variable {unescape : String → Except String String} {afterText : Bool} {blank : List Char} {element : XmlTag}
  {outputs : List XmlOutput} {events : List XmlEvent}

theorem pieces_blank (hunescape : KeepsPlainText unescape)
    (hblank : ∀ c ∈ blank, c = ' ' ∨ c = '\n') (h : Pieces unescape blank events) :
    ∀ event ∈ events, event.isFiller = true := by
  induction h with
  | nil => exact fun event hevent => absurd hevent List.not_mem_nil
  | @text piece rest events hplain _ ih =>
    intro event hevent
    rcases List.mem_cons.mp hevent with rfl | hevent
    · rw [hunescape _ (by rwa [String.toList_ofList])]
      show (String.ofList piece).toList.all isWhitespace = true
      rw [String.toList_ofList, List.all_eq_true]
      intro c hc
      obtain rfl | rfl := hblank c (List.mem_append_left _ hc)
      all_goals rfl
    · exact ih (fun c hc => hblank c (List.mem_append_right _ hc)) event hevent
  | reference =>
    obtain hamp | hamp := hblank '&' List.mem_cons_self
    all_goals cases hamp

/-- **A tag** is read after fillers, and after no filler when it follows a text. -/
theorem ReadBack.tag (hunescape : KeepsPlainText unescape)
    (h : ReadBack unescape afterText (.tag element :: outputs) events) :
    ∃ fillers rest, (∀ filler ∈ fillers, filler.isFiller = true) ∧ (afterText = true → fillers = []) ∧
      events = fillers ++ element.event :: rest ∧ ReadBack unescape false outputs rest := by
  obtain ⟨markup, hwritten, hyields⟩ := h
  cases hwritten with
  | tag hwritten =>
    cases hyields with
    | tag hyields =>
      exact ⟨[], _, fun filler hfiller => absurd hfiller List.not_mem_nil, fun _ => rfl, rfl, _, hwritten, hyields⟩
  | indented hblank hwritten =>
    cases hyields with
    | raw hpieces hyields =>
      cases hyields with
      | tag hyields =>
        exact ⟨_, _, pieces_blank hunescape hblank hpieces, fun hafter => Bool.noConfusion hafter, rfl, _, hwritten,
          hyields⟩

/-- **A text** is read in pieces that add up to it. -/
theorem ReadBack.text {content : String} (hunescape : KeepsPlainText unescape)
    (h : ReadBack unescape afterText (.text content :: outputs) events) :
    ∃ pieces rest, (∀ event ∈ pieces, event.content?.isSome) ∧
      String.join (pieces.map fun event => event.content?.getD "") = content ∧
      events = pieces ++ rest ∧ ReadBack unescape true outputs rest := by
  obtain ⟨markup, hwritten, hyields⟩ := h
  cases hwritten with
  | text hwritten =>
    cases hyields with
    | raw hpieces hyields =>
      obtain ⟨hcontent, hjoin⟩ := pieces_escapeXml hunescape hpieces
      rw [String.ofList_toList] at hjoin
      exact ⟨_, _, hcontent, hjoin, rfl, _, hwritten, hyields⟩

theorem ReadBack.nil (h : ReadBack unescape afterText [] events) : events = [] := by
  obtain ⟨markup, hwritten, hyields⟩ := h
  cases hwritten
  cases hyields
  rfl

/-- Escaped text can be cut into pieces. -/
theorem exists_pieces (unescape : String → Except String String) (text : List Char) :
    ∃ events, Pieces unescape (escapeXml text) events := by
  induction text with
  | nil => exact ⟨[], .nil⟩
  | cons c text ih =>
    obtain ⟨events, hevents⟩ := ih
    rw [escapeXml_cons]
    obtain ⟨hc, hplain⟩ | ⟨name, -, hname, hescaped⟩ := escapeChar_cases c
    · rw [hplain]
      exact ⟨_, .text (mt List.mem_singleton.mp (Ne.symm hc)) hevents⟩
    · rw [hescaped, List.cons_append, List.append_assoc]
      exact ⟨_, .reference hname hevents⟩

theorem exists_readBack (unescape : String → Except String String) (afterText : Bool) (outputs : List XmlOutput) :
    ∃ events, ReadBack unescape afterText outputs events := by
  induction outputs generalizing afterText with
  | nil => exact ⟨[], [], .nil, .nil⟩
  | cons output outputs ih =>
    cases output with
    | tag tag =>
      obtain ⟨events, markup, hwritten, hyields⟩ := ih false
      exact ⟨_, _, .tag hwritten, .tag hyields⟩
    | text content =>
      obtain ⟨events, markup, hwritten, hyields⟩ := ih true
      obtain ⟨pieces, hpieces⟩ := exists_pieces unescape content.toList
      exact ⟨_, _, .text hwritten, .raw hpieces hyields⟩

end Documents

/-! ## Records that are read again -/

namespace Filled

variable {α : Type} {P : α → Prop} {ofElement : α → List XmlEvent} {fillers : List XmlEvent} {element : α}
  {items : Filled α}

/-- The items with an element before them, and fillers before that. -/
def lead (fillers : List XmlEvent) (element : α) (items : Filled α) : Filled α :=
  fillers.map .inl ++ .inr element :: items

theorem all_inl (hfillers : ∀ event ∈ fillers, event.isFiller = true) : All P (fillers.map .inl) := by
  intro item hitem
  obtain ⟨event, hevent, rfl⟩ := List.mem_map.mp hitem
  exact hfillers event hevent

theorem all_append {others : Filled α} (h : All P items) (hothers : All P others) : All P (items ++ others) := by
  intro item hitem
  rcases List.mem_append.mp hitem with hitem | hitem
  · exact h item hitem
  · exact hothers item hitem

theorem all_lead (hfillers : ∀ event ∈ fillers, event.isFiller = true) (helement : P element) (hitems : All P items) :
    All P (lead fillers element items) := by
  apply all_append (all_inl hfillers)
  intro item hitem
  rcases List.mem_cons.mp hitem with rfl | hitem
  · exact helement
  · exact hitems item hitem

@[simp] theorem elements_inl : elements (fillers.map .inl : Filled α) = [] := by
  simp [elements, List.filterMap_map, Function.comp_def]

@[simp] theorem events_inl : events ofElement (fillers.map .inl : Filled α) = fillers := by
  simp [events, List.flatMap_map]

@[simp] theorem events_nil : events ofElement ([] : Filled α) = [] := rfl

@[simp] theorem elements_append {others : Filled α} : elements (items ++ others) = elements items ++ elements others :=
  List.filterMap_append

@[simp] theorem events_append {others : Filled α} :
    events ofElement (items ++ others) = events ofElement items ++ events ofElement others :=
  List.flatMap_append

@[simp] theorem elements_lead : elements (lead fillers element items) = element :: elements items := by
  rw [lead, elements_append, elements_inl, List.nil_append]
  rfl

@[simp] theorem events_lead :
    events ofElement (lead fillers element items) = fillers ++ (ofElement element ++ events ofElement items) := by
  rw [lead, events_append, events_inl]
  rfl

end Filled

/-- The elements of fields with these texts. -/
def fieldTags (entries : List (String × String)) : List XmlOutput :=
  entries.flatMap fun entry => [.tag (.start entry.1), .text entry.2, .tag (.close entry.1)]

/-- The elements of records with these fields. -/
def recordTags (tables : List (List (String × String))) : List XmlOutput :=
  tables.flatMap fun entries => .tag (.start "record") :: (fieldTags entries ++ [.tag (.close "record")])

section Reading

variable {unescape : String → Except String String} {unicode : Unicode} {outputs : List XmlOutput}
  {events : List XmlEvent} {entries : List (String × String)} {tables : List (List (String × String))}

/-- **Fields** are read, with fillers between them. -/
theorem readBack_fields (hunescape : KeepsPlainText unescape)
    (hnames : ∀ entry ∈ entries, validXmlName unicode entry.1 = true)
    (h : ReadBack unescape false (fieldTags entries ++ outputs) events) :
    ∃ (items : Filled XmlField) (rest : List XmlEvent), items.All (XmlField.Valid unicode) ∧
      (items.elements.map fun field => (field.name, field.text)) = entries ∧
      events = items.events XmlField.events ++ rest ∧ ReadBack unescape false outputs rest := by
  induction entries generalizing events with
  | nil => exact ⟨[], events, fun item hitem => absurd hitem List.not_mem_nil, rfl, rfl, h⟩
  | cons entry entries ih =>
    obtain ⟨name, text⟩ := entry
    obtain ⟨fillers, rest, hfillers, -, rfl, hopen⟩ := ReadBack.tag hunescape h
    obtain ⟨pieces, rest, hpieces, hjoin, rfl, htext⟩ := ReadBack.text hunescape hopen
    obtain ⟨blank, rest, -, hblank, rfl, hclosed⟩ := ReadBack.tag hunescape htext
    obtain rfl := hblank rfl
    obtain ⟨items, rest, hitems, hentries, rfl, hrest⟩ :=
      ih (fun other hother => hnames other (List.mem_cons_of_mem _ hother)) hclosed
    have hfield : XmlField.Valid unicode (.filled name pieces) := ⟨hnames (name, text) List.mem_cons_self, hpieces⟩
    refine ⟨.lead fillers (.filled name pieces) items, rest, Filled.all_lead hfillers hfield hitems, ?_, ?_, hrest⟩
    · rw [Filled.elements_lead, List.map_cons, hentries, XmlField.name, XmlField.text, hjoin]
    · simp [XmlField.events, XmlTag.event]

/-- A record of texts. -/
def textRecord (entries : List (String × String)) : Record :=
  TextMap.ofList (entries.map fun entry => (entry.1, Value.string entry.2))

/-- **Records** are read, with fillers between them. -/
theorem readBack_records (hunescape : KeepsPlainText unescape)
    (hnames : ∀ entries ∈ tables, ∀ entry ∈ entries, validXmlName unicode entry.1 = true)
    (hnodup : ∀ entries ∈ tables, (entries.map Prod.fst).Nodup)
    (h : ReadBack unescape false (recordTags tables ++ outputs) events) :
    ∃ (items : Filled XmlRecord) (rest : List XmlEvent), items.All (XmlRecord.Valid unicode) ∧
      (∀ element ∈ items.elements, element.Plain) ∧ items.elements.map XmlRecord.record = tables.map textRecord ∧
      events = items.events XmlRecord.events ++ rest ∧ ReadBack unescape false outputs rest := by
  induction tables generalizing events with
  | nil =>
    exact ⟨[], events, fun item hitem => absurd hitem List.not_mem_nil,
      fun element helement => absurd helement List.not_mem_nil, rfl, rfl, h⟩
  | cons entries tables ih =>
    have hsplit : recordTags (entries :: tables) ++ outputs = .tag (.start "record") ::
        (fieldTags entries ++ (.tag (.close "record") :: (recordTags tables ++ outputs))) := by simp [recordTags]
    rw [hsplit] at h
    obtain ⟨fillers, rest, hfillers, -, rfl, hopen⟩ := ReadBack.tag hunescape h
    obtain ⟨fields, rest, hfields, hentries, rfl, hfilled⟩ :=
      readBack_fields hunescape (hnames entries List.mem_cons_self) hopen
    obtain ⟨blank, rest, hblank, -, rfl, hclosed⟩ := ReadBack.tag hunescape hfilled
    obtain ⟨items, rest, hitems, hplain, hrecords, rfl, hrest⟩ :=
      ih (fun other hother => hnames other (List.mem_cons_of_mem _ hother))
        (fun other hother => hnodup other (List.mem_cons_of_mem _ hother)) hclosed
    have hnodup' : (fields.elements.map XmlField.name).Nodup := by
      have := hnodup entries List.mem_cons_self
      rw [← hentries, List.map_map] at this
      exact this
    have helement : XmlRecord.Valid unicode (.filled (fields ++ blank.map .inl)) := by
      refine ⟨Filled.all_append hfields (Filled.all_inl hblank), ?_⟩
      rw [Filled.elements_append, Filled.elements_inl, List.append_nil]
      exact hnodup'
    have hrecord : XmlRecord.record (.filled (fields ++ blank.map .inl)) = textRecord entries := by
      rw [XmlRecord.record, XmlRecord.fields, Filled.elements_append, Filled.elements_inl, List.append_nil, ← hentries,
        textRecord, List.map_map, TextMap.ofList, List.foldl_map]
      rfl
    refine ⟨.lead fillers _ items, rest, Filled.all_lead hfillers helement hitems, ?_, ?_, ?_, hrest⟩
    · intro element hmem
      rw [Filled.elements_lead] at hmem
      rcases List.mem_cons.mp hmem with rfl | hmem
      · exact fun heq => XmlRecord.noConfusion heq
      · exact hplain element hmem
    · rw [Filled.elements_lead, List.map_cons, hrecord, hrecords, List.map_cons]
    · simp [XmlRecord.events, XmlTag.event]

/-- **A document** that was written is read as the records of its texts. -/
theorem readXml_of_readBack (hunescape : KeepsPlainText unescape)
    (hnames : ∀ entries ∈ tables, ∀ entry ∈ entries, validXmlName unicode entry.1 = true)
    (hnodup : ∀ entries ∈ tables, (entries.map Prod.fst).Nodup)
    (h : ReadBack unescape false
      (.tag .decl :: .tag (.start "records") :: (recordTags tables ++ [.tag (.close "records")])) events) :
    readXml unicode events = .ok (tables.map textRecord) := by
  obtain ⟨before, rest, hbefore, -, rfl, hdecl⟩ := ReadBack.tag hunescape h
  obtain ⟨fillers, rest, hfillers, -, rfl, hopen⟩ := ReadBack.tag hunescape hdecl
  obtain ⟨items, rest, hitems, hplain, hrecords, rfl, hfilled⟩ := readBack_records hunescape hnames hnodup hopen
  obtain ⟨blank, rest, hblank, -, rfl, hclosed⟩ := ReadBack.tag hunescape hfilled
  obtain rfl := hclosed.nil
  let root : XmlRoot := .filled (items ++ blank.map .inl)
  let document : XmlDocument := .lead (before ++ .decl :: fillers) root []
  have hlead : ∀ event ∈ before ++ .decl :: fillers, event.isFiller = true := by
    intro event hevent
    rcases List.mem_append.mp hevent with hevent | hevent
    · exact hbefore event hevent
    · rcases List.mem_cons.mp hevent with rfl | hevent
      · rfl
      · exact hfillers event hevent
  have helements : root.elements = items.elements := by
    show Filled.elements (items ++ blank.map .inl) = _
    rw [Filled.elements_append, Filled.elements_inl, List.append_nil]
  have hvalid : document.Valid unicode :=
    Filled.all_lead hlead (Filled.all_append hitems (Filled.all_inl hblank)) fun item hitem => absurd hitem List.not_mem_nil
  have hdocument : document.Plain := by
    intro other hother
    rw [Filled.elements_lead] at hother
    obtain rfl := List.mem_singleton.mp hother
    refine ⟨fun heq => XmlRoot.noConfusion heq, ?_⟩
    rw [helements]
    exact hplain
  have hevents : document.xmlEvents = before ++ XmlTag.event .decl :: (fillers ++ XmlTag.event (.start "records") ::
      (items.events XmlRecord.events ++ (blank ++ [XmlTag.event (.close "records")]))) := by
    simp [document, root, XmlDocument.xmlEvents, XmlRoot.events, XmlTag.event]
  rw [← hevents, readXml_events hvalid hdocument, XmlDocument.records, Filled.elements_lead]
  show Except.ok (root.elements.map XmlRecord.record ++ []) = _
  rw [List.append_nil, helements, hrecords]

end Reading

/-! ## Records -/

/-- The text of a value that is not nested. -/
def textOf (numberText : Number → String) (value : Option Value) : String :=
  match scalarText numberText value with
  | .ok text => text
  | .error _ => ""

/-- The entries of a record under the fields. -/
def textEntries (numberText : Number → String) (fields : List String) (record : Record) : List (String × String) :=
  fields.map fun field => (field, textOf numberText (record.lookup field))

/-- The record has just the fields, and the texts of the values that another record has under them. -/
structure IsTextCopy (numberText : Number → String) (fields : List String) (record copy : Record) : Prop where
  texts : ∀ field ∈ fields, ∃ text, scalarText numberText (record.lookup field) = .ok text ∧
    copy.lookup field = some (.string text)
  others : ∀ field, field ∉ fields → copy.lookup field = none

section Records

variable {unicode : Unicode} {numberText : Number → String} {records : List Record} {record : Record}
  {fields : List String} {field : String}

/-- **The fields** are the union of the fields of the records. -/
theorem mem_fieldsOf : field ∈ fieldsOf records ↔ ∃ record ∈ records, ∃ value, (field, value) ∈ record := by
  rw [fieldsOf, List.mem_insertionSort, List.mem_dedup, List.mem_map]
  constructor
  · rintro ⟨⟨name, value⟩, hmem, rfl⟩
    obtain ⟨record, hrecord, hentry⟩ := List.mem_flatten.mp hmem
    exact ⟨record, hrecord, value, hentry⟩
  · rintro ⟨record, hrecord, value, hentry⟩
    exact ⟨(field, value), List.mem_flatten.mpr ⟨record, hrecord, hentry⟩, rfl⟩

theorem nodup_fieldsOf (records : List Record) : (fieldsOf records).Nodup :=
  (List.perm_insertionSort _ _).nodup_iff.mpr (List.nodup_dedup _)

theorem scalarText_textOf (hflat : ∀ entry ∈ record, entry.2.isNested = false) (field : String) :
    scalarText numberText (record.lookup field) = .ok (textOf numberText (record.lookup field)) := by
  rw [textOf]
  cases hvalue : record.lookup field with
  | none => rfl
  | some value =>
    obtain ⟨before, after, rfl, -⟩ := List.lookup_eq_some_iff.mp hvalue
    have hnested := hflat (field, value) (List.mem_append_right _ List.mem_cons_self)
    cases value with
    | null | bool | number | string => rfl
    | array | object => cases hnested

/-- **A record** is written as its entries. -/
theorem recordOutput_ok (hflat : ∀ entry ∈ record, entry.2.isNested = false) :
    recordOutput numberText fields record =
      .ok (.tag (.start "record") :: (fieldTags (textEntries numberText fields record) ++ [.tag (.close "record")])) := by
  have helements : fields.mapM (fieldOutput numberText record) = .ok (fields.map fun field =>
      [.tag (.start field), .text (textOf numberText (record.lookup field)), .tag (.close field)]) := by
    rw [mapM_eq_ok, List.forall₂_map_right_iff, List.forall₂_same]
    intro field _
    rw [fieldOutput, scalarText_textOf hflat]
    rfl
  rw [recordOutput, helements, textEntries, fieldTags, List.flatMap_map, List.flatMap_def]
  rfl

/-- **What is written** of flat records whose fields can be names of elements. -/
theorem writeXml_ok (hflat : ∀ record ∈ records, ∀ entry ∈ record, entry.2.isNested = false)
    (hnames : ∀ field ∈ fields, validXmlName unicode field = true) :
    writeXml unicode numberText fields records =
      .ok (.tag .decl :: .tag (.start "records") :: (recordTags (records.map (textEntries numberText fields)) ++
        [.tag (.close "records")])) := by
  have helements : records.mapM (recordOutput numberText fields) = .ok (records.map fun record =>
      .tag (.start "record") :: (fieldTags (textEntries numberText fields record) ++ [.tag (.close "record")])) := by
    rw [mapM_eq_ok, List.forall₂_map_right_iff, List.forall₂_same]
    exact fun record hrecord => recordOutput_ok (hflat record hrecord)
  have hfind : fields.find? (fun field => ¬ validXmlName unicode field) = none := by
    rw [List.find?_eq_none]
    intro field hfield
    simp [hnames field hfield]
  rw [writeXml, hfind]
  simp only [helements]
  rw [recordTags, List.flatMap_map, List.flatMap_def]
  rfl

/-- **The entries** are a copy of the record. -/
theorem isTextCopy_textRecord (hflat : ∀ entry ∈ record, entry.2.isNested = false) (hfields : fields.Nodup) :
    IsTextCopy numberText fields record (textRecord (textEntries numberText fields record)) := by
  have hkeys : ((textEntries numberText fields record).map fun entry => (entry.1, Value.string entry.2)).map Prod.fst =
      fields := by
    rw [textEntries, List.map_map, List.map_map]
    exact List.map_id fields
  constructor
  · intro field hfield
    refine ⟨_, scalarText_textOf hflat field, TextMap.lookup_ofList_of_mem (by rwa [hkeys]) ?_⟩
    exact List.mem_map_of_mem (List.mem_map_of_mem hfield)
  · intro field hfield
    rw [textRecord, TextMap.lookup_ofList, List.lookup_eq_none_iff]
    intro entry hentry
    rw [← hkeys] at hfield
    have hne : field ≠ entry.1 := by
      rintro rfl
      exact hfield (List.mem_map_of_mem (List.mem_reverse.mp hentry))
    simpa using hne

/-- **Records-v1 XML round trip**: flat records whose fields can be names of elements are written, and what
    is read of the document are, in order, records of the union of the fields with the texts of the values. -/
theorem xml_round_trip (unicode : Unicode) (numberText : Number → String)
    (unescape : String → Except String String) (hunescape : KeepsPlainText unescape) (records : List Record)
    (hflat : ∀ record ∈ records, ∀ entry ∈ record, entry.2.isNested = false)
    (hnames : ∀ record ∈ records, ∀ entry ∈ record, validXmlName unicode entry.1 = true) :
    ∃ outputs, writeXml unicode numberText (fieldsOf records) records = .ok outputs ∧
      (∃ events, ReadBack unescape false outputs events) ∧
      ∀ events, ReadBack unescape false outputs events → ∃ copies, readXml unicode events = .ok copies ∧
        List.Forall₂ (IsTextCopy numberText (fieldsOf records)) records copies := by
  have hfields : ∀ field ∈ fieldsOf records, validXmlName unicode field = true := by
    intro field hfield
    obtain ⟨record, hrecord, value, hentry⟩ := mem_fieldsOf.mp hfield
    exact hnames record hrecord (field, value) hentry
  have htables : ∀ entries ∈ records.map (textEntries numberText (fieldsOf records)),
      ∀ entry ∈ entries, validXmlName unicode entry.1 = true := by
    intro entries hentries entry hentry
    obtain ⟨record, -, rfl⟩ := List.mem_map.mp hentries
    obtain ⟨field, hfield, rfl⟩ := List.mem_map.mp hentry
    exact hfields field hfield
  have hkeys : ∀ entries ∈ records.map (textEntries numberText (fieldsOf records)), (entries.map Prod.fst).Nodup := by
    intro entries hentries
    obtain ⟨record, -, rfl⟩ := List.mem_map.mp hentries
    rw [textEntries, List.map_map]
    exact (nodup_fieldsOf records).map fun _ _ heq => heq
  refine ⟨_, writeXml_ok hflat hfields, exists_readBack _ _ _, fun events hevents => ?_⟩
  refine ⟨_, readXml_of_readBack hunescape htables hkeys hevents, ?_⟩
  rw [List.map_map, List.forall₂_map_right_iff, List.forall₂_same]
  exact fun record hrecord => isTextCopy_textRecord (hflat record hrecord) (nodup_fieldsOf records)

end Records

namespace XmlSample

/-- Markup characters and the end of a CDATA section in one record, a blank text in the other. -/
def notes : List Record := [[("note", .string "a<b & ]]>\"'")], [("blank", .string " \n "), ("note", .null)]]

/-- **The round trip** of the notes. -/
theorem xml_round_trip_notes :
    ∃ outputs, writeXml ascii (fun _ => "0") (fieldsOf notes) notes = .ok outputs ∧
      (∃ events, ReadBack .ok false outputs events) ∧
      ∀ events, ReadBack .ok false outputs events → ∃ copies, readXml ascii events = .ok copies ∧
        List.Forall₂ (IsTextCopy (fun _ => "0") (fieldsOf notes)) notes copies :=
  xml_round_trip ascii (fun _ => "0") .ok (fun _ _ => rfl) notes (by decide) (by decide)

end XmlSample

end Anole
