import Mathlib
import Anole.Common.Gaps
import Anole.Domain

/-!
# The token digest of a document

Model of `normalized_tokens`, `html_text` and `docx_text` (`crates/core/src/document.rs`, lines
949–1030) and of the digest check of `validate_docx_output` (lines 550–590), on one document of
paragraphs in three renderings: plain text, HTML, and the `word/document.xml` of a DOCX package.

* `normalizedTokens_eq`: the letters and digits in lower case, with blanks where they are separated.
* `same_tokens_iff`: when the three renderings have the same tokens.

**Deviation.** The reader of HTML puts a blank after every piece of text, also inside a word of which
a part is in an inline element. The reader of DOCX puts one only after a paragraph, so that a line
break or an escaped character between two letters joins them.

The XML reader delivers text between markup as one event, and each reference as an event of its own;
neither reader looks at references.
-/

open Common

namespace Anole.TokenDigest

/-! ## Tokens -/

/-- The tables of Unicode behind `char::is_alphanumeric` and `char::to_lowercase`. -/
structure TextTables where
  isAlphanumeric : Char → Bool
  toLowercase : Char → List Char
  toLowercase_ne_nil : ∀ c, isAlphanumeric c = true → toLowercase c ≠ []
  blank_notMem : ∀ c, isAlphanumeric c = true → ' ' ∉ toLowercase c
  punctuation : ∀ c ∈ [' ', '\n', '&', '<', '>', '"', '\''], isAlphanumeric c = false

variable (tables : TextTables)

/-- The loop of `normalized_tokens` (lines 1017–1028), with `normalized` and `pending_space`. -/
def normalizedTokensLoop : List Char → Bool → List Char → List Char
  | normalized, _, [] => normalized
  | normalized, pendingSpace, character :: rest =>
    if tables.isAlphanumeric character then
      let normalized := if pendingSpace ∧ normalized ≠ [] then normalized ++ [' '] else normalized
      normalizedTokensLoop (normalized ++ tables.toLowercase character) false rest
    else normalizedTokensLoop normalized true rest

/-- `normalized_tokens` (lines 1014–1030). -/
def normalizedTokens (text : List Char) : List Char := normalizedTokensLoop tables [] false text

/-- The letters and digits of a text. -/
def charLetter (c : Char) : Option Char := if tables.isAlphanumeric c then some c else none

variable {tables} in
theorem charLetter_of_not {c : Char} (h : tables.isAlphanumeric c = false) : charLetter tables c = none := by
  rw [charLetter, h]
  rfl

variable {tables} in
theorem charLetter_of {c : Char} (h : tables.isAlphanumeric c = true) : charLetter tables c = some c := by
  rw [charLetter, h]
  rfl

/-- The letters and digits of a text, each with whether something else stands before it. -/
def marks (pending : Bool) (text : List Char) : List (Bool × Char) :=
  marked (charLetter tables) (fun _ => true) pending text

theorem normalizedTokensLoop_eq (normalized : List Char) (pending : Bool) (text : List Char) :
    normalizedTokensLoop tables normalized pending text =
      if normalized = [] then spelled ' ' tables.toLowercase (marks tables pending text)
      else normalized ++ spelledRest ' ' tables.toLowercase (marks tables pending text) := by
  induction text generalizing normalized pending with
  | nil =>
    rw [normalizedTokensLoop, marks, marked]
    split
    · next hempty => rw [hempty, spelled]
    · rw [spelledRest, List.flatMap_nil, List.append_nil]
  | cons c text ih =>
    rw [normalizedTokensLoop]
    cases hc : tables.isAlphanumeric c with
    | false =>
      rw [if_neg Bool.false_ne_true, ih, marks, marks, marked_other (charLetter_of_not hc), Bool.or_true]
    | true =>
      have hnonempty : ∀ front : List Char, front ++ tables.toLowercase c ≠ [] :=
        fun front => List.append_ne_nil_of_right_ne_nil _ (tables.toLowercase_ne_nil c hc)
      rw [if_pos rfl, ih, if_neg (hnonempty _), marks, marks, marked_letter (charLetter_of hc)]
      by_cases hempty : normalized = []
      · simp [hempty, spelled]
      · cases pending <;> simp [hempty, spelledRest]

/-- The letters and digits in lower case, with blanks where they are separated. -/
theorem normalizedTokens_eq (text : List Char) :
    normalizedTokens tables text = spelled ' ' tables.toLowercase (marks tables false text) := by
  rw [normalizedTokens, normalizedTokensLoop_eq, if_pos rfl]

/-! ## Readers -/

/-- What the XML reader delivers. -/
inductive XmlEvent where
  | start (name : String)
  | end_ (name : String)
  | empty (name : String)
  | text (content : List Char)
  | generalRef (name : String)

/-- `html_text` (lines 949–974). -/
def htmlText (events : List XmlEvent) : List Char :=
  events.flatMap fun
    | .text content => content ++ [' ']
    | _ => []

/-- The names that end a paragraph (lines 986–988). -/
def endsParagraph (name : String) : Bool := ":p".toList <:+ name.toList ∨ name = "p"

/-- `docx_text` (lines 976–998). -/
def docxText (events : List XmlEvent) : List Char :=
  events.flatMap fun
    | .text content => content
    | .end_ name => if endsParagraph name then [' '] else []
    | _ => []

/-! ## Renderings -/

/-- Markup, character by character. -/
inductive Item where
  | start (name : String)
  | end_ (name : String)
  | empty (name : String)
  | generalRef (name : String)
  | char (c : Char)
  deriving DecidableEq

/-- The events of markup: the characters between other markup are one text. -/
def events : List Item → List XmlEvent
  | [] => []
  | .start name :: items => .start name :: events items
  | .end_ name :: items => .end_ name :: events items
  | .empty name :: items => .empty name :: events items
  | .generalRef name :: items => .generalRef name :: events items
  | .char c :: items =>
    match events items with
    | .text content :: rest => .text (c :: content) :: rest
    | rest => .text [c] :: rest

/-- A part of a paragraph. HTML may wrap a run in an inline element. -/
inductive Piece where
  | run (text : List Char) (wrapper : Option String)
  | lineBreak

abbrev Paragraph := List Piece

/-- A document, part by part. -/
inductive Atom where
  | paragraphStart
  | paragraphEnd
  | runStart (wrapper : Option String)
  | runEnd (wrapper : Option String)
  | lineBreak
  | char (c : Char)
  deriving DecidableEq

def Piece.atoms : Piece → List Atom
  | run text wrapper => .runStart wrapper :: text.map .char ++ [.runEnd wrapper]
  | lineBreak => [.lineBreak]

def paragraphAtoms (paragraph : Paragraph) : List Atom :=
  .paragraphStart :: paragraph.flatMap Piece.atoms ++ [.paragraphEnd]

def documentAtoms (document : List Paragraph) : List Atom := document.flatMap paragraphAtoms

/-- The references that a rendering writes for characters. -/
structure Escaping where
  reference : Char → Option String
  predefined : ∀ c name, reference c = some name →
    (c, name) ∈ [('&', "amp"), ('<', "lt"), ('>', "gt"), ('"', "quot"), ('\'', "apos")]
  required : (reference '&').isSome ∧ (reference '<').isSome

variable (escaping : Escaping)

/-- A character in markup. -/
def charItem (c : Char) : Item := ((escaping.reference c).map Item.generalRef).getD (.char c)

def plainWrite : Atom → List Char
  | .char c => [c]
  | .lineBreak | .paragraphEnd => ['\n']
  | _ => []

def htmlWrite : Atom → List Item
  | .char c => [charItem escaping c]
  | .lineBreak => [.empty "br"]
  | .paragraphStart => [.start "p"]
  | .paragraphEnd => [.end_ "p"]
  | .runStart wrapper => (wrapper.map Item.start).toList
  | .runEnd wrapper => (wrapper.map Item.end_).toList

def docxWrite : Atom → List Item
  | .char c => [charItem escaping c]
  | .lineBreak => [.start "w:r", .empty "w:br", .end_ "w:r"]
  | .paragraphStart => [.start "w:p"]
  | .paragraphEnd => [.end_ "w:p"]
  | .runStart _ => [.start "w:r", .start "w:t"]
  | .runEnd _ => [.end_ "w:t", .end_ "w:r"]

/-- Plain text: paragraphs and breaks on separate lines. -/
def plainRendering (document : List Paragraph) : List Char := (documentAtoms document).flatMap plainWrite

def htmlRendering (document : List Paragraph) : List Item :=
  [.start "html", .start "body"] ++ (documentAtoms document).flatMap (htmlWrite escaping) ++
    [.end_ "body", .end_ "html"]

/-- `word/document.xml`. -/
def docxRendering (document : List Paragraph) : List Item :=
  [.start "w:document", .start "w:body"] ++ (documentAtoms document).flatMap (docxWrite escaping) ++
    [.end_ "w:body", .end_ "w:document"]

/-- The tokens of the three renderings. -/
def plainTokens (document : List Paragraph) : List Char := normalizedTokens tables (plainRendering document)

def htmlTokens (document : List Paragraph) : List Char :=
  normalizedTokens tables (htmlText (events (htmlRendering escaping document)))

def docxTokens (document : List Paragraph) : List Char :=
  normalizedTokens tables (docxText (events (docxRendering escaping document)))

/-! ## What the readers see -/

section Readers

variable {tables} {escaping} {items : List Item} {pending : Bool} {c : Char}

theorem marks_letter (h : tables.isAlphanumeric c = true) (text : List Char) :
    marks tables pending (c :: text) = (pending, c) :: marks tables false text :=
  marked_letter (charLetter_of h)

theorem marks_other (h : tables.isAlphanumeric c = false) (text : List Char) :
    marks tables pending (c :: text) = marks tables true text := by
  rw [marks, marked_other (charLetter_of_not h), Bool.or_true, marks]

/-- The letters and digits of markup. -/
def itemLetter (tables : TextTables) : Item → Option Char
  | .char c => charLetter tables c
  | _ => none

theorem htmlText_char_char (c d : Char) (items : List Item) :
    htmlText (events (.char c :: .char d :: items)) = c :: htmlText (events (.char d :: items)) := by
  simp only [events]
  cases events items with
  | nil => rfl
  | cons event rest => cases event <;> rfl

theorem htmlText_other {item : Item} (h : ∀ d, item ≠ .char d) (items : List Item) :
    htmlText (events (item :: items)) = htmlText (events items) := by
  cases item with
  | char d => exact absurd rfl (h d)
  | start _ | end_ _ | empty _ | generalRef _ => rfl

theorem htmlText_char_other (c : Char) {item : Item} (h : ∀ d, item ≠ .char d) (items : List Item) :
    htmlText (events (.char c :: item :: items)) = c :: ' ' :: htmlText (events (item :: items)) := by
  cases item with
  | char d => exact absurd rfl (h d)
  | start _ | end_ _ | empty _ | generalRef _ => rfl

/-- **The reader of HTML** separates at all other markup. -/
theorem marks_htmlText (items : List Item) :
    marks tables true (htmlText (events items)) = marked (itemLetter tables) (fun _ => true) true items ∧
      ∀ c rest, items = .char c :: rest → ∀ pending,
        marks tables pending (htmlText (events items)) = marked (itemLetter tables) (fun _ => true) pending items := by
  induction items with
  | nil => exact ⟨rfl, fun _ _ h => by cases h⟩
  | cons item items ih =>
    by_cases hchar : ∃ d, item = .char d
    · obtain ⟨d, rfl⟩ := hchar
      have hany : ∀ pending, marks tables pending (htmlText (events (.char d :: items))) =
          marked (itemLetter tables) (fun _ => true) pending (.char d :: items) := by
        intro pending
        -- the marks of the rest, after a letter and after anything else
        have hrest : ∀ pending',
            htmlText (events (.char d :: items)) = d :: (htmlText (events (.char d :: items))).tail ∧
            marks tables pending' (htmlText (events (.char d :: items))).tail =
              marked (itemLetter tables) (fun _ => true) pending' items := by
          intro pending'
          match items, ih with
          | [], _ => exact ⟨rfl, marks_other (tables.punctuation ' ' (by decide)) []⟩
          | .char e :: items, ih =>
            rw [htmlText_char_char]
            exact ⟨rfl, ih.2 e items rfl pending'⟩
          | .start _ :: items, ih | .end_ _ :: items, ih | .empty _ :: items, ih | .generalRef _ :: items, ih =>
            rw [htmlText_char_other _ (fun _ h => by cases h)]
            refine ⟨rfl, ?_⟩
            rw [List.tail_cons, marks_other (tables.punctuation ' ' (by decide)), ih.1, marked_other rfl,
              marked_other rfl, Bool.or_true, Bool.or_true]
        rw [(hrest true).1]
        cases hd : tables.isAlphanumeric d with
        | true =>
          rw [marks_letter hd, (hrest false).2,
            marked_letter (show itemLetter tables (.char d) = _ from charLetter_of hd)]
        | false =>
          rw [marks_other hd, (hrest true).2,
            marked_other (show itemLetter tables (.char d) = _ from charLetter_of_not hd), Bool.or_true]
      exact ⟨hany true, fun _ _ _ => hany⟩
    · have hother : ∀ d, item ≠ .char d := fun d h => hchar ⟨d, h⟩
      have hletter : itemLetter tables item = none := by
        cases item with
        | char d => exact absurd rfl (hother d)
        | start _ | end_ _ | empty _ | generalRef _ => rfl
      rw [htmlText_other hother, marked_other hletter]
      exact ⟨ih.1, fun c rest h => absurd (List.cons.inj h).1 (hother c)⟩

/-- What the reader of DOCX makes of markup. -/
def docxRead : Item → List Char
  | .char c => [c]
  | .end_ name => if endsParagraph name then [' '] else []
  | _ => []

theorem docxText_events (items : List Item) : docxText (events items) = items.flatMap docxRead := by
  induction items with
  | nil => rfl
  | cons item items ih =>
    rw [List.flatMap_cons, ← ih]
    cases item with
    | char c =>
      simp only [events]
      cases events items with
      | nil => rfl
      | cons event rest => cases event <;> rfl
    | start _ | end_ _ | empty _ | generalRef _ => rfl

end Readers

/-! ## What separates letters in each rendering -/

/-- The letters and digits of a document. -/
def atomLetter : Atom → Option Char
  | .char c => charLetter tables c
  | _ => none

/-- What is on the lines of the text, other than letters, or ends a line. -/
def Atom.separates : Atom → Bool
  | .char _ | .lineBreak | .paragraphEnd => true
  | _ => false

/-- An end of a run that HTML wraps. -/
def Atom.isWrapped : Atom → Bool
  | .runStart wrapper | .runEnd wrapper => wrapper.isSome
  | _ => false

/-- What the reader of DOCX sees of it. -/
def Atom.remains : Atom → Bool
  | .char c => (escaping.reference c).isNone
  | .paragraphEnd => true
  | _ => false

section Views

variable {tables} {escaping} {atom : Atom} {c : Char} {document : List Paragraph}

theorem charLetter_eq_some {d : Char} (h : charLetter tables c = some d) : tables.isAlphanumeric c = true ∧ d = c := by
  rw [charLetter] at h
  split at h
  · next hc => exact ⟨hc, (Option.some.inj h).symm⟩
  · cases h

/-- Letters and digits are not escaped. -/
theorem reference_eq_none (h : tables.isAlphanumeric c = true) : escaping.reference c = none := by
  cases hname : escaping.reference c with
  | none => rfl
  | some name =>
    have hmem := escaping.predefined c name hname
    have hpunctuation : c ∈ [' ', '\n', '&', '<', '>', '"', '\''] := by
      simp only [List.mem_cons, Prod.mk.injEq, List.not_mem_nil, or_false] at hmem ⊢
      tauto
    rw [tables.punctuation c hpunctuation] at h
    cases h

theorem marks_plainRendering (pending : Bool) : marks tables pending (plainRendering document) =
    marked (atomLetter tables) Atom.separates pending (documentAtoms document) := by
  refine marked_flatMap (fun atom d hletter => ?_) (fun atom hother => ?_) pending _
  · cases atom with
    | char c => exact ⟨c, rfl, hletter⟩
    | _ => cases hletter
  · have hbreak : charLetter tables '\n' = none := charLetter_of_not (tables.punctuation '\n' (by decide))
    cases atom with
    | char c => exact ⟨fun b hb => List.mem_singleton.mp hb ▸ hother, rfl⟩
    | lineBreak | paragraphEnd => exact ⟨fun b hb => List.mem_singleton.mp hb ▸ hbreak, rfl⟩
    | _ => exact ⟨fun b hb => absurd hb List.not_mem_nil, rfl⟩

theorem itemLetter_charItem : itemLetter tables (charItem escaping c) = charLetter tables c := by
  rw [charItem]
  cases hname : escaping.reference c with
  | none => rfl
  | some name =>
    cases hc : tables.isAlphanumeric c with
    | false => exact (charLetter_of_not hc).symm
    | true =>
      rw [reference_eq_none hc] at hname
      cases hname

theorem marked_htmlWrite (pending : Bool) (atoms : List Atom) :
    marked (itemLetter tables) (fun _ => true) pending (atoms.flatMap (htmlWrite escaping)) =
      marked (atomLetter tables) (fun atom => atom.separates || atom.isWrapped || atom = .paragraphStart) pending
        atoms := by
  refine marked_flatMap (fun atom d hletter => ?_) (fun atom hother => ?_) pending _
  · cases atom with
    | char c => exact ⟨charItem escaping c, rfl, itemLetter_charItem.trans hletter⟩
    | _ => cases hletter
  · cases atom with
    | char c => exact ⟨fun b hb => List.mem_singleton.mp hb ▸ itemLetter_charItem.trans hother, rfl⟩
    | lineBreak | paragraphEnd | paragraphStart => exact ⟨fun b hb => List.mem_singleton.mp hb ▸ rfl, rfl⟩
    | runStart wrapper | runEnd wrapper =>
      cases wrapper with
      | none => exact ⟨fun b hb => absurd hb List.not_mem_nil, rfl⟩
      | some name => exact ⟨fun b hb => List.mem_singleton.mp hb ▸ rfl, rfl⟩

theorem marked_docxWrite (pending : Bool) (atoms : List Atom) :
    marks tables pending (atoms.flatMap fun atom => (docxWrite escaping atom).flatMap docxRead) =
      marked (atomLetter tables) (Atom.remains escaping) pending atoms := by
  refine marked_flatMap (fun atom d hletter => ?_) (fun atom hother => ?_) pending _
  · cases atom with
    | char c =>
      have hread : (docxWrite escaping (.char c)).flatMap docxRead = [c] := by
        rw [docxWrite, charItem, reference_eq_none (charLetter_eq_some hletter).1]
        rfl
      exact ⟨c, hread, hletter⟩
    | _ => cases hletter
  · have hblank : charLetter tables ' ' = none := charLetter_of_not (tables.punctuation ' ' (by decide))
    cases atom with
    | char c =>
      have hwrite : docxWrite escaping (.char c) = [charItem escaping c] := rfl
      have hremains : Atom.remains escaping (.char c) = (escaping.reference c).isNone := rfl
      rw [hwrite, hremains]
      unfold charItem
      cases escaping.reference c with
      | none => exact ⟨fun b hb => List.mem_singleton.mp hb ▸ hother, rfl⟩
      | some name => exact ⟨fun b hb => absurd hb List.not_mem_nil, rfl⟩
    | paragraphEnd => exact ⟨fun b hb => List.mem_singleton.mp hb ▸ hblank, rfl⟩
    | _ => exact ⟨fun b hb => absurd hb List.not_mem_nil, rfl⟩

theorem marked_paragraphStart (separates : Atom → Bool) (hend : separates .paragraphEnd = true)
    (document : List Paragraph) :
    marked (atomLetter tables) (fun atom => separates atom || atom = .paragraphStart) true (documentAtoms document) =
      marked (atomLetter tables) separates true (documentAtoms document) := by
  induction document with
  | nil => rfl
  | cons paragraph document ih =>
    have hinside : ∀ atom ∈ paragraph.flatMap Piece.atoms,
        (separates atom || decide (atom = .paragraphStart)) = separates atom := by
      intro atom hatom
      obtain ⟨piece, -, hpiece⟩ := List.mem_flatMap.mp hatom
      have hne : atom ≠ .paragraphStart := by
        rintro rfl
        cases piece <;> simp [Piece.atoms] at hpiece
      rw [decide_eq_false hne, Bool.or_false]
    have hatoms : documentAtoms (paragraph :: document) = .paragraphStart ::
        (paragraph.flatMap Piece.atoms ++ .paragraphEnd :: documentAtoms document) := by
      simp [documentAtoms, paragraphAtoms]
    rw [hatoms, marked_other rfl, marked_other rfl, Bool.true_or, Bool.true_or,
      marked_append_separator rfl (by simp [hend]), marked_append_separator rfl hend, marked_congr hinside, ih]

theorem plainTokens_eq : plainTokens tables document = spelled ' ' tables.toLowercase
    (marked (atomLetter tables) Atom.separates false (documentAtoms document)) := by
  rw [plainTokens, normalizedTokens_eq, marks_plainRendering]

theorem htmlTokens_eq : htmlTokens tables escaping document = spelled ' ' tables.toLowercase
    (marked (atomLetter tables) (fun atom => atom.separates || atom.isWrapped) false (documentAtoms document)) := by
  have hopen : ∀ item ∈ [Item.start "html", .start "body"], itemLetter tables item = none := by simp [itemLetter]
  have hclose : ∀ item ∈ [Item.end_ "body", .end_ "html"], itemLetter tables item = none := by simp [itemLetter]
  rw [htmlTokens, normalizedTokens_eq, marks, spelled_marked_pending _ _ false true]
  have hmarks : marked (charLetter tables) (fun _ => true) true (htmlText (events (htmlRendering escaping document))) =
      marked (itemLetter tables) (fun _ => true) true (htmlRendering escaping document) := (marks_htmlText _).1
  rw [hmarks, htmlRendering, marked_append_trailing hclose, marked_append_others hopen, Bool.true_or, marked_htmlWrite,
    marked_paragraphStart _ rfl, spelled_marked_pending _ _ true false]

theorem docxTokens_eq : docxTokens tables escaping document = spelled ' ' tables.toLowercase
    (marked (atomLetter tables) (Atom.remains escaping) false (documentAtoms document)) := by
  have hopen : [Item.start "w:document", .start "w:body"].flatMap docxRead = [] := by decide
  have hclose : [Item.end_ "w:body", .end_ "w:document"].flatMap docxRead = [] := by decide
  rw [docxTokens, normalizedTokens_eq, docxText_events, docxRendering, List.flatMap_append, List.flatMap_append,
    hopen, hclose, List.nil_append, List.append_nil, List.flatMap_assoc, marked_docxWrite]

theorem remains_le_separates (h : atom.remains escaping = true) : atom.separates = true := by
  cases atom <;> first | rfl | cases h

end Views

/-! ## When the tokens agree -/

/-- What stands between two consecutive letters or digits of a document. -/
def innerGaps (document : List Paragraph) : List (List Atom) :=
  (gaps (atomLetter tables) [] (documentAtoms document)).tail.map Prod.fst

/-- The readers separate the letters on both sides where the text does. -/
structure KeepsGap (gap : List Atom) : Prop where
  /-- A wrapped run does not begin or end inside a word. -/
  inside : gap.any Atom.isWrapped → gap.any Atom.separates
  /-- A line break or an escaped character is not all that separates two words. -/
  between : gap.any Atom.separates → gap.any (Atom.remains escaping)

section Agreement

variable {tables} {escaping} {document : List Paragraph}

theorem letters_spelled : ∀ atom ∈ documentAtoms document, ∀ c, atomLetter tables atom = some c →
    tables.toLowercase c ≠ [] ∧ ' ' ∉ tables.toLowercase c := by
  intro atom _ c hletter
  cases atom with
  | char d =>
    obtain ⟨halphanumeric, rfl⟩ := charLetter_eq_some hletter
    exact ⟨tables.toLowercase_ne_nil _ halphanumeric, tables.blank_notMem _ halphanumeric⟩
  | _ => cases hletter

theorem any_or (p q : Atom → Bool) (gap : List Atom) :
    (gap.any fun atom => p atom || q atom) = (gap.any p || gap.any q) := by
  induction gap with
  | nil => rfl
  | cons atom gap ih =>
    simp only [List.any_cons, ih]
    ac_rfl

theorem htmlTokens_eq_iff : htmlTokens tables escaping document = plainTokens tables document ↔
    ∀ gap ∈ innerGaps tables document, gap.any Atom.isWrapped → gap.any Atom.separates := by
  rw [htmlTokens_eq, plainTokens_eq, spelled_marked_eq_iff _ _ _ (fun a ha c h => (letters_spelled a ha c h).1)
    (fun a ha c h => (letters_spelled a ha c h).2)]
  apply forall₂_congr
  intro gap _
  rw [any_or]
  cases gap.any Atom.separates <;> cases gap.any Atom.isWrapped <;> simp

theorem docxTokens_eq_iff : docxTokens tables escaping document = plainTokens tables document ↔
    ∀ gap ∈ innerGaps tables document, gap.any Atom.separates → gap.any (Atom.remains escaping) := by
  rw [docxTokens_eq, plainTokens_eq, spelled_marked_eq_iff _ _ _ (fun a ha c h => (letters_spelled a ha c h).1)
    (fun a ha c h => (letters_spelled a ha c h).2)]
  apply forall₂_congr
  intro gap _
  have hle : gap.any (Atom.remains escaping) → gap.any Atom.separates := by
    intro h
    obtain ⟨atom, hatom, hremains⟩ := List.any_eq_true.mp h
    exact List.any_eq_true.mpr ⟨atom, hatom, remains_le_separates hremains⟩
  rw [Bool.eq_iff_iff]
  exact ⟨fun h => h.2, fun h => ⟨hle, h⟩⟩

end Agreement

/-- `semantic_token_digest` of `properties_for_text` (lines 1000–1012). -/
def semanticTokenDigest (blake3 : List Char → String) (tokens : List Char) : String := "blake3:" ++ blake3 tokens

/-- `DOCX_SEMANTIC_TOKEN_DIGEST` of `validate_docx_output` (lines 576–582). -/
def digestCheck (expected observed : String) : ValidationStatus := if expected = observed then .pass else .fail

/-- The three renderings of a document have the same tokens, so that the check passes for a DOCX package with
    the text of the input. -/
structure SameTokens (document : List Paragraph) : Prop where
  html : htmlTokens tables escaping document = plainTokens tables document
  docx : docxTokens tables escaping document = plainTokens tables document
  fromPlain : ∀ blake3, digestCheck (semanticTokenDigest blake3 (plainTokens tables document))
    (semanticTokenDigest blake3 (docxTokens tables escaping document)) = .pass
  fromHtml : ∀ blake3, digestCheck (semanticTokenDigest blake3 (htmlTokens tables escaping document))
    (semanticTokenDigest blake3 (docxTokens tables escaping document)) = .pass

/-- **When the renderings of a document have the same tokens.** -/
theorem same_tokens_iff (document : List Paragraph) :
    SameTokens tables escaping document ↔ ∀ gap ∈ innerGaps tables document, KeepsGap escaping gap := by
  constructor
  · intro h gap hgap
    exact ⟨htmlTokens_eq_iff.mp h.html gap hgap, docxTokens_eq_iff.mp h.docx gap hgap⟩
  · intro h
    have hhtml : htmlTokens tables escaping document = plainTokens tables document :=
      htmlTokens_eq_iff.mpr fun gap hgap => (h gap hgap).inside
    have hdocx : docxTokens tables escaping document = plainTokens tables document :=
      docxTokens_eq_iff.mpr fun gap hgap => (h gap hgap).between
    refine ⟨hhtml, hdocx, fun blake3 => ?_, fun blake3 => ?_⟩
    · rw [hdocx, digestCheck, if_pos rfl]
    · rw [hdocx, hhtml, digestCheck, if_pos rfl]

namespace RenderingSample

def asciiLower (c : Char) : Char := if c.isUpper then Char.ofNat (c.toNat + 32) else c

theorem asciiLower_ne_blank {c : Char} (h : c.isAlphanum = true) : asciiLower c ≠ ' ' := by
  intro heq
  unfold asciiLower at heq
  split at heq
  · next hupper =>
    simp only [Char.isUpper, decide_eq_true_eq] at hupper
    obtain ⟨hlower, hle⟩ : 65 ≤ c.toNat ∧ c.toNat ≤ 90 := hupper
    have hvalid : (c.toNat + 32).isValidChar := by
      left
      omega
    rw [Char.ofNat, dif_pos hvalid] at heq
    have hnat : c.toNat + 32 = 32 := congrArg Char.toNat heq
    omega
  · rw [heq] at h
    exact absurd h (by decide)

/-- The tables on ASCII. -/
def ascii : TextTables where
  isAlphanumeric := Char.isAlphanum
  toLowercase c := [asciiLower c]
  toLowercase_ne_nil _ _ := List.cons_ne_nil _ _
  blank_notMem c h hmem := asciiLower_ne_blank h (List.mem_singleton.mp hmem).symm
  punctuation := List.forall_iff_forall_mem.mp (by decide)

/-- The references that have to be written. -/
def requiredReference : Char → Option String
  | '&' => some "amp"
  | '<' => some "lt"
  | _ => none

def required : Escaping where
  reference := requiredReference
  predefined c name h := by
    unfold requiredReference at h
    split at h <;> simp_all
  required := by decide

/-- A word of which the first half is bold. -/
def halfBold : List Paragraph := [[.run ['w', 'o'] (some "b"), .run ['r', 'd'] none]]

/-- Two words on two lines. -/
def twoLines : List Paragraph := [[.run ['o', 'n', 'e'] none, .lineBreak, .run ['t', 'w', 'o'] none]]

/-- HTML gives two words for a word that is half bold, and DOCX one word for two lines. -/
theorem tokens_differ : ¬SameTokens ascii required halfBold ∧ ¬SameTokens ascii required twoLines := by
  constructor
  · intro h
    exact absurd h.html (by decide)
  · intro h
    exact absurd h.docx (by decide)

end RenderingSample

end Anole.TokenDigest
