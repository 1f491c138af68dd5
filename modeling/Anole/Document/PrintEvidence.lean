import Anole.Common.Binary64
import Anole.Document.TokenDigest
import Anole.Planning.PdfUpdate

/-!
# The evidence on a browser print

Model of the font table and the extracted text of a printed PDF, and of the checks on them
(`crates/core/src/edge_pdf.rs`, lines 187–428 and 514–518).

Results:
* `parse_table`: what is read of a table of `pdffonts`, line by line.
* `textFidelity_pass_iff`: the ratio in `f64` says whether half of the characters are there.
* `evidence_judged_iff`: when the two checks judge all fonts and the whole text.

**Deviation.** Only the last 64 KiB of what an engine writes are kept, which may begin in the middle of
the table or of the text. The embedding of a font is the fifth word from the right, which it is not in a
row with `[none]` for the object, and rows of fewer than eight words or with a `-` in front are skipped.
-/

open Common Anole.Common

namespace Anole.EdgePdf

open Anole.Media (ValidationCheck aggregateStatus worst)
open Anole.Planning (splitWhitespace u64Max)
open Anole.TokenDigest

/-! ## Bounded output -/

/-- `MAX_BYTES` of `bounded_utf8`. -/
def maxBytes : ℕ := 64 * 1024

/-- `bounded_utf8` (lines 514–518): the last bytes, as far as they are UTF-8. -/
def boundedUtf8 (bytes : List UInt8) : List Char := fromUtf8Lossy (bytes.drop (bytes.length - maxBytes))

/-! ## The font table -/

/-- `FontEmbeddingSummary` (lines 382–387). -/
structure FontEmbeddingSummary where
  fontCount : ℕ
  embeddedCount : ℕ
  unembedded : List (List Char)

/-- The body of the loop of `parse_pdffonts_table` (lines 396–412). -/
def addFontLine (summary : FontEmbeddingSummary) (line : List Char) : FontEmbeddingSummary :=
  if line.head? = some '-' then summary
  else
    let tokens := splitWhitespace line
    if tokens.length < 8 then summary
    else
      match tokens.reverse[4]? with
      | none => summary
      | some embedded =>
        if embedded.map Char.toLower = "yes".toList then
          { summary with fontCount := summary.fontCount + 1, embeddedCount := summary.embeddedCount + 1 }
        else
          { summary with
            fontCount := summary.fontCount + 1
            unembedded := summary.unembedded ++ [tokens.headD []] }

/-- `parse_pdffonts_table` (lines 394–414). -/
def parsePdffontsTable (stdout : List Char) : FontEmbeddingSummary :=
  ((textLines stdout).drop 2).foldl addFontLine ⟨0, 0, []⟩

/-! ## The checks -/

/-- `text_fidelity` (lines 416–424). -/
def textFidelity (inputCharacters extractedCharacters : ℕ) : ℚ :=
  if inputCharacters = 0 then 1
  else min (max (round53 (round53 extractedCharacters / round53 inputCharacters)) 0) 1

/-- `check` (lines 447–464). -/
def check (code : String) (status : ValidationStatus) (required : Bool) (expected observed : Json) (message : String) :
    ValidationCheck :=
  ⟨code, status, required, expected, observed, "Independent Poppler validators over the staged browser-printed PDF",
    message⟩

/-- `status` (lines 439–445). -/
def status (value : Bool) : ValidationStatus := if value then .pass else .fail

/-- `EDGE_PDF_FONTS_EMBEDDED` (lines 265–287). -/
def fontsEmbedded (fonts : FontEmbeddingSummary) : ValidationCheck :=
  check "EDGE_PDF_FONTS_EMBEDDED" (status fonts.unembedded.isEmpty) true
    (.string (if fonts.fontCount = 0 then "no fonts declared (pure vector graphics) or all fonts embedded"
      else "every declared font embedded"))
    (.string (s!"{fonts.embeddedCount}/{fonts.fontCount} embedded" ++ if fonts.unembedded.isEmpty then ""
      else "; missing: " ++ String.ofList (List.intercalate ", ".toList fonts.unembedded)))
    "pdffonts reported the embedding state of every declared font."

/-- `EDGE_PDF_TEXT_FIDELITY` (lines 288–299); `showRatio` writes a ratio with two decimals. -/
def textFidelityCheck (showRatio : ℚ → String) (inputCharacters extractedCharacters : ℕ) : ValidationCheck :=
  let fidelity := textFidelity inputCharacters extractedCharacters
  check "EDGE_PDF_TEXT_FIDELITY" (if ¬0 < inputCharacters ∨ 1 / 2 ≤ fidelity then .pass else .warning) false
    (.string "extracted characters preserve at least half of the input text") (.string (showRatio fidelity))
    "Non-required heuristic ratio; extraction loses hyphenation, ligatures, and layout."

/-- A page of the output, with the size that `pdfinfo` reports. -/
structure PdfPage where
  widthPoints : Option ℚ
  heightPoints : Option ℚ

/-- What `validate_edge_pdf_output` reads: the output, the characters of the input, and the evidence. -/
structure PrintRun where
  formatId : String
  pages : List PdfPage
  inputCharacters : ℕ
  renderedPageCount : ℕ
  extractedText : List Char
  fontTable : List Char

/-- `validate_edge_pdf_output` (lines 187–329): the status and the checks. -/
def validateEdgePdfOutput (tables : TextTables) (showRatio : ℚ → String) (run : PrintRun) :
    ValidationStatus × List ValidationCheck :=
  let pageCount := run.pages.length
  let pageSizesValid := run.pages.all fun page => page.widthPoints.any (0 < ·) && page.heightPoints.any (0 < ·)
  let extractedCharacters := min (normalizedTokens tables run.extractedText).length u64Max
  let textExpected : Bool := 0 < run.inputCharacters
  let checks := [
    check "EDGE_PDF_OPENS" (status (run.formatId = "pdf")) true (.string "pdf") (.string run.formatId)
      "pdfinfo independently opened the staged output.",
    check "EDGE_PDF_PAGE_COUNT" (status (0 < pageCount)) true (.string ">=1") (.natural pageCount)
      "Ordered page streams reported by pdfinfo.",
    check "EDGE_PDF_PAGE_SIZES" (status pageSizesValid) true (.string "positive point dimensions for every page")
      (.bool pageSizesValid) "Per-page PDF size metadata.",
    check "EDGE_PDF_ALL_PAGES_RENDER" (status (run.renderedPageCount = pageCount ∧ 0 < pageCount)) true
      (.natural pageCount) (.natural run.renderedPageCount)
      "pdftoppm rendered every page and native PNG decoding opened each render.",
    check "EDGE_PDF_TEXT_EXTRACTABLE" (status (!textExpected || 0 < extractedCharacters)) true
      (.string (if textExpected then ">0 extractable characters"
        else "input declares no text; nothing to extract")) (.natural extractedCharacters)
      "pdftotext independently extracted a text layer from the printed PDF.",
    fontsEmbedded (parsePdffontsTable run.fontTable),
    textFidelityCheck showRatio run.inputCharacters extractedCharacters]
  let hardStatus := aggregateStatus checks
  (if hardStatus = .pass then checks.foldl (fun state check => worst state check.status) .pass else hardStatus, checks)

/-! ## The table of `pdffonts` -/

/-- The types of fonts that Poppler names. -/
inductive FontType where
  | unknown | type1 | type1C | type1COT | type3 | trueType | trueTypeOT
  | cidType0 | cidType0C | cidType0COT | cidTrueType | cidTrueTypeOT

def FontType.name : FontType → String
  | unknown => "unknown"
  | type1 => "Type 1"
  | type1C => "Type 1C"
  | type1COT => "Type 1C (OT)"
  | type3 => "Type 3"
  | trueType => "TrueType"
  | trueTypeOT => "TrueType (OT)"
  | cidType0 => "CID Type 0"
  | cidType0C => "CID Type 0C"
  | cidType0COT => "CID Type 0C (OT)"
  | cidTrueType => "CID TrueType"
  | cidTrueTypeOT => "CID TrueType (OT)"

/-- ASCII text. -/
def ascii (text : String) : List UInt8 := text.toList.map fun c => UInt8.ofNat c.toNat

/-- A number in decimal. -/
structure Digits where
  digits : List UInt8
  nonempty : digits ≠ []
  isDigit : ∀ b ∈ digits, 48 ≤ b.toNat ∧ b.toNat ≤ 57

/-- A font of a PDF; `object` is its object number and generation. -/
structure Font where
  name : List UInt8
  type : FontType
  encoding : List UInt8
  embedded : Bool
  subset : Bool
  unicode : Bool
  object : Option (Digits × Digits)
  name_line : 10 ∉ name
  encoding_line : 10 ∉ encoding

/-- A column of at least `width` bytes. -/
def padRight (width : ℕ) (bytes : List UInt8) : List UInt8 := bytes ++ List.replicate (width - bytes.length) 32

def padLeft (width : ℕ) (bytes : List UInt8) : List UInt8 := List.replicate (width - bytes.length) 32 ++ bytes

def yesNo (value : Bool) : List UInt8 := ascii (if value then "yes" else "no")

/-- The last columns of a row. -/
def Font.objectColumns (font : Font) : List UInt8 :=
  match font.object with
  | some (number, generation) => padLeft 6 number.digits ++ 32 :: padLeft 2 generation.digits
  | none => ascii "[none]"

/-- A row of the table, `name type encoding emb sub uni object ID`. -/
def Font.row (font : Font) : List UInt8 :=
  padRight 36 font.name ++ 32 :: (padRight 17 (ascii font.type.name) ++ 32 :: (padRight 16 font.encoding ++
    32 :: (padRight 3 (yesNo font.embedded) ++ 32 :: (padRight 3 (yesNo font.subset) ++
      32 :: (padRight 3 (yesNo font.unicode) ++ 32 :: font.objectColumns)))))

def headerLine : List UInt8 := ascii
  "name                                 type              encoding         emb sub uni object ID"

def ruleLine : List UInt8 := ascii
  "------------------------------------ ----------------- ---------------- --- --- --- ---------"

/-- Lines, each with its end. -/
def flat (lines : List (List UInt8)) : List UInt8 := (lines.map (· ++ [10])).flatten

/-- What `pdffonts` writes. -/
def fontTable (fonts : List Font) : List UInt8 := flat (headerLine :: ruleLine :: fonts.map Font.row)

/-! ## Words of a row -/

/-- The words of bytes. -/
def words (bytes : List UInt8) : List (List Char) := splitWhitespace (fromUtf8Lossy bytes)

section Words

variable {a b : List UInt8} {text : List Char}

theorem splitWhitespace_append (a b : List Char) {c : Char} (hc : isWhitespace c = true) :
    splitWhitespace (a ++ c :: b) = splitWhitespace a ++ splitWhitespace b := by
  unfold splitWhitespace
  rw [List.splitOnP_append_cons _ _ hc, List.filter_append]

theorem words_append (a b : List UInt8) : words (a ++ 32 :: b) = words a ++ words b := by
  unfold words
  rw [fromUtf8Lossy_append_ascii (by decide)]
  exact splitWhitespace_append _ _ (by decide)

theorem words_replicate (n : ℕ) : words (List.replicate n 32) = [] := by
  induction n with
  | zero => rfl
  | succ n ih =>
    rw [List.replicate_succ]
    exact (words_append [] _).trans ih

@[simp] theorem words_padRight (width : ℕ) (a : List UInt8) : words (padRight width a) = words a := by
  unfold padRight
  cases width - a.length with
  | zero => rw [List.replicate_zero, List.append_nil]
  | succ n => rw [List.replicate_succ, words_append, words_replicate, List.append_nil]

@[simp] theorem words_padLeft (width : ℕ) (a : List UInt8) : words (padLeft width a) = words a := by
  unfold padLeft
  induction width - a.length with
  | zero => rw [List.replicate_zero, List.nil_append]
  | succ n ih =>
    rw [List.replicate_succ]
    exact (words_append [] _).trans ih

/-- The text of ASCII bytes. -/
def asciiChars (a : List UInt8) : List Char := a.map fun b => Char.ofNat b.toNat

theorem fromUtf8Lossy_ascii (h : ∀ b ∈ a, b.toNat < 0x80) : fromUtf8Lossy a = asciiChars a := by
  have happend : fromUtf8Lossy (a ++ []) = asciiChars a ++ fromUtf8Lossy [] := fromUtf8Lossy_ascii_append h
  rw [List.append_nil] at happend
  exact happend.trans (List.append_nil _)

theorem splitWhitespace_single (hne : text ≠ []) (h : ∀ c ∈ text, isWhitespace c = false) :
    splitWhitespace text = [text] := by
  unfold splitWhitespace
  rw [List.splitOnP_eq_singleton h, List.filter_cons_of_pos (by simpa using hne), List.filter_nil]

theorem Digits.words_eq (number : Digits) : words number.digits = [asciiChars number.digits] := by
  unfold words
  rw [fromUtf8Lossy_ascii fun b hb => (number.isDigit b hb).2.trans_lt (by decide)]
  apply splitWhitespace_single
  · unfold asciiChars
    rw [ne_eq, List.map_eq_nil_iff]
    exact number.nonempty
  · intro c hc
    obtain ⟨b, hb, rfl⟩ := List.mem_map.mp hc
    obtain ⟨hlow, hhigh⟩ := number.isDigit b hb
    have hdigit : ∀ n < 58, 48 ≤ n → isWhitespace (Char.ofNat n) = false := by decide
    exact hdigit _ (by omega) hlow

theorem words_yesNo (value : Bool) : words (yesNo value) = [(if value then "yes" else "no").toList] := by
  cases value <;> decide

theorem words_none : words (ascii "[none]") = ["[none]".toList] := by decide

end Words

/-- The words in front of `emb`. -/
def Font.front (font : Font) : List (List Char) :=
  words font.name ++ words (ascii font.type.name) ++ words font.encoding

/-- The words behind `uni`. -/
def Font.objectWords (font : Font) : List (List Char) :=
  match font.object with
  | some (number, generation) => [asciiChars number.digits, asciiChars generation.digits]
  | none => ["[none]".toList]

theorem words_objectColumns (font : Font) : words font.objectColumns = font.objectWords := by
  unfold Font.objectColumns Font.objectWords
  cases font.object with
  | none => exact words_none
  | some pair => rw [words_append, words_padLeft, words_padLeft, pair.1.words_eq, pair.2.words_eq]; rfl

/-- **The words of a row.** -/
theorem words_row (font : Font) : words font.row = font.front ++
    ([(if font.embedded then "yes" else "no").toList, (if font.subset then "yes" else "no").toList,
      (if font.unicode then "yes" else "no").toList] ++ font.objectWords) := by
  unfold Font.row Font.front
  simp only [words_append, words_padRight, words_yesNo, words_objectColumns, List.append_assoc]
  rfl

/-! ## Lines of a table -/

section Lines

variable {line : List UInt8} {table : List (List UInt8)} {n : ℕ}

@[simp] theorem flat_cons (line : List UInt8) (table : List (List UInt8)) :
    flat (line :: table) = line ++ 10 :: flat table := by
  simp [flat]

/-- Lines are read one by one. -/
theorem fromUtf8Lossy_flat (table : List (List UInt8)) :
    fromUtf8Lossy (flat table) = ((table.map fromUtf8Lossy).map (· ++ ['\n'])).flatten := by
  induction table with
  | nil => rfl
  | cons line table ih =>
    rw [flat_cons, fromUtf8Lossy_append_ascii (by decide), ih]
    simp

theorem lines_flat (h : ∀ line ∈ table, 10 ∉ line) :
    textLines (fromUtf8Lossy (flat table)) = table.map fun line => stripEnding (fromUtf8Lossy line ++ ['\n']) := by
  unfold textLines
  rw [fromUtf8Lossy_flat, splitInclusive_lines, List.map_map, List.map_map]
  · rfl
  · intro line hline
    obtain ⟨bytes, hbytes, rfl⟩ := List.mem_map.mp hline
    exact newline_notMem_fromUtf8Lossy (h bytes hbytes)

/-- A cut within the first line. -/
theorem drop_flat_first (h : n ≤ line.length) : (flat (line :: table)).drop n = flat (line.drop n :: table) := by
  rw [flat_cons, flat_cons, List.drop_append_of_le_length h]

/-- A cut behind the first line. -/
theorem drop_flat_rest (h : line.length < n) :
    (flat (line :: table)).drop n = (flat table).drop (n - line.length - 1) := by
  obtain ⟨m, rfl⟩ : ∃ m, n = line.length + (m + 1) := ⟨n - line.length - 1, by omega⟩
  rw [flat_cons, List.drop_append, List.drop_eq_nil_of_le (by omega)]
  have hbehind : line.length + (m + 1) - line.length = m + 1 := by omega
  have hm : line.length + (m + 1) - line.length - 1 = m := by omega
  rw [hm, hbehind, List.drop_succ_cons, List.nil_append]

/-- What is left behind a cut are lines, and not more of them. -/
theorem drop_flat (n : ℕ) (h : ∀ line ∈ table, 10 ∉ line) :
    ∃ rest, (flat table).drop n = flat rest ∧ rest.length ≤ table.length ∧ ∀ line ∈ rest, 10 ∉ line := by
  induction table generalizing n with
  | nil => exact ⟨[], List.drop_nil, Nat.le_refl _, h⟩
  | cons line table ih =>
    obtain ⟨hline, htable⟩ := List.forall_mem_cons.mp h
    rcases Nat.lt_or_ge line.length n with hbehind | hwithin
    · obtain ⟨rest, hrest, hlength, hlines⟩ := ih (n - line.length - 1) htable
      exact ⟨rest, (drop_flat_rest hbehind).trans hrest, hlength.trans (Nat.le_succ _), hlines⟩
    · refine ⟨line.drop n :: table, drop_flat_first hwithin, Nat.le_refl _, ?_⟩
      exact List.forall_mem_cons.mpr ⟨fun hmem => hline (List.mem_of_mem_drop hmem), htable⟩

end Lines

/-! ## Reading the table -/

/-- What a line says of a font, if it is read as a row: its name, and whether it is embedded. -/
def fontRow (line : List Char) : Option (List Char × Bool) :=
  if line.head? = some '-' then none
  else if (splitWhitespace line).length < 8 then none
  else (splitWhitespace line).reverse[4]?.map fun embedded =>
    ((splitWhitespace line).headD [], embedded.map Char.toLower = "yes".toList)

theorem addFontLine_eq (summary : FontEmbeddingSummary) (line : List Char) :
    (addFontLine summary line).fontCount = summary.fontCount + (fontRow line).toList.length ∧
      (addFontLine summary line).unembedded =
        summary.unembedded ++ ((fontRow line).toList.filter fun row => !row.2).map Prod.fst := by
  unfold addFontLine fontRow
  dsimp only
  split_ifs with hdash hshort
  · simp
  · simp
  · cases (splitWhitespace line).reverse[4]? with
    | none => simp
    | some embedded =>
      by_cases hyes : embedded.map Char.toLower = "yes".toList
      · simp [hyes]
      · simp only [hyes, if_false, Option.map_some, Option.toList_some, List.length_singleton]
        simp

/-- **What is read of a table**, line by line. -/
theorem parse_table (summary : FontEmbeddingSummary) (text : List (List Char)) :
    (text.foldl addFontLine summary).fontCount = summary.fontCount + (text.filterMap fontRow).length ∧
      (text.foldl addFontLine summary).unembedded =
        summary.unembedded ++ ((text.filterMap fontRow).filter fun row => !row.2).map Prod.fst := by
  induction text generalizing summary with
  | nil => simp
  | cons line text ih =>
    obtain ⟨hcount, hunembedded⟩ := addFontLine_eq summary line
    rw [List.foldl_cons, (ih _).1, (ih _).2, hcount, hunembedded]
    cases hrow : fontRow line with
    | none => simp [hrow]
    | some row => cases hembedded : row.2 <;> simp [hrow, hembedded] <;> omega

/-! ## Rows -/

/-- A row is read: it has no `-` in front and at least eight words. -/
def Font.IsRead (font : Font) : Prop :=
  font.name.head? ≠ some 45 ∧ 8 ≤ font.front.length + (3 + font.objectWords.length)

instance (font : Font) : Decidable font.IsRead := inferInstanceAs (Decidable (_ ∧ _))

/-- What is read as its embedding: with `[none]` for the object, the word in front of `emb`. -/
def Font.readEmbedded (font : Font) : Bool :=
  match font.object with
  | some _ => font.embedded
  | none => font.front.getLast?.any fun word => word.map Char.toLower = "yes".toList

section Rows

variable (font : Font)

theorem head_fromUtf8Lossy (bytes : List UInt8) :
    (fromUtf8Lossy bytes).head? = some '-' ↔ bytes.head? = some 45 := by
  cases bytes with
  | nil => decide
  | cons b bytes =>
    have hcons : (fromUtf8Lossy (b :: bytes)).head? = some (lossyStep b.toNat (bytes.map UInt8.toNat)).1 := by
      unfold fromUtf8Lossy
      rw [List.map_cons, lossyFrom, List.head?_cons]
    rw [hcons, List.head?_cons, Option.some_inj, Option.some_inj]
    rcases Nat.lt_or_ge b.toNat 0x80 with hsmall | hlarge
    · have hstep : lossyStep b.toNat (bytes.map UInt8.toNat) = (Char.ofNat b.toNat, 0) := if_pos hsmall
      have hascii : ∀ n < 0x80, Char.ofNat n = '-' ↔ n = 45 := by decide
      rw [hstep, hascii _ hsmall, ← UInt8.toNat_inj]
      rfl
    · refine iff_of_false (lossyStep_char _ _ hlarge (by decide) (by decide)) ?_
      rintro rfl
      exact absurd hlarge (by decide)

theorem head_row : font.row.head? = some 45 ↔ font.name.head? = some 45 := by
  unfold Font.row padRight
  cases font.name with
  | nil => exact iff_of_false (by simp [List.replicate_succ]) (by simp)
  | cons b name => rfl

theorem front_ne_nil : font.front ≠ [] := by
  have htype : ∀ type : FontType, words (ascii type.name) ≠ [] := by
    intro type
    cases type <;> decide
  unfold Font.front
  simp [htype font.type]

theorem fifth_word : ∃ word, (words font.row).reverse[4]? = some word ∧
    (decide (word.map Char.toLower = "yes".toList)) = font.readEmbedded := by
  rw [words_row]
  unfold Font.readEmbedded Font.objectWords
  cases font.object with
  | some pair =>
    refine ⟨(if font.embedded then "yes" else "no").toList, by simp, ?_⟩
    have hyes : ∀ value : Bool,
        decide ((if value then "yes" else "no").toList.map Char.toLower = "yes".toList) = value := by decide
    exact hyes _
  | none =>
    obtain ⟨word, hword⟩ := Option.isSome_iff_exists.mp (List.getLast?_isSome.mpr (front_ne_nil font))
    rw [List.getLast?_eq_head?_reverse] at hword
    refine ⟨word, by simpa [List.head?_eq_getElem?] using hword, ?_⟩
    show _ = font.front.getLast?.any _
    rw [← List.getLast?_eq_head?_reverse] at hword
    rw [hword]
    rfl

/-- **What is read of a row.** -/
theorem fontRow_row : (fontRow (fromUtf8Lossy font.row)).map Prod.snd =
    if font.IsRead then some font.readEmbedded else none := by
  obtain ⟨word, hword, hread⟩ := fifth_word font
  have hlength : (words font.row).length = font.front.length + (3 + font.objectWords.length) := by
    rw [words_row, List.length_append, List.length_append]
    rfl
  have hdash : (fromUtf8Lossy font.row).head? = some '-' ↔ font.name.head? = some 45 :=
    (head_fromUtf8Lossy font.row).trans (head_row font)
  unfold words at hlength hword
  unfold fontRow
  by_cases hrow : font.IsRead
  · rw [if_pos hrow, if_neg (mt hdash.mp hrow.1), hlength, if_neg (not_lt.mpr hrow.2), hword]
    simp only [Option.map_some, hread]
  · rw [if_neg hrow]
    split_ifs with hfirst hshort
    · rfl
    · rfl
    · rw [hlength, not_lt] at hshort
      exact absurd ⟨mt hdash.mpr hfirst, hshort⟩ hrow

/-- The last columns are ASCII, without line breaks. -/
theorem objectColumns_ascii :
    font.objectColumns ≠ [] ∧ ∀ b ∈ font.objectColumns, b.toNat < 0x80 ∧ b ≠ 10 ∧ b ≠ 13 := by
  unfold Font.objectColumns
  cases font.object with
  | none => exact ⟨by decide, List.forall_iff_forall_mem.mp (by decide)⟩
  | some pair =>
    refine ⟨by simp, fun b hb => ?_⟩
    have hcases : b = 32 ∨ b ∈ pair.1.digits ∨ b ∈ pair.2.digits := by
      simp only [padLeft, List.mem_append, List.mem_cons, List.mem_replicate] at hb
      tauto
    have hdigit : ∀ number : Digits, b ∈ number.digits → b.toNat < 0x80 ∧ b ≠ 10 ∧ b ≠ 13 := by
      intro number hmem
      obtain ⟨hlow, hhigh⟩ := number.isDigit b hmem
      refine ⟨by omega, ?_, ?_⟩
      · rintro rfl
        exact absurd hlow (by decide)
      · rintro rfl
        exact absurd hlow (by decide)
    rcases hcases with rfl | hnumber | hgeneration
    · decide
    · exact hdigit _ hnumber
    · exact hdigit _ hgeneration

theorem newline_notMem_row : 10 ∉ font.row := by
  have hpad : ∀ width (bytes : List UInt8), 10 ∉ bytes → 10 ∉ padRight width bytes := by
    intro width bytes h hmem
    rcases List.mem_append.mp hmem with hbytes | hspace
    · exact h hbytes
    · exact absurd (List.mem_replicate.mp hspace).2 (by decide)
  have htype : ∀ type : FontType, 10 ∉ ascii type.name := by
    intro type
    cases type <;> decide
  have hyesNo : ∀ value, 10 ∉ yesNo value := by decide
  have hobject : 10 ∉ font.objectColumns := fun h => ((objectColumns_ascii font).2 10 h).2.1 rfl
  have hspace : (10 : UInt8) ≠ 32 := by decide
  unfold Font.row
  simp only [List.mem_append, List.mem_cons, not_or]
  exact ⟨hpad _ _ font.name_line, hspace, hpad _ _ (htype _), hspace, hpad _ _ font.encoding_line, hspace,
    hpad _ _ (hyesNo _), hspace, hpad _ _ (hyesNo _), hspace, hpad _ _ (hyesNo _), hspace, hobject⟩

theorem stripEnding_row : stripEnding (fromUtf8Lossy font.row ++ ['\n']) = fromUtf8Lossy font.row := by
  apply stripEnding_append_newline
  obtain ⟨hne, hascii⟩ := objectColumns_ascii font
  obtain ⟨front, hfront⟩ : ∃ front, font.row = front ++ 32 :: font.objectColumns := by
    unfold Font.row
    simp only [← List.append_assoc, ← List.cons_append]
    exact ⟨_, rfl⟩
  have hcolumns : fromUtf8Lossy font.objectColumns = asciiChars font.objectColumns :=
    fromUtf8Lossy_ascii fun b hb => (hascii b hb).1
  rw [hfront, fromUtf8Lossy_append_ascii (by decide), hcolumns]
  unfold asciiChars
  intro hlast
  rw [List.getLast?_append_of_ne_nil _ (List.cons_ne_nil _ _), List.getLast?_cons_of_ne_nil (by simpa using hne),
    List.getLast?_map] at hlast
  obtain ⟨b, hb, hchar⟩ := Option.map_eq_some_iff.mp hlast
  obtain ⟨hsmall, -, hreturn⟩ := hascii b (List.mem_of_getLast? hb)
  have hcode : ∀ n < 0x80, Char.ofNat n = '\r' → n = 13 := by decide
  exact hreturn (UInt8.toNat_inj.mp (hcode _ hsmall hchar))

end Rows

/-! ## Fonts -/

/-- The status of a check of a report. -/
def checkStatus (checks : List ValidationCheck) (code : String) : Option ValidationStatus :=
  (checks.find? fun check => check.code = code).map ValidationCheck.status

/-- The summary counts every font and lists an unembedded one if there is one, and the check passes exactly if
    there is none. -/
structure FontsJudged (tables : TextTables) (showRatio : ℚ → String) (fonts : List Font) : Prop where
  counted : (parsePdffontsTable (boundedUtf8 (fontTable fonts))).fontCount = fonts.length
  listed : (parsePdffontsTable (boundedUtf8 (fontTable fonts))).unembedded ≠ [] ↔
    ∃ font ∈ fonts, font.embedded = false
  check : ∀ run : PrintRun, run.fontTable = boundedUtf8 (fontTable fonts) →
    (checkStatus (validateEdgePdfOutput tables showRatio run).2 "EDGE_PDF_FONTS_EMBEDDED" = some .pass ↔
      ∀ font ∈ fonts, font.embedded = true)

/-- Every row of the table is there and is read, and what is read as an embedding says whether all fonts are
    embedded. -/
structure FontsLegible (fonts : List Font) : Prop where
  /-- The table is cut in its first line, if at all. -/
  whole : (fontTable fonts).length ≤ maxBytes + headerLine.length
  rows : ∀ font ∈ fonts, font.IsRead
  read : (∃ font ∈ fonts, font.readEmbedded = false) ↔ ∃ font ∈ fonts, font.embedded = false

section Fonts

variable {fonts : List Font}

theorem newline_notMem_table (fonts : List Font) : ∀ line ∈ headerLine :: ruleLine :: fonts.map Font.row, 10 ∉ line := by
  intro line hline
  rcases List.mem_cons.mp hline with rfl | hline
  · decide
  rcases List.mem_cons.mp hline with rfl | hline
  · decide
  obtain ⟨font, -, rfl⟩ := List.mem_map.mp hline
  exact newline_notMem_row font

/-- The lines of the table behind its header. -/
theorem lines_fontTable (h : (fontTable fonts).length ≤ maxBytes + headerLine.length) :
    (textLines (boundedUtf8 (fontTable fonts))).drop 2 = fonts.map fun font => fromUtf8Lossy font.row := by
  unfold boundedUtf8
  have hstart : (fontTable fonts).length - maxBytes ≤ headerLine.length := by omega
  generalize (fontTable fonts).length - maxBytes = start at hstart
  obtain ⟨hheader, hrest⟩ := List.forall_mem_cons.mp (newline_notMem_table fonts)
  unfold fontTable
  rw [drop_flat_first hstart, lines_flat]
  · rw [List.map_cons, List.map_cons, List.drop_succ_cons, List.drop_succ_cons, List.drop_zero, List.map_map]
    exact List.map_congr_left fun font _ => stripEnding_row font
  · exact List.forall_mem_cons.mpr ⟨fun hmem => hheader (List.mem_of_mem_drop hmem), hrest⟩

/-- A cut behind the first line hides a row. -/
theorem fontCount_lt (h : maxBytes + headerLine.length < (fontTable fonts).length) :
    (parsePdffontsTable (boundedUtf8 (fontTable fonts))).fontCount < fonts.length := by
  have hne : fonts ≠ [] := by
    rintro rfl
    exact absurd h (by decide +kernel)
  have hpos : 0 < fonts.length := List.length_pos_of_ne_nil hne
  obtain ⟨-, hrest⟩ := List.forall_mem_cons.mp (newline_notMem_table fonts)
  unfold parsePdffontsTable boundedUtf8
  have hstart : headerLine.length < (fontTable fonts).length - maxBytes := by omega
  generalize (fontTable fonts).length - maxBytes = start at hstart
  obtain ⟨rest, hdrop, hlength, hlines⟩ := drop_flat (start - headerLine.length - 1) hrest
  unfold fontTable
  rw [drop_flat_rest hstart, hdrop, lines_flat hlines, (parse_table _ _).1]
  have hcount := List.length_filterMap_le fontRow
    ((rest.map fun line => stripEnding (fromUtf8Lossy line ++ ['\n'])).drop 2)
  rw [List.length_drop, List.length_map] at hcount
  rw [List.length_cons, List.length_map] at hlength
  show 0 + _ < _
  omega

theorem rows_eq (fonts : List Font) :
    ((fonts.map fun font => fromUtf8Lossy font.row).filterMap fontRow).map Prod.snd =
      (fonts.filter fun font => font.IsRead).map Font.readEmbedded := by
  induction fonts with
  | nil => rfl
  | cons font fonts ih =>
    have hrow := fontRow_row font
    rw [List.map_cons, List.filterMap_cons]
    by_cases hread : font.IsRead
    · rw [if_pos hread] at hrow
      obtain ⟨row, hsome, hsnd⟩ := Option.map_eq_some_iff.mp hrow
      rw [hsome, List.filter_cons_of_pos (by simpa using hread)]
      simp only [List.map_cons, hsnd, ih]
    · rw [if_neg hread] at hrow
      rw [Option.map_eq_none_iff.mp hrow, List.filter_cons_of_neg (by simpa using hread)]
      exact ih

theorem summary_fontTable (h : (fontTable fonts).length ≤ maxBytes + headerLine.length) :
    (parsePdffontsTable (boundedUtf8 (fontTable fonts))).fontCount = (fonts.filter fun font => font.IsRead).length ∧
      ((parsePdffontsTable (boundedUtf8 (fontTable fonts))).unembedded ≠ [] ↔
        ∃ font ∈ fonts, font.IsRead ∧ font.readEmbedded = false) := by
  have hrows := rows_eq fonts
  unfold parsePdffontsTable
  rw [lines_fontTable h, (parse_table _ _).1, (parse_table _ _).2]
  generalize (fonts.map fun font => fromUtf8Lossy font.row).filterMap fontRow = rows at hrows
  constructor
  · have hlength := congrArg List.length hrows
    rw [List.length_map, List.length_map] at hlength
    rw [hlength]
    exact Nat.zero_add _
  · have hmem : false ∈ rows.map Prod.snd ↔ false ∈ (fonts.filter fun font => font.IsRead).map Font.readEmbedded := by
      rw [hrows]
    simp only [List.mem_map, List.mem_filter, decide_eq_true_eq, and_assoc] at hmem
    rw [← hmem, List.nil_append, ne_eq, List.map_eq_nil_iff, List.filter_eq_nil_iff]
    push Not
    simp

theorem status_eq_pass (value : Bool) : status value = .pass ↔ value = true := by
  cases value <;> decide

/-- **When the fonts are judged.** -/
theorem fontsJudged_iff (tables : TextTables) (showRatio : ℚ → String) (fonts : List Font) :
    FontsJudged tables showRatio fonts ↔ FontsLegible fonts := by
  have hcheck : ∀ run, checkStatus (validateEdgePdfOutput tables showRatio run).2 "EDGE_PDF_FONTS_EMBEDDED" =
      some .pass ↔ (parsePdffontsTable run.fontTable).unembedded = [] := by
    intro run
    have hstatus : checkStatus (validateEdgePdfOutput tables showRatio run).2 "EDGE_PDF_FONTS_EMBEDDED" =
        some (status (parsePdffontsTable run.fontTable).unembedded.isEmpty) := rfl
    rw [hstatus, Option.some_inj, status_eq_pass, List.isEmpty_iff]
  constructor
  · intro h
    have hwhole : (fontTable fonts).length ≤ maxBytes + headerLine.length := by
      by_contra hcut
      exact absurd h.counted (fontCount_lt (not_le.mp hcut)).ne
    obtain ⟨hcount, hlisted⟩ := summary_fontTable hwhole
    have hrows : ∀ font ∈ fonts, font.IsRead := by
      have hall := List.length_filter_eq_length_iff.mp (hcount.symm.trans h.counted)
      simpa using hall
    refine ⟨hwhole, hrows, ?_⟩
    rw [← h.listed, hlisted]
    exact ⟨fun ⟨font, hfont, hread⟩ => ⟨font, hfont, hrows font hfont, hread⟩,
      fun ⟨font, hfont, _, hread⟩ => ⟨font, hfont, hread⟩⟩
  · intro h
    obtain ⟨hcount, hlisted⟩ := summary_fontTable h.whole
    have hlisted' : (parsePdffontsTable (boundedUtf8 (fontTable fonts))).unembedded ≠ [] ↔
        ∃ font ∈ fonts, font.embedded = false := by
      rw [hlisted, ← h.read]
      exact ⟨fun ⟨font, hfont, _, hread⟩ => ⟨font, hfont, hread⟩,
        fun ⟨font, hfont, hread⟩ => ⟨font, hfont, h.rows font hfont, hread⟩⟩
    refine ⟨?_, hlisted', ?_⟩
    · rw [hcount]
      exact List.length_filter_eq_length_iff.mpr (by simpa using h.rows)
    · intro run hrun
      rw [hcheck, hrun, ← not_iff_not, ← ne_eq, hlisted']
      push Not
      simp

end Fonts

/-! ## Text -/

/-- The tables of Unicode, of which no lower case form is longer than three characters. -/
structure PrintTables extends TextTables where
  length_le : ∀ c, (toLowercase c).length ≤ 3
  replacement : isAlphanumeric '\uFFFD' = false

/-- `normalized_tokens(text).chars().count()`. -/
def normalizedCharacters (tables : TextTables) (text : List Char) : ℕ := (normalizedTokens tables text).length

section Text

variable {tables : PrintTables} {text : List Char}

theorem normalizedCharacters_le (tables : PrintTables) (text : List Char) :
    normalizedCharacters tables.toTextTables text ≤ 4 * text.length := by
  have hmarks : ∀ pending (text : List Char), (marks tables.toTextTables pending text).length ≤ text.length := by
    intro pending text
    induction text generalizing pending with
    | nil => exact Nat.le_refl _
    | cons c text ih =>
      cases hc : tables.isAlphanumeric c with
      | true =>
        rw [marks_letter hc]
        exact Nat.succ_le_succ (ih _)
      | false =>
        rw [marks_other hc]
        exact (ih _).trans (Nat.le_succ _)
  have hrest : ∀ letters, (spelledRest ' ' tables.toLowercase letters).length ≤ 4 * letters.length := by
    intro letters
    unfold spelledRest
    induction letters with
    | nil => exact Nat.le_refl _
    | cons entry letters ih =>
      have hlower := tables.length_le entry.2
      rw [List.flatMap_cons, List.length_append, List.length_append, List.length_cons]
      split_ifs
      · rw [List.length_singleton]
        omega
      · rw [List.length_nil]
        omega
  unfold normalizedCharacters
  rw [normalizedTokens_eq]
  have hlength := hmarks false text
  cases hletters : marks tables.toTextTables false text with
  | nil => exact Nat.zero_le _
  | cons entry letters =>
    have hlower := tables.length_le entry.2
    have hspelled := hrest letters
    rw [hletters, List.length_cons] at hlength
    rw [spelled, List.length_append]
    omega

/-- **A cut takes characters away**, and adds none. -/
theorem normalizedCharacters_cut (tables : PrintTables) (start : ℕ) (bytes : List UInt8) :
    normalizedCharacters tables.toTextTables (fromUtf8Lossy (bytes.drop start)) ≤
      normalizedCharacters tables.toTextTables (fromUtf8Lossy bytes) := by
  obtain ⟨k, front, back, hcut, hwhole⟩ := fromUtf8Lossy_drop start bytes
  have hother : ∀ c ∈ List.replicate k '\uFFFD', charLetter tables.toTextTables c = none := by
    intro c hc
    rw [(List.mem_replicate.mp hc).2]
    exact charLetter_of_not tables.replacement
  rw [hcut, hwhole]
  unfold normalizedCharacters
  obtain ⟨pending, happend⟩ : ∃ pending, marks tables.toTextTables false (front ++ back) =
      marks tables.toTextTables false front ++ marks tables.toTextTables pending back := marked_append _ _ _
  rw [normalizedTokens_eq, normalizedTokens_eq, happend, marks, marked_append_others hother,
    spelled_marked_pending _ _ _ pending]
  exact length_spelled_le _ _

/-- The ratio in `f64` says whether half of the characters are there. -/
theorem textFidelity_pass_iff {inputCharacters extractedCharacters : ℕ} (h : extractedCharacters ≤ 2 ^ 51) :
    (¬0 < inputCharacters ∨ 1 / 2 ≤ textFidelity inputCharacters extractedCharacters) ↔
      inputCharacters ≤ 2 * extractedCharacters := by
  rcases Nat.eq_zero_or_pos inputCharacters with rfl | hpos
  · exact iff_of_true (.inl (Nat.lt_irrefl 0)) (Nat.zero_le _)
  unfold textFidelity
  rw [if_neg hpos.ne', ← half_le_ratio_iff h hpos, le_min_iff, le_max_iff]
  constructor
  · rintro (hzero | ⟨hratio | hzero, -⟩)
    · exact absurd hpos hzero
    · exact hratio
    · norm_num at hzero
  · intro hratio
    exact .inr ⟨.inl hratio, by norm_num⟩

end Text

/-- The check of the text passes exactly if half of the characters of the input are in the whole text. -/
def TextJudged (tables : PrintTables) (showRatio : ℚ → String) (text : List UInt8) (inputCharacters : ℕ) : Prop :=
  ∀ run : PrintRun, run.extractedText = boundedUtf8 text → run.inputCharacters = inputCharacters →
    (checkStatus (validateEdgePdfOutput tables.toTextTables showRatio run).2 "EDGE_PDF_TEXT_FIDELITY" = some .pass ↔
      inputCharacters ≤ 2 * normalizedCharacters tables.toTextTables (fromUtf8Lossy text))

/-- The last 64 KiB of the text have half of the characters of the input, or the whole text has not. -/
def TextDecided (tables : PrintTables) (text : List UInt8) (inputCharacters : ℕ) : Prop :=
  inputCharacters ≤
      2 * normalizedCharacters tables.toTextTables (fromUtf8Lossy (text.drop (text.length - maxBytes))) ∨
    2 * normalizedCharacters tables.toTextTables (fromUtf8Lossy text) < inputCharacters

theorem fidelity_pass_iff (tables : PrintTables) (showRatio : ℚ → String) (text : List UInt8) (run : PrintRun)
    (h : run.extractedText = boundedUtf8 text) :
    checkStatus (validateEdgePdfOutput tables.toTextTables showRatio run).2 "EDGE_PDF_TEXT_FIDELITY" = some .pass ↔
      run.inputCharacters ≤
        2 * normalizedCharacters tables.toTextTables (fromUtf8Lossy (text.drop (text.length - maxBytes))) := by
  have hbytes : (text.drop (text.length - maxBytes)).length ≤ maxBytes := by
    rw [List.length_drop]
    omega
  have hlossy := length_fromUtf8Lossy_le (text.drop (text.length - maxBytes))
  have hcount := normalizedCharacters_le tables (fromUtf8Lossy (text.drop (text.length - maxBytes)))
  have hsmall : normalizedCharacters tables.toTextTables (fromUtf8Lossy (text.drop (text.length - maxBytes))) ≤
      4 * maxBytes := by omega
  have hstatus : checkStatus (validateEdgePdfOutput tables.toTextTables showRatio run).2 "EDGE_PDF_TEXT_FIDELITY" =
      some (textFidelityCheck showRatio run.inputCharacters
        (min (normalizedCharacters tables.toTextTables run.extractedText) u64Max)).status := rfl
  rw [hstatus, h]
  unfold boundedUtf8
  generalize normalizedCharacters tables.toTextTables (fromUtf8Lossy (text.drop (text.length - maxBytes))) = count
    at hsmall
  have hmax : 4 * maxBytes ≤ u64Max := by decide
  have hbound : 4 * maxBytes ≤ 2 ^ 51 := by decide
  rw [Nat.min_eq_left (hsmall.trans hmax), Option.some_inj, ← textFidelity_pass_iff (hsmall.trans hbound)]
  unfold textFidelityCheck check
  dsimp only
  split_ifs with hpass
  · exact iff_of_true rfl hpass
  · exact iff_of_false (by decide) hpass

theorem exists_run (extractedText : List Char) (inputCharacters : ℕ) :
    ∃ run : PrintRun, run.extractedText = extractedText ∧ run.inputCharacters = inputCharacters :=
  ⟨⟨"pdf", [], inputCharacters, 0, extractedText, []⟩, rfl, rfl⟩

/-- **When the text is judged.** -/
theorem textJudged_iff (tables : PrintTables) (showRatio : ℚ → String) (text : List UInt8) (inputCharacters : ℕ) :
    TextJudged tables showRatio text inputCharacters ↔ TextDecided tables text inputCharacters := by
  have hcut := normalizedCharacters_cut tables (text.length - maxBytes) text
  unfold TextDecided
  constructor
  · intro h
    obtain ⟨run, htext, hinput⟩ := exists_run (boundedUtf8 text) inputCharacters
    have hpass := h run htext hinput
    rw [fidelity_pass_iff tables showRatio text run htext, hinput] at hpass
    omega
  · intro h run htext hinput
    rw [fidelity_pass_iff tables showRatio text run htext, hinput]
    omega

/-- **When the evidence is judged.** -/
theorem evidence_judged_iff (tables : PrintTables) (showRatio : ℚ → String) (fonts : List Font) (text : List UInt8)
    (inputCharacters : ℕ) :
    (FontsJudged tables.toTextTables showRatio fonts ∧ TextJudged tables showRatio text inputCharacters) ↔
      FontsLegible fonts ∧ TextDecided tables text inputCharacters := by
  rw [fontsJudged_iff, textJudged_iff]

namespace EvidenceSample

def tables : PrintTables where
  toTextTables := RenderingSample.ascii
  length_le _ := (by decide : 1 ≤ 3)
  replacement := by decide

def showRatio (_ : ℚ) : String := "1.00"

def objectNumber : Digits := ⟨ascii "9", by decide, List.forall_iff_forall_mem.mp (by decide)⟩

def generation : Digits := ⟨ascii "0", by decide, List.forall_iff_forall_mem.mp (by decide)⟩

/-- A font that is not embedded, with a `-` in front of its name. -/
def dashFont : Font :=
  ⟨ascii "-Helv", .type1, ascii "WinAnsi", false, false, false, some (objectNumber, generation), by decide, by decide⟩

/-- An embedded font without an object number. -/
def directFont : Font :=
  ⟨ascii "Helv", .type1, ascii "WinAnsi", true, false, false, none, by decide, by decide⟩

/-- The first font is not seen, and the second one is taken for a font that is not embedded. -/
theorem fonts_misjudged :
    ¬(FontsJudged tables.toTextTables showRatio [dashFont] ∧ TextJudged tables showRatio [] 0) ∧
      ¬(FontsJudged tables.toTextTables showRatio [directFont] ∧ TextJudged tables showRatio [] 0) := by
  constructor
  · intro h
    exact absurd h.1.counted (by decide +kernel)
  · intro h
    have hlisted : (parsePdffontsTable (boundedUtf8 (fontTable [directFont]))).unembedded ≠ [] := by decide +kernel
    obtain ⟨font, hfont, hembedded⟩ := h.1.listed.mp hlisted
    rw [List.mem_singleton.mp hfont] at hembedded
    cases hembedded

end EvidenceSample

end Anole.EdgePdf
