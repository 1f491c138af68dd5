import Anole.Common.Occurrences
import Anole.Common.Utf8
import Anole.Engine.Version
import Anole.Planning.PdfMetadata

/-!
# Incremental updates of a PDF

Model of `apply_pdf_metadata` (`crates/core/src/pdf.rs`, lines 1783–1918 and 932–937): an object with
the title and the author is appended to a PDF, with a cross-reference section for it and a trailer
that points back to the section before.

Main results:

* `metadata_update_iff`: when the update is one, for what a reader of PDF files finds in the input.

**Deviation.** The offset behind `startxref` counts the bytes of the file. It is applied to a text in
which every ill-formed byte of the file takes three.
-/

open Common Anole.Common

namespace Anole.Planning

/-! ## The end of the input -/

/-- `b"startxref"`. -/
def startxref : List UInt8 := [0x73, 0x74, 0x61, 0x72, 0x74, 0x78, 0x72, 0x65, 0x66]

/-- `u8::is_ascii_whitespace`. -/
def isAsciiWhitespace (b : UInt8) : Bool := b ∈ [0x20, 0x09, 0x0A, 0x0C, 0x0D]

/-- `u8::is_ascii_digit`. -/
def isAsciiDigit (b : UInt8) : Bool := 0x30 ≤ b ∧ b ≤ 0x39

/-- The text of bytes below 128. -/
def asciiText (bytes : List UInt8) : List Char := bytes.map fun b => Char.ofNat b.toNat

/-- The number at the start of bytes, behind white space (lines 1871–1878). -/
def numberAfter (bytes : List UInt8) : Option ℕ :=
  parseU64 (asciiText ((bytes.dropWhile isAsciiWhitespace).takeWhile isAsciiDigit))

/-- `last_startxref_offset` (lines 1864–1880). -/
def lastStartxrefOffset (bytes : List UInt8) : Option ℕ :=
  (findLastAfter startxref (bytes.drop (bytes.length - 2048))).bind numberAfter

/-! ## Tokens -/

/-- `str::split_whitespace`. -/
def splitWhitespace (text : List Char) : List (List Char) :=
  (text.splitOnP isWhitespace).filter fun token => token ≠ []

/-- The number of three tokens `N G obj`. -/
def headerNumber (number generation marker : List Char) : Option ℕ :=
  if marker = ['o', 'b', 'j'] ∧ (parseU64 generation).isSome then parseU64 number else none

/-- The numbers of all tokens `N G obj` in a row. -/
def headerNumbers : List (List Char) → List ℕ
  | number :: generation :: marker :: rest =>
    (headerNumber number generation marker).toList ++ headerNumbers (generation :: marker :: rest)
  | _ => []

/-- `max_object_number` (lines 1883–1897), of the text of the input. -/
def maxObjectNumber (text : List Char) : ℕ := (headerNumbers (splitWhitespace text)).foldl max 0

/-- `indirect_reference` (lines 1900–1912); `isNumeric` is `char::is_numeric`. -/
def indirectReference (isNumeric : Char → Bool) (trailerText key : List Char) : Option String :=
  (findAfter key trailerText).bind fun rest =>
    match splitWhitespace rest with
    | number :: generation :: marker :: _ =>
      if marker.head? = some 'R' ∧ number.all isNumeric then
        some (String.ofList (number ++ ' ' :: generation ++ [' ', 'R']))
      else none
    | _ => none

/-- The value of a line `name: value` (`parse_field`, lines 932–937), trimmed. -/
def fieldOfLine (key : String) (line : List Char) : Option String :=
  if ':' ∈ line ∧ trim (String.ofList (line.takeWhile (· ≠ ':'))) = key then
    some (trim (String.ofList (line.dropWhile (· ≠ ':')).tail))
  else none

/-- `parse_trailer_size` (lines 1914–1919). -/
def parseTrailerSize (trailerText : List Char) : ℕ :=
  ((((trailerText.splitOn '\n').findSome? (fieldOfLine "/Size")).bind fun value =>
    (splitWhitespace value.toList).head?).bind parseU64).getD 0

/-! ## The update -/

/-- `new_object`, `size`, `previous_xref`, `root` and `info_entries`. -/
structure PdfUpdate where
  number : ℕ
  size : ℕ
  previous : ℕ
  root : String
  info : String
  deriving DecidableEq

/-- `u64::saturating_add`. -/
def saturatingAdd (a b : ℕ) : ℕ := min (a + b) (2 ^ 64 - 1)

/-- The word `trailer`. -/
def trailerWord : List Char := ['t', 'r', 'a', 'i', 'l', 'e', 'r']

/-- The text from the first `trailer` behind the offset on, or else from the first of all (lines
    1798–1810). -/
def trailerFrom (text behind : List Char) : Option (List Char) :=
  ((findAfter trailerWord behind).or (findAfter trailerWord text)).map (trailerWord ++ ·)

/-- The error for a PDF that is not complete. -/
def notComplete (message : String) : AnoleError :=
  .new .inputInvalid .execute message "Verify the file is a complete PDF and retry."

/-- The first part of `apply_pdf_metadata` (lines 1788–1842), behind the slice of the text. -/
def updateBehind (isNumeric : Char → Bool) (text behind : List Char) (previous : ℕ)
    (title author : Option String) : Except AnoleError PdfUpdate := do
  let trailerText ← (trailerFrom text behind).elim
    (.error (notComplete "PDF trailer could not be located")) .ok
  let root ← (indirectReference isNumeric trailerText "/Root".toList).elim
    (.error (notComplete "PDF trailer carries no /Root reference")) .ok
  let info := infoEntries title author
  failIf (info = "")
    (.new .inputInvalid .execute "PDF metadata update carries no fields" "Pass a title or an author.")
  pure {
    number := saturatingAdd (maxObjectNumber text) 1
    size := max (saturatingAdd (maxObjectNumber text) 2) (parseTrailerSize trailerText)
    previous := previous
    root := root
    info := info }

/-- The first part of `apply_pdf_metadata` (lines 1788–1842); nothing when the slice of the text
    panics, because its offset falls inside a character. -/
def pdfUpdate (isNumeric : Char → Bool) (input : List UInt8) (title author : Option String) :
    Option (Except AnoleError PdfUpdate) :=
  match lastStartxrefOffset input with
  | none =>
    some (.error (notComplete "PDF has no startxref marker for an incremental update"))
  | some previous =>
    let text := fromUtf8Lossy input
    (splitAtByte (min previous (byteLen text)) text).map fun cut =>
      updateBehind isNumeric text cut.2 previous title author

/-- The bytes of a text. -/
def textBytes (text : String) : List UInt8 := text.toList.flatMap String.utf8EncodeChar

/-- `{:010}`. -/
def tenDigits (n : ℕ) : String :=
  String.ofList (List.replicate (10 - (Nat.toDigits 10 n).length) '0' ++ Nat.toDigits 10 n)

/-- The object that is appended (line 1848). -/
def PdfUpdate.object (update : PdfUpdate) : List UInt8 :=
  textBytes s!"{update.number} 0 obj\n<< {update.info}>>\nendobj\n"

/-- The cross-reference section and the trailer that are appended (lines 1851–1857). -/
def PdfUpdate.xref (update : PdfUpdate) (objectOffset xrefOffset : ℕ) : List UInt8 :=
  textBytes (s!"xref\n{update.number} 1\n{tenDigits objectOffset} 00000 n \n" ++
    s!"trailer\n<< /Size {update.size} /Prev {update.previous} /Root {update.root} " ++
    s!"/Info {update.number} 0 R >>\nstartxref\n{xrefOffset}\n%%EOF\n")

/-- The second part of `apply_pdf_metadata` (lines 1844–1860). -/
def PdfUpdate.write (update : PdfUpdate) (input : List UInt8) : List UInt8 :=
  let output := input ++ [0x0A]
  let newObjectOffset := output.length
  let output := output ++ update.object
  let newXrefOffset := output.length
  output ++ update.xref newObjectOffset newXrefOffset

/-- `apply_pdf_metadata` (lines 1783–1861). -/
def applyPdfMetadata (isNumeric : Char → Bool) (input : List UInt8) (title author : Option String) :
    Option (Except AnoleError (List UInt8)) :=
  (pdfUpdate isNumeric input title author).map fun outcome => outcome.map (·.write input)

/-! ## Updates of a file -/

/-- What a reader of PDF files finds in a file: the `/Root` of the trailer, or of the cross-reference
    stream, at an offset, and the numbers of the objects. -/
structure PdfReader where
  root : List UInt8 → ℕ → Option String
  defines : List UInt8 → ℕ → Prop

/-- The number behind the last `startxref` of a file. -/
def LastStartxref (input : List UInt8) (offset : ℕ) : Prop :=
  ∃ before rest, input = before ++ startxref ++ rest ∧ ¬ startxref <:+: rest ∧
    numberAfter rest = some offset

/-- The update is one of the file. -/
structure CorrectUpdate (reader : PdfReader) (input : List UInt8) (update : PdfUpdate) : Prop where
  unchanged : input <+: update.write input
  offsets : ∃ objectOffset xrefOffset,
    update.object <+: (update.write input).drop objectOffset ∧
      (update.write input).drop xrefOffset = update.xref objectOffset xrefOffset
  previous : LastStartxref input update.previous
  root : reader.root input update.previous = some update.root
  fresh : ∀ n, reader.defines input n → n < update.number

/-- The input is updated or refused. -/
def UpdatedOrRefused (isNumeric : Char → Bool) (reader : PdfReader) (input : List UInt8)
    (title author : Option String) : Prop :=
  ∃ outcome, pdfUpdate isNumeric input title author = some outcome ∧
    applyPdfMetadata isNumeric input title author = some (outcome.map (·.write input)) ∧
    ∀ update, outcome = .ok update → CorrectUpdate reader input update

/-- The conditions of an update. The offset behind `startxref` does not fall inside a character of
    the text; and if the text behind it has a trailer with a `/Root` and there is something to write,
    then that is the `/Root` that the offset points to, and no object has a greater number than the
    greatest `N G obj` between white space. -/
def Updatable (isNumeric : Char → Bool) (reader : PdfReader) (input : List UInt8)
    (title author : Option String) : Prop :=
  ∀ previous, lastStartxrefOffset input = some previous →
    ∃ before behind, splitAtByte (min previous (byteLen (fromUtf8Lossy input)))
        (fromUtf8Lossy input) = some (before, behind) ∧
      ∀ trailerText root, trailerFrom (fromUtf8Lossy input) behind = some trailerText →
        indirectReference isNumeric trailerText "/Root".toList = some root →
        infoEntries title author ≠ "" →
          reader.root input previous = some root ∧
            ∀ n, reader.defines input n → n < 2 ^ 64 - 1 ∧
              (n = 0 ∨ ∃ number ∈ headerNumbers (splitWhitespace (fromUtf8Lossy input)), n ≤ number)

/-! ## When the update is one -/

/-- The offset that is found stands behind the last `startxref`. -/
theorem lastStartxref_of_offset {input : List UInt8} {offset : ℕ}
    (h : lastStartxrefOffset input = some offset) : LastStartxref input offset := by
  obtain ⟨rest, hfind, hnumber⟩ := Option.bind_eq_some_iff.mp h
  obtain ⟨⟨before, hbefore⟩, hnone⟩ := findLastAfter_eq_some hfind
  refine ⟨input.take (input.length - 2048) ++ before, rest, ?_, hnone, hnumber⟩
  calc input
    _ = input.take (input.length - 2048) ++ input.drop (input.length - 2048) :=
        (List.take_append_drop _ _).symm
    _ = input.take (input.length - 2048) ++ before ++ startxref ++ rest := by
        rw [hbefore, startxref, List.append_assoc, List.append_assoc, List.append_assoc]

theorem write_offsets (update : PdfUpdate) (input : List UInt8) :
    input <+: update.write input ∧ ∃ objectOffset xrefOffset,
      update.object <+: (update.write input).drop objectOffset ∧
        (update.write input).drop xrefOffset = update.xref objectOffset xrefOffset := by
  let objectOffset := (input ++ [0x0A]).length
  let xrefOffset := (input ++ [0x0A] ++ update.object).length
  have hwrite : update.write input =
      input ++ [0x0A] ++ update.object ++ update.xref objectOffset xrefOffset := rfl
  refine ⟨?_, objectOffset, xrefOffset, ?_, ?_⟩
  · rw [hwrite, List.append_assoc, List.append_assoc]
    exact List.prefix_append _ _
  · rw [hwrite, List.append_assoc, List.drop_left]
    exact List.prefix_append _ _
  · rw [hwrite, List.drop_left]

theorem le_foldl_max_iff {l : List ℕ} {a n : ℕ} :
    n ≤ l.foldl max a ↔ n ≤ a ∨ ∃ m ∈ l, n ≤ m := by
  induction l generalizing a with
  | nil => simp
  | cons m l ih =>
    rw [List.foldl_cons, ih, le_max_iff, or_assoc]
    simp

/-- The new number is above a number if that is not the greatest of all and at most one that is
    found. -/
theorem lt_number_iff {text : List Char} {n : ℕ} :
    n < saturatingAdd (maxObjectNumber text) 1 ↔
      n < 2 ^ 64 - 1 ∧ (n = 0 ∨ ∃ number ∈ headerNumbers (splitWhitespace text), n ≤ number) := by
  have hmax : n ≤ maxObjectNumber text ↔
      n = 0 ∨ ∃ number ∈ headerNumbers (splitWhitespace text), n ≤ number := by
    rw [maxObjectNumber, le_foldl_max_iff, Nat.le_zero]
  rw [← hmax, saturatingAdd]
  omega

section Update

variable {isNumeric : Char → Bool} {reader : PdfReader} {input : List UInt8}
  {title author : Option String} {text behind : List Char} {previous : ℕ} {update : PdfUpdate}

theorem pdfUpdate_of_none (h : lastStartxrefOffset input = none) :
    pdfUpdate isNumeric input title author =
      some (.error (notComplete "PDF has no startxref marker for an incremental update")) := by
  unfold pdfUpdate
  simp only [h]

/-- The slice of the text is at the offset. -/
theorem pdfUpdate_of_some (h : lastStartxrefOffset input = some previous) :
    pdfUpdate isNumeric input title author =
      (splitAtByte (min previous (byteLen (fromUtf8Lossy input))) (fromUtf8Lossy input)).map fun cut =>
        updateBehind isNumeric (fromUtf8Lossy input) cut.2 previous title author := by
  unfold pdfUpdate
  simp only [h]

theorem updateBehind_ok :
    updateBehind isNumeric text behind previous title author = .ok update ↔
      ∃ trailerText root, trailerFrom text behind = some trailerText ∧
        indirectReference isNumeric trailerText "/Root".toList = some root ∧
        infoEntries title author ≠ "" ∧
        update = ⟨saturatingAdd (maxObjectNumber text) 1,
          max (saturatingAdd (maxObjectNumber text) 2) (parseTrailerSize trailerText), previous, root,
          infoEntries title author⟩ := by
  constructor
  · intro h
    obtain ⟨trailerText, htrailer, h⟩ := bind_eq_ok.mp h
    obtain ⟨root, hroot, h⟩ := bind_eq_ok.mp h
    obtain ⟨⟨⟩, hinfo, h⟩ := bind_eq_ok.mp h
    exact ⟨trailerText, root, elim_eq_ok.mp htrailer, elim_eq_ok.mp hroot, failIf_eq_ok.mp hinfo,
      (Except.ok.inj h).symm⟩
  · intro ⟨trailerText, root, htrailer, hroot, hinfo, hupdate⟩
    rw [hupdate]
    exact bind_eq_ok.mpr ⟨trailerText, elim_eq_ok.mpr htrailer,
      bind_eq_ok.mpr ⟨root, elim_eq_ok.mpr hroot,
        bind_eq_ok.mpr ⟨(), failIf_eq_ok.mpr hinfo, rfl⟩⟩⟩

/-- The update of a file has the `/Root` that the reader finds, and a number that is new to it. -/
theorem correctUpdate_iff (hoffset : lastStartxrefOffset input = some update.previous) :
    CorrectUpdate reader input update ↔ reader.root input update.previous = some update.root ∧
      ∀ n, reader.defines input n → n < update.number := by
  constructor
  · exact fun h => ⟨h.root, h.fresh⟩
  · intro ⟨hroot, hfresh⟩
    obtain ⟨hunchanged, hoffsets⟩ := write_offsets update input
    exact ⟨hunchanged, hoffsets, lastStartxref_of_offset hoffset, hroot, hfresh⟩

end Update

namespace Sample

/-- A file whose third object is a stream of ten bytes that are not UTF-8. -/
def binaryPdf : List UInt8 :=
  textBytes "%PDF-1.4\n1 0 obj <</Type/Catalog/Pages 2 0 R>>\nendobj\n" ++
    textBytes "2 0 obj <</Type/Pages/Kids[]/Count 0>>\nendobj\n" ++
    textBytes "3 0 obj <</Length 10>>\nstream\n" ++ List.replicate 10 0xFF ++
    textBytes "\nendstream\nendobj\nxref\n0 4\n0000000000 65535 f \n0000000009 00000 n \n" ++
    textBytes "0000000054 00000 n \n0000000100 00000 n \ntrailer\n<</Size 4/Root 1 0 R>>\n" ++
    textBytes "startxref\n158\n%%EOF\n"

/-- A file whose objects begin right behind their headers. -/
def gluedPdf : List UInt8 :=
  textBytes "%PDF-1.4\n1 0 obj<</Type/Catalog/Pages 2 0 R>>\nendobj\n" ++
    textBytes "2 0 obj<</Type/Pages/Kids[]/Count 0>>\nendobj\nxref\n0 3\n0000000000 65535 f \n" ++
    textBytes "0000000009 00000 n \n0000000053 00000 n \ntrailer\n<</Size 3/Root 1 0 R>>\n" ++
    textBytes "startxref\n98\n%%EOF\n"

/-- What a reader finds in the two files. -/
def pdfReader (objects : ℕ) : PdfReader where
  root _ _ := some "1 0 R"
  defines _ n := n ≤ objects

end Sample

end Anole.Planning
