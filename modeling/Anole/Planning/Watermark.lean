import Anole.Planning.PdfUpdate

/-!
# The overlay of a watermark

Model of `build_watermark_pdf` and `escape_pdf_text` (`crates/core/src/pdf.rs`, lines 2076–2154): a PDF of one
page, written object by object, with a cross-reference table over the offsets that were noted on the way.

* `writeObjects_spec`: each object stands at the offset that was noted for it.
* `watermark_well_formed`: what a reader of the file finds by its last offset, its table, the length of its
  stream and the string that is shown.

The numbers of the page are floating-point numbers; the file holds them as they are formatted.
-/

open Common Anole.Common
open Anole.Planning (textBytes tenDigits asciiText isAsciiDigit)

namespace Anole.Watermark

/-! ## The writer -/

/-- What `format!` writes for a finite `f64` with at most five places: a number below `2^1024` has 309 digits
    at most in front of the point. -/
structure Formatted where
  text : String
  nonempty : text ≠ ""
  plain : ∀ c ∈ text.toList, c.isDigit = true ∨ c = '.' ∨ c = '-'
  short : text.length ≤ 316

/-- The numbers that the overlay is written with, for the size of a page, an angle and the length of a text
    (lines 2086–2104). -/
structure OverlayNumbers where
  /-- `{cos:.5}`. -/
  cos : Formatted
  /-- `{sin:.5}`. -/
  sin : Formatted
  /-- `{neg_sin:.5}`. -/
  negSin : Formatted
  /-- `{center_x:.2}`. -/
  centerX : Formatted
  /-- `{center_y:.2}`. -/
  centerY : Formatted
  /-- `{WATERMARK_FONT_SIZE_PT:.0}`. -/
  fontSize : Formatted
  /-- `-text_width / 2.0`, with two places. -/
  shiftX : Formatted
  /-- `-WATERMARK_FONT_SIZE_PT * 0.35`, with two places. -/
  shiftY : Formatted
  /-- `{page_width_pt:.2}`. -/
  pageWidth : Formatted
  /-- `{page_height_pt:.2}`. -/
  pageHeight : Formatted

/-- `WATERMARK_FILL_ALPHA`. -/
def watermarkFillAlpha : String := "0.18"

/-- What `escape_pdf_text` writes for a character (lines 2146–2150). -/
def escapeCharacter (character : Char) : List Char :=
  if character = '(' ∨ character = ')' ∨ character = '\\' then ['\\', character] else [character]

/-- `escape_pdf_text` (lines 2143–2154). -/
def escapePdfText (text : String) : String := String.ofList (text.toList.flatMap escapeCharacter)

variable (numbers : OverlayNumbers) {text : String} {lines : List (List UInt8)}

/-- The operators in front of the string that is shown (lines 2097–2100). -/
def graphics : String :=
  s!"q\n{numbers.cos.text} {numbers.sin.text} {numbers.negSin.text} {numbers.cos.text} " ++
    s!"{numbers.centerX.text} {numbers.centerY.text} cm\n/Gs0 gs\n0.5 g\nBT\n/F1 {numbers.fontSize.text} Tf\n" ++
    s!"1 0 0 1 {numbers.shiftX.text} {numbers.shiftY.text} Td\n"

/-- `content` (lines 2096–2102). -/
def content (text : String) : String := graphics numbers ++ "(" ++ (escapePdfText text ++ ") Tj\nET\nQ\n")

/-- `objects` (lines 2103–2119). -/
def objects (text : String) : List String :=
  ["<< /Type /Catalog /Pages 2 0 R >>",
    "<< /Type /Pages /Kids [3 0 R] /Count 1 >>",
    s!"<< /Type /Page /Parent 2 0 R /MediaBox [0 0 {numbers.pageWidth.text} {numbers.pageHeight.text}] " ++
      "/Resources << /Font << /F1 5 0 R >> /ExtGState << /Gs0 6 0 R >> >> /Contents 4 0 R >>",
    s!"<< /Length {(textBytes (content numbers text)).length} >>\nstream\n{content numbers text}endstream",
    "<< /Type /Font /Subtype /Type1 /BaseFont /Helvetica-Bold >>",
    s!"<< /Type /ExtGState /ca {watermarkFillAlpha} /CA {watermarkFillAlpha} >>"]

/-- `b"%PDF-1.4\n%\xe2\xe3\xcf\xd3\n"`. -/
def fileHeader : List UInt8 := textBytes "%PDF-1.4\n%" ++ [0xE2, 0xE3, 0xCF, 0xD3, 0x0A]

/-- An object with its number. -/
def objectText (number : ℕ) (object : String) : String := s!"{number} 0 obj\n{object}\nendobj\n"

/-- The loop that writes the objects and notes their offsets (lines 2124–2127). -/
def writeObjects : ℕ → List String → List UInt8 → List ℕ → List UInt8 × List ℕ
  | _, [], pdf, offsets => (pdf, offsets)
  | index, object :: rest, pdf, offsets =>
    writeObjects (index + 1) rest (pdf ++ textBytes (objectText (index + 1) object)) (offsets ++ [pdf.length])

/-- The line of the free entry. -/
def freeLine : List UInt8 := textBytes "0000000000 65535 f \n"

/-- The line of an offset (line 2132). -/
def offsetLine (offset : ℕ) : List UInt8 := textBytes (tenDigits offset) ++ textBytes " 00000 n \n"

/-- `build_watermark_pdf` (lines 2080–2141). -/
def buildWatermarkPdf (text : String) : List UInt8 :=
  let objects := objects numbers text
  let (pdf, offsets) := writeObjects 0 objects fileHeader []
  let xrefOffset := pdf.length
  let pdf := pdf ++ textBytes s!"xref\n0 {objects.length + 1}\n"
  let pdf := pdf ++ (freeLine :: offsets.map offsetLine).flatten
  pdf ++ textBytes (s!"trailer\n<< /Size {objects.length + 1} /Root 1 0 R >>\n" ++
    s!"startxref\n{xrefOffset}\n%%EOF\n")

/-! ## A reader -/

/-- A text stands at an offset. -/
def StandsAt (pdf : List UInt8) (offset : ℕ) (text : String) : Prop := textBytes text <+: pdf.drop offset

/-- The line of 20 bytes with an index, in the table of seven lines at an offset. -/
def xrefLine (pdf : List UInt8) (xref index : ℕ) : List UInt8 := (pdf.drop (xref + 9 + 20 * index)).take 20

/-- The offset that a line of the table begins with. -/
def lineOffset (line : List UInt8) : ℕ :=
  (asciiText (line.take 10)).foldl (fun value c => 10 * value + (c.toNat - '0'.toNat)) 0

/-- The offset of an object. -/
def objectOffset (pdf : List UInt8) (xref number : ℕ) : ℕ := lineOffset (xrefLine pdf xref number)

/-- The text of the first literal string of a content stream, when it is followed by the operator that shows it. -/
def shownText (stream : List UInt8) : Option String :=
  (readLiteral .text 0 ((asciiText stream).dropWhile (· ≠ '(')).tail).bind fun (bytes, rest) =>
    if [' ', 'T', 'j'] <+: rest then some (String.ofList (bytes.map Char.ofNat)) else none

/-- The table of a file with objects `1` to `count`: the file ends in the offset of the table, the lines of the
    table have 20 bytes, and each object stands at the offset of its line. -/
structure CrossReferences (pdf : List UInt8) (xref count : ℕ) : Prop where
  startxref : textBytes s!"startxref\n{xref}\n%%EOF\n" <:+ pdf
  table : StandsAt pdf xref s!"xref\n0 {count + 1}\n"
  free : xrefLine pdf xref 0 = textBytes "0000000000 65535 f \n"
  entry : ∀ number, 1 ≤ number → number ≤ count →
    (xrefLine pdf xref number).length = 20 ∧ (∀ b ∈ (xrefLine pdf xref number).take 10, isAsciiDigit b = true) ∧
      (xrefLine pdf xref number).drop 10 = textBytes " 00000 n \n" ∧
      StandsAt pdf (objectOffset pdf xref number) s!"{number} 0 obj\n"
  trailer : StandsAt pdf (xref + 9 + 20 * (count + 1)) s!"trailer\n<< /Size {count + 1} /Root 1 0 R >>\n"

/-- A file of six objects, the fourth of which is a stream of the length that it names, which shows a text. -/
def WellFormed (pdf : List UInt8) (text : String) : Prop :=
  ∃ xref, CrossReferences pdf xref 6 ∧ ∃ stream rest,
    pdf.drop (objectOffset pdf xref 4) =
      textBytes s!"4 0 obj\n<< /Length {stream.length} >>\nstream\n" ++ stream ++ textBytes "endstream\nendobj\n" ++
        rest ∧
    shownText stream = some text

/-! ## Bytes -/

theorem textBytes_append (a b : String) : textBytes (a ++ b) = textBytes a ++ textBytes b := by
  rw [textBytes, String.toList_append, List.flatMap_append, textBytes, textBytes]

theorem textBytes_ascii (h : ∀ c ∈ text.toList, c.toNat < 0x80) :
    textBytes text = text.toList.map fun c => c.toNat.toUInt8 := by
  rw [textBytes]
  generalize text.toList = chars at h
  induction chars with
  | nil => rfl
  | cons c rest ih =>
    have hcode : c.val.toNat ≤ 127 := Nat.le_of_lt_succ (h c List.mem_cons_self)
    rw [List.flatMap_cons, List.map_cons, ih fun d hd => h d (List.mem_cons_of_mem _ hd), String.utf8EncodeChar,
      if_pos hcode]
    rfl

theorem asciiText_textBytes (h : ∀ c ∈ text.toList, c.toNat < 0x80) :
    asciiText (textBytes text) = text.toList := by
  rw [textBytes_ascii h, asciiText, List.map_map]
  conv_rhs => rw [← List.map_id text.toList]
  apply List.map_congr_left
  intro c hc
  have hcode := h c hc
  show Char.ofNat c.toNat.toUInt8.toNat = c
  rw [Nat.toUInt8_eq, UInt8.toNat_ofNat', Nat.mod_eq_of_lt (by omega), Char.ofNat_toNat]

theorem length_utf8EncodeChar_le (c : Char) : (String.utf8EncodeChar c).length ≤ 4 := by
  rw [String.length_utf8EncodeChar]
  exact c.utf8Size_le_four

theorem length_textBytes_le (text : String) : (textBytes text).length ≤ 4 * text.length := by
  rw [textBytes, ← String.length_toList]
  induction text.toList with
  | nil => rfl
  | cons c rest ih =>
    have hc := length_utf8EncodeChar_le c
    rw [List.flatMap_cons, List.length_append, List.length_cons]
    omega

/-! ## Offsets -/

theorem length_tenDigits {n : ℕ} (h : n < 10 ^ 10) : (tenDigits n).length = 10 := by
  have hdigits : (Nat.toDigits 10 n).length ≤ 10 := (Nat.length_toDigits_le_iff (by decide) (by decide)).mpr h
  rw [tenDigits, String.length_ofList, List.length_append, List.length_replicate]
  omega

theorem isDigit_of_mem_tenDigits {n : ℕ} {c : Char} (h : c ∈ (tenDigits n).toList) : c.isDigit = true := by
  rw [tenDigits, String.toList_ofList, List.mem_append] at h
  rcases h with hzero | hdigit
  · rw [(List.mem_replicate.mp hzero).2]
    rfl
  · exact Nat.isDigit_of_mem_toDigits (by decide) (by decide) hdigit

theorem foldl_tenDigits (n : ℕ) :
    (tenDigits n).toList.foldl (fun value c => 10 * value + (c.toNat - '0'.toNat)) 0 = n := by
  rw [tenDigits, String.toList_ofList, foldl_zeros, ← toList_toString, foldl_toString]

theorem isDigit_bounds {c : Char} (h : c.isDigit = true) : 48 ≤ c.toNat ∧ c.toNat ≤ 57 := by
  simp only [Char.isDigit, Bool.and_eq_true, decide_eq_true_eq] at h
  exact h

theorem tenDigits_ascii (n : ℕ) : ∀ c ∈ (tenDigits n).toList, c.toNat < 0x80 := by
  intro c hc
  have hbounds := isDigit_bounds (isDigit_of_mem_tenDigits hc)
  omega

theorem length_textBytes_tenDigits {n : ℕ} (h : n < 10 ^ 10) : (textBytes (tenDigits n)).length = 10 := by
  rw [textBytes_ascii (tenDigits_ascii n), List.length_map, String.length_toList, length_tenDigits h]

/-- The line of an offset of ten digits at most: it has 20 bytes, and the offset is read back from it. -/
theorem offsetLine_spec {offset : ℕ} (h : offset < 10 ^ 10) :
    (offsetLine offset).length = 20 ∧ (∀ b ∈ (offsetLine offset).take 10, isAsciiDigit b = true) ∧
      (offsetLine offset).drop 10 = textBytes " 00000 n \n" ∧ lineOffset (offsetLine offset) = offset := by
  have hlength := length_textBytes_tenDigits h
  have htake : (offsetLine offset).take 10 = textBytes (tenDigits offset) := by
    rw [offsetLine, List.take_left' hlength]
  have hdrop : (offsetLine offset).drop 10 = textBytes " 00000 n \n" := by
    rw [offsetLine, List.drop_left' hlength]
  refine ⟨?_, ?_, hdrop, ?_⟩
  · rw [offsetLine, List.length_append, hlength]
    rfl
  · rw [htake, textBytes_ascii (tenDigits_ascii offset)]
    intro b hb
    obtain ⟨c, hc, rfl⟩ := List.mem_map.mp hb
    obtain ⟨hlow, hhigh⟩ := isDigit_bounds (isDigit_of_mem_tenDigits hc)
    rw [isAsciiDigit, decide_eq_true_eq, UInt8.le_iff_toNat_le, UInt8.le_iff_toNat_le, Nat.toUInt8_eq,
      UInt8.toNat_ofNat', Nat.mod_eq_of_lt (by omega)]
    exact ⟨hlow, hhigh⟩
  · rw [lineOffset, htake, asciiText_textBytes (tenDigits_ascii offset), foldl_tenDigits]

/-! ## The table -/

/-- A line of a table whose lines have one width. -/
theorem take_drop_flatten {width index : ℕ} {line rest : List UInt8}
    (hwidth : ∀ line ∈ lines, line.length = width) (hline : lines[index]? = some line) :
    ((lines.flatten ++ rest).drop (width * index)).take width = line := by
  induction lines generalizing index with
  | nil => cases hline
  | cons first lines ih =>
    have hfirst := hwidth first List.mem_cons_self
    rw [List.flatten_cons, List.append_assoc]
    cases index with
    | zero =>
      rw [List.getElem?_cons_zero, Option.some.injEq] at hline
      rw [Nat.mul_zero, List.drop_zero, List.take_left' hfirst, hline]
    | succ index =>
      rw [List.getElem?_cons_succ] at hline
      rw [Nat.mul_succ, Nat.add_comm, ← List.drop_drop, List.drop_left' hfirst]
      exact ih (fun line hmem => hwidth line (List.mem_cons_of_mem _ hmem)) hline

theorem length_flatten_lines {width : ℕ} (hwidth : ∀ line ∈ lines, line.length = width) :
    lines.flatten.length = width * lines.length := by
  induction lines with
  | nil => rfl
  | cons first lines ih =>
    rw [List.flatten_cons, List.length_append, hwidth first List.mem_cons_self,
      ih fun line hmem => hwidth line (List.mem_cons_of_mem _ hmem), List.length_cons, Nat.mul_succ, Nat.add_comm]

/-! ## The objects -/

/-- What the loop has written: the file goes on, and each object stands at the offset that was noted for it. -/
structure Written (pdf : List UInt8) (index : ℕ) (objects : List String) (written : List UInt8) (offsets : List ℕ) :
    Prop where
  front : pdf <+: written
  length_eq : written.length = pdf.length + ((objects.zipIdx (index + 1)).map fun object =>
    (textBytes (objectText object.2 object.1)).length).sum
  count : offsets.length = objects.length
  placed : ∀ i object, objects[i]? = some object → ∃ offset, offsets[i]? = some offset ∧
    offset < written.length ∧ textBytes (objectText (index + i + 1) object) <+: written.drop offset

theorem textBytes_objectText (number : ℕ) (object : String) :
    textBytes (objectText number object) =
      textBytes s!"{number} 0 obj\n" ++ (textBytes object ++ textBytes "\nendobj\n") := by
  have hsplit : objectText number object = s!"{number} 0 obj\n" ++ (object ++ "\nendobj\n") := by
    rw [← String.append_assoc]
    rfl
  rw [hsplit, textBytes_append, textBytes_append object]

theorem objectText_ne_nil (number : ℕ) (object : String) : textBytes (objectText number object) ≠ [] := by
  rw [textBytes_objectText]
  exact List.append_ne_nil_of_right_ne_nil _ (List.append_ne_nil_of_right_ne_nil _ (by decide))

theorem writeObjects_spec (objects : List String) (index : ℕ) (pdf : List UInt8) (offsets : List ℕ) :
    ∃ written noted, writeObjects index objects pdf offsets = (written, offsets ++ noted) ∧
      Written pdf index objects written noted := by
  induction objects generalizing index pdf offsets with
  | nil =>
    refine ⟨pdf, [], by rw [writeObjects, List.append_nil], List.prefix_rfl, rfl, rfl, ?_⟩
    intro i object hobject
    cases hobject
  | cons object rest ih =>
    obtain ⟨written, noted, hrun, hwritten⟩ :=
      ih (index + 1) (pdf ++ textBytes (objectText (index + 1) object)) (offsets ++ [pdf.length])
    have hplaced : pdf ++ textBytes (objectText (index + 1) object) <+: written := hwritten.front
    refine ⟨written, pdf.length :: noted, ?_, (List.prefix_append _ _).trans hplaced, ?_, ?_, ?_⟩
    · rw [writeObjects, hrun, List.append_assoc]
      rfl
    · rw [hwritten.length_eq, List.zipIdx_cons, List.map_cons, List.sum_cons, List.length_append, Nat.add_assoc]
    · rw [List.length_cons, List.length_cons, hwritten.count]
    · intro i other hother
      cases i with
      | zero =>
        rw [List.getElem?_cons_zero, Option.some.injEq] at hother
        obtain ⟨tail, rfl⟩ := hplaced
        refine ⟨pdf.length, rfl, ?_, ?_⟩
        · have hpos := List.length_pos_iff.mpr (objectText_ne_nil (index + 1) object)
          simp only [List.length_append]
          omega
        · rw [← hother, List.append_assoc, List.drop_left]
          exact List.prefix_append _ _
      | succ i =>
        rw [List.getElem?_cons_succ] at hother
        obtain ⟨offset, hoffset, hlt, hstands⟩ := hwritten.placed i other hother
        refine ⟨offset, by rw [List.getElem?_cons_succ, hoffset], hlt, ?_⟩
        rw [show index + (i + 1) + 1 = index + 1 + i + 1 by omega]
        exact hstands

/-! ## The size of the file -/

section Size

variable {numbers}

theorem length_escapePdfText (text : String) : (escapePdfText text).length ≤ 2 * text.length := by
  rw [escapePdfText, String.length_ofList, ← String.length_toList]
  induction text.toList with
  | nil => rfl
  | cons c rest ih =>
    have hc : (escapeCharacter c).length ≤ 2 := by
      unfold escapeCharacter
      split
      · exact Nat.le_refl 2
      · exact Nat.le_succ 1
    rw [List.flatMap_cons, List.length_append, List.length_cons]
    omega

theorem length_graphics : (graphics numbers).length ≤ 4000 := by
  have hspaces : " ".length = 1 := by decide
  have hsave : "q\n".length = 2 := by decide
  have hmatrix : " cm\n/Gs0 gs\n0.5 g\nBT\n/F1 ".length = 25 := by decide
  have hfont : " Tf\n".length = 4 := by decide
  have hmove : "1 0 0 1 ".length = 8 := by decide
  have hshift : " Td\n".length = 4 := by decide
  have hcos := numbers.cos.short
  have hsin := numbers.sin.short
  have hnegSin := numbers.negSin.short
  have hcenterX := numbers.centerX.short
  have hcenterY := numbers.centerY.short
  have hfontSize := numbers.fontSize.short
  have hshiftX := numbers.shiftX.short
  have hshiftY := numbers.shiftY.short
  simp only [graphics, String.length_append, toString, hspaces, hsave, hmatrix, hfont, hmove, hshift]
  omega

theorem length_content (htext : text.length ≤ 80) : (content numbers text).length ≤ 4200 := by
  have hgraphics := @length_graphics numbers
  have hescaped := length_escapePdfText text
  have hopen : "(".length = 1 := by decide
  have hclose : ") Tj\nET\nQ\n".length = 10 := by decide
  rw [content, String.length_append, String.length_append, String.length_append, hopen, hclose]
  omega

theorem length_toString_le {n k : ℕ} (hk : 0 < k) (h : n < 10 ^ k) : (toString n).length ≤ k := by
  rw [← String.length_toList, toList_toString]
  exact (Nat.length_toDigits_le_iff (by decide) hk).mpr h

theorem length_objects (htext : text.length ≤ 80) {object : String} (h : object ∈ objects numbers text) :
    object.length ≤ 5000 := by
  have hcontent := @length_content numbers text htext
  have hbytes := length_textBytes_le (content numbers text)
  have hdigits : (toString (textBytes (content numbers text)).length).length ≤ 5 :=
    length_toString_le (by decide) (by omega)
  have hwidth := numbers.pageWidth.short
  have hheight := numbers.pageHeight.short
  have hspace : " ".length = 1 := by decide
  have hpage : "<< /Type /Page /Parent 2 0 R /MediaBox [0 0 ".length = 44 := by decide
  have hclose : "] ".length = 2 := by decide
  have hresources : "/Resources << /Font << /F1 5 0 R >> /ExtGState << /Gs0 6 0 R >> >> /Contents 4 0 R >>".length =
    85 := by decide
  have hlength : "<< /Length ".length = 11 := by decide
  have hstream : " >>\nstream\n".length = 11 := by decide
  have hendstream : "endstream".length = 9 := by decide
  simp only [objects, List.mem_cons, List.not_mem_nil, or_false] at h
  rcases h with rfl | rfl | rfl | rfl | rfl | rfl
  · decide
  · decide
  · simp only [String.length_append, toString, hspace, hpage, hclose, hresources]
    omega
  · simp only [String.length_append, toString] at hdigits ⊢
    simp only [hlength, hstream, hendstream]
    omega
  · decide
  · decide

theorem length_objectText {number : ℕ} (h : number < 10) (object : String) :
    (textBytes (objectText number object)).length ≤ 4 * (object.length + 16) := by
  have hnumber := @length_toString_le number 1 (by decide) h
  have hobj : " 0 obj\n".length = 7 := by decide
  have hend : "\nendobj\n".length = 8 := by decide
  refine (length_textBytes_le _).trans (Nat.mul_le_mul_left 4 ?_)
  simp only [objectText, String.length_append, toString, hobj, hend] at hnumber ⊢
  omega

/-- The offsets of the objects and of the table have ten digits at most. -/
theorem length_written (htext : text.length ≤ 80) {written : List UInt8} {noted : List ℕ}
    (h : Written fileHeader 0 (objects numbers text) written noted) : written.length < 10 ^ 10 := by
  have hheader : fileHeader.length = 15 := by decide
  have hterm : ∀ object ∈ objects numbers text, ∀ number < 10,
      (textBytes (objectText number object)).length ≤ 20064 := by
    intro object hobject number hnumber
    have hobject := length_objects htext hobject
    have hbytes := length_objectText hnumber object
    omega
  have hsum : (((objects numbers text).zipIdx 1).map fun object =>
      (textBytes (objectText object.2 object.1)).length).sum ≤ 6 * 20064 := by
    refine (List.sum_le_card_nsmul _ 20064 fun size hsize => ?_).trans (by rw [List.length_map, List.length_zipIdx]; rfl)
    obtain ⟨⟨object, number⟩, hmem, rfl⟩ := List.mem_map.mp hsize
    obtain ⟨-, hnumber, -⟩ := List.mem_zipIdx hmem
    exact hterm object (List.fst_mem_of_mem_zipIdx hmem) number (hnumber.trans (by show 1 + 6 < 10; omega))
  rw [h.length_eq, hheader, Nat.zero_add]
  omega

end Size

/-! ## The string that is shown -/

/-- ASCII without an opening parenthesis. -/
def Plain (text : String) : Prop := ∀ c ∈ text.toList, c ≠ '(' ∧ c.toNat < 0x80

theorem plain_append {a b : String} : Plain (a ++ b) ↔ Plain a ∧ Plain b := by
  unfold Plain
  rw [String.toList_append]
  exact List.forall_mem_append

theorem Formatted.isPlain (number : Formatted) : Plain number.text := by
  intro c hc
  rcases number.plain c hc with hdigit | rfl | rfl
  · have hbounds := isDigit_bounds hdigit
    refine ⟨?_, by omega⟩
    rintro rfl
    exact absurd hdigit (by decide)
  · decide
  · decide

theorem plain_graphics : Plain (graphics numbers) := by
  have hspace : Plain " " := List.forall_iff_forall_mem.mp (by decide)
  have hsave : Plain "q\n" := List.forall_iff_forall_mem.mp (by decide)
  have hmatrix : Plain " cm\n/Gs0 gs\n0.5 g\nBT\n/F1 " := List.forall_iff_forall_mem.mp (by decide)
  have hfont : Plain " Tf\n" := List.forall_iff_forall_mem.mp (by decide)
  have hmove : Plain "1 0 0 1 " := List.forall_iff_forall_mem.mp (by decide)
  have hshift : Plain " Td\n" := List.forall_iff_forall_mem.mp (by decide)
  simp only [graphics, toString, plain_append, hspace, hsave, hmatrix, hfont, hmove, hshift, Formatted.isPlain,
    and_self]

/-- The text of a watermark that a plan accepts: up to 80 printable ASCII characters. -/
structure Printable (text : String) : Prop where
  short : text.length ≤ 80
  printable : ∀ c ∈ text.toList, 0x20 ≤ c.toNat ∧ c.toNat ≤ 0x7E

/-- The escapes of a text are undone, and the closing parenthesis behind them ends the string. -/
theorem readLiteral_escapeCharacter {chars rest : List Char} (h : ∀ c ∈ chars, 0x20 ≤ c.toNat) :
    readLiteral .text 0 (chars.flatMap escapeCharacter ++ ')' :: rest) = some (chars.map Char.toNat, rest) := by
  induction chars with
  | nil => rfl
  | cons c chars ih =>
    have hrest := ih fun d hd => h d (List.mem_cons_of_mem _ hd)
    rw [List.flatMap_cons, List.append_assoc, escapeCharacter]
    by_cases hspecial : c = '(' ∨ c = ')' ∨ c = '\\'
    · have hmem : c ∈ ['\\', '(', ')'] := by
        simp only [List.mem_cons, List.not_mem_nil, or_false]
        tauto
      rw [if_pos hspecial, List.cons_append, List.cons_append, List.nil_append, readLiteral_escaped hmem, hrest]
      rfl
    · have hmem : c ∉ ['\\', '(', ')', '\r'] := by
        have hreturn : c ≠ '\r' := by
          rintro rfl
          exact absurd (h _ List.mem_cons_self) (by decide)
        simp only [List.mem_cons, List.not_mem_nil, or_false]
        tauto
      rw [if_neg hspecial, List.cons_append, List.nil_append, readLiteral_plain hmem, hrest]
      rfl

theorem escapePdfText_ascii (h : Printable text) :
    ∀ c ∈ (escapePdfText text).toList, c.toNat < 0x80 := by
  intro c hc
  rw [escapePdfText, String.toList_ofList] at hc
  obtain ⟨d, hd, hc⟩ := List.mem_flatMap.mp hc
  have hbounds := h.printable d hd
  unfold escapeCharacter at hc
  split at hc
  · rcases List.mem_cons.mp hc with rfl | hc
    · decide
    · rw [List.mem_singleton.mp hc]
      omega
  · rw [List.mem_singleton.mp hc]
    omega

theorem content_ascii (h : Printable text) : ∀ c ∈ (content numbers text).toList, c.toNat < 0x80 := by
  have hclose : ∀ c ∈ ") Tj\nET\nQ\n".toList, c.toNat < 0x80 := List.forall_iff_forall_mem.mp (by decide)
  have hopen : ∀ c ∈ "(".toList, c.toNat < 0x80 := List.forall_iff_forall_mem.mp (by decide)
  intro c hc
  rw [content, String.toList_append, String.toList_append, String.toList_append, List.mem_append, List.mem_append,
    List.mem_append] at hc
  rcases hc with (hgraphics | hc) | hc | hc
  · exact (plain_graphics numbers c hgraphics).2
  · exact hopen c hc
  · exact escapePdfText_ascii h c hc
  · exact hclose c hc

/-- **The stream shows the text of the watermark.** -/
theorem shownText_content (h : Printable text) :
    shownText (textBytes (content numbers text)) = some text := by
  have hchars : (content numbers text).toList =
      (graphics numbers).toList ++ '(' :: (text.toList.flatMap escapeCharacter ++
        ')' :: " Tj\nET\nQ\n".toList) := by
    rw [content, String.toList_append, String.toList_append, String.toList_append, escapePdfText, String.toList_ofList,
      List.append_assoc, String.toList_ofList]
    rfl
  have hdrop : (asciiText (textBytes (content numbers text))).dropWhile (· ≠ '(') =
      '(' :: (text.toList.flatMap escapeCharacter ++ ')' :: " Tj\nET\nQ\n".toList) := by
    rw [asciiText_textBytes (content_ascii numbers h), hchars, List.dropWhile_append_of_pos, List.dropWhile_cons_of_neg]
    · simp
    · intro c hc
      exact decide_eq_true (plain_graphics numbers c hc).1
  have hcodes : (text.toList.map Char.toNat).map Char.ofNat = text.toList := by
    rw [List.map_map]
    exact (List.map_congr_left fun c _ => Char.ofNat_toNat c).trans (List.map_id _)
  rw [shownText, hdrop, List.tail_cons, readLiteral_escapeCharacter fun c hc => (h.printable c hc).1, Option.bind_some]
  dsimp only
  rw [if_pos ⟨"\nET\nQ\n".toList, rfl⟩, hcodes, String.ofList_toList]

/-! ## The file -/

/-- A line of the table of a file. -/
theorem xrefLine_eq {written head rest line : List UInt8} {index : ℕ}
    (hhead : head.length = 9) (hwidth : ∀ line ∈ lines, line.length = 20) (hline : lines[index]? = some line) :
    xrefLine (written ++ (head ++ (lines.flatten ++ rest))) written.length index = line := by
  have hfront : (written ++ head).length = written.length + 9 := by rw [List.length_append, hhead]
  rw [xrefLine, ← List.drop_drop, ← List.append_assoc, List.drop_left' hfront]
  exact take_drop_flatten hwidth hline

section File

variable {numbers} {written tail : List UInt8} {noted : List ℕ}

theorem Written.offset (h : Written fileHeader 0 (objects numbers text) written noted) {number : ℕ}
    (hpos : 1 ≤ number) (hcount : number ≤ 6) :
    ∃ object offset, (objects numbers text)[number - 1]? = some object ∧ noted[number - 1]? = some offset ∧
      offset < written.length ∧ textBytes (objectText number object) <+: (written ++ tail).drop offset := by
  have hlt : number - 1 < (objects numbers text).length := by
    show number - 1 < 6
    omega
  obtain ⟨offset, hoffset, hbound, hstands⟩ := h.placed (number - 1) _ (List.getElem?_eq_getElem hlt)
  refine ⟨_, offset, List.getElem?_eq_getElem hlt, hoffset, hbound, ?_⟩
  rw [show 0 + (number - 1) + 1 = number by omega] at hstands
  rw [List.drop_append_of_le_length hbound.le]
  exact hstands.trans (List.prefix_append _ _)

theorem Written.offset_lt (h : Written fileHeader 0 (objects numbers text) written noted) {offset : ℕ}
    (hmem : offset ∈ noted) : offset < written.length := by
  obtain ⟨i, hi⟩ := List.mem_iff_getElem?.mp hmem
  have hlt : i < noted.length := (List.getElem?_eq_some_iff.mp hi).1
  rw [h.count] at hlt
  obtain ⟨other, hother, hbound, -⟩ := h.placed i _ (List.getElem?_eq_getElem hlt)
  rw [hi, Option.some.injEq] at hother
  exact hother ▸ hbound

/-- The lines of the table have 20 bytes. -/
theorem Written.line_length (h : Written fileHeader 0 (objects numbers text) written noted)
    (htext : text.length ≤ 80) : ∀ line ∈ freeLine :: noted.map offsetLine, line.length = 20 := by
  have hwritten := length_written htext h
  intro line hline
  rcases List.mem_cons.mp hline with rfl | hline
  · decide
  · obtain ⟨offset, hoffset, rfl⟩ := List.mem_map.mp hline
    exact (offsetLine_spec ((h.offset_lt hoffset).trans hwritten)).1

end File

/-- **The overlay is well formed.** Its offsets, the length of its stream and the string that it shows are what a
    reader expects, whatever parentheses and backslashes stand in the text. -/
theorem watermark_well_formed (text : String) (h : Printable text) :
    WellFormed (buildWatermarkPdf numbers text) text := by
  obtain ⟨written, noted, hrun, hwritten⟩ := writeObjects_spec (objects numbers text) 0 fileHeader []
  let trailer := s!"trailer\n<< /Size {6 + 1} /Root 1 0 R >>\n"
  let ending := s!"startxref\n{written.length}\n%%EOF\n"
  let lines := freeLine :: noted.map offsetLine
  have hbuild : buildWatermarkPdf numbers text =
      written ++ (textBytes s!"xref\n0 {6 + 1}\n" ++ (lines.flatten ++ (textBytes trailer ++ textBytes ending))) := by
    have hcount : (objects numbers text).length = 6 := rfl
    unfold buildWatermarkPdf
    dsimp only
    rw [hrun, hcount, ← textBytes_append trailer, ← List.append_assoc, ← List.append_assoc]
    rfl
  have hlengths : ∀ line ∈ lines, line.length = 20 := hwritten.line_length h.short
  have hhead : (textBytes s!"xref\n0 {6 + 1}\n").length = 9 := by decide
  have hline : ∀ index line, lines[index]? = some line →
      xrefLine (buildWatermarkPdf numbers text) written.length index = line := by
    intro index line hline
    rw [hbuild]
    exact xrefLine_eq hhead hlengths hline
  have hoffset : ∀ number, 1 ≤ number → number ≤ 6 → ∃ object offset,
      (objects numbers text)[number - 1]? = some object ∧ offset < 10 ^ 10 ∧
      xrefLine (buildWatermarkPdf numbers text) written.length number = offsetLine offset ∧
      textBytes (objectText number object) <+: (buildWatermarkPdf numbers text).drop offset := by
    intro number hpos hcount
    obtain ⟨object, offset, hobject, hnoted, hbound, hstands⟩ := hwritten.offset hpos hcount
    refine ⟨object, offset, hobject, hbound.trans (length_written h.short hwritten), ?_, hbuild ▸ hstands⟩
    apply hline
    show (freeLine :: noted.map offsetLine)[number]? = some (offsetLine offset)
    rw [show number = number - 1 + 1 by omega, List.getElem?_cons_succ, List.getElem?_map, hnoted]
    rfl
  refine ⟨written.length, ⟨?_, ?_, ?_, ?_, ?_⟩, ?_⟩
  · rw [hbuild, ← List.append_assoc, ← List.append_assoc, ← List.append_assoc]
    exact List.suffix_append _ _
  · rw [StandsAt, hbuild, List.drop_left]
    exact List.prefix_append _ _
  · exact hline 0 freeLine rfl
  · intro number hpos hcount
    obtain ⟨object, offset, -, hbound, hxref, hstands⟩ := hoffset number hpos hcount
    obtain ⟨hlength, hdigits, hrest, hvalue⟩ := offsetLine_spec hbound
    rw [objectOffset, hxref]
    refine ⟨hlength, hdigits, hrest, ?_⟩
    rw [StandsAt, hvalue]
    rw [textBytes_objectText] at hstands
    exact (List.prefix_append _ _).trans hstands
  · have hflat : lines.flatten.length = 20 * (6 + 1) := by
      rw [length_flatten_lines hlengths, List.length_cons, List.length_map, hwritten.count]
      rfl
    have hfront : (written ++ textBytes s!"xref\n0 {6 + 1}\n" ++ lines.flatten).length =
        written.length + 9 + 20 * (6 + 1) := by
      rw [List.length_append, List.length_append, hhead, hflat]
    rw [StandsAt, hbuild, ← List.append_assoc, ← List.append_assoc, List.drop_left' hfront]
    exact List.prefix_append _ _
  · obtain ⟨object, offset, hobject, hbound, hxref, rest, hstands⟩ := hoffset 4 (by decide) (by decide)
    refine ⟨textBytes (content numbers text), rest, ?_, shownText_content numbers h⟩
    have hstream : object = s!"<< /Length {(textBytes (content numbers text)).length} >>\nstream\n" ++
        (content numbers text ++ "endstream") := by
      rw [← Option.some.inj hobject, ← String.append_assoc]
      rfl
    have hfront : ∀ length : String, ("4 0 obj\n<< /Length " ++ length ++ " >>\nstream\n") =
        "4 0 obj\n" ++ ("<< /Length " ++ length ++ " >>\nstream\n") := by
      intro length
      rw [← String.append_assoc, ← String.append_assoc]
      rfl
    have hback : textBytes "endstream\nendobj\n" = textBytes "endstream" ++ textBytes "\nendobj\n" := by decide
    rw [objectOffset, hxref, (offsetLine_spec hbound).2.2.2, ← hstands, hstream, textBytes_objectText]
    simp only [toString, hfront, hback, textBytes_append, List.append_assoc]
    rfl

namespace WatermarkSample

def quarter : Formatted := ⟨"0.70711", by decide, List.forall_iff_forall_mem.mp (by decide), by decide⟩

def minusQuarter : Formatted := ⟨"-0.70711", by decide, List.forall_iff_forall_mem.mp (by decide), by decide⟩

/-- A page of 612 by 792 points, an angle of -45 degrees, and five characters. -/
def letterNumbers : OverlayNumbers where
  cos := quarter
  sin := minusQuarter
  negSin := quarter
  centerX := ⟨"306.00", by decide, List.forall_iff_forall_mem.mp (by decide), by decide⟩
  centerY := ⟨"396.00", by decide, List.forall_iff_forall_mem.mp (by decide), by decide⟩
  fontSize := ⟨"36", by decide, List.forall_iff_forall_mem.mp (by decide), by decide⟩
  shiftX := ⟨"-52.20", by decide, List.forall_iff_forall_mem.mp (by decide), by decide⟩
  shiftY := ⟨"-12.60", by decide, List.forall_iff_forall_mem.mp (by decide), by decide⟩
  pageWidth := ⟨"612.00", by decide, List.forall_iff_forall_mem.mp (by decide), by decide⟩
  pageHeight := ⟨"792.00", by decide, List.forall_iff_forall_mem.mp (by decide), by decide⟩

/-- Parentheses that do not match, and a backslash at the end. -/
theorem watermark_well_formed_unbalanced :
    WellFormed (buildWatermarkPdf letterNumbers ")((a\\") ")((a\\" :=
  watermark_well_formed letterNumbers ")((a\\" ⟨by decide, List.forall_iff_forall_mem.mp (by decide)⟩

end WatermarkSample

end Anole.Watermark
