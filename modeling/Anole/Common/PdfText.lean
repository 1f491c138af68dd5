import Mathlib.Data.List.Basic
import Mathlib.Data.Nat.Notation

/-!
# Strings in PDF files

Reading a literal string of a PDF file, character by character: `readLiteral` takes what follows
the opening parenthesis, undoes the escapes and stops at the parenthesis that closes it. The bytes
of a text string are in UTF-16BE when they begin with its byte-order mark, and else in
PDFDocEncoding (`decodeText`).

Results used by callers:

* `readLiteral_octal`: three octal digits are one byte;
* `decodeUnits_cons`: a character of the basic plane is decoded from its own unit;
* `mapM_length`: PDFDocEncoding has a byte for each character.
-/

namespace Anole.Common

/-! ## Literal strings -/

/-- What the characters that were read are the beginning of. An octal escape keeps how many
    digits it has, and their value. -/
inductive LiteralMode where
  | text
  | afterReturn
  | escape
  | octal (count value : ℕ)

/-- What a character does: it closes the string, or the string goes on; either way after some
    bytes. -/
inductive LiteralStep where
  | close (bytes : List ℕ)
  | next (bytes : List ℕ) (mode : LiteralMode) (depth : ℕ)

def LiteralStep.after (byte : ℕ) : LiteralStep → LiteralStep
  | close bytes => close (byte :: bytes)
  | next bytes mode depth => next (byte :: bytes) mode depth

def isOctalDigit (c : Char) : Bool := '0' ≤ c && c ≤ '7'

def octalValue (c : Char) : ℕ := c.toNat - '0'.toNat

/-- A character outside of an escape; `depth` parentheses are open inside the string. A line ends
    in one line feed however it is written. -/
def textStep (depth : ℕ) (c : Char) : LiteralStep :=
  if c = '\\' then .next [] .escape depth
  else if c = '(' then .next [c.toNat] .text (depth + 1)
  else if c = ')' then if depth = 0 then .close [] else .next [c.toNat] .text (depth - 1)
  else if c = '\r' then .next ['\n'.toNat] .afterReturn depth
  else .next [c.toNat] .text depth

/-- The character after a backslash, if it is no octal digit. A line end is dropped. -/
def escapeStep (depth : ℕ) (c : Char) : LiteralStep :=
  match c with
  | 'n' => .next [0x0A] .text depth
  | 'r' => .next [0x0D] .text depth
  | 't' => .next [0x09] .text depth
  | 'b' => .next [0x08] .text depth
  | 'f' => .next [0x0C] .text depth
  | '\n' => .next [] .text depth
  | '\r' => .next [] .afterReturn depth
  | c => .next [c.toNat] .text depth

def literalStep (mode : LiteralMode) (depth : ℕ) (c : Char) : LiteralStep :=
  match mode with
  | .text => textStep depth c
  | .afterReturn => if c = '\n' then .next [] .text depth else textStep depth c
  | .escape =>
    if isOctalDigit c then .next [] (.octal 1 (octalValue c)) depth else escapeStep depth c
  | .octal count value =>
    if isOctalDigit c ∧ count < 3 then .next [] (.octal (count + 1) (8 * value + octalValue c)) depth
    else (textStep depth c).after (value % 256)

/-- The bytes of a literal string and what follows it; none if it is not closed. -/
def readLiteral : LiteralMode → ℕ → List Char → Option (List ℕ × List Char)
  | _, _, [] => none
  | mode, depth, c :: rest =>
    match literalStep mode depth c with
    | .close bytes => some (bytes, rest)
    | .next bytes mode depth => (readLiteral mode depth rest).map (Prod.map (bytes ++ ·) id)

section Literal

variable {depth value : ℕ} {c : Char} {rest : List Char}

theorem map_nil_append (read : Option (List ℕ × List Char)) :
    read.map (Prod.map (([] : List ℕ) ++ ·) id) = read := by
  cases read <;> rfl

/-- A character that stands for itself. -/
theorem readLiteral_plain (h : c ∉ ['\\', '(', ')', '\r']) :
    readLiteral .text depth (c :: rest) =
      (readLiteral .text depth rest).map (Prod.map ([c.toNat] ++ ·) id) := by
  simp only [List.mem_cons, List.not_mem_nil, or_false, not_or] at h
  obtain ⟨hescape, hopen, hclose, hreturn⟩ := h
  rw [readLiteral, literalStep, textStep, if_neg hescape, if_neg hopen, if_neg hclose, if_neg hreturn]

/-- An escaped backslash or parenthesis. -/
theorem readLiteral_escaped (h : c ∈ ['\\', '(', ')']) :
    readLiteral .text depth ('\\' :: c :: rest) =
      (readLiteral .text depth rest).map (Prod.map ([c.toNat] ++ ·) id) := by
  have hstep : literalStep .escape depth c = .next [c.toNat] .text depth := by
    simp only [List.mem_cons, List.not_mem_nil, or_false] at h
    rcases h with rfl | rfl | rfl <;> rfl
  rw [readLiteral, show literalStep .text depth '\\' = .next [] .escape depth from rfl]
  dsimp only
  rw [map_nil_append, readLiteral, hstep]

/-- After three digits the byte is complete. -/
theorem readLiteral_complete :
    readLiteral (.octal 3 value) depth rest =
      (readLiteral .text depth rest).map (Prod.map ([value % 256] ++ ·) id) := by
  cases rest with
  | nil => rfl
  | cons c rest =>
    rw [readLiteral, readLiteral, literalStep, literalStep, if_neg (by simp)]
    cases textStep depth c with
    | close bytes => rfl
    | next bytes mode depth =>
      dsimp only [LiteralStep.after]
      rw [Option.map_map]
      rfl

/-- Three octal digits are one byte. -/
theorem readLiteral_octal {a b d : Char} (ha : isOctalDigit a) (hb : isOctalDigit b)
    (hd : isOctalDigit d) :
    readLiteral .text depth ('\\' :: a :: b :: d :: rest) =
      (readLiteral .text depth rest).map
        (Prod.map ([(8 * (8 * octalValue a + octalValue b) + octalValue d) % 256] ++ ·) id) := by
  rw [readLiteral, show literalStep .text depth '\\' = .next [] .escape depth from rfl]
  dsimp only
  rw [map_nil_append, readLiteral, literalStep, if_pos ha]
  dsimp only
  rw [map_nil_append, readLiteral, literalStep, if_pos ⟨hb, by decide⟩]
  dsimp only
  rw [map_nil_append, readLiteral, literalStep, if_pos ⟨hd, by decide⟩]
  dsimp only
  rw [map_nil_append, readLiteral_complete]

end Literal

/-! ## Text strings -/

/-- PDFDocEncoding: the code point of a byte, if it has one. -/
def pdfDocCode (byte : ℕ) : Option ℕ :=
  if byte < 0x18 then if byte ∈ [0x09, 0x0A, 0x0D] then some byte else none
  else if byte < 0x20 then
    [0x02D8, 0x02C7, 0x02C6, 0x02D9, 0x02DD, 0x02DB, 0x02DA, 0x02DC][byte - 0x18]?
  else if byte < 0x7F then some byte
  else if byte < 0x80 then none
  else if byte < 0xA1 then
    [some 0x2022, some 0x2020, some 0x2021, some 0x2026, some 0x2014, some 0x2013, some 0x0192,
      some 0x2044, some 0x2039, some 0x203A, some 0x2212, some 0x2030, some 0x201E, some 0x201C,
      some 0x201D, some 0x2018, some 0x2019, some 0x201A, some 0x2122, some 0xFB01, some 0xFB02,
      some 0x0141, some 0x0152, some 0x0160, some 0x0178, some 0x017D, some 0x0131, some 0x0142,
      some 0x0153, some 0x0161, some 0x017E, none, some 0x20AC].getD (byte - 0x80) none
  else if byte = 0xAD then none
  else if byte < 0x100 then some byte
  else none

def pdfDocChar (byte : ℕ) : Option Char := (pdfDocCode byte).map Char.ofNat

/-- The units of 16 bits, the high byte first. -/
def utf16Units : List ℕ → Option (List ℕ)
  | [] => some []
  | [_] => none
  | high :: low :: rest => (utf16Units rest).map ((256 * high + low) :: ·)

/-- UTF-16, with a pair of surrogates for a character outside of the basic plane. -/
def decodeUnits : List ℕ → Option (List Char)
  | [] => some []
  | [unit] => if unit < 0xD800 ∨ 0xE000 ≤ unit then some [Char.ofNat unit] else none
  | unit :: low :: rest =>
    if unit < 0xD800 ∨ 0xE000 ≤ unit then (decodeUnits (low :: rest)).map (Char.ofNat unit :: ·)
    else if unit < 0xDC00 ∧ 0xDC00 ≤ low ∧ low < 0xE000 then
      (decodeUnits rest).map
        (Char.ofNat (0x10000 + 0x400 * (unit - 0xD800) + (low - 0xDC00)) :: ·)
    else none

/-- The characters of a text string. -/
def decodeText : List ℕ → Option (List Char)
  | 0xFE :: 0xFF :: bytes => (utf16Units bytes).bind decodeUnits
  | bytes => bytes.mapM pdfDocChar

theorem mapM_length {α β : Type} {f : α → Option β} {items : List α} {results : List β}
    (h : items.mapM f = some results) : results.length = items.length := by
  induction items generalizing results with
  | nil =>
    have hnil : [] = results := Option.some.inj h
    rw [← hnil, List.length_nil, List.length_nil]
  | cons item items ih =>
    rw [List.mapM_cons] at h
    obtain ⟨result, -, h⟩ := Option.bind_eq_some_iff.mp h
    obtain ⟨more, hmore, h⟩ := Option.bind_eq_some_iff.mp h
    rw [← Option.some.inj h, List.length_cons, List.length_cons, ih hmore]

theorem toNat_ofNat {unit : ℕ} (h : unit.isValidChar) : (Char.ofNat unit).toNat = unit := by
  rw [Char.ofNat, dif_pos h]
  rfl

/-- A character of the basic plane is decoded from its own unit. -/
theorem decodeUnits_cons {units : List ℕ} {c : Char} {chars : List Char}
    (h : decodeUnits units = some (c :: chars)) (hunits : ∀ unit ∈ units, unit < 0x10000)
    (hc : c.toNat < 0xD800) :
    ∃ rest, units = c.toNat :: rest ∧ decodeUnits rest = some chars := by
  match units with
  | [] => exact absurd h (by simp [decodeUnits])
  | [unit] =>
    have hunit := hunits unit (by simp)
    rw [decodeUnits] at h
    split_ifs at h with hplane
    obtain ⟨rfl, rfl⟩ := List.cons.inj (Option.some.inj h)
    rw [toNat_ofNat (by unfold Nat.isValidChar; omega)]
    exact ⟨[], rfl, rfl⟩
  | unit :: low :: rest =>
    have hunit := hunits unit (by simp)
    rw [decodeUnits] at h
    split_ifs at h with hplane hpair
    · obtain ⟨more, hmore, hcons⟩ := Option.map_eq_some_iff.mp h
      obtain ⟨rfl, rfl⟩ := List.cons.inj hcons
      rw [toNat_ofNat (by unfold Nat.isValidChar; omega)]
      exact ⟨low :: rest, rfl, hmore⟩
    · -- A pair of surrogates is a character outside of the basic plane.
      obtain ⟨more, hmore, hcons⟩ := Option.map_eq_some_iff.mp h
      obtain ⟨rfl, -⟩ := List.cons.inj hcons
      rw [toNat_ofNat (by unfold Nat.isValidChar; omega)] at hc
      omega

end Anole.Common
