import Anole.Common.PdfText
import Anole.Media.Validation
import Anole.Planning.PdfCommand

/-!
# The title and the author of a PDF

Model of the texts that `apply_pdf_metadata` writes (`crates/core/src/pdf.rs`, lines 1825–1850 and
1920–1938), of how a reader of PDF files gets them back, and of `append_metadata_checks` (lines
1959–1990).

Main result:

* `metadata_survives_iff`: the title and the author of a plan can be read back from what is
  written exactly if they are texts of the characters that PDFDocEncoding has at their own code
  points, and do not begin with `þÿ`.

**Deviation.** `escape_pdf_string` writes code points, in three octal digits or more, where its
comment promises the bytes.
-/

open Common Anole.Common
open Anole.Media (ValidationCheck worst)

namespace Anole.Planning

/-! ## What is written -/

/-- `{:03o}`. -/
def octal (n : ℕ) : List Char :=
  List.replicate (3 - (Nat.toDigits 8 n).length) '0' ++ Nat.toDigits 8 n

def escapeChar (c : Char) : List Char :=
  if c ∈ ['\\', '(', ')'] then ['\\', c]
  else if ' ' ≤ c ∧ c ≤ '\x7F' then [c]
  else '\\' :: octal c.toNat

/-- `escape_pdf_string` (lines 1920–1938). -/
def escapePdfString (text : String) : String := String.ofList (text.toList.flatMap escapeChar)

/-- An entry of the information dictionary (lines 1826–1835), if there is a text. -/
def infoEntry (key : String) (text : Option String) : String :=
  match (text.map trim).filter fun value => value ≠ "" with
  | some value => "/" ++ key ++ " (" ++ escapePdfString value ++ ") "
  | none => ""

/-- `info_entries` (lines 1825–1835). -/
def infoEntries (title author : Option String) : String :=
  infoEntry "Title" title ++ infoEntry "Author" author

/-! ## What is read -/

/-- The entries of a dictionary whose values are literal strings. -/
def readEntries : ℕ → List Char → Option (List (String × List ℕ))
  | 0, _ => none
  | _ + 1, [] => some []
  | fuel + 1, ' ' :: rest => readEntries fuel rest
  | fuel + 1, '/' :: entry =>
    match entry.dropWhile (· ≠ ' ') with
    | ' ' :: '(' :: literal => do
      let (bytes, rest) ← readLiteral .text 0 literal
      let entries ← readEntries fuel rest
      pure ((String.ofList (entry.takeWhile (· ≠ ' ')), bytes) :: entries)
    | _ => none
  | _, _ => none

/-- The text of an entry, as a reader decodes it. -/
def readText (key : String) (entries : String) : Option String := do
  let entries ← readEntries (entries.toList.length + 1) entries.toList
  let bytes ← entries.lookup key
  let chars ← decodeText bytes
  pure (String.ofList chars)

/-- The title and the author that are read from what the step of a plan writes
    (`run_pdf_metadata`, `runner.rs`, lines 3275–3298). -/
def observedText (step : PlanStep) (key : String) : Option String :=
  readText key (infoEntries (step.arguments.lookup "metadata_title")
    (step.arguments.lookup "metadata_author"))

/-- The status and the checks of a `ValidationReport`. -/
structure CheckedReport where
  status : ValidationStatus
  checks : List ValidationCheck

/-- The check of a field that the plan sets. -/
def metadataCheck (code expected : String) (observed : Option String) : ValidationCheck where
  code := code
  status := if observed.any fun value => trim value = trim expected then .pass else .fail
  required := true
  expected := .string expected
  observed := .ofOption .string observed
  evidence := "Poppler pdfinfo"
  message := "pdfinfo must report the metadata value the Plan set."

/-- The body of the loop of `append_metadata_checks`. -/
def appendMetadataCheck (plan : Plan) (report : CheckedReport)
    (field : String × String × Option String) : CheckedReport :=
  match plan.steps.head?.bind fun step => step.arguments.lookup field.2.1 with
  | none => report
  | some expected =>
    let check := metadataCheck field.1 expected field.2.2
    ⟨worst report.status check.status, report.checks ++ [check]⟩

/-- `append_metadata_checks` (lines 1959–1990). -/
def appendMetadataChecks (report : CheckedReport) (plan : Plan)
    (observedTitle observedAuthor : Option String) : CheckedReport :=
  [("PDF_METADATA_TITLE", "metadata_title", observedTitle),
    ("PDF_METADATA_AUTHOR", "metadata_author", observedAuthor)].foldl (appendMetadataCheck plan) report

/-! ## Escapes -/

theorem isOctalDigit_digitChar : ∀ k < 8, isOctalDigit k.digitChar ∧ octalValue k.digitChar = k := by
  decide

variable {c : Char} {chars : List Char}

theorem isOctalDigit_of_mem_toDigits {n : ℕ} (h : c ∈ Nat.toDigits 8 n) :
    isOctalDigit c := by
  induction n using Nat.strongRecOn with
  | ind n ih =>
    rw [Nat.toDigits_eq_if (by decide)] at h
    split_ifs at h with hn
    · rw [List.mem_singleton.mp h]
      exact (isOctalDigit_digitChar n hn).1
    · rcases List.mem_append.mp h with h | h
      · exact ih _ (Nat.div_lt_self (by omega) (by decide)) h
      · rw [List.mem_singleton.mp h]
        exact (isOctalDigit_digitChar _ (Nat.mod_lt _ (by decide))).1

theorem isOctalDigit_of_mem_octal {n : ℕ} (h : c ∈ octal n) : isOctalDigit c := by
  rcases List.mem_append.mp h with h | h
  · rw [(List.mem_replicate.mp h).2]
    decide
  · exact isOctalDigit_of_mem_toDigits h

/-- Three digits are enough below 512. -/
theorem octal_of_lt {n : ℕ} (h : n < 512) :
    octal n = [(n / 64).digitChar, (n / 8 % 8).digitChar, (n % 8).digitChar] := by
  have hzero : (0 : ℕ).digitChar = '0' := rfl
  rw [octal, Nat.toDigits_eq_if (by decide)]
  split_ifs with hone
  · rw [show n / 64 = 0 by omega, show n / 8 % 8 = 0 by omega, Nat.mod_eq_of_lt hone, hzero]
    rfl
  · rw [Nat.toDigits_eq_if (by decide)]
    split_ifs with htwo
    · rw [show n / 64 = 0 by omega, Nat.mod_eq_of_lt htwo, hzero]
      rfl
    · rw [Nat.toDigits_of_lt_base (by omega), Nat.div_div_eq_div_mul]
      rfl

theorem length_octal {n : ℕ} (h : 512 ≤ n) : 4 ≤ (octal n).length := by
  have hlen : ¬ (Nat.toDigits 8 n).length ≤ 3 := by
    rw [Nat.length_toDigits_le_iff (by decide) (by decide)]
    omega
  rw [octal, List.length_append]
  omega

/-- There are three digits at least. -/
theorem exists_octal (n : ℕ) : ∃ a b d more, octal n = a :: b :: d :: more := by
  have hlen : 3 ≤ (octal n).length := by
    rw [octal, List.length_append, List.length_replicate]
    omega
  match h : octal n, hlen with
  | a :: b :: d :: more, _ => exact ⟨a, b, d, more, rfl⟩

/-- The bytes that a reader gets for a character. -/
def literalBytes (c : Char) : List ℕ :=
  if c ∈ ['\\', '(', ')'] ∨ (' ' ≤ c ∧ c ≤ '\x7F') then [c.toNat]
  else
    match octal c.toNat with
    | a :: b :: d :: rest =>
      (8 * (8 * octalValue a + octalValue b) + octalValue d) % 256 :: rest.map Char.toNat
    | _ => []

section Read

variable {depth : ℕ} {rest : List Char}

theorem readLiteral_plains {chars : List Char} (h : ∀ c ∈ chars, c ∉ ['\\', '(', ')', '\r']) :
    readLiteral .text depth (chars ++ rest) =
      (readLiteral .text depth rest).map (Prod.map (chars.map Char.toNat ++ ·) id) := by
  induction chars with
  | nil => rw [List.nil_append, List.map_nil, map_nil_append]
  | cons c chars ih =>
    rw [List.cons_append, readLiteral_plain (h c (by simp)),
      ih fun other hother => h other (List.mem_cons_of_mem _ hother), Option.map_map]
    rfl

theorem not_mem_of_isOctalDigit {c : Char} (h : isOctalDigit c) : c ∉ ['\\', '(', ')', '\r'] := by
  intro hmem
  simp only [List.mem_cons, List.not_mem_nil, or_false] at hmem
  rcases hmem with rfl | rfl | rfl | rfl <;> exact absurd h (by decide)

theorem readLiteral_escapeChar {c : Char} :
    readLiteral .text depth (escapeChar c ++ rest) =
      (readLiteral .text depth rest).map (Prod.map (literalBytes c ++ ·) id) := by
  by_cases hspecial : c ∈ ['\\', '(', ')']
  · rw [escapeChar, if_pos hspecial, literalBytes, if_pos (.inl hspecial)]
    exact readLiteral_escaped hspecial
  · rw [escapeChar, if_neg hspecial, literalBytes]
    split_ifs with hplain hor hor
    · refine readLiteral_plain fun hmem => ?_
      simp only [List.mem_cons, List.not_mem_nil, or_false] at hmem hspecial
      rcases hmem with h | h | h | rfl
      · exact hspecial (.inl h)
      · exact hspecial (.inr (.inl h))
      · exact hspecial (.inr (.inr h))
      · exact absurd hplain (by decide)
    · exact absurd (.inr hplain) hor
    · exact absurd (hor.resolve_left hspecial) hplain
    · have hdigits : ∀ d ∈ octal c.toNat, isOctalDigit d := fun d => isOctalDigit_of_mem_octal
      obtain ⟨a, b, d, more, hoctal⟩ := exists_octal c.toNat
      rw [hoctal] at hdigits ⊢
      rw [List.cons_append, List.cons_append, List.cons_append, List.cons_append,
        readLiteral_octal (hdigits a (by simp)) (hdigits b (by simp)) (hdigits d (by simp)),
        readLiteral_plains fun e he => not_mem_of_isOctalDigit (hdigits e (by simp [he])),
        Option.map_map]
      rfl

/-- The literal that is written ends where it should, and has these bytes. -/
theorem readLiteral_escape {chars : List Char} :
    readLiteral .text 0 (chars.flatMap escapeChar ++ ')' :: rest) =
      some (chars.flatMap literalBytes, rest) := by
  induction chars with
  | nil => rfl
  | cons c chars ih =>
    rw [List.flatMap_cons, List.append_assoc, readLiteral_escapeChar, ih]
    rfl

end Read

/-! ## Bytes of a character -/

theorem isOctalDigit_bounds (h : isOctalDigit c) : 0x30 ≤ c.toNat ∧ c.toNat ≤ 0x37 := by
  rw [isOctalDigit, Bool.and_eq_true, decide_eq_true_eq, decide_eq_true_eq] at h
  exact h

/-- Below U+0200 the byte is the code point, or what is left of it. -/
theorem literalBytes_of_lt (h : c.toNat < 0x200) : literalBytes c = [c.toNat % 256] := by
  rw [literalBytes]
  split_ifs with hplain
  · have hle : c.toNat ≤ 0x7F := by
      rcases hplain with hspecial | hplain
      · simp only [List.mem_cons, List.not_mem_nil, or_false] at hspecial
        rcases hspecial with rfl | rfl | rfl <;> decide
      · exact hplain.2
    rw [Nat.mod_eq_of_lt (by omega)]
  · have hvalue (k : ℕ) (hk : k < 8) : octalValue k.digitChar = k := (isOctalDigit_digitChar k hk).2
    rw [octal_of_lt h]
    dsimp only
    rw [hvalue _ (by omega), hvalue _ (by omega), hvalue _ (by omega), List.map_nil]
    congr 1
    omega

/-- From U+0200 on there is a second byte, which is a digit. -/
theorem literalBytes_of_le (h : 0x200 ≤ c.toNat) :
    ∃ first second more, literalBytes c = first :: second :: more ∧ 0x30 ≤ second ∧
      second ≤ 0x37 := by
  have hplain : ¬ (c ∈ ['\\', '(', ')'] ∨ (' ' ≤ c ∧ c ≤ '\x7F')) := by
    rintro (hspecial | ⟨-, hle⟩)
    · simp only [List.mem_cons, List.not_mem_nil, or_false] at hspecial
      rcases hspecial with rfl | rfl | rfl <;> exact absurd h (by decide)
    · have hle : c.toNat ≤ 0x7F := hle
      omega
  have hlen := length_octal h
  have hdigits : ∀ d ∈ octal c.toNat, isOctalDigit d := fun d => isOctalDigit_of_mem_octal
  rw [literalBytes, if_neg hplain]
  match octal c.toNat, hlen, hdigits with
  | a :: b :: d :: e :: more, _, hdigits =>
    exact ⟨_, _, _, rfl, isOctalDigit_bounds (hdigits e (by simp))⟩

theorem literalBytes_lt {byte : ℕ} (h : byte ∈ literalBytes c) : byte < 256 := by
  rcases Nat.lt_or_ge c.toNat 0x200 with hc | hc
  · rw [literalBytes_of_lt hc, List.mem_singleton] at h
    omega
  · rw [literalBytes] at h
    split_ifs at h with hplain
    · rcases hplain with hspecial | ⟨-, hle⟩
      · simp only [List.mem_cons, List.not_mem_nil, or_false] at hspecial
        rcases hspecial with rfl | rfl | rfl <;> exact absurd hc (by decide)
      · have hle : c.toNat ≤ 0x7F := hle
        omega
    · have hdigits : ∀ d ∈ octal c.toNat, isOctalDigit d := fun d => isOctalDigit_of_mem_octal
      obtain ⟨a, b, d, more, hoctal⟩ := exists_octal c.toNat
      rw [hoctal] at h hdigits
      rcases List.mem_cons.mp h with rfl | h
      · omega
      · obtain ⟨digit, hdigit, rfl⟩ := List.mem_map.mp h
        have hbounds := isOctalDigit_bounds (hdigits digit (by simp [hdigit]))
        omega

/-- No character has no byte. -/
theorem literalBytes_length_pos (c : Char) : 1 ≤ (literalBytes c).length := by
  rcases Nat.lt_or_ge c.toNat 0x200 with hc | hc
  · rw [literalBytes_of_lt hc, List.length_singleton]
  · obtain ⟨first, second, more, hbytes, -⟩ := literalBytes_of_le hc
    rw [hbytes, List.length_cons]
    omega

/-- There are as many bytes as characters only if all characters are below U+0200. -/
theorem lt_of_length_eq (h : (chars.flatMap literalBytes).length ≤ chars.length) :
    ∀ c ∈ chars, c.toNat < 0x200 := by
  have hle (others : List Char) : others.length ≤ (others.flatMap literalBytes).length := by
    induction others with
    | nil => exact Nat.le_refl _
    | cons c others ih =>
      rw [List.flatMap_cons, List.length_append, List.length_cons]
      have := literalBytes_length_pos c
      omega
  intro c hc
  obtain ⟨before, after, rfl⟩ := List.append_of_mem hc
  by_contra hwide
  obtain ⟨first, second, more, hbytes, -⟩ := literalBytes_of_le (Nat.le_of_not_lt hwide)
  have hbefore := hle before
  have hafter := hle after
  simp only [List.flatMap_append, List.flatMap_cons, hbytes, List.length_append,
    List.length_cons] at h
  omega

theorem flatMap_literalBytes (h : ∀ c ∈ chars, c.toNat < 0x200) :
    chars.flatMap literalBytes = chars.map fun c => c.toNat % 256 := by
  induction chars with
  | nil => rfl
  | cons c chars ih =>
    rw [List.flatMap_cons, literalBytes_of_lt (h c (by simp)),
      ih fun other hother => h other (List.mem_cons_of_mem _ hother)]
    rfl

/-! ## PDFDocEncoding -/

/-- A character that PDFDocEncoding has at its own code point. -/
def PdfDocChar (c : Char) : Prop :=
  (0x20 ≤ c.toNat ∧ c.toNat ≤ 0x7E) ∨ (0xA1 ≤ c.toNat ∧ c.toNat ≤ 0xFF ∧ c.toNat ≠ 0xAD)

instance (c : Char) : Decidable (PdfDocChar c) :=
  inferInstanceAs (Decidable
    ((0x20 ≤ c.toNat ∧ c.toNat ≤ 0x7E) ∨ (0xA1 ≤ c.toNat ∧ c.toNat ≤ 0xFF ∧ c.toNat ≠ 0xAD)))

theorem PdfDocChar.lt (h : PdfDocChar c) : c.toNat < 0x100 := by
  rcases h with h | h <;> omega

/-- The texts that are read back: they have no other characters, and their first two are not the
    bytes of a byte-order mark. -/
def PdfDocText (chars : List Char) : Prop :=
  (∀ c ∈ chars, PdfDocChar c) ∧ ¬ ['þ', 'ÿ'] <+: chars

instance (chars : List Char) : Decidable (PdfDocText chars) :=
  @instDecidableAnd _ _ (List.decidableBAll PdfDocChar chars) inferInstance

theorem pdfDocCode_valid : ∀ byte < 256, ∀ code ∈ pdfDocCode byte, code < 0xD800 ∨ 0xFB00 < code ∧
    code < 0x10000 := by
  decide +kernel

theorem pdfDocChar_eq_some {byte : ℕ} (hbyte : byte < 256) :
    pdfDocChar byte = some c ↔ pdfDocCode byte = some c.toNat := by
  rw [pdfDocChar, Option.map_eq_some_iff]
  constructor
  · rintro ⟨code, hcode, rfl⟩
    have hvalid := pdfDocCode_valid byte hbyte code hcode
    rw [hcode, toNat_ofNat (by unfold Nat.isValidChar; omega)]
  · intro h
    exact ⟨c.toNat, h, Char.ofNat_toNat c⟩

/-- The byte of a character stands for that character only in the two ranges. -/
theorem pdfDocCode_iff : ∀ n < 0x200, ¬ (n ≤ 0x1F ∨ (0x7F ≤ n ∧ n ≤ 0x9F)) →
    (pdfDocCode (n % 256) = some n ↔
      (0x20 ≤ n ∧ n ≤ 0x7E) ∨ (0xA1 ≤ n ∧ n ≤ 0xFF ∧ n ≠ 0xAD)) := by
  decide +kernel

theorem pdfDocChar_iff (hc : c.toNat < 0x200) (hcontrol : isControl c = false) :
    pdfDocChar (c.toNat % 256) = some c ↔ PdfDocChar c := by
  rw [pdfDocChar_eq_some (Nat.mod_lt _ (by decide))]
  exact pdfDocCode_iff c.toNat hc (of_decide_eq_false hcontrol)

/-- A text is read back byte by byte exactly if it has no other characters. -/
theorem mapM_pdfDocChar_iff (hcontrol : ∀ c ∈ chars, isControl c = false) :
    (chars.flatMap literalBytes).mapM pdfDocChar = some chars ↔ ∀ c ∈ chars, PdfDocChar c := by
  have hnarrow : ∀ others : List Char, (∀ c ∈ others, c.toNat < 0x200) →
      (∀ c ∈ others, isControl c = false) →
      ((others.map fun c => c.toNat % 256).mapM pdfDocChar = some others ↔
        ∀ c ∈ others, PdfDocChar c) := by
    intro others hlt hothers
    induction others with
    | nil => exact iff_of_true rfl (by simp)
    | cons c others ih =>
      have hrest := ih (fun d hd => hlt d (List.mem_cons_of_mem _ hd))
        fun d hd => hothers d (List.mem_cons_of_mem _ hd)
      rw [List.forall_mem_cons, ← pdfDocChar_iff (hlt c (by simp)) (hothers c (by simp)), ← hrest,
        List.map_cons, List.mapM_cons]
      constructor
      · intro h
        obtain ⟨first, hfirst, h⟩ := Option.bind_eq_some_iff.mp h
        obtain ⟨more, hmore, h⟩ := Option.bind_eq_some_iff.mp h
        obtain ⟨rfl, rfl⟩ := List.cons.inj (Option.some.inj h)
        exact ⟨hfirst, hmore⟩
      · rintro ⟨hfirst, hmore⟩
        rw [hfirst, hmore]
        rfl
  constructor
  · intro h
    have hlt := lt_of_length_eq (mapM_length h).ge
    rw [flatMap_literalBytes hlt] at h
    exact (hnarrow chars hlt hcontrol).mp h
  · intro h
    have hlt : ∀ c ∈ chars, c.toNat < 0x200 := fun c hc => (h c hc).lt.trans (by decide)
    rw [flatMap_literalBytes hlt]
    exact (hnarrow chars hlt hcontrol).mpr h

/-! ## UTF-16 -/

/-- The bytes that characters below U+0200 have when they begin with a byte-order mark and are
    read as UTF-16: no digit is among them. -/
def markBytes : List ℕ := [0x00, 0x01, 0xFE, 0xFF]

theorem utf16Units_lt {bytes units : List ℕ} (h : utf16Units bytes = some units)
    (hbytes : ∀ byte ∈ bytes, byte < 256) : ∀ unit ∈ units, unit < 0x10000 := by
  match bytes with
  | [] =>
    rw [← Option.some.inj h]
    simp
  | [_] => exact absurd h (by simp [utf16Units])
  | high :: low :: bytes =>
    obtain ⟨more, hmore, rfl⟩ := Option.map_eq_some_iff.mp h
    have hhigh := hbytes high (by simp)
    have hlow := hbytes low (by simp)
    refine List.forall_mem_cons.mpr ⟨by omega, ?_⟩
    exact utf16Units_lt hmore fun byte hbyte => hbytes byte (by simp [hbyte])

/-- The characters at the front of a text that is its own UTF-16 after a byte-order mark: each is
    one byte, and its unit is two such bytes. -/
theorem decode_prefix {front rest : List Char} {bytes : List ℕ}
    (hfront : ∀ c ∈ front, c.toNat < 0x200 ∧ c.toNat % 256 ∈ markBytes)
    (hbytes : ∀ byte ∈ bytes, byte < 256)
    (h : (utf16Units bytes).bind decodeUnits = some (front ++ rest)) :
    2 * front.length ≤ bytes.length ∧ ∀ byte ∈ bytes.take (2 * front.length), byte ∈ markBytes := by
  induction front generalizing bytes with
  | nil => simp
  | cons c front ih =>
    obtain ⟨units, hunits, hdecode⟩ := Option.bind_eq_some_iff.mp h
    obtain ⟨hc, hmark⟩ := hfront c (by simp)
    match bytes, hbytes, hunits with
    | [], _, hunits =>
      rw [← Option.some.inj hunits] at hdecode
      exact absurd hdecode (by simp [decodeUnits])
    | [_], _, hunits => exact absurd hunits (by simp [utf16Units])
    | high :: low :: bytes, hbytes, hunits =>
      have hlt := utf16Units_lt hunits hbytes
      obtain ⟨more, hmore, rfl⟩ := Option.map_eq_some_iff.mp hunits
      obtain ⟨others, hcons, hothers⟩ := decodeUnits_cons hdecode hlt (by omega)
      obtain ⟨hunit, rfl⟩ := List.cons.inj hcons
      have hlow := hbytes low (by simp)
      obtain ⟨hlen, htake⟩ := ih (fun d hd => hfront d (List.mem_cons_of_mem _ hd))
        (fun byte hbyte => hbytes byte (by simp [hbyte])) (Option.bind_eq_some_iff.mpr ⟨_, hmore, hothers⟩)
      rw [List.length_cons, List.length_cons, List.length_cons, Nat.mul_succ]
      refine ⟨by omega, ?_⟩
      rw [List.take_succ_cons, List.take_succ_cons, List.forall_mem_cons, List.forall_mem_cons]
      refine ⟨?_, ?_, htake⟩
      · have hhigh : high = 0 ∨ high = 1 := by omega
        rcases hhigh with rfl | rfl <;> decide
      · rwa [show low = c.toNat % 256 by omega]

section Mark

variable {front rest : List Char} {bytes : List ℕ}

/-- The first bytes of such a text: the mark, and the units of the characters at its front. -/
theorem mem_markBytes (hfront : ∀ c ∈ front, c.toNat < 0x200 ∧ c.toNat % 256 ∈ markBytes)
    (hbytes : (front ++ rest).flatMap literalBytes = 0xFE :: 0xFF :: bytes)
    (h : (utf16Units bytes).bind decodeUnits = some (front ++ rest)) :
    2 * front.length ≤ bytes.length ∧ ∀ i byte, i < 2 * front.length + 2 →
      ((front ++ rest).flatMap literalBytes)[i]? = some byte → byte ∈ markBytes := by
  have hlt : ∀ byte ∈ bytes, byte < 256 := by
    intro byte hbyte
    have hmem : byte ∈ (front ++ rest).flatMap literalBytes := by
      rw [hbytes]
      simp [hbyte]
    obtain ⟨c, -, hc⟩ := List.mem_flatMap.mp hmem
    exact literalBytes_lt hc
  obtain ⟨hlen, htake⟩ := decode_prefix hfront hlt h
  have hmark : ∀ byte ∈ (0xFE :: 0xFF :: bytes).take (2 * front.length + 2), byte ∈ markBytes := by
    rw [List.take_succ_cons, List.take_succ_cons, List.forall_mem_cons, List.forall_mem_cons]
    exact ⟨by decide, by decide, htake⟩
  refine ⟨hlen, fun i byte hi hget => ?_⟩
  rw [hbytes] at hget
  refine hmark byte (List.mem_of_getElem? (i := i) ?_)
  rw [List.getElem?_take_of_lt hi, hget]

/-- No text is its own UTF-16 after a byte-order mark: its characters would all be single bytes,
    and its UTF-16 has two for each of them. -/
theorem not_own_utf16 (hfront : ∀ c ∈ front, c.toNat < 0x200 ∧ c.toNat % 256 ∈ markBytes)
    (hbytes : (front ++ rest).flatMap literalBytes = 0xFE :: 0xFF :: bytes) :
    (utf16Units bytes).bind decodeUnits ≠ some (front ++ rest) := by
  intro h
  induction rest generalizing front with
  | nil =>
    have hcount := congrArg List.length hbytes
    rw [List.append_nil, flatMap_literalBytes fun c hc => (hfront c hc).1, List.length_map,
      List.length_cons, List.length_cons] at hcount
    have hlen := (mem_markBytes hfront hbytes h).1
    omega
  | cons c rest ih =>
    obtain ⟨-, hmark⟩ := mem_markBytes hfront hbytes h
    have hnarrow := flatMap_literalBytes fun c hc => (hfront c hc).1
    have hat (i : ℕ) : ((front ++ c :: rest).flatMap literalBytes)[front.length + i]? =
        (literalBytes c ++ rest.flatMap literalBytes)[i]? := by
      rw [List.flatMap_append, hnarrow, List.flatMap_cons, List.getElem?_append_right (by simp),
        List.length_map, Nat.add_sub_cancel_left]
    have hc : c.toNat < 0x200 := by
      by_contra hwide
      obtain ⟨first, second, more, hbytes', hlow, hhigh⟩ := literalBytes_of_le (Nat.le_of_not_lt hwide)
      have hsecond : second ∈ markBytes :=
        hmark (front.length + 1) second (by omega) (by rw [hat, hbytes']; rfl)
      simp only [markBytes, List.mem_cons, List.not_mem_nil, or_false] at hsecond
      omega
    have hbyte : c.toNat % 256 ∈ markBytes :=
      hmark (front.length + 0) _ (by omega) (by rw [hat, literalBytes_of_lt hc]; rfl)
    refine @ih (front ++ [c]) ?_ ?_ ?_
    · intro d hd
      rcases List.mem_append.mp hd with hd | hd
      · exact hfront d hd
      · rw [List.mem_singleton.mp hd]
        exact ⟨hc, hbyte⟩
    · rwa [← List.append_cons]
    · rwa [← List.append_cons]

end Mark

/-- A text is read back from its literal exactly if it is of PDFDocEncoding. -/
theorem decodeText_iff (hcontrol : ∀ c ∈ chars, isControl c = false) :
    decodeText (chars.flatMap literalBytes) = some chars ↔ PdfDocText chars := by
  by_cases hmark : ∃ bytes, chars.flatMap literalBytes = 0xFE :: 0xFF :: bytes
  · obtain ⟨bytes, hbytes⟩ := hmark
    rw [hbytes, decodeText]
    refine iff_of_false (@not_own_utf16 [] chars bytes (by simp) hbytes) ?_
    -- The mark is the bytes of `þÿ`, which a text of PDFDocEncoding must not begin with.
    rintro ⟨hdoc, hprefix⟩
    have hlt : ∀ c ∈ chars, c.toNat < 0x100 := fun c hc => (hdoc c hc).lt
    rw [flatMap_literalBytes fun c hc => (hlt c hc).trans (by decide)] at hbytes
    match chars, hbytes with
    | [], hbytes | [_], hbytes => exact absurd (congrArg List.length hbytes) (by simp)
    | first :: second :: rest, hbytes =>
      rw [List.map_cons, List.map_cons, List.cons.injEq, List.cons.injEq] at hbytes
      obtain ⟨hfirst, hsecond, -⟩ := hbytes
      rw [Nat.mod_eq_of_lt (hlt first (by simp))] at hfirst
      rw [Nat.mod_eq_of_lt (hlt second (by simp))] at hsecond
      apply hprefix
      rw [show first = 'þ' from Char.toNat_inj.mp hfirst, show second = 'ÿ' from Char.toNat_inj.mp hsecond]
      exact ⟨rest, rfl⟩
  · have hdecode : decodeText (chars.flatMap literalBytes) =
        (chars.flatMap literalBytes).mapM pdfDocChar := by
      rw [decodeText.eq_def]
      split
      · exact absurd ⟨_, ‹_›⟩ hmark
      · rfl
    rw [hdecode, mapM_pdfDocChar_iff hcontrol, PdfDocText]
    refine (and_iff_left_of_imp fun hdoc hprefix => hmark ?_).symm
    obtain ⟨rest, rfl⟩ := hprefix
    exact ⟨rest.flatMap literalBytes, rfl⟩

/-! ## Reading what is written -/

theorem readEntries_infoEntry {key text : String} {rest : List Char} {fuel : ℕ}
    (hkey : ' ' ∉ key.toList) (htrim : trim text = text) (htext : text ≠ "") :
    readEntries (fuel + 2) ((infoEntry key (some text)).toList ++ rest) =
      (readEntries fuel rest).map ((key, text.toList.flatMap literalBytes) :: ·) := by
  have hentry : infoEntry key (some text) = "/" ++ key ++ " (" ++ escapePdfString text ++ ") " := by
    rw [infoEntry, Option.map_some, htrim, Option.filter_some, if_pos (by simpa using htext)]
  have hchars : (infoEntry key (some text)).toList ++ rest =
      '/' :: (key.toList ++ ' ' :: '(' :: (text.toList.flatMap escapeChar ++ ')' :: ' ' :: rest)) := by
    rw [hentry]
    simp [escapePdfString]
  have hname : ∀ c ∈ key.toList, decide (c ≠ ' ') = true := fun c hc =>
    decide_eq_true fun h => hkey (h ▸ hc)
  rw [hchars, readEntries, List.dropWhile_append_of_pos hname, List.takeWhile_append_of_pos hname,
    List.dropWhile_cons_of_neg (by simp), List.takeWhile_cons_of_neg (by simp)]
  simp only [readLiteral_escape, readEntries, Option.bind_eq_bind, Option.bind_some, List.append_nil,
    String.ofList_toList]
  cases readEntries fuel rest <;> rfl

/-- A metadata field as the planner keeps it. -/
def fieldText (value : Option String) : Option String :=
  (value.map trim).filter fun text => text ≠ ""

/-- What the planner accepts in a field. -/
structure Accepted (text : String) : Prop where
  trimmed : trim text = text
  nonempty : text ≠ ""
  visible : ∀ c ∈ text.toList, isControl c = false

/-- The entry that is read for a field. -/
def readField (key : String) (text : Option String) : List (String × List ℕ) :=
  (text.map fun value => (key, value.toList.flatMap literalBytes)).toList

theorem infoEntry_length {key text : String} (htrim : trim text = text) (htext : text ≠ "") :
    5 ≤ (infoEntry key (some text)).toList.length := by
  rw [infoEntry, Option.map_some, htrim, Option.filter_some, if_pos (by simpa using htext)]
  simp only [String.toList_append, List.length_append]
  have hopen : " (".toList.length = 2 := rfl
  have hclose : ") ".toList.length = 2 := rfl
  have hslash : "/".toList.length = 1 := rfl
  omega

section Fields

variable {title author : Option String} (htitle : ∀ text ∈ title, Accepted text)
  (hauthor : ∀ text ∈ author, Accepted text)

include htitle hauthor

theorem readEntries_infoEntries (fuel : ℕ) :
    readEntries (fuel + 5) (infoEntries title author).toList =
      some (readField "Title" title ++ readField "Author" author) := by
  have hauthorRead (more : ℕ) : readEntries (more + 3) (infoEntry "Author" author).toList =
      some (readField "Author" author) := by
    match author, hauthor with
    | none, _ => rfl
    | some text, hauthor =>
      have haccepted := hauthor text rfl
      rw [← List.append_nil (infoEntry "Author" (some text)).toList,
        readEntries_infoEntry (by decide) haccepted.trimmed haccepted.nonempty]
      rfl
  rw [infoEntries, String.toList_append]
  match title, htitle with
  | none, _ => exact hauthorRead (fuel + 2)
  | some text, htitle =>
    have haccepted := htitle text rfl
    rw [readEntries_infoEntry (by decide) haccepted.trimmed haccepted.nonempty, hauthorRead]
    rfl

theorem readText_infoEntries {key : String} :
    readText key (infoEntries title author) =
      (((readField "Title" title ++ readField "Author" author).lookup key).bind decodeText).map
        String.ofList := by
  have hread : readEntries ((infoEntries title author).toList.length + 1)
      (infoEntries title author).toList =
        some (readField "Title" title ++ readField "Author" author) := by
    match title, author, htitle, hauthor with
    | none, none, _, _ => rfl
    | some text, author, htitle, hauthor =>
      have hlen : 5 ≤ (infoEntry "Title" (some text)).toList.length :=
        infoEntry_length (htitle text rfl).trimmed (htitle text rfl).nonempty
      obtain ⟨fuel, hfuel⟩ : ∃ fuel,
          (infoEntries (some text) author).toList.length + 1 = fuel + 5 := by
        refine Nat.exists_eq_add_of_le' ?_
        rw [infoEntries, String.toList_append, List.length_append]
        omega
      rw [hfuel]
      exact readEntries_infoEntries htitle hauthor fuel
    | none, some text, htitle, hauthor =>
      have hlen : 5 ≤ (infoEntry "Author" (some text)).toList.length :=
        infoEntry_length (hauthor text rfl).trimmed (hauthor text rfl).nonempty
      obtain ⟨fuel, hfuel⟩ : ∃ fuel,
          (infoEntries none (some text)).toList.length + 1 = fuel + 5 := by
        refine Nat.exists_eq_add_of_le' ?_
        rw [infoEntries, String.toList_append, List.length_append]
        omega
      rw [hfuel]
      exact readEntries_infoEntries htitle hauthor fuel
  rw [readText, hread]
  simp only [Option.bind_eq_bind, Option.bind_some, Option.pure_def, Option.map_eq_bind,
    Option.bind_assoc]
  rfl

end Fields

theorem lookup_title {title author : Option String} :
    (readField "Title" title ++ readField "Author" author).lookup "Title" =
      title.map fun value => value.toList.flatMap literalBytes := by
  cases title <;> cases author <;> rfl

theorem lookup_author {title author : Option String} :
    (readField "Title" title ++ readField "Author" author).lookup "Author" =
      author.map fun value => value.toList.flatMap literalBytes := by
  cases title <;> cases author <;> rfl

/-! ## Plans -/

/-- The title and the author of a plan are read back from what its step writes, and the checks on
    them pass. -/
def MetadataSurvives (plan : Plan) : Prop :=
  ∃ step, plan.steps.head? = some step ∧
    (∀ text, step.arguments.lookup "metadata_title" = some text →
      observedText step "Title" = some text) ∧
    (∀ text, step.arguments.lookup "metadata_author" = some text →
      observedText step "Author" = some text) ∧
    ∀ report, (appendMetadataChecks report plan (observedText step "Title")
      (observedText step "Author")).status = report.status

/-- A check on a field that is read back leaves the status as it was. -/
theorem appendMetadataCheck_status {plan : Plan} {report : CheckedReport} {code argument : String}
    {observed : Option String}
    (h : ∀ expected, (plan.steps.head?.bind fun step => step.arguments.lookup argument) =
      some expected → observed = some expected) :
    (appendMetadataCheck plan report (code, argument, observed)).status = report.status := by
  rw [appendMetadataCheck]
  match hexpected : plan.steps.head?.bind fun step => step.arguments.lookup argument with
  | none => rfl
  | some expected =>
    rw [h expected hexpected]
    have hpass : (metadataCheck code expected (some expected)).status = .pass :=
      if_pos (by rw [Option.any_some, decide_eq_true rfl])
    dsimp only
    rw [hpass]
    exact if_pos (Nat.zero_le _)

section Survives

variable {φ : Type} {tools : PlannerTools φ} {probe : Probe φ} {title author : Option String}
  {outputPath : PathBuf} {qpdf : EngineIdentity} {planId : Uuid} {planned : Planned}

theorem accepted_of_metadataField {field : String} {value : Option String}
    (h : metadataField field (fieldText value) = .ok ()) : ∀ text ∈ fieldText value, Accepted text := by
  intro text htext
  rw [metadataField, failIf_eq_ok] at h
  obtain ⟨hmap, hne⟩ := Option.filter_eq_some_iff.mp htext
  obtain ⟨raw, -, rfl⟩ := Option.map_eq_some_iff.mp hmap
  refine ⟨trim_trim raw, by simpa using hne, fun c hc => ?_⟩
  refine Bool.eq_false_iff.mpr fun hcontrol => h ⟨_, htext, .inr ?_⟩
  exact List.any_eq_true.mpr ⟨c, hc, hcontrol⟩

theorem lookup_metadata_title {pages : String} {title author : Option String} :
    ([("operation", "pdf-metadata"), ("expected_pages", pages)] ++
      (title.map fun value => ("metadata_title", value)).toList ++
      (author.map fun value => ("metadata_author", value)).toList).reverse.lookup "metadata_title" =
      title := by
  cases title <;> cases author <;> rfl

theorem lookup_metadata_author {pages : String} {title author : Option String} :
    ([("operation", "pdf-metadata"), ("expected_pages", pages)] ++
      (title.map fun value => ("metadata_title", value)).toList ++
      (author.map fun value => ("metadata_author", value)).toList).reverse.lookup "metadata_author" =
      author := by
  cases title <;> cases author <;> rfl

/-- The step of a plan has the fields, which the planner accepts. -/
theorem planPdfMetadata_eq_ok
    (h : planPdfMetadata tools probe title author outputPath qpdf planId = .ok planned) :
    ∃ step, planned.plan.steps = [step] ∧
      step.arguments.lookup "metadata_title" = fieldText title ∧
      step.arguments.lookup "metadata_author" = fieldText author ∧
      (∀ text ∈ fieldText title, Accepted text) ∧ ∀ text ∈ fieldText author, Accepted text := by
  obtain ⟨⟨⟩, hpdf, h⟩ := bind_eq_ok.mp h
  obtain ⟨⟨⟩, hqpdf, h⟩ := bind_eq_ok.mp h
  obtain ⟨⟨⟩, hsome, h⟩ := bind_eq_ok.mp h
  obtain ⟨⟨⟩, htitle, h⟩ := bind_eq_ok.mp h
  obtain ⟨⟨⟩, hauthor, h⟩ := bind_eq_ok.mp h
  refine ⟨_, by rw [← Except.ok.inj h]; rfl, ?_, ?_, accepted_of_metadataField htitle,
    accepted_of_metadataField hauthor⟩
  · rw [TextMap.lookup_ofList]
    exact lookup_metadata_title
  · rw [TextMap.lookup_ofList]
    exact lookup_metadata_author

/-- The title and the author of a plan are read back exactly if they are texts of
    PDFDocEncoding. -/
theorem metadata_survives_iff
    (h : planPdfMetadata tools probe title author outputPath qpdf planId = .ok planned) :
    MetadataSurvives planned.plan ↔
      (∀ text ∈ fieldText title, PdfDocText text.toList) ∧
        ∀ text ∈ fieldText author, PdfDocText text.toList := by
  obtain ⟨step, hsteps, htitle, hauthor, haccTitle, haccAuthor⟩ := planPdfMetadata_eq_ok h
  have hread (key : String) : observedText step key =
      (((readField "Title" (fieldText title) ++ readField "Author" (fieldText author)).lookup
        key).bind decodeText).map String.ofList := by
    rw [observedText, htitle, hauthor, readText_infoEntries haccTitle haccAuthor]
  have hdecoded {value : Option String} (haccepted : ∀ text ∈ value, Accepted text) :
      (∀ text, value = some text → ((value.map fun value => value.toList.flatMap literalBytes).bind
        decodeText).map String.ofList = some text) ↔ ∀ text ∈ value, PdfDocText text.toList := by
    refine forall₂_congr fun text htext => ?_
    rw [← decodeText_iff (haccepted text htext).visible, htext, Option.map_some, Option.bind_some,
      Option.map_eq_some_iff]
    constructor
    · rintro ⟨chars, hchars, rfl⟩
      rw [hchars, String.toList_ofList]
    · intro h
      exact ⟨text.toList, h, String.ofList_toList⟩
  have hTitle := hdecoded haccTitle
  have hAuthor := hdecoded haccAuthor
  rw [← @lookup_title _ (fieldText author), ← hread, ← htitle] at hTitle
  rw [← @lookup_author (fieldText title), ← hread, ← hauthor] at hAuthor
  rw [← htitle, ← hauthor, ← hTitle, ← hAuthor, MetadataSurvives, hsteps]
  constructor
  · rintro ⟨other, hother, hsurvives, hsurvivesAuthor, -⟩
    rw [Option.some.inj hother]
    exact ⟨hsurvives, hsurvivesAuthor⟩
  · rintro ⟨hsurvives, hsurvivesAuthor⟩
    refine ⟨step, rfl, hsurvives, hsurvivesAuthor, fun report => ?_⟩
    rw [appendMetadataChecks, List.foldl_cons, List.foldl_cons, List.foldl_nil,
      appendMetadataCheck_status, appendMetadataCheck_status]
    · rw [hsteps]
      exact hsurvives
    · rw [hsteps]
      exact hsurvivesAuthor

end Survives

namespace Sample

theorem metadata_survives_latin : ∃ planned,
    planPdfMetadata tools (pdf (PathBuf.ofString "/a.pdf")) (some " Café (1) ") none
      (PathBuf.ofString "/b.pdf") qpdf 1 = .ok planned ∧ MetadataSurvives planned.plan := by
  obtain ⟨planned, hplan⟩ : ∃ planned,
      planPdfMetadata tools (pdf (PathBuf.ofString "/a.pdf")) (some " Café (1) ") none
        (PathBuf.ofString "/b.pdf") qpdf 1 = .ok planned := ⟨_, rfl⟩
  refine ⟨planned, hplan, (metadata_survives_iff hplan).mpr ⟨?_, by decide⟩⟩
  decide

/-- The bullet U+2022 is written `\20042`, which is a bullet and `42`. -/
theorem bullet_lost : ∃ planned step,
    planPdfMetadata tools (pdf (PathBuf.ofString "/a.pdf")) (some "•") none
      (PathBuf.ofString "/b.pdf") qpdf 1 = .ok planned ∧
    planned.plan.steps = [step] ∧ observedText step "Title" = some "•42" ∧
    (appendMetadataChecks ⟨.pass, []⟩ planned.plan (observedText step "Title")
      (observedText step "Author")).status = .fail :=
  ⟨_, _, rfl, rfl, by decide, by decide⟩

end Sample

end Anole.Planning
