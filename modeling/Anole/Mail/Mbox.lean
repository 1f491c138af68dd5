import Anole.Common.Lines
import Anole.Store.Jobs

/-!
# Splitting a mailbox

Model of the reader of MBOX files (`crates/core/src/mbox.rs`, lines 39–334): the lines with their
byte offsets, the loop that finds the mails, and the text of each mail.

A text is a list of characters, and a byte offset into it has to fall between two characters.
Where the program would panic (an offset inside a character, an index that is out of range, an
addition that overflows) the model says so.
-/

open Common

namespace Anole

/-- How a call ends: with a value, with an error, with a panic, or not at all. -/
inductive Ending (α : Type) where
  | ok (value : α)
  | err (error : AnoleError)
  | panics
  | loops
  deriving DecidableEq

/-- `usize::MAX + 1` on a 64-bit target. -/
abbrev usizeLimit : ℕ := 2 ^ 64

/-- `MAX_MBOX_MAILS`. -/
def maxMboxMails : ℕ := 1000

/-- `MboxVariant` (lines 39–49). -/
inductive MboxVariant where
  | cl | o | rd

/-- `MboxVariant::unescapes` (lines 61–63). -/
def MboxVariant.unescapes : MboxVariant → Bool
  | .cl | .rd => true
  | .o => false

/-! ## Lines -/

/-- `line.starts_with("From ")`. -/
def isEnvelope (line : List Char) : Bool := ['F', 'r', 'o', 'm', ' '].isPrefixOf line

/-- `line.trim().is_empty()`. -/
def isBlank (line : List Char) : Bool := line.all isWhitespace

/-- `str::trim`. -/
def trimChars (text : List Char) : List Char := (text.dropWhile isWhitespace).rdropWhile isWhitespace

/-- `LineSpan` (lines 145–148). -/
structure LineSpan where
  start : ℕ
  text : List Char

def lineSpans : (start : ℕ) → List (List Char) → List LineSpan
  | _, [] => []
  | start, line :: lines => ⟨start, stripEnding line⟩ :: lineSpans (start + byteLen line) lines

/-- `split_line_spans` (lines 150–162). -/
def splitLineSpans (text : List Char) : List LineSpan := lineSpans 0 (splitInclusive text)

/-! ## The declared length of a body -/

/-- `str::parse::<usize>`. -/
def parseUsize (text : List Char) : Option ℕ :=
  let digits := match text with
    | '+' :: digits => digits
    | digits => digits
  if digits ≠ [] ∧ digits.all Char.isDigit then
    let value := digits.foldl (fun value digit => 10 * value + (digit.toNat - '0'.toNat)) 0
    if value < usizeLimit then some value else none
  else none

/-- What one header line says about the length, if anything. -/
def lineLength (line : List Char) : Option ℕ :=
  match line.dropWhile (· ≠ ':') with
  | [] => none
  | _ :: value =>
    if (trimChars (line.takeWhile (· ≠ ':'))).map Char.toLower = "content-length".toList then
      parseUsize (trimChars value)
    else none

/-- `content_length_of` (lines 165–174). -/
def contentLengthOf (header : List (List Char)) : Option ℕ := header.findSome? lineLength

/-! ## The mails of a text -/

/-- `MessageSpan` (lines 137–142). -/
inductive MessageSpan where
  | scanned (lines : List (List Char))
  | measured (header : List (List Char)) (body : List Char)
  deriving DecidableEq

def MessageSpan.isMeasured : MessageSpan → Bool
  | .scanned _ => false
  | .measured _ _ => true

def envelopeError : AnoleError :=
  .new .inputInvalid .inspect "The file does not start with an mbox \"From \" envelope line"
    "Choose a file in mbox/mboxo/mboxrd/mboxcl format."

def lengthMismatch (declared : ℕ) : AnoleError :=
  .new .inputInvalid .inspect
    s!"A mail declares Content-Length {declared} bytes but the stored body does not match"
    "Re-export the mailbox or repair the Content-Length header."

/-- The lines from an envelope to the limit of its mail. -/
def linesBetween (lines : List LineSpan) (cursor limit : ℕ) : List (List Char) :=
  ((lines.take limit).drop (cursor + 1)).map LineSpan.text

/-- The header, when a blank line ends it (lines 231–241). -/
def headerOf (between : List (List Char)) : Option (List (List Char)) :=
  let header := between.takeWhile fun line => !isBlank line
  if header.length < between.length then some header else none

/-- Where the body starts: on the line after the blank one (lines 246–251). -/
def bodyStart (text : List Char) (lines : List LineSpan) (cursor : ℕ) (header : List (List Char)) : ℕ :=
  match lines[cursor + 1 + header.length + 1]? with
  | some line => line.start
  | none => byteLen text

/-- The header of a mail, where its body starts, and the length that is declared (lines 240–251). -/
def measured? (text : List Char) (lines : List LineSpan) (cursor : ℕ) (between : List (List Char)) :
    Option (List (List Char) × ℕ × ℕ) :=
  (headerOf between).bind fun header => (contentLengthOf header).map fun declared =>
    (header, bodyStart text lines cursor header, declared)

/-- The first line that is not blank after a measured body: the next envelope, or none (lines
    258–278). -/
def scanAfter (lines : List LineSpan) : (target : ℕ) → List (List Char) → Option (Option ℕ)
  | _, [] => some none
  | target, segment :: segments =>
    if isBlank segment then scanAfter lines (target + byteLen segment) segments
    else if !isEnvelope (segment.rdropWhile fun c => c = '\n' || c = '\r') then none
    else
      let aligned := (lines.takeWhile fun line => line.start < target).length
      match lines[aligned]? with
      | none => none
      | some line =>
        if line.start ≠ target ∨ !isEnvelope line.text then none else some (some aligned)

/-- One round of the loop of `split_into_spans`: the mail, and where the next one is. -/
inductive SpanStep where
  | panics
  | err (error : AnoleError)
  | last (span : Option MessageSpan)
  | next (span : MessageSpan) (cursor : ℕ)

/-- A mail with a declared length (lines 243–286). -/
def measureSpan (text : List Char) (lines : List LineSpan) (header : List (List Char))
    (start declared : ℕ) : SpanStep :=
  let bodyEnd := start + declared
  if usizeLimit ≤ bodyEnd then .panics
  else if byteLen text < bodyEnd then .err (lengthMismatch declared)
  else match splitAtByte bodyEnd text with
    | none => .panics
    | some (upTo, rest) => match scanAfter lines bodyEnd (splitInclusive rest) with
      | none => .err (lengthMismatch declared)
      | some nextFrom => match splitAtByte start upTo with
        | none => .panics
        | some (_, body) => match nextFrom with
          | some next => .next (.measured header body) next
          | none => .last (some (.measured header body))

/-- The body of the loop of `split_into_spans` (lines 229–301), after `hint` has moved on. -/
def spanStep (text : List Char) (lines : List LineSpan) (nextHeuristic : Option ℕ) (cursor : ℕ) :
    SpanStep :=
  let limit := nextHeuristic.getD lines.length
  if limit < cursor + 1 ∨ lines.length < limit then .panics
  else
    let between := linesBetween lines cursor limit
    match measured? text lines cursor between with
    | some (header, start, declared) => measureSpan text lines header start declared
    | none =>
      if between = [] then .last none
      else match nextHeuristic with
        | some next => .next (.scanned between) next
        | none => .last (some (.scanned between))

/-- The cut points: lines that start with `From ` at the start of the file or after a blank line
    (lines 202–210). -/
def heuristicStarts (lines : List LineSpan) : List ℕ :=
  (List.range lines.length).filter fun index =>
    isEnvelope ((lines[index]?.map LineSpan.text).getD []) &&
      (index = 0 || isBlank ((lines[index - 1]?.map LineSpan.text).getD []))

/-- The loop of `split_into_spans` (lines 225–302). `pending` are the cut points from `hint` on. -/
def splitLoop (text : List Char) (lines : List LineSpan) :
    (fuel : ℕ) → (pending : List ℕ) → (cursor : ℕ) → (sawContentLength : Bool) →
      List MessageSpan → Ending (List MessageSpan × Bool)
  | 0, _, _, _, _ => .loops
  | fuel + 1, pending, cursor, saw, spans =>
    let pending := pending.dropWhile (· ≤ cursor)
    match spanStep text lines pending.head? cursor with
    | .panics => .panics
    | .err error => .err error
    | .last none => .ok (spans, saw)
    | .last (some span) => .ok (spans ++ [span], saw || span.isMeasured)
    | .next span next => splitLoop text lines fuel pending next (saw || span.isMeasured) (spans ++ [span])

/-- `split_into_spans` (lines 185–304). Each round moves to a later line. -/
def splitIntoSpans (text : List Char) : Ending (List MessageSpan × Bool) :=
  let lines := splitLineSpans text
  match lines.findIdx? fun line => !isBlank line.text with
  | none => .err envelopeError
  | some first =>
    if !isEnvelope ((lines[first]?.map LineSpan.text).getD []) then .err envelopeError
    else splitLoop text lines lines.length (heuristicStarts lines) first false []

/-! ## The text of a mail -/

/-- `unescape_from_line` (lines 325–334). -/
def unescapeFromLine (line : List Char) (enabled : Bool) : List Char :=
  match line with
  | '>' :: rest => if enabled && isEnvelope rest then rest else line
  | _ => line

/-- The lines of a mail before they are joined. -/
def MessageSpan.lines (variant : MboxVariant) : MessageSpan → List (List Char)
  | .scanned lines => lines.map (unescapeFromLine · variant.unescapes)
  | .measured header body =>
    header.map (unescapeFromLine · variant.unescapes) ++ [[]] ++
      ((splitInclusive body).map stripEnding).map (unescapeFromLine · variant.unescapes)

/-- `lines.join("\r\n").into_bytes()`. -/
def joinLines (lines : List (List Char)) : ByteArray :=
  (String.ofList (['\r', '\n'].intercalate lines)).toUTF8

/-- `render_span` (lines 308–323). -/
def renderSpan (variant : MboxVariant) (span : MessageSpan) : ByteArray := joinLines (span.lines variant)

/-- The mails of the spans (lines 105–133). -/
def renderMailbox (requested : Option MboxVariant) (spans : List MessageSpan) (saw : Bool) :
    Except AnoleError (MboxVariant × List ByteArray) :=
  let variant := requested.getD (if saw then .cl else .o)
  let messages := spans.map (renderSpan variant)
  if messages = [] then
    .error (.new .inputInvalid .inspect "The MBOX file contains no messages"
      "Choose an mbox file with at least one mail.")
  else if maxMboxMails < messages.length then
    .error (.new .inputInvalid .inspect
      s!"The MBOX holds {messages.length} mails; the adapter limit is {maxMboxMails}"
      "Split the mailbox before converting.")
  else .ok (variant, messages)

/-- `split_mbox_bytes_variant` (lines 89–134); `utf8Error` renders a `Utf8Error`. -/
def splitMboxBytesVariant (utf8Error : ByteArray → String) (bytes : ByteArray)
    (requested : Option MboxVariant) : Ending (MboxVariant × List ByteArray) :=
  match String.fromUTF8? bytes with
  | none => .err ((AnoleError.new .inputInvalid .inspect "MBOX input is not valid UTF-8"
      "Choose an mbox file exported in UTF-8.").withDiagnostic (utf8Error bytes))
  | some text => match splitIntoSpans text.toList with
    | .err error => .err error
    | .panics => .panics
    | .loops => .loops
    | .ok (spans, saw) => match renderMailbox requested spans saw with
      | .error error => .err error
      | .ok mailbox => .ok mailbox

end Anole
