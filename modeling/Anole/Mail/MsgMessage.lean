import Anole.Common.Continued
import Anole.Common.Decimal
import Anole.Common.Lines
import Anole.Mail.Sanitizer
import Anole.Store.Jobs

/-!
# Synthesized messages

Model of `msg_to_eml_bytes` (`crates/core/src/msg.rs`, lines 36–144) from the root properties of an MSG
file, as `read_string_property` decodes them, and of the dates it writes (lines 458–502).

Results:
* `faithful_iff`: when the synthesized message, read by the rules of RFC 5322, is what the properties
  say.

**Deviation.** The transport headers are filtered and completed line by line. A blank line at their end
stays in the middle of the header and ends it; of a folded field that is dropped the lines that continue
it stay; and a line that continues another field is dropped when it looks like a field. The subject and
the sender are written as they are, with line breaks.
-/

open Common Anole.Common

namespace Anole.Msg

/-! ## Dates -/

/-- `civil_from_days` (lines 487–502), from 1970 on. -/
def civilFromDays (days : ℕ) : ℕ × ℕ × ℕ :=
  let z := days + 719468
  let era := z / 146097
  let doe := z - era * 146097
  let yoe := (doe - doe / 1460 + doe / 36524 - doe / 146096) / 365
  let year := yoe + era * 400
  let doy := doe - (365 * yoe + yoe / 4 - yoe / 100)
  let mp := (5 * doy + 2) / 153
  let day := doy - (153 * mp + 2) / 5 + 1
  let month := if mp < 10 then mp + 3 else mp - 9
  (if month ≤ 2 then year + 1 else year, month, day)

/-- Two digits at least. -/
def twoDigits (n : ℕ) : String := if n < 10 then "0" ++ toString n else toString n

def weekdays : List String := ["Thu", "Fri", "Sat", "Sun", "Mon", "Tue", "Wed"]

def months : List String :=
  ["Jan", "Feb", "Mar", "Apr", "May", "Jun", "Jul", "Aug", "Sep", "Oct", "Nov", "Dec"]

/-- `EPOCH_DELTA`. -/
def epochDelta : ℕ := 11644473600

/-- `filetime_to_rfc2822` (lines 460–484). -/
def filetimeToRfc2822 (filetime : ℕ) : Option (List Char) :=
  let ticks := filetime / 10000000
  if ticks < epochDelta then none
  else
    let seconds := ticks - epochDelta
    let days := seconds / 86400
    let time := seconds % 86400
    let date := civilFromDays days
    some (weekdays.getD (days % 7) "" ++ ", " ++ twoDigits date.2.2 ++ " " ++ months.getD (date.2.1 - 1) "" ++ " " ++
      toString date.1 ++ " " ++ twoDigits (time / 3600) ++ ":" ++ twoDigits (time % 3600 / 60) ++ ":" ++
      twoDigits (time % 60) ++ " +0000").toList

/-! ## Synthesis -/

/-- The root properties that are read. -/
structure RootProperties where
  subject : Option (List Char)
  senderName : Option (List Char)
  transportHeaders : Option (List Char)
  plainBody : Option (List Char)
  htmlBody : Option (List Char)
  submitTime : Option ℕ

def crlf : List Char := ['\r', '\n']

/-- `str::trim`. -/
def trimLine (line : List Char) : List Char := (line.dropWhile isWhitespace).rdropWhile isWhitespace

def bodyHeaders : List String :=
  ["content-type", "content-transfer-encoding", "mime-version", "content-disposition"]

/-- The filter of the transport headers (lines 87–93). -/
def describesBody (line : List Char) : Bool :=
  bodyHeaders.any fun name => (name.toList ++ [':']).isPrefixOf (lowercase (trimLine line))

/-- Some line begins with a name. -/
def hasHeader (name : String) (lines : List (List Char)) : Bool :=
  lines.any fun line => (name.toList ++ [':']).isPrefixOf (lowercase line)

/-- A line for a header that is not there. -/
def addHeader (name key : String) (value : Option (List Char)) (lines : List (List Char)) : List (List Char) :=
  if hasHeader name lines then lines else lines ++ (value.map fun text => key.toList ++ text).toList

/-- The lines of the header (lines 82–132). -/
def headerLines (properties : RootProperties) : List (List Char) :=
  let lines := (textLines (properties.transportHeaders.getD [])).filter fun line => !describesBody line
  let lines := addHeader "subject" "Subject: " (some (properties.subject.getD [])) lines
  let lines := addHeader "from" "From: " (some (properties.senderName.getD [])) lines
  let lines := addHeader "date" "Date: " (properties.submitTime.bind filetimeToRfc2822) lines
  let contentType := if properties.htmlBody.isSome then "text/html; charset=utf-8" else "text/plain; charset=utf-8"
  lines ++ ["MIME-Version: 1.0".toList, "Content-Type: ".toList ++ contentType.toList,
    "Content-Transfer-Encoding: 8bit".toList]

/-- The body. -/
def bodyText (properties : RootProperties) : List Char :=
  properties.htmlBody.getD (properties.plainBody.getD [])

/-- `msg_to_eml_bytes` (lines 73–139), from the properties on. -/
def msgToEml (properties : RootProperties) : Except AnoleError (List Char) :=
  if properties.transportHeaders = none ∧ properties.plainBody = none ∧ properties.htmlBody = none then
    .error (.new .inputInvalid .inspect "The MSG container carries no message headers or body"
      "Choose a complete Outlook message export.")
  else .ok (List.intercalate crlf (headerLines properties) ++ (crlf ++ crlf) ++ bodyText properties ++ crlf)

/-! ## Messages -/

/-- A line that continues the field before it. -/
def isFolded (line : List Char) : Bool := line.head? = some ' ' ∨ line.head? = some '\t'

/-- A message: the fields of the header, line by line, and the body. -/
structure Message where
  fields : List (List (List Char))
  body : List Char
  deriving DecidableEq

/-- How a message is read: the first empty line ends the header, and the last line break the message. -/
def parseMessage (text : List Char) : Message :=
  let lines := splitInclusive text
  let header := lines.takeWhile fun line => stripEnding line ≠ []
  ⟨group isFolded (header.map stripEnding), stripEnding (lines.drop (header.length + 1)).flatten⟩

/-- A header field, which may be folded. -/
structure HeaderField where
  name : List Char
  value : List Char
  folded : List (List Char)
  name_ne_nil : name ≠ []
  name_printable : ∀ c ∈ name, 33 ≤ c.toNat ∧ c.toNat ≤ 126 ∧ c ≠ ':'
  value_line : '\n' ∉ value ∧ '\r' ∉ value
  folded_lines : ∀ line ∈ folded, isFolded line = true ∧ '\n' ∉ line ∧ '\r' ∉ line

def HeaderField.lines (field : HeaderField) : List (List Char) := (field.name ++ ':' :: field.value) :: field.folded

/-- The name of a field, in lower case. -/
def HeaderField.key (field : HeaderField) : String := String.ofList (lowercase field.name)

/-- How the block of transport headers ends. -/
inductive Ending where
  | noBreak | lineBreak | blankLine
  deriving DecidableEq

/-- The transport headers of an MSG file. -/
structure Transport where
  fields : List HeaderField
  ending : Ending

def Transport.lines (transport : Transport) : List (List Char) := transport.fields.flatMap HeaderField.lines

def Transport.text (transport : Transport) : List Char :=
  match transport.ending with
  | .noBreak => List.intercalate crlf transport.lines
  | .lineBreak => (transport.lines.map (· ++ crlf)).flatten
  | .blankLine => (transport.lines.map (· ++ crlf)).flatten ++ crlf

/-- The properties of an MSG file with a recognizable message. -/
structure MsgFile where
  transport : Option Transport
  subject : Option (List Char)
  senderName : Option (List Char)
  plainBody : Option (List Char)
  htmlBody : Option (List Char)
  submitTime : Option ℕ
  payload : transport.isSome ∨ plainBody.isSome ∨ htmlBody.isSome

def MsgFile.properties (file : MsgFile) : RootProperties where
  subject := file.subject
  senderName := file.senderName
  transportHeaders := file.transport.map Transport.text
  plainBody := file.plainBody
  htmlBody := file.htmlBody
  submitTime := file.submitTime

def MsgFile.fields (file : MsgFile) : List HeaderField := (file.transport.map Transport.fields).getD []

/-- A field that the transport headers do not have. -/
def MsgFile.missing (file : MsgFile) (name key : String) (value : Option (List Char)) : List (List (List Char)) :=
  if ∃ field ∈ file.fields, field.key = name then [] else (value.map fun text => [key.toList ++ text]).toList

/-- The fields that describe one part with the body. -/
def MsgFile.partFields (file : MsgFile) : List (List (List Char)) :=
  [["MIME-Version: 1.0".toList],
    ["Content-Type: ".toList ++
      (if file.htmlBody.isSome then "text/html; charset=utf-8" else "text/plain; charset=utf-8").toList],
    ["Content-Transfer-Encoding: 8bit".toList]]

/-- The message that the properties describe. -/
def MsgFile.message (file : MsgFile) : Message where
  fields := (file.fields.filter fun field => field.key ∉ bodyHeaders).map HeaderField.lines ++
    (file.missing "subject" "Subject: " (some (file.subject.getD [])) ++
      (file.missing "from" "From: " (some (file.senderName.getD [])) ++
        (file.missing "date" "Date: " (file.submitTime.bind filetimeToRfc2822) ++ file.partFields)))
  body := file.htmlBody.getD (file.plainBody.getD [])

/-- The synthesized message is read as what the properties say. -/
def Faithful (file : MsgFile) : Prop := (msgToEml file.properties).map parseMessage = .ok file.message

/-- What makes the synthesis go well. -/
structure Plain (file : MsgFile) : Prop where
  /-- The transport headers do not end in a blank line. -/
  ended : ∀ transport ∈ file.transport, transport.ending ≠ .blankLine
  /-- Every line of a field that describes the body looks like one. -/
  dropped : ∀ field ∈ file.fields, field.key ∈ bodyHeaders → ∀ line ∈ field.folded, describesBody line = true
  /-- No line of another field does. -/
  kept : ∀ field ∈ file.fields, field.key ∉ bodyHeaders → ∀ line ∈ field.folded, describesBody line = false
  /-- A subject that is used has no line break. -/
  subject : (∀ field ∈ file.fields, field.key ≠ "subject") → '\n' ∉ file.subject.getD []
  /-- A sender that is used has no line break. -/
  sender : (∀ field ∈ file.fields, field.key ≠ "from") → '\n' ∉ file.senderName.getD []

/-! ## Fields -/

section Fields

variable {name line value : List Char} {field : HeaderField}

theorem takeWhile_colon (hname : ':' ∉ name) (value : List Char) :
    (name ++ ':' :: value).takeWhile (fun c => c ≠ ':') = name := by
  have hnot : ∀ c ∈ name, decide (c ≠ ':') = true := by
    intro c hc
    simp only [decide_eq_true_eq]
    rintro rfl
    exact hname hc
  rw [List.takeWhile_append_of_pos hnot, List.takeWhile_cons_of_neg (by simp), List.append_nil]

theorem isPrefixOf_colon {key : List Char} (hkey : ':' ∉ key) (hname : ':' ∉ name) (value : List Char) :
    (key ++ [':']).isPrefixOf (name ++ ':' :: value) = true ↔ name = key := by
  rw [List.isPrefixOf_iff_prefix]
  constructor
  · rintro ⟨rest, hrest⟩
    rw [List.append_assoc, List.singleton_append] at hrest
    rw [← takeWhile_colon hname value, ← hrest, takeWhile_colon hkey]
  · rintro rfl
    exact ⟨value, by simp⟩

theorem HeaderField.colon_notMem (field : HeaderField) : ':' ∉ lowercase field.name := by
  intro hmem
  obtain ⟨c, hc, hlower⟩ := List.mem_map.mp hmem
  have hcolon : ∀ n < 128, (Char.ofNat n).toLower = ':' → n = 58 := by decide
  obtain ⟨-, hhigh, hne⟩ := field.name_printable c hc
  have hcode : c.toNat = 58 := hcolon c.toNat (by omega) (by rw [Char.ofNat_toNat]; exact hlower)
  apply hne
  rw [← Char.ofNat_toNat c, hcode]

theorem lowercase_append (a b : List Char) : lowercase (a ++ b) = lowercase a ++ lowercase b := List.map_append

/-- A first line begins with the name of its field. -/
theorem HeaderField.isPrefixOf_first (field : HeaderField) {key : String} (hkey : ':' ∉ key.toList)
    (value : List Char) :
    (key.toList ++ [':']).isPrefixOf (lowercase (field.name ++ ':' :: value)) = true ↔ field.key = key := by
  have hlower : lowercase (field.name ++ ':' :: value) = lowercase field.name ++ ':' :: lowercase value := by
    rw [lowercase_append]
    rfl
  rw [hlower, isPrefixOf_colon hkey field.colon_notMem]
  unfold HeaderField.key
  constructor
  · intro h
    rw [h, String.ofList_toList]
  · intro h
    rw [← h, String.toList_ofList]

/-- The blanks at the end of a first line are in its value. -/
theorem HeaderField.trimLine_first (field : HeaderField) :
    trimLine (field.name ++ ':' :: field.value) = field.name ++ ':' :: field.value.rdropWhile isWhitespace := by
  obtain ⟨c, name, hname⟩ := List.exists_cons_of_ne_nil field.name_ne_nil
  have hprintable := field.name_printable c (hname ▸ List.mem_cons_self)
  have hc : isWhitespace c = false := by
    obtain ⟨hlow, hhigh, -⟩ := hprintable
    unfold isWhitespace
    simp only [decide_eq_false_iff_not]
    omega
  have hdrop : (field.name ++ ':' :: field.value).dropWhile isWhitespace = field.name ++ ':' :: field.value := by
    rw [hname, List.cons_append, List.dropWhile_cons_of_neg (by simp [hc])]
  have hcolon : isWhitespace ':' = false := by decide
  unfold trimLine
  rw [hdrop]
  unfold List.rdropWhile
  rw [List.reverse_append, List.reverse_cons, List.append_assoc, List.singleton_append, List.dropWhile_append]
  split_ifs with hempty
  · rw [List.dropWhile_cons_of_neg (by simp [hcolon]), List.isEmpty_iff.mp hempty]
    simp
  · simp

theorem HeaderField.describesBody_first (field : HeaderField) :
    describesBody (field.name ++ ':' :: field.value) = true ↔ field.key ∈ bodyHeaders := by
  have hcolon : ∀ key ∈ bodyHeaders, ':' ∉ key.toList := by decide
  unfold describesBody
  rw [field.trimLine_first, List.any_eq_true]
  constructor
  · rintro ⟨key, hkey, hprefix⟩
    rw [(field.isPrefixOf_first (hcolon key hkey) _).mp hprefix]
    exact hkey
  · intro h
    exact ⟨field.key, h, (field.isPrefixOf_first (hcolon _ h) _).mpr rfl⟩

/-- The lines of a field are lines. -/
theorem HeaderField.line_plain (field : HeaderField) (hline : line ∈ field.lines) :
    line ≠ [] ∧ '\n' ∉ line ∧ '\r' ∉ line := by
  rcases List.mem_cons.mp hline with rfl | hfolded
  · have hname : ∀ c ∈ field.name, c ≠ '\n' ∧ c ≠ '\r' := by
      intro c hc
      obtain ⟨hlow, -, -⟩ := field.name_printable c hc
      constructor <;> rintro rfl <;> exact absurd hlow (by decide)
    refine ⟨by simp, ?_, ?_⟩
    · rw [List.mem_append, List.mem_cons]
      rintro (h | h | h)
      · exact (hname _ h).1 rfl
      · cases h
      · exact field.value_line.1 h
    · rw [List.mem_append, List.mem_cons]
      rintro (h | h | h)
      · exact (hname _ h).2 rfl
      · cases h
      · exact field.value_line.2 h
  · obtain ⟨hstart, hline⟩ := field.folded_lines line hfolded
    refine ⟨?_, hline⟩
    rintro rfl
    exact absurd hstart (by decide)

theorem HeaderField.isGroup_lines (field : HeaderField) : IsGroup isFolded field.lines := by
  obtain ⟨c, name, hname⟩ := List.exists_cons_of_ne_nil field.name_ne_nil
  obtain ⟨hlow, -, -⟩ := field.name_printable c (hname ▸ List.mem_cons_self)
  refine ⟨?_, fun line hline => (field.folded_lines line hline).1⟩
  unfold isFolded
  rw [hname, List.cons_append, List.head?_cons, decide_eq_false_iff_not]
  rintro (h | h)
  · rw [Option.some.inj h] at hlow
    exact absurd hlow (by decide)
  · rw [Option.some.inj h] at hlow
    exact absurd hlow (by decide)

end Fields

/-! ## Lines -/

section Lines

variable {line last rest : List Char} {lines : List (List Char)}

@[simp] theorem stripEnding_crlf (line : List Char) : stripEnding (line ++ crlf) = line := by
  have hline : line ++ crlf = line ++ ['\r'] ++ ['\n'] := by simp [crlf]
  rw [hline]
  unfold stripEnding
  rw [List.getLast?_concat, if_pos rfl, List.dropLast_concat, List.getLast?_concat, if_pos rfl, List.dropLast_concat]

theorem splitInclusive_crlf (h : '\n' ∉ line) (rest : List Char) :
    splitInclusive (line ++ crlf ++ rest) = (line ++ crlf) :: splitInclusive rest := by
  have hreturn : '\n' ∉ line ++ ['\r'] := by
    rw [List.mem_append, List.mem_singleton]
    rintro (hmem | hmem)
    · exact h hmem
    · cases hmem
  have hline : line ++ crlf = line ++ ['\r'] ++ ['\n'] := by simp [crlf]
  rw [hline, List.append_assoc _ ['\n'], List.singleton_append, splitInclusive_line hreturn]

theorem splitInclusive_crlf_lines (h : ∀ line ∈ lines, '\n' ∉ line) (rest : List Char) :
    splitInclusive ((lines.map (· ++ crlf)).flatten ++ rest) = lines.map (· ++ crlf) ++ splitInclusive rest := by
  induction lines with
  | nil => rfl
  | cons line lines ih =>
    obtain ⟨hline, hlines⟩ := List.forall_mem_cons.mp h
    rw [List.map_cons, List.flatten_cons, List.append_assoc, splitInclusive_crlf hline, ih hlines, List.cons_append]

theorem map_stripEnding_crlf (lines : List (List Char)) : (lines.map (· ++ crlf)).map stripEnding = lines := by
  have hstrip : (fun line => stripEnding (line ++ crlf)) = id := funext stripEnding_crlf
  rw [List.map_map]
  show lines.map (fun line => stripEnding (line ++ crlf)) = lines
  rw [hstrip, List.map_id]

theorem textLines_crlf_lines (h : ∀ line ∈ lines, '\n' ∉ line) (rest : List Char) :
    textLines ((lines.map (· ++ crlf)).flatten ++ rest) = lines ++ textLines rest := by
  unfold textLines
  rw [splitInclusive_crlf_lines h, List.map_append, map_stripEnding_crlf]

theorem intercalate_crlf (lines : List (List Char)) (last : List Char) :
    List.intercalate crlf (lines ++ [last]) = (lines.map (· ++ crlf)).flatten ++ last := by
  induction lines with
  | nil => simp
  | cons line lines ih =>
    have hcons : List.intercalate crlf (line :: lines ++ [last]) =
        line ++ crlf ++ List.intercalate crlf (lines ++ [last]) := by
      cases lines <;> simp [List.intercalate]
    rw [hcons, ih, List.map_cons, List.flatten_cons]
    simp only [List.append_assoc]

theorem Transport.line_plain (transport : Transport) (hline : line ∈ transport.lines) :
    line ≠ [] ∧ '\n' ∉ line ∧ '\r' ∉ line := by
  obtain ⟨field, -, hfield⟩ := List.mem_flatMap.mp hline
  exact field.line_plain hfield

/-- The lines of the transport headers. -/
theorem Transport.textLines_text (transport : Transport) :
    textLines transport.text = transport.lines ++ if transport.ending = .blankLine then [[]] else [] := by
  have hlines : ∀ line ∈ transport.lines, '\n' ∉ line := fun line hline => (transport.line_plain hline).2.1
  unfold Transport.text
  cases hending : transport.ending with
  | noBreak =>
    rw [if_neg (by decide), List.append_nil]
    show textLines (List.intercalate crlf transport.lines) = _
    rcases List.eq_nil_or_concat transport.lines with hnil | ⟨front, last, hconcat⟩
    · rw [hnil]
      rfl
    · rw [List.concat_eq_append] at hconcat
      obtain ⟨hne, hbreak, hreturn⟩ := transport.line_plain (hconcat ▸ List.mem_append_right front List.mem_cons_self)
      have hfront : ∀ line ∈ front, '\n' ∉ line := fun line hline =>
        hlines line (hconcat ▸ List.mem_append_left _ hline)
      have hlast : stripEnding last = last := by
        unfold stripEnding
        rw [if_neg]
        intro h
        exact hbreak (List.mem_of_getLast? h)
      rw [hconcat, intercalate_crlf, textLines_crlf_lines hfront]
      unfold textLines
      rw [splitInclusive_single hbreak hne, List.map_singleton, hlast]
  | lineBreak =>
    rw [if_neg (by decide), List.append_nil]
    have hflat := textLines_crlf_lines hlines []
    rw [List.append_nil] at hflat
    exact hflat.trans (List.append_nil _)
  | blankLine =>
    rw [if_pos rfl]
    exact textLines_crlf_lines hlines crlf

end Lines

/-! ## Reading -/

section Reading

variable {lines : List (List Char)} {body : List Char}

/-- **A header of lines** is read as these lines, and the body as it is. -/
theorem parseMessage_lines (h : ∀ line ∈ lines, line ≠ [] ∧ '\n' ∉ line) (body : List Char) :
    parseMessage ((lines.map (· ++ crlf)).flatten ++ (crlf ++ (body ++ crlf))) = ⟨group isFolded lines, body⟩ := by
  have hsplit : splitInclusive ((lines.map (· ++ crlf)).flatten ++ (crlf ++ (body ++ crlf))) =
      lines.map (· ++ crlf) ++ crlf :: splitInclusive (body ++ crlf) := by
    rw [splitInclusive_crlf_lines fun line hline => (h line hline).2]
    exact congrArg _ (splitInclusive_crlf List.not_mem_nil _)
  have hheader : (lines.map (· ++ crlf) ++ crlf :: splitInclusive (body ++ crlf)).takeWhile
      (fun line => stripEnding line ≠ []) = lines.map (· ++ crlf) := by
    have hnonempty : ∀ line ∈ lines.map (· ++ crlf), decide (stripEnding line ≠ []) = true := by
      intro line hline
      obtain ⟨line, hmem, rfl⟩ := List.mem_map.mp hline
      rw [stripEnding_crlf]
      simpa using (h line hmem).1
    rw [List.takeWhile_append_of_pos hnonempty, List.takeWhile_cons_of_neg (by decide), List.append_nil]
  unfold parseMessage
  dsimp only
  rw [hsplit, hheader, map_stripEnding_crlf, List.drop_append, List.drop_eq_nil_of_le (Nat.le_succ _),
    Nat.add_sub_cancel_left, List.nil_append, List.drop_succ_cons, List.drop_zero, splitInclusive_flatten, stripEnding_crlf]

/-- No line that is read has a line break. -/
theorem newline_notMem_parse (text : List Char) {field : List (List Char)} (hfield : field ∈ (parseMessage text).fields)
    {line : List Char} (hline : line ∈ field) : '\n' ∉ line := by
  have hmem : line ∈ (group isFolded _).flatten := List.mem_flatten.mpr ⟨field, hfield, hline⟩
  rw [flatten_group] at hmem
  obtain ⟨whole, hwhole, rfl⟩ := List.mem_map.mp hmem
  obtain ⟨hne, hinside⟩ := of_mem_splitInclusive (List.takeWhile_subset _ hwhole)
  unfold stripEnding
  split_ifs with hend hreturn
  · exact fun h => hinside (List.mem_of_mem_dropLast h)
  · exact hinside
  · rw [← List.dropLast_append_getLast hne]
    intro h
    rcases List.mem_append.mp h with hfront | hlast
    · exact hinside hfront
    · rw [List.mem_singleton] at hlast
      exact hend ((List.getLast?_eq_some_getLast hne).trans (congrArg some hlast.symm))

end Reading

/-! ## The synthesized header -/

section Header

variable (file : MsgFile)

/-- The lines of the transport headers that are left. -/
def MsgFile.filteredLines : List (List Char) :=
  file.fields.flatMap fun field => field.lines.filter fun line => !describesBody line

/-- The blank line in the middle of the header. -/
def MsgFile.blankLines : List (List Char) :=
  if ∃ transport ∈ file.transport, transport.ending = .blankLine then [[]] else []

/-- The lines behind those of the transport headers. -/
def MsgFile.addedLines : List (List Char) :=
  (file.missing "subject" "Subject: " (some (file.subject.getD []))).flatten ++
    ((file.missing "from" "From: " (some (file.senderName.getD []))).flatten ++
      ((file.missing "date" "Date: " (file.submitTime.bind filetimeToRfc2822)).flatten ++ file.partFields.flatten))

theorem transportLines :
    (textLines (file.properties.transportHeaders.getD [])).filter (fun line => !describesBody line) =
      file.filteredLines ++ file.blankLines := by
  unfold MsgFile.filteredLines MsgFile.blankLines MsgFile.fields MsgFile.properties
  cases file.transport with
  | none => rfl
  | some transport =>
    show (textLines transport.text).filter _ = transport.fields.flatMap _ ++ _
    rw [transport.textLines_text, List.filter_append]
    unfold Transport.lines
    rw [List.filter_flatMap]
    congr 1
    by_cases hending : transport.ending = .blankLine
    · have hexists : ∃ other ∈ some transport, other.ending = .blankLine := ⟨transport, rfl, hending⟩
      rw [if_pos hending, if_pos hexists]
      decide
    · have hnone : ¬∃ other ∈ some transport, other.ending = .blankLine := by
        rintro ⟨other, hother, hblank⟩
        exact hending (Option.some.inj hother ▸ hblank)
      rw [if_neg hending, if_neg hnone]
      rfl

/-- A field is found by its first line. -/
theorem hasHeader_filtered {name : String} (hbody : name ∉ bodyHeaders) (hcolon : ':' ∉ name.toList)
    (hhead : ∀ c ∈ name.toList.head?, c ≠ ' ' ∧ c ≠ '\t') (hne : name.toList ≠ []) :
    hasHeader name (file.filteredLines ++ file.blankLines) = true ↔ ∃ field ∈ file.fields, field.key = name := by
  have hblank : hasHeader name file.blankLines = false := by
    unfold MsgFile.blankLines hasHeader
    split_ifs
    · simp [lowercase]
    · rfl
  have hfolded : ∀ line, isFolded line = true → (name.toList ++ [':']).isPrefixOf (lowercase line) = false := by
    intro line hline
    obtain ⟨c, tail, hname⟩ := List.exists_cons_of_ne_nil hne
    obtain ⟨hspace, htab⟩ := hhead c (by rw [hname]; rfl)
    unfold isFolded at hline
    rw [decide_eq_true_eq] at hline
    cases line with
    | nil => rw [hname]; rfl
    | cons d line =>
      rw [hname, List.cons_append]
      show (c == d.toLower && _) = false
      have hd : d.toLower ≠ c := by
        rcases hline with h | h
        · rw [Option.some.inj h]
          exact fun heq => hspace heq.symm
        · rw [Option.some.inj h]
          exact fun heq => htab heq.symm
      rw [beq_eq_false_iff_ne.mpr (Ne.symm hd), Bool.false_and]
  have hsplit : hasHeader name (file.filteredLines ++ file.blankLines) = hasHeader name file.filteredLines := by
    unfold hasHeader at hblank ⊢
    rw [List.any_append, hblank, Bool.or_false]
  rw [hsplit]
  unfold hasHeader MsgFile.filteredLines
  rw [List.any_eq_true]
  constructor
  · rintro ⟨line, hline, hprefix⟩
    obtain ⟨field, hfield, hmem⟩ := List.mem_flatMap.mp hline
    rcases List.mem_cons.mp (List.mem_of_mem_filter hmem) with rfl | hcontinues
    · exact ⟨field, hfield, (field.isPrefixOf_first hcolon _).mp hprefix⟩
    · rw [hfolded line (field.folded_lines line hcontinues).1] at hprefix
      cases hprefix
  · rintro ⟨field, hfield, hkey⟩
    refine ⟨field.name ++ ':' :: field.value, List.mem_flatMap.mpr ⟨field, hfield, ?_⟩,
      (field.isPrefixOf_first hcolon _).mpr hkey⟩
    rw [List.mem_filter]
    refine ⟨List.mem_cons_self, ?_⟩
    rw [Bool.not_eq_true', ← Bool.not_eq_true, field.describesBody_first, hkey]
    exact hbody

theorem addHeader_eq {name key : String} {value : Option (List Char)} {lines : List (List Char)}
    (h : hasHeader name lines = true ↔ ∃ field ∈ file.fields, field.key = name) :
    addHeader name key value lines = lines ++ (file.missing name key value).flatten := by
  unfold addHeader MsgFile.missing
  by_cases hfield : ∃ field ∈ file.fields, field.key = name
  · rw [if_pos (h.mpr hfield), if_pos hfield, List.flatten_nil, List.append_nil]
  · rw [if_neg (mt h.mp hfield), if_neg hfield]
    cases value <;> simp

/-- A line that is put there has its own name. -/
theorem hasHeader_missing {name other key : String} {value : Option (List Char)} (lines : List (List Char))
    (h : ∀ text, (name.toList ++ [':']).isPrefixOf (lowercase (key.toList ++ text)) = false) :
    hasHeader name (lines ++ (file.missing other key value).flatten) = hasHeader name lines := by
  have hmissing : hasHeader name (file.missing other key value).flatten = false := by
    unfold MsgFile.missing hasHeader
    split_ifs
    · rfl
    · cases value with
      | none => rfl
      | some text => simpa using h text
  unfold hasHeader at hmissing ⊢
  rw [List.any_append, hmissing, Bool.or_false]

/-- **The lines of the synthesized header.** -/
theorem headerLines_eq : headerLines file.properties = file.filteredLines ++ file.blankLines ++ file.addedLines := by
  unfold headerLines
  rw [transportLines]
  dsimp only
  have hsubject := @hasHeader_filtered file "subject" (by decide) (by decide) (by simp) (by decide)
  have hfrom := @hasHeader_filtered file "from" (by decide) (by decide) (by simp) (by decide)
  have hdate := @hasHeader_filtered file "date" (by decide) (by decide) (by simp) (by decide)
  generalize file.filteredLines ++ file.blankLines = lines at hsubject hfrom hdate
  unfold MsgFile.addedLines
  generalize hsubjects : (file.missing "subject" "Subject: " (some (file.subject.getD []))).flatten = subjects
  generalize hsenders : (file.missing "from" "From: " (some (file.senderName.getD []))).flatten = senders
  have hfirst : addHeader "subject" "Subject: " (some (file.properties.subject.getD [])) lines = lines ++ subjects :=
    hsubjects ▸ addHeader_eq file hsubject
  -- the lines that are put there are no sender and no date
  have hfromSubjects : hasHeader "from" (lines ++ subjects) = hasHeader "from" lines :=
    hsubjects ▸ hasHeader_missing file lines fun _ => rfl
  have hdateSubjects : hasHeader "date" (lines ++ subjects) = hasHeader "date" lines :=
    hsubjects ▸ hasHeader_missing file lines fun _ => rfl
  have hdateSenders : hasHeader "date" (lines ++ subjects ++ senders) = hasHeader "date" (lines ++ subjects) :=
    hsenders ▸ hasHeader_missing file (lines ++ subjects) fun _ => rfl
  have hsecond : addHeader "from" "From: " (some (file.properties.senderName.getD [])) (lines ++ subjects) =
      lines ++ subjects ++ senders := hsenders ▸ addHeader_eq file (hfromSubjects ▸ hfrom)
  have hthird : addHeader "date" "Date: " (file.properties.submitTime.bind filetimeToRfc2822)
      (lines ++ subjects ++ senders) = lines ++ subjects ++ senders ++
        (file.missing "date" "Date: " (file.submitTime.bind filetimeToRfc2822)).flatten :=
    addHeader_eq file (hdateSenders ▸ hdateSubjects ▸ hdate)
  rw [hfirst, hsecond, hthird]
  simp only [List.append_assoc]
  rfl

end Header

/-! ## Dates are lines -/

theorem newline_notMem_toString (n : ℕ) : '\n' ∉ (toString n).toList := by
  intro h
  exact absurd (isDigit_of_mem_toString h) (by decide)

theorem newline_notMem_twoDigits (n : ℕ) : '\n' ∉ (twoDigits n).toList := by
  unfold twoDigits
  split_ifs
  · rw [String.toList_append, List.mem_append]
    rintro (h | h)
    · exact absurd h (by decide)
    · exact newline_notMem_toString n h
  · exact newline_notMem_toString n

theorem newline_notMem_getD (names : List String) (h : ∀ name ∈ names, '\n' ∉ name.toList) (n : ℕ) :
    '\n' ∉ (names.getD n "").toList := by
  rw [List.getD_eq_getElem?_getD]
  cases hname : names[n]? with
  | none => exact List.not_mem_nil
  | some name => exact h name (List.mem_of_getElem? hname)

theorem newline_notMem_date {filetime : ℕ} {text : List Char} (h : filetimeToRfc2822 filetime = some text) :
    '\n' ∉ text := by
  have hweekday := newline_notMem_getD weekdays (by decide)
  have hmonth := newline_notMem_getD months (by decide)
  unfold filetimeToRfc2822 at h
  dsimp only at h
  split_ifs at h
  rw [← Option.some.inj h]
  simp only [String.toList_append, List.mem_append, not_or]
  refine ⟨⟨⟨⟨⟨⟨⟨⟨⟨⟨⟨⟨⟨hweekday _, by decide⟩, newline_notMem_twoDigits _⟩, by decide⟩, hmonth _⟩, by decide⟩,
    newline_notMem_toString _⟩, by decide⟩, newline_notMem_twoDigits _⟩, by decide⟩, newline_notMem_twoDigits _⟩,
    by decide⟩, newline_notMem_twoDigits _⟩, by decide⟩

/-! ## When the synthesis is faithful -/

section Faithful

variable {file : MsgFile}

/-- The lines of the fields that do not describe the body. -/
def MsgFile.keptLines (file : MsgFile) : List (List Char) :=
  (file.fields.filter fun field => field.key ∉ bodyHeaders).flatMap HeaderField.lines

theorem flatten_message (file : MsgFile) : file.message.fields.flatten = file.keptLines ++ file.addedLines := by
  unfold MsgFile.message MsgFile.keptLines MsgFile.addedLines
  simp only [List.flatten_append, List.flatMap_def]

theorem msgToEml_eq (file : MsgFile) : msgToEml file.properties =
    .ok (((headerLines file.properties).map (· ++ crlf)).flatten ++ (crlf ++ (file.message.body ++ crlf))) := by
  have hpayload : ¬(file.properties.transportHeaders = none ∧ file.properties.plainBody = none ∧
      file.properties.htmlBody = none) := by
    rintro ⟨htransport, hplain, hhtml⟩
    have hnone : file.transport = none := Option.map_eq_none_iff.mp htransport
    have hplain : file.plainBody = none := hplain
    have hhtml : file.htmlBody = none := hhtml
    rcases file.payload with h | h | h
    · rw [hnone] at h
      cases h
    · rw [hplain] at h
      cases h
    · rw [hhtml] at h
      cases h
  obtain ⟨front, last, hlines⟩ : ∃ front last, headerLines file.properties = front ++ [last] := by
    rw [headerLines_eq]
    unfold MsgFile.addedLines MsgFile.partFields
    simp only [List.flatten_cons, List.flatten_nil, List.append_nil, ← List.append_assoc]
    exact ⟨_, _, rfl⟩
  unfold msgToEml
  rw [if_neg hpayload, hlines, intercalate_crlf]
  simp only [List.map_append, List.flatten_append, List.map_singleton, List.flatten_singleton, List.append_assoc]
  rfl

/-- Whether a synthesized message is faithful is a question of its text. -/
theorem faithful_iff_parse (file : MsgFile) : Faithful file ↔
    parseMessage (((headerLines file.properties).map (· ++ crlf)).flatten ++
      (crlf ++ (file.message.body ++ crlf))) = file.message := by
  unfold Faithful
  rw [msgToEml_eq]
  constructor
  · intro h
    exact Except.ok.inj h
  · intro h
    exact congrArg Except.ok h

/-- A line of the header that a property is put in. -/
theorem missing_plain {name key : String} {value : Option (List Char)} (hkey : key.toList ≠ [] ∧ '\n' ∉ key.toList)
    (h : (∀ field ∈ file.fields, field.key ≠ name) → ∀ text ∈ value, '\n' ∉ text) :
    ∀ line ∈ (file.missing name key value).flatten, line ≠ [] ∧ '\n' ∉ line := by
  unfold MsgFile.missing
  split_ifs with hfield
  · exact fun line hline => absurd hline List.not_mem_nil
  · push Not at hfield
    cases value with
    | none => exact fun line hline => absurd hline List.not_mem_nil
    | some text =>
      intro line hline
      have hline : line = key.toList ++ text := by simpa using hline
      rw [hline]
      refine ⟨by simp [hkey.1], ?_⟩
      rw [List.mem_append, not_or]
      exact ⟨hkey.2, h hfield text rfl⟩

theorem addedLines_plain (hsubject : (∀ field ∈ file.fields, field.key ≠ "subject") → '\n' ∉ file.subject.getD [])
    (hsender : (∀ field ∈ file.fields, field.key ≠ "from") → '\n' ∉ file.senderName.getD []) :
    ∀ line ∈ file.addedLines, line ≠ [] ∧ '\n' ∉ line := by
  have hparts : ∀ line ∈ file.partFields.flatten, line ≠ [] ∧ '\n' ∉ line := by
    unfold MsgFile.partFields
    generalize file.htmlBody.isSome = html
    cases html <;> decide
  unfold MsgFile.addedLines
  intro line hline
  simp only [List.mem_append] at hline
  rcases hline with hline | hline | hdate | hpart
  · exact missing_plain (by decide) (fun hmissing text htext => Option.some.inj htext ▸ hsubject hmissing) line hline
  · exact missing_plain (by decide) (fun hmissing text htext => Option.some.inj htext ▸ hsender hmissing) line hline
  · refine missing_plain (by decide) (fun _ text htext => ?_) line hdate
    obtain ⟨filetime, -, hdate⟩ := Option.bind_eq_some_iff.mp htext
    exact newline_notMem_date hdate
  · exact hparts line hpart

/-- The fields that are expected begin with a line of their own. -/
theorem isGroup_message (file : MsgFile) : ∀ field ∈ file.message.fields, IsGroup isFolded field := by
  have hmissing : ∀ (name key : String) (value : Option (List Char)), (∀ text, isFolded (key.toList ++ text) = false) →
      ∀ field ∈ file.missing name key value, IsGroup isFolded field := by
    intro name key value hkey field hfield
    unfold MsgFile.missing at hfield
    split_ifs at hfield
    · cases hfield
    · cases value with
      | none => cases hfield
      | some text =>
        obtain rfl : field = [key.toList ++ text] := by simpa using hfield
        exact ⟨hkey text, fun line hline => absurd hline List.not_mem_nil⟩
  have hparts : ∀ field ∈ file.partFields, IsGroup isFolded field := by
    intro field hfield
    unfold MsgFile.partFields at hfield
    simp only [List.mem_cons, List.not_mem_nil, or_false] at hfield
    rcases hfield with rfl | rfl | rfl
    · exact ⟨by decide, fun line hline => absurd hline List.not_mem_nil⟩
    · exact ⟨rfl, fun line hline => absurd hline List.not_mem_nil⟩
    · exact ⟨by decide, fun line hline => absurd hline List.not_mem_nil⟩
  intro field hfield
  unfold MsgFile.message at hfield
  simp only [List.mem_append] at hfield
  rcases hfield with hkept | hsubject | hsender | hdate | hpart
  · obtain ⟨header, -, rfl⟩ := List.mem_map.mp hkept
    exact header.isGroup_lines
  · exact hmissing _ _ _ (fun _ => rfl) field hsubject
  · exact hmissing _ _ _ (fun _ => rfl) field hsender
  · exact hmissing _ _ _ (fun _ => rfl) field hdate
  · exact hparts field hpart

/-- A line that is left is none that describes the body. -/
theorem describesBody_of_filtered {line : List Char} (h : line ∈ file.filteredLines) : describesBody line = false := by
  obtain ⟨field, -, hline⟩ := List.mem_flatMap.mp h
  simpa using (List.mem_filter.mp hline).2

theorem line_plain_of_filtered {line : List Char} (h : line ∈ file.filteredLines) : line ≠ [] ∧ '\n' ∉ line := by
  obtain ⟨field, -, hline⟩ := List.mem_flatMap.mp h
  obtain ⟨hne, hbreak, -⟩ := field.line_plain (List.mem_of_mem_filter hline)
  exact ⟨hne, hbreak⟩

/-- When the lines that are left are those of the fields that do not describe the body. By induction on the
    fields; the lines that are left are at least as many. -/
theorem filtered_eq (fields : List HeaderField)
    (hkept : ∀ field ∈ fields, field.key ∉ bodyHeaders → ∀ line ∈ field.folded, describesBody line = false) :
    ((fields.filter fun field => field.key ∉ bodyHeaders).flatMap HeaderField.lines).length ≤
        (fields.flatMap fun field => field.lines.filter fun line => !describesBody line).length ∧
      ((fields.flatMap fun field => field.lines.filter fun line => !describesBody line) =
          (fields.filter fun field => field.key ∉ bodyHeaders).flatMap HeaderField.lines ↔
        ∀ field ∈ fields, field.key ∈ bodyHeaders → ∀ line ∈ field.folded, describesBody line = true) := by
  induction fields with
  | nil => simp
  | cons field fields ih =>
    obtain ⟨hfield, hfields⟩ := List.forall_mem_cons.mp hkept
    obtain ⟨hle, hiff⟩ := ih hfields
    rw [List.flatMap_cons, List.forall_mem_cons]
    by_cases hbody : field.key ∈ bodyHeaders
    · have hfirst : describesBody (field.name ++ ':' :: field.value) = true := field.describesBody_first.mpr hbody
      rw [List.filter_cons_of_neg (by simpa using hbody), List.length_append]
      refine ⟨by omega, ?_⟩
      have hnil : (field.lines.filter fun line => !describesBody line) = [] ↔
          ∀ line ∈ field.folded, describesBody line = true := by
        rw [List.filter_eq_nil_iff, HeaderField.lines, List.forall_mem_cons]
        simp [hfirst]
      constructor
      · intro heq
        have hlength := congrArg List.length heq
        rw [List.length_append] at hlength
        have hempty : (field.lines.filter fun line => !describesBody line) = [] :=
          List.eq_nil_of_length_eq_zero (by omega)
        rw [hempty, List.nil_append] at heq
        exact ⟨fun _ => hnil.mp hempty, hiff.mp heq⟩
      · rintro ⟨hdropped, hothers⟩
        rw [hnil.mpr (hdropped hbody), List.nil_append]
        exact hiff.mpr hothers
    · have hfirst : describesBody (field.name ++ ':' :: field.value) = false := by
        rw [← Bool.not_eq_true, field.describesBody_first]
        exact hbody
      have hall : (field.lines.filter fun line => !describesBody line) = field.lines := by
        rw [List.filter_eq_self, HeaderField.lines, List.forall_mem_cons]
        refine ⟨by simp [hfirst], fun line hline => ?_⟩
        rw [hfield hbody line hline]
        rfl
      rw [List.filter_cons_of_pos (by simpa using hbody), List.flatMap_cons, hall, List.length_append,
        List.length_append, List.append_cancel_left_eq, hiff]
      exact ⟨by omega, fun h => ⟨fun hin => absurd hin hbody, h⟩, fun h => h.2⟩

/-- A blank line in the header hides the fields behind it. -/
theorem ended_of_parse (h : parseMessage
      (((file.filteredLines ++ file.blankLines ++ file.addedLines).map (· ++ crlf)).flatten ++
        (crlf ++ (file.message.body ++ crlf))) = file.message) : file.blankLines = [] := by
  by_contra hblank
  have hblank : file.blankLines = [[]] := by
    unfold MsgFile.blankLines at hblank ⊢
    split_ifs at hblank ⊢
    · rfl
    · exact absurd rfl hblank
  have htext : ((file.filteredLines ++ file.blankLines ++ file.addedLines).map (· ++ crlf)).flatten ++
      (crlf ++ (file.message.body ++ crlf)) = (file.filteredLines.map (· ++ crlf)).flatten ++
        (crlf ++ (((file.addedLines.map (· ++ crlf)).flatten ++ crlf ++ file.message.body) ++ crlf)) := by
    rw [hblank]
    simp only [List.map_append, List.map_singleton, List.flatten_append, List.flatten_singleton, List.nil_append,
      List.append_assoc]
  rw [htext, parseMessage_lines fun line hline => line_plain_of_filtered hline] at h
  have hflat := congrArg (fun message => message.fields.flatten) h
  dsimp only at hflat
  rw [flatten_group, flatten_message] at hflat
  have hlast : "Content-Transfer-Encoding: 8bit".toList ∈ file.addedLines := by
    unfold MsgFile.addedLines MsgFile.partFields
    simp
  have hdescribes := describesBody_of_filtered (hflat ▸ List.mem_append_right _ hlast)
  exact absurd hdescribes (by decide)

/-- A value that is put in the header without a line break in it. -/
theorem newline_notMem_missing (h : ∀ field ∈ file.message.fields, ∀ line ∈ field, '\n' ∉ line) {name key : String}
    {text : List Char} (hmem : ∀ field ∈ file.missing name key (some text), field ∈ file.message.fields)
    (hmissing : ∀ field ∈ file.fields, field.key ≠ name) : '\n' ∉ text := by
  have hnone : ¬∃ field ∈ file.fields, field.key = name := fun ⟨field, hfield, hkey⟩ => hmissing field hfield hkey
  have hline : [key.toList ++ text] ∈ file.missing name key (some text) := by
    unfold MsgFile.missing
    rw [if_neg hnone]
    exact List.mem_cons_self
  have hbreak := h _ (hmem _ hline) _ List.mem_cons_self
  exact fun hin => hbreak (List.mem_append_right _ hin)

/-- **When the synthesis is faithful.** -/
theorem faithful_iff (file : MsgFile) : Faithful file ↔ Plain file := by
  rw [faithful_iff_parse, headerLines_eq]
  constructor
  · intro h
    have hblank := ended_of_parse h
    have hbreaks : ∀ field ∈ file.message.fields, ∀ line ∈ field, '\n' ∉ line := by
      rw [← h]
      exact fun field hfield line hline => newline_notMem_parse _ hfield hline
    have hsubjects : ∀ field ∈ file.missing "subject" "Subject: " (some (file.subject.getD [])),
        field ∈ file.message.fields := by
      intro field hfield
      unfold MsgFile.message
      simp only [List.mem_append, hfield, true_or, or_true]
    have hsubject : (∀ field ∈ file.fields, field.key ≠ "subject") → '\n' ∉ file.subject.getD [] :=
      newline_notMem_missing hbreaks hsubjects
    have hsenders : ∀ field ∈ file.missing "from" "From: " (some (file.senderName.getD [])),
        field ∈ file.message.fields := by
      intro field hfield
      unfold MsgFile.message
      simp only [List.mem_append, hfield, true_or, or_true]
    have hsender : (∀ field ∈ file.fields, field.key ≠ "from") → '\n' ∉ file.senderName.getD [] :=
      newline_notMem_missing hbreaks hsenders
    have hlines : ∀ line ∈ file.filteredLines ++ file.addedLines, line ≠ [] ∧ '\n' ∉ line := by
      intro line hline
      rcases List.mem_append.mp hline with hline | hline
      · exact line_plain_of_filtered hline
      · exact addedLines_plain hsubject hsender line hline
    rw [hblank, List.append_nil, parseMessage_lines hlines] at h
    have hflat := congrArg (fun message => message.fields.flatten) h
    dsimp only at hflat
    rw [flatten_group, flatten_message, List.append_cancel_right_eq] at hflat
    have hkept : ∀ field ∈ file.fields, field.key ∉ bodyHeaders →
        ∀ line ∈ field.folded, describesBody line = false := by
      intro field hfield hbody line hline
      apply describesBody_of_filtered
      rw [hflat]
      exact List.mem_flatMap.mpr ⟨field, List.mem_filter.mpr ⟨hfield, by simpa using hbody⟩,
        List.mem_cons_of_mem _ hline⟩
    refine ⟨?_, (filtered_eq file.fields hkept).2.mp hflat, hkept, hsubject, hsender⟩
    intro transport htransport hending
    unfold MsgFile.blankLines at hblank
    rw [if_pos ⟨transport, htransport, hending⟩] at hblank
    cases hblank
  · intro h
    have hblank : file.blankLines = [] := by
      unfold MsgFile.blankLines
      rw [if_neg]
      rintro ⟨transport, htransport, hending⟩
      exact h.ended transport htransport hending
    have hfiltered : file.filteredLines = file.keptLines := (filtered_eq file.fields h.kept).2.mpr h.dropped
    have hlines : ∀ line ∈ file.filteredLines ++ file.addedLines, line ≠ [] ∧ '\n' ∉ line := by
      intro line hline
      rcases List.mem_append.mp hline with hline | hline
      · exact line_plain_of_filtered hline
      · exact addedLines_plain h.subject h.sender line hline
    rw [hblank, List.append_nil, parseMessage_lines hlines, hfiltered, ← flatten_message,
      group_flatten (isGroup_message file)]

end Faithful

namespace MsgSample

def senderField : HeaderField :=
  ⟨"From".toList, " a@x".toList, [], by decide, List.forall_iff_forall_mem.mp (by decide), by decide, by decide⟩

/-- A field that describes the body, on two lines. -/
def typeField : HeaderField :=
  ⟨"Content-Type".toList, " multipart/mixed;".toList, [" boundary=b".toList], by decide,
    List.forall_iff_forall_mem.mp (by decide), by decide, by decide⟩

def file (fields : List HeaderField) (ending : Ending) (subject : String) : MsgFile :=
  ⟨some ⟨fields, ending⟩, some subject.toList, none, some "hello".toList, none, none, .inl rfl⟩

/-- Transport headers with a blank line at the end, a folded field that describes the body, and a subject with a
    line break in it. -/
theorem messages_misread :
    ¬Faithful (file [senderField] .blankLine "hi") ∧
      ¬Faithful (file [senderField, typeField] .lineBreak "hi") ∧
      ¬Faithful (file [senderField] .lineBreak "hi\nBcc: b@y") := by
  rw [faithful_iff_parse, faithful_iff_parse, faithful_iff_parse]
  decide

end MsgSample

end Anole.Msg
