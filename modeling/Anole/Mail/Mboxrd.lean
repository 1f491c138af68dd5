import Anole.Mail.MboxTotal

/-!
# Mailboxes in the mboxrd format

A writer of mboxrd puts one more `>` before each line of a mail that is `From ` after any number of
`>`. The reader should take one off again. `unescape_from_line` does so for `>From ` only: what was
`>From ` before the writer is not undone.

* `splitIntoSpans_writeMboxrd`: on what the writer makes, the reader finds each mail, as it was
  quoted, with the empty line of the writer.
* `mboxrd_round_trip_iff`: when the reader gives back the mails of the writer.
-/

open Common

namespace Anole

/-! ## The writer -/

/-- A mail for the writer: what is after `From ` on the line of the envelope, and the lines. -/
structure Mail where
  sender : List Char
  lines : List (List Char)

/-- A line without a line terminator. -/
def TextLine (line : List Char) : Prop := '\n' ∉ line ∧ line.getLast? ≠ some '\r'

instance (line : List Char) : Decidable (TextLine line) := inferInstanceAs (Decidable (_ ∧ _))

/-- `>*From `. -/
def isQuotable (line : List Char) : Bool := isEnvelope (line.dropWhile (· = '>'))

/-- `>+From `. -/
def isQuoted (line : List Char) : Bool := line.head? = some '>' && isQuotable line

/-- One `>` more before a line that is `>*From `. -/
def quoteFromLine (line : List Char) : List Char := if isQuotable line then '>' :: line else line

def Mail.envelope (mail : Mail) : List Char := ['F', 'r', 'o', 'm', ' '] ++ mail.sender

/-- The lines of a mail as the writer has them between two envelopes. -/
def Mail.quoted (mail : Mail) : List (List Char) := mail.lines.map quoteFromLine ++ [[]]

/-- A mailbox in the mboxrd format. -/
def writeMboxrd (mails : List Mail) : List Char :=
  ((mails.flatMap fun mail => mail.envelope :: mail.quoted).map (· ++ ['\n'])).flatten

/-- A mail that the writer can be given: text lines, and no declared length in its header. -/
def Mail.Plain (mail : Mail) : Prop :=
  TextLine mail.sender ∧ (∀ line ∈ mail.lines, TextLine line) ∧
    contentLengthOf (mail.lines.takeWhile fun line => !isBlank line) = none

instance (mail : Mail) : Decidable mail.Plain := inferInstanceAs (Decidable (_ ∧ _ ∧ _))

/-! ## Quoting -/

section Quoting

variable {line : List Char} {mail : Mail}

theorem isEnvelope_iff : isEnvelope line = true ↔ ∃ rest, line = 'F' :: 'r' :: 'o' :: 'm' :: ' ' :: rest := by
  rw [isEnvelope, List.isPrefixOf_iff_prefix]
  exact ⟨fun ⟨rest, hrest⟩ => ⟨rest, hrest.symm⟩, fun ⟨rest, hrest⟩ => ⟨rest, hrest.symm⟩⟩

theorem isQuotable_of_isEnvelope (h : isEnvelope line = true) : isQuotable line = true := by
  obtain ⟨rest, rfl⟩ := isEnvelope_iff.mp h
  exact h

/-- A quotable line has the letters of `From` in it. -/
theorem mem_of_isQuotable (h : isQuotable line = true) : 'F' ∈ line := by
  obtain ⟨rest, hrest⟩ := isEnvelope_iff.mp h
  refine (List.dropWhile_suffix (· = '>')).subset ?_
  rw [hrest]
  exact List.mem_cons_self

theorem Mail.isEnvelope_envelope (mail : Mail) : isEnvelope mail.envelope = true := isEnvelope_iff.mpr ⟨_, rfl⟩

/-- **No quoted line is an envelope.** -/
theorem isEnvelope_quoteFromLine (line : List Char) : isEnvelope (quoteFromLine line) = false := by
  rw [quoteFromLine]
  split
  · rfl
  · next hnot =>
    by_contra henvelope
    exact hnot (isQuotable_of_isEnvelope (by simpa using henvelope))

/-- **One `>` is taken off** unless there was one before. -/
theorem unescapeFromLine_quoteFromLine (line : List Char) :
    unescapeFromLine (quoteFromLine line) true = if isQuoted line then '>' :: line else line := by
  cases hline : line with
  | nil => rfl
  | cons c rest =>
    by_cases hc : c = '>'
    · subst hc
      rw [quoteFromLine, isQuoted]
      by_cases hquotable : isQuotable ('>' :: rest) = true
      · rw [if_pos hquotable, hquotable]
        rfl
      · have hrest : ¬ isEnvelope rest = true := fun henvelope => hquotable (by
          rw [isQuotable, List.dropWhile_cons_of_pos (by simp)]
          exact isQuotable_of_isEnvelope henvelope)
        simp [hquotable, unescapeFromLine, hrest]
    · have hhead : isQuoted (c :: rest) = false := by simp [isQuoted, hc]
      rw [quoteFromLine, hhead]
      have hdrop : isQuotable (c :: rest) = isEnvelope (c :: rest) := by
        rw [isQuotable, List.dropWhile_cons_of_neg (by simpa using hc)]
      by_cases hquotable : isQuotable (c :: rest) = true
      · rw [if_pos hquotable]
        rw [hdrop] at hquotable
        simp [unescapeFromLine, hquotable]
      · rw [if_neg hquotable, unescapeFromLine]
        · rfl
        · rintro rest' ⟨⟩
          exact hc rfl

theorem isBlank_quoteFromLine (line : List Char) : isBlank (quoteFromLine line) = isBlank line := by
  rw [quoteFromLine]
  split
  · next hquotable =>
    have hnot : ¬ isBlank line = true := fun hblank => by
      have := List.all_eq_true.mp hblank 'F' (mem_of_isQuotable hquotable)
      cases this
    rw [Bool.not_eq_true] at hnot
    rw [hnot]
    rfl
  · rfl

/-- A line that starts with another letter than `c` declares no length. -/
theorem lineLength_eq_none {c : Char} {rest : List Char} (hblank : isWhitespace c = false) (hcolon : c ≠ ':')
    (hlower : c.toLower ≠ 'c') : lineLength (c :: rest) = none := by
  have hname : ((trimChars ((c :: rest).takeWhile (· ≠ ':'))).map Char.toLower).head? = some c.toLower := by
    rw [List.takeWhile_cons_of_pos (by simpa using hcolon), trimChars,
      List.dropWhile_cons_of_neg (by simp [hblank]), rdropWhile_cons]
    split
    · simp [List.rdropWhile_singleton, hblank]
    · rfl
  rw [lineLength]
  split
  · rfl
  · rw [if_neg]
    intro hlength
    rw [hlength] at hname
    exact hlower (Option.some.inj hname).symm

theorem quotable_head (h : isQuotable line = true) : ∃ rest, line = '>' :: rest ∨ line = 'F' :: rest := by
  cases line with
  | nil => cases h
  | cons c rest =>
    refine ⟨rest, ?_⟩
    by_cases hc : c = '>'
    · exact .inl (by rw [hc])
    · rw [isQuotable, List.dropWhile_cons_of_neg (by simpa using hc)] at h
      obtain ⟨rest', hrest⟩ := isEnvelope_iff.mp h
      exact .inr (by rw [(List.cons.inj hrest).1])

/-- **Quoting declares no length** and hides none. -/
theorem lineLength_quoteFromLine (line : List Char) : lineLength (quoteFromLine line) = lineLength line := by
  rw [quoteFromLine]
  split
  · next hquotable =>
    obtain ⟨rest, rfl | rfl⟩ := quotable_head hquotable
    · rw [lineLength_eq_none rfl (by decide) (by decide), lineLength_eq_none rfl (by decide) (by decide)]
    · rw [lineLength_eq_none rfl (by decide) (by decide), lineLength_eq_none rfl (by decide) (by decide)]
  · rfl

theorem contentLengthOf_quoted (h : mail.Plain) :
    contentLengthOf (mail.quoted.takeWhile fun line => !isBlank line) = none := by
  have hheader : mail.quoted.takeWhile (fun line => !isBlank line) =
      (mail.lines.takeWhile fun line => !isBlank line).map quoteFromLine := by
    rw [Mail.quoted]
    induction mail.lines with
    | nil => rfl
    | cons line lines ih =>
      rw [List.map_cons, List.cons_append, List.takeWhile_cons, List.takeWhile_cons, isBlank_quoteFromLine, ih]
      split <;> rfl
  rw [hheader, contentLengthOf, List.findSome?_map]
  have hsame : lineLength ∘ quoteFromLine = lineLength := funext lineLength_quoteFromLine
  rw [hsame]
  exact h.2.2

/-- **Quoted lines are text lines.** -/
theorem TextLine.quoted (h : TextLine line) : TextLine (quoteFromLine line) := by
  rw [quoteFromLine]
  split
  · next hquotable =>
    refine ⟨?_, ?_⟩
    · rw [List.mem_cons, not_or]
      exact ⟨by decide, h.1⟩
    · cases line with
      | nil => cases hquotable
      | cons c rest =>
        rw [List.getLast?_cons_cons]
        exact h.2
  · exact h

theorem Mail.Plain.textLines (h : mail.Plain) : ∀ line ∈ mail.envelope :: mail.quoted, TextLine line := by
  intro line hline
  rcases List.mem_cons.mp hline with rfl | hline
  · refine ⟨?_, ?_⟩
    · rw [Mail.envelope, List.mem_append, not_or]
      exact ⟨by decide, h.1.1⟩
    · rw [Mail.envelope, List.getLast?_append]
      cases hlast : mail.sender.getLast? with
      | none => decide
      | some c =>
        rw [Option.some_or, ← hlast]
        exact h.1.2
  · rw [Mail.quoted, List.mem_append] at hline
    rcases hline with hline | hline
    · obtain ⟨raw, hraw, rfl⟩ := List.mem_map.mp hline
      exact (h.2.1 raw hraw).quoted
    · rw [List.mem_singleton.mp hline]
      exact ⟨by simp, by simp⟩

end Quoting

/-! ## The cut points -/

/-- The lines of a mailbox as they are read. -/
def mailboxLines (mails : List Mail) : List (List Char) :=
  mails.flatMap fun mail => mail.envelope :: mail.quoted

/-- The lines of the envelopes, when the first one is at `start`. -/
def mailStarts : (start : ℕ) → List Mail → List ℕ
  | _, [] => []
  | start, mail :: mails => start :: mailStarts (start + (mail.quoted.length + 1)) mails

/-- The cut points of lines, the first of which is at `index`; `open?` says that a cut point may be
    there. -/
def cutPoints : (open? : Bool) → (index : ℕ) → List (List Char) → List ℕ
  | _, _, [] => []
  | open?, index, line :: lines =>
    if isEnvelope line && open? then index :: cutPoints (isBlank line) (index + 1) lines
    else cutPoints (isBlank line) (index + 1) lines

section CutPoints

variable {mail : Mail} {mails : List Mail} {lines : List LineSpan} {start : ℕ} {open? : Bool}

theorem heuristicStarts_eq (lines : List LineSpan) :
    heuristicStarts lines = cutPoints true 0 (lines.map LineSpan.text) := by
  have hrange : ∀ (rest before : List LineSpan) (open? : Bool),
      (open? = true ↔ before = [] ∨ isBlank ((before.getLast?.map LineSpan.text).getD []) = true) →
      (List.range' before.length rest.length).filter (fun index =>
        isEnvelope (((before ++ rest)[index]?.map LineSpan.text).getD []) &&
          (index = 0 || isBlank (((before ++ rest)[index - 1]?.map LineSpan.text).getD []))) =
        cutPoints open? before.length (rest.map LineSpan.text) := by
    intro rest
    induction rest with
    | nil => exact fun before open? hopen => rfl
    | cons line rest ih =>
      intro before open? hopen
      have hline : (before ++ line :: rest)[before.length]? = some line := by
        rw [List.getElem?_append_right le_rfl, Nat.sub_self]
        rfl
      have hcut : (decide (before.length = 0) ||
          isBlank (((before ++ line :: rest)[before.length - 1]?.map LineSpan.text).getD [])) = open? := by
        rw [Bool.eq_iff_iff, hopen, Bool.or_eq_true, decide_eq_true_iff, List.length_eq_zero_iff]
        refine or_congr_right' fun hne => ?_
        have hpos := List.length_pos_iff.mpr hne
        rw [List.getElem?_append_left (by omega), List.getLast?_eq_getElem?]
      have hnext := ih (before ++ [line]) (isBlank line.text) (by simp)
      rw [List.append_assoc, List.singleton_append, List.length_append, List.length_singleton] at hnext
      rw [List.length_cons, List.range'_succ, List.filter_cons, hline, hcut, hnext]
      rfl
  have h := hrange lines [] true (by simp)
  rw [List.length_nil, List.nil_append, ← List.range_eq_range'] at h
  exact h

theorem cutPoints_append_quoted (mail : Mail) (open? : Bool) (start : ℕ) (rest : List (List Char)) :
    cutPoints open? start (mail.quoted ++ rest) = cutPoints true (start + mail.quoted.length) rest := by
  rw [Mail.quoted]
  induction mail.lines generalizing open? start with
  | nil => rfl
  | cons line lines ih =>
    rw [List.map_cons, List.cons_append, List.cons_append, cutPoints, isEnvelope_quoteFromLine, Bool.false_and,
      if_neg Bool.false_ne_true, ih, List.length_cons]
    congr 1
    omega

/-- **The cut points of a mailbox** are its envelopes. -/
theorem cutPoints_mailboxLines (start : ℕ) (mails : List Mail) :
    cutPoints true start (mailboxLines mails) = mailStarts start mails := by
  induction mails generalizing start with
  | nil => rfl
  | cons mail mails ih =>
    rw [mailboxLines, List.flatMap_cons, List.cons_append, cutPoints, mail.isEnvelope_envelope, Bool.and_self,
      if_pos rfl, cutPoints_append_quoted, mailStarts, ← ih]
    congr 2
    omega

theorem length_le_mailboxLines (mails : List Mail) : mails.length ≤ (mailboxLines mails).length := by
  induction mails with
  | nil => exact le_rfl
  | cons mail mails ih =>
    rw [mailboxLines, List.flatMap_cons, List.length_append, List.length_cons, List.length_cons]
    rw [mailboxLines] at ih
    omega

end CutPoints

/-! ## The loop -/

section Loop

variable {mail : Mail} {mails : List Mail} {lines : List LineSpan} {before rest : List (List Char)}
  {nextHeuristic : Option ℕ}

/-- **A round** takes the lines that the writer has put between two envelopes. -/
theorem spanStep_mail (text : List Char) (h : mail.Plain)
    (hlines : lines.map LineSpan.text = before ++ (mail.envelope :: mail.quoted) ++ rest)
    (hlimit : nextHeuristic.getD lines.length = before.length + (mail.quoted.length + 1)) :
    spanStep text lines nextHeuristic before.length =
      nextHeuristic.elim (.last (some (.scanned mail.quoted))) (.next (.scanned mail.quoted)) := by
  have hlength : lines.length = before.length + (mail.quoted.length + 1) + rest.length := by
    rw [← List.length_map LineSpan.text, hlines, List.length_append, List.length_append, List.length_cons]
  have hbetween : linesBetween lines before.length (before.length + (mail.quoted.length + 1)) = mail.quoted := by
    rw [linesBetween, List.map_drop, List.map_take, hlines, List.take_left' (by simp), ← List.drop_drop, List.drop_left]
    rfl
  have hbounds : ¬ (nextHeuristic.getD lines.length < before.length + 1 ∨
      lines.length < nextHeuristic.getD lines.length) := by omega
  have hunmeasured : measured? text lines before.length mail.quoted = none := by
    rw [measured?, Option.bind_eq_none_iff]
    intro header hheader
    rw [headerOf] at hheader
    split at hheader
    · cases hheader
      rw [contentLengthOf_quoted h]
      rfl
    · cases hheader
  have hne : mail.quoted ≠ [] := by simp [Mail.quoted]
  rw [spanStep, if_neg hbounds, hlimit, hbetween]
  simp only [hunmeasured, if_neg hne]
  cases nextHeuristic <;> rfl

/-- The cut points that are left are the envelopes of the mails that are left. -/
theorem dropWhile_mailStarts {cursor start : ℕ} (h : cursor < start) (mails : List Mail) :
    (mailStarts start mails).dropWhile (· ≤ cursor) = mailStarts start mails := by
  cases mails with
  | nil => rfl
  | cons mail mails => rw [mailStarts, List.dropWhile_cons_of_neg (by simpa using h)]

/-- **The rounds** take one mail each. -/
theorem splitLoop_mails (text : List Char) (spans : List MessageSpan) (saw : Bool) {fuel : ℕ} {pending : List ℕ}
    (hplain : ∀ mail' ∈ mail :: mails, mail'.Plain)
    (hlines : lines.map LineSpan.text = before ++ mailboxLines (mail :: mails))
    (hpending : pending.dropWhile (· ≤ before.length) =
      mailStarts (before.length + (mail.quoted.length + 1)) mails)
    (hfuel : mails.length < fuel) :
    splitLoop text lines fuel pending before.length saw spans =
      .ok (spans ++ (mail :: mails).map fun mail => .scanned mail.quoted, saw) := by
  induction mails generalizing spans saw mail before fuel pending with
  | nil =>
    obtain ⟨fuel, rfl⟩ := Nat.exists_eq_add_one_of_ne_zero (Nat.ne_zero_of_lt hfuel)
    have hwhole : lines.map LineSpan.text = before ++ (mail.envelope :: mail.quoted) ++ [] := by
      rw [hlines, mailboxLines, List.flatMap_singleton, List.append_nil]
    have hlimit : (none : Option ℕ).getD lines.length = before.length + (mail.quoted.length + 1) := by
      rw [Option.getD_none, ← List.length_map LineSpan.text, hwhole]
      simp
    have hstep := spanStep_mail text (hplain mail List.mem_cons_self) hwhole hlimit
    rw [splitLoop, hpending, mailStarts, List.head?_nil, hstep]
    simp [MessageSpan.isMeasured]
  | cons following mails ih =>
    obtain ⟨fuel, rfl⟩ := Nat.exists_eq_add_one_of_ne_zero (Nat.ne_zero_of_lt hfuel)
    have hwhole : lines.map LineSpan.text =
        before ++ (mail.envelope :: mail.quoted) ++ mailboxLines (following :: mails) := by
      rw [hlines, mailboxLines, List.flatMap_cons, List.append_assoc]
      rfl
    have hstep := spanStep_mail text (hplain mail List.mem_cons_self) hwhole
      (Option.getD_some (b := lines.length))
    have hcursor : (before ++ (mail.envelope :: mail.quoted)).length = before.length + (mail.quoted.length + 1) := by
      simp
    have hrest : (mailStarts (before.length + (mail.quoted.length + 1)) (following :: mails)).dropWhile
        (· ≤ (before ++ (mail.envelope :: mail.quoted)).length) =
        mailStarts ((before ++ (mail.envelope :: mail.quoted)).length + (following.quoted.length + 1)) mails := by
      rw [hcursor, mailStarts, List.dropWhile_cons_of_pos (by simp), dropWhile_mailStarts (by omega)]
    have hlater := ih (spans ++ [.scanned mail.quoted]) (saw || false)
      (fun mail' hmail' => hplain mail' (List.mem_cons_of_mem _ hmail')) hwhole hrest (by simpa using hfuel)
    rw [hcursor] at hlater
    rw [splitLoop, hpending, mailStarts, List.head?_cons, hstep, Option.elim_some]
    show splitLoop text lines fuel _ _ (saw || false) _ = _
    rw [← mailStarts, hlater]
    simp

/-- **Each mail is found** as it was quoted, with the empty line of the writer. -/
theorem splitIntoSpans_writeMboxrd (hplain : ∀ mail' ∈ mail :: mails, mail'.Plain) :
    splitIntoSpans (writeMboxrd (mail :: mails)) = .ok ((mail :: mails).map fun mail => .scanned mail.quoted, false) := by
  have htextLines : ∀ line ∈ mailboxLines (mail :: mails), TextLine line := by
    intro line hline
    obtain ⟨mail', hmail', hline⟩ := List.mem_flatMap.mp hline
    exact (hplain mail' hmail').textLines line hline
  have hlines : (splitLineSpans (writeMboxrd (mail :: mails))).map LineSpan.text = mailboxLines (mail :: mails) := by
    have hsplit := splitInclusive_lines fun line hline => (htextLines line hline).1
    rw [splitLineSpans_text]
    refine (congrArg (List.map stripEnding) hsplit).trans ?_
    rw [List.map_map]
    refine (List.map_congr_left fun line hline => ?_).trans (List.map_id _)
    exact stripEnding_append_newline (htextLines line hline).2
  have hfirst : firstMail (writeMboxrd (mail :: mails)) =
      some (heuristicStarts (splitLineSpans (writeMboxrd (mail :: mails))), 0) := by
    cases hspans : splitLineSpans (writeMboxrd (mail :: mails)) with
    | nil =>
      rw [hspans] at hlines
      cases hlines
    | cons line lines =>
      rw [hspans] at hlines
      have henvelope : line.text = mail.envelope := (List.cons.inj hlines).1
      have hblank : isBlank mail.envelope = false := rfl
      rw [firstMail, hspans]
      simp [List.findIdx?_cons, henvelope, hblank, mail.isEnvelope_envelope]
  have hpending : (heuristicStarts (splitLineSpans (writeMboxrd (mail :: mails)))).dropWhile (· ≤ 0) =
      mailStarts (0 + (mail.quoted.length + 1)) mails := by
    rw [heuristicStarts_eq, hlines, cutPoints_mailboxLines, mailStarts, List.dropWhile_cons_of_pos (by simp),
      dropWhile_mailStarts (by omega)]
  have hfuel : mails.length < (splitLineSpans (writeMboxrd (mail :: mails))).length := by
    rw [← List.length_map LineSpan.text, hlines]
    exact length_le_mailboxLines (mail :: mails)
  have hwhole : (splitLineSpans (writeMboxrd (mail :: mails))).map LineSpan.text =
      [] ++ mailboxLines (mail :: mails) := hlines
  rw [splitIntoSpans_eq, hfirst]
  exact splitLoop_mails _ [] false hplain hwhole hpending hfuel

end Loop

/-! ## The round trip -/

/-- The mails that are given back are those of the writer, up to empty lines at their ends. -/
def GivesBack (mails : List Mail) (texts : List ByteArray) : Prop :=
  List.Forall₂ (fun mail text => ∃ lines, text = joinLines lines ∧
    lines.rdropWhile (· = []) = mail.lines.rdropWhile (· = [])) mails texts

section RoundTrip

variable {mail : Mail} {lines lines' : List (List Char)}

/-- The number of a character in lines does not depend on a separator without it. -/
theorem count_intercalate {c : Char} {sep : List Char} (h : c ∉ sep) (lines : List (List Char)) :
    (sep.intercalate lines).count c = (lines.map (List.count c)).sum := by
  rw [List.intercalate]
  induction lines with
  | nil => rfl
  | cons line lines ih =>
    cases lines with
    | nil => simp
    | cons second lines =>
      rw [List.intersperse_cons_cons, List.flatten_cons, List.flatten_cons, List.count_append, List.count_append, ih,
        List.count_eq_zero_of_not_mem h, Nat.zero_add]
      rfl

theorem count_joinLines (h : joinLines lines = joinLines lines') :
    (lines.map (List.count '>')).sum = (lines'.map (List.count '>')).sum := by
  have hstrings := congrArg String.fromUTF8? h
  rw [joinLines, joinLines, fromUTF8_toUTF8, fromUTF8_toUTF8] at hstrings
  have htexts := String.ofList_injective (Option.some.inj hstrings)
  have hnot : '>' ∉ ['\r', '\n'] := by decide
  rw [← count_intercalate hnot lines, htexts, count_intercalate hnot]

theorem count_rdropWhile (lines : List (List Char)) :
    ((lines.rdropWhile (· = [])).map (List.count '>')).sum = (lines.map (List.count '>')).sum := by
  induction lines using List.reverseRecOn with
  | nil => rfl
  | append_singleton lines last ih =>
    by_cases hlast : last = []
    · rw [List.rdropWhile_concat_pos _ _ _ (by simpa using hlast), ih, List.map_append, List.sum_append, hlast]
      rfl
    · rw [List.rdropWhile_concat_neg _ _ _ (by simpa using hlast)]

/-- The reader leaves one `>` too many in each line that was quoted before. -/
theorem count_given (lines : List (List Char)) :
    ((lines.map fun line => if isQuoted line then '>' :: line else line).map (List.count '>')).sum =
      (lines.map (List.count '>')).sum + lines.countP isQuoted := by
  induction lines with
  | nil => rfl
  | cons line lines ih =>
    rw [List.map_cons, List.map_cons, List.sum_cons, ih, List.map_cons, List.sum_cons, List.countP_cons]
    split
    · rw [List.count_cons_self]
      omega
    · omega

/-- What the reader makes of a mail of the writer. -/
theorem lines_scanned_quoted (mail : Mail) :
    (MessageSpan.scanned mail.quoted).lines .rd =
      mail.lines.map (fun line => if isQuoted line then '>' :: line else line) ++ [[]] := by
  rw [MessageSpan.lines, Mail.quoted, List.map_append, List.map_map]
  congr 1
  exact List.map_congr_left fun line _ => unescapeFromLine_quoteFromLine line

/-- **A mail is given back** if and only if none of its lines was quoted before. -/
theorem renderSpan_gives_back (mail : Mail) :
    (∃ lines, renderSpan .rd (.scanned mail.quoted) = joinLines lines ∧
      lines.rdropWhile (· = []) = mail.lines.rdropWhile (· = [])) ↔
      ∀ line ∈ mail.lines, isQuoted line = false := by
  rw [renderSpan, lines_scanned_quoted]
  constructor
  · rintro ⟨lines, hjoin, hlines⟩
    have hcount := count_joinLines hjoin
    rw [← count_rdropWhile lines, hlines, count_rdropWhile, List.map_append, List.sum_append, count_given] at hcount
    have hnone : mail.lines.countP isQuoted = 0 := by
      simp only [List.map_singleton, List.sum_singleton, List.count_nil] at hcount
      omega
    simpa using hnone
  · intro hnone
    refine ⟨mail.lines ++ [[]], ?_, ?_⟩
    · congr 2
      refine (List.map_congr_left fun line hline => ?_).trans (List.map_id _)
      rw [hnone line hline]
      rfl
    · rw [List.rdropWhile_concat_pos _ _ _ (by simp)]

end RoundTrip

/-- **What was written is read back** if and only if the reader takes so many mails and no line of a
    mail is `From ` after one `>` or more. -/
theorem mboxrd_round_trip_iff (utf8Error : ByteArray → String) {mails : List Mail} (hne : mails ≠ [])
    (hplain : ∀ mail ∈ mails, mail.Plain) :
    (∃ texts, splitMboxBytesVariant utf8Error (String.ofList (writeMboxrd mails)).toUTF8 (some .rd) =
        .ok (.rd, texts) ∧ GivesBack mails texts) ↔
      mails.length ≤ maxMboxMails ∧ ∀ mail ∈ mails, ∀ line ∈ mail.lines, isQuoted line = false := by
  obtain ⟨mail, rest, rfl⟩ := List.exists_cons_of_ne_nil hne
  have hspans := splitIntoSpans_writeMboxrd hplain
  have hgives : GivesBack (mail :: rest) ((mail :: rest).map fun mail => renderSpan .rd (.scanned mail.quoted)) ↔
      ∀ mail' ∈ mail :: rest, ∀ line ∈ mail'.lines, isQuoted line = false := by
    rw [GivesBack, List.forall₂_map_right_iff, List.forall₂_same]
    exact forall₂_congr fun mail' _ => renderSpan_gives_back mail'
  rw [splitMboxBytesVariant, fromUTF8_toUTF8]
  simp only [String.toList_ofList, hspans]
  rw [renderMailbox]
  simp only [Option.getD_some, List.map_map]
  rw [if_neg (by simp)]
  by_cases hmany : maxMboxMails < ((mail :: rest).map (renderSpan .rd ∘ fun mail => .scanned mail.quoted)).length
  · rw [if_pos hmany]
    rw [List.length_map] at hmany
    constructor
    · rintro ⟨texts, htexts, -⟩
      cases htexts
    · exact fun h => absurd h.1 (Nat.not_le_of_lt hmany)
  · rw [if_neg hmany]
    rw [List.length_map] at hmany
    rw [and_iff_right (not_lt.mp hmany), ← hgives]
    constructor
    · rintro ⟨texts, htexts, hgiven⟩
      cases htexts
      exact hgiven
    · exact fun hgiven => ⟨_, rfl, hgiven⟩

/-! ## A line that was quoted before -/

namespace MboxrdSample

/-- A mail that quotes another one. -/
def quotedBefore : List Mail := [⟨"a".toList, ["x".toList, ">From b".toList]⟩]

/-- A mail with a line that is `From ` without a `>`. -/
def plain : List Mail := [⟨"a".toList, ["x".toList, "From b".toList]⟩]

/-- **Not the mail**: the reader leaves `>>From b`. -/
theorem quoted_twice : ¬ ∃ texts, splitMboxBytesVariant (fun _ => "")
    (String.ofList (writeMboxrd quotedBefore)).toUTF8 (some .rd) = .ok (.rd, texts) ∧
      GivesBack quotedBefore texts := by
  rintro ⟨texts, htexts, hgiven⟩
  have hspans : splitIntoSpans (writeMboxrd quotedBefore) =
      .ok ([.scanned ["x".toList, ">>From b".toList, []]], false) := by decide
  rw [splitMboxBytesVariant, fromUTF8_toUTF8] at htexts
  simp only [String.toList_ofList, hspans] at htexts
  cases htexts
  obtain ⟨⟨lines, hjoin, hlines⟩, -⟩ := List.forall₂_cons.mp hgiven
  have hcount := count_joinLines hjoin
  rw [← count_rdropWhile lines, hlines, count_rdropWhile] at hcount
  revert hcount
  decide

theorem mboxrd_round_trip_plain : plain ≠ [] ∧ (∀ mail ∈ plain, mail.Plain) ∧
    ((∃ texts, splitMboxBytesVariant (fun _ => "") (String.ofList (writeMboxrd plain)).toUTF8 (some .rd) =
        .ok (.rd, texts) ∧ GivesBack plain texts) ↔
      plain.length ≤ maxMboxMails ∧ ∀ mail ∈ plain, ∀ line ∈ mail.lines, isQuoted line = false) := by
  have hplain : ∀ mail ∈ plain, mail.Plain := by decide
  exact ⟨by decide, hplain, mboxrd_round_trip_iff _ (by decide) hplain⟩

end MboxrdSample

end Anole
