import Anole.Mail.MboxTotal

/-!
# Every line of a mailbox is accounted for

When `split_into_spans` succeeds, the text is a sequence of pieces after some blank lines: each an
envelope line with its mail, the last one perhaps an envelope with nothing after it. A scanned
mail has whole lines; a measured one has its header, a blank line, a body of just the declared
length, and blanks up to the next envelope or the end.

* `spans_account`: the spans in order, with their envelopes, show every line of the text that is
  not blank, once and in the order of the file.
-/

open Common

namespace Anole

/-! ## Pieces -/

/-- A part of a mailbox, with the raw lines (`body` and `gap` are texts). -/
inductive MailPiece where
  | bare (envelope : List Char)
  | scanned (envelope : List Char) (lines : List (List Char))
  | measured (envelope : List Char) (header : List (List Char)) (separator body gap : List Char)

namespace MailPiece

/-- The text of a piece. -/
def text : MailPiece → List Char
  | bare envelope => envelope
  | scanned envelope lines => envelope ++ lines.flatten
  | measured envelope header separator body gap => envelope ++ header.flatten ++ separator ++ (body ++ gap)

def envelope : MailPiece → List Char
  | bare envelope | scanned envelope _ | measured envelope _ _ _ _ => envelope

/-- The mail of a piece. -/
def span : MailPiece → Option MessageSpan
  | bare _ => none
  | scanned _ lines => some (.scanned (lines.map stripEnding))
  | measured _ header _ body _ => some (.measured (header.map stripEnding) body)

/-- The parts of a piece are what they are called. -/
def Valid : MailPiece → Prop
  | bare envelope => isEnvelope (stripEnding envelope) = true ∧ splitInclusive envelope = [envelope]
  | scanned envelope lines =>
    isEnvelope (stripEnding envelope) = true ∧
      splitInclusive (envelope ++ lines.flatten) = envelope :: lines
  | measured envelope header separator body gap =>
    isEnvelope (stripEnding envelope) = true ∧
      splitInclusive (envelope ++ header.flatten ++ separator) = envelope :: (header ++ [separator]) ∧
      isBlank separator = true ∧ (EndsLine (envelope ++ header.flatten ++ separator) ∨ body ++ gap = []) ∧
      contentLengthOf (header.map stripEnding) = some (byteLen body) ∧
      ∀ c ∈ gap, isWhitespace c = true

end MailPiece

/-- What the lines of a mail show. -/
def MessageSpan.shows : MessageSpan → List (List Char)
  | .scanned lines => visibleLines isWhitespace lines
  | .measured header body => visibleLines isWhitespace header ++ visible isWhitespace body

/-- What a mail shows with its envelope put back. -/
def MailPiece.shows (piece : MailPiece) : List (List Char) :=
  visibleLines isWhitespace [piece.envelope] ++ (piece.span.map MessageSpan.shows).getD []

/-- Pieces that follow each other: all but the last have a mail and end where a line ends. -/
inductive MailPieces : List MailPiece → Prop where
  | last (piece : MailPiece) : piece.Valid → MailPieces [piece]
  | cons (piece : MailPiece) (pieces : List MailPiece) : piece.Valid → piece.span.isSome →
      EndsLine piece.text → MailPieces pieces → MailPieces (piece :: pieces)

section Pieces

variable {piece : MailPiece} {pieces : List MailPiece}

theorem isBlank_iff {line : List Char} : isBlank line = true ↔ ∀ c ∈ line, isWhitespace c = true :=
  List.all_eq_true

theorem visibleLines_isBlank {line : List Char} (h : isBlank line = true) :
    visibleLines isWhitespace [line] = [] :=
  visibleLines_blank fun other hother => by
    rw [List.mem_singleton.mp hother]
    exact isBlank_iff.mp h

/-- **A piece shows** its envelope and its mail. -/
theorem MailPiece.Valid.visible_text (h : piece.Valid) : visible isWhitespace piece.text = piece.shows := by
  cases piece with
  | bare envelope =>
    rw [MailPiece.text, visible, h.2, MailPiece.shows]
    exact (List.append_nil _).symm
  | scanned envelope lines =>
    rw [MailPiece.text, visible, h.2, visibleLines_cons, MailPiece.shows]
    show _ = _ ++ visibleLines isWhitespace (lines.map stripEnding)
    rw [visibleLines_stripEnding rfl rfl]
    rfl
  | measured envelope header separator body gap =>
    obtain ⟨-, hlines, hblank, hends, -, hgap⟩ := h
    have hhead : visible isWhitespace (envelope ++ header.flatten ++ separator) =
        visibleLines isWhitespace [envelope] ++ visibleLines isWhitespace header := by
      rw [visible, hlines, visibleLines_cons, visibleLines_append, visibleLines_isBlank hblank, List.append_nil]
    have hbody : visible isWhitespace (envelope ++ header.flatten ++ separator ++ (body ++ gap)) =
        visible isWhitespace (envelope ++ header.flatten ++ separator) ++ visible isWhitespace (body ++ gap) := by
      rcases hends with hends | hnil
      · exact visible_append hends
      · rw [hnil, List.append_nil]
        exact (List.append_nil _).symm
    rw [MailPiece.text, hbody, hhead, visible_append_blank hgap, List.append_assoc, MailPiece.shows]
    show _ = _ ++ (visibleLines isWhitespace (header.map stripEnding) ++ _)
    rw [visibleLines_stripEnding rfl rfl]
    rfl

/-- **Pieces show** what each of them shows. -/
theorem MailPieces.visible_text (h : MailPieces pieces) :
    visible isWhitespace (pieces.map MailPiece.text).flatten = pieces.flatMap MailPiece.shows := by
  induction h with
  | last piece hvalid =>
    rw [List.map_singleton, List.flatten_singleton, hvalid.visible_text]
    exact (List.append_nil _).symm
  | cons piece pieces hvalid hspan hends hrest ih =>
    rw [List.map_cons, List.flatten_cons, visible_append hends, hvalid.visible_text, ih, List.flatMap_cons]

end Pieces

/-! ## One round -/

section Round

variable {text : List Char} {cursor limit next : ℕ} {nextHeuristic : Option ℕ} {span : MessageSpan}

/-- The raw lines of a mail. -/
theorem linesBetween_eq (text : List Char) (cursor limit : ℕ) :
    linesBetween (splitLineSpans text) cursor limit =
      (((splitInclusive text).take limit).drop (cursor + 1)).map stripEnding := by
  rw [linesBetween, List.map_drop, List.map_take, splitLineSpans_text, List.map_drop, List.map_take]

theorem isBlank_stripEnding {line : List Char} (h : isBlank (stripEnding line) = true) : isBlank line = true := by
  have hnil := rdropWhile_eq_nil_of_blank (isBlank_iff.mp h)
  rw [rdropWhile_stripEnding rfl rfl] at hnil
  exact isBlank_iff.mpr (List.rdropWhile_eq_nil_iff.mp hnil)

/-- The line of a round is an envelope. -/
def EnvelopeAt (text : List Char) (cursor : ℕ) : Prop :=
  ∃ line, (splitInclusive text)[cursor]? = some line ∧ isEnvelope (stripEnding line) = true

/-- The lines from one to another are lines of their text. -/
theorem splitInclusive_between (text : List Char) (i n : ℕ) :
    splitInclusive (((splitInclusive text).drop i).take n).flatten = ((splitInclusive text).drop i).take n := by
  have h := splitInclusive_take ((splitInclusive text).drop i).flatten n
  rwa [splitInclusive_drop] at h

theorem endsLine_between (text : List Char) {i n : ℕ} (h : i + n < (splitInclusive text).length) :
    EndsLine (((splitInclusive text).drop i).take n).flatten := by
  have hends := endsLine_take text h
  rw [List.take_add, List.flatten_append] at hends
  exact hends.of_append

/-- **A scanned mail** is a piece with whole lines. -/
theorem scanned_piece (hcursor : EnvelopeAt text cursor) (hlimit : cursor < limit) :
    ∃ envelope, (MailPiece.scanned envelope (((splitInclusive text).take limit).drop (cursor + 1))).Valid ∧
      (MailPiece.scanned envelope (((splitInclusive text).take limit).drop (cursor + 1))).text =
        (((splitInclusive text).drop cursor).take (limit - cursor)).flatten := by
  obtain ⟨envelope, hline, henvelope⟩ := hcursor
  have hlines : ((splitInclusive text).drop cursor).take (limit - cursor) =
      envelope :: ((splitInclusive text).take limit).drop (cursor + 1) := by
    obtain ⟨hlt, hget⟩ := List.getElem?_eq_some_iff.mp hline
    rw [← List.drop_take, List.drop_eq_getElem_cons (by rw [List.length_take]; omega)]
    rw [List.getElem_take, hget]
  have htext : (envelope ++ (((splitInclusive text).take limit).drop (cursor + 1)).flatten) =
      (((splitInclusive text).drop cursor).take (limit - cursor)).flatten := by
    rw [hlines, List.flatten_cons]
  refine ⟨envelope, ⟨henvelope, ?_⟩, htext⟩
  rw [htext, splitInclusive_between, hlines]

/-- The header of a measured mail in the raw lines of the text, and the blank line after it. -/
theorem measured?_raw {header : List (List Char)} {start declared : ℕ}
    (hlimit : limit ≤ (splitInclusive text).length)
    (h : measured? text (splitLineSpans text) cursor (linesBetween (splitLineSpans text) cursor limit) =
      some (header, start, declared)) :
    ∃ raw separator, ((splitInclusive text).drop (cursor + 1)).take (header.length + 1) = raw ++ [separator] ∧
      header = raw.map stripEnding ∧ isBlank separator = true ∧ contentLengthOf header = some declared ∧
      start = lineStart (splitInclusive text) (cursor + (header.length + 2)) := by
  obtain ⟨header', hheader, hdeclared⟩ := Option.bind_eq_some_iff.mp h
  obtain ⟨declared', hlength, hfound⟩ := Option.map_eq_some_iff.mp hdeclared
  cases hfound
  rw [linesBetween_eq, headerOf] at hheader
  split at hheader
  · next hlt =>
    cases hheader
    generalize hraw : ((splitInclusive text).take limit).drop (cursor + 1) = raw at hlt hlength ⊢
    generalize hheader : (raw.map stripEnding).takeWhile (fun line => !isBlank line) = header at hlt hlength ⊢
    -- the header is the start of the lines, and the line after it is blank
    have htake : header = (raw.map stripEnding).take header.length := by
      rw [← hheader]
      exact List.prefix_iff_eq_take.mp (List.takeWhile_prefix _)
    have hstop : isBlank ((raw.map stripEnding)[header.length]) = true := by
      have hdrop := List.head?_dropWhile_not (fun line => !isBlank line) (raw.map stripEnding)
      have happend := List.takeWhile_append_dropWhile (p := fun line => !isBlank line) (l := raw.map stripEnding)
      rw [hheader] at happend
      have hget : ((raw.map stripEnding).dropWhile fun line => !isBlank line).head? =
          some (raw.map stripEnding)[header.length] := by
        rw [List.head?_eq_getElem?, ← List.getElem?_eq_getElem hlt]
        conv_rhs => rw [← happend, List.getElem?_append_right le_rfl, Nat.sub_self]
      rw [hget] at hdrop
      simpa using hdrop
    rw [List.length_map] at hlt
    refine ⟨raw.take header.length, raw[header.length], ?_, ?_, ?_, hlength, ?_⟩
    · rw [← List.take_succ_eq_append_getElem hlt, ← hraw, List.drop_take, List.take_take]
      congr 1
      have hlen := congrArg List.length hraw
      rw [List.length_drop, List.length_take] at hlen
      omega
    · rwa [List.map_take]
    · rw [List.getElem_map] at hstop
      exact isBlank_stripEnding hstop
    · rw [bodyStart_eq]
      congr 1
      omega
  · cases hheader

/-- What a round with a declared length leaves behind, when it does not fail. -/
inductive Measures (text : List Char) (header : List (List Char)) (declared : ℕ) (before after : List Char) :
    SpanStep → Prop where
  | last (body gap : List Char) : after = body ++ gap → byteLen body = declared →
      (∀ c ∈ gap, isWhitespace c = true) →
      Measures text header declared before after (.last (some (.measured header body)))
  | next (body gap rest : List Char) (following : ℕ) : after = body ++ gap ++ rest → byteLen body = declared →
      (∀ c ∈ gap, isWhitespace c = true) → EnvelopeAt text following →
      lineStart (splitInclusive text) following = byteLen (before ++ (body ++ gap)) →
      Measures text header declared before after (.next (.measured header body) following)
  | panics : Measures text header declared before after .panics
  | err (error : AnoleError) : Measures text header declared before after (.err error)

theorem isBlank_flatten {lines : List (List Char)} (h : ∀ line ∈ lines, isBlank line = true) :
    ∀ c ∈ lines.flatten, isWhitespace c = true := by
  intro c hc
  obtain ⟨line, hline, hmem⟩ := List.mem_flatten.mp hc
  exact isBlank_iff.mp (h line hline) c hmem

/-- **A measured body** has the declared length, and blanks follow it up to an envelope or the end. -/
theorem measureSpan_measures (header : List (List Char)) (declared : ℕ) {before after : List Char}
    (htext : text = before ++ after) :
    Measures text header declared before after
      (measureSpan text (splitLineSpans text) header (byteLen before) declared) := by
  rw [measureSpan]
  split
  · exact .panics
  split
  · exact .err _
  split
  · exact .panics
  next upTo rest hcut =>
  obtain ⟨hrest, hlen⟩ := splitAtByte_eq_some.mp hcut
  split
  · exact .err _
  next nextFrom hscan =>
  split
  · exact .panics
  next before' body hslice =>
  obtain ⟨rfl, hbefore⟩ := splitAtByte_eq_some.mp hslice
  have hcuts : before ++ after = before' ++ (body ++ rest) := by
    rw [← htext, hrest, List.append_assoc]
  obtain ⟨rfl, hafter⟩ := append_eq_of_byteLen hcuts hbefore.symm
  have hbody : byteLen body = declared := by
    rw [byteLen_append] at hlen
    omega
  cases nextFrom with
  | none =>
    refine .last body rest hafter hbody ?_
    rw [← splitInclusive_flatten rest]
    exact isBlank_flatten (scanAfter_eq_some_none hscan)
  | some following =>
    obtain ⟨blanks, segments, line, hsegments, hblanks, -, hline, hstart, henvelope⟩ :=
      scanAfter_eq_some_some hscan
    have hflat : rest = blanks.flatten ++ segments.flatten := by
      rw [← List.flatten_append, ← hsegments, splitInclusive_flatten]
    rw [splitLineSpans_getElem?] at hline
    obtain ⟨raw, hraw, rfl⟩ := Option.map_eq_some_iff.mp hline
    refine .next body blanks.flatten segments.flatten following ?_ hbody (isBlank_flatten hblanks)
      ⟨raw, hraw, henvelope⟩ ?_
    · rw [hafter, hflat, List.append_assoc]
    · rw [byteLen_append, byteLen_append, hbody]
      simp only at hstart
      omega

/-- What a round of the loop makes of the text from its envelope on: a piece, which is the last one
    or ends where the next envelope starts. -/
inductive RoundPiece (text : List Char) (cursor : ℕ) : SpanStep → Prop where
  | last (piece : MailPiece) : piece.Valid → piece.text = ((splitInclusive text).drop cursor).flatten →
      RoundPiece text cursor (.last piece.span)
  | next (piece : MailPiece) (span : MessageSpan) (following : ℕ) : piece.Valid → piece.span = some span →
      cursor < following → EnvelopeAt text following →
      piece.text = (((splitInclusive text).drop cursor).take (following - cursor)).flatten →
      RoundPiece text cursor (.next span following)
  | panics : RoundPiece text cursor .panics
  | err (error : AnoleError) : RoundPiece text cursor (.err error)

/-- **A round with a declared length** makes a piece. -/
theorem measured_piece {header : List (List Char)} {start declared : ℕ} {step : SpanStep}
    (hcursor : EnvelopeAt text cursor) (hlimit : limit ≤ (splitInclusive text).length)
    (hmeasured : measured? text (splitLineSpans text) cursor (linesBetween (splitLineSpans text) cursor limit) =
      some (header, start, declared))
    (hnext : ∀ span next, step = .next span next → cursor < next)
    (hstep : measureSpan text (splitLineSpans text) header start declared = step) :
    RoundPiece text cursor step := by
  obtain ⟨envelope, hline, henvelope⟩ := hcursor
  obtain ⟨hlt, hget⟩ := List.getElem?_eq_some_iff.mp hline
  obtain ⟨raw, separator, hraw, rfl, hblank, hlength, rfl⟩ := measured?_raw hlimit hmeasured
  rw [List.length_map] at hraw hstep
  have hhead : ((splitInclusive text).drop cursor).take (raw.length + 2) = envelope :: (raw ++ [separator]) := by
    rw [List.drop_eq_getElem_cons hlt, hget, List.take_succ_cons, hraw]
  have hflat : (((splitInclusive text).drop cursor).take (raw.length + 2)).flatten =
      envelope ++ raw.flatten ++ separator := by
    rw [hhead, List.flatten_cons, List.flatten_append, List.append_assoc]
    simp
  have hlines : splitInclusive (envelope ++ raw.flatten ++ separator) = envelope :: (raw ++ [separator]) := by
    rw [← hflat, splitInclusive_between, hhead]
  have hbefore : ((splitInclusive text).take (cursor + (raw.length + 2))).flatten =
      ((splitInclusive text).take cursor).flatten ++ (envelope ++ raw.flatten ++ separator) := by
    rw [List.take_add, List.flatten_append, hflat]
  have hends : EndsLine (envelope ++ raw.flatten ++ separator) ∨
      ((splitInclusive text).drop (cursor + (raw.length + 2))).flatten = [] := by
    by_cases hmore : cursor + (raw.length + 2) < (splitInclusive text).length
    · rw [← hflat]
      exact .inl (endsLine_between text hmore)
    · rw [List.drop_of_length_le (by omega)]
      exact .inr rfl
  have hrest : ((splitInclusive text).drop cursor).flatten =
      envelope ++ raw.flatten ++ separator ++ ((splitInclusive text).drop (cursor + (raw.length + 2))).flatten := by
    rw [← hflat, ← List.flatten_append, ← List.drop_drop, List.take_append_drop]
  have hmeasures := measureSpan_measures (raw.map stripEnding) declared
    (text_eq_lines text (cursor + (raw.length + 2)))
  rw [lineStart] at hstep
  rw [hstep] at hmeasures
  cases hmeasures with
  | panics => exact .panics
  | err error => exact .err error
  | last body gap hafter hbody hgap =>
    refine .last (.measured envelope raw separator body gap) ⟨henvelope, hlines, hblank, ?_, ?_, hgap⟩ ?_
    · rwa [hafter] at hends
    · rw [hlength, hbody]
    · rw [hrest, hafter]
      rfl
  | next body gap rest following hafter hbody hgap hfollowing hstart =>
    refine .next (.measured envelope raw separator body gap) _ following ⟨henvelope, hlines, hblank, ?_, ?_, hgap⟩ rfl
      (hnext _ _ rfl) hfollowing ?_
    · rw [hafter] at hends
      exact hends.imp_right fun hnil => (List.append_eq_nil_iff.mp hnil).1
    · rw [hlength, hbody]
    · have hcuts : ((splitInclusive text).take following).flatten ++ ((splitInclusive text).drop following).flatten =
          ((splitInclusive text).take (cursor + (raw.length + 2))).flatten ++ (body ++ gap) ++ rest := by
        rw [← text_eq_lines, List.append_assoc, ← hafter]
        exact text_eq_lines text _
      obtain ⟨hupTo, -⟩ := append_eq_of_byteLen hcuts hstart
      have hsplit : following = cursor + (following - cursor) := by
        have := hnext _ _ rfl
        omega
      rw [hsplit, List.take_add, List.flatten_append, hbefore, List.append_assoc] at hupTo
      exact (List.append_cancel_left hupTo).symm

/-- A cut point is an envelope after a blank line, or the first line. -/
theorem mem_heuristicStarts (h : next ∈ heuristicStarts (splitLineSpans text)) :
    next < (splitInclusive text).length ∧ EnvelopeAt text next ∧
      (next = 0 ∨ ∃ line, (splitInclusive text)[next - 1]? = some line ∧ isBlank (stripEnding line) = true) := by
  obtain ⟨hrange, hcut⟩ := List.mem_filter.mp h
  rw [List.mem_range, length_splitLineSpans] at hrange
  rw [Bool.and_eq_true, Bool.or_eq_true] at hcut
  rw [splitLineSpans_getElem?, List.getElem?_eq_getElem hrange] at hcut
  refine ⟨hrange, ⟨_, List.getElem?_eq_getElem hrange, hcut.1⟩, ?_⟩
  rcases hcut.2 with hzero | hblank
  · exact .inl (of_decide_eq_true hzero)
  · right
    have hprevious : next - 1 < (splitInclusive text).length := by omega
    rw [splitLineSpans_getElem?, List.getElem?_eq_getElem hprevious] at hblank
    exact ⟨_, List.getElem?_eq_getElem hprevious, hblank⟩

/-- An envelope is not blank, so the line after one is not a cut point. -/
theorem EnvelopeAt.not_next (hcursor : EnvelopeAt text cursor) (hnext : next ∈ heuristicStarts (splitLineSpans text))
    (hlt : cursor < next) : cursor + 1 < next := by
  obtain ⟨line, hline, henvelope⟩ := hcursor
  obtain ⟨-, -, hzero | ⟨previous, hprevious, hblank⟩⟩ := mem_heuristicStarts hnext
  · omega
  · by_contra hnot
    have hsame : next - 1 = cursor := by omega
    rw [hsame, hline] at hprevious
    cases hprevious
    rw [isEnvelope, List.isPrefixOf_iff_prefix] at henvelope
    obtain ⟨rest, hrest⟩ := henvelope
    have hletter := isBlank_iff.mp hblank 'F' (by rw [← hrest]; exact List.mem_cons_self)
    cases hletter

/-- **A round makes a piece** of the lines from its envelope on. -/
theorem spanStep_piece (hcursor : EnvelopeAt text cursor)
    (hnext : ∀ next ∈ nextHeuristic, cursor < next ∧ next ∈ heuristicStarts (splitLineSpans text)) :
    RoundPiece text cursor (spanStep text (splitLineSpans text) nextHeuristic cursor) := by
  have hlater : ∀ span next, spanStep text (splitLineSpans text) nextHeuristic cursor = .next span next →
      cursor < next := fun span next hstep =>
    (spanStep_next_lt (fun next hmem => ⟨(hnext next hmem).1, (mem_heuristicStarts (hnext next hmem).2).1⟩) hstep).1
  have hlength : cursor < (splitInclusive text).length := (List.getElem?_eq_some_iff.mp hcursor.choose_spec.1).1
  generalize hstep : spanStep text (splitLineSpans text) nextHeuristic cursor = step at hlater
  rw [spanStep] at hstep
  simp only at hstep
  split at hstep
  · rw [← hstep]
    exact .panics
  next hbounds =>
  rw [not_or, not_lt, not_lt, length_splitLineSpans] at hbounds
  split at hstep
  · next header start declared hmeasured =>
    exact measured_piece hcursor (by simpa using hbounds.2) hmeasured hlater hstep
  split at hstep
  · next hempty =>
    rw [← hstep]
    rw [linesBetween_eq, List.map_eq_nil_iff, List.drop_eq_nil_iff, List.length_take] at hempty
    -- only the last line has nothing between it and the limit
    have hnone : nextHeuristic = none := by
      cases nextHeuristic with
      | none => rfl
      | some next =>
        have := hcursor.not_next (hnext next rfl).2 (hnext next rfl).1
        have := (mem_heuristicStarts (hnext next rfl).2).1
        rw [Option.getD_some] at hempty
        omega
    rw [hnone, Option.getD_none, length_splitLineSpans] at hempty
    obtain ⟨envelope, hline, henvelope⟩ := hcursor
    obtain ⟨hlt, hget⟩ := List.getElem?_eq_some_iff.mp hline
    have hdrop : (splitInclusive text).drop cursor = [envelope] := by
      rw [List.drop_eq_getElem_cons hlt, hget, List.drop_of_length_le (by omega)]
    refine .last (.bare envelope) ⟨henvelope, ?_⟩ (by rw [hdrop]; exact (List.append_nil _).symm)
    have hlines := splitInclusive_drop text cursor
    rw [hdrop] at hlines
    rwa [List.flatten_singleton] at hlines
  · rw [← hstep, linesBetween_eq]
    cases nextHeuristic with
    | none =>
      rw [Option.getD_none, length_splitLineSpans]
      obtain ⟨envelope, hvalid, htext⟩ := scanned_piece hcursor hlength
      refine .last (.scanned envelope _) hvalid ?_
      rw [htext, List.take_of_length_le (by rw [List.length_drop])]
    | some next =>
      obtain ⟨envelope, hvalid, htext⟩ := scanned_piece hcursor (hnext next rfl).1
      exact .next _ _ next hvalid rfl (hnext next rfl).1 (mem_heuristicStarts (hnext next rfl).2).2.1 htext

end Round

/-! ## The loop -/

section Loop

variable {text : List Char} {mark : MailMark} {fuel : ℕ}

/-- **The rounds from one on** make pieces of the rest of the text. -/
theorem splitLoop_pieces (hcursor : EnvelopeAt text mark.2)
    (hpending : ∀ next ∈ mark.1, next ∈ heuristicStarts (splitLineSpans text)) {saw : Bool}
    {spans found : List MessageSpan} {sawFound : Bool}
    (h : splitLoop text (splitLineSpans text) fuel mark.1 mark.2 saw spans = .ok (found, sawFound)) :
    ∃ pieces, MailPieces pieces ∧ (pieces.map MailPiece.text).flatten = ((splitInclusive text).drop mark.2).flatten ∧
      found = spans ++ pieces.filterMap MailPiece.span := by
  induction fuel generalizing mark saw spans with
  | zero => cases h
  | succ fuel ih =>
    have hrest : ∀ next ∈ mark.1.dropWhile (· ≤ mark.2), next ∈ heuristicStarts (splitLineSpans text) :=
      fun next hmem => hpending next ((List.dropWhile_suffix _).subset hmem)
    have hnext : ∀ next ∈ mark.nextHeuristic,
        mark.2 < next ∧ next ∈ heuristicStarts (splitLineSpans text) := by
      intro next hmem
      refine ⟨?_, hrest next (List.mem_of_head? hmem)⟩
      have hpass := List.head?_dropWhile_not (fun start => decide (start ≤ mark.2)) mark.1
      rw [MailMark.nextHeuristic] at hmem
      rw [Option.mem_def.mp hmem] at hpass
      simpa using hpass
    have hround := spanStep_piece hcursor hnext
    rw [splitLoop] at h
    have hsame : spanStep text (splitLineSpans text) (mark.1.dropWhile (· ≤ mark.2)).head? mark.2 =
        spanStep text (splitLineSpans text) mark.nextHeuristic mark.2 := rfl
    simp only [hsame] at h
    cases hstep : spanStep text (splitLineSpans text) mark.nextHeuristic mark.2 with
    | panics =>
      rw [hstep] at h
      cases h
    | err error =>
      rw [hstep] at h
      cases h
    | last span =>
      rw [hstep] at hround h
      cases hround with
      | last piece hvalid htext =>
        refine ⟨[piece], .last piece hvalid, ?_, ?_⟩
        · rw [List.map_singleton, List.flatten_singleton, htext]
        · cases hspan : piece.span with
          | none =>
            rw [hspan] at h
            cases h
            simp [hspan]
          | some span =>
            rw [hspan] at h
            cases h
            simp [hspan]
    | next span following =>
      rw [hstep] at hround h
      cases hround with
      | next piece _ _ hvalid hspan hlt hfollowing htext =>
        have hmark : EnvelopeAt text (mark.1.dropWhile (· ≤ mark.2), following).2 := hfollowing
        obtain ⟨pieces, hpieces, hflat, hfound⟩ := ih hmark hrest h
        refine ⟨piece :: pieces, .cons piece pieces hvalid (by rw [hspan]; rfl) ?_ hpieces, ?_, ?_⟩
        · rw [htext]
          refine endsLine_between text ?_
          have := (List.getElem?_eq_some_iff.mp hfollowing.choose_spec.1).1
          omega
        · rw [List.map_cons, List.flatten_cons, hflat, htext, ← List.flatten_append]
          have hdrop : (splitInclusive text).drop following =
              ((splitInclusive text).drop mark.2).drop (following - mark.2) := by
            rw [List.drop_drop]
            congr 1
            omega
          rw [hdrop, List.take_append_drop]
        · rw [hfound, List.filterMap_cons, hspan, List.append_assoc]
          rfl

/-- The first round is at the first line that is not blank, which is an envelope. -/
theorem firstMail_eq (h : firstMail text = some mark) :
    EnvelopeAt text mark.2 ∧ mark.1 = heuristicStarts (splitLineSpans text) ∧
      ∀ line ∈ (splitInclusive text).take mark.2, isBlank line = true := by
  rw [firstMail] at h
  split at h
  · cases h
  next first hfirst =>
  split at h
  · next henvelope =>
    cases h
    obtain ⟨hlt, hnot, hbefore⟩ := List.findIdx?_eq_some_iff_getElem.mp hfirst
    rw [length_splitLineSpans] at hlt
    refine ⟨⟨_, List.getElem?_eq_getElem hlt, ?_⟩, rfl, fun line hline => ?_⟩
    · rw [splitLineSpans_getElem?, List.getElem?_eq_getElem hlt] at henvelope
      exact henvelope
    · obtain ⟨i, hi, rfl⟩ := List.mem_take_iff_getElem.mp hline
      have hline : i < (splitInclusive text).length := by omega
      have hget : (splitLineSpans text)[i]? = _ := splitLineSpans_getElem?
      rw [List.getElem?_eq_getElem hline, List.getElem?_eq_getElem (by simpa using hline)] at hget
      have hblank := hbefore i (by omega)
      rw [Option.some.inj hget] at hblank
      exact isBlank_stripEnding (by simpa using hblank)
  · cases h

end Loop

/-- **Neither lost nor twice**: the spans are the mails of pieces that make up the text after some
    blank lines, and the text shows what the mails and their envelopes show, in this order. -/
theorem spans_account {text : List Char} {spans : List MessageSpan} {saw : Bool}
    (h : splitIntoSpans text = .ok (spans, saw)) :
    ∃ lead pieces, text = lead ++ (pieces.map MailPiece.text).flatten ∧ EndsLine lead ∧
      (∀ c ∈ lead, isWhitespace c = true) ∧ MailPieces pieces ∧ pieces.filterMap MailPiece.span = spans ∧
      visible isWhitespace text = pieces.flatMap MailPiece.shows := by
  rw [splitIntoSpans_eq] at h
  split at h
  · cases h
  next mark hmark =>
  obtain ⟨hcursor, hpending, hblank⟩ := firstMail_eq hmark
  obtain ⟨pieces, hpieces, hflat, hspans⟩ := splitLoop_pieces hcursor (by rw [hpending]; exact fun _ h => h) h
  have htext : text = ((splitInclusive text).take mark.2).flatten ++ (pieces.map MailPiece.text).flatten := by
    rw [hflat]
    exact text_eq_lines text mark.2
  have hlead := isBlank_flatten hblank
  have hends : EndsLine ((splitInclusive text).take mark.2).flatten :=
    endsLine_take text (List.getElem?_eq_some_iff.mp hcursor.choose_spec.1).1
  refine ⟨_, pieces, htext, hends, hlead, hpieces, hspans.symm, ?_⟩
  have hshown : visible isWhitespace ((splitInclusive text).take mark.2).flatten = [] :=
    visible_append_blank (a := []) hlead
  conv_lhs => rw [htext]
  rw [visible_append hends, hshown, List.nil_append, hpieces.visible_text]

/-! ## A mailbox of each kind of piece -/

namespace MboxSample

/-- A measured mail with a cut point in its body, a scanned one, and an envelope at the end. -/
def everyPiece : String :=
  "\nFrom a\nContent-Length: 11\n\nx\n\nFrom y\nz  \n\nFrom b\nhello\n\nFrom c\n"

/-- The mails of `everyPiece`. -/
def everyPieceSpans : List MessageSpan :=
  [.measured ["Content-Length: 11".toList] "x\n\nFrom y\nz".toList, .scanned ["hello".toList, []]]

/-- Both mails and the last envelope are accounted for. -/
theorem spans_account_everyPiece : splitIntoSpans everyPiece.toList = .ok (everyPieceSpans, true) ∧
    ∃ lead pieces, everyPiece.toList = lead ++ (pieces.map MailPiece.text).flatten ∧ EndsLine lead ∧
      (∀ c ∈ lead, isWhitespace c = true) ∧ MailPieces pieces ∧
      pieces.filterMap MailPiece.span = everyPieceSpans ∧
      visible isWhitespace everyPiece.toList = pieces.flatMap MailPiece.shows := by
  have hsplit : splitIntoSpans everyPiece.toList = .ok (everyPieceSpans, true) := by decide
  exact ⟨hsplit, spans_account hsplit⟩

end MboxSample

end Anole
