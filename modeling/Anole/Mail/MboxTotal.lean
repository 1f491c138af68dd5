import Anole.Mail.Mbox
import Mathlib.Logic.Relation

/-!
# When the splitter of mailboxes returns

Each round of the loop of `split_into_spans` moves to a later line (`spanStep_next_lt`), so the
loop ends. No index is out of range, and the only places where a round can panic are the end of a
declared body that does not fit a `usize`, and one that falls inside a character
(`spanStep_panics`).

* `split_mbox_returns_iff`: which inputs make the splitter return.
-/

open Common

namespace Anole

/-! ## Lines and their offsets -/

section Offsets

variable {lines : List (List Char)} {start i j : ℕ} {text : List Char}

/-- The byte offset of the `i`-th line. -/
def lineStart (lines : List (List Char)) (i : ℕ) : ℕ := byteLen (lines.take i).flatten

theorem lineSpans_getElem? :
    (lineSpans start lines)[i]? = lines[i]?.map fun line => ⟨start + lineStart lines i, stripEnding line⟩ := by
  induction lines generalizing start i with
  | nil => simp [lineSpans]
  | cons line lines ih =>
    cases i with
    | zero => simp [lineSpans, lineStart]
    | succ i =>
      rw [lineSpans, List.getElem?_cons_succ, List.getElem?_cons_succ, ih]
      simp [lineStart, Nat.add_assoc]

theorem splitLineSpans_getElem? :
    (splitLineSpans text)[i]? =
      (splitInclusive text)[i]?.map fun line => ⟨lineStart (splitInclusive text) i, stripEnding line⟩ := by
  rw [splitLineSpans, lineSpans_getElem?]
  simp

theorem splitLineSpans_text (text : List Char) :
    (splitLineSpans text).map LineSpan.text = (splitInclusive text).map stripEnding := by
  refine List.ext_getElem? fun i => ?_
  rw [List.getElem?_map, splitLineSpans_getElem?, List.getElem?_map, Option.map_map]
  rfl

@[simp] theorem length_splitLineSpans : (splitLineSpans text).length = (splitInclusive text).length := by
  have hlength : ∀ (lines : List (List Char)) (start : ℕ), (lineSpans start lines).length = lines.length := by
    intro lines
    induction lines with
    | nil => exact fun _ => rfl
    | cons line lines ih => exact fun start => congrArg (· + 1) (ih _)
  exact hlength _ _

theorem lineStart_mono (h : i ≤ j) : lineStart lines i ≤ lineStart lines j := by
  rw [lineStart, lineStart, ← Nat.sub_add_cancel h, Nat.add_comm, List.take_add]
  simp

/-- Lines are not empty. -/
theorem lineStart_lt (hij : i < j) (hi : i < (splitInclusive text).length) :
    lineStart (splitInclusive text) i < lineStart (splitInclusive text) j := by
  have hne : (splitInclusive text)[i] ≠ [] := (of_mem_splitInclusive (List.getElem_mem hi)).1
  have hsucc : lineStart (splitInclusive text) i < lineStart (splitInclusive text) (i + 1) := by
    rw [lineStart, lineStart, List.take_succ_eq_append_getElem hi]
    simp only [List.flatten_append, byteLen_append, List.flatten_cons, List.flatten_nil, List.append_nil]
    have hpos : byteLen (splitInclusive text)[i] ≠ 0 := mt byteLen_eq_zero.mp hne
    omega
  exact hsucc.trans_le (lineStart_mono hij)

theorem lineStart_of_length_le (h : (splitInclusive text).length ≤ i) :
    lineStart (splitInclusive text) i = byteLen text := by
  rw [lineStart, List.take_of_length_le h, splitInclusive_flatten]

/-- A text is cut at the start of a line. -/
theorem text_eq_lines (text : List Char) (i : ℕ) :
    text = ((splitInclusive text).take i).flatten ++ ((splitInclusive text).drop i).flatten := by
  rw [← List.flatten_append, List.take_append_drop, splitInclusive_flatten]

/-- A body starts at the start of a line. -/
theorem bodyStart_eq (text : List Char) (cursor : ℕ) (header : List (List Char)) :
    bodyStart text (splitLineSpans text) cursor header =
      lineStart (splitInclusive text) (cursor + 1 + header.length + 1) := by
  rw [bodyStart, splitLineSpans_getElem?]
  cases hline : (splitInclusive text)[cursor + 1 + header.length + 1]? with
  | none => exact (lineStart_of_length_le (List.getElem?_eq_none_iff.mp hline)).symm
  | some line => rfl

end Offsets

/-! ## One round -/

section Round

variable {text : List Char} {cursor next target aligned start declared : ℕ} {nextHeuristic : Option ℕ}
  {segments : List (List Char)} {header : List (List Char)} {span : MessageSpan} {lines : List LineSpan}

/-- What follows a measured body: blanks, and the line of an envelope at their end. -/
theorem scanAfter_eq_some_some (h : scanAfter lines target segments = some (some aligned)) :
    ∃ blanks rest line, segments = blanks ++ rest ∧ (∀ blank ∈ blanks, isBlank blank = true) ∧ rest ≠ [] ∧
      lines[aligned]? = some line ∧ line.start = target + byteLen blanks.flatten ∧
      isEnvelope line.text = true := by
  induction segments generalizing target with
  | nil => cases h
  | cons segment segments ih =>
    rw [scanAfter] at h
    split at h
    · next hblank =>
      obtain ⟨blanks, rest, line, rfl, hblanks, hrest, hline, hstart, henvelope⟩ := ih h
      refine ⟨segment :: blanks, rest, line, rfl, ?_, hrest, hline, ?_, henvelope⟩
      · intro blank hmem
        rcases List.mem_cons.mp hmem with rfl | hmem
        · exact hblank
        · exact hblanks blank hmem
      · rw [hstart, List.flatten_cons, byteLen_append]
        omega
    · split at h
      · cases h
      · simp only at h
        split at h
        · cases h
        · next line hline =>
          split at h
          · cases h
          · next hfits =>
            cases h
            simp only [not_or, not_not, Bool.not_eq_true', Bool.not_eq_false] at hfits
            exact ⟨[], segment :: segments, line, rfl, by simp, List.cons_ne_nil _ _, hline, by simp [hfits.1],
              by simpa using hfits.2⟩

/-- Nothing but blanks follows. -/
theorem scanAfter_eq_some_none (h : scanAfter lines target segments = some none) :
    ∀ segment ∈ segments, isBlank segment = true := by
  induction segments generalizing target with
  | nil => simp
  | cons segment segments ih =>
    rw [scanAfter] at h
    split at h
    · next hblank =>
      intro other hother
      rcases List.mem_cons.mp hother with rfl | hother
      · exact hblank
      · exact ih h other hother
    · split at h
      · cases h
      · simp only at h
        split at h
        · cases h
        · split at h <;> cases h

/-- The end of a declared body is an offset into the text, and fits a `usize`. -/
def LengthFits (text : List Char) (bodyEnd : ℕ) : Prop :=
  bodyEnd < usizeLimit ∧ (bodyEnd ≤ byteLen text → (splitAtByte bodyEnd text).isSome)

/-- **A measured mail** panics if and only if its declared length does not fit. -/
theorem measureSpan_panics (hstart : ∃ upTo rest, splitAtByte start text = some (upTo, rest)) :
    measureSpan text lines header start declared = .panics ↔ ¬ LengthFits text (start + declared) := by
  rw [measureSpan, LengthFits]
  by_cases hlimit : usizeLimit ≤ start + declared
  · simp [hlimit]
  · by_cases hlong : byteLen text < start + declared
    · simp [hlimit, hlong]
    · simp only [hlimit, hlong, if_false]
      cases hcut : splitAtByte (start + declared) text with
      | none => simpa using fun _ => hlong
      | some cut =>
        obtain ⟨upTo, rest⟩ := cut
        obtain ⟨htext, hlen⟩ := splitAtByte_eq_some.mp hcut
        obtain ⟨before, after, hbefore⟩ := hstart
        obtain ⟨htext', hlen'⟩ := splitAtByte_eq_some.mp hbefore
        have hbody : ∃ body, upTo = before ++ body := by
          rcases List.append_eq_append_iff.mp (htext.symm.trans htext') with ⟨body, hupTo, -⟩ | ⟨body, hupTo, -⟩
          · have hnil : body = [] := by
              have hlong := congrArg byteLen hupTo
              rw [byteLen_append, hlen, hlen'] at hlong
              exact byteLen_eq_zero.mp (by omega)
            exact ⟨[], by rw [hupTo, hnil, List.append_nil, List.append_nil]⟩
          · exact ⟨body, hupTo⟩
        obtain ⟨body, rfl⟩ := hbody
        have hslice : splitAtByte start (before ++ body) = some (before, body) :=
          splitAtByte_eq_some.mpr ⟨rfl, hlen'⟩
        simp only [hslice]
        have hfits : start + declared < usizeLimit := by omega
        simp only [hfits, Option.isSome_some, implies_true, and_self, not_true_eq_false, iff_false]
        split
        · exact fun h => by cases h
        · split <;> exact fun h => by cases h

/-- The end of the body that a mail declares, if it declares one. -/
def declaredEnd (text : List Char) (nextHeuristic : Option ℕ) (cursor : ℕ) : Option ℕ :=
  let lines := splitLineSpans text
  (measured? text lines cursor (linesBetween lines cursor (nextHeuristic.getD lines.length))).map
    fun (_, start, declared) => start + declared

/-- **A round** panics if and only if the length that its mail declares does not fit. -/
theorem spanStep_panics (hcursor : cursor < (splitInclusive text).length)
    (hnext : ∀ next ∈ nextHeuristic, cursor < next ∧ next < (splitInclusive text).length) :
    spanStep text (splitLineSpans text) nextHeuristic cursor = .panics ↔
      ¬ ∀ bodyEnd ∈ declaredEnd text nextHeuristic cursor, LengthFits text bodyEnd := by
  have hlimit : ¬ (nextHeuristic.getD (splitLineSpans text).length < cursor + 1 ∨
      (splitLineSpans text).length < nextHeuristic.getD (splitLineSpans text).length) := by
    cases nextHeuristic with
    | none =>
      rw [Option.getD_none, length_splitLineSpans]
      omega
    | some next =>
      have := hnext next rfl
      rw [Option.getD_some, length_splitLineSpans]
      omega
  rw [spanStep, declaredEnd]
  simp only [if_neg hlimit]
  cases hmeasured : measured? text (splitLineSpans text) cursor
      (linesBetween (splitLineSpans text) cursor (nextHeuristic.getD (splitLineSpans text).length)) with
  | none =>
    simp only [Option.map_none, Option.not_mem_none, false_implies, implies_true, not_true_eq_false, iff_false]
    split
    · exact fun h => by cases h
    · split <;> exact fun h => by cases h
  | some found =>
    obtain ⟨header, start, declared⟩ := found
    simp only [Option.map_some, Option.mem_some_iff, forall_eq']
    refine measureSpan_panics ?_
    obtain ⟨header', hheader, hdeclared⟩ := Option.bind_eq_some_iff.mp hmeasured
    obtain ⟨declared', -, hfound⟩ := Option.map_eq_some_iff.mp hdeclared
    cases hfound
    exact ⟨_, _, splitAtByte_eq_some.mpr ⟨text_eq_lines text _, (bodyStart_eq text cursor header).symm⟩⟩

/-- **Each round moves to a later line.** -/
theorem spanStep_next_lt (hnext : ∀ next ∈ nextHeuristic, cursor < next ∧ next < (splitInclusive text).length)
    (hstep : spanStep text (splitLineSpans text) nextHeuristic cursor = .next span next) :
    cursor < next ∧ next < (splitInclusive text).length := by
  rw [spanStep] at hstep
  simp only at hstep
  split at hstep
  · cases hstep
  · split at hstep
    · next header start declared hmeasured =>
      obtain ⟨header', -, hdeclared⟩ := Option.bind_eq_some_iff.mp hmeasured
      obtain ⟨declared', -, hfound⟩ := Option.map_eq_some_iff.mp hdeclared
      cases hfound
      rw [measureSpan] at hstep
      split at hstep
      · cases hstep
      · split at hstep
        · cases hstep
        · split at hstep
          · cases hstep
          · split at hstep
            · cases hstep
            · next nextFrom hscan =>
              split at hstep
              · cases hstep
              · split at hstep
                · next aligned =>
                  cases hstep
                  obtain ⟨blanks, rest, line, -, -, -, hline, hstart, -⟩ := scanAfter_eq_some_some hscan
                  rw [splitLineSpans_getElem?] at hline
                  obtain ⟨raw, hraw, rfl⟩ := Option.map_eq_some_iff.mp hline
                  have hlt := (List.getElem?_eq_some_iff.mp hraw).1
                  refine ⟨?_, hlt⟩
                  by_contra hle
                  rw [bodyStart_eq] at hstart
                  have hmono : lineStart (splitInclusive text) next <
                      lineStart (splitInclusive text) (cursor + 1 + header.length + 1) :=
                    lineStart_lt (by omega) hlt
                  simp only at hstart
                  omega
                · cases hstep
    · split at hstep
      · cases hstep
      · split at hstep
        · next following =>
          cases hstep
          exact hnext _ rfl
        · cases hstep

end Round

/-! ## The loop -/

/-- Where a round of the loop is: the cut points that are left, and the line of the envelope. -/
abbrev MailMark := List ℕ × ℕ

/-- The next cut point of a round (lines 226–229). -/
def MailMark.nextHeuristic (mark : MailMark) : Option ℕ := (mark.1.dropWhile (· ≤ mark.2)).head?

/-- One round leads to the next. -/
def NextMail (text : List Char) (mark mark' : MailMark) : Prop :=
  mark'.1 = mark.1.dropWhile (· ≤ mark.2) ∧
    ∃ span, spanStep text (splitLineSpans text) mark.nextHeuristic mark.2 = .next span mark'.2

/-- The length that the mail of a round declares fits. -/
def MailMark.Fits (text : List Char) (mark : MailMark) : Prop :=
  ∀ bodyEnd ∈ declaredEnd text mark.nextHeuristic mark.2, LengthFits text bodyEnd

/-- The line of a round is one of the text, and so are the cut points. -/
def MailMark.Within (text : List Char) (mark : MailMark) : Prop :=
  mark.2 < (splitInclusive text).length ∧ ∀ next ∈ mark.1, next < (splitInclusive text).length

/-- The first round (lines 192–201 and 224). -/
def firstMail (text : List Char) : Option MailMark :=
  let lines := splitLineSpans text
  match lines.findIdx? fun line => !isBlank line.text with
  | none => none
  | some first =>
    if isEnvelope ((lines[first]?.map LineSpan.text).getD []) then some (heuristicStarts lines, first) else none

section Loop

variable {text : List Char} {mark mark' : MailMark} {fuel next : ℕ}

theorem MailMark.Within.ahead (h : mark.Within text) (hnext : next ∈ mark.nextHeuristic) :
    mark.2 < next ∧ next < (splitInclusive text).length := by
  have hmem := List.mem_of_head? hnext
  refine ⟨?_, h.2 next ((List.dropWhile_suffix _).subset hmem)⟩
  have hpass := List.head?_dropWhile_not (fun start => decide (start ≤ mark.2)) mark.1
  rw [MailMark.nextHeuristic] at hnext
  rw [Option.mem_def.mp hnext] at hpass
  simpa using hpass

theorem NextMail.lt (h : mark.Within text) (hnext : NextMail text mark mark') :
    mark.2 < mark'.2 ∧ mark'.Within text := by
  obtain ⟨hpending, span, hstep⟩ := hnext
  obtain ⟨hlt, hwithin⟩ := spanStep_next_lt (fun _ h' => h.ahead h') hstep
  refine ⟨hlt, hwithin, fun next hmem => h.2 next ?_⟩
  rw [hpending] at hmem
  exact (List.dropWhile_suffix _).subset hmem

theorem firstMail_within (h : firstMail text = some mark) : mark.Within text := by
  rw [firstMail] at h
  split at h
  · cases h
  · next first hfirst =>
    split at h
    · cases h
      refine ⟨?_, fun next hnext => ?_⟩
      · have := List.findIdx?_eq_some_iff_findIdx_eq.mp hfirst
        rw [length_splitLineSpans] at this
        exact this.1
      · have := (List.mem_filter.mp hnext).1
        rwa [List.mem_range, length_splitLineSpans] at this
    · cases h

/-- **The loop ends**, and it panics if and only if a round that it comes to does. -/
theorem splitLoop_ends (h : mark.Within text) (hfuel : (splitInclusive text).length ≤ mark.2 + fuel)
    (saw : Bool) (spans : List MessageSpan) :
    splitLoop text (splitLineSpans text) fuel mark.1 mark.2 saw spans ≠ .loops ∧
      (splitLoop text (splitLineSpans text) fuel mark.1 mark.2 saw spans ≠ .panics ↔
        ∀ mark', Relation.ReflTransGen (NextMail text) mark mark' → mark'.Fits text) := by
  induction fuel generalizing mark saw spans with
  | zero =>
    have := h.1
    omega
  | succ fuel ih =>
    have hpanics := spanStep_panics h.1 (fun next hnext => h.ahead hnext)
    rw [splitLoop]
    -- a round without a successor is the last one
    have hlast : (∀ span next, spanStep text (splitLineSpans text) mark.nextHeuristic mark.2 ≠ .next span next) →
        ((∀ mark', Relation.ReflTransGen (NextMail text) mark mark' → mark'.Fits text) ↔ mark.Fits text) := by
      intro hend
      constructor
      · exact fun hall => hall mark .refl
      · intro hfits mark' hreach
        rcases Relation.ReflTransGen.cases_head hreach with rfl | ⟨middle, ⟨-, span, hstep⟩, -⟩
        · exact hfits
        · exact absurd hstep (hend span _)
    have hround : spanStep text (splitLineSpans text) (mark.1.dropWhile (· ≤ mark.2)).head? mark.2 =
        spanStep text (splitLineSpans text) mark.nextHeuristic mark.2 := rfl
    simp only [hround]
    cases hstep : spanStep text (splitLineSpans text) mark.nextHeuristic mark.2 with
    | panics =>
      simp only [ne_eq, reduceCtorEq, not_false_eq_true, not_true_eq_false, true_and, false_iff]
      rw [hlast (by simp [hstep])]
      exact hpanics.mp hstep
    | err error =>
      simp only [ne_eq, reduceCtorEq, not_false_eq_true, true_and, true_iff]
      rw [hlast (by simp [hstep])]
      exact not_not.mp (mt hpanics.mpr (by simp [hstep]))
    | last span =>
      have hfits : mark.Fits text := not_not.mp (mt hpanics.mpr (by simp [hstep]))
      cases span <;>
      · simp only [ne_eq, reduceCtorEq, not_false_eq_true, true_and, true_iff]
        rw [hlast (by simp [hstep])]
        exact hfits
    | next span following =>
      have hnext : NextMail text mark (mark.1.dropWhile (· ≤ mark.2), following) := ⟨rfl, span, hstep⟩
      obtain ⟨hlt, hwithin⟩ := hnext.lt h
      have hrounds : (splitInclusive text).length ≤ following + fuel := by
        simp only at hlt
        omega
      obtain ⟨hends, hiff⟩ := ih hwithin hrounds (saw || span.isMeasured) (spans ++ [span])
      refine ⟨hends, hiff.trans ?_⟩
      constructor
      · intro hall mark' hreach
        rcases Relation.ReflTransGen.cases_head hreach with rfl | ⟨middle, ⟨hpending, span', hstep'⟩, hrest⟩
        · exact not_not.mp (mt hpanics.mpr (by simp [hstep]))
        · rw [hstep] at hstep'
          cases hstep'
          refine hall mark' ?_
          rwa [← hpending]
      · exact fun hall mark' hreach => hall mark' (.head hnext hreach)

end Loop

/-! ## The splitter -/

/-- A mail that the splitter comes to. -/
def ComesTo (text : List Char) (mark : MailMark) : Prop :=
  ∃ first, firstMail text = some first ∧ Relation.ReflTransGen (NextMail text) first mark

section Splitter

variable {text : List Char}

theorem splitIntoSpans_eq (text : List Char) :
    splitIntoSpans text = match firstMail text with
      | none => .err envelopeError
      | some mark => splitLoop text (splitLineSpans text) (splitLineSpans text).length mark.1 mark.2 false [] := by
  cases hfirst : (splitLineSpans text).findIdx? fun line => !isBlank line.text with
  | none => simp [splitIntoSpans, firstMail, hfirst]
  | some first =>
    by_cases henvelope : isEnvelope (((splitLineSpans text)[first]?.map LineSpan.text).getD []) = true
    · simp [splitIntoSpans, firstMail, hfirst, henvelope]
    · simp [splitIntoSpans, firstMail, hfirst, henvelope]

theorem splitIntoSpans_ends (text : List Char) :
    splitIntoSpans text ≠ .loops ∧
      (splitIntoSpans text ≠ .panics ↔ ∀ mark, ComesTo text mark → mark.Fits text) := by
  rw [splitIntoSpans_eq]
  cases hfirst : firstMail text with
  | none => simp [ComesTo, hfirst]
  | some first =>
    have hrounds : (splitInclusive text).length ≤ first.2 + (splitLineSpans text).length := by
      rw [length_splitLineSpans]
      omega
    obtain ⟨hends, hiff⟩ := splitLoop_ends (firstMail_within hfirst) hrounds false []
    refine ⟨hends, hiff.trans ?_⟩
    simp [ComesTo, hfirst]

end Splitter

theorem fromUTF8_toUTF8 (text : String) : String.fromUTF8? text.toUTF8 = some text := by
  rw [String.toUTF8_eq_toByteArray, String.fromUTF8?, dif_pos text.isValidUTF8]
  rfl

/-- **The splitter returns** a value or an error if and only if every Content-Length that it comes
    to fits. In any case its loop ends, and each round moves to a later line. -/
theorem split_mbox_returns_iff (utf8Error : ByteArray → String) (bytes : ByteArray)
    (requested : Option MboxVariant) :
    (((∃ split, splitMboxBytesVariant utf8Error bytes requested = .ok split) ∨
        ∃ error, splitMboxBytesVariant utf8Error bytes requested = .err error) ↔
      ∀ text, String.fromUTF8? bytes = some text → ∀ mark, ComesTo text.toList mark → mark.Fits text.toList) ∧
      splitMboxBytesVariant utf8Error bytes requested ≠ .loops ∧
      ∀ text, String.fromUTF8? bytes = some text → ∀ mark mark', ComesTo text.toList mark →
        NextMail text.toList mark mark' → mark.2 < mark'.2 := by
  have hmoves : ∀ text mark mark', ComesTo text mark → NextMail text mark mark' → mark.2 < mark'.2 := by
    rintro text mark mark' ⟨first, hfirst, hreach⟩ hnext
    have hwithin : mark.Within text := by
      clear hnext
      induction hreach with
      | refl => exact firstMail_within hfirst
      | tail _ hstep ih => exact (hstep.lt ih).2
    exact (hnext.lt hwithin).1
  rw [splitMboxBytesVariant]
  cases hutf8 : String.fromUTF8? bytes with
  | none => simp
  | some text =>
    obtain ⟨hends, hiff⟩ := splitIntoSpans_ends text.toList
    simp only [Option.some.injEq, forall_eq']
    rw [← hiff]
    refine ⟨?_, ?_, hmoves _⟩
    · cases hsplit : splitIntoSpans text.toList with
      | ok found =>
        obtain ⟨spans, saw⟩ := found
        simp only [ne_eq, reduceCtorEq, not_false_eq_true, iff_true]
        cases renderMailbox requested spans saw with
        | ok mailbox => exact .inl ⟨mailbox, rfl⟩
        | error error => exact .inr ⟨error, rfl⟩
      | err error => simp
      | panics => simp
      | loops => exact absurd hsplit hends
    · cases hsplit : splitIntoSpans text.toList with
      | ok found =>
        obtain ⟨spans, saw⟩ := found
        simp only
        cases renderMailbox requested spans saw <;> exact fun h => by cases h
      | err error => simp
      | panics => simp
      | loops => exact absurd hsplit hends

/-! ## Mailboxes that make the splitter panic -/

namespace MboxSample

/-- The declared length ends inside a character of two bytes. -/
def insideCharacter : String := "From a\nContent-Length: 1\n\né\n"

/-- The declared length is `usize::MAX`. -/
def overflowing : String := "From a\nContent-Length: 18446744073709551615\n\nx\n"

/-- **Neither a value nor an error**: the slice and the addition panic. -/
theorem split_mbox_panics :
    splitMboxBytesVariant (fun _ => "") insideCharacter.toUTF8 none = .panics ∧
      splitMboxBytesVariant (fun _ => "") overflowing.toUTF8 none = .panics := by
  have hinside : splitIntoSpans insideCharacter.toList = .panics := by decide
  have hoverflow : splitIntoSpans overflowing.toList = .panics := by decide
  rw [splitMboxBytesVariant, fromUTF8_toUTF8, splitMboxBytesVariant, fromUTF8_toUTF8]
  simp only [hinside, hoverflow, and_self]

end MboxSample

end Anole
