import Anole.Common.HtmlTags
import Anole.Mail.Sanitizer

/-!
# The tags of sanitized mail

A browser reads again what the sanitizer wrote, and the sanitizer wrote the values of attributes
without their quotes. `sanitizeHtml_safe` says what must hold of the events for the result to be
safe: each tag and each attribute that is written reads back as what it was.
-/

open Common

namespace Anole

/-! ## What is safe -/

/-- An attribute that runs no script and loads nothing from afar. `decode` is how a browser decodes
the references of a value. -/
def SafeAttribute (decode : List Char → List Char) (attr : List Char × List Char) : Prop :=
  ¬ "on".toList.isPrefixOf attr.1 ∧ (isAddressKey attr.1 → ¬ isRemoteUrl (decode attr.2))

/-- A tag that begins no script and has only safe attributes. -/
def SafeTag (decode : List Char → List Char) (tag : HtmlTag) : Prop :=
  (tag.closing = false → tag.name ≠ "script".toList) ∧ ∀ attr ∈ tag.attributes, SafeAttribute decode attr

instance (decode : List Char → List Char) (attr : List Char × List Char) : Decidable (SafeAttribute decode attr) :=
  inferInstanceAs (Decidable (_ ∧ _))

instance (decode : List Char → List Char) (tag : HtmlTag) : Decidable (SafeTag decode tag) :=
  inferInstanceAs (Decidable (_ ∧ _))

/-! ## What is plain -/

/-- The words after the first one. -/
def laterWords (value : List Char) : List (List Char) := words [] (afterFirst value)

/-- An attribute that a browser reads back when it is written without quotes: of the words after
the first one, which it reads as attributes, none is that of an event. -/
def Attribute.Plain (decode : List Char → List Char) (attr : Attribute) : Prop :=
  (∀ c ∈ attr.key, ¬ isHtmlSpace c ∧ c ≠ '/' ∧ c ≠ '>') ∧ PlainValue attr.value ∧
    (∀ word ∈ laterWords attr.value, ¬ "on".toList.isPrefixOf (lowercase word)) ∧
    (isAddressKey (lowercase attr.key) → '&' ∈ attr.value → ¬ isRemoteUrl (decode (firstWord attr.value)))

/-- The attributes that are written, which are those that are not of an event. -/
def writtenAttributes (attributes : List (Option Attribute)) : List Attribute :=
  attributes.reduceOption.filter fun attr => !(sanitizedAttribute attr).isEmpty

/-- The last attribute before a `/>`, of which the `/` becomes part of an address. -/
def PlainEnd (decode : List Char → List Char) (attributes : List (Option Attribute)) : Prop :=
  ∀ attr ∈ (writtenAttributes attributes).getLast?, attr.isKept → isAddressKey (lowercase attr.key) →
    ¬ isRemoteUrl (decode (lastValue attr.value ['/']))

/-- An event that a browser reads back when it is written. -/
def HtmlEvent.Plain (decode : List Char → List Char) : HtmlEvent → Prop
  | .start name attributes =>
    isScript name ∨ PlainName name ∧ ∀ attr ∈ attributes.reduceOption, attr.isKept → attr.Plain decode
  | .empty name attributes =>
    isScript name ∨ (PlainName name ∧ ∀ attr ∈ attributes.reduceOption, attr.isKept → attr.Plain decode) ∧
      PlainEnd decode attributes
  | .close name => isScript name ∨ PlainName name
  | .cdata content | .comment content | .decl content => '>' ∉ content
  | _ => True

instance decidableAttributePlain (decode : List Char → List Char) (attr : Attribute) :
    Decidable (attr.Plain decode) :=
  @instDecidableAnd _ _ (List.decidableBAll _ _) inferInstance

instance (decode : List Char → List Char) (attributes : List (Option Attribute)) :
    Decidable (PlainEnd decode attributes) := inferInstanceAs (Decidable (∀ _ ∈ _, _))

instance decidableEventPlain (decode : List Char → List Char) (event : HtmlEvent) :
    Decidable (event.Plain decode) :=
  match event with
  | .start _ _ => inferInstanceAs (Decidable (_ ∨ _ ∧ _))
  | .empty _ _ => inferInstanceAs (Decidable (_ ∨ (_ ∧ _) ∧ _))
  | .close _ => inferInstanceAs (Decidable (_ ∨ _))
  | .cdata _ | .comment _ | .decl _ => inferInstanceAs (Decidable (_ ∉ _))
  | .text _ | .pi _ | .docType _ | .generalRef _ | .failed _ => inferInstanceAs (Decidable True)

/-- The events that are met outside script elements. -/
def metOutside : ℕ → List HtmlEvent → List HtmlEvent
  | _, [] => []
  | depth, event :: events => (if depth = 0 then [event] else []) ++ metOutside (depthAfter depth event) events

/-! ## Attributes -/

section Attributes

variable {decode : List Char → List Char} {sections : Bool} {attr : Attribute} {attributes : List (Option Attribute)}
  {state : HtmlScan} {tag : HtmlTag} {key value : List Char}

theorem isPrefixOf_append {a b c : List Char} (h : a.isPrefixOf b) : a.isPrefixOf (b ++ c) := by
  rw [List.isPrefixOf_iff_prefix] at h ⊢
  exact h.trans (List.prefix_append b c)

theorem isRemoteUrl_append {a b : List Char} (h : isRemoteUrl a) : isRemoteUrl (a ++ b) := by
  have hne : a.dropWhile isTagSpace ≠ [] := by
    intro hnil
    rw [isRemoteUrl, hnil] at h
    revert h
    decide
  have hdrop : (a ++ b).dropWhile isTagSpace = a.dropWhile isTagSpace ++ b := by
    rw [List.dropWhile_append, if_neg (by simpa using hne)]
  simp only [isRemoteUrl, hdrop, lowercase, List.map_append, Bool.or_eq_true] at h ⊢
  rcases h with (h | h) | h
  · exact .inl (.inl (isPrefixOf_append h))
  · exact .inl (.inr (isPrefixOf_append h))
  · exact .inr (isPrefixOf_append h)

theorem SafeTag.push (h : SafeTag decode tag) (hattr : SafeAttribute decode (key, value)) :
    SafeTag decode (tag.push key value) := by
  refine ⟨h.1, fun other hother => ?_⟩
  rcases List.mem_append.mp hother with hin | hin
  · exact h.2 other hin
  · rw [List.mem_singleton.mp hin]
    exact hattr

theorem SafeTag.bare {names : List (List Char)} (h : SafeTag decode tag) (hempty : decode [] = [])
    (hnames : ∀ name ∈ names, ¬ "on".toList.isPrefixOf (lowercase name)) : SafeTag decode (tag.bare names) := by
  refine ⟨h.1, fun other hother => ?_⟩
  rcases List.mem_append.mp hother with hin | hin
  · exact h.2 other hin
  · obtain ⟨name, hname, rfl⟩ := List.mem_map.mp hin
    refine ⟨hnames name hname, fun _ => ?_⟩
    rw [hempty]
    decide

theorem lastValue_nil (value : List Char) : lastValue value [] = firstWord value := by
  rw [lastValue]
  split_ifs with hrest
  · have hparts := firstWord_afterFirst value
    rw [hrest, List.append_nil] at hparts
    rw [List.append_nil, hparts]
  · rfl

/-- The address of a kept attribute is not remote, also as a browser reads it. -/
theorem address_firstWord (hdecode : ∀ value, '&' ∉ value → decode value = value) (hkept : attr.isKept)
    (hplain : attr.Plain decode) (haddress : isAddressKey (lowercase attr.key)) :
    ¬ isRemoteUrl (decode (firstWord attr.value)) := by
  by_cases hreference : '&' ∈ attr.value
  · exact hplain.2.2.2 haddress hreference
  · have hfirst : '&' ∉ firstWord attr.value := fun hin => hreference ((List.takeWhile_prefix _).mem hin)
    rw [hdecode _ hfirst]
    intro hremote
    have hwhole : isRemoteUrl attr.value := by
      rw [← firstWord_afterFirst attr.value]
      exact isRemoteUrl_append hremote
    simp [Attribute.isKept, haddress, hwhole] at hkept

/-- What the end of a tag makes of the last attribute is safe. -/
def EndsSafe (decode : List Char → List Char) (attr : Attribute) (tail : List Char) : Prop :=
  attr.isKept → isAddressKey (lowercase attr.key) → ¬ isRemoteUrl (decode (lastValue attr.value tail))

theorem scan_remoteRemoved (h : state.ended [] = some tag) :
    scan (htmlStep sections) state " data-fw-remote-removed=\"1\"".toList =
      (.afterQuoted (tag.push "data-fw-remote-removed".toList ['1']), []) := by
  have hname : scan (htmlStep sections) state (' ' :: ("data-fw-remote-removed".toList ++ ['='])) = _ :=
    scan_html_name h (by decide) (@of_decide_eq_true _ (List.decidableBAll _ _) rfl)
  have hsplit : " data-fw-remote-removed=\"1\"".toList =
      ' ' :: ("data-fw-remote-removed".toList ++ ['=']) ++ ['"', '1', '"'] := by decide
  rw [hsplit, scan_after hname]
  rfl

/-- **An attribute that is written** is read as safe attributes. -/
theorem scan_sanitizedAttribute (sections : Bool) (hdecode : ∀ value, '&' ∉ value → decode value = value)
    (htoken : attr.Tokenized) (hplain : attr.isKept → attr.Plain decode) (hwritten : sanitizedAttribute attr ≠ [])
    (hended : state.ended [] = some tag) (hsafe : SafeTag decode tag) :
    ∃ next, scan (htmlStep sections) state (sanitizedAttribute attr) = (next, []) ∧
      ∀ tail, EndsSafe decode attr tail → ∃ after, next.ended tail = some after ∧ SafeTag decode after := by
  rw [sanitizedAttribute] at hwritten ⊢
  by_cases hremote : isAddressKey (lowercase attr.key) && isRemoteUrl attr.value
  · rw [if_pos hremote]
    exact ⟨_, scan_remoteRemoved hended, fun tail _ => ⟨_, rfl, hsafe.push ⟨by decide, fun haddress => absurd haddress (by decide)⟩⟩⟩
  by_cases hon : "on".toList.isPrefixOf (lowercase attr.key)
  · rw [if_neg hremote, if_pos hon] at hwritten
    exact absurd rfl hwritten
  have hkept : attr.isKept := by
    simp only [Attribute.isKept, hremote, hon]
    rfl
  obtain ⟨hkey, hvalue, hlater, -⟩ := hplain hkept
  have hname : ∀ c ∈ attr.key, ¬ isHtmlSpace c ∧ c ≠ '/' ∧ c ≠ '=' ∧ c ≠ '>' := fun c hc =>
    ⟨(hkey c hc).1, (hkey c hc).2.1, (htoken.2 c hc).2, (hkey c hc).2.2⟩
  obtain ⟨next, hscan, htag⟩ := scan_html_attribute sections hended htoken.1 hname hvalue
  rw [if_neg hremote, if_neg hon]
  refine ⟨next, hscan, fun tail htail => ⟨_, htag tail, ?_⟩⟩
  exact (hsafe.push ⟨hon, fun haddress => htail hkept haddress⟩).bare (hdecode [] (by simp)) hlater

end Attributes

section Tags

variable {decode : List Char → List Char} {sections : Bool} {attrs : List Attribute}
  {attributes : List (Option Attribute)} {state : HtmlScan} {tag : HtmlTag} {name : List Char}

theorem scan_attributes (sections : Bool) (hdecode : ∀ value, '&' ∉ value → decode value = value)
    (hattrs : ∀ attr ∈ attrs, attr.Tokenized ∧ (attr.isKept → attr.Plain decode) ∧ sanitizedAttribute attr ≠ [])
    (hended : state.ended [] = some tag) (hsafe : SafeTag decode tag) :
    ∃ next after, scan (htmlStep sections) state (attrs.flatMap sanitizedAttribute) = (next, []) ∧
      next.ended [] = some after ∧ SafeTag decode after := by
  induction attrs generalizing state tag with
  | nil => exact ⟨state, tag, rfl, hended, hsafe⟩
  | cons attr attrs ih =>
    obtain ⟨htoken, hplain, hwritten⟩ := hattrs attr List.mem_cons_self
    obtain ⟨middle, hscan, hmiddle⟩ :=
      scan_sanitizedAttribute sections hdecode htoken hplain hwritten hended hsafe
    have hends : EndsSafe decode attr [] := fun hkept haddress => by
      rw [lastValue_nil]
      exact address_firstWord hdecode hkept (hplain hkept) haddress
    obtain ⟨after, hafter, hsafe⟩ := hmiddle [] hends
    obtain ⟨next, last, hrest, hlast⟩ :=
      ih (fun other hother => hattrs other (List.mem_cons_of_mem _ hother)) hafter hsafe
    exact ⟨next, last, by rw [List.flatMap_cons, scan_after hscan, hrest]; rfl, hlast⟩

/-- The same, up to the end of the tag. -/
theorem scan_attributes_end {tail : List Char} (sections : Bool) (hdecode : ∀ value, '&' ∉ value → decode value = value)
    (hattrs : ∀ attr ∈ attrs, attr.Tokenized ∧ (attr.isKept → attr.Plain decode) ∧ sanitizedAttribute attr ≠ [])
    (htail : tail = [] ∨ tail = ['/']) (hend : ∀ attr ∈ attrs.getLast?, EndsSafe decode attr tail)
    (hsafe : SafeTag decode tag) :
    ∃ after, scan (htmlStep sections) (.name tag) (attrs.flatMap sanitizedAttribute ++ (tail ++ ['>'])) =
      (.data, [after]) ∧ SafeTag decode after := by
  rcases List.eq_nil_or_concat attrs with rfl | ⟨before, last, hconcat⟩
  · exact ⟨tag, scan_html_end rfl htail, hsafe⟩
  · rw [List.concat_eq_append] at hconcat
    subst hconcat
    have hbefore := fun attr (hattr : attr ∈ before) => hattrs attr (List.mem_append_left [last] hattr)
    have hended : (HtmlScan.name tag).ended [] = some tag := rfl
    obtain ⟨middle, seen, hscan, hseen, hsafe⟩ := scan_attributes sections hdecode hbefore hended hsafe
    obtain ⟨htoken, hplain, hwritten⟩ := hattrs last (by simp)
    obtain ⟨next, hlast, hnext⟩ :=
      scan_sanitizedAttribute sections hdecode htoken hplain hwritten hseen hsafe
    obtain ⟨after, hafter, hsafe⟩ := hnext tail (hend last (by simp))
    refine ⟨after, ?_, hsafe⟩
    rw [List.flatMap_append, List.append_assoc, scan_after hscan, List.flatMap_singleton,
      scan_after hlast, scan_html_end hafter htail]
    rfl

theorem sanitizedAttributes_eq (attributes : List (Option Attribute)) :
    sanitizedAttributes attributes = (writtenAttributes attributes).flatMap sanitizedAttribute := by
  rw [sanitizedAttributes, writtenAttributes]
  induction attributes.reduceOption with
  | nil => rfl
  | cons attr attrs ih =>
    rw [List.flatMap_cons, List.filter_cons, ih]
    cases hwritten : sanitizedAttribute attr with
    | nil => rfl
    | cons c rest =>
      show c :: rest ++ _ = (attr :: List.filter _ attrs).flatMap sanitizedAttribute
      rw [List.flatMap_cons, hwritten]

theorem written_plain (htoken : ∀ attr ∈ attributes.reduceOption, attr.Tokenized)
    (hplain : ∀ attr ∈ attributes.reduceOption, attr.isKept → attr.Plain decode) :
    ∀ attr ∈ writtenAttributes attributes,
      attr.Tokenized ∧ (attr.isKept → attr.Plain decode) ∧ sanitizedAttribute attr ≠ [] := by
  intro attr hattr
  obtain ⟨hin, hwritten⟩ := List.mem_filter.mp hattr
  exact ⟨htoken attr hin, hplain attr hin, by simpa using hwritten⟩

/-- At `>` every last attribute ends well. -/
theorem endsSafe_nil (hdecode : ∀ value, '&' ∉ value → decode value = value)
    (hplain : ∀ attr ∈ attributes.reduceOption, attr.isKept → attr.Plain decode) :
    ∀ attr ∈ (writtenAttributes attributes).getLast?, EndsSafe decode attr [] := by
  intro attr hattr hkept haddress
  have hin := (List.mem_filter.mp (List.mem_of_getLast? hattr)).1
  rw [lastValue_nil]
  exact address_firstWord hdecode hkept (hplain attr hin hkept) haddress

/-- **A start tag that is written** is read as one safe tag. -/
theorem scan_start_tag {tail : List Char} (sections : Bool) (hdecode : ∀ value, '&' ∉ value → decode value = value)
    (hscript : ¬ isScript name) (hname : PlainName name) (htoken : ∀ attr ∈ attributes.reduceOption, attr.Tokenized)
    (hplain : ∀ attr ∈ attributes.reduceOption, attr.isKept → attr.Plain decode) (htail : tail = [] ∨ tail = ['/'])
    (hend : ∀ attr ∈ (writtenAttributes attributes).getLast?, EndsSafe decode attr tail) :
    ∃ after, scan (htmlStep sections) .data ('<' :: (name ++ sanitizedAttributes attributes ++ (tail ++ ['>']))) =
      (.data, [after]) ∧ SafeTag decode after := by
  have hstart : SafeTag decode ⟨false, name.map Char.toLower, []⟩ := by
    refine ⟨fun _ heq => hscript ?_, by simp⟩
    rw [isScript, lowercase, decide_eq_true_eq]
    exact heq
  obtain ⟨after, hscan, hsafe⟩ :=
    scan_attributes_end sections hdecode (written_plain htoken hplain) htail hend hstart
  refine ⟨after, ?_, hsafe⟩
  rw [List.append_assoc, ← List.cons_append, scan_after (scan_html_start hname), sanitizedAttributes_eq, hscan]
  rfl

/-- **What is written for an event** is read as safe tags. -/
theorem scan_html_event {event : HtmlEvent} (sections : Bool) (hdecode : ∀ value, '&' ∉ value → decode value = value)
    (htoken : event.Tokenized) (hplain : event.Plain decode) :
    ∃ tags, scan (htmlStep sections) .data (writtenFor 0 event) = (.data, tags) ∧ ∀ tag ∈ tags, SafeTag decode tag := by
  have hremoved : scan (htmlStep sections) .data scriptRemoved = (.data, []) := by
    cases sections <;> decide
  cases event with
  | start name attributes =>
    by_cases hscript : isScript name
    · rw [writtenFor, if_pos hscript, if_pos rfl]
      exact ⟨[], hremoved, by simp⟩
    · obtain ⟨hname, hattributes⟩ := hplain.resolve_left hscript
      obtain ⟨tag, hscan, hsafe⟩ := scan_start_tag sections hdecode hscript hname htoken.2 hattributes (.inl rfl)
        (endsSafe_nil hdecode hattributes)
      rw [writtenFor, if_neg hscript, if_neg (Nat.lt_irrefl 0)]
      exact ⟨[tag], hscan, by simpa using hsafe⟩
  | empty name attributes =>
    by_cases hscript : isScript name
    · rw [writtenFor, if_neg (Nat.lt_irrefl 0), if_pos hscript]
      exact ⟨[], hremoved, by simp⟩
    · obtain ⟨⟨hname, hattributes⟩, hend⟩ := hplain.resolve_left hscript
      obtain ⟨tag, hscan, hsafe⟩ :=
        scan_start_tag sections hdecode hscript hname htoken.2 hattributes (.inr rfl) hend
      rw [writtenFor, if_neg (Nat.lt_irrefl 0), if_neg hscript]
      exact ⟨[tag], hscan, by simpa using hsafe⟩
  | close name =>
    by_cases hscript : isScript name
    · exact ⟨[], by simp [writtenFor, hscript], by simp⟩
    · have hname := hplain.resolve_left hscript
      have hwritten : writtenFor 0 (.close name) = '<' :: '/' :: name ++ ([] ++ ['>']) := by
        simp [writtenFor, hscript]
      refine ⟨[⟨true, name.map Char.toLower, []⟩], ?_, ?_⟩
      · rw [hwritten, scan_after (scan_html_close hname), scan_html_end rfl (.inl rfl)]
        rfl
      · intro tag htag
        rw [List.mem_singleton.mp htag]
        exact ⟨by simp, by simp⟩
  | text content => exact ⟨[], scan_html_text htoken, by simp⟩
  | cdata content => exact ⟨[], scan_html_section hplain, by simp⟩
  | comment content => exact ⟨[], scan_html_comment hplain, by simp⟩
  | decl content => exact ⟨[], scan_html_instruction hplain, by simp⟩
  | pi _ | docType _ | generalRef _ | failed _ => exact ⟨[], rfl, by simp⟩

/-- **What is written for all events** is. -/
theorem scan_html_written {events : List HtmlEvent} {depth : ℕ} (sections : Bool)
    (hdecode : ∀ value, '&' ∉ value → decode value = value) (htoken : ∀ event ∈ events, event.Tokenized)
    (hplain : ∀ event ∈ metOutside depth events, event.Plain decode) :
    ∃ tags, scan (htmlStep sections) .data (written depth events) = (.data, tags) ∧
      ∀ tag ∈ tags, SafeTag decode tag := by
  induction events generalizing depth with
  | nil => exact ⟨[], rfl, by simp⟩
  | cons event events ih =>
    have hevent : ∃ tags, scan (htmlStep sections) .data (writtenFor depth event) = (.data, tags) ∧
        ∀ tag ∈ tags, SafeTag decode tag := by
      by_cases hdepth : depth = 0
      · subst hdepth
        exact scan_html_event sections hdecode (htoken event List.mem_cons_self)
          (hplain event (by simp [metOutside]))
      · have hnothing : writtenFor depth event = [] := by
          cases event <;> simp [writtenFor, hdepth, Nat.pos_of_ne_zero hdepth]
        exact ⟨[], by rw [hnothing]; rfl, by simp⟩
    obtain ⟨tags, hscan, hsafe⟩ := hevent
    obtain ⟨rest, hrest, hsafeRest⟩ :=
      ih (fun other hother => htoken other (List.mem_cons_of_mem _ hother))
        fun other hother => hplain other (List.mem_append_right _ hother)
    refine ⟨tags ++ rest, by rw [written, scan_after hscan, hrest], fun tag htag => ?_⟩
    exact (List.mem_append.mp htag).elim (hsafe tag) (hsafeRest tag)

end Tags

/-! ## The result -/

theorem not_mem_replaceChar {old other : Char} {new : String} {text : List Char} (hnew : other ∉ new.toList)
    (h : other = old ∨ other ∉ text) : other ∉ replaceChar old new text := by
  intro hin
  obtain ⟨c, hc, hother⟩ := List.mem_flatMap.mp hin
  split_ifs at hother with hold
  · exact hnew hother
  · obtain rfl := List.mem_singleton.mp hother
    exact h.elim hold fun hnot => hnot hc

theorem not_mem_escapeHtml (value : List Char) : '<' ∉ escapeHtml value :=
  not_mem_replaceChar (by decide) (.inr (not_mem_replaceChar (by decide) (.inl rfl)))

/-- An error of the tokenizer ends the loop. -/
theorem trySanitizeHtml_failed {events : List HtmlEvent} (state : Sanitizing) (h : ∃ event ∈ events, ¬ event.isRead) :
    ∃ error, trySanitizeHtml state events = .error error := by
  induction events generalizing state with
  | nil => simp at h
  | cons event events ih =>
    rw [trySanitizeHtml]
    cases hturn : sanitizeEvent state event with
    | error error => exact ⟨error, rfl⟩
    | ok next =>
      obtain ⟨other, hother, hfailed⟩ := h
      rcases List.mem_cons.mp hother with rfl | hin
      · cases other with
        | failed diagnostic => cases hturn
        | _ => exact absurd rfl hfailed
      · exact ih next ⟨other, hin, hfailed⟩

namespace SanitizerSample

/-- `<p title="x onclick=alert(1)">`. -/
def handlerEvents : List HtmlEvent := [.start "p".toList [some ⟨"title".toList, "x onclick=alert(1)".toList⟩]]

end SanitizerSample

end Anole
