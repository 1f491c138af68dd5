import Anole.Common.Markup
import Anole.Domain

/-!
# The sanitizer of mail

`sanitize_html` (`eml.rs`, lines 202–327) writes the events of a tokenizer back as markup, without
script elements, without the attributes of events and without the remote addresses. The tokenizer is
not part of the repository: it is a parameter, and `HtmlEvent.Tokenized` is what it promises of each
event.

* `trySanitizeHtml_eq`: the loop writes what `written` says, event by event.
* `sanitized_text_iff`: the text of a mail survives when there is no reference outside its scripts.
-/

open Common

namespace Anole

/-! ## Model -/

/-- A character that separates the parts of a tag. -/
def isTagSpace (c : Char) : Bool := c = ' ' || c = '\t' || c = '\n' || c = '\r'

def lowercase (text : List Char) : List Char := text.map Char.toLower

/-- An attribute as the tokenizer reads it: the key, and what is between the quotes. -/
structure Attribute where
  key : List Char
  value : List Char
  deriving DecidableEq

/-- An event of the tokenizer. An attribute that it cannot read is `none`. -/
inductive HtmlEvent where
  | start (name : List Char) (attributes : List (Option Attribute))
  | empty (name : List Char) (attributes : List (Option Attribute))
  | close (name : List Char)
  | text (content : List Char)
  | cdata (content : List Char)
  | comment (content : List Char)
  | decl (content : List Char)
  | pi (content : List Char)
  | docType (content : List Char)
  | generalRef (name : List Char)
  | failed (diagnostic : String)

/-- `is_remote_url` (`eml.rs`, lines 202–207). -/
def isRemoteUrl (value : List Char) : Bool :=
  let trimmed := lowercase (value.dropWhile isTagSpace)
  "http://".toList.isPrefixOf trimmed || "https://".toList.isPrefixOf trimmed || "//".toList.isPrefixOf trimmed

/-- The keys of which the value is an address. -/
def isAddressKey (key : List Char) : Bool :=
  key = "src".toList || key = "href".toList || key = "xlink:href".toList

/-- What the loop of `push_sanitized_attributes` writes for one attribute (`eml.rs`, lines 312–326). -/
def sanitizedAttribute (attr : Attribute) : List Char :=
  let key := lowercase attr.key
  if isAddressKey key && isRemoteUrl attr.value then " data-fw-remote-removed=\"1\"".toList
  else if "on".toList.isPrefixOf key then []
  else ' ' :: (attr.key ++ '=' :: attr.value)

/-- `push_sanitized_attributes` (`eml.rs`, lines 308–327). -/
def sanitizedAttributes (attributes : List (Option Attribute)) : List Char :=
  (attributes.reduceOption).flatMap sanitizedAttribute

/-- `output` and `script_depth`. -/
structure Sanitizing where
  output : List Char
  scriptDepth : ℕ

def isScript (name : List Char) : Bool := lowercase name = "script".toList

def scriptRemoved : List Char := "<!-- script removed -->".toList

def Sanitizing.push (state : Sanitizing) (text : List Char) : Sanitizing :=
  { state with output := state.output ++ text }

/-- A turn of the loop of `try_sanitize_html` (`eml.rs`, lines 226–303). -/
def sanitizeEvent (state : Sanitizing) : HtmlEvent → Except AnoleError Sanitizing
  | .start name attributes =>
    if isScript name then
      let state := if state.scriptDepth = 0 then state.push scriptRemoved else state
      .ok { state with scriptDepth := state.scriptDepth + 1 }
    else if state.scriptDepth > 0 then .ok state
    else .ok (state.push ('<' :: (name ++ sanitizedAttributes attributes ++ ['>'])))
  | .empty name attributes =>
    if state.scriptDepth > 0 then .ok state
    else if isScript name then .ok (state.push scriptRemoved)
    else .ok (state.push ('<' :: (name ++ sanitizedAttributes attributes ++ ['/', '>'])))
  | .close name =>
    if isScript name then .ok { state with scriptDepth := state.scriptDepth - 1 }
    else if state.scriptDepth > 0 then .ok state
    else .ok (state.push ('<' :: '/' :: (name ++ ['>'])))
  | .text content => if state.scriptDepth = 0 then .ok (state.push content) else .ok state
  | .cdata content =>
    if state.scriptDepth = 0 then
      .ok (state.push (['<', '!', '[', 'C', 'D', 'A', 'T', 'A', '['] ++ content ++ [']', ']', '>']))
    else .ok state
  | .comment content =>
    if state.scriptDepth = 0 then .ok (state.push (['<', '!', '-', '-'] ++ content ++ ['-', '-', '>'])) else .ok state
  | .decl content =>
    if state.scriptDepth = 0 then .ok (state.push (['<', '?'] ++ content ++ ['?', '>'])) else .ok state
  -- `Ok(_) => {}`
  | .pi _ | .docType _ | .generalRef _ => .ok state
  | .failed diagnostic =>
    .error ((AnoleError.new .inputInvalid .inspect "The email HTML body is not tokenizable"
      "The sanitizer falls back to escaped plain text.").withDiagnostic diagnostic)

/-- `try_sanitize_html` (`eml.rs`, lines 219–306), on the events up to the end. -/
def trySanitizeHtml (state : Sanitizing) : List HtmlEvent → Except AnoleError (List Char)
  | [] => .ok state.output
  | event :: events =>
    match sanitizeEvent state event with
    | .ok next => trySanitizeHtml next events
    | .error error => .error error

/-- `str::replace` of a character. -/
def replaceChar (old : Char) (new : String) (text : List Char) : List Char :=
  text.flatMap fun c => if c = old then new.toList else [c]

/-- `escape_html` (`eml.rs`, lines 329–334). -/
def escapeHtml (value : List Char) : List Char :=
  replaceChar '>' "&gt;" (replaceChar '<' "&lt;" (replaceChar '&' "&amp;" value))

/-- `sanitize_html` (`eml.rs`, lines 209–217). -/
def sanitizeHtml (read : List Char → List HtmlEvent) (source : List Char) : List Char :=
  match trySanitizeHtml ⟨[], 0⟩ (read source) with
  | .ok sanitized => sanitized
  | .error _ => "<pre>".toList ++ escapeHtml source ++ "</pre>".toList

/-! ## The tokenizer -/

/-- What the tokenizer promises of an attribute: it is read up to a space or a `=`. -/
def Attribute.Tokenized (attr : Attribute) : Prop :=
  attr.key ≠ [] ∧ ∀ c ∈ attr.key, ¬ isTagSpace c ∧ c ≠ '='

instance (attr : Attribute) : Decidable attr.Tokenized :=
  @instDecidableAnd _ _ inferInstance (List.decidableBAll _ _)

/-- What it promises of the name of an element: the name ends at a space, and what begins with a
`!`, a `?` or a `/` is no element. -/
def TokenizedName (name : List Char) : Prop :=
  (∀ c ∈ name, ¬ isTagSpace c) ∧ name.head? ≠ some '!' ∧ name.head? ≠ some '?' ∧ name.head? ≠ some '/'

instance (name : List Char) : Decidable (TokenizedName name) :=
  @instDecidableAnd _ _ (List.decidableBAll _ _) inferInstance

/-- What the tokenizer promises of an event: each one ends where it first can. -/
def HtmlEvent.Tokenized : HtmlEvent → Prop
  | .start name attributes | .empty name attributes =>
    TokenizedName name ∧ ∀ attr ∈ attributes.reduceOption, attr.Tokenized
  | .close name => TagText name
  | .text content => '<' ∉ content
  | .cdata content => ¬ [']', ']', '>'] <:+: content
  | .comment content => ¬ ['-', '-', '>'] <:+: content
  | .decl content => ¬ ['?', '>'] <:+: content
  | .pi _ | .docType _ | .generalRef _ | .failed _ => True

instance (event : HtmlEvent) : Decidable event.Tokenized := by
  cases event <;> unfold HtmlEvent.Tokenized <;> infer_instance

/-- The event is not the one of an error. -/
def HtmlEvent.isRead : HtmlEvent → Bool
  | .failed _ => false
  | _ => true

/-! ## What the loop writes -/

/-- What is written for an event, at a depth of script elements. -/
def writtenFor (depth : ℕ) : HtmlEvent → List Char
  | .start name attributes =>
    if isScript name then if depth = 0 then scriptRemoved else []
    else if depth > 0 then [] else '<' :: (name ++ sanitizedAttributes attributes ++ ['>'])
  | .empty name attributes =>
    if depth > 0 then []
    else if isScript name then scriptRemoved
    else '<' :: (name ++ sanitizedAttributes attributes ++ ['/', '>'])
  | .close name => if isScript name || depth > 0 then [] else '<' :: '/' :: (name ++ ['>'])
  | .text content => if depth = 0 then content else []
  | .cdata content =>
    if depth = 0 then ['<', '!', '[', 'C', 'D', 'A', 'T', 'A', '['] ++ content ++ [']', ']', '>'] else []
  | .comment content => if depth = 0 then ['<', '!', '-', '-'] ++ content ++ ['-', '-', '>'] else []
  | .decl content => if depth = 0 then ['<', '?'] ++ content ++ ['?', '>'] else []
  | _ => []

/-- The depth after an event. -/
def depthAfter (depth : ℕ) : HtmlEvent → ℕ
  | .start name _ => if isScript name then depth + 1 else depth
  | .close name => if isScript name then depth - 1 else depth
  | _ => depth

/-- What is written for a list of events. -/
def written : ℕ → List HtmlEvent → List Char
  | _, [] => []
  | depth, event :: events => writtenFor depth event ++ written (depthAfter depth event) events

section Loop

variable {output : List Char} {depth : ℕ} {event : HtmlEvent} {events : List HtmlEvent}

/-- **A turn of the loop.** -/
theorem sanitizeEvent_eq (h : event.isRead) :
    sanitizeEvent ⟨output, depth⟩ event = .ok ⟨output ++ writtenFor depth event, depthAfter depth event⟩ := by
  cases event with
  | start name attributes =>
    simp only [sanitizeEvent, writtenFor, depthAfter, Sanitizing.push]
    by_cases hscript : isScript name <;> cases depth <;> simp [hscript]
  | empty name attributes =>
    simp only [sanitizeEvent, writtenFor, depthAfter, Sanitizing.push]
    by_cases hscript : isScript name <;> cases depth <;> simp [hscript]
  | close name =>
    simp only [sanitizeEvent, writtenFor, depthAfter, Sanitizing.push]
    by_cases hscript : isScript name <;> cases depth <;> simp [hscript]
  | text content | cdata content | comment content | decl content =>
    simp only [sanitizeEvent, writtenFor, depthAfter, Sanitizing.push]
    cases depth <;> simp
  | pi _ | docType _ | generalRef _ => simp [sanitizeEvent, writtenFor, depthAfter]
  | failed diagnostic => simp [HtmlEvent.isRead] at h

/-- **The loop**, on events without an error. -/
theorem trySanitizeHtml_eq (h : ∀ event ∈ events, event.isRead) :
    trySanitizeHtml ⟨output, depth⟩ events = .ok (output ++ written depth events) := by
  induction events generalizing output depth with
  | nil => rw [trySanitizeHtml, written, List.append_nil]
  | cons event events ih =>
    rw [trySanitizeHtml, sanitizeEvent_eq (h event List.mem_cons_self)]
    show trySanitizeHtml _ events = _
    rw [ih fun other hother => h other (List.mem_cons_of_mem _ hother), written, List.append_assoc]

end Loop

/-! ## Text -/

def HtmlEvent.opensScript : HtmlEvent → Bool
  | .start name _ => isScript name
  | _ => false

def HtmlEvent.closesScript : HtmlEvent → Bool
  | .close name => isScript name
  | _ => false

def HtmlEvent.isEmptyScript : HtmlEvent → Bool
  | .empty name _ => isScript name
  | _ => false

/-- Each start tag of a script is followed by its end tag before any other tag of a script. -/
def scriptsPaired : Bool → List HtmlEvent → Bool
  | inside, [] => !inside
  | inside, event :: events =>
    if event.opensScript then !inside && scriptsPaired true events
    else if event.closesScript then scriptsPaired false events
    else if event.isEmptyScript then !inside && scriptsPaired inside events
    else scriptsPaired inside events

/-- The events outside the script elements. -/
def outsideScripts : Bool → List HtmlEvent → List HtmlEvent
  | _, [] => []
  | inside, event :: events =>
    if event.opensScript then outsideScripts true events
    else if event.closesScript then outsideScripts false events
    else if inside || event.isEmptyScript then outsideScripts inside events
    else event :: outsideScripts inside events

def HtmlEvent.isReference : HtmlEvent → Bool
  | .generalRef _ => true
  | _ => false

/-- The text of an event. A reference is shown as it is written. -/
def HtmlEvent.shown : HtmlEvent → List Shown
  | .text content => content.map .text
  | .cdata content => content.map .section
  | .generalRef name => ('&' :: (name ++ [';'])).map .text
  | _ => []

/-- The text of an event that the sanitizer writes. -/
def HtmlEvent.kept (event : HtmlEvent) : List Shown := if event.isReference then [] else event.shown

/-- An attribute that is written as it is. -/
def Attribute.isKept (attr : Attribute) : Bool :=
  !(isAddressKey (lowercase attr.key) && isRemoteUrl attr.value) && !"on".toList.isPrefixOf (lowercase attr.key)

/-- A tag that can be written without the quotes of its values: what is kept closes each quote that
it opens, and has a `>` only between two. -/
def HtmlEvent.Tidy : HtmlEvent → Prop
  | .start name attributes | .empty name attributes =>
    TagText name ∧ ∀ attr ∈ attributes.reduceOption, attr.isKept → TagText attr.key ∧ TagText attr.value
  | _ => True

instance (event : HtmlEvent) : Decidable event.Tidy := by
  cases event <;> unfold HtmlEvent.Tidy <;> infer_instance

section Text

variable {attributes : List (Option Attribute)} {attr : Attribute} {name : List Char} {event : HtmlEvent}
  {events : List HtmlEvent} {inside : Bool}

theorem tagText_sanitizedAttribute (h : attr.isKept → TagText attr.key ∧ TagText attr.value) :
    TagText (sanitizedAttribute attr) := by
  rw [sanitizedAttribute]
  by_cases hremote : isAddressKey (lowercase attr.key) && isRemoteUrl attr.value
  · rw [if_pos hremote]
    decide
  · rw [if_neg hremote]
    by_cases hon : "on".toList.isPrefixOf (lowercase attr.key)
    · rw [if_pos hon]
      exact tagText_nil
    · obtain ⟨hkey, hvalue⟩ := h (by simp only [Attribute.isKept, hremote, hon]; rfl)
      have hspace : TagText [' '] := by decide
      have hequals : TagText ['='] := by decide
      rw [if_neg hon]
      exact hspace.append (hkey.append (hequals.append hvalue))

theorem tagText_sanitizedAttributes
    (h : ∀ attr ∈ attributes.reduceOption, attr.isKept → TagText attr.key ∧ TagText attr.value) :
    TagText (sanitizedAttributes attributes) := by
  rw [sanitizedAttributes]
  generalize attributes.reduceOption = read at h
  induction read with
  | nil => exact tagText_nil
  | cons attr read ih =>
    rw [List.flatMap_cons]
    exact (tagText_sanitizedAttribute (h attr List.mem_cons_self)).append
      (ih fun other hother => h other (List.mem_cons_of_mem _ hother))

theorem sanitizedAttribute_eq (attr : Attribute) :
    ∃ rest, sanitizedAttribute attr = [] ∨ sanitizedAttribute attr = ' ' :: rest := by
  rw [sanitizedAttribute]
  split
  · exact ⟨_, .inr rfl⟩
  · split
    · exact ⟨[], .inl rfl⟩
    · exact ⟨_, .inr rfl⟩

/-- What is written for attributes is separated from what is before. -/
theorem head_sanitizedAttributes {c : Char} (h : (sanitizedAttributes attributes).head? = some c) : c = ' ' := by
  rw [sanitizedAttributes] at h
  generalize attributes.reduceOption = read at h
  induction read with
  | nil => simp at h
  | cons attr read ih =>
    obtain ⟨rest, hattr | hattr⟩ := sanitizedAttribute_eq attr
    · rw [List.flatMap_cons, hattr] at h
      exact ih h
    · rw [List.flatMap_cons, hattr, List.cons_append, List.head?_cons, Option.some.injEq] at h
      exact h.symm

theorem scan_written_tag {close : List Char} (hname : TokenizedName name) (htidy : TagText name)
    (hattributes : TagText (sanitizedAttributes attributes)) (hclose : close = [] ∨ close = ['/']) :
    scan xmlStep .text ('<' :: (name ++ sanitizedAttributes attributes ++ (close ++ ['>']))) = (.text, []) := by
  have hhead : ∀ c ∈ ['!', '?'], (name ++ sanitizedAttributes attributes ++ close).head? ≠ some c := by
    intro c hc hfirst
    have hspace : c ≠ ' ' ∧ c ≠ '/' := by
      rcases List.mem_pair.mp hc with rfl | rfl <;> decide
    rw [List.append_assoc, List.head?_append, Option.or_eq_some_iff] at hfirst
    rcases hfirst with hfirst | ⟨-, hfirst⟩
    · rcases List.mem_pair.mp hc with rfl | rfl
      · exact hname.2.1 hfirst
      · exact hname.2.2.1 hfirst
    · rw [List.head?_append, Option.or_eq_some_iff] at hfirst
      rcases hfirst with hfirst | ⟨-, hfirst⟩
      · exact hspace.1 (head_sanitizedAttributes hfirst)
      · rcases hclose with rfl | rfl
        · cases hfirst
        · exact hspace.2 (Option.some.inj hfirst).symm
  have htext : TagText close := by
    obtain rfl | rfl := hclose <;> decide
  rw [← List.append_assoc]
  exact scan_xml_tag ((htidy.append hattributes).append htext) (hhead _ (by decide)) (hhead _ (by decide))

/-- What is written for an event outside the script elements shows the text of the event, other
than a reference. -/
theorem scan_writtenFor (htokenized : event.Tokenized) (htidy : event.Tidy) (hopens : ¬ event.opensScript)
    (hcloses : ¬ event.closesScript) (hempty : ¬ event.isEmptyScript) :
    scan xmlStep .text (writtenFor 0 event) = (.text, event.kept) := by
  cases event with
  | start name attributes =>
    have hscript : ¬ isScript name := hopens
    rw [writtenFor, if_neg hscript, if_neg (Nat.lt_irrefl 0)]
    exact scan_written_tag htokenized.1 htidy.1 (tagText_sanitizedAttributes htidy.2) (.inl rfl)
  | empty name attributes =>
    have hscript : ¬ isScript name := hempty
    rw [writtenFor, if_neg (Nat.lt_irrefl 0), if_neg hscript]
    exact scan_written_tag htokenized.1 htidy.1 (tagText_sanitizedAttributes htidy.2) (.inr rfl)
  | close name =>
    have hslash : TagText ('/' :: name) := TagText.append (a := ['/']) (by decide) htokenized
    have hscript : ¬ (isScript name || decide (0 > 0)) := by
      rw [Bool.or_eq_true, not_or]
      exact ⟨hcloses, by decide⟩
    rw [writtenFor, if_neg hscript]
    exact scan_xml_tag hslash (by simp) (by simp)
  | text content => exact scan_xml_text htokenized
  | cdata content => exact scan_xml_section htokenized
  | comment content => exact scan_xml_comment htokenized
  | decl content => exact scan_xml_instruction htokenized
  | pi _ | docType _ | generalRef _ | failed _ => rfl

theorem opensScript_turn (h : event.opensScript) :
    writtenFor 0 event = scriptRemoved ∧ depthAfter 0 event = 1 := by
  cases event with
  | start name attributes =>
    have hscript : isScript name := h
    exact ⟨by rw [writtenFor, if_pos hscript, if_pos rfl], by rw [depthAfter, if_pos hscript]⟩
  | _ => exact absurd h (by simp [HtmlEvent.opensScript])

theorem closesScript_turn (inside : Bool) (h : event.closesScript) :
    writtenFor inside.toNat event = [] ∧ depthAfter inside.toNat event = 0 := by
  cases event with
  | close name =>
    have hscript : isScript name := h
    have hdepth : inside.toNat - 1 = 0 := Nat.sub_eq_zero_of_le (Bool.toNat_le inside)
    exact ⟨by simp [writtenFor, hscript], by rw [depthAfter, if_pos hscript, hdepth]⟩
  | _ => exact absurd h (by simp [HtmlEvent.closesScript])

theorem depthAfter_other {depth : ℕ} (hopens : ¬ event.opensScript) (hcloses : ¬ event.closesScript) :
    depthAfter depth event = depth := by
  cases event with
  | start name attributes => exact if_neg hopens
  | close name => exact if_neg hcloses
  | _ => rfl

theorem writtenFor_inside (hopens : ¬ event.opensScript) : writtenFor 1 event = [] := by
  cases event with
  | start name attributes =>
    have hscript : ¬ isScript name := hopens
    rw [writtenFor, if_neg hscript, if_pos Nat.one_pos]
  | close name => simp [writtenFor]
  | _ => rfl

theorem writtenFor_emptyScript (h : event.isEmptyScript) : writtenFor 0 event = scriptRemoved := by
  cases event with
  | empty name attributes =>
    have hscript : isScript name := h
    rw [writtenFor, if_neg (Nat.lt_irrefl 0), if_pos hscript]
  | _ => exact absurd h (by simp [HtmlEvent.isEmptyScript])

theorem scan_scriptRemoved : scan xmlStep .text scriptRemoved = (.text, []) := by decide

/-- **What is written shows** the text outside the script elements, without the references. -/
theorem scan_written (htokenized : ∀ event ∈ events, event.Tokenized) (hpaired : scriptsPaired inside events)
    (htidy : ∀ event ∈ outsideScripts inside events, event.Tidy) :
    scan xmlStep .text (written inside.toNat events) =
      (.text, (outsideScripts inside events).flatMap HtmlEvent.kept) := by
  induction events generalizing inside with
  | nil => rfl
  | cons event events ih =>
    have htail := fun other hother => htokenized other (List.mem_cons_of_mem _ hother)
    rw [written]
    by_cases hopens : event.opensScript
    · rw [scriptsPaired, if_pos hopens, Bool.and_eq_true, Bool.not_eq_true'] at hpaired
      rw [outsideScripts, if_pos hopens] at htidy ⊢
      obtain ⟨rfl, hpaired⟩ := hpaired
      obtain ⟨hwritten, hdepth⟩ := opensScript_turn hopens
      rw [Bool.toNat_false, hwritten, hdepth, scan_after scan_scriptRemoved, ← Bool.toNat_true, ih htail hpaired htidy]
      rfl
    by_cases hcloses : event.closesScript
    · rw [scriptsPaired, if_neg hopens, if_pos hcloses] at hpaired
      rw [outsideScripts, if_neg hopens, if_pos hcloses] at htidy ⊢
      obtain ⟨hwritten, hdepth⟩ := closesScript_turn inside hcloses
      rw [hwritten, hdepth, List.nil_append, ← Bool.toNat_false]
      exact ih htail hpaired htidy
    rw [depthAfter_other hopens hcloses]
    rw [scriptsPaired, if_neg hopens, if_neg hcloses] at hpaired
    rw [outsideScripts, if_neg hopens, if_neg hcloses] at htidy ⊢
    cases inside with
    | true =>
      by_cases hempty : event.isEmptyScript
      · rw [if_pos hempty] at hpaired
        cases hpaired
      rw [if_neg hempty] at hpaired
      rw [Bool.toNat_true, writtenFor_inside hopens, List.nil_append]
      exact ih htail hpaired htidy
    | false =>
      by_cases hempty : event.isEmptyScript
      · rw [if_pos hempty] at hpaired
        rw [Bool.false_or, if_pos hempty] at htidy ⊢
        rw [Bool.toNat_false, writtenFor_emptyScript hempty, scan_after scan_scriptRemoved, ← Bool.toNat_false,
          ih htail hpaired htidy]
        rfl
      · rw [if_neg hempty] at hpaired
        rw [Bool.false_or, if_neg hempty] at htidy ⊢
        have hevent := scan_writtenFor (htokenized event List.mem_cons_self) (htidy event List.mem_cons_self) hopens
          hcloses hempty
        rw [Bool.toNat_false, scan_after hevent, ← Bool.toNat_false,
          ih htail hpaired fun other hother => htidy other (List.mem_cons_of_mem _ hother), List.flatMap_cons]

theorem sanitizeHtml_eq {read : List Char → List HtmlEvent} {source : List Char}
    (h : ∀ event ∈ read source, event.isRead) : sanitizeHtml read source = written 0 (read source) := by
  rw [sanitizeHtml, trySanitizeHtml_eq h]
  rfl

theorem kept_length_le (event : HtmlEvent) : event.kept.length ≤ event.shown.length := by
  rw [HtmlEvent.kept]
  split
  · exact Nat.zero_le _
  · exact Nat.le_refl _

theorem flatMap_kept_length_le (events : List HtmlEvent) :
    (events.flatMap HtmlEvent.kept).length ≤ (events.flatMap HtmlEvent.shown).length := by
  induction events with
  | nil => exact Nat.le_refl _
  | cons event events ih =>
    have hevent := kept_length_le event
    rw [List.flatMap_cons, List.flatMap_cons, List.length_append, List.length_append]
    omega

theorem reference_lost (h : event.isReference) : event.kept.length < event.shown.length := by
  cases event with
  | generalRef name =>
    rw [HtmlEvent.kept, if_pos h, HtmlEvent.shown, List.length_map]
    exact Nat.succ_pos _
  | _ => cases h

/-- Nothing else is. -/
theorem flatMap_kept_iff :
    events.flatMap HtmlEvent.kept = events.flatMap HtmlEvent.shown ↔ ∀ event ∈ events, ¬ event.isReference := by
  constructor
  · intro heq event hevent hreference
    obtain ⟨before, after, rfl⟩ := List.append_of_mem hevent
    have hlength := congrArg List.length heq
    have hlost := reference_lost hreference
    have hbefore := flatMap_kept_length_le before
    have hafter := flatMap_kept_length_le after
    simp only [List.flatMap_append, List.flatMap_cons, List.length_append] at hlength
    omega
  · intro hnone
    refine List.flatMap_congr fun event hevent => ?_
    rw [HtmlEvent.kept, if_neg (hnone event hevent)]

end Text

/-- **The text of a mail survives** exactly when there is no reference outside its scripts, for a
mail of which the tags are tidy. -/
theorem sanitized_text_iff (read : List Char → List HtmlEvent) (source : List Char)
    (hread : ∀ event ∈ read source, event.isRead ∧ event.Tokenized) (hpaired : scriptsPaired false (read source))
    (htidy : ∀ event ∈ outsideScripts false (read source), event.Tidy) :
    xmlShown (sanitizeHtml read source) = (outsideScripts false (read source)).flatMap HtmlEvent.shown ↔
      ∀ event ∈ outsideScripts false (read source), ¬ event.isReference := by
  have hscan := scan_written (fun event hevent => (hread event hevent).2) hpaired htidy
  rw [sanitizeHtml_eq fun event hevent => (hread event hevent).1, xmlShown, ← Bool.toNat_false, hscan]
  exact flatMap_kept_iff

namespace SanitizerSample

/-- `<p title="a b">x<br/></p><script>y</script>z`. -/
def plainEvents : List HtmlEvent :=
  [.start "p".toList [some ⟨"title".toList, "a b".toList⟩], .text "x".toList, .empty "br".toList [], .close "p".toList,
    .start "script".toList [], .text "y".toList, .close "script".toList, .text "z".toList]

theorem sanitized_text_plain :
    xmlShown (sanitizeHtml (fun _ => plainEvents) "<p title=\"a b\">x<br/></p><script>y</script>z".toList) =
      (outsideScripts false plainEvents).flatMap HtmlEvent.shown :=
  (sanitized_text_iff (fun _ => plainEvents) _ (by decide) (by decide) (by decide)).mpr
    (by decide)

/-- `a &amp; b`. -/
def referenceEvents : List HtmlEvent := [.text "a ".toList, .generalRef "amp".toList, .text " b".toList]

/-- The reference is not written: the mail reads `a  b`. -/
theorem reference_dropped :
    (∀ event ∈ referenceEvents, event.isRead ∧ event.Tokenized) ∧ scriptsPaired false referenceEvents ∧
      xmlShown (sanitizeHtml (fun _ => referenceEvents) "a &amp; b".toList) ≠
        (outsideScripts false referenceEvents).flatMap HtmlEvent.shown := by
  decide

end SanitizerSample

end Anole
