import Mathlib.Data.List.Basic
import Mathlib.Data.List.Infix
import Mathlib.Data.Nat.Notation

/-!
# Reading markup

A scanner reads a text one character at a time and emits what it finds; `scan_append` splits its run
at any place of the text.

`xmlStep` is the scanner of a parser of XML: a tag ends at the first `>` that is in no quotes. The
rest of the module says how it reads what a writer may put together: text, tags, and what ends with
a mark and a `>`, which are comments, sections and instructions (`scan_xml_enclosed`).
-/

namespace Common

/-! ## Runs -/

section Scan

variable {σ τ : Type}

/-- The state after a text, and what was emitted. -/
def scan (step : σ → Char → σ × List τ) : σ → List Char → σ × List τ
  | state, [] => (state, [])
  | state, c :: text =>
    let next := step state c
    let rest := scan step next.1 text
    (rest.1, next.2 ++ rest.2)

variable {step : σ → Char → σ × List τ} {state : σ} {c : Char} {a b text : List Char}

@[simp] theorem scan_nil : scan step state [] = (state, []) := rfl

theorem scan_cons : scan step state (c :: text) =
    ((scan step (step state c).1 text).1, (step state c).2 ++ (scan step (step state c).1 text).2) := rfl

/-- **A run is split** at any place. -/
theorem scan_append : scan step state (a ++ b) =
    ((scan step (scan step state a).1 b).1, (scan step state a).2 ++ (scan step (scan step state a).1 b).2) := by
  induction a generalizing state with
  | nil => rfl
  | cons c a ih =>
    rw [List.cons_append, scan_cons, ih, scan_cons]
    simp only [List.append_assoc]

/-- A run in two parts, of which the first one is known. -/
theorem scan_after {middle : σ} {emitted : List τ} (h : scan step state a = (middle, emitted)) :
    scan step state (a ++ b) = ((scan step middle b).1, emitted ++ (scan step middle b).2) := by
  rw [scan_append, h]

/-- Characters that change nothing. -/
theorem scan_stay (h : ∀ c ∈ text, step state c = (state, [])) : scan step state text = (state, []) := by
  induction text with
  | nil => rfl
  | cons c text ih =>
    rw [scan_cons, h c List.mem_cons_self, ih fun other hother => h other (List.mem_cons_of_mem _ hother)]
    rfl

end Scan

/-! ## XML -/

/-- A character that a text shows: of text (or a reference), or of a section. -/
inductive Shown where
  | text (c : Char)
  | section (c : Char)
  deriving DecidableEq

inductive XmlScan where
  | text
  | opened
  | tag (quote : Option Char)
  | bang (seen : List Char)
  | enclosed (mark : Char) (need count : ℕ)
  deriving DecidableEq

/-- What is shown of the inside of a comment, an instruction or a section. -/
def enclosedShown (mark : Char) (text : List Char) : List Shown := if mark = ']' then text.map .section else []

/-- A character of a tag, outside quotes or between two. -/
def xmlTag (quote : Option Char) (c : Char) : XmlScan :=
  match quote with
  | none => if c = '>' then .text else if c = '"' ∨ c = '\'' then .tag (some c) else .tag none
  | some quote => if c = quote then .tag none else .tag (some quote)

/-- A step of a parser of XML. -/
def xmlStep : XmlScan → Char → XmlScan × List Shown
  | .text, c => if c = '<' then (.opened, []) else (.text, [.text c])
  | .opened, c =>
    if c = '!' then (.bang [], []) else if c = '?' then (.enclosed '?' 1 0, []) else (xmlTag none c, [])
  | .tag quote, c => (xmlTag quote c, [])
  | .bang seen, c =>
    if seen ++ [c] = ['-', '-'] then (.enclosed '-' 2 0, [])
    else if seen ++ [c] = ['[', 'C', 'D', 'A', 'T', 'A', '['] then (.enclosed ']' 2 0, [])
    else if c = '>' then (.text, [])
    else (.bang (seen ++ [c]), [])
  | .enclosed mark need count, c =>
    if c = mark then
      if count < need then (.enclosed mark need (count + 1), []) else (.enclosed mark need count, enclosedShown mark [c])
    else if c = '>' ∧ count = need then (.text, [])
    else (.enclosed mark need 0, enclosedShown mark (List.replicate count mark ++ [c]))

/-- The text that a text of markup shows. -/
def xmlShown (text : List Char) : List Shown := (scan xmlStep .text text).2

section Xml

variable {text : List Char} {mark : Char} {need count : ℕ}

/-- Text without markup is shown. -/
theorem scan_xml_text (h : '<' ∉ text) : scan xmlStep .text text = (.text, text.map .text) := by
  induction text with
  | nil => rfl
  | cons c text ih =>
    rw [List.mem_cons, not_or] at h
    rw [scan_cons, xmlStep, if_neg (Ne.symm h.1), ih h.2]
    rfl

theorem enclosedShown_append (a b : List Char) :
    enclosedShown mark (a ++ b) = enclosedShown mark a ++ enclosedShown mark b := by
  rw [enclosedShown, enclosedShown, enclosedShown]
  split <;> simp

theorem enclosedShown_cons (c : Char) (text : List Char) :
    enclosedShown mark (c :: text) = enclosedShown mark [c] ++ enclosedShown mark text :=
  enclosedShown_append [c] text

theorem enclosedShown_nil : enclosedShown mark [] = [] := by
  rw [enclosedShown]
  split <;> rfl

/-- A run of marks is counted as far as it is needed; those before it are shown. -/
theorem scan_xml_marks (marks : ℕ) (h : count ≤ need) :
    scan xmlStep (.enclosed mark need count) (List.replicate marks mark) =
      (.enclosed mark need (min need (count + marks)), enclosedShown mark (List.replicate (count + marks - need) mark)) := by
  induction marks generalizing count with
  | zero =>
    rw [List.replicate_zero, scan_nil, Nat.add_zero, Nat.min_eq_right h, Nat.sub_eq_zero_of_le h, List.replicate_zero,
      enclosedShown_nil]
  | succ marks ih =>
    rw [List.replicate_succ, scan_cons, xmlStep, if_pos rfl]
    by_cases hmore : count < need
    · rw [if_pos hmore, ih hmore, show count + 1 + marks = count + (marks + 1) by omega]
      rfl
    · rw [if_neg hmore, ih h, show min need (count + marks) = min need (count + (marks + 1)) by omega,
        show count + (marks + 1) - need = (count + marks - need) + 1 by omega, List.replicate_succ,
        enclosedShown_cons mark (List.replicate _ mark)]

/-- **What is enclosed ends** where its marks and a `>` follow, when they do not follow before. -/
theorem scan_xml_enclosed (hmark : mark ≠ '>') (h : count ≤ need)
    (hinside : ¬ List.replicate need mark ++ ['>'] <:+: List.replicate count mark ++ text) :
    scan xmlStep (.enclosed mark need count) (text ++ (List.replicate need mark ++ ['>'])) =
      (.text, enclosedShown mark (List.replicate count mark ++ text)) := by
  induction text generalizing count with
  | nil =>
    have hclose : scan xmlStep (.enclosed mark need need) ['>'] = (.text, []) := by
      rw [scan_cons, xmlStep, if_neg (Ne.symm hmark), if_pos ⟨rfl, rfl⟩]
      rfl
    rw [List.nil_append, scan_after (scan_xml_marks need h), Nat.min_eq_left (by omega), hclose, Nat.add_sub_cancel,
      List.append_nil, List.append_nil]
  | cons c text ih =>
    rw [List.cons_append, scan_cons, xmlStep]
    by_cases hc : c = mark
    · subst hc
      rw [if_pos rfl]
      by_cases hmore : count < need
      · have hmarks : List.replicate (count + 1) c ++ text = List.replicate count c ++ c :: text := by
          rw [List.replicate_succ', List.append_assoc, List.singleton_append]
        rw [if_pos hmore, ih hmore (by rwa [hmarks]), hmarks]
        rfl
      · have hfull : count = need := by omega
        have hmarks : List.replicate count c ++ c :: text = c :: (List.replicate count c ++ text) := by
          rw [← List.singleton_append, ← List.append_assoc, ← List.replicate_succ', List.replicate_succ, List.cons_append]
        have hafter := fun hin => hinside (hmarks ▸ List.IsInfix.trans hin (List.suffix_cons _ _).isInfix)
        rw [if_neg hmore, ih h hafter, hmarks, enclosedShown_cons c (_ ++ _)]
    · have hopen : ¬ (c = '>' ∧ count = need) := by
        rintro ⟨rfl, rfl⟩
        exact hinside ⟨[], text, by simp⟩
      have hafter : ¬ List.replicate need mark ++ ['>'] <:+: text := fun hin =>
        hinside (hin.trans ((List.suffix_cons c text).trans (List.suffix_append _ _)).isInfix)
      rw [if_neg hc, if_neg hopen, ih (Nat.zero_le _) hafter, List.append_cons (List.replicate count mark) c text,
        enclosedShown_append (List.replicate count mark ++ [c]) text]
      rfl

/-- The inside of a tag, of which every quote is closed. -/
def TagText (text : List Char) : Prop := scan xmlStep (.tag none) text = (.tag none, [])

instance (text : List Char) : Decidable (TagText text) := inferInstanceAs (Decidable (_ = _))

theorem TagText.append {a b : List Char} (ha : TagText a) (hb : TagText b) : TagText (a ++ b) := by
  rw [TagText, scan_after ha, show scan xmlStep (.tag none) b = _ from hb]
  rfl

theorem tagText_nil : TagText [] := rfl

/-- A tag shows nothing. -/
theorem scan_xml_tag (htag : TagText text) (hbang : text.head? ≠ some '!') (hmark : text.head? ≠ some '?') :
    scan xmlStep .text ('<' :: (text ++ ['>'])) = (.text, []) := by
  have hinside : scan xmlStep .opened (text ++ ['>']) = scan xmlStep (.tag none) (text ++ ['>']) := by
    cases text with
    | nil => rfl
    | cons c text =>
      have hc : xmlStep .opened c = xmlStep (.tag none) c := by
        rw [xmlStep, if_neg (by simpa using hbang), if_neg (by simpa using hmark), xmlStep]
      rw [List.cons_append, scan_cons, scan_cons, hc]
  have hclose : scan xmlStep (.tag none) ['>'] = (.text, []) := rfl
  rw [scan_cons, show xmlStep .text '<' = (.opened, []) from rfl, hinside, scan_after htag, hclose]
  rfl

/-- A comment shows nothing. -/
theorem scan_xml_comment (h : ¬ ['-', '-', '>'] <:+: text) :
    scan xmlStep .text (['<', '!', '-', '-'] ++ text ++ ['-', '-', '>']) = (.text, []) := by
  have hopen : scan xmlStep .text ['<', '!', '-', '-'] = (.enclosed '-' 2 0, []) := rfl
  have hinside := scan_xml_enclosed (show '-' ≠ '>' by decide) (Nat.zero_le 2) h
  rw [List.append_assoc, scan_after hopen, show ['-', '-', '>'] = List.replicate 2 '-' ++ ['>'] from rfl, hinside]
  rfl

/-- A section shows what it encloses. -/
theorem scan_xml_section (h : ¬ [']', ']', '>'] <:+: text) :
    scan xmlStep .text (['<', '!', '[', 'C', 'D', 'A', 'T', 'A', '['] ++ text ++ [']', ']', '>']) =
      (.text, text.map .section) := by
  have hopen : scan xmlStep .text ['<', '!', '[', 'C', 'D', 'A', 'T', 'A', '['] = (.enclosed ']' 2 0, []) := rfl
  have hinside := scan_xml_enclosed (show ']' ≠ '>' by decide) (Nat.zero_le 2) h
  rw [List.append_assoc, scan_after hopen, show [']', ']', '>'] = List.replicate 2 ']' ++ ['>'] from rfl, hinside]
  rfl

/-- An instruction shows nothing. -/
theorem scan_xml_instruction (h : ¬ ['?', '>'] <:+: text) :
    scan xmlStep .text (['<', '?'] ++ text ++ ['?', '>']) = (.text, []) := by
  have hopen : scan xmlStep .text ['<', '?'] = (.enclosed '?' 1 0, []) := rfl
  have hinside := scan_xml_enclosed (show '?' ≠ '>' by decide) (Nat.zero_le 1) h
  rw [List.append_assoc, scan_after hopen, show ['?', '>'] = List.replicate 1 '?' ++ ['>'] from rfl, hinside]
  rfl

end Xml

end Common
