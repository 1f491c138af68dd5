import Mathlib.Data.List.TakeWhile
import Anole.Common.Markup

/-!
# The tags of a text of HTML

`htmlStep` is the scanner of a browser: the states of its tokenizer from one tag to the next, with
its syntax of attributes, of which the values may be in no quotes. It emits the tags, with all
their attributes. Whether `<![CDATA[` begins a section depends on where it stands, so it is a
parameter; where it does not, it begins a comment that ends at the next `>`.

The rest of the module says how it reads what a writer without quotes may put together:

* `scan_html_attribute`: a name, a `=` and a value, of which the first word is the value and the
  others are attributes of their own.
* `scan_html_end`: the end of a tag.
* `scan_html_comment`, `scan_html_section`, `scan_html_instruction`: what has no `>` inside.
-/

namespace Common

/-- A tag, with the attributes as they are written; of two with one name a browser takes the first. -/
structure HtmlTag where
  closing : Bool
  name : List Char
  attributes : List (List Char × List Char)
  deriving DecidableEq

/-- The tag with one more attribute. -/
def HtmlTag.push (tag : HtmlTag) (key value : List Char) : HtmlTag :=
  { tag with attributes := tag.attributes ++ [(key, value)] }

inductive HtmlScan where
  | data
  | opened
  | endOpened
  | bang (seen : List Char)
  | bogus
  | commentStart
  | commentStartDash
  | comment
  | commentDash
  | commentEnd
  | commentBang
  | section (brackets : ℕ)
  | name (tag : HtmlTag)
  | before (tag : HtmlTag)
  | key (tag : HtmlTag) (key : List Char)
  | after (tag : HtmlTag) (key : List Char)
  | beforeValue (tag : HtmlTag) (key : List Char)
  | quoted (tag : HtmlTag) (key value : List Char) (quote : Char)
  | unquoted (tag : HtmlTag) (key value : List Char)
  | afterQuoted (tag : HtmlTag)
  | selfClosing (tag : HtmlTag)
  deriving DecidableEq

def isHtmlSpace (c : Char) : Bool := c = ' ' || c = '\t' || c = '\n' || c = '\x0c' || c = '\r'

/-- Before the name of an attribute. -/
def htmlBefore (tag : HtmlTag) (c : Char) : HtmlScan × List HtmlTag :=
  if isHtmlSpace c then (.before tag, [])
  else if c = '/' then (.selfClosing tag, [])
  else if c = '>' then (.data, [tag])
  else (.key tag [c.toLower], [])

/-- After the name of an attribute. -/
def htmlAfter (tag : HtmlTag) (key : List Char) (c : Char) : HtmlScan × List HtmlTag :=
  if isHtmlSpace c then (.after tag key, [])
  else if c = '/' then (.selfClosing (tag.push key []), [])
  else if c = '=' then (.beforeValue tag key, [])
  else if c = '>' then (.data, [tag.push key []])
  else (.key (tag.push key []) [c.toLower], [])

/-- In a comment, at a character that is not part of its end. -/
def htmlComment (c : Char) : HtmlScan × List HtmlTag := if c = '-' then (.commentDash, []) else (.comment, [])

/-- A step of the scanner of a browser. -/
def htmlStep (sections : Bool) : HtmlScan → Char → HtmlScan × List HtmlTag
  | .data, c => if c = '<' then (.opened, []) else (.data, [])
  | .opened, c =>
    if c = '!' then (.bang [], [])
    else if c = '/' then (.endOpened, [])
    else if c.isAlpha then (.name ⟨false, [c.toLower], []⟩, [])
    else if c = '?' then (.bogus, [])
    else if c = '<' then (.opened, [])
    else (.data, [])
  | .endOpened, c =>
    if c.isAlpha then (.name ⟨true, [c.toLower], []⟩, []) else if c = '>' then (.data, []) else (.bogus, [])
  | .bang seen, c =>
    let now := seen ++ [c]
    if now = ['-', '-'] then (.commentStart, [])
    else if now = ['[', 'C', 'D', 'A', 'T', 'A', '['] then if sections then (.section 0, []) else (.bogus, [])
    else if now.isPrefixOf ['-', '-'] || now.isPrefixOf ['[', 'C', 'D', 'A', 'T', 'A', '['] then (.bang now, [])
    else if c = '>' then (.data, [])
    else (.bogus, [])
  | .bogus, c => if c = '>' then (.data, []) else (.bogus, [])
  | .commentStart, c =>
    if c = '-' then (.commentStartDash, []) else if c = '>' then (.data, []) else htmlComment c
  | .commentStartDash, c =>
    if c = '-' then (.commentEnd, []) else if c = '>' then (.data, []) else htmlComment c
  | .comment, c => htmlComment c
  | .commentDash, c => if c = '-' then (.commentEnd, []) else htmlComment c
  | .commentEnd, c =>
    if c = '>' then (.data, []) else if c = '!' then (.commentBang, [])
    else if c = '-' then (.commentEnd, []) else htmlComment c
  | .commentBang, c => if c = '>' then (.data, []) else htmlComment c
  | .section brackets, c =>
    if c = ']' then (.section (brackets + 1), [])
    else if c = '>' ∧ 2 ≤ brackets then (.data, [])
    else (.section 0, [])
  | .name tag, c =>
    if isHtmlSpace c then (.before tag, [])
    else if c = '/' then (.selfClosing tag, [])
    else if c = '>' then (.data, [tag])
    else (.name { tag with name := tag.name ++ [c.toLower] }, [])
  | .before tag, c => htmlBefore tag c
  | .key tag key, c =>
    if isHtmlSpace c || c = '/' || c = '>' then htmlAfter tag key c
    else if c = '=' then (.beforeValue tag key, [])
    else (.key tag (key ++ [c.toLower]), [])
  | .after tag key, c => htmlAfter tag key c
  | .beforeValue tag key, c =>
    if isHtmlSpace c then (.beforeValue tag key, [])
    else if c = '"' ∨ c = '\'' then (.quoted tag key [] c, [])
    else if c = '>' then (.data, [tag.push key []])
    else (.unquoted tag key [c], [])
  | .quoted tag key value quote, c =>
    if c = quote then (.afterQuoted (tag.push key value), []) else (.quoted tag key (value ++ [c]) quote, [])
  | .unquoted tag key value, c =>
    if isHtmlSpace c then (.before (tag.push key value), [])
    else if c = '>' then (.data, [tag.push key value])
    else (.unquoted tag key (value ++ [c]), [])
  | .afterQuoted tag, c => htmlBefore tag c
  | .selfClosing tag, c => if c = '>' then (.data, [tag]) else htmlBefore tag c

/-- The tags of a text. -/
def htmlTags (sections : Bool) (text : List Char) : List HtmlTag := (scan (htmlStep sections) .data text).2

/-! ## Attributes -/

/-- The words of a text, of which the first one has begun. -/
def words : List Char → List Char → List (List Char)
  | word, [] => if word = [] then [] else [word]
  | word, c :: text =>
    if isHtmlSpace c then (if word = [] then [] else [word]) ++ words [] text else words (word ++ [c]) text

/-- What is before the first space. -/
def firstWord (text : List Char) : List Char := text.takeWhile fun c => !isHtmlSpace c

/-- What is from the first space on. -/
def afterFirst (text : List Char) : List Char := text.dropWhile fun c => !isHtmlSpace c

/-- Attributes without a value. -/
def HtmlTag.bare (tag : HtmlTag) (names : List (List Char)) : HtmlTag :=
  { tag with attributes := tag.attributes ++ names.map fun name => (name.map Char.toLower, []) }

/-- The tag that ends where `tail` and a `>` follow, after its name or an attribute. -/
def HtmlScan.ended (tail : List Char) : HtmlScan → Option HtmlTag
  | .name tag | .before tag | .afterQuoted tag => some tag
  | .key tag spelled | .after tag spelled => some (tag.push spelled [])
  | .unquoted tag spelled value => some (tag.push spelled (value ++ tail))
  | _ => none

section Attributes

variable {sections : Bool} {state : HtmlScan} {tag : HtmlTag} {key value word text tail : List Char} {c : Char}

@[simp] theorem HtmlTag.bare_nil : tag.bare [] = tag := by
  simp [HtmlTag.bare]

theorem HtmlTag.bare_cons {name : List Char} {names : List (List Char)} :
    tag.bare (name :: names) = (tag.push (name.map Char.toLower) []).bare names := by
  simp [HtmlTag.bare, HtmlTag.push]

/-- **A tag ends** at `>` or at `/>`. -/
theorem scan_html_end (h : state.ended tail = some tag) (htail : tail = [] ∨ tail = ['/']) :
    scan (htmlStep sections) state (tail ++ ['>']) = (.data, [tag]) := by
  cases state <;> simp only [HtmlScan.ended, Option.some.injEq, reduceCtorEq] at h <;> subst h <;>
    obtain rfl | rfl := htail <;> simp [scan, htmlStep, htmlBefore, htmlAfter, isHtmlSpace]

/-- Between two words. -/
def HtmlScan.isBetween : HtmlScan → Bool
  | .before _ | .after _ _ => true
  | _ => false

/-- A space after the name of a tag or after an attribute. -/
theorem html_space (sections : Bool) (h : state.ended [] = some tag) (hc : isHtmlSpace c) :
    ∃ next, htmlStep sections state c = (next, []) ∧ next.isBetween ∧ ∀ tail, next.ended tail = some tag := by
  cases state with
  | name other =>
    exact ⟨.before other, by rw [htmlStep, if_pos hc], rfl, fun _ => h⟩
  | before other | afterQuoted other =>
    exact ⟨.before other, by rw [htmlStep, htmlBefore, if_pos hc], rfl, fun _ => h⟩
  | key other spelled =>
    exact ⟨.after other spelled, by rw [htmlStep, if_pos (by simp [hc]), htmlAfter, if_pos hc], rfl, fun _ => h⟩
  | after other spelled =>
    exact ⟨.after other spelled, by rw [htmlStep, htmlAfter, if_pos hc], rfl, fun _ => h⟩
  | unquoted other spelled value =>
    rw [HtmlScan.ended, List.append_nil] at h
    exact ⟨.before (other.push spelled value), by rw [htmlStep, if_pos hc], rfl, fun _ => h⟩
  | _ => cases h

theorem ended_between (h : state.ended [] = some tag) (hbetween : state.isBetween) (tail : List Char) :
    state.ended tail = some tag := by
  cases state with
  | before other | after other spelled => exact h
  | _ => cases hbetween

/-- The first character of a name, after a space. -/
theorem html_first (h : state.ended [] = some tag) (hbetween : state.isBetween) (hspace : ¬ isHtmlSpace c)
    (hslash : c ≠ '/') (hequals : c ≠ '=') (hend : c ≠ '>') :
    htmlStep sections state c = (.key tag [c.toLower], []) := by
  cases state with
  | before other =>
    cases h
    rw [htmlStep, htmlBefore, if_neg hspace, if_neg hslash, if_neg hend]
  | after other spelled =>
    cases h
    rw [htmlStep, htmlAfter, if_neg hspace, if_neg hslash, if_neg hequals, if_neg hend]
  | _ => cases hbetween

/-- A further character of a name. -/
theorem html_key (hspace : ¬ isHtmlSpace c) (hslash : c ≠ '/') (hequals : c ≠ '=') (hend : c ≠ '>') :
    htmlStep sections (.key tag key) c = (.key tag (key ++ [c.toLower]), []) := by
  rw [htmlStep, if_neg (by simp [hspace, hslash, hend]), if_neg hequals]

/-- The characters of a name after the first one. -/
theorem scan_html_key
    (h : ∀ c ∈ text, ¬ isHtmlSpace c ∧ c ≠ '/' ∧ c ≠ '=' ∧ c ≠ '>') :
    scan (htmlStep sections) (.key tag key) text = (.key tag (key ++ text.map Char.toLower), []) := by
  induction text generalizing key with
  | nil => simp
  | cons c text ih =>
    obtain ⟨hspace, hslash, hequals, hend⟩ := h c List.mem_cons_self
    rw [scan_cons, html_key hspace hslash hequals hend, ih fun other hother => h other (List.mem_cons_of_mem _ hother),
      List.map_cons, ← List.append_cons]
    rfl

/-- The characters of a value after the first one. -/
theorem scan_html_unquoted (h : ∀ c ∈ text, ¬ isHtmlSpace c ∧ c ≠ '>') :
    scan (htmlStep sections) (.unquoted tag key value) text = (.unquoted tag key (value ++ text), []) := by
  induction text generalizing value with
  | nil => simp
  | cons c text ih =>
    obtain ⟨hspace, hend⟩ := h c List.mem_cons_self
    rw [scan_cons, htmlStep, if_neg hspace, if_neg hend, ih fun other hother => h other (List.mem_cons_of_mem _ hother),
      ← List.append_cons]
    rfl

/-- **Words are attributes** without a value. -/
theorem scan_html_words (h : ∀ c ∈ text, c ≠ '/' ∧ c ≠ '=' ∧ c ≠ '>')
    (hstate : (word = [] ∧ state.isBetween ∧ state.ended [] = some tag) ∨
      (word ≠ [] ∧ state = .key tag (word.map Char.toLower))) :
    ∃ next, scan (htmlStep sections) state text = (next, []) ∧
      ∀ tail, next.ended tail = some (tag.bare (words word text)) := by
  induction text generalizing state word tag with
  | nil =>
    refine ⟨state, rfl, fun tail => ?_⟩
    rcases hstate with ⟨rfl, hbetween, hended⟩ | ⟨hword, rfl⟩
    · rw [words, if_pos rfl, HtmlTag.bare_nil]
      exact ended_between hended hbetween tail
    · rw [words, if_neg hword, HtmlTag.bare_cons, HtmlTag.bare_nil]
      rfl
  | cons c text ih =>
    obtain ⟨hslash, hequals, hend⟩ := h c List.mem_cons_self
    have htext := fun other hother => h other (List.mem_cons_of_mem _ hother)
    rw [scan_cons, words]
    by_cases hspace : isHtmlSpace c
    · rw [if_pos hspace]
      rcases hstate with ⟨rfl, hbetween, hended⟩ | ⟨hword, rfl⟩
      · obtain ⟨next, hstep, hnext, htag⟩ := html_space sections hended hspace
        obtain ⟨last, hscan, hlast⟩ := ih htext (.inl ⟨rfl, hnext, htag []⟩)
        exact ⟨last, by rw [hstep, hscan]; rfl, fun tail => by rw [if_pos rfl, List.nil_append, hlast]⟩
      · have hended : (HtmlScan.key tag (word.map Char.toLower)).ended [] = some _ := rfl
        obtain ⟨next, hstep, hnext, htag⟩ := html_space sections hended hspace
        obtain ⟨last, hscan, hlast⟩ := ih htext (.inl ⟨rfl, hnext, htag []⟩)
        refine ⟨last, by rw [hstep, hscan]; rfl, fun tail => ?_⟩
        rw [if_neg hword, List.singleton_append, HtmlTag.bare_cons, hlast]
    · rw [if_neg hspace]
      have hstep : htmlStep sections state c = (.key tag ((word ++ [c]).map Char.toLower), []) := by
        rcases hstate with ⟨rfl, hbetween, hended⟩ | ⟨hword, rfl⟩
        · exact html_first hended hbetween hspace hslash hequals hend
        · rw [html_key hspace hslash hequals hend, List.map_append]
          rfl
      have hword : word ++ [c] ≠ [] := by simp
      obtain ⟨last, hscan, hlast⟩ := ih htext (.inr ⟨hword, rfl⟩)
      exact ⟨last, by rw [hstep, hscan]; rfl, hlast⟩

theorem firstWord_afterFirst (text : List Char) : firstWord text ++ afterFirst text = text :=
  List.takeWhile_append_dropWhile

/-- The value of an attribute that a writer puts in no quotes. -/
def PlainValue (value : List Char) : Prop :=
  firstWord value ≠ [] ∧ value.head? ≠ some '"' ∧ value.head? ≠ some '\'' ∧ '>' ∉ value ∧
    ∀ c ∈ afterFirst value, c ≠ '/' ∧ c ≠ '='

instance (value : List Char) : Decidable (PlainValue value) :=
  have : Decidable (∀ c ∈ afterFirst value, c ≠ '/' ∧ c ≠ '=') := List.decidableBAll _ _
  inferInstanceAs (Decidable (_ ∧ _))

/-- The value of an attribute that ends a tag. -/
def lastValue (value tail : List Char) : List Char :=
  if afterFirst value = [] then value ++ tail else firstWord value

/-- The first word of a value. -/
theorem scan_html_value (h : PlainValue value) :
    scan (htmlStep sections) (.beforeValue tag key) (firstWord value) = (.unquoted tag key (firstWord value), []) := by
  obtain ⟨hne, hdouble, hsingle, hend, -⟩ := h
  have hin : ∀ c ∈ firstWord value, ¬ isHtmlSpace c ∧ c ≠ '>' := by
    intro c hc
    refine ⟨by simpa using List.mem_takeWhile_imp hc, ?_⟩
    rintro rfl
    exact hend ((List.takeWhile_prefix _).mem hc)
  have hhead : value.head? = (firstWord value).head? := by
    have hparts := congrArg List.head? (firstWord_afterFirst value)
    rwa [List.head?_append_of_ne_nil _ hne, eq_comm] at hparts
  rw [hhead] at hdouble hsingle
  generalize firstWord value = first at *
  cases first with
  | nil => exact absurd rfl hne
  | cons c first =>
    obtain ⟨hspace, hgt⟩ := hin c List.mem_cons_self
    have hquote : ¬ (c = '"' ∨ c = '\'') := by
      rintro (rfl | rfl)
      · exact hdouble rfl
      · exact hsingle rfl
    rw [scan_cons, htmlStep, if_neg hspace, if_neg hquote, if_neg hgt,
      scan_html_unquoted fun other hother => hin other (List.mem_cons_of_mem _ hother)]
    rfl

/-- The name of an attribute and a `=`, after a space. -/
theorem scan_html_name (h : state.ended [] = some tag) (hne : key ≠ [])
    (hkey : ∀ c ∈ key, ¬ isHtmlSpace c ∧ c ≠ '/' ∧ c ≠ '=' ∧ c ≠ '>') :
    scan (htmlStep sections) state (' ' :: (key ++ ['='])) = (.beforeValue tag (key.map Char.toLower), []) := by
  have hspace : isHtmlSpace ' ' := rfl
  obtain ⟨next, hstep, hbetween, htag⟩ := html_space sections h hspace
  cases key with
  | nil => exact absurd rfl hne
  | cons c key =>
    obtain ⟨hspace, hslash, hequals, hend⟩ := hkey c List.mem_cons_self
    have hrest : scan (htmlStep sections) (.key tag [c.toLower]) key = _ :=
      scan_html_key fun other hother => hkey other (List.mem_cons_of_mem _ hother)
    have hlast : scan (htmlStep sections) (.key tag (c.toLower :: key.map Char.toLower)) ['='] =
        (.beforeValue tag (c.toLower :: key.map Char.toLower), []) := rfl
    rw [scan_cons, hstep, List.cons_append, scan_cons, html_first (htag []) hbetween hspace hslash hequals hend,
      scan_after hrest, List.singleton_append, hlast]
    rfl

/-- **An attribute in no quotes**: the first word is its value, the others are attributes. -/
theorem scan_html_attribute (sections : Bool) (h : state.ended [] = some tag) (hne : key ≠ [])
    (hkey : ∀ c ∈ key, ¬ isHtmlSpace c ∧ c ≠ '/' ∧ c ≠ '=' ∧ c ≠ '>') (hvalue : PlainValue value) :
    ∃ next, scan (htmlStep sections) state (' ' :: (key ++ '=' :: value)) = (next, []) ∧
      ∀ tail, next.ended tail =
        some ((tag.push (key.map Char.toLower) (lastValue value tail)).bare (words [] (afterFirst value))) := by
  have hname : scan (htmlStep sections) state (' ' :: (key ++ ['='])) = _ := scan_html_name h hne hkey
  have hfirst : scan (htmlStep sections) (.beforeValue tag (key.map Char.toLower)) (firstWord value) = _ :=
    scan_html_value hvalue
  have hsplit : ' ' :: (key ++ '=' :: value) = ' ' :: (key ++ ['=']) ++ (firstWord value ++ afterFirst value) := by
    rw [firstWord_afterFirst, List.cons_append, List.append_assoc, List.singleton_append]
  rw [hsplit, scan_after hname, scan_after hfirst]
  cases hrest : afterFirst value with
  | nil =>
    refine ⟨.unquoted tag (key.map Char.toLower) (firstWord value), rfl, fun tail => ?_⟩
    have hall : firstWord value = value := by
      have hparts := firstWord_afterFirst value
      rwa [hrest, List.append_nil] at hparts
    rw [HtmlScan.ended, lastValue, if_pos hrest, hall, words, if_pos rfl, HtmlTag.bare_nil]
  | cons c rest =>
    have hspace : isHtmlSpace c := by
      have hfirst := List.head?_dropWhile_not (fun c => !isHtmlSpace c) value
      rw [show value.dropWhile _ = c :: rest from hrest] at hfirst
      simpa using hfirst
    have hplain : ∀ other ∈ rest, other ≠ '/' ∧ other ≠ '=' ∧ other ≠ '>' := by
      intro other hother
      have hin : other ∈ afterFirst value := hrest ▸ List.mem_cons_of_mem c hother
      obtain ⟨hslash, hequals⟩ := hvalue.2.2.2.2 other hin
      refine ⟨hslash, hequals, ?_⟩
      rintro rfl
      exact hvalue.2.2.2.1 ((List.dropWhile_suffix _).mem hin)
    have hended : (HtmlScan.unquoted tag (key.map Char.toLower) (firstWord value)).ended [] =
        some (tag.push (key.map Char.toLower) (firstWord value)) := by
      rw [HtmlScan.ended, List.append_nil]
    obtain ⟨next, hstep, hbetween, htag⟩ := html_space sections hended hspace
    obtain ⟨last, hscan, hlast⟩ := scan_html_words hplain (.inl ⟨rfl, hbetween, htag []⟩)
    refine ⟨last, by rw [scan_cons, hstep, hscan]; rfl, fun tail => ?_⟩
    rw [hlast, lastValue, if_neg (by simp [hrest]), words, if_pos hspace, if_pos rfl, List.nil_append]

end Attributes

/-! ## Between tags -/

/-- The states of a comment. -/
def HtmlScan.inComment : HtmlScan → Bool
  | .commentStart | .commentStartDash | .comment | .commentDash | .commentEnd | .commentBang => true
  | _ => false

section Between

variable {sections : Bool} {state : HtmlScan} {tag : HtmlTag} {name text : List Char}

/-- Text without markup. -/
theorem scan_html_text (h : '<' ∉ text) : scan (htmlStep sections) .data text = (.data, []) := by
  refine scan_stay fun c hc => ?_
  have hlt : c ≠ '<' := fun heq => h (heq ▸ hc)
  rw [htmlStep, if_neg hlt]

/-- The name of a tag, after its first letter. -/
theorem scan_html_tagName (h : ∀ c ∈ text, ¬ isHtmlSpace c ∧ c ≠ '/' ∧ c ≠ '>') :
    scan (htmlStep sections) (.name tag) text =
      (.name { tag with name := tag.name ++ text.map Char.toLower }, []) := by
  induction text generalizing tag with
  | nil => simp
  | cons c text ih =>
    obtain ⟨hspace, hslash, hend⟩ := h c List.mem_cons_self
    rw [scan_cons, htmlStep, if_neg hspace, if_neg hslash, if_neg hend,
      ih fun other hother => h other (List.mem_cons_of_mem _ hother)]
    simp

/-- A name that is read as the name of a tag. -/
def PlainName (name : List Char) : Prop :=
  (∃ c ∈ name.head?, c.isAlpha) ∧ ∀ c ∈ name, ¬ isHtmlSpace c ∧ c ≠ '/' ∧ c ≠ '>'

instance (name : List Char) : Decidable (PlainName name) :=
  @instDecidableAnd _ _ (Option.decidableExistsMem _) (List.decidableBAll _ _)

/-- **A tag begins.** -/
theorem scan_html_start (h : PlainName name) :
    scan (htmlStep sections) .data ('<' :: name) = (.name ⟨false, name.map Char.toLower, []⟩, []) := by
  obtain ⟨⟨first, hfirst, halpha⟩, hname⟩ := h
  cases name with
  | nil => cases hfirst
  | cons c name =>
    obtain rfl : c = first := Option.some.inj hfirst
    have hbang : c ≠ '!' := by rintro rfl; revert halpha; decide
    obtain ⟨-, hslash, -⟩ := hname c List.mem_cons_self
    rw [scan_cons, show htmlStep sections .data '<' = (.opened, []) from rfl, scan_cons, htmlStep, if_neg hbang,
      if_neg hslash, if_pos halpha, scan_html_tagName fun other hother => hname other (List.mem_cons_of_mem _ hother)]
    rfl

/-- The same for a closing tag. -/
theorem scan_html_close (h : PlainName name) :
    scan (htmlStep sections) .data ('<' :: '/' :: name) = (.name ⟨true, name.map Char.toLower, []⟩, []) := by
  obtain ⟨⟨first, hfirst, halpha⟩, hname⟩ := h
  cases name with
  | nil => cases hfirst
  | cons c name =>
    obtain rfl : c = first := Option.some.inj hfirst
    rw [scan_cons, show htmlStep sections .data '<' = (.opened, []) from rfl, scan_cons,
      show htmlStep sections .opened '/' = (.endOpened, []) from rfl, scan_cons, htmlStep, if_pos halpha,
      scan_html_tagName fun other hother => hname other (List.mem_cons_of_mem _ hother)]
    rfl

/-- A comment without a `>` stays one. -/
theorem scan_inComment (sections : Bool) (hstate : state.inComment) (h : '>' ∉ text) :
    ∃ next, scan (htmlStep sections) state text = (next, []) ∧ next.inComment := by
  induction text generalizing state with
  | nil => exact ⟨state, rfl, hstate⟩
  | cons c text ih =>
    rw [List.mem_cons, not_or] at h
    have hend : c ≠ '>' := Ne.symm h.1
    have hstep : ∃ next, htmlStep sections state c = (next, []) ∧ next.inComment := by
      cases state with
      | commentStart | commentStartDash | comment | commentDash | commentEnd | commentBang =>
        simp only [htmlStep, htmlComment, if_neg hend]
        split_ifs <;> exact ⟨_, rfl, rfl⟩
      | _ => cases hstate
    obtain ⟨next, hnext, hcomment⟩ := hstep
    obtain ⟨last, hscan, hlast⟩ := ih hcomment h.2
    exact ⟨last, by rw [scan_cons, hnext, hscan]; rfl, hlast⟩

/-- A comment. -/
theorem scan_html_comment (h : '>' ∉ text) :
    scan (htmlStep sections) .data (['<', '!', '-', '-'] ++ text ++ ['-', '-', '>']) = (.data, []) := by
  have hopen : scan (htmlStep sections) .data ['<', '!', '-', '-'] = (.commentStart, []) := rfl
  have hstart : HtmlScan.commentStart.inComment := rfl
  obtain ⟨next, hscan, hnext⟩ := scan_inComment sections hstart h
  have hclose : scan (htmlStep sections) next ['-', '-', '>'] = (.data, []) := by
    cases next with
    | commentStart | commentStartDash | comment | commentDash | commentEnd | commentBang => rfl
    | _ => cases hnext
  rw [List.append_assoc, scan_after hopen, scan_after hscan, hclose]
  rfl

theorem scan_bogus (h : '>' ∉ text) : scan (htmlStep sections) .bogus text = (.bogus, []) := by
  refine scan_stay fun c hc => ?_
  have hend : c ≠ '>' := fun heq => h (heq ▸ hc)
  rw [htmlStep, if_neg hend]

theorem scan_section (sections : Bool) (brackets : ℕ) (h : '>' ∉ text) :
    ∃ next, scan (htmlStep sections) (.section brackets) text = (.section next, []) := by
  induction text generalizing brackets with
  | nil => exact ⟨brackets, rfl⟩
  | cons c text ih =>
    rw [List.mem_cons, not_or] at h
    have hend : ¬ (c = '>' ∧ 2 ≤ brackets) := fun hc => h.1 hc.1.symm
    rw [scan_cons, htmlStep, if_neg hend]
    split_ifs
    · obtain ⟨next, hnext⟩ := ih (brackets + 1) h.2
      exact ⟨next, by rw [hnext]; rfl⟩
    · obtain ⟨next, hnext⟩ := ih 0 h.2
      exact ⟨next, by rw [hnext]; rfl⟩

/-- A section, whether it is read as one or as a comment. -/
theorem scan_html_section (h : '>' ∉ text) :
    scan (htmlStep sections) .data (['<', '!', '[', 'C', 'D', 'A', 'T', 'A', '['] ++ text ++ [']', ']', '>']) =
      (.data, []) := by
  cases sections with
  | true =>
    have hopen : scan (htmlStep true) .data ['<', '!', '[', 'C', 'D', 'A', 'T', 'A', '['] = (.section 0, []) := rfl
    obtain ⟨next, hscan⟩ := scan_section true 0 h
    have hclose : scan (htmlStep true) (.section next) [']', ']', '>'] = (.data, []) := by
      simp [scan, htmlStep]
    rw [List.append_assoc, scan_after hopen, scan_after hscan, hclose]
    rfl
  | false =>
    have hopen : scan (htmlStep false) .data ['<', '!', '[', 'C', 'D', 'A', 'T', 'A', '['] = (.bogus, []) := rfl
    have hclose : scan (htmlStep false) .bogus [']', ']', '>'] = (.data, []) := rfl
    rw [List.append_assoc, scan_after hopen, scan_after (scan_bogus h), hclose]
    rfl

/-- An instruction, which is read as a comment. -/
theorem scan_html_instruction (h : '>' ∉ text) :
    scan (htmlStep sections) .data (['<', '?'] ++ text ++ ['?', '>']) = (.data, []) := by
  have hopen : scan (htmlStep sections) .data ['<', '?'] = (.bogus, []) := rfl
  have hclose : scan (htmlStep sections) .bogus ['?', '>'] = (.data, []) := rfl
  rw [List.append_assoc, scan_after hopen, scan_after (scan_bogus h), hclose]
  rfl

end Between

end Common
