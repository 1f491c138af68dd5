import Mathlib.Data.List.Basic
import Mathlib.Data.Nat.Digits.Defs
import Mathlib.Tactic.IntervalCases

/-!
# Compact JSON

The text of a JSON value without any space, as a writer gives it: integers in decimal digits, other numbers by a
printer of their own (`DecimalText`), strings with the escapes that JSON asks for.

Results:
* `JsonValue.text_append_inj`: the text of a value can be told from what follows it.
* `JsonValue.text_injective`: different values have different texts.
* `Determines.arrayOf`, `determines_objectOf`: arrays and objects whose parts may be refused are determined by them.
-/

namespace Common

/-! ## Numbers -/

/-- The characters of a number. -/
def isNumberChar (c : Char) : Bool := c.isDigit || c = '-' || c = '+' || c = '.' || c = 'e' || c = 'E'

/-- A printer of the numbers that are not integers: no two numbers share a text, and no text is one of an
    integer. -/
structure DecimalText (φ : Type) where
  text : φ → List Char
  injective : Function.Injective text
  numeric : ∀ x, ∀ c ∈ text x, isNumberChar c = true
  fractional : ∀ x, '.' ∈ text x ∨ 'e' ∈ text x

/-- The text of an integer. -/
def integerText (n : ℤ) : List Char := if n < 0 then '-' :: Nat.toDigits 10 n.natAbs else Nat.toDigits 10 n.natAbs

variable {c : Char}

theorem isDigit_of_mem_digits {n : ℕ} (h : c ∈ Nat.toDigits 10 n) : c.isDigit = true :=
  Nat.isDigit_of_mem_toDigits (by decide) (by decide) h

theorem digits_injective : Function.Injective (Nat.toDigits 10) := by
  intro m n h
  have hvalue := congrArg (fun digits => Nat.ofDigitChars 10 digits 0) h
  simpa only [Nat.ofDigitChars_ten_toDigits] using hvalue

theorem minus_notMem_digits (n : ℕ) : '-' ∉ Nat.toDigits 10 n := by
  intro h
  have hdigit := isDigit_of_mem_digits h
  exact absurd hdigit (by decide)

theorem isDigit_of_mem_integerText {n : ℤ} (h : c ∈ integerText n) : c = '-' ∨ c.isDigit = true := by
  unfold integerText at h
  split at h
  · rcases List.mem_cons.mp h with hminus | hdigits
    · exact .inl hminus
    · exact .inr (isDigit_of_mem_digits hdigits)
  · exact .inr (isDigit_of_mem_digits h)

theorem integerText_injective : Function.Injective integerText := by
  intro m n h
  unfold integerText at h
  split at h <;> split at h
  · have habs := digits_injective (List.cons.inj h).2
    omega
  · have hminus : '-' ∈ Nat.toDigits 10 n.natAbs := h ▸ List.mem_cons_self
    exact absurd hminus (minus_notMem_digits _)
  · have hminus : '-' ∈ Nat.toDigits 10 m.natAbs := h ▸ List.mem_cons_self
    exact absurd hminus (minus_notMem_digits _)
  · have habs := digits_injective h
    omega

theorem integerText_ne_nil (n : ℤ) : integerText n ≠ [] := by
  unfold integerText
  split
  · exact List.cons_ne_nil _ _
  · exact Nat.toDigits_ne_nil

theorem isNumberChar_of_mem_integerText {n : ℤ} (h : c ∈ integerText n) : isNumberChar c = true := by
  unfold isNumberChar
  rcases isDigit_of_mem_integerText h with rfl | hdigit
  · decide
  · rw [hdigit]
    simp

/-- No integer has the text of a decimal. -/
theorem integerText_ne_text {φ : Type} (decimals : DecimalText φ) (n : ℤ) (x : φ) :
    integerText n ≠ decimals.text x := by
  intro heq
  rcases decimals.fractional x with hdot | hexponent
  · rw [← heq] at hdot
    rcases isDigit_of_mem_integerText hdot with h | h <;> exact absurd h (by decide)
  · rw [← heq] at hexponent
    rcases isDigit_of_mem_integerText hexponent with h | h <;> exact absurd h (by decide)

/-! ## Strings -/

/-- A hexadecimal digit. -/
def hexadecimal (n : ℕ) : Char := Nat.digitChar n

/-- A character between quotes. -/
def escapeJson (c : Char) : List Char :=
  if c = '"' then ['\\', '"']
  else if c = '\\' then ['\\', '\\']
  else if c.toNat < 0x20 then
    match c.toNat with
    | 0x08 => ['\\', 'b']
    | 0x09 => ['\\', 't']
    | 0x0A => ['\\', 'n']
    | 0x0C => ['\\', 'f']
    | 0x0D => ['\\', 'r']
    | n => ['\\', 'u', '0', '0', hexadecimal (n / 16), hexadecimal (n % 16)]
  else [c]

/-- A text between quotes. -/
def quoted (text : String) : List Char := '"' :: (text.toList.flatMap escapeJson ++ ['"'])

/-- The value of a hexadecimal digit. -/
def hexadecimalValue (c : Char) : ℕ := if c.isDigit then c.toNat - '0'.toNat else c.toNat - 'a'.toNat + 10

/-- The character that a quoted text starts with, and the rest. -/
def unescapeJson : List Char → Option (Char × List Char)
  | '"' :: _ => none
  | '\\' :: 'u' :: '0' :: '0' :: high :: low :: rest =>
    some (Char.ofNat (16 * hexadecimalValue high + hexadecimalValue low), rest)
  | '\\' :: 'b' :: rest => some ('\x08', rest)
  | '\\' :: 't' :: rest => some ('\t', rest)
  | '\\' :: 'n' :: rest => some ('\n', rest)
  | '\\' :: 'f' :: rest => some ('\x0c', rest)
  | '\\' :: 'r' :: rest => some ('\r', rest)
  | '\\' :: c :: rest => some (c, rest)
  | c :: rest => some (c, rest)
  | [] => none

theorem unescapeJson_control : ∀ n < 0x20, ∀ rest : List Char,
    unescapeJson (escapeJson (Char.ofNat n) ++ rest) = some (Char.ofNat n, rest) := by
  intro n hn rest
  interval_cases n <;> rfl

theorem unescapeJson_plain (hquote : c ≠ '"') (hslash : c ≠ '\\') (rest : List Char) :
    unescapeJson (c :: rest) = some (c, rest) := by
  unfold unescapeJson
  split <;> simp_all

@[simp] theorem unescapeJson_escapeJson (c : Char) (rest : List Char) :
    unescapeJson (escapeJson c ++ rest) = some (c, rest) := by
  by_cases hquote : c = '"'
  · rw [hquote]
    rfl
  by_cases hslash : c = '\\'
  · rw [hslash]
    rfl
  by_cases hcontrol : c.toNat < 0x20
  · have hread := unescapeJson_control c.toNat hcontrol rest
    rw [Char.ofNat_toNat] at hread
    exact hread
  · rw [escapeJson, if_neg hquote, if_neg hslash, if_neg hcontrol]
    exact unescapeJson_plain hquote hslash rest

/-- A quoted text ends at its quote. -/
theorem escaped_append_inj {chars others rest tail : List Char}
    (h : chars.flatMap escapeJson ++ '"' :: rest = others.flatMap escapeJson ++ '"' :: tail) :
    chars = others ∧ rest = tail := by
  induction chars generalizing others with
  | nil =>
    cases others with
    | nil =>
      simp only [List.flatMap_nil, List.nil_append, List.cons.injEq, true_and] at h
      exact ⟨rfl, h⟩
    | cons d others =>
      have hread := congrArg unescapeJson h
      rw [List.flatMap_cons, List.append_assoc, unescapeJson_escapeJson] at hread
      cases hread
  | cons c chars ih =>
    have hread := congrArg unescapeJson h
    rw [List.flatMap_cons, List.append_assoc, unescapeJson_escapeJson] at hread
    cases others with
    | nil => cases hread
    | cons d others =>
      rw [List.flatMap_cons, List.append_assoc, unescapeJson_escapeJson, Option.some.injEq, Prod.mk.injEq] at hread
      obtain ⟨rfl, hrest⟩ := hread
      obtain ⟨rfl, htail⟩ := ih hrest
      exact ⟨rfl, htail⟩

theorem quoted_append_inj {first second : String} {rest tail : List Char}
    (h : quoted first ++ rest = quoted second ++ tail) : first = second ∧ rest = tail := by
  simp only [quoted, List.cons_append, List.append_assoc, List.cons.injEq, true_and, List.singleton_append,
    List.nil_append] at h
  obtain ⟨hchars, htail⟩ := escaped_append_inj h
  exact ⟨String.toList_inj.mp hchars, htail⟩

/-! ## Values -/

/-- A JSON value whose numbers are integers, or numbers of a type of their own. -/
inductive JsonValue (φ : Type) where
  | null
  | bool (value : Bool)
  | integer (n : ℤ)
  | decimal (x : φ)
  | string (text : String)
  | array (items : List (JsonValue φ))
  | object (entries : List (String × JsonValue φ))

namespace JsonValue

section Text

variable {φ : Type} (decimals : DecimalText φ)

mutual

/-- The text of a value. -/
def text : JsonValue φ → List Char
  | null => ['n', 'u', 'l', 'l']
  | bool true => ['t', 'r', 'u', 'e']
  | bool false => ['f', 'a', 'l', 's', 'e']
  | integer n => integerText n
  | decimal x => decimals.text x
  | string text => quoted text
  | array [] => ['[', ']']
  | array (item :: items) => '[' :: (item.text ++ itemsText items)
  | object [] => ['\x7b', '\x7d']
  | object ((key, value) :: entries) => '\x7b' :: (quoted key ++ ':' :: (value.text ++ entriesText entries))

/-- The text of the items that follow the first. -/
def itemsText : List (JsonValue φ) → List Char
  | [] => [']']
  | item :: items => ',' :: (item.text ++ itemsText items)

/-- The text of the entries that follow the first. -/
def entriesText : List (String × JsonValue φ) → List Char
  | [] => ['\x7d']
  | (key, value) :: entries => ',' :: (quoted key ++ ':' :: (value.text ++ entriesText entries))

end

end Text

/-! ## Where a value ends -/

/-- A text that continues no number. -/
def Ends (rest : List Char) : Prop := ∀ c ∈ rest.head?, isNumberChar c = false

theorem ends_nil : Ends [] := fun _ h => (nomatch h)

theorem ends_cons {rest : List Char} (h : isNumberChar c = false) : Ends (c :: rest) := by
  intro d hd
  cases hd
  exact h

theorem takeWhile_number {token rest : List Char} (htoken : ∀ c ∈ token, isNumberChar c = true) (hrest : Ends rest) :
    (token ++ rest).takeWhile isNumberChar = token := by
  rw [List.takeWhile_append_of_pos htoken]
  cases rest with
  | nil => rw [List.takeWhile_nil, List.append_nil]
  | cons c rest =>
    have hc : ¬ isNumberChar c = true := by
      rw [hrest c rfl]
      decide
    rw [List.takeWhile_cons_of_neg hc, List.append_nil]

/-- The characters of a number end where it does. -/
theorem number_append_inj {token other rest tail : List Char} (htoken : ∀ c ∈ token, isNumberChar c = true)
    (hother : ∀ c ∈ other, isNumberChar c = true) (hrest : Ends rest) (htail : Ends tail)
    (h : token ++ rest = other ++ tail) : token = other ∧ rest = tail := by
  have htokens := congrArg (List.takeWhile isNumberChar) h
  rw [takeWhile_number htoken hrest, takeWhile_number hother htail] at htokens
  subst htokens
  exact ⟨rfl, List.append_cancel_left h⟩

/-! ## The first character -/

/-- What the first character of a text says about the value. -/
inductive Kind where
  | null | isTrue | isFalse | number | string | array | object | other

def Kind.ofChar (c : Char) : Kind :=
  if c = 'n' then null else if c = 't' then isTrue else if c = 'f' then isFalse else if c = '"' then string
  else if c = '[' then array else if c = '\x7b' then object else if isNumberChar c then number else other

def Kind.ofText (text : List Char) : Kind := (text.head?.map Kind.ofChar).getD other

def kind {φ : Type} : JsonValue φ → Kind
  | null => .null
  | bool true => .isTrue
  | bool false => .isFalse
  | integer _ | decimal _ => .number
  | string _ => .string
  | array _ => .array
  | object _ => .object

theorem Kind.ofChar_number (h : isNumberChar c = true) : Kind.ofChar c = .number := by
  have hne : ∀ d, isNumberChar d = false → c ≠ d := by
    rintro d hd rfl
    rw [h] at hd
    cases hd
  unfold Kind.ofChar
  rw [if_neg (hne 'n' (by decide)), if_neg (hne 't' (by decide)), if_neg (hne 'f' (by decide)),
    if_neg (hne '"' (by decide)), if_neg (hne '[' (by decide)), if_neg (hne '\x7b' (by decide)), if_pos h]

theorem Kind.ofText_number {token rest : List Char} (hne : token ≠ []) (h : ∀ c ∈ token, isNumberChar c = true) :
    Kind.ofText (token ++ rest) = .number := by
  cases token with
  | nil => exact absurd rfl hne
  | cons c token =>
    rw [Kind.ofText, List.cons_append, List.head?_cons, Option.map_some, Option.getD_some,
      Kind.ofChar_number (h c List.mem_cons_self)]

section Injective

variable {φ : Type} {decimals : DecimalText φ}

theorem decimalText_ne_nil (x : φ) : decimals.text x ≠ [] := by
  rcases decimals.fractional x with h | h <;> exact List.ne_nil_of_mem h

/-- The first character of a value tells its kind. -/
@[simp] theorem kind_ofText_text (value : JsonValue φ) (rest : List Char) :
    Kind.ofText (value.text decimals ++ rest) = value.kind := by
  cases value with
  | null => rw [text]; rfl
  | bool value => cases value <;> (rw [text]; rfl)
  | integer n =>
    rw [text]
    exact Kind.ofText_number (integerText_ne_nil n) fun c => isNumberChar_of_mem_integerText
  | decimal x =>
    rw [text]
    exact Kind.ofText_number (decimalText_ne_nil x) (decimals.numeric x)
  | string text => rw [JsonValue.text]; rfl
  | array items => cases items <;> (rw [text]; rfl)
  | object entries => cases entries <;> (rw [text]; rfl)

theorem kind_ne_other (value : JsonValue φ) : value.kind ≠ .other := by
  cases value with
  | bool value => cases value <;> exact Kind.noConfusion
  | _ => exact Kind.noConfusion

theorem ends_itemsText (items : List (JsonValue φ)) (rest : List Char) : Ends (itemsText decimals items ++ rest) := by
  cases items <;> (rw [itemsText]; exact ends_cons (by decide))

theorem ends_entriesText (entries : List (String × JsonValue φ)) (rest : List Char) :
    Ends (entriesText decimals entries ++ rest) := by
  cases entries <;> (rw [entriesText]; exact ends_cons (by decide))

/-! ## Different values have different texts -/

variable {rest tail : List Char}

theorem kind_eq_of_text {value other : JsonValue φ}
    (h : value.text decimals ++ rest = other.text decimals ++ tail) : value.kind = other.kind := by
  have hkind := congrArg Kind.ofText h
  rwa [kind_ofText_text, kind_ofText_text] at hkind

theorem number_text_inj {value other : JsonValue φ} (hvalue : value.kind = .number) (hrest : Ends rest)
    (htail : Ends tail) (h : value.text decimals ++ rest = other.text decimals ++ tail) :
    value = other ∧ rest = tail := by
  have hother : other.kind = .number := (kind_eq_of_text h).symm.trans hvalue
  have hnumeric : ∀ {v : JsonValue φ}, v.kind = .number → ∀ c ∈ v.text decimals, isNumberChar c = true := by
    intro v hv c hc
    cases v with
    | integer n =>
      rw [text] at hc
      exact isNumberChar_of_mem_integerText hc
    | decimal x =>
      rw [text] at hc
      exact decimals.numeric x c hc
    | bool value => cases value <;> cases hv
    | _ => cases hv
  obtain ⟨htext, hrest⟩ := number_append_inj (hnumeric hvalue) (hnumeric hother) hrest htail h
  refine ⟨?_, hrest⟩
  cases value with
  | integer n =>
    cases other with
    | integer m =>
      rw [text, text] at htext
      rw [integerText_injective htext]
    | decimal y =>
      rw [text, text] at htext
      exact absurd htext (integerText_ne_text decimals n y)
    | bool value => cases value <;> cases hother
    | _ => cases hother
  | decimal x =>
    cases other with
    | integer m =>
      rw [text, text] at htext
      exact absurd htext.symm (integerText_ne_text decimals m x)
    | decimal y =>
      rw [text, text] at htext
      rw [decimals.injective htext]
    | bool value => cases value <;> cases hother
    | _ => cases hother
  | bool value => cases value <;> cases hvalue
  | _ => cases hvalue

mutual

/-- The text of a value can be told from what follows it. -/
theorem text_append_inj : ∀ (value other : JsonValue φ) {rest tail : List Char}, Ends rest → Ends tail →
    value.text decimals ++ rest = other.text decimals ++ tail → value = other ∧ rest = tail
  | null, other, rest, tail, _, _, h => by
    have hkind := kind_eq_of_text h
    cases other with
    | null => exact ⟨rfl, List.append_cancel_left h⟩
    | bool value => cases value <;> cases hkind
    | _ => cases hkind
  | bool true, other, rest, tail, _, _, h => by
    have hkind := kind_eq_of_text h
    cases other with
    | bool value =>
      cases value with
      | true => exact ⟨rfl, List.append_cancel_left h⟩
      | false => cases hkind
    | _ => cases hkind
  | bool false, other, rest, tail, _, _, h => by
    have hkind := kind_eq_of_text h
    cases other with
    | bool value =>
      cases value with
      | true => cases hkind
      | false => exact ⟨rfl, List.append_cancel_left h⟩
    | _ => cases hkind
  | integer n, other, rest, tail, hrest, htail, h => number_text_inj rfl hrest htail h
  | decimal x, other, rest, tail, hrest, htail, h => number_text_inj rfl hrest htail h
  | string first, other, rest, tail, _, _, h => by
    have hkind := kind_eq_of_text h
    cases other with
    | string second =>
      rw [text, text] at h
      obtain ⟨rfl, htail⟩ := quoted_append_inj h
      exact ⟨rfl, htail⟩
    | bool value => cases value <;> cases hkind
    | _ => cases hkind
  | array [], other, rest, tail, _, _, h => by
    have hkind := kind_eq_of_text h
    cases other with
    | array others =>
      cases others with
      | nil => exact ⟨rfl, List.append_cancel_left h⟩
      | cons next others =>
        rw [text, text] at h
        simp only [List.cons_append, List.nil_append, List.append_assoc, List.cons.injEq, true_and] at h
        have hnext := congrArg Kind.ofText h
        rw [kind_ofText_text] at hnext
        exact absurd hnext.symm (kind_ne_other next)
    | bool value => cases value <;> cases hkind
    | _ => cases hkind
  | array (item :: items), other, rest, tail, hrest, htail, h => by
    have hkind := kind_eq_of_text h
    cases other with
    | array others =>
      cases others with
      | nil =>
        rw [text, text] at h
        simp only [List.cons_append, List.nil_append, List.append_assoc, List.cons.injEq, true_and] at h
        have hnext := congrArg Kind.ofText h
        rw [kind_ofText_text] at hnext
        exact absurd hnext (kind_ne_other item)
      | cons next others =>
        rw [text, text] at h
        simp only [List.cons_append, List.append_assoc, List.cons.injEq, true_and] at h
        obtain ⟨rfl, hitems⟩ := text_append_inj item next (ends_itemsText items rest) (ends_itemsText others tail) h
        obtain ⟨rfl, htail⟩ := itemsText_append_inj items others hrest htail hitems
        exact ⟨rfl, htail⟩
    | bool value => cases value <;> cases hkind
    | _ => cases hkind
  | object [], other, rest, tail, _, _, h => by
    have hkind := kind_eq_of_text h
    cases other with
    | object others =>
      cases others with
      | nil => exact ⟨rfl, List.append_cancel_left h⟩
      | cons next others =>
        rw [text, text, quoted] at h
        simp at h
    | bool value => cases value <;> cases hkind
    | _ => cases hkind
  | object ((key, value) :: entries), other, rest, tail, hends, htail, h => by
    have hkind := kind_eq_of_text h
    cases other with
    | object others =>
      cases others with
      | nil =>
        rw [text, text, quoted] at h
        simp at h
      | cons next others =>
        rw [text, text] at h
        simp only [List.cons_append, List.append_assoc, List.cons.injEq, true_and] at h
        obtain ⟨hkey, hrest⟩ := quoted_append_inj h
        obtain ⟨hvalue, hentries⟩ := text_append_inj value next.2 (ends_entriesText entries rest)
          (ends_entriesText others tail) (List.cons.inj hrest).2
        obtain ⟨rfl, htail⟩ := entriesText_append_inj entries others hends htail hentries
        exact ⟨by rw [hkey, hvalue], htail⟩
    | bool value => cases value <;> cases hkind
    | _ => cases hkind

theorem itemsText_append_inj : ∀ (items others : List (JsonValue φ)) {rest tail : List Char}, Ends rest → Ends tail →
    itemsText decimals items ++ rest = itemsText decimals others ++ tail → items = others ∧ rest = tail
  | [], others, rest, tail, _, _, h => by
    cases others with
    | nil => exact ⟨rfl, List.append_cancel_left h⟩
    | cons next others =>
      rw [itemsText, itemsText] at h
      simp at h
  | item :: items, others, rest, tail, hrest, htail, h => by
    cases others with
    | nil =>
      rw [itemsText, itemsText] at h
      simp at h
    | cons next others =>
      rw [itemsText, itemsText] at h
      simp only [List.cons_append, List.append_assoc, List.cons.injEq, true_and] at h
      obtain ⟨rfl, hitems⟩ := text_append_inj item next (ends_itemsText items rest) (ends_itemsText others tail) h
      obtain ⟨rfl, htail⟩ := itemsText_append_inj items others hrest htail hitems
      exact ⟨rfl, htail⟩

theorem entriesText_append_inj : ∀ (entries others : List (String × JsonValue φ)) {rest tail : List Char},
    Ends rest → Ends tail → entriesText decimals entries ++ rest = entriesText decimals others ++ tail →
      entries = others ∧ rest = tail
  | [], others, rest, tail, _, _, h => by
    cases others with
    | nil => exact ⟨rfl, List.append_cancel_left h⟩
    | cons next others =>
      rw [entriesText, entriesText] at h
      simp at h
  | (key, value) :: entries, others, rest, tail, hends, htail, h => by
    cases others with
    | nil =>
      rw [entriesText, entriesText] at h
      simp at h
    | cons next others =>
      rw [entriesText, entriesText] at h
      simp only [List.cons_append, List.append_assoc, List.cons.injEq, true_and] at h
      obtain ⟨hkey, hrest⟩ := quoted_append_inj h
      obtain ⟨hvalue, hentries⟩ := text_append_inj value next.2 (ends_entriesText entries rest)
        (ends_entriesText others tail) (List.cons.inj hrest).2
      obtain ⟨rfl, htail⟩ := entriesText_append_inj entries others hends htail hentries
      exact ⟨by rw [hkey, hvalue], htail⟩

end

variable (decimals) in
theorem text_injective : Function.Injective (text decimals) := by
  intro value other h
  have hend : value.text decimals ++ [] = other.text decimals ++ [] := congrArg (· ++ []) h
  exact (text_append_inj value other ends_nil ends_nil hend).1

end Injective

/-! ## Values that may be refused -/

section Refused

variable {φ α β : Type} {write : α → Option β} {items : List α}

/-- A writer that may refuse, and writes no two things alike. -/
def Determines (write : α → Option β) : Prop := ∀ a b, write a = write b → write a ≠ none → a = b

theorem mapM_eq_some_iff {values : List β} :
    items.mapM write = some values ↔ items.map write = values.map some := by
  induction items generalizing values with
  | nil => cases values <;> simp
  | cons a items ih =>
    rw [List.mapM_cons]
    cases values with
    | nil => cases write a <;> cases items.mapM write <;> simp
    | cons value values =>
      rw [List.map_cons, List.map_cons, List.cons.injEq, ← ih]
      cases write a with
      | none => simp
      | some written => cases items.mapM write <;> simp

theorem mapM_ne_none_iff :
    items.mapM write ≠ none ↔ ∀ a ∈ items, write a ≠ none := by
  induction items with
  | nil => simp
  | cons a items ih =>
    rw [List.forall_mem_cons, ← ih, List.mapM_cons]
    cases write a with
    | none => simp
    | some written => cases items.mapM write <;> simp

theorem Determines.mapM (h : Determines write) : Determines (List.mapM write) := by
  intro items others heq hne
  obtain ⟨values, hvalues⟩ := Option.ne_none_iff_exists'.mp hne
  have hall := mapM_ne_none_iff.mp hne
  have hmap : items.map write = others.map write := by
    rw [mapM_eq_some_iff.mp hvalues, mapM_eq_some_iff.mp (heq.symm.trans hvalues)]
  clear heq hne hvalues
  induction items generalizing others with
  | nil => exact (List.map_eq_nil_iff.mp hmap.symm).symm
  | cons a items ih =>
    cases others with
    | nil => cases hmap
    | cons b others =>
      rw [List.map_cons, List.map_cons, List.cons.injEq] at hmap
      rw [List.forall_mem_cons] at hall
      rw [h a b hmap.1 hall.1, ih others hall.2 hmap.2]

/-- An array, if none of its items is refused. -/
def arrayOf (write : α → Option (JsonValue φ)) (items : List α) : Option (JsonValue φ) := (items.mapM write).map array

theorem arrayOf_ne_none_iff {write : α → Option (JsonValue φ)} :
    arrayOf write items ≠ none ↔ ∀ a ∈ items, write a ≠ none := by
  rw [arrayOf, ne_eq, Option.map_eq_none_iff]
  exact mapM_ne_none_iff

theorem Determines.arrayOf {write : α → Option (JsonValue φ)} (h : Determines write) : Determines (arrayOf write) := by
  intro items others heq hne
  have hinjective : Function.Injective (array (φ := φ)) := fun _ _ h => array.inj h
  exact h.mapM items others (Option.map_injective hinjective heq) (mt Option.map_eq_none_iff.mpr hne)

/-- A field of an object, which may be refused. -/
def writeField (field : String × Option (JsonValue φ)) : Option (String × JsonValue φ) :=
  field.2.map fun value => (field.1, value)

theorem determines_writeField : Determines (writeField (φ := φ)) := by
  rintro ⟨key, value⟩ ⟨key', value'⟩ h hne
  cases value with
  | none => exact absurd rfl hne
  | some value =>
    cases value' with
    | none => cases h
    | some value' =>
      cases h
      rfl

/-- An object, if none of its fields is refused. -/
def objectOf (fields : List (String × Option (JsonValue φ))) : Option (JsonValue φ) :=
  (fields.mapM writeField).map object

theorem objectOf_ne_none_iff {fields : List (String × Option (JsonValue φ))} :
    objectOf fields ≠ none ↔ ∀ field ∈ fields, field.2 ≠ none := by
  rw [objectOf, ne_eq, Option.map_eq_none_iff, ← ne_eq, mapM_ne_none_iff]
  simp only [writeField, ne_eq, Option.map_eq_none_iff]

/-- An object that is not refused is determined by its fields. -/
theorem determines_objectOf : Determines (objectOf (φ := φ)) := by
  intro fields others heq hne
  have hinjective : Function.Injective (object (φ := φ)) := fun _ _ h => object.inj h
  exact determines_writeField.mapM fields others (Option.map_injective hinjective heq)
    (mt Option.map_eq_none_iff.mpr hne)

end Refused

end JsonValue

end Common
