import Mathlib.Algebra.Ring.Nat
import Mathlib.Data.List.DropRight

/-!
# Lines and byte offsets of a text

A text is a list of characters. `byteLen` counts the bytes of its UTF-8 form, and `splitAtByte`
cuts it at a byte offset, which has to fall between two characters (`splitAtByte_eq_some`).
`splitInclusive` cuts it into lines that keep their newline.

`visible` is what a text shows: its lines without the blanks at their ends, and without the lines
that are blank. It is a homomorphism at the starts of lines (`visible_append`) and does not see
blanks at the end (`visible_append_blank`).
-/

namespace Common

/-! ## Byte offsets -/

/-- The length of a text in UTF-8. -/
def byteLen (text : List Char) : ℕ := (text.map Char.utf8Size).sum

/-- The text before and after a byte offset; nothing when it falls inside a character or beyond
    the end. -/
def splitAtByte : ℕ → List Char → Option (List Char × List Char)
  | 0, text => some ([], text)
  | _ + 1, [] => none
  | n + 1, c :: text =>
    if c.utf8Size ≤ n + 1 then
      (splitAtByte (n + 1 - c.utf8Size) text).map fun cut => (c :: cut.1, cut.2)
    else none

section Bytes

variable {a b text : List Char} {c : Char} {n : ℕ}

@[simp] theorem byteLen_nil : byteLen [] = 0 := rfl

@[simp] theorem byteLen_cons : byteLen (c :: text) = c.utf8Size + byteLen text := by
  rw [byteLen, List.map_cons, List.sum_cons]
  rfl

@[simp] theorem byteLen_append : byteLen (a ++ b) = byteLen a + byteLen b := by
  rw [byteLen, List.map_append, List.sum_append]
  rfl

theorem byteLen_eq_zero : byteLen text = 0 ↔ text = [] := by
  cases text with
  | nil => simp
  | cons c text =>
    have hpos := c.utf8Size_pos
    simp
    omega

/-- **A cut at a byte offset** is the one that has so many bytes before it. -/
theorem splitAtByte_eq_some : splitAtByte n text = some (a, b) ↔ text = a ++ b ∧ byteLen a = n := by
  induction text generalizing n a with
  | nil =>
    cases n with
    | zero =>
      simp only [splitAtByte, Option.some.injEq, Prod.mk.injEq]
      constructor
      · rintro ⟨rfl, rfl⟩
        exact ⟨rfl, rfl⟩
      · rintro ⟨hnil, -⟩
        exact ⟨(List.append_eq_nil_iff.mp hnil.symm).1.symm, (List.append_eq_nil_iff.mp hnil.symm).2.symm⟩
    | succ n =>
      simp only [splitAtByte, reduceCtorEq, false_iff, not_and]
      intro hnil hlen
      rw [(List.append_eq_nil_iff.mp hnil.symm).1, byteLen_nil] at hlen
      omega
  | cons c text ih =>
    cases n with
    | zero =>
      simp only [splitAtByte, Option.some.injEq, Prod.mk.injEq]
      constructor
      · rintro ⟨rfl, rfl⟩
        exact ⟨rfl, rfl⟩
      · rintro ⟨htext, hlen⟩
        rw [byteLen_eq_zero.mp hlen] at htext ⊢
        exact ⟨rfl, htext⟩
    | succ n =>
      rw [splitAtByte]
      have hpos := c.utf8Size_pos
      constructor
      · intro h
        split at h
        · next hfits =>
          obtain ⟨⟨a', b'⟩, hcut, hcons⟩ := Option.map_eq_some_iff.mp h
          cases hcons
          obtain ⟨rfl, hlen⟩ := ih.mp hcut
          refine ⟨rfl, ?_⟩
          rw [byteLen_cons, hlen]
          omega
        · cases h
      · rintro ⟨htext, hlen⟩
        cases a with
        | nil =>
          rw [byteLen_nil] at hlen
          omega
        | cons c' a' =>
          obtain ⟨rfl, rfl⟩ := List.cons.inj htext
          rw [byteLen_cons] at hlen
          rw [if_pos (by omega), ih.mpr ⟨rfl, by omega⟩]
          rfl

/-- A text is cut in one way at an offset. -/
theorem append_eq_of_byteLen {a' b' : List Char} (h : a ++ b = a' ++ b') (hlen : byteLen a = byteLen a') :
    a = a' ∧ b = b' := by
  have hcut : splitAtByte (byteLen a) (a ++ b) = some (a, b) := splitAtByte_eq_some.mpr ⟨rfl, rfl⟩
  have hcut' : splitAtByte (byteLen a) (a ++ b) = some (a', b') :=
    splitAtByte_eq_some.mpr ⟨h, hlen.symm⟩
  rw [hcut] at hcut'
  exact Prod.mk.inj (Option.some.inj hcut')

end Bytes

/-! ## Lines -/

/-- `split_inclusive('\n')`. -/
def splitInclusive : List Char → List (List Char)
  | [] => []
  | c :: text =>
    if c = '\n' then [c] :: splitInclusive text
    else match splitInclusive text with
      | [] => [[c]]
      | line :: lines => (c :: line) :: lines

/-- The text ends where a line ends. -/
def EndsLine (text : List Char) : Prop := text = [] ∨ text.getLast? = some '\n'

section Lines

variable {a b text line : List Char} {c : Char}

@[simp] theorem splitInclusive_flatten (text : List Char) : (splitInclusive text).flatten = text := by
  induction text with
  | nil => rfl
  | cons c text ih =>
    rw [splitInclusive]
    by_cases hc : c = '\n'
    · rw [if_pos hc, List.flatten_cons, ih]
      rfl
    · rw [if_neg hc]
      cases hrest : splitInclusive text with
      | nil =>
        rw [hrest] at ih
        rw [← ih]
        rfl
      | cons line lines =>
        rw [hrest] at ih
        simp only [List.flatten_cons, List.cons_append] at ih ⊢
        rw [ih]

theorem splitInclusive_eq_nil : splitInclusive text = [] ↔ text = [] := by
  constructor
  · intro h
    have hflat := splitInclusive_flatten text
    rw [h] at hflat
    exact hflat.symm
  · rintro rfl
    rfl

/-- A line comes first. -/
theorem splitInclusive_line (h : '\n' ∉ line) :
    splitInclusive (line ++ '\n' :: text) = (line ++ ['\n']) :: splitInclusive text := by
  induction line with
  | nil =>
    rw [List.nil_append, splitInclusive, if_pos rfl]
    rfl
  | cons c line ih =>
    rw [List.mem_cons, not_or] at h
    rw [List.cons_append, splitInclusive, if_neg (Ne.symm h.1), ih h.2]
    rfl

/-- A text without a newline is one line. -/
theorem splitInclusive_single (h : '\n' ∉ line) (hne : line ≠ []) : splitInclusive line = [line] := by
  induction line with
  | nil => exact absurd rfl hne
  | cons c line ih =>
    rw [List.mem_cons, not_or] at h
    rw [splitInclusive, if_neg (Ne.symm h.1)]
    cases line with
    | nil => rfl
    | cons c' line => rw [ih h.2 (List.cons_ne_nil _ _)]

/-- **The lines of a text of lines** are these lines. -/
theorem splitInclusive_lines {lines : List (List Char)} (h : ∀ line ∈ lines, '\n' ∉ line) :
    splitInclusive (lines.map (· ++ ['\n'])).flatten = lines.map (· ++ ['\n']) := by
  induction lines with
  | nil => rfl
  | cons line lines ih =>
    rw [List.map_cons, List.flatten_cons, List.append_assoc, List.singleton_append,
      splitInclusive_line (h line List.mem_cons_self), ih fun other hother => h other (List.mem_cons_of_mem _ hother)]

/-- **Cuts at the start of a line** split the lines. -/
theorem splitInclusive_append (h : EndsLine a) :
    splitInclusive (a ++ b) = splitInclusive a ++ splitInclusive b := by
  induction a with
  | nil => rfl
  | cons c a ih =>
    rw [List.cons_append, splitInclusive, splitInclusive]
    by_cases hc : c = '\n'
    · rw [if_pos hc, if_pos hc, List.cons_append]
      congr 1
      refine ih ?_
      rcases h with h | h
      · cases h
      · cases a with
        | nil => exact .inl rfl
        | cons c' a => exact .inr (by rwa [List.getLast?_cons_cons] at h)
    · rw [if_neg hc, if_neg hc]
      cases a with
      | nil =>
        rcases h with h | h
        · cases h
        · cases h
          exact absurd rfl hc
      | cons c' a =>
        have hends : EndsLine (c' :: a) := by
          rcases h with h | h
          · cases h
          · exact .inr (by rwa [List.getLast?_cons_cons] at h)
        rw [ih hends]
        cases hrest : splitInclusive (c' :: a) with
        | nil =>
          rw [splitInclusive_eq_nil] at hrest
          cases hrest
        | cons line lines => rfl

/-- What a line looks like: a newline is at its end only. -/
theorem of_mem_splitInclusive (h : line ∈ splitInclusive text) : line ≠ [] ∧ '\n' ∉ line.dropLast := by
  induction text generalizing line with
  | nil => cases h
  | cons c text ih =>
    rw [splitInclusive] at h
    split at h
    · rcases List.mem_cons.mp h with rfl | h
      · exact ⟨List.cons_ne_nil _ _, by simp⟩
      · exact ih h
    · next hc =>
      cases hrest : splitInclusive text with
      | nil =>
        rw [hrest] at h
        rw [List.mem_singleton.mp h]
        exact ⟨List.cons_ne_nil _ _, by simp⟩
      | cons first lines =>
        rw [hrest] at h ih
        rcases List.mem_cons.mp h with rfl | h
        · obtain ⟨hne, hnot⟩ := ih List.mem_cons_self
          refine ⟨List.cons_ne_nil _ _, ?_⟩
          cases first with
          | nil => exact absurd rfl hne
          | cons c' first =>
            rw [List.dropLast_cons_cons, List.mem_cons, not_or]
            exact ⟨Ne.symm hc, hnot⟩
        · exact ih (List.mem_cons_of_mem _ h)

/-- Every line but the last ends with a newline, so a cut between two lines is the start of one. -/
theorem endsLine_take (text : List Char) {n : ℕ} (h : n < (splitInclusive text).length) :
    EndsLine ((splitInclusive text).take n).flatten := by
  induction text generalizing n with
  | nil => cases h
  | cons c text ih =>
    rw [splitInclusive] at h ⊢
    cases n with
    | zero => exact .inl rfl
    | succ n =>
      split at h
      · next hc =>
        rw [if_pos hc, List.take_succ_cons, List.flatten_cons]
        rcases ih (by simpa using h) with hnil | hlast
        · rw [hnil, hc]
          exact .inr rfl
        · right
          rw [List.getLast?_append, hlast]
          rfl
      · next hc =>
        rw [if_neg hc]
        cases hrest : splitInclusive text with
        | nil =>
          rw [hrest] at h
          simp at h
        | cons line lines =>
          rw [hrest] at h ih
          have hlt : n + 1 < (line :: lines).length := by simpa using h
          rw [List.take_succ_cons, List.flatten_cons]
          rcases ih hlt with hnil | hlast
          · have hline : line ∈ splitInclusive text := by
              rw [hrest]
              exact List.mem_cons_self
            rw [List.take_succ_cons, List.flatten_cons] at hnil
            exact absurd (List.append_eq_nil_iff.mp hnil).1 (of_mem_splitInclusive hline).1
          · right
            rw [List.take_succ_cons, List.flatten_cons] at hlast
            rw [List.cons_append, List.getLast?_cons, hlast]
            rfl

/-- The lines after the first one are the lines of the text after it. -/
theorem splitInclusive_eq_cons {lines : List (List Char)} (h : splitInclusive text = line :: lines) :
    splitInclusive lines.flatten = lines ∧ splitInclusive line = [line] ∧
      (lines ≠ [] → ∃ init, line = init ++ ['\n'] ∧ '\n' ∉ init) := by
  induction text generalizing line lines with
  | nil => cases h
  | cons c text ih =>
    rw [splitInclusive] at h
    by_cases hc : c = '\n'
    · rw [if_pos hc] at h
      obtain ⟨rfl, rfl⟩ := List.cons.inj h
      refine ⟨by rw [splitInclusive_flatten], ?_, fun _ => ⟨[], by rw [hc]; rfl, by simp⟩⟩
      rw [splitInclusive, if_pos hc]
      rfl
    · rw [if_neg hc] at h
      cases hrest : splitInclusive text with
      | nil =>
        rw [hrest] at h
        obtain ⟨rfl, rfl⟩ := List.cons.inj h
        refine ⟨rfl, ?_, fun hne => absurd rfl hne⟩
        rw [splitInclusive, if_neg hc]
        rfl
      | cons first rest =>
        rw [hrest] at h
        obtain ⟨rfl, rfl⟩ := List.cons.inj h
        obtain ⟨hlines, hfirst, hends⟩ := ih hrest
        refine ⟨hlines, ?_, fun hne => ?_⟩
        · rw [splitInclusive, if_neg hc, hfirst]
        · obtain ⟨init, rfl, hinit⟩ := hends hne
          refine ⟨c :: init, rfl, ?_⟩
          rw [List.mem_cons, not_or]
          exact ⟨Ne.symm hc, hinit⟩

/-- **Lines that follow each other** are the lines of their text: from a line on, -/
theorem splitInclusive_drop (text : List Char) (n : ℕ) :
    splitInclusive ((splitInclusive text).drop n).flatten = (splitInclusive text).drop n := by
  induction n generalizing text with
  | zero => rw [List.drop_zero, splitInclusive_flatten]
  | succ n ih =>
    cases htext : splitInclusive text with
    | nil => rfl
    | cons line lines =>
      have hlines := (splitInclusive_eq_cons htext).1
      rw [List.drop_succ_cons, ← hlines]
      exact ih lines.flatten

/-- and up to one. -/
theorem splitInclusive_take (text : List Char) (n : ℕ) :
    splitInclusive ((splitInclusive text).take n).flatten = (splitInclusive text).take n := by
  induction n generalizing text with
  | zero => rfl
  | succ n ih =>
    cases htext : splitInclusive text with
    | nil => rfl
    | cons line lines =>
      obtain ⟨hlines, hline, hends⟩ := splitInclusive_eq_cons htext
      rw [List.take_succ_cons, List.flatten_cons]
      cases hrest : lines with
      | nil => rw [List.take_nil, List.flatten_nil, List.append_nil, hline]
      | cons second rest =>
        obtain ⟨init, rfl, hinit⟩ := hends (by simp [hrest])
        have htake := ih lines.flatten
        rw [hlines] at htake
        rw [List.append_assoc, List.singleton_append, splitInclusive_line hinit, ← hrest, htake]

theorem EndsLine.of_append (h : EndsLine (a ++ b)) : EndsLine b := by
  by_cases hb : b = []
  · exact .inl hb
  · rcases h with hnil | hlast
    · exact .inl (List.append_eq_nil_iff.mp hnil).2
    · rw [List.getLast?_append_of_ne_nil _ hb] at hlast
      exact .inr hlast

end Lines

/-! ## What a text shows -/

section Visible

variable (blank : Char → Bool)

/-- The lines without the blanks at their ends, less those that are blank. -/
def visibleLines (lines : List (List Char)) : List (List Char) :=
  (lines.map (List.rdropWhile blank)).filter (· ≠ [])

def visible (text : List Char) : List (List Char) := visibleLines blank (splitInclusive text)

/-- A line without its line ending. -/
def stripEnding (line : List Char) : List Char :=
  if line.getLast? = some '\n' then
    if line.dropLast.getLast? = some '\r' then line.dropLast.dropLast else line.dropLast
  else line

/-- The lines of a text (`str::lines`). -/
def textLines (text : List Char) : List (List Char) := (splitInclusive text).map stripEnding

variable {blank} {a b gap line : List Char} {c : Char}

@[simp] theorem visibleLines_append (lines lines' : List (List Char)) :
    visibleLines blank (lines ++ lines') = visibleLines blank lines ++ visibleLines blank lines' := by
  rw [visibleLines, List.map_append, List.filter_append]
  rfl

theorem visibleLines_cons (line : List Char) (lines : List (List Char)) :
    visibleLines blank (line :: lines) = visibleLines blank [line] ++ visibleLines blank lines :=
  visibleLines_append [line] lines

theorem visible_append (h : EndsLine a) : visible blank (a ++ b) = visible blank a ++ visible blank b := by
  rw [visible, splitInclusive_append h, visibleLines_append]
  rfl

theorem rdropWhile_eq_nil_of_blank (h : ∀ c ∈ line, blank c = true) : line.rdropWhile blank = [] :=
  List.rdropWhile_eq_nil_iff.mpr h

theorem visibleLines_blank {lines : List (List Char)} (h : ∀ line ∈ lines, ∀ c ∈ line, blank c = true) :
    visibleLines blank lines = [] := by
  refine List.filter_eq_nil_iff.mpr fun line hline => ?_
  obtain ⟨raw, hraw, rfl⟩ := List.mem_map.mp hline
  simp [rdropWhile_eq_nil_of_blank (h raw hraw)]

/-- What is left of a line depends on its first character and on what is left of the others. -/
theorem rdropWhile_cons (c : Char) (line : List Char) :
    (c :: line).rdropWhile blank =
      if line.rdropWhile blank = [] then [c].rdropWhile blank else c :: line.rdropWhile blank := by
  induction line using List.reverseRecOn with
  | nil => simp
  | append_singleton line last ih =>
    by_cases hlast : blank last = true
    · rw [List.rdropWhile_concat_pos _ _ _ hlast, ← List.cons_append, List.rdropWhile_concat_pos _ _ _ hlast, ih]
    · rw [List.rdropWhile_concat_neg _ _ _ hlast, ← List.cons_append, List.rdropWhile_concat_neg _ _ _ hlast]
      simp

/-- Blanks at the end of a text show nothing. -/
theorem visible_append_blank (h : ∀ c ∈ gap, blank c = true) : visible blank (a ++ gap) = visible blank a := by
  have hgap : ∀ line ∈ splitInclusive gap, line.rdropWhile blank = [] := by
    intro line hline
    refine rdropWhile_eq_nil_of_blank fun c hc => h c ?_
    rw [← splitInclusive_flatten gap]
    exact List.mem_flatten.mpr ⟨line, hline, hc⟩
  have hlines : ∃ extra : List (List Char), (∀ line ∈ extra, line = []) ∧
      (splitInclusive (a ++ gap)).map (List.rdropWhile blank) =
        (splitInclusive a).map (List.rdropWhile blank) ++ extra := by
    induction a with
    | nil =>
      refine ⟨(splitInclusive gap).map (List.rdropWhile blank), fun line hline => ?_, rfl⟩
      obtain ⟨raw, hraw, rfl⟩ := List.mem_map.mp hline
      exact hgap raw hraw
    | cons c a ih =>
      obtain ⟨extra, hextra, hmap⟩ := ih
      rw [List.cons_append, splitInclusive, splitInclusive]
      by_cases hc : c = '\n'
      · rw [if_pos hc, if_pos hc, List.map_cons, List.map_cons, hmap]
        exact ⟨extra, hextra, rfl⟩
      · rw [if_neg hc, if_neg hc]
        cases ha : splitInclusive a with
        | nil =>
          rw [splitInclusive_eq_nil.mp ha, List.nil_append]
          cases hrest : splitInclusive gap with
          | nil => exact ⟨[], by simp, rfl⟩
          | cons first lines =>
            rw [hrest] at hgap
            refine ⟨lines.map (List.rdropWhile blank), fun line hline => ?_, ?_⟩
            · obtain ⟨raw, hraw, rfl⟩ := List.mem_map.mp hline
              exact hgap raw (List.mem_cons_of_mem _ hraw)
            · simp [rdropWhile_cons c first, hgap first List.mem_cons_self]
        | cons first lines =>
          rw [ha, List.map_cons, List.cons_append] at hmap
          cases hrest : splitInclusive (a ++ gap) with
          | nil =>
            rw [hrest] at hmap
            cases hmap
          | cons first' lines' =>
            rw [hrest, List.map_cons] at hmap
            obtain ⟨hfirst, hlines⟩ := List.cons.inj hmap
            refine ⟨extra, hextra, ?_⟩
            simp only [List.map_cons, List.cons_append]
            rw [rdropWhile_cons c first', rdropWhile_cons c first, hfirst, hlines]
  obtain ⟨extra, hextra, hmap⟩ := hlines
  rw [visible, visibleLines, hmap, List.filter_append]
  have hnone : extra.filter (· ≠ []) = [] := List.filter_eq_nil_iff.mpr fun line hline => by simp [hextra line hline]
  rw [hnone, List.append_nil]
  rfl

/-- The ending of a line that was put there. -/
theorem stripEnding_append_newline (h : line.getLast? ≠ some '\r') : stripEnding (line ++ ['\n']) = line := by
  rw [stripEnding, List.getLast?_concat, if_pos rfl, List.dropLast_concat, if_neg h]

/-- Line endings are not seen. -/
theorem rdropWhile_stripEnding (hn : blank '\n' = true) (hr : blank '\r' = true) :
    (stripEnding line).rdropWhile blank = line.rdropWhile blank := by
  have hlast : ∀ {text : List Char} {c : Char}, text.getLast? = some c → blank c = true →
      text.dropLast.rdropWhile blank = text.rdropWhile blank := by
    intro text c htext hc
    obtain ⟨init, rfl⟩ := List.getLast?_eq_some_iff.mp htext
    rw [List.dropLast_concat, List.rdropWhile_concat_pos _ _ _ hc]
  rw [stripEnding]
  split
  · next hnewline =>
    split
    · next hreturn => rw [hlast hreturn hr, hlast hnewline hn]
    · exact hlast hnewline hn
  · rfl

theorem visibleLines_stripEnding (hn : blank '\n' = true) (hr : blank '\r' = true)
    (lines : List (List Char)) : visibleLines blank (lines.map stripEnding) = visibleLines blank lines := by
  rw [visibleLines, List.map_map]
  congr 1
  exact List.map_congr_left fun line _ => rdropWhile_stripEnding hn hr

end Visible

end Common
