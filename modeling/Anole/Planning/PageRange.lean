import Anole.Common.Split
import Anole.Planning.Pdf

/-!
# Page ranges

The planner reads a page range with `parse_page_range`, and hands the text that
`normalize_page_range_for_qpdf` makes of it to qpdf, which reads it by a stricter grammar. The two
readings agree, and the pages are in document order, exactly when the parts of the range are in
ascending order and are spelled with digits, hyphens and spaces only (`page_range_iff`).
-/

open Common Anole.Common

namespace Anole.Planning

/-! ## What a range means -/

/-- A part of a page range. -/
structure PagePart where
  first : ℕ
  last : ℕ
  ordered : first ≤ last

namespace PagePart

/-- The number of its pages. -/
def count (part : PagePart) : ℕ := part.last - part.first + 1

/-- Its pages. -/
def pages (part : PagePart) : List ℕ := List.range' part.first part.count

/-- What a part means to the planner: one page, or two with a hyphen between; signs and blanks around
    the two are allowed. -/
def read (text : String) : Option PagePart :=
  match splitText '-' text with
  | [single] => (parseU32 single).map fun page => ⟨page, page, le_rfl⟩
  | [first, last] =>
    match parseU32 (trim first), parseU32 (trim last) with
    | some first, some last => if h : first ≤ last then some ⟨first, last, h⟩ else none
    | _, _ => none
  | _ => none

@[simp] theorem mem_pages {part : PagePart} {page : ℕ} : page ∈ part.pages ↔ part.first ≤ page ∧ page ≤ part.last := by
  have := part.ordered
  rw [pages, count, List.mem_range'_1]
  omega

@[simp] theorem length_pages (part : PagePart) : part.pages.length = part.count := List.length_range'

theorem pairwise_pages (part : PagePart) : part.pages.Pairwise (· ≤ ·) := by
  apply List.Pairwise.imp Nat.le_of_lt
  exact List.pairwise_lt_range'

end PagePart

/-- The texts of the parts of a range that are not empty. -/
def rangeTexts (range : String) : List String := ((splitText ',' range).map trim).filter fun part => part ≠ ""

/-- The parts of a range. -/
def readRange (range : String) : Option (List PagePart) := (rangeTexts range).mapM PagePart.read

/-! ## What qpdf makes of a range -/

/-- A number without a sign. -/
def strictNumber (text : List Char) : Option ℕ :=
  if text ≠ [] ∧ text.all Char.isDigit = true then
    some (text.foldl (fun value c => 10 * value + (c.toNat - '0'.toNat)) 0)
  else none

/-- The pages from one to another, in this order. -/
def pagesBetween (first last : ℕ) : List ℕ :=
  if first ≤ last then List.range' first (last - first + 1) else (List.range' last (first - last + 1)).reverse

/-- A part in the grammar of qpdf. -/
def strictPart (text : List Char) : Option (List ℕ) :=
  match text.splitOn '-' with
  | [single] => (strictNumber single).map fun page => [page]
  | [first, last] =>
    match strictNumber first, strictNumber last with
    | some first, some last => some (pagesBetween first last)
    | _, _ => none
  | _ => none

/-- The pages of a range in the grammar of qpdf. -/
def qpdfPages (text : String) : Option (List ℕ) := ((text.toList.splitOn ',').mapM strictPart).map List.flatten

/-- A part that is spelled with digits, hyphens and spaces. -/
def PlainPart (text : String) : Prop := ∀ c ∈ text.toList, c.isDigit = true ∨ c = '-' ∨ c = ' '

instance (text : String) : Decidable (PlainPart text) :=
  List.decidableBAll (fun c : Char => c.isDigit = true ∨ c = '-' ∨ c = ' ') text.toList

/-! ## The reading of the planner -/

theorem parsePart_eq (part : String) : parsePart part =
    if trim part = "" then .ok []
    else ((PagePart.read (trim part)).map PagePart.pages).elim (.error invalidPageRange) .ok := by
  unfold parsePart PagePart.read
  dsimp only
  split_ifs with hempty
  · rfl
  generalize splitText '-' (trim part) = pieces
  match pieces with
  | [single] =>
    dsimp only
    cases parseU32 single with
    | none => rfl
    | some page => simp [PagePart.pages, PagePart.count]
  | [first, last] =>
    dsimp only
    cases parseU32 (trim first) with
    | none => rfl
    | some first =>
      cases parseU32 (trim last) with
      | none => rfl
      | some last =>
        dsimp only
        by_cases horder : first ≤ last
        · rw [if_neg (by omega), dif_pos horder]
          rfl
        · rw [if_pos (by omega), dif_neg horder]
          rfl
  | [] => rfl
  | _ :: _ :: _ :: _ => rfl

/-- The parts that the planner has read are those that are not empty, in order. -/
theorem readRange_of_mapM {texts : List String} {lists : List (List ℕ)} (h : texts.mapM parsePart = .ok lists) :
    ∃ parts, ((texts.map trim).filter fun part => part ≠ "").mapM PagePart.read = some parts ∧
      lists.flatten = parts.flatMap PagePart.pages := by
  induction mapM_eq_ok.mp h with
  | nil => exact ⟨[], rfl, rfl⟩
  | @cons text pages texts lists hpart hrest ih =>
    obtain ⟨parts, hparts, hflat⟩ := ih (mapM_eq_ok.mpr hrest)
    rw [parsePart_eq] at hpart
    rw [List.map_cons]
    by_cases hempty : trim text = ""
    · rw [if_pos hempty] at hpart
      rw [List.filter_cons_of_neg (by simpa using hempty), ← Except.ok.inj hpart]
      exact ⟨parts, hparts, hflat⟩
    · rw [if_neg hempty] at hpart
      obtain ⟨part, hread, rfl⟩ := Option.map_eq_some_iff.mp (elim_eq_ok.mp hpart)
      refine ⟨part :: parts, ?_, ?_⟩
      · rw [List.filter_cons_of_pos (by simpa using hempty), List.mapM_cons, hread, hparts]
        rfl
      · rw [List.flatten_cons, hflat, List.flatMap_cons]

theorem le_foldl_max {numbers : List ℕ} {start n : ℕ} (h : n ≤ start ∨ n ∈ numbers) : n ≤ numbers.foldl max start := by
  induction numbers generalizing start with
  | nil => simpa using h
  | cons m numbers ih =>
    rw [List.foldl_cons]
    apply ih
    rcases h with h | h
    · exact .inl (h.trans (le_max_left _ _))
    · rcases List.mem_cons.mp h with rfl | h
      · exact .inl (le_max_right _ _)
      · exact .inr h

theorem parsePageRange_eq_ok {range : String} {pageCount total : ℕ} {pages : List ℕ}
    (h : parsePageRange range pageCount = .ok (pages, total)) :
    (∃ parts, readRange range = some parts ∧ pages = parts.flatMap PagePart.pages) ∧
      (∀ page ∈ pages, 1 ≤ page ∧ page ≤ pageCount) ∧ pages ≠ [] ∧ total = clampU32 pages.length := by
  obtain ⟨lists, hlists, h⟩ := bind_eq_ok.mp h
  obtain ⟨_, hnonempty, h⟩ := bind_eq_ok.mp h
  obtain ⟨_, hbounds, h⟩ := bind_eq_ok.mp h
  rw [failIf_eq_ok] at hnonempty hbounds
  obtain ⟨rfl, rfl⟩ := Prod.mk.inj (Except.ok.inj h)
  obtain ⟨parts, hparts, hflat⟩ := readRange_of_mapM hlists
  refine ⟨⟨parts, hparts, hflat⟩, fun page hpage => ?_, hnonempty, rfl⟩
  obtain ⟨hmaximum, hzero⟩ := not_or.mp hbounds
  have hle : page ≤ lists.flatten.foldl max 0 := le_foldl_max (.inr hpage)
  have hpos : page ≠ 0 := by
    rintro rfl
    exact hzero hpage
  omega

/-! ## The reading of qpdf -/

theorem toList_trim (text : String) : (trim text).toList =
    ((text.toList.dropWhile isWhitespace).reverse.dropWhile isWhitespace).reverse := String.toList_ofList

theorem filter_dropWhile {α : Type} {p q : α → Bool} {l : List α} (h : ∀ a ∈ l, p a = true → q a = false) :
    (l.dropWhile p).filter q = l.filter q := by
  induction l with
  | nil => rfl
  | cons a l ih =>
    rw [List.forall_mem_cons] at h
    by_cases ha : p a = true
    · rw [List.dropWhile_cons_of_pos ha, ih h.2, List.filter_cons_of_neg (by simp [h.1 ha])]
    · rw [List.dropWhile_cons_of_neg ha]

/-- A number that is spelled with digits and spaces. -/
def PlainNumber (text : String) : Prop := ∀ c ∈ text.toList, c.isDigit = true ∨ c = ' '

instance (text : String) : Decidable (PlainNumber text) :=
  List.decidableBAll (fun c : Char => c.isDigit = true ∨ c = ' ') text.toList

theorem not_isWhitespace_of_isDigit {c : Char} (h : c.isDigit = true) : isWhitespace c = false := by
  have hval : 48 ≤ c.toNat ∧ c.toNat ≤ 57 := by
    simpa [Char.isDigit, UInt32.le_iff_toNat_le] using h
  simp only [isWhitespace, decide_eq_false_iff_not]
  omega

variable {text : String}

/-- Spaces around a plain number are all that there is to trim. -/
theorem filter_trim (h : PlainNumber text) :
    (trim text).toList.filter (fun c => c ≠ ' ') = text.toList.filter fun c => c ≠ ' ' := by
  have hblank : ∀ c ∈ text.toList, isWhitespace c = true → decide (c ≠ ' ') = false := by
    intro c hc hspace
    rcases h c hc with hdigit | rfl
    · rw [not_isWhitespace_of_isDigit hdigit] at hspace
      contradiction
    · rfl
  rw [toList_trim, List.filter_reverse, filter_dropWhile, ← List.filter_reverse, List.reverse_reverse,
    filter_dropWhile hblank]
  intro c hc
  exact hblank c (List.dropWhile_subset _ (List.mem_reverse.mp hc))

/-- What a number of the planner is to qpdf, once its spaces are removed. -/
theorem strictNumber_filter {n : ℕ} (h : parseU32 (trim text) = some n) :
    strictNumber (text.toList.filter fun c => c ≠ ' ') = if PlainNumber text then some n else none := by
  split_ifs with hplain
  · have hsame := filter_trim hplain
    have hchars : ∀ c ∈ (trim text).toList, c.isDigit = true ∨ c = ' ' := by
      intro c hc
      rw [toList_trim] at hc
      have hc' := List.dropWhile_subset _ (List.mem_reverse.mp hc)
      exact hplain c (List.dropWhile_subset _ (List.mem_reverse.mp hc'))
    rw [← hsame]
    unfold parseU32 at h
    generalize (trim text).toList = cs at h hchars
    split at h
    · exact absurd (hchars '+' List.mem_cons_self) (by decide)
    · dsimp only at h
      rw [Option.ite_none_right_eq_some, Option.some.injEq] at h
      obtain ⟨⟨hne, hdigits, _⟩, hvalue⟩ := h
      have hkeep : cs.filter (fun c => c ≠ ' ') = cs := by
        rw [List.filter_eq_self]
        intro c hc
        have hdigit := List.all_eq_true.mp hdigits c hc
        have hspace : c ≠ ' ' := by
          rintro rfl
          exact absurd hdigit (by decide)
        simpa using hspace
      rw [hkeep, strictNumber, if_pos ⟨hne, hdigits⟩, hvalue]
  · simp only [PlainNumber, not_forall, not_or] at hplain
    obtain ⟨c, hc, hdigit, hspace⟩ := hplain
    rw [strictNumber, if_neg]
    rintro ⟨_, hall⟩
    exact hdigit (List.all_eq_true.mp hall c (List.mem_filter.mpr ⟨hc, by simpa using hspace⟩))

theorem map_toList_splitText (separator : Char) (text : String) :
    (splitText separator text).map String.toList = text.toList.splitOn separator := by
  rw [splitText, List.map_map]
  simp [Function.comp_def]

theorem plainPart_append {text first last : String} (htext : text.toList = first.toList ++ '-' :: last.toList)
    (hfirst : '-' ∉ first.toList) (hlast : '-' ∉ last.toList) :
    PlainPart text ↔ PlainNumber first ∧ PlainNumber last := by
  have hpiece : ∀ piece : String, '-' ∉ piece.toList →
      ((∀ c ∈ piece.toList, c.isDigit = true ∨ c = '-' ∨ c = ' ') ↔ PlainNumber piece) := by
    intro piece hdash
    refine forall₂_congr fun c hc => ?_
    have hne : c ≠ '-' := fun heq => hdash (heq ▸ hc)
    simp [hne]
  rw [PlainPart, htext, List.forall_mem_append, List.forall_mem_cons, hpiece first hfirst, hpiece last hlast]
  simp

/-- What a part of the planner is to qpdf, once its spaces are removed. -/
theorem strictPart_filter {part : PagePart} (htrim : trim text = text)
    (h : PagePart.read text = some part) :
    strictPart (text.toList.filter fun c => c ≠ ' ') = if PlainPart text then some part.pages else none := by
  have hsplit : (text.toList.filter fun c => c ≠ ' ').splitOn '-' =
      (text.toList.splitOn '-').map (List.filter fun c => c ≠ ' ') := splitOn_filter (by decide) text.toList
  have hpieces := map_toList_splitText '-' text
  unfold PagePart.read at h
  split at h
  · next single hsingle =>
    rw [hsingle] at hpieces
    have htext : single = text := String.toList_injective (eq_of_splitOn_singleton hpieces.symm).symm
    obtain ⟨page, hpage, rfl⟩ := Option.map_eq_some_iff.mp h
    have hnumber : parseU32 (trim text) = some page := by rw [htrim, ← htext, hpage]
    have hmem : text.toList ∈ text.toList.splitOn '-' := by
      rw [← hpieces, htext]
      exact List.mem_singleton_self _
    have hdash := not_mem_of_mem_splitOn hmem
    have hplain : PlainPart text ↔ PlainNumber text := by
      refine forall₂_congr fun c hc => ?_
      have hne : c ≠ '-' := fun heq => hdash (heq ▸ hc)
      simp [hne]
    rw [strictPart, hsplit, ← hpieces]
    simp only [List.map_cons, List.map_nil, htext, strictNumber_filter hnumber, hplain]
    split_ifs
    · simp [PagePart.pages, PagePart.count]
    · rfl
  · next first last hpair =>
    rw [hpair] at hpieces
    have htext := eq_append_of_splitOn_pair hpieces.symm
    have hplain : PlainPart text ↔ PlainNumber first ∧ PlainNumber last := by
      have hfirst : first.toList ∈ text.toList.splitOn '-' := by
        rw [← hpieces]
        exact List.mem_cons_self
      have hlast : last.toList ∈ text.toList.splitOn '-' := by
        rw [← hpieces]
        exact List.mem_cons_of_mem _ (List.mem_singleton_self _)
      exact plainPart_append htext (not_mem_of_mem_splitOn hfirst) (not_mem_of_mem_splitOn hlast)
    cases hparse : parseU32 (trim first) with
    | none => simp [hparse] at h
    | some m =>
      cases hparse' : parseU32 (trim last) with
      | none => simp [hparse, hparse'] at h
      | some n =>
        rw [hparse, hparse'] at h
        dsimp only at h
        split_ifs at h with horder
        rw [← Option.some.inj h, strictPart, hsplit, ← hpieces]
        simp only [List.map_cons, List.map_nil, strictNumber_filter hparse, strictNumber_filter hparse', hplain]
        by_cases hfirst : PlainNumber first
        · by_cases hlast : PlainNumber last
          · simp [hfirst, hlast, pagesBetween, horder, PagePart.pages, PagePart.count]
          · simp [hfirst, hlast]
        · simp [hfirst]
  · contradiction

variable {parts : List PagePart}

theorem mapM_strictPart {texts : List String} (htrim : ∀ text ∈ texts, trim text = text)
    (h : texts.mapM PagePart.read = some parts) :
    (texts.map fun text => text.toList.filter fun c => c ≠ ' ').mapM strictPart =
      if ∀ text ∈ texts, PlainPart text then some (parts.map PagePart.pages) else none := by
  induction texts generalizing parts with
  | nil =>
    rw [← Option.some.inj h]
    simp
  | cons text texts ih =>
    rw [List.forall_mem_cons] at htrim
    rw [List.mapM_cons] at h
    obtain ⟨part, hread, h⟩ := Option.bind_eq_some_iff.mp h
    obtain ⟨rest, hrest, h⟩ := Option.bind_eq_some_iff.mp h
    rw [← Option.some.inj h, List.map_cons, List.mapM_cons, strictPart_filter htrim.1 hread, ih htrim.2 hrest]
    simp only [List.forall_mem_cons]
    by_cases hplain : PlainPart text
    · by_cases hall : ∀ text ∈ texts, PlainPart text
      · rw [if_pos hplain, if_pos hall, if_pos ⟨hplain, hall⟩]
        rfl
      · rw [if_pos hplain, if_neg hall, if_neg fun h => hall h.2]
        rfl
    · have hboth : ¬ (PlainPart text ∧ ∀ text ∈ texts, PlainPart text) := fun h => hplain h.1
      rw [if_neg hplain, if_neg hboth]
      rfl

theorem mem_rangeTexts {range text : String} (h : text ∈ rangeTexts range) :
    trim text = text ∧ ',' ∉ text.toList := by
  obtain ⟨piece, hpiece, rfl⟩ := List.mem_map.mp (List.mem_of_mem_filter h)
  refine ⟨trim_trim piece, fun hcomma => ?_⟩
  rw [toList_trim] at hcomma
  have hcomma' := List.dropWhile_subset _ (List.mem_reverse.mp hcomma)
  have hmem : piece.toList ∈ range.toList.splitOn ',' := by
    rw [← map_toList_splitText]
    exact List.mem_map_of_mem hpiece
  exact not_mem_of_mem_splitOn hmem (List.dropWhile_subset _ (List.mem_reverse.mp hcomma'))

theorem qpdfPages_normalize {range : String} (h : readRange range = some parts)
    (hne : parts ≠ []) : ∃ text, normalizePageRangeForQpdf range = .ok text ∧ qpdfPages text =
      if ∀ text ∈ rangeTexts range, PlainPart text then some (parts.flatMap PagePart.pages) else none := by
  have htexts : rangeTexts range ≠ [] := by
    intro hnil
    rw [readRange, hnil] at h
    exact hne (Option.some.inj h).symm
  have hnormal : normalizePageRangeForQpdf range = .ok (String.intercalate ","
      ((rangeTexts range).map fun part => String.ofList (part.toList.filter fun c => c ≠ ' '))) := by
    rw [normalizePageRangeForQpdf, bind_eq_ok]
    exact ⟨(), failIf_eq_ok.mpr htexts, rfl⟩
  have hcomma : ",".toList = [','] := by decide
  have hpieces : ∀ piece ∈ (rangeTexts range).map fun text => text.toList.filter (fun c => c ≠ ' '), ',' ∉ piece := by
    intro piece hpiece hmem
    obtain ⟨text, htext, rfl⟩ := List.mem_map.mp hpiece
    exact (mem_rangeTexts htext).2 (List.mem_of_mem_filter hmem)
  refine ⟨_, hnormal, ?_⟩
  rw [qpdfPages, String.toList_intercalate, List.map_map, hcomma]
  simp only [Function.comp_def, String.toList_ofList]
  rw [List.splitOn_intercalate ',' hpieces (by simpa using htexts),
    mapM_strictPart (fun text htext => (mem_rangeTexts htext).1) h]
  split_ifs
  · rw [Option.map_some, List.flatMap_def]
  · rfl

/-! ## The two readings -/

/-- The planner and qpdf agree on a range that the planner has accepted: the pages are those that the
    range denotes, in document order and within the document, and qpdf selects the same pages, as many
    as the plan expects. -/
structure RangeAgrees (range : String) (pageCount : ℕ) (pages : List ℕ) (total : ℕ) : Prop where
  denoted : ∃ parts, readRange range = some parts ∧ pages.Perm (parts.flatMap PagePart.pages)
  ascending : pages.Pairwise (· ≤ ·)
  within : ∀ page ∈ pages, 1 ≤ page ∧ page ≤ pageCount
  qpdf : ∃ text, normalizePageRangeForQpdf range = .ok text ∧ qpdfPages text = some pages
  length : pages.length = total

/-- A range whose parts are in ascending order, spelled with digits, hyphens and spaces, with a number
    of pages that is a `u32`. -/
structure PlainRange (range : String) : Prop where
  spelled : ∀ text ∈ rangeTexts range, PlainPart text
  ordered : ∃ parts, readRange range = some parts ∧ parts.Pairwise (fun a b => a.last ≤ b.first) ∧
    (parts.map PagePart.count).sum ≤ u32Max

theorem pairwise_flatMap_pages :
    (parts.flatMap PagePart.pages).Pairwise (· ≤ ·) ↔ parts.Pairwise fun a b => a.last ≤ b.first := by
  rw [List.pairwise_flatMap]
  simp only [PagePart.pairwise_pages, implies_true, true_and, PagePart.mem_pages]
  refine List.Pairwise.iff fun a b => ⟨fun h => ?_, fun h x hx y hy => ?_⟩
  · exact h _ ⟨a.ordered, le_rfl⟩ _ ⟨le_rfl, b.ordered⟩
  · exact hx.2.trans (h.trans hy.1)

theorem length_flatMap_pages (parts : List PagePart) :
    (parts.flatMap PagePart.pages).length = (parts.map PagePart.count).sum := by
  rw [List.length_flatMap]
  simp only [PagePart.length_pages]

theorem clampU32_eq_iff {n : ℕ} : n = clampU32 n ↔ n ≤ u32Max := by
  rw [clampU32]
  omega

/-- **Page ranges.** A range that the planner accepts means the same to qpdf, in document order,
exactly when it is plain. -/
theorem page_range_iff {range : String} {pageCount total : ℕ} {pages : List ℕ}
    (h : parsePageRange range pageCount = .ok (pages, total)) :
    RangeAgrees range pageCount pages total ↔ PlainRange range := by
  obtain ⟨⟨parts, hread, rfl⟩, hwithin, hne, rfl⟩ := parsePageRange_eq_ok h
  have hparts : parts ≠ [] := by
    rintro rfl
    exact hne rfl
  obtain ⟨text, hnormal, hqpdf⟩ := qpdfPages_normalize hread hparts
  constructor
  · intro hagrees
    obtain ⟨text', hnormal', hpages⟩ := hagrees.qpdf
    have hsame : text = text' := Except.ok.inj (hnormal.symm.trans hnormal')
    refine ⟨?_, parts, hread, pairwise_flatMap_pages.mp hagrees.ascending, ?_⟩
    · by_contra hspelled
      rw [← hsame, hqpdf, if_neg hspelled] at hpages
      contradiction
    · rw [← length_flatMap_pages]
      exact clampU32_eq_iff.mp hagrees.length
  · rintro ⟨hspelled, parts', hread', hordered, hcount⟩
    obtain rfl : parts = parts' := Option.some.inj (hread.symm.trans hread')
    refine ⟨⟨parts, hread, List.Perm.refl _⟩, pairwise_flatMap_pages.mpr hordered, hwithin, ⟨text, hnormal, ?_⟩, ?_⟩
    · rw [hqpdf, if_pos hspelled]
    · rw [← length_flatMap_pages] at hcount
      exact clampU32_eq_iff.mpr hcount

namespace Sample

theorem page_range_two_parts : parsePageRange "1-2, 4" 4 = .ok ([1, 2, 4], 3) ∧
    (RangeAgrees "1-2, 4" 4 [1, 2, 4] 3 ↔ PlainRange "1-2, 4") := by
  have hparse : parsePageRange "1-2, 4" 4 = .ok ([1, 2, 4], 3) := by rfl
  exact ⟨hparse, page_range_iff hparse⟩

/-- Pages in the order of the request, and a tab that qpdf is handed. -/
theorem page_range_diverges : parsePageRange "3,1" 4 = .ok ([3, 1], 2) ∧ ¬ RangeAgrees "3,1" 4 [3, 1] 2 ∧
    parsePageRange "1 -\t2" 4 = .ok ([1, 2], 2) ∧ normalizePageRangeForQpdf "1 -\t2" = .ok "1-\t2" ∧
      qpdfPages "1-\t2" = none := by
  refine ⟨rfl, fun hagrees => ?_, rfl, rfl, by decide⟩
  exact absurd hagrees.ascending (by decide)

end Sample

end Anole.Planning
