import Anole.Common.Files
import Anole.Document.OfficePackage

/-!
# The pages of a rendered PDF

Model of `normalize_poppler_pages` (`crates/core/src/runner.rs`, lines 1979–2043): the files that a renderer has
left in the page directory are given names of one width, in two passes, so that no new name can be an old one.

* `collectPages_spec`: what the first loop has found when it has seen the whole listing.
* `pages_kept`: when the pages are renamed, and what the directory holds then.

The directory is a map from names to entries, listed in any order; every rename may be refused.
-/

open Common Anole.Common
open Anole.Folder (Name fileStem extension)
open Anole.Planning (toStr? toStr?_ofString parseU32 u32Max)

namespace Anole.Pages

/-! ## Names -/

/-- `{page:06}`. -/
def sixDigits (page : ℕ) : String :=
  String.ofList (List.replicate (6 - (Nat.toDigits 10 page).length) '0' ++ Nat.toDigits 10 page)

/-- `page-{page:06}.{extension}`. -/
def pageName (extension : String) (page : ℕ) : Name := PathBuf.ofString s!"page-{sixDigits page}.{extension}"

/-- `.anole-rename-{page:06}.{extension}`. -/
def temporaryName (extension : String) (page : ℕ) : Name :=
  PathBuf.ofString s!".anole-rename-{sixDigits page}.{extension}"

/-- `strip_prefix`. -/
def stripPrefix (front text : String) : Option String :=
  if front.toList <+: text.toList then some (String.ofList (text.toList.drop front.length)) else none

/-- The name of an entry has the extension, in any case (lines 1987–1991). -/
def hasExtension (expected : String) (name : Name) : Bool :=
  ((extension name).bind toStr?).any fun value => Office.eqIgnoreAsciiCase value.toList expected.toList

/-- The page that a name is for (lines 1999–2004). -/
def pageNumber (pageCount : ℕ) (name : Name) : Option ℕ :=
  (((toStr? (fileStem name)).bind (stripPrefix "page-")).bind parseU32).filter fun page =>
    1 ≤ page ∧ page ≤ pageCount

/-! ## The directory -/

/-- An entry of the page directory: a file, or anything else. -/
inductive PageEntry (β : Type) where
  | file (content : β)
  | other

/-- `Path::is_file`. -/
def PageEntry.isFile {β : Type} : PageEntry β → Bool
  | file _ => true
  | other => false

/-- The entries of a directory, in the order of `read_dir`. -/
structure Listing {β : Type} (files : Files Name (PageEntry β)) where
  names : List Name
  nodup : names.Nodup
  complete : ∀ name, name ∈ names ↔ (files name).isSome = true

/-- What the file system answers: the listing of the directory, which renames are refused, and the texts of its
    errors. -/
structure PageIo {β : Type} (files : Files Name (PageEntry β)) where
  listing : Except String (Listing files)
  refuses : Name → Name → Bool
  refusal : String

/-! ## Renaming the pages -/

/-- An error about what the renderer has left. -/
def pageError (message hint : String) : AnoleError := .new .validationFailed .validate message hint

/-- `pdf_staging_error` (lines 2045–2053). -/
def pdfStagingError (directory : PathBuf) (error : String) : AnoleError :=
  (AnoleError.new .storageFailed .execute
    s!"Unable to normalize rendered pages in {directory.toStringLossy}"
    "Check destination storage and retry.").withDiagnostic error

section

variable {β : Type}

/-- The first loop (lines 1985–2019). The pages are kept in the order in which they were found. -/
def collectPages (files : Files Name (PageEntry β)) (pageCount : ℕ) (extension : String) :
    List (ℕ × Name) → List Name → Except AnoleError (List (ℕ × Name))
  | pages, [] => .ok pages
  | pages, name :: rest =>
    if (files name).any PageEntry.isFile = false ∨ hasExtension extension name = false then
      .error (pageError "pdftoppm produced an unexpected page-directory entry" "Inspect the engine output and retry.")
    else
      match pageNumber pageCount name with
      | none =>
        .error (pageError "pdftoppm produced an unexpected page filename" "Inspect the engine output and retry.")
      | some page =>
        if (pages.lookup page).isSome then
          .error (pageError "pdftoppm produced duplicate page numbers" "Inspect the engine output and retry.")
        else collectPages files pageCount extension (pages ++ [(page, name)]) rest

/-- A pass of renames; the first that fails ends it. -/
def renamePass (directory : PathBuf) {files₀ : Files Name (PageEntry β)} (io : PageIo files₀)
    (files : Files Name (PageEntry β)) (moves : List (Name × Name)) :
    Files Name (PageEntry β) × Except AnoleError Unit :=
  let (files, made) := Files.renameAll io.refuses files moves
  (files, if made then .ok () else .error (pdfStagingError directory io.refusal))

/-- The renames of the first pass (lines 2028–2032), in the order of the pages. -/
def toTemporary (extension : String) (pages : List (ℕ × Name)) : List (Name × Name) :=
  (pages.insertionSort fun a b => a.1 ≤ b.1).map fun page => (page.2, temporaryName extension page.1)

/-- The renames of the second pass (lines 2033–2039). -/
def toFinal (extension : String) (pageCount : ℕ) : List (Name × Name) :=
  (List.range' 1 pageCount).map fun page => (temporaryName extension page, pageName extension page)

/-- `normalize_poppler_pages` (lines 1979–2043): the directory afterwards, and the result. -/
def normalizePopplerPages (directory : PathBuf) (files : Files Name (PageEntry β)) (io : PageIo files)
    (pageCount : ℕ) (extension : String) : Files Name (PageEntry β) × Except AnoleError Unit :=
  match io.listing with
  | .error error => (files, .error (pdfStagingError directory error))
  | .ok listing =>
    match collectPages files pageCount extension [] listing.names with
    | .error error => (files, .error error)
    | .ok pages =>
      if pages.length ≠ pageCount then
        (files, .error (pageError "pdftoppm did not render every PDF page"
          "Inspect the PDF and engine diagnostic, then retry."))
      else
        match renamePass directory io files (toTemporary extension pages) with
        | (files, .error error) => (files, .error error)
        | (files, .ok ()) => renamePass directory io files (toFinal extension pageCount)

end

/-! ## No new name is an old one -/

theorem foldl_sixDigits (page : ℕ) :
    (sixDigits page).toList.foldl (fun value c => 10 * value + (c.toNat - '0'.toNat)) 0 = page := by
  rw [sixDigits, String.toList_ofList, foldl_zeros, ← toList_toString, foldl_toString]

variable {page page' : ℕ}

theorem sixDigits_injective (h : sixDigits page = sixDigits page') : page = page' := by
  rw [← foldl_sixDigits page, h, foldl_sixDigits]

theorem numbered_injective {front extension : String}
    (h : PathBuf.ofString (front ++ sixDigits page ++ "." ++ extension) =
      PathBuf.ofString (front ++ sixDigits page' ++ "." ++ extension)) : page = page' := by
  have htext := congrArg PathBuf.toStringLossy h
  rw [toStringLossy_ofString, toStringLossy_ofString] at htext
  have hchars := congrArg String.toList htext
  simp only [String.toList_append, List.append_assoc, List.append_cancel_left_eq] at hchars
  rw [List.append_cancel_right_eq] at hchars
  exact sixDigits_injective (String.toList_injective hchars)

theorem char_ne : some (PathUnit.char '.') ≠ some (PathUnit.char 'p') := by
  intro h
  exact absurd (PathUnit.char.inj (Option.some.inj h)) (by decide)

theorem pageName_injective {extension : String}
    (h : pageName extension page = pageName extension page') : page = page' :=
  numbered_injective h

theorem temporaryName_injective {extension : String}
    (h : temporaryName extension page = temporaryName extension page') : page = page' :=
  numbered_injective h

theorem head?_ofString_append (c : Char) (text rest : String) (h : text.toList.head? = some c) :
    (PathBuf.ofString (text ++ rest)).head? = some (.char c) := by
  rw [PathBuf.ofString_append, PathBuf.ofString, List.head?_append, List.head?_map, h]
  rfl

theorem head?_pageName (extension : String) (page : ℕ) : (pageName extension page).head? = some (.char 'p') := by
  unfold pageName
  simp only [toString, String.append_assoc]
  exact head?_ofString_append 'p' "page-" _ (by decide)

theorem head?_temporaryName (extension : String) (page : ℕ) :
    (temporaryName extension page).head? = some (.char '.') := by
  unfold temporaryName
  simp only [toString, String.append_assoc]
  exact head?_ofString_append '.' ".anole-rename-" _ (by decide)

-- from here on the names are compared by their first characters and their pages only
attribute [irreducible] pageName temporaryName

/-- A name that is for a page begins as the names of pages do. -/
theorem head?_of_pageNumber {pageCount page : ℕ} {name : Name} (h : pageNumber pageCount name = some page) :
    name.head? = some (.char 'p') := by
  obtain ⟨hpage, -⟩ := Option.filter_eq_some_iff.mp h
  obtain ⟨digits, hdigits, -⟩ := Option.bind_eq_some_iff.mp hpage
  obtain ⟨stem, hstem, hfront⟩ := Option.bind_eq_some_iff.mp hdigits
  unfold stripPrefix at hfront
  split at hfront
  · next hprefix =>
    obtain ⟨rest, hrest⟩ := hprefix
    rw [← Folder.head?_fileStem, Planning.eq_ofString_of_toStr? hstem, PathBuf.ofString, ← hrest, List.head?_map]
    rfl
  · cases hfront

/-! ## What the first loop finds -/

section Collect

variable {β : Type} {files : Files Name (PageEntry β)} {pageCount : ℕ} {extension : String}

/-- An entry that is a page: a file with the extension whose name is for one of the pages. -/
structure IsPage (files : Files Name (PageEntry β)) (pageCount : ℕ) (extension : String) (name : Name) : Prop where
  file : (files name).any PageEntry.isFile = true
  extended : hasExtension extension name = true
  page : (pageNumber pageCount name).isSome = true

/-- A name with the page that it is for. -/
def numbered (pageCount : ℕ) (name : Name) : ℕ × Name := ((pageNumber pageCount name).getD 0, name)

theorem lookup_isSome_iff {pages : List (ℕ × Name)} {page : ℕ} :
    (pages.lookup page).isSome = true ↔ page ∈ pages.map Prod.fst := by
  induction pages with
  | nil => exact iff_of_false Bool.false_ne_true List.not_mem_nil
  | cons first pages ih =>
    rw [List.map_cons, List.mem_cons, ← ih, List.lookup_cons]
    by_cases hfirst : page = first.1
    · rw [hfirst, beq_self_eq_true]
      exact iff_of_true rfl (.inl rfl)
    · rw [beq_false_of_ne hfirst]
      exact (or_iff_right hfirst).symm

/-- The loop goes through when every entry is a page and no two are for one; it has then found them all. -/
theorem collectPages_eq_ok {pages result : List (ℕ × Name)} {names : List Name}
    (hpages : (pages.map Prod.fst).Nodup) :
    collectPages files pageCount extension pages names = .ok result ↔
      (∀ name ∈ names, IsPage files pageCount extension name) ∧
      ((pages ++ names.map (numbered pageCount)).map Prod.fst).Nodup ∧
      result = pages ++ names.map (numbered pageCount) := by
  induction names generalizing pages with
  | nil =>
    rw [collectPages, List.map_nil, List.append_nil, Except.ok.injEq]
    exact ⟨fun h => ⟨fun name hname => absurd hname List.not_mem_nil, hpages, h.symm⟩, fun h => h.2.2.symm⟩
  | cons name rest ih =>
    rw [collectPages, List.forall_mem_cons]
    split
    · next hentry =>
      refine iff_of_false (by simp) ?_
      rintro ⟨⟨hname, -⟩, -⟩
      rcases hentry with hfile | hextension
      · rw [hname.file] at hfile
        cases hfile
      · rw [hname.extended] at hextension
        cases hextension
    · next hentry =>
      rw [not_or, Bool.not_eq_false, Bool.not_eq_false] at hentry
      split
      · next hpage =>
        refine iff_of_false (by simp) ?_
        rintro ⟨⟨hname, -⟩, -⟩
        have hsome := hname.page
        rw [hpage] at hsome
        cases hsome
      · next page hpage =>
        have hnumbered : numbered pageCount name = (page, name) := by rw [numbered, hpage, Option.getD_some]
        have hname : IsPage files pageCount extension name := ⟨hentry.1, hentry.2, by rw [hpage]; rfl⟩
        have hcons : pages ++ List.map (numbered pageCount) (name :: rest) =
            pages ++ [(page, name)] ++ rest.map (numbered pageCount) := by
          rw [List.map_cons, hnumbered, List.append_assoc]
          rfl
        rw [hcons]
        split
        · next hduplicate =>
          refine iff_of_false (by simp) ?_
          rintro ⟨-, hnodup, -⟩
          rw [lookup_isSome_iff] at hduplicate
          rw [List.map_append, List.map_append] at hnodup
          have hfront := (List.nodup_append.mp hnodup).1
          exact (List.nodup_append.mp hfront).2.2 page hduplicate page List.mem_cons_self rfl
        · next hnew =>
          have hnodup : ((pages ++ [(page, name)]).map Prod.fst).Nodup := by
            rw [List.map_append]
            refine List.nodup_append.mpr ⟨hpages, List.nodup_singleton _, ?_⟩
            intro a ha b hb
            rw [lookup_isSome_iff] at hnew
            rw [List.map_singleton, List.mem_singleton] at hb
            rw [hb]
            exact fun heq => hnew ((show a = page from heq) ▸ ha)
          rw [ih hnodup, and_iff_right hname]

theorem pageNumber_bounds {page : ℕ} {name : Name} (h : pageNumber pageCount name = some page) :
    1 ≤ page ∧ page ≤ pageCount := of_decide_eq_true (Option.filter_eq_some_iff.mp h).2

/-- A directory of pages: every entry is a page, and there is one for each page. -/
structure Rendered (files : Files Name (PageEntry β)) (pageCount : ℕ) (extension : String) : Prop where
  pages : ∀ name, (files name).isSome = true → IsPage files pageCount extension name
  unique : ∀ name name', (files name).isSome = true → (files name').isSome = true →
    pageNumber pageCount name = pageNumber pageCount name' → name = name'
  complete : ∀ page, 1 ≤ page → page ≤ pageCount →
    ∃ name, (files name).isSome = true ∧ pageNumber pageCount name = some page

theorem IsPage.numbered_eq {name : Name} (h : IsPage files pageCount extension name) :
    pageNumber pageCount name = some (numbered pageCount name).1 := by
  obtain ⟨page, hpage⟩ := Option.isSome_iff_exists.mp h.page
  rw [numbered, hpage, Option.getD_some]

theorem map_fst_numbered (names : List Name) :
    (names.map (numbered pageCount)).map Prod.fst = names.map fun name => (numbered pageCount name).1 := by
  rw [List.map_map]
  rfl

/-- What the first loop and the comparison of the counts find, in terms of the directory. -/
theorem rendered_iff (listing : Listing files) :
    ((∀ name ∈ listing.names, IsPage files pageCount extension name) ∧
      ((listing.names.map (numbered pageCount)).map Prod.fst).Nodup ∧ listing.names.length = pageCount) ↔
      Rendered files pageCount extension := by
  rw [map_fst_numbered]
  constructor
  · rintro ⟨hpages, hnodup, hlength⟩
    have hsubset : listing.names.map (fun name => (numbered pageCount name).1) ⊆ List.range' 1 pageCount := by
      intro page hpage
      obtain ⟨name, hname, rfl⟩ := List.mem_map.mp hpage
      have hbounds := pageNumber_bounds (hpages name hname).numbered_eq
      rw [List.mem_range'_1]
      omega
    have hperm : (listing.names.map fun name => (numbered pageCount name).1).Perm (List.range' 1 pageCount) := by
      apply (hnodup.subperm hsubset).perm_of_length_le
      rw [List.length_range', List.length_map, hlength]
    refine ⟨fun name hname => hpages name ((listing.complete name).mpr hname), ?_, ?_⟩
    · intro name name' hname hname' heq
      apply List.inj_on_of_nodup_map hnodup ((listing.complete name).mpr hname) ((listing.complete name').mpr hname')
      rw [(hpages name ((listing.complete name).mpr hname)).numbered_eq,
        (hpages name' ((listing.complete name').mpr hname')).numbered_eq] at heq
      exact Option.some.inj heq
    · intro page hlow hhigh
      have hmem : page ∈ List.range' 1 pageCount := by
        rw [List.mem_range'_1]
        omega
      obtain ⟨name, hname, rfl⟩ := List.mem_map.mp (hperm.mem_iff.mpr hmem)
      exact ⟨name, (listing.complete name).mp hname, (hpages name hname).numbered_eq⟩
  · intro h
    have hpages : ∀ name ∈ listing.names, IsPage files pageCount extension name := fun name hname =>
      h.pages name ((listing.complete name).mp hname)
    have hnodup : (listing.names.map fun name => (numbered pageCount name).1).Nodup := by
      refine listing.nodup.map_on fun name hname name' hname' heq => ?_
      apply h.unique name name' ((listing.complete name).mp hname) ((listing.complete name').mp hname')
      rw [(hpages name hname).numbered_eq, (hpages name' hname').numbered_eq, heq]
    refine ⟨hpages, hnodup, ?_⟩
    have hperm : (listing.names.map fun name => (numbered pageCount name).1).Perm (List.range' 1 pageCount) := by
      refine (List.perm_ext_iff_of_nodup hnodup List.nodup_range').mpr fun page => ?_
      rw [List.mem_range'_1, List.mem_map]
      constructor
      · rintro ⟨name, hname, rfl⟩
        have hbounds := pageNumber_bounds (hpages name hname).numbered_eq
        omega
      · rintro ⟨hlow, hhigh⟩
        obtain ⟨name, hname, hpage⟩ := h.complete page hlow (by omega)
        refine ⟨name, (listing.complete name).mpr hname, ?_⟩
        rw [numbered, hpage, Option.getD_some]
    rw [← List.length_map (f := fun name => (numbered pageCount name).1), hperm.length_eq, List.length_range']

end Collect

/-! ## The two passes -/

section Passes

variable {β : Type} {files : Files Name (PageEntry β)} {pageCount : ℕ} {extension : String}

theorem mem_toTemporary {names : List Name} {move : Name × Name} :
    move ∈ toTemporary extension (names.map (numbered pageCount)) ↔
      ∃ name ∈ names, move = (name, temporaryName extension (numbered pageCount name).1) := by
  rw [toTemporary, List.mem_map]
  simp only [List.mem_insertionSort, List.mem_map]
  constructor
  · rintro ⟨-, ⟨name, hname, rfl⟩, rfl⟩
    exact ⟨name, hname, rfl⟩
  · rintro ⟨name, hname, rfl⟩
    exact ⟨_, ⟨name, hname, rfl⟩, rfl⟩

theorem mem_toFinal {move : Name × Name} :
    move ∈ toFinal extension pageCount ↔
      ∃ page, 1 ≤ page ∧ page ≤ pageCount ∧ move = (temporaryName extension page, pageName extension page) := by
  rw [toFinal, List.mem_map]
  refine exists_congr fun page => ?_
  rw [List.mem_range'_1]
  constructor
  · rintro ⟨hbounds, heq⟩
    exact ⟨hbounds.1, by omega, heq.symm⟩
  · rintro ⟨hlow, hhigh, heq⟩
    exact ⟨⟨hlow, by omega⟩, heq.symm⟩

theorem apart_toTemporary (h : Rendered files pageCount extension) (listing : Listing files) :
    Files.Apart (toTemporary extension (listing.names.map (numbered pageCount))) := by
  obtain ⟨hpages, hnodup, -⟩ := (rendered_iff listing).mpr h
  have hsorted := List.perm_insertionSort (fun a b : ℕ × Name => a.1 ≤ b.1) (listing.names.map (numbered pageCount))
  refine ⟨?_, ?_, ?_⟩
  · rw [toTemporary, List.map_map]
    refine (hsorted.map Prod.snd).nodup_iff.mpr ?_
    rw [List.map_map]
    exact (List.map_id listing.names).symm ▸ listing.nodup
  · rw [toTemporary, List.map_map]
    have hkeys := (hsorted.map Prod.fst).nodup_iff.mpr hnodup
    have hmap := hkeys.map (f := temporaryName extension) fun page page' heq => temporaryName_injective heq
    rw [List.map_map] at hmap
    exact hmap
  · intro move hmove other hother heq
    obtain ⟨name, hname, rfl⟩ := mem_toTemporary.mp hmove
    obtain ⟨name', hname', rfl⟩ := mem_toTemporary.mp hother
    dsimp only at heq
    have hhead := head?_of_pageNumber (hpages name hname).numbered_eq
    rw [heq, head?_temporaryName] at hhead
    exact char_ne hhead

theorem apart_toFinal : Files.Apart (toFinal extension pageCount) := by
  have hpages : (List.range' 1 pageCount).Nodup := List.nodup_range'
  refine ⟨?_, ?_, ?_⟩
  · rw [toFinal, List.map_map]
    simp only [Function.comp_def]
    exact hpages.map fun page page' heq => temporaryName_injective heq
  · rw [toFinal, List.map_map]
    simp only [Function.comp_def]
    exact hpages.map fun page page' heq => pageName_injective heq
  · intro move hmove other hother heq
    obtain ⟨page, -, -, rfl⟩ := mem_toFinal.mp hmove
    obtain ⟨page', -, -, rfl⟩ := mem_toFinal.mp hother
    dsimp only at heq
    have hhead := head?_temporaryName extension page
    rw [heq, head?_pageName] at hhead
    exact char_ne hhead.symm

/-- What the directory of pages becomes: every page has its entry under its new name, and there is nothing else. -/
structure Kept (files files' : Files Name (PageEntry β)) (pageCount : ℕ) (extension : String) : Prop where
  content : ∀ name page, (files name).isSome = true → pageNumber pageCount name = some page →
    files' (pageName extension page) = files name
  only : ∀ name, (files' name).isSome = true ↔ ∃ page, 1 ≤ page ∧ page ≤ pageCount ∧ name = pageName extension page

/-- The files after the first pass: every page is at its temporary name, and there is nothing else. -/
theorem first_pass (h : Rendered files pageCount extension) (listing : Listing files) {refuses : Name → Name → Bool}
    {files₁ : Files Name (PageEntry β)}
    (hrun : Files.renameAll refuses files (toTemporary extension (listing.names.map (numbered pageCount))) =
      (files₁, true)) :
    (∀ name page, (files name).isSome = true → pageNumber pageCount name = some page →
      files₁ (temporaryName extension page) = files name) ∧
    ∀ name, (∀ page, 1 ≤ page → page ≤ pageCount → name ≠ temporaryName extension page) → files₁ name = none := by
  obtain ⟨hmoved, hgone, hrest⟩ := Files.renameAll_moved (apart_toTemporary h listing) hrun
  constructor
  · intro name page hname hpage
    have hnumbered : (numbered pageCount name).1 = page := by rw [numbered, hpage, Option.getD_some]
    rw [← hnumbered]
    exact hmoved (name, temporaryName extension (numbered pageCount name).1)
      (mem_toTemporary.mpr ⟨name, (listing.complete name).mpr hname, rfl⟩)
  · intro name hname
    by_cases hlisted : name ∈ listing.names
    · exact hgone (name, temporaryName extension (numbered pageCount name).1)
        (mem_toTemporary.mpr ⟨name, hlisted, rfl⟩)
    · rw [hrest name]
      · exact Option.not_isSome_iff_eq_none.mp fun hsome => hlisted ((listing.complete name).mpr hsome)
      · intro move hmove
        obtain ⟨other, hother, rfl⟩ := mem_toTemporary.mp hmove
        have hbounds := pageNumber_bounds (h.pages other ((listing.complete other).mp hother)).numbered_eq
        exact ⟨fun heq => hlisted (heq ▸ hother), hname _ hbounds.1 hbounds.2⟩

theorem kept_of_passes (h : Rendered files pageCount extension) (listing : Listing files)
    {refuses : Name → Name → Bool} {files₁ files₂ : Files Name (PageEntry β)}
    (hfirst : Files.renameAll refuses files (toTemporary extension (listing.names.map (numbered pageCount))) =
      (files₁, true))
    (hsecond : Files.renameAll refuses files₁ (toFinal extension pageCount) = (files₂, true)) :
    Kept files files₂ pageCount extension := by
  obtain ⟨htemporary, hnothing⟩ := first_pass h listing hfirst
  obtain ⟨hmoved, hgone, hrest⟩ := Files.renameAll_moved apart_toFinal hsecond
  have hcontent : ∀ name page, (files name).isSome = true → pageNumber pageCount name = some page →
      files₂ (pageName extension page) = files name := by
    intro name page hname hpage
    obtain ⟨hlow, hhigh⟩ := pageNumber_bounds hpage
    have hfinal := hmoved (temporaryName extension page, pageName extension page)
      (mem_toFinal.mpr ⟨page, hlow, hhigh, rfl⟩)
    dsimp only at hfinal
    rw [hfinal, htemporary name page hname hpage]
  refine ⟨hcontent, fun name => ⟨fun hsome => ?_, ?_⟩⟩
  · by_contra hother
    push Not at hother
    have hnone : files₂ name = none := by
      by_cases htemp : ∃ page, 1 ≤ page ∧ page ≤ pageCount ∧ name = temporaryName extension page
      · obtain ⟨page, hlow, hhigh, rfl⟩ := htemp
        exact hgone (temporaryName extension page, pageName extension page)
          (mem_toFinal.mpr ⟨page, hlow, hhigh, rfl⟩)
      · push Not at htemp
        rw [hrest name, hnothing name htemp]
        intro move hmove
        obtain ⟨page, hlow, hhigh, rfl⟩ := mem_toFinal.mp hmove
        exact ⟨htemp page hlow hhigh, hother page hlow hhigh⟩
    rw [hnone] at hsome
    cases hsome
  · rintro ⟨page, hlow, hhigh, rfl⟩
    obtain ⟨name, hname, hpage⟩ := h.complete page hlow hhigh
    rw [hcontent name page hname hpage]
    exact hname

end Passes

/-! ## The result -/

section Result

variable {β : Type}

/-- No rename of the two passes is refused. -/
def Accepted (files : Files Name (PageEntry β)) (refuses : Name → Name → Bool) (pageCount : ℕ) (extension : String) :
    Prop :=
  ∀ name page, (files name).isSome = true → pageNumber pageCount name = some page →
    refuses name (temporaryName extension page) = false ∧
      refuses (temporaryName extension page) (pageName extension page) = false

theorem renamePass_eq_ok {directory : PathBuf} {files₀ files files' : Files Name (PageEntry β)} {io : PageIo files₀}
    {moves : List (Name × Name)} :
    renamePass directory io files moves = (files', .ok ()) ↔
      Files.renameAll io.refuses files moves = (files', true) := by
  rw [renamePass]
  rcases Files.renameAll io.refuses files moves with ⟨renamed, made⟩
  cases made <;> simp

/-- What a run that succeeds has done. -/
theorem normalizePopplerPages_eq_ok {directory : PathBuf} {files files' : Files Name (PageEntry β)} {io : PageIo files}
    {pageCount : ℕ} {extension : String} :
    normalizePopplerPages directory files io pageCount extension = (files', .ok ()) ↔
      ∃ listing, io.listing = .ok listing ∧ Rendered files pageCount extension ∧ ∃ files₁,
        Files.renameAll io.refuses files (toTemporary extension (listing.names.map (numbered pageCount))) =
          (files₁, true) ∧
        Files.renameAll io.refuses files₁ (toFinal extension pageCount) = (files', true) := by
  have hfails : ∀ (files : Files Name (PageEntry β)) (error : AnoleError), (files, Except.error error) ≠ (files', .ok ()) :=
    fun files error h => absurd (congrArg Prod.snd h) (by simp)
  rw [normalizePopplerPages]
  split
  · next error hlisting =>
    refine iff_of_false (hfails _ _) ?_
    rintro ⟨listing, hlisted, -⟩
    rw [hlisting] at hlisted
    cases hlisted
  · next listing hlisting =>
    have hlisted : ∀ other, Except.ok listing = (Except.ok other : Except String (Listing files)) → other = listing :=
      fun other h => (Except.ok.inj h).symm
    have hcollect := @collectPages_eq_ok β files pageCount extension []
    split
    · next error hpages =>
      refine iff_of_false (hfails _ _) ?_
      rintro ⟨other, hother, hrendered, -⟩
      rw [hlisting] at hother
      obtain ⟨hvalid, hnodup, -⟩ := (rendered_iff listing).mpr hrendered
      rw [(hcollect List.nodup_nil).mpr ⟨hvalid, hnodup, rfl⟩] at hpages
      cases hpages
    · next pages hpages =>
      obtain ⟨hvalid, hnodup, rfl⟩ := (hcollect List.nodup_nil).mp hpages
      rw [List.nil_append] at hnodup ⊢
      rw [List.length_map]
      split
      · next hlength =>
        refine iff_of_false (hfails _ _) ?_
        rintro ⟨other, hother, hrendered, -⟩
        rw [hlisting] at hother
        exact hlength ((rendered_iff listing).mpr hrendered).2.2
      · next hlength =>
        rw [ne_eq, not_not] at hlength
        have hrendered := (rendered_iff listing).mp ⟨hvalid, hnodup, hlength⟩
        split
        · next renamed error hfirst =>
          refine iff_of_false (hfails _ _) ?_
          rintro ⟨other, hother, -, files₁, hmade, -⟩
          rw [hlisting] at hother
          rw [hlisted other hother, ← @renamePass_eq_ok β directory, hfirst] at hmade
          exact absurd (congrArg Prod.snd hmade) (by simp)
        · next renamed hfirst =>
          rw [renamePass_eq_ok] at hfirst ⊢
          constructor
          · exact fun hsecond => ⟨listing, hlisting, hrendered, renamed, hfirst, hsecond⟩
          · rintro ⟨other, hother, -, files₁, hmade, hsecond⟩
            rw [hlisting] at hother
            rw [hlisted other hother, hfirst, Prod.mk.injEq] at hmade
            rw [hmade.1]
            exact hsecond

/-- Both passes are made exactly when no rename is refused. -/
theorem passes_iff {files : Files Name (PageEntry β)} {pageCount : ℕ} {extension : String}
    (h : Rendered files pageCount extension) (listing : Listing files) {refuses : Name → Name → Bool} :
    (∃ files' files₁, Files.renameAll refuses files (toTemporary extension (listing.names.map (numbered pageCount))) =
        (files₁, true) ∧ Files.renameAll refuses files₁ (toFinal extension pageCount) = (files', true)) ↔
      Accepted files refuses pageCount extension := by
  have hpage : ∀ name page, (files name).isSome = true → pageNumber pageCount name = some page →
      (numbered pageCount name).1 = page := by
    intro name page _ hpage
    rw [numbered, hpage, Option.getD_some]
  constructor
  · rintro ⟨files', files₁, hfirst, hsecond⟩ name page hname hnumber
    obtain ⟨hlow, hhigh⟩ := pageNumber_bounds hnumber
    have hmade := (Files.renameAll_iff (apart_toTemporary h listing)).mp (congrArg Prod.snd hfirst)
      (name, temporaryName extension (numbered pageCount name).1)
      (mem_toTemporary.mpr ⟨name, (listing.complete name).mpr hname, rfl⟩)
    have hmade' := (Files.renameAll_iff apart_toFinal).mp (congrArg Prod.snd hsecond)
      (temporaryName extension page, pageName extension page) (mem_toFinal.mpr ⟨page, hlow, hhigh, rfl⟩)
    rw [hpage name page hname hnumber] at hmade
    exact ⟨hmade.2, hmade'.2⟩
  · intro haccepted
    have hfirst : (Files.renameAll refuses files
        (toTemporary extension (listing.names.map (numbered pageCount)))).2 = true := by
      refine (Files.renameAll_iff (apart_toTemporary h listing)).mpr fun move hmove => ?_
      obtain ⟨name, hname, rfl⟩ := mem_toTemporary.mp hmove
      have hsome := (listing.complete name).mp hname
      exact ⟨hsome, (haccepted name _ hsome (h.pages name hsome).numbered_eq).1⟩
    obtain ⟨files₁, hrun⟩ : ∃ files₁, Files.renameAll refuses files
        (toTemporary extension (listing.names.map (numbered pageCount))) = (files₁, true) := ⟨_, Prod.ext rfl hfirst⟩
    have hsecond : (Files.renameAll refuses files₁ (toFinal extension pageCount)).2 = true := by
      refine (Files.renameAll_iff apart_toFinal).mpr fun move hmove => ?_
      obtain ⟨page, hlow, hhigh, rfl⟩ := mem_toFinal.mp hmove
      obtain ⟨name, hname, hnumber⟩ := h.complete page hlow hhigh
      dsimp only
      rw [(first_pass h listing hrun).1 name page hname hnumber]
      exact ⟨hname, (haccepted name page hname hnumber).2⟩
    exact ⟨_, files₁, hrun, Prod.ext rfl hsecond⟩

/-- **Rendered pages are kept and ordered.** -/
theorem pages_kept (directory : PathBuf) (files : Files Name (PageEntry β)) (io : PageIo files) (pageCount : ℕ)
    (extension : String) :
    (∀ files', normalizePopplerPages directory files io pageCount extension = (files', .ok ()) →
      Rendered files pageCount extension ∧ Kept files files' pageCount extension) ∧
    ((normalizePopplerPages directory files io pageCount extension).2 = .ok () ↔
      (∃ listing, io.listing = .ok listing) ∧ Rendered files pageCount extension ∧
        Accepted files io.refuses pageCount extension) := by
  constructor
  · intro files' hrun
    obtain ⟨listing, -, hrendered, files₁, hfirst, hsecond⟩ := normalizePopplerPages_eq_ok.mp hrun
    exact ⟨hrendered, kept_of_passes hrendered listing hfirst hsecond⟩
  · constructor
    · intro hok
      obtain ⟨listing, hlisting, hrendered, files₁, hfirst, hsecond⟩ :=
        normalizePopplerPages_eq_ok.mp (Prod.ext rfl hok)
      exact ⟨⟨listing, hlisting⟩, hrendered, (passes_iff hrendered listing).mp ⟨_, files₁, hfirst, hsecond⟩⟩
    · rintro ⟨⟨listing, hlisting⟩, hrendered, haccepted⟩
      obtain ⟨files', files₁, hfirst, hsecond⟩ := (passes_iff hrendered listing).mpr haccepted
      exact congrArg Prod.snd
        (normalizePopplerPages_eq_ok.mpr ⟨listing, hlisting, hrendered, files₁, hfirst, hsecond⟩)

end Result

end Anole.Pages
