import Mathlib
import Anole.Preset.Library

/-!
# Importing a preset library

`PresetLibrary::merge` (`crates/core/src/preset.rs`, lines 308–323) imports a library
preset by preset. The import is meant to be a right-biased union: the imported presets
and bindings, and those of the current library that the import does not replace
(`union`).

Results:
* `merged_eq_ok`: when `merge` succeeds on valid libraries, and the library it makes.
* `merge_is_union_iff`: exactly when `merge` computes the union.

**Deviation.** Each preset is checked against the library half merged so far, which
refuses an exchange of the names of two presets (`Sample.merge_refuses_exchange`); and
the imported bindings, which `ShellVerbBinding` documents to travel with the library,
are dropped.
-/

open Common

namespace Anole

namespace Preset

/-- The current presets that an import does not replace. -/
def retained (current imported : List ConversionPreset) : List ConversionPreset :=
  current.filter fun preset => preset.presetId ∉ imported.map ConversionPreset.presetId

/-- The right-biased union of two libraries. -/
def PresetLibrary.union (current imported : PresetLibrary) : PresetLibrary :=
  { schemaVersion := presetSchemaVersion
    presets := imported.presets ++ retained current.presets imported.presets
    shellVerbs := imported.shellVerbs ++ current.shellVerbs.filter fun binding =>
      binding.verbId ∉ imported.shellVerbs.map ShellVerbBinding.verbId }

/-- `merge` succeeds exactly when the union is valid, and then makes the union. -/
def MergesAsUnion (lowercase : String → String) (current imported : PresetLibrary) : Prop :=
  ((current.merge lowercase imported).1.isOk = true ↔
    (current.union imported).validate lowercase = .ok ()) ∧
  ((current.merge lowercase imported).1.isOk = true →
    (current.merge lowercase imported).2.presets.Perm (current.union imported).presets ∧
    (current.merge lowercase imported).2.shellVerbs.Perm (current.union imported).shellVerbs)

/-- The imported presets do not fit, or one finds its name taken by a current preset
    that the presets listed before it do not replace. -/
def Obstructed (lowercase : String → String) (current imported : List ConversionPreset) : Prop :=
  4096 < (imported ++ retained current imported).length ∨
  ∃ before preset after, imported = before ++ preset :: after ∧
    ∃ candidate ∈ current, candidate.presetId ∉ before.map ConversionPreset.presetId ∧
      NameTaken lowercase preset candidate

section Merge

variable {lowercase : String → String} {library current imported : PresetLibrary}
  {preset candidate : ConversionPreset} {presets rest : List ConversionPreset}

/-! ## The loop of upserts -/

theorem toLower_of_lower {c : Char} (h : (c.isLower || c.isDigit) = true) : c.toLower = c := by
  simp only [Char.isLower, Char.isDigit, Bool.or_eq_true, Bool.and_eq_true, decide_eq_true_eq,
    UInt32.le_iff_toNat_le, ge_iff_le] at h
  rw [Char.toLower, dif_neg]
  rintro ⟨hA, hZ⟩
  rw [ge_iff_le, UInt32.le_iff_toNat_le] at hA
  rw [UInt32.le_iff_toNat_le] at hZ
  rw [show 'a'.val.toNat = 97 from rfl, show '9'.val.toNat = 57 from rfl] at h
  rw [show 'A'.val.toNat = 65 from rfl] at hA
  rw [show 'Z'.val.toNat = 90 from rfl] at hZ
  omega

/-- A valid preset is valid in its normal form, which is the preset with its name trimmed. -/
theorem normalized_of_valid (h : preset.validate = .ok ()) :
    preset.normalized = { preset with name := trim preset.name } ∧
      preset.normalized.validate = .ok () := by
  have htarget : toAsciiLowercase preset.targetFormat = preset.targetFormat := by
    simp only [ConversionPreset.validate, bind_eq_ok, failWhen_eq_ok] at h
    obtain ⟨-, -, -, -, -, hformat, -⟩ := h
    rw [not_or, not_or, not_not, List.all_eq_true] at hformat
    rw [toAsciiLowercase, ← String.toList_inj, String.toList_ofList]
    exact (List.map_congr_left fun c hc => toLower_of_lower (hformat.2.2 c hc)).trans
      (List.map_id _)
  have hsame : preset.normalized = { preset with name := trim preset.name } := by
    rw [ConversionPreset.normalized, htarget]
  refine ⟨hsame, ?_⟩
  rw [hsame]
  simpa only [ConversionPreset.validate, trim_trim] using h

/-- A preset that was stored just before takes the name of no other imported preset. -/
theorem not_nameTaken_normalized {other : ConversionPreset}
    (h : foldedName lowercase preset ≠ foldedName lowercase other) :
    ¬ NameTaken lowercase other preset.normalized := by
  rintro ⟨-, hname | hname⟩
  · exact h hname
  · exact h (foldedName_normalized.symm.trans hname)

/-- What an import retains once its first preset is stored. -/
theorem retained_stored_perm (h : library.Valid lowercase)
    (hfresh : preset.presetId ∉ rest.map ConversionPreset.presetId) :
    (retained (library.stored lowercase preset) rest).Perm
      (preset.normalized :: retained library.presets (preset :: rest)) := by
  have hothers : retained library.presets (preset :: rest) =
      retained (library.others preset.presetId) rest := by
    rw [retained, retained, PresetLibrary.others, List.filter_filter]
    refine List.filter_congr fun candidate _ => ?_
    simp only [List.map_cons, List.mem_cons, not_or, Bool.decide_and]
    exact Bool.and_comm _ _
  have hcons : retained (preset.normalized :: library.others preset.presetId) rest =
      preset.normalized :: retained (library.others preset.presetId) rest := by
    refine List.filter_cons_of_pos ?_
    exact decide_eq_true hfresh
  rw [hothers, ← hcons]
  exact h.stored_perm.filter _

/-- Presets that make room for the import one by one leave room for the first. -/
theorem others_length_lt (h : library.Valid lowercase)
    (hcount : (preset :: rest ++ retained library.presets (preset :: rest)).length ≤ 4096) :
    (library.others preset.presetId).length < 4096 := by
  let isImported : ConversionPreset → Bool := fun candidate =>
    candidate.presetId ∈ rest.map ConversionPreset.presetId
  have hsplit : (library.others preset.presetId).length =
      ((library.others preset.presetId).filter isImported).length +
        (retained library.presets (preset :: rest)).length := by
    have hretained : retained library.presets (preset :: rest) =
        (library.others preset.presetId).filter fun candidate => ¬ isImported candidate := by
      rw [retained, PresetLibrary.others, List.filter_filter]
      refine List.filter_congr fun candidate _ => ?_
      simp only [isImported, List.map_cons, List.mem_cons, not_or, Bool.decide_and,
        decide_eq_true_eq]
      exact Bool.and_comm _ _
    rw [hretained, ← List.countP_eq_length_filter, ← List.countP_eq_length_filter]
    simpa using List.length_eq_countP_add_countP isImported
  have hreplaced : ((library.others preset.presetId).filter isImported).length ≤ rest.length := by
    have hnodup : (((library.others preset.presetId).filter isImported).map
        ConversionPreset.presetId).Nodup :=
      h.ids.sublist ((List.filter_sublist.trans List.filter_sublist).map _)
    have hsubset : ((library.others preset.presetId).filter isImported).map
        ConversionPreset.presetId ⊆ rest.map ConversionPreset.presetId := by
      intro presetId hid
      obtain ⟨candidate, hcandidate, rfl⟩ := List.mem_map.mp hid
      exact of_decide_eq_true (List.mem_filter.mp hcandidate).2
    have := (hnodup.subperm hsubset).length_le
    rwa [List.length_map, List.length_map] at this
  rw [List.length_append, List.length_cons] at hcount
  omega

/-- An import is obstructed at its first preset, or after that is stored. -/
theorem obstructed_cons (h : library.Valid lowercase)
    (hid : preset.presetId ∉ rest.map ConversionPreset.presetId)
    (hname : foldedName lowercase preset ∉ rest.map (foldedName lowercase)) :
    Obstructed lowercase library.presets (preset :: rest) ↔
      (∃ candidate ∈ library.presets, NameTaken lowercase preset candidate) ∨
        Obstructed lowercase (library.stored lowercase preset) rest := by
  have hlength : (preset :: rest ++ retained library.presets (preset :: rest)).length =
      (rest ++ retained (library.stored lowercase preset) rest).length := by
    rw [List.length_append, List.length_append, (retained_stored_perm h hid).length_eq,
      List.length_cons, List.length_cons]
    omega
  have hmem : ∀ candidate, candidate ∈ library.stored lowercase preset ↔
      candidate = preset.normalized ∨
        (candidate ∈ library.presets ∧ candidate.presetId ≠ preset.presetId) := by
    intro candidate
    rw [h.stored_perm.mem_iff, List.mem_cons, PresetLibrary.others, List.mem_filter,
      decide_eq_true_iff]
  unfold Obstructed
  rw [hlength, or_left_comm]
  refine or_congr_right ?_
  constructor
  · rintro ⟨before, other, after, hsplit, candidate, hcandidate, hearlier, htaken⟩
    cases before with
    | nil =>
      cases hsplit
      exact .inl ⟨candidate, hcandidate, htaken⟩
    | cons first before =>
      cases hsplit
      rw [List.map_cons, List.mem_cons, not_or] at hearlier
      exact .inr ⟨before, other, after, rfl, candidate,
        (hmem candidate).mpr (.inr ⟨hcandidate, hearlier.1⟩), hearlier.2, htaken⟩
  · rintro (⟨candidate, hcandidate, htaken⟩ | ⟨before, other, after, rfl, candidate, hcandidate,
      hearlier, htaken⟩)
    · exact ⟨[], preset, rest, rfl, candidate, hcandidate, List.not_mem_nil, htaken⟩
    · rcases (hmem candidate).mp hcandidate with rfl | ⟨hcandidate, hne⟩
      · refine absurd htaken (not_nameTaken_normalized fun hsame => hname ?_)
        rw [hsame]
        exact List.mem_map_of_mem (by simp)
      · refine ⟨preset :: before, other, after, rfl, candidate, hcandidate, ?_, htaken⟩
        rw [List.map_cons, List.mem_cons, not_or]
        exact ⟨hne, hearlier⟩

/-- **Loop.** The upserts of distinct valid presets succeed exactly when nothing obstructs
    them, and leave the presets in their normal form beside the retained ones. -/
theorem foldlM_upserted (h : library.Valid lowercase)
    (hvalid : ∀ preset ∈ presets, preset.validate = .ok ())
    (hids : Table.Keyed ConversionPreset.presetId presets)
    (hnames : Table.Keyed (foldedName lowercase) presets) :
    ((∃ merged, presets.foldlM (PresetLibrary.upserted lowercase) library = .ok merged) ↔
      ¬ Obstructed lowercase library.presets presets) ∧
    ∀ merged, presets.foldlM (PresetLibrary.upserted lowercase) library = .ok merged →
      merged.presets.Perm
        (presets.map ConversionPreset.normalized ++ retained library.presets presets) ∧
      merged.shellVerbs = library.shellVerbs := by
  induction presets generalizing library with
  | nil =>
    have hall : retained library.presets [] = library.presets := by simp [retained]
    constructor
    · refine iff_of_true ⟨library, rfl⟩ ?_
      rintro (hcount | ⟨before, _, _, hsplit, -⟩)
      · rw [hall] at hcount
        exact absurd h.count (not_le.mpr hcount)
      · simp at hsplit
    · intro merged hmerged
      cases hmerged
      rw [hall]
      exact ⟨List.Perm.refl _, rfl⟩
  | cons preset rest ih =>
    have hid := (List.nodup_cons.mp hids).1
    have hname := (List.nodup_cons.mp hnames).1
    have hpreset := (normalized_of_valid (hvalid preset (by simp))).2
    have ihrest := fun {stored : PresetLibrary} (hstored : stored.Valid lowercase) =>
      ih hstored (fun other hother => hvalid other (List.mem_cons_of_mem _ hother))
        (List.nodup_cons.mp hids).2 (List.nodup_cons.mp hnames).2
    simp only [List.foldlM_cons, bind_eq_ok]
    constructor
    · rw [obstructed_cons h hid hname, not_or]
      constructor
      · rintro ⟨merged, stored, hstored, hrest⟩
        have hnext := ((ihrest (upserted_valid hstored)).1).mp ⟨merged, hrest⟩
        obtain ⟨-, -, hfree, rfl⟩ := (upserted_eq_ok h).mp hstored
        exact ⟨fun ⟨candidate, hcandidate, htaken⟩ => hfree candidate hcandidate htaken, hnext⟩
      · rintro ⟨hfree, hnext⟩
        have hcount : (library.others preset.presetId).length < 4096 := by
          have hfit : ¬ Obstructed lowercase library.presets (preset :: rest) := by
            rw [obstructed_cons h hid hname]
            exact not_or.mpr ⟨hfree, hnext⟩
          exact others_length_lt h (not_lt.mp fun hmany => hfit (.inl hmany))
        have hstored : library.upserted lowercase preset =
            .ok { library with presets := library.stored lowercase preset } :=
          (upserted_eq_ok h).mpr ⟨hpreset, hcount,
            fun candidate hcandidate htaken => hfree ⟨candidate, hcandidate, htaken⟩, rfl⟩
        obtain ⟨merged, hrest⟩ := ((ihrest (upserted_valid hstored)).1).mpr hnext
        exact ⟨merged, _, hstored, hrest⟩
    · rintro merged ⟨stored, hstored, hrest⟩
      obtain ⟨hperm, hverbs⟩ := (ihrest (upserted_valid hstored)).2 merged hrest
      obtain ⟨-, -, -, rfl⟩ := (upserted_eq_ok h).mp hstored
      refine ⟨hperm.trans ?_, hverbs⟩
      exact ((retained_stored_perm h hid).append_left _).trans List.perm_middle

/-! ## `merge` -/

/-- `merge` of valid libraries succeeds exactly when nothing obstructs it. -/
theorem merge_isOk_iff (h : current.Valid lowercase) (himported : imported.Valid lowercase) :
    (current.merge lowercase imported).1.isOk = true ↔
      ¬ Obstructed lowercase current.presets imported.presets := by
  rw [← (foldlM_upserted h himported.presets himported.ids himported.names).1]
  have hchecked : imported.validate lowercase = .ok () := validate_eq_ok.mpr himported
  unfold PresetLibrary.merge PresetLibrary.merged
  rw [hchecked]
  cases hfold : imported.presets.foldlM (PresetLibrary.upserted lowercase) current with
  | error error => simp [bind, Except.bind, Except.isOk, Except.toBool]
  | ok merged => simp [bind, Except.bind, Except.isOk, Except.toBool, pure, Except.pure]

/-- What a successful `merge` of valid libraries makes: the union of the presets in their
    normal form, and the current bindings. -/
theorem merge_perm (h : current.Valid lowercase) (himported : imported.Valid lowercase)
    (hok : (current.merge lowercase imported).1.isOk = true) :
    (current.merge lowercase imported).2.presets.Perm
        (imported.presets.map ConversionPreset.normalized ++
          retained current.presets imported.presets) ∧
      (current.merge lowercase imported).2.shellVerbs = current.shellVerbs := by
  have hloop := (foldlM_upserted h himported.presets himported.ids himported.names).2
  have hchecked : imported.validate lowercase = .ok () := validate_eq_ok.mpr himported
  unfold PresetLibrary.merge PresetLibrary.merged at hok ⊢
  rw [hchecked] at hok ⊢
  cases hfold : imported.presets.foldlM (PresetLibrary.upserted lowercase) current with
  | error error => simp [hfold, bind, Except.bind, Except.isOk, Except.toBool] at hok
  | ok merged => exact hloop merged hfold

/-- The union of valid libraries is valid when nothing obstructs the import and its
    bindings are current ones. -/
theorem union_valid (h : current.Valid lowercase) (himported : imported.Valid lowercase)
    (hfree : ¬ Obstructed lowercase current.presets imported.presets)
    (hverbs : (current.union imported).shellVerbs.Perm current.shellVerbs) :
    (current.union imported).Valid lowercase := by
  have hretained : (retained current.presets imported.presets).Sublist current.presets :=
    List.filter_sublist
  refine ⟨rfl, not_lt.mp fun hmany => hfree (.inl hmany), ?_, ?_, ?_, ?_, ?_, ?_, ?_⟩
  · intro preset hpreset
    rcases List.mem_append.mp hpreset with hpreset | hpreset
    · exact himported.presets preset hpreset
    · exact h.presets preset (hretained.subset hpreset)
  · unfold Table.Keyed PresetLibrary.union
    rw [List.map_append]
    refine List.Nodup.append himported.ids (h.ids.sublist (hretained.map _)) ?_
    intro presetId hleft hright
    obtain ⟨candidate, hcandidate, rfl⟩ := List.mem_map.mp hright
    exact of_decide_eq_true (List.mem_filter.mp hcandidate).2 hleft
  · unfold Table.Keyed PresetLibrary.union
    rw [List.map_append]
    refine List.Nodup.append himported.names (h.names.sublist (hretained.map _)) ?_
    intro name hleft hright
    obtain ⟨preset, hpreset, rfl⟩ := List.mem_map.mp hleft
    obtain ⟨candidate, hcandidate, hname⟩ := List.mem_map.mp hright
    obtain ⟨before, after, hsplit⟩ := List.append_of_mem hpreset
    have hkept := of_decide_eq_true (List.mem_filter.mp hcandidate).2
    rw [hsplit, List.map_append, List.map_cons, List.mem_append, List.mem_cons, not_or,
      not_or] at hkept
    exact hfree (.inr ⟨before, preset, after, hsplit, candidate, hretained.subset hcandidate,
      hkept.1, hkept.2.1, .inr hname⟩)
  · rw [hverbs.length_eq]
    exact h.verbCount
  · exact fun binding hbinding => h.verbs binding (hverbs.mem_iff.mp hbinding)
  · exact (hverbs.map _).nodup_iff.mpr h.verbIds
  · intro binding hbinding presetId hbound
    obtain ⟨preset, hpreset, hid⟩ := h.bound binding (hverbs.mem_iff.mp hbinding) presetId hbound
    by_cases hreplaced : preset.presetId ∈ imported.presets.map ConversionPreset.presetId
    · obtain ⟨other, hother, hsame⟩ := List.mem_map.mp hreplaced
      exact ⟨other, List.mem_append_left _ hother, hsame.trans hid⟩
    · exact ⟨preset, List.mem_append_right _
        (List.mem_filter.mpr ⟨hpreset, decide_eq_true hreplaced⟩), hid⟩

/-- The bindings of the union are the current ones exactly when every imported binding is
    one of them. -/
theorem union_shellVerbs_perm (h : current.Valid lowercase) (himported : imported.Valid lowercase) :
    current.shellVerbs.Perm (current.union imported).shellVerbs ↔
      imported.shellVerbs ⊆ current.shellVerbs := by
  constructor
  · intro hperm binding hbinding
    exact hperm.mem_iff.mpr (List.mem_append_left _ hbinding)
  · intro hsubset
    have hunion : (current.union imported).shellVerbs.Nodup := by
      refine himported.verbIds.nodup.append (h.verbIds.nodup.sublist List.filter_sublist) ?_
      intro binding hleft hright
      exact of_decide_eq_true (List.mem_filter.mp hright).2 (List.mem_map_of_mem hleft)
    refine (List.perm_ext_iff_of_nodup h.verbIds.nodup hunion).mpr fun binding => ?_
    constructor
    · intro hbinding
      by_cases hreplaced : binding.verbId ∈ imported.shellVerbs.map ShellVerbBinding.verbId
      · obtain ⟨other, hother, hsame⟩ := List.mem_map.mp hreplaced
        rw [← h.verbIds.eq (hsubset hother) hbinding hsame]
        exact List.mem_append_left _ hother
      · exact List.mem_append_right _
          (List.mem_filter.mpr ⟨hbinding, decide_eq_true hreplaced⟩)
    · intro hbinding
      rcases List.mem_append.mp hbinding with hbinding | hbinding
      · exact hsubset hbinding
      · exact (List.mem_filter.mp hbinding).1

/-- Presets in their normal form are the presets themselves exactly when their names are
    trimmed. -/
theorem map_normalized_perm (hvalid : ∀ preset ∈ presets, preset.validate = .ok ()) :
    (presets.map ConversionPreset.normalized).Perm presets ↔
      ∀ preset ∈ presets, trim preset.name = preset.name := by
  constructor
  · intro hperm preset hpreset
    obtain ⟨original, -, rfl⟩ := List.mem_map.mp (hperm.mem_iff.mpr hpreset)
    exact trim_trim _
  · intro htrimmed
    have hsame : presets.map ConversionPreset.normalized = presets := by
      refine (List.map_congr_left fun preset hpreset => ?_).trans (List.map_id _)
      rw [(normalized_of_valid (hvalid preset hpreset)).1, htrimmed preset hpreset, id]
    rw [hsame]

/-- **Import.** On valid libraries `merge` computes the right-biased union exactly when
    either the import is obstructed and the union is not valid anyway, or nothing obstructs
    it, the imported names are trimmed and the imported bindings are current ones. -/
theorem merge_is_union_iff (lowercase : String → String) (current imported : PresetLibrary)
    (hcurrent : current.validate lowercase = .ok ())
    (himported : imported.validate lowercase = .ok ()) :
    MergesAsUnion lowercase current imported ↔
      (Obstructed lowercase current.presets imported.presets ∧
        (current.union imported).validate lowercase ≠ .ok ()) ∨
      (¬ Obstructed lowercase current.presets imported.presets ∧
        (∀ preset ∈ imported.presets, trim preset.name = preset.name) ∧
        imported.shellVerbs ⊆ current.shellVerbs) := by
  rw [validate_eq_ok] at hcurrent himported
  unfold MergesAsUnion
  rw [merge_isOk_iff hcurrent himported]
  by_cases hobstructed : Obstructed lowercase current.presets imported.presets
  · simp [hobstructed]
  · have hmerge := merge_perm hcurrent himported ((merge_isOk_iff hcurrent himported).mpr hobstructed)
    have hpresets : (current.merge lowercase imported).2.presets.Perm
        (current.union imported).presets ↔
        ∀ preset ∈ imported.presets, trim preset.name = preset.name := by
      rw [← map_normalized_perm himported.presets, hmerge.1.congr_left]
      exact List.perm_append_right_iff _
    have hverbs : (current.merge lowercase imported).2.shellVerbs.Perm
        (current.union imported).shellVerbs ↔ imported.shellVerbs ⊆ current.shellVerbs := by
      rw [hmerge.2, union_shellVerbs_perm hcurrent himported]
    rw [hpresets, hverbs]
    constructor
    · rintro ⟨-, hunion⟩
      exact .inr ⟨hobstructed, hunion hobstructed⟩
    · rintro (⟨hblocked, -⟩ | ⟨-, htrimmed, hsubset⟩)
      · exact absurd hblocked hobstructed
      · have hsame := ((union_shellVerbs_perm hcurrent himported).mpr hsubset).symm
        refine ⟨iff_of_true hobstructed ?_, fun _ => ⟨htrimmed, hsubset⟩⟩
        exact validate_eq_ok.mpr (union_valid hcurrent himported hobstructed hsame)

end Merge

namespace Sample

/-- Two presets. -/
def pair (first second : String) : PresetLibrary :=
  { schemaVersion := 2, presets := [preset 1 first, preset 2 second], shellVerbs := [] }

theorem pair_valid : (pair "Mail" "Web").validate toAsciiLowercase = .ok () ∧
    (pair "Web" "Mail").validate toAsciiLowercase = .ok () := by
  constructor
  · decide
  · decide

/-- Exchanging the names of two presets is refused, although the union is the imported
    library. -/
theorem merge_refuses_exchange :
    (pair "Mail" "Web").validate toAsciiLowercase = .ok () ∧
    (pair "Web" "Mail").validate toAsciiLowercase = .ok () ∧
    ((pair "Mail" "Web").union (pair "Web" "Mail")).validate toAsciiLowercase = .ok () ∧
    ((pair "Mail" "Web").merge toAsciiLowercase (pair "Web" "Mail")).1.isOk = false ∧
    ¬ MergesAsUnion toAsciiLowercase (pair "Mail" "Web") (pair "Web" "Mail") := by
  have hunion : ((pair "Mail" "Web").union (pair "Web" "Mail")).validate toAsciiLowercase =
      .ok () := by decide
  have hrefused : ((pair "Mail" "Web").merge toAsciiLowercase (pair "Web" "Mail")).1.isOk =
      false := by decide
  refine ⟨pair_valid.1, pair_valid.2, hunion, hrefused, fun h => ?_⟩
  have hok := h.1.mpr hunion
  rw [hrefused] at hok
  cases hok

-- an imported binding is not among the bindings after the import
example : library.shellVerbs ≠ [] ∧
    (PresetLibrary.merge toAsciiLowercase ⟨2, [], []⟩ library).2.shellVerbs = [] := by
  decide

theorem merge_is_union_iff_exchange :
    MergesAsUnion toAsciiLowercase (pair "Mail" "Web") (pair "Web" "Mail") ↔
      (Obstructed toAsciiLowercase (pair "Mail" "Web").presets (pair "Web" "Mail").presets ∧
        ((pair "Mail" "Web").union (pair "Web" "Mail")).validate toAsciiLowercase ≠ .ok ()) ∨
      (¬ Obstructed toAsciiLowercase (pair "Mail" "Web").presets (pair "Web" "Mail").presets ∧
        (∀ preset ∈ (pair "Web" "Mail").presets, trim preset.name = preset.name) ∧
        (pair "Web" "Mail").shellVerbs ⊆ (pair "Mail" "Web").shellVerbs) :=
  merge_is_union_iff toAsciiLowercase (pair "Mail" "Web") (pair "Web" "Mail") pair_valid.1
    pair_valid.2

end Sample

end Preset

end Anole
