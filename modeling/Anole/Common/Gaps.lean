import Mathlib.Data.List.Basic
import Mathlib.Data.List.Flatten

/-!
# Letters and what stands between them

A list holds letters and other items. `gaps` gives each letter with the items since the letter
before it, `marked` with whether one of them separates. `spelled` writes the letters with a blank
where they are separated, though not before the first.

Results:
* `marked_eq_gaps`: what is marked are the gaps with an item that separates.
* `spelled_marked_eq_iff`: two notions of a separator spell a list alike if and only if they agree on
  every gap between two letters.
* `marked_flatMap`: a list that is written out item by item is marked like the items.
-/

namespace Common

variable {α β κ χ : Type}

section Marks

variable (letter : α → Option κ) (separates : α → Bool)

/-- Each letter with the items since the letter before it. -/
def gaps : List α → List α → List (List α × κ)
  | _, [] => []
  | gap, a :: l =>
    match letter a with
    | some c => (gap, c) :: gaps [] l
    | none => gaps (gap ++ [a]) l

/-- Each letter, with whether it is separated from the letter before it. -/
def marked : Bool → List α → List (Bool × κ)
  | _, [] => []
  | pending, a :: l =>
    match letter a with
    | some c => (pending, c) :: marked false l
    | none => marked (pending || separates a) l

variable {letter separates} {l l' : List α} {a : α} {c : κ} {pending : Bool}

theorem marked_letter (h : letter a = some c) :
    marked letter separates pending (a :: l) = (pending, c) :: marked letter separates false l := by
  rw [marked, h]

theorem marked_other (h : letter a = none) :
    marked letter separates pending (a :: l) = marked letter separates (pending || separates a) l := by
  rw [marked, h]

theorem marked_eq_gaps (gap l : List α) : marked letter separates (gap.any separates) l =
    (gaps letter gap l).map fun entry => (entry.1.any separates, entry.2) := by
  induction l generalizing gap with
  | nil => rfl
  | cons a l ih =>
    rw [marked, gaps]
    cases letter a with
    | none =>
      show marked letter separates (gap.any separates || separates a) l = _
      rw [← ih, List.any_append, List.any_cons, List.any_nil, Bool.or_false]
    | some c =>
      show (gap.any separates, c) :: marked letter separates false l = _
      rw [List.map_cons, ← ih, List.any_nil]

theorem marked_append_others (h : ∀ a ∈ l, letter a = none) :
    marked letter separates pending (l ++ l') = marked letter separates (pending || l.any separates) l' := by
  induction l generalizing pending with
  | nil => rw [List.nil_append, List.any_nil, Bool.or_false]
  | cons a l ih =>
    obtain ⟨ha, hl⟩ := List.forall_mem_cons.mp h
    rw [List.cons_append, marked_other ha, ih hl, List.any_cons, Bool.or_assoc]

theorem marked_append_trailing (h : ∀ a ∈ l', letter a = none) :
    marked letter separates pending (l ++ l') = marked letter separates pending l := by
  induction l generalizing pending with
  | nil =>
    rw [List.nil_append, ← List.append_nil l', marked_append_others h]
    rfl
  | cons a l ih =>
    rw [List.cons_append]
    cases ha : letter a with
    | none => rw [marked_other ha, marked_other ha, ih]
    | some c => rw [marked_letter ha, marked_letter ha, ih]

/-- What is marked of two lists; the mark of the first letter of the second one depends on the first one. -/
theorem marked_append (pending : Bool) (l l' : List α) :
    ∃ pending', marked letter separates pending (l ++ l') =
      marked letter separates pending l ++ marked letter separates pending' l' := by
  induction l generalizing pending with
  | nil => exact ⟨pending, rfl⟩
  | cons a l ih =>
    rw [List.cons_append]
    cases ha : letter a with
    | none =>
      rw [marked_other ha, marked_other ha]
      exact ih _
    | some c =>
      obtain ⟨pending', hrest⟩ := ih false
      refine ⟨pending', ?_⟩
      rw [marked_letter ha, marked_letter ha, hrest, List.cons_append]

theorem marked_append_separator (ha : letter a = none) (hseparates : separates a = true) :
    marked letter separates pending (l ++ a :: l') =
      marked letter separates pending l ++ marked letter separates true l' := by
  induction l generalizing pending with
  | nil => rw [List.nil_append, marked_other ha, hseparates, Bool.or_true, marked, List.nil_append]
  | cons b l ih =>
    rw [List.cons_append]
    cases hb : letter b with
    | none => rw [marked_other hb, marked_other hb, ih]
    | some c => rw [marked_letter hb, marked_letter hb, ih, List.cons_append]

theorem marked_congr {separates' : α → Bool} (h : ∀ a ∈ l, separates a = separates' a) :
    marked letter separates pending l = marked letter separates' pending l := by
  induction l generalizing pending with
  | nil => rfl
  | cons a l ih =>
    obtain ⟨ha, hl⟩ := List.forall_mem_cons.mp h
    cases hletter : letter a with
    | none => rw [marked_other hletter, marked_other hletter, ha, ih hl]
    | some c => rw [marked_letter hletter, marked_letter hletter, ih hl]

/-- The mark of the first letter is the only one that depends on what came before. -/
theorem tail_marked (pending pending' : Bool) (l : List α) :
    (marked letter separates pending l).tail = (marked letter separates pending' l).tail ∧
      (marked letter separates pending l).map Prod.snd = (marked letter separates pending' l).map Prod.snd := by
  induction l generalizing pending pending' with
  | nil => exact ⟨rfl, rfl⟩
  | cons a l ih =>
    cases ha : letter a with
    | none =>
      rw [marked_other ha, marked_other ha]
      exact ih _ _
    | some c =>
      rw [marked_letter ha, marked_letter ha]
      exact ⟨rfl, rfl⟩

end Marks

/-- A list that is written out item by item: a letter as that letter, any other item without letters, so that
    it separates as the item does. -/
theorem marked_flatMap {letter : α → Option κ} {separates : α → Bool} {letter' : β → Option κ} {separates' : β → Bool}
    {write : α → List β} (hletter : ∀ a c, letter a = some c → ∃ b, write a = [b] ∧ letter' b = some c)
    (hother : ∀ a, letter a = none → (∀ b ∈ write a, letter' b = none) ∧ (write a).any separates' = separates a)
    (pending : Bool) (l : List α) :
    marked letter' separates' pending (l.flatMap write) = marked letter separates pending l := by
  induction l generalizing pending with
  | nil => rfl
  | cons a l ih =>
    rw [List.flatMap_cons]
    cases ha : letter a with
    | none =>
      obtain ⟨hnone, hany⟩ := hother a ha
      rw [marked_append_others hnone, hany, marked_other ha]
      exact ih _
    | some c =>
      obtain ⟨b, hwrite, hb⟩ := hletter a c ha
      rw [hwrite, List.singleton_append, marked_letter hb, marked_letter ha, ih]

/-! ## Spellings -/

section Spelled

variable (blank : χ) (spell : κ → List χ)

/-- Letters, each after a blank if it is separated. -/
def spelledRest (letters : List (Bool × κ)) : List χ :=
  letters.flatMap fun entry => (if entry.1 then [blank] else []) ++ spell entry.2

/-- The same, without a blank in front. -/
def spelled : List (Bool × κ) → List χ
  | [] => []
  | (_, c) :: letters => spell c ++ spelledRest blank spell letters

variable {blank spell} {letters letters' : List (Bool × κ)}

theorem spelledRest_eq_iff (hnonempty : ∀ c ∈ letters.map Prod.snd, spell c ≠ [])
    (hblank : ∀ c ∈ letters.map Prod.snd, blank ∉ spell c) (h : letters.map Prod.snd = letters'.map Prod.snd) :
    spelledRest blank spell letters = spelledRest blank spell letters' ↔
      letters.map Prod.fst = letters'.map Prod.fst := by
  induction letters generalizing letters' with
  | nil =>
    rw [List.map_nil, List.map_eq_nil_iff.mp h.symm]
    simp
  | cons entry letters ih =>
    obtain ⟨mark, c⟩ := entry
    cases letters' with
    | nil => simp at h
    | cons entry' letters' =>
      obtain ⟨mark', c'⟩ := entry'
      obtain ⟨rfl, hrest⟩ := List.cons_eq_cons.mp h
      obtain ⟨hfirst, hothers⟩ := List.forall_mem_cons.mp hnonempty
      obtain ⟨hfirst', hothers'⟩ := List.forall_mem_cons.mp hblank
      have ih := ih hothers hothers' hrest
      obtain ⟨x, xs, hx⟩ := List.exists_cons_of_ne_nil hfirst
      have hne : blank ≠ x := fun heq => hfirst' (hx ▸ heq ▸ List.mem_cons_self)
      simp only [spelledRest, List.flatMap_cons, List.map_cons] at ih ⊢
      cases mark <;> cases mark'
      · simpa using ih
      · simp [hx, Ne.symm hne]
      · simp [hx, hne]
      · simpa using ih

theorem spelled_eq_iff (hnonempty : ∀ c ∈ letters.map Prod.snd, spell c ≠ [])
    (hblank : ∀ c ∈ letters.map Prod.snd, blank ∉ spell c) (h : letters.map Prod.snd = letters'.map Prod.snd) :
    spelled blank spell letters = spelled blank spell letters' ↔
      letters.tail.map Prod.fst = letters'.tail.map Prod.fst := by
  cases letters with
  | nil =>
    rw [List.map_eq_nil_iff.mp h.symm]
    simp
  | cons entry letters =>
    cases letters' with
    | nil => simp at h
    | cons entry' letters' =>
      obtain ⟨hsame, hrest⟩ := List.cons_eq_cons.mp h
      have hothers := (List.forall_mem_cons.mp hnonempty).2
      have hothers' := (List.forall_mem_cons.mp hblank).2
      have hrests := spelledRest_eq_iff hothers hothers' hrest
      show spell entry.2 ++ spelledRest blank spell letters = spell entry'.2 ++ spelledRest blank spell letters' ↔ _
      rw [show entry.2 = entry'.2 from hsame, List.append_cancel_left_eq]
      exact hrests

theorem spelled_congr (htail : letters.tail = letters'.tail) (h : letters.map Prod.snd = letters'.map Prod.snd) :
    spelled blank spell letters = spelled blank spell letters' := by
  cases letters with
  | nil => rw [List.map_eq_nil_iff.mp h.symm]
  | cons entry letters =>
    cases letters' with
    | nil => simp at h
    | cons entry' letters' =>
      have hrest : letters = letters' := htail
      show spell entry.2 ++ _ = spell entry'.2 ++ _
      rw [show entry.2 = entry'.2 from (List.cons_eq_cons.mp h).1, hrest]

/-- Letters that come before others only add to the spelling. -/
theorem length_spelled_le (letters letters' : List (Bool × κ)) :
    (spelled blank spell letters').length ≤ (spelled blank spell (letters ++ letters')).length := by
  have hrest : (spelled blank spell letters').length ≤ (spelledRest blank spell letters').length := by
    cases letters' with
    | nil => exact Nat.zero_le _
    | cons entry letters' =>
      simp only [spelled, spelledRest, List.flatMap_cons, List.length_append]
      omega
  cases letters with
  | nil => exact Nat.le_refl _
  | cons entry letters =>
    rw [List.cons_append, spelled, spelledRest, List.flatMap_append, List.length_append, List.length_append]
    unfold spelledRest at hrest
    omega

theorem letter_of_mem_gaps {letter : α → Option κ} {c : κ} (gap l : List α) (h : c ∈ (gaps letter gap l).map Prod.snd) :
    ∃ a ∈ l, letter a = some c := by
  induction l generalizing gap with
  | nil => simp [gaps] at h
  | cons a l ih =>
    rw [gaps] at h
    cases ha : letter a with
    | none =>
      rw [ha] at h
      obtain ⟨b, hb, hletter⟩ := ih _ h
      exact ⟨b, List.mem_cons_of_mem _ hb, hletter⟩
    | some d =>
      rw [ha] at h
      rcases List.mem_cons.mp h with hcd | hrest
      · exact ⟨a, List.mem_cons_self, ha.trans (congrArg some hcd.symm)⟩
      · obtain ⟨b, hb, hletter⟩ := ih _ hrest
        exact ⟨b, List.mem_cons_of_mem _ hb, hletter⟩

/-- What stands before the first letter does not show. -/
theorem spelled_marked_pending (letter : α → Option κ) (separates : α → Bool) (pending pending' : Bool) (l : List α) :
    spelled blank spell (marked letter separates pending l) =
      spelled blank spell (marked letter separates pending' l) :=
  spelled_congr (tail_marked pending pending' l).1 (tail_marked pending pending' l).2

/-- Two notions of a separator spell a list alike if and only if they agree between any two letters. -/
theorem spelled_marked_eq_iff {letter : α → Option κ} (separates separates' : α → Bool) (l : List α)
    (hnonempty : ∀ a ∈ l, ∀ c, letter a = some c → spell c ≠ [])
    (hblank : ∀ a ∈ l, ∀ c, letter a = some c → blank ∉ spell c) :
    spelled blank spell (marked letter separates false l) = spelled blank spell (marked letter separates' false l) ↔
      ∀ gap ∈ (gaps letter [] l).tail.map Prod.fst, gap.any separates = gap.any separates' := by
  have hmarked : ∀ s : α → Bool, marked letter s false l =
      (gaps letter [] l).map fun entry => (entry.1.any s, entry.2) := fun s => marked_eq_gaps [] l
  have hletters : ∀ s : α → Bool, (marked letter s false l).map Prod.snd = (gaps letter [] l).map Prod.snd := by
    intro s
    rw [hmarked, List.map_map]
    rfl
  have hmarks : ∀ s : α → Bool, (marked letter s false l).tail.map Prod.fst =
      ((gaps letter [] l).tail.map Prod.fst).map fun gap => gap.any s := by
    intro s
    rw [hmarked, ← List.map_tail, List.map_map, List.map_map]
    rfl
  rw [spelled_eq_iff, hmarks, hmarks, List.map_inj_left]
  · intro c hc
    obtain ⟨a, ha, hletter⟩ := letter_of_mem_gaps _ _ (hletters separates ▸ hc)
    exact hnonempty a ha c hletter
  · intro c hc
    obtain ⟨a, ha, hletter⟩ := letter_of_mem_gaps _ _ (hletters separates ▸ hc)
    exact hblank a ha c hletter
  · rw [hletters, hletters]

end Spelled

end Common
