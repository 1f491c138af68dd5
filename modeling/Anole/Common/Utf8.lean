import Mathlib
import Anole.Common.Lines

/-!
# Lossy UTF-8

`fromUtf8Lossy` reads bytes as UTF-8. A sequence that is not well formed is read as one
replacement character, up to the byte that breaks it (`String::from_utf8_lossy`).

Bytes below 128 are their own characters (`fromUtf8Lossy_ascii_append`). What is before and behind
such a byte is read apart from it (`fromUtf8Lossy_append_ascii`). Of bytes that are
cut off in front, at most replacement characters are left (`fromUtf8Lossy_drop`).
-/

namespace Common

/-- A byte that continues a sequence. -/
def isContinuation (b : ℕ) : Bool := 0x80 ≤ b ∧ b ≤ 0xBF

/-- The bytes that may come second in a sequence of three. -/
def isSecondOfThree (first second : ℕ) : Bool :=
  if first = 0xE0 then 0xA0 ≤ second ∧ second ≤ 0xBF
  else if first = 0xED then 0x80 ≤ second ∧ second ≤ 0x9F
  else isContinuation second

/-- The bytes that may come second in a sequence of four. -/
def isSecondOfFour (first second : ℕ) : Bool :=
  if first = 0xF0 then 0x90 ≤ second ∧ second ≤ 0xBF
  else if first = 0xF4 then 0x80 ≤ second ∧ second ≤ 0x8F
  else isContinuation second

/-- The character that begins with a byte, and how many bytes more it takes. -/
def lossyStep (first : ℕ) (rest : List ℕ) : Char × ℕ :=
  if first < 0x80 then (Char.ofNat first, 0)
  else if 0xC2 ≤ first ∧ first ≤ 0xDF then
    match rest with
    | b :: _ =>
      if isContinuation b then (Char.ofNat (first % 0x20 * 0x40 + b % 0x40), 1) else ('\uFFFD', 0)
    | [] => ('\uFFFD', 0)
  else if 0xE0 ≤ first ∧ first ≤ 0xEF then
    match rest with
    | b :: rest =>
      if isSecondOfThree first b then
        match rest with
        | c :: _ =>
          if isContinuation c then
            (Char.ofNat (first % 0x10 * 0x1000 + b % 0x40 * 0x40 + c % 0x40), 2)
          else ('\uFFFD', 1)
        | [] => ('\uFFFD', 1)
      else ('\uFFFD', 0)
    | [] => ('\uFFFD', 0)
  else if 0xF0 ≤ first ∧ first ≤ 0xF4 then
    match rest with
    | b :: rest =>
      if isSecondOfFour first b then
        match rest with
        | c :: rest =>
          if isContinuation c then
            match rest with
            | d :: _ =>
              if isContinuation d then
                (Char.ofNat
                  (first % 0x08 * 0x40000 + b % 0x40 * 0x1000 + c % 0x40 * 0x40 + d % 0x40), 3)
              else ('\uFFFD', 2)
            | [] => ('\uFFFD', 2)
          else ('\uFFFD', 1)
        | [] => ('\uFFFD', 1)
      else ('\uFFFD', 0)
    | [] => ('\uFFFD', 0)
  else ('\uFFFD', 0)

/-- The text after as many bytes as the last character still takes. -/
def lossyFrom : ℕ → List ℕ → List Char
  | _, [] => []
  | skip + 1, _ :: bytes => lossyFrom skip bytes
  | 0, first :: bytes => (lossyStep first bytes).1 :: lossyFrom (lossyStep first bytes).2 bytes

/-- `String::from_utf8_lossy`. -/
def fromUtf8Lossy (bytes : List UInt8) : List Char := lossyFrom 0 (bytes.map UInt8.toNat)

/-- Well-formed sequences of one to four bytes, and two that break off. -/
example : fromUtf8Lossy [0x41, 0xC3, 0xA9, 0xE2, 0x82, 0xAC, 0xF0, 0x9F, 0x98, 0x80, 0xE2, 0x82, 0x41, 0xFF] =
    ['A', 'é', '€', '😀', '\uFFFD', 'A', '\uFFFD'] := by decide

variable {before after : List UInt8}

theorem lossyFrom_ascii_cons {b : ℕ} (hb : b < 0x80) (bytes : List ℕ) :
    lossyFrom 0 (b :: bytes) = Char.ofNat b :: lossyFrom 0 bytes := by
  have hstep : lossyStep b bytes = (Char.ofNat b, 0) := if_pos hb
  rw [lossyFrom, hstep]

/-- Bytes below 128 are read one by one. -/
theorem fromUtf8Lossy_ascii_append (h : ∀ b ∈ before, b.toNat < 0x80) :
    fromUtf8Lossy (before ++ after) =
      before.map (fun b => Char.ofNat b.toNat) ++ fromUtf8Lossy after := by
  induction before with
  | nil => rfl
  | cons b before ih =>
    obtain ⟨hb, hbefore⟩ := List.forall_mem_cons.mp h
    have hcons : fromUtf8Lossy (b :: before ++ after) =
        Char.ofNat b.toNat :: fromUtf8Lossy (before ++ after) := lossyFrom_ascii_cons hb _
    rw [hcons, ih hbefore, List.map_cons, List.cons_append]

/-! ## Bytes that are cut -/

theorem isContinuation_of_three {first b : ℕ} (h : isSecondOfThree first b = true) : isContinuation b = true := by
  unfold isSecondOfThree isContinuation at *
  split_ifs at h <;> simp at h ⊢ <;> omega

theorem isContinuation_of_four {first b : ℕ} (h : isSecondOfFour first b = true) : isContinuation b = true := by
  unfold isSecondOfFour isContinuation at *
  split_ifs at h <;> simp at h ⊢ <;> omega

/-- A character takes no bytes but continuations. -/
theorem lossyStep_skips (first : ℕ) (rest : List ℕ) :
    (lossyStep first rest).2 ≤ rest.length ∧ ∀ b ∈ rest.take (lossyStep first rest).2, isContinuation b = true := by
  have hthree := @isContinuation_of_three first
  have hfour := @isContinuation_of_four first
  fun_cases lossyStep first rest <;> simp_all

theorem not_isContinuation {x : ℕ} (hx : x < 0x80) : isContinuation x = false := by
  unfold isContinuation
  simp
  omega

/-- A byte below 128 ends a sequence as the end of the bytes does. -/
theorem lossyStep_append (first : ℕ) (rest tail : List ℕ) {x : ℕ} (hx : x < 0x80) :
    lossyStep first (rest ++ x :: tail) = lossyStep first rest := by
  have hone := not_isContinuation hx
  have hthree : isSecondOfThree first x = false := by
    by_contra h
    rw [isContinuation_of_three (Bool.not_eq_false _ ▸ h)] at hone
    cases hone
  have hfour : isSecondOfFour first x = false := by
    by_contra h
    rw [isContinuation_of_four (Bool.not_eq_false _ ▸ h)] at hone
    cases hone
  unfold lossyStep
  rcases rest with _ | ⟨b, _ | ⟨c, _ | ⟨d, rest⟩⟩⟩ <;> simp [hone, hthree, hfour]

/-- A sequence of several bytes gives no character below 128. -/
theorem lossyStep_char (first : ℕ) (rest : List ℕ) (h : 0x80 ≤ first) {c : Char} (hc : c.toNat < 0x80)
    (hne : c ≠ '\x00') :
    (lossyStep first rest).1 ≠ c := by
  have hlarge : ∀ v, 0x80 ≤ v → Char.ofNat v ≠ c := by
    intro v hv heq
    unfold Char.ofNat at heq
    split at heq
    · rw [← heq] at hc
      exact absurd hc (not_lt.mpr hv)
    · exact hne heq.symm
  have hbad : '\uFFFD' ≠ c := hlarge 0xFFFD (by omega)
  fun_cases lossyStep first rest
  case case1 hsmall => omega
  case case2 hlead b _ hb =>
    apply hlarge
    unfold isContinuation at hb
    simp at hb
    omega
  case case5 hlead b _ hb c _ hc =>
    apply hlarge
    unfold isSecondOfThree isContinuation at hb
    split_ifs at hb <;> simp at hb <;> omega
  case case10 h1 h2 h3 hlead b hb c hc d tail hd =>
    apply hlarge
    unfold isSecondOfFour isContinuation at hb
    split_ifs at hb <;> simp at hb <;> omega
  all_goals exact hbad

theorem lossyFrom_append_ascii {skip : ℕ} {bytes : List ℕ} (hskip : skip ≤ bytes.length) {x : ℕ} (hx : x < 0x80)
    (tail : List ℕ) :
    lossyFrom skip (bytes ++ x :: tail) = lossyFrom skip bytes ++ Char.ofNat x :: lossyFrom 0 tail := by
  induction bytes generalizing skip with
  | nil =>
    obtain rfl : skip = 0 := by simpa using hskip
    exact lossyFrom_ascii_cons hx tail
  | cons first bytes ih =>
    cases skip with
    | zero =>
      rw [List.cons_append, lossyFrom, lossyFrom, lossyStep_append first bytes tail hx,
        ih (lossyStep_skips first bytes).1, List.cons_append]
    | succ skip =>
      rw [List.cons_append, lossyFrom, lossyFrom]
      exact ih (Nat.le_of_succ_le_succ hskip)

/-- **A byte below 128** is read as itself, and what is before and behind it apart from it. -/
theorem fromUtf8Lossy_append_ascii {x : UInt8} (hx : x.toNat < 0x80) :
    fromUtf8Lossy (before ++ x :: after) = fromUtf8Lossy before ++ Char.ofNat x.toNat :: fromUtf8Lossy after := by
  unfold fromUtf8Lossy
  rw [List.map_append, List.map_cons, lossyFrom_append_ascii (Nat.zero_le _) hx]

theorem mem_lossyFrom_ascii {skip : ℕ} {bytes : List ℕ} {c : Char} (hc : c.toNat < 0x80) (hne : c ≠ '\x00')
    (h : c ∈ lossyFrom skip bytes) : c.toNat ∈ bytes := by
  induction bytes generalizing skip with
  | nil => cases skip <;> cases h
  | cons first bytes ih =>
    cases skip with
    | succ skip => exact List.mem_cons_of_mem _ (ih h)
    | zero =>
      rw [lossyFrom] at h
      rcases List.mem_cons.mp h with hfirst | hrest
      · rcases Nat.lt_or_ge first 0x80 with hsmall | hlarge
        · have hstep : lossyStep first bytes = (Char.ofNat first, 0) := if_pos hsmall
          rw [hstep] at hfirst
          have hvalid : first.isValidChar := by
            left
            omega
          have hnat : c.toNat = first := by
            rw [hfirst, Char.ofNat, dif_pos hvalid]
            rfl
          exact hnat ▸ List.mem_cons_self
        · exact absurd hfirst.symm (lossyStep_char first bytes hlarge hc hne)
      · exact List.mem_cons_of_mem _ (ih hrest)

/-- A line break comes from its byte. -/
theorem newline_notMem_fromUtf8Lossy (h : 10 ∉ before) : '\n' ∉ fromUtf8Lossy before := by
  intro hmem
  obtain ⟨b, hb, hbyte⟩ := List.mem_map.mp (mem_lossyFrom_ascii (by decide) (by decide) hmem)
  have : b = 10 := UInt8.toNat_inj.mp hbyte
  exact h (this ▸ hb)

theorem length_lossyFrom_le (skip : ℕ) (bytes : List ℕ) : (lossyFrom skip bytes).length ≤ bytes.length := by
  induction bytes generalizing skip with
  | nil => cases skip <;> exact Nat.le_refl _
  | cons first bytes ih =>
    cases skip with
    | zero => exact Nat.succ_le_succ (ih _)
    | succ skip => exact (ih skip).trans (Nat.le_succ _)

theorem length_fromUtf8Lossy_le (bytes : List UInt8) : (fromUtf8Lossy bytes).length ≤ bytes.length := by
  unfold fromUtf8Lossy
  exact (length_lossyFrom_le 0 _).trans (by rw [List.length_map])

/-- Continuations alone are read as replacement characters. -/
theorem lossyFrom_continuations (skip : ℕ) (bytes : List ℕ) (h : ∀ b ∈ bytes.take skip, isContinuation b = true) :
    ∃ k, lossyFrom 0 bytes = List.replicate k '\uFFFD' ++ lossyFrom skip bytes := by
  induction skip generalizing bytes with
  | zero => exact ⟨0, rfl⟩
  | succ skip ih =>
    cases bytes with
    | nil => exact ⟨0, rfl⟩
    | cons b bytes =>
      rw [List.take_succ_cons] at h
      obtain ⟨hb, hrest⟩ := List.forall_mem_cons.mp h
      obtain ⟨k, hk⟩ := ih bytes hrest
      have hstep : lossyStep b bytes = ('\uFFFD', 0) := by
        unfold isContinuation at hb
        unfold lossyStep
        simp only [decide_eq_true_eq] at hb
        rw [if_neg (by omega), if_neg (by omega), if_neg (by omega), if_neg (by omega)]
      have hread : lossyFrom 0 (b :: bytes) = '\uFFFD' :: lossyFrom 0 bytes := by rw [lossyFrom, hstep]
      refine ⟨k + 1, ?_⟩
      rw [hread, hk]
      rfl

theorem lossyFrom_drop (s skip : ℕ) (bytes : List ℕ) (h : ∀ b ∈ bytes.take skip, isContinuation b = true) :
    ∃ k front back, lossyFrom 0 (bytes.drop s) = List.replicate k '\uFFFD' ++ back ∧
      lossyFrom skip bytes = front ++ back := by
  induction s generalizing skip bytes with
  | zero =>
    obtain ⟨k, hk⟩ := lossyFrom_continuations skip bytes h
    exact ⟨k, [], _, hk, rfl⟩
  | succ s ih =>
    cases bytes with
    | nil => exact ⟨0, [], _, rfl, by cases skip <;> rfl⟩
    | cons first bytes =>
      rw [List.drop_succ_cons]
      cases skip with
      | zero =>
        obtain ⟨k, front, back, hback, hfront⟩ := ih _ bytes (lossyStep_skips first bytes).2
        refine ⟨k, (lossyStep first bytes).1 :: front, back, hback, ?_⟩
        rw [lossyFrom, hfront, List.cons_append]
      | succ skip =>
        rw [List.take_succ_cons] at h
        exact ih skip bytes (List.forall_mem_cons.mp h).2

/-- **Bytes that are cut off** in front: what is left is read as before, behind some replacement characters. -/
theorem fromUtf8Lossy_drop (s : ℕ) (bytes : List UInt8) :
    ∃ k front back, fromUtf8Lossy (bytes.drop s) = List.replicate k '\uFFFD' ++ back ∧
      fromUtf8Lossy bytes = front ++ back := by
  unfold fromUtf8Lossy
  rw [List.map_drop]
  exact lossyFrom_drop s 0 _ (fun _ hb => absurd hb List.not_mem_nil)

end Common
