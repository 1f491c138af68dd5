import Mathlib.Data.List.Sort
import Mathlib.Data.BitVec

/-!
# Domain types of the Anole core

The types of `crates/core/src/domain.rs` and `crates/core/src/error.rs`, as far
as the job store and the queue window use them.

* `JobState` and `JobState.canTransitionTo`: the job state machine.
* `AnoleError`: typed errors with their code, stage and texts.
* `PathBuf`: a path as a list of characters and ill-formed parts. The store
  keeps paths as text (`to_string_lossy`), which renders every ill-formed part
  as U+FFFD, so two different paths can have one rendering (`toStringLossy_illFormed`).
-/

namespace Anole

/-! ## Identifiers and paths -/

/-- `uuid::Uuid`. The store keeps its hyphenated lower-case text, which has a
    fixed width, so comparing the text is comparing the value. -/
abbrev Uuid := BitVec 128

instance : LawfulBEq Uuid := inferInstance

/-- The last `width` hexadecimal digits of a number, in lower case. -/
def hexDigits : ℕ → ℕ → List Char
  | 0, _ => []
  | width + 1, n => hexDigits width (n / 16) ++ [Nat.digitChar (n % 16)]

/-- `Uuid::to_string`: 32 hexadecimal digits in groups of 8, 4, 4, 4 and 12. -/
def Uuid.toText (id : Uuid) : String :=
  let digits := hexDigits 32 id.toNat
  String.ofList (digits.take 8 ++ '-' :: (digits.drop 8).take 4 ++ '-' :: (digits.drop 12).take 4 ++
    '-' :: (digits.drop 16).take 4 ++ '-' :: digits.drop 20)

/-- The number a hexadecimal text denotes, hyphens skipped. -/
def hexValue (cs : List Char) : ℕ :=
  cs.foldl (fun v c => if c = '-' then v else
    16 * v + (if c.toNat < 97 then c.toNat - 48 else c.toNat - 87)) 0

theorem hexValue_hexDigits (width n : ℕ) : hexValue (hexDigits width n) = n % 16 ^ width := by
  have hdigit : ∀ d : Fin 16, Nat.digitChar d ≠ '-' ∧ (if (Nat.digitChar d).toNat < 97
      then (Nat.digitChar d).toNat - 48 else (Nat.digitChar d).toNat - 87) = (d : ℕ) := by decide
  induction width generalizing n with
  | zero => simp [hexDigits, hexValue, Nat.mod_one]
  | succ width ih =>
    obtain ⟨hhyphen, hvalue⟩ := hdigit ⟨n % 16, Nat.mod_lt n (by decide)⟩
    rw [hexDigits, hexValue, List.foldl_append]
    change (if _ then _ else 16 * hexValue (hexDigits width (n / 16)) + _) = _
    rw [if_neg hhyphen, hvalue, ih, Nat.pow_succ', Nat.mod_mul]
    exact Nat.add_comm _ _

theorem Uuid.hexValue_toText (id : Uuid) : hexValue id.toText.toList = id.toNat := by
  have hgroup : ∀ (m k : ℕ) (ds : List Char), (ds.drop m).take k ++ ds.drop (m + k) = ds.drop m := by
    intro m k ds
    rw [← List.drop_drop, List.take_append_drop]
  have hsplit : ∀ ds : List Char, ds = ds.take 8 ++ ((ds.drop 8).take 4 ++ ((ds.drop 12).take 4 ++
      ((ds.drop 16).take 4 ++ ds.drop 20))) := by
    intro ds
    rw [hgroup 16 4, hgroup 12 4, hgroup 8 4, List.take_append_drop]
  have hvalue := hexValue_hexDigits 32 id.toNat
  rw [Nat.mod_eq_of_lt (by exact id.isLt), hsplit (hexDigits 32 _)] at hvalue
  rw [← hvalue, Uuid.toText, String.toList_ofList]
  simp [hexValue, List.foldl_append]

theorem Uuid.toText_injective {a b : Uuid} (h : a.toText = b.toText) : a = b := by
  refine BitVec.eq_of_toNat_eq ?_
  rw [← Uuid.hexValue_toText a, h, Uuid.hexValue_toText b]

theorem mem_hexDigits {c : Char} {width n : ℕ} (h : c ∈ hexDigits width n) :
    ∃ d : Fin 16, c = Nat.digitChar d := by
  induction width generalizing n with
  | zero => cases h
  | succ width ih =>
    rcases List.mem_append.mp h with h | h
    · exact ih h
    · exact ⟨⟨n % 16, Nat.mod_lt n (by decide)⟩, List.mem_singleton.mp h⟩

/-- The text of an identifier is of hexadecimal digits and hyphens. -/
theorem Uuid.mem_toText {id : Uuid} {c : Char} (h : c ∈ id.toText.toList) :
    c = '-' ∨ ∃ d : Fin 16, c = Nat.digitChar d := by
  rw [Uuid.toText, String.toList_ofList] at h
  simp only [List.mem_append, List.mem_cons] at h
  have hdrop : ∀ m, c ∈ (hexDigits 32 id.toNat).drop m → ∃ d : Fin 16, c = Nat.digitChar d :=
    fun m hm => mem_hexDigits (List.mem_of_mem_drop hm)
  rcases h with ((((h | h | h) | h | h) | h | h) | h | h)
  · exact .inr (mem_hexDigits (List.mem_of_mem_take h))
  · exact .inl h
  · exact .inr (hdrop 8 (List.mem_of_mem_take h))
  · exact .inl h
  · exact .inr (hdrop 12 (List.mem_of_mem_take h))
  · exact .inl h
  · exact .inr (hdrop 16 (List.mem_of_mem_take h))
  · exact .inl h
  · exact .inr (hdrop 20 h)

theorem Uuid.slash_not_mem_toText (id : Uuid) : '/' ∉ id.toText.toList := by
  intro h
  rcases Uuid.mem_toText h with h | ⟨d, h⟩
  · exact absurd h (by decide)
  · revert d
    decide
/-- One unit of an operating-system string: a character, or a maximal
    ill-formed part (on Unix bytes that are not UTF-8, on Windows the bytes of
    an unpaired surrogate). -/
inductive PathUnit where
  | char (c : Char)
  | illFormed (bytes : List UInt8)
  deriving DecidableEq

/-- `std::path::PathBuf`. -/
abbrev PathBuf := List PathUnit

/-- The character `to_string_lossy` renders a unit as. -/
def PathUnit.lossy : PathUnit → Char
  | .char c => c
  | .illFormed _ => '\uFFFD'

/-- `Path::to_string_lossy`. -/
def PathBuf.toStringLossy (path : PathBuf) : String := String.ofList (path.map PathUnit.lossy)

/-- `PathBuf::from(String)`. -/
def PathBuf.ofString (text : String) : PathBuf := text.toList.map PathUnit.char

theorem PathBuf.ofString_append (a b : String) :
    PathBuf.ofString (a ++ b) = PathBuf.ofString a ++ PathBuf.ofString b := by
  simp [PathBuf.ofString]

/-- The path is valid Unicode (`Path::to_str` is `Some`). -/
def PathBuf.IsUnicode (path : PathBuf) : Prop := ∃ text, path = PathBuf.ofString text

@[simp] theorem toStringLossy_ofString (text : String) :
    (PathBuf.ofString text).toStringLossy = text := by
  have hmap : (PathBuf.ofString text).map PathUnit.lossy = text.toList := by
    simp [PathBuf.ofString, Function.comp_def, PathUnit.lossy]
  rw [PathBuf.toStringLossy, hmap, String.ofList_toList]

theorem PathBuf.ofString_injective {s t : String} (h : PathBuf.ofString s = PathBuf.ofString t) : s = t := by
  have htext := congrArg PathBuf.toStringLossy h
  rwa [toStringLossy_ofString, toStringLossy_ofString] at htext

/-- The text column reads back as the path that was stored, for Unicode paths. -/
theorem PathBuf.IsUnicode.ofString_toStringLossy {path : PathBuf} (h : path.IsUnicode) :
    PathBuf.ofString path.toStringLossy = path := by
  obtain ⟨text, rfl⟩ := h
  rw [toStringLossy_ofString]

/-- On Unicode paths the rendering is injective. -/
theorem PathBuf.IsUnicode.eq_of_toStringLossy_eq {p q : PathBuf} (hp : p.IsUnicode)
    (hq : q.IsUnicode) (h : p.toStringLossy = q.toStringLossy) : p = q := by
  rw [← hp.ofString_toStringLossy, h, hq.ofString_toStringLossy]

/-- Elsewhere it is not: ill-formed parts lose their bytes. -/
theorem toStringLossy_illFormed (a b : List UInt8) :
    PathBuf.toStringLossy [.illFormed a] = PathBuf.toStringLossy [.illFormed b] := rfl

/-! ## Errors (`error.rs`) -/

/-- `ErrorCode` (`error.rs`, lines 10–24). -/
inductive ErrorCode where
  | inputInvalid | inputChanged | unsupported | engineMissing | engineIncompatible
  | policyBlocked | resourceExhausted | executionFailed | cancelled | validationFailed
  | outputConflict | storageFailed | internal
  deriving DecidableEq

/-- `Display for ErrorCode` (`error.rs`, lines 44–48), which is its `Debug` rendering. -/
def ErrorCode.debug : ErrorCode → String
  | inputInvalid => "InputInvalid"
  | inputChanged => "InputChanged"
  | unsupported => "Unsupported"
  | engineMissing => "EngineMissing"
  | engineIncompatible => "EngineIncompatible"
  | policyBlocked => "PolicyBlocked"
  | resourceExhausted => "ResourceExhausted"
  | executionFailed => "ExecutionFailed"
  | cancelled => "Cancelled"
  | validationFailed => "ValidationFailed"
  | outputConflict => "OutputConflict"
  | storageFailed => "StorageFailed"
  | internal => "Internal"

/-- `Stage` (`error.rs`, lines 54–62). -/
inductive Stage where
  | inspect | plan | execute | validate | commit | store | doctor
  deriving DecidableEq

/-- `AnoleError` (`error.rs`, lines 64–73). -/
structure AnoleError where
  code : ErrorCode
  stage : Stage
  retryable : Bool
  message : String
  userAction : String
  diagnostic : Option String
  deriving DecidableEq

/-- `AnoleError::new` (`error.rs`, lines 76–92). -/
def AnoleError.new (code : ErrorCode) (stage : Stage) (message userAction : String) : AnoleError :=
  { code := code, stage := stage, retryable := false, message := message,
    userAction := userAction, diagnostic := none }

/-- `AnoleError::retryable` (`error.rs`, lines 94–98). -/
def AnoleError.setRetryable (error : AnoleError) (retryable : Bool) : AnoleError :=
  { error with retryable := retryable }

/-- `AnoleError::with_diagnostic` (`error.rs`, lines 100–104). -/
def AnoleError.withDiagnostic (error : AnoleError) (diagnostic : String) : AnoleError :=
  { error with diagnostic := some diagnostic }

/-- `Display for AnoleError` (`error.rs`, line 65). -/
def AnoleError.display (error : AnoleError) : String := s!"{error.code.debug}: {error.message}"

/-! ## The job state machine (`domain.rs`) -/

/-- `JobState` (`domain.rs`, lines 297–311). -/
inductive JobState where
  | queued | inspecting | planned | blocked | running | validating
  | completed | warning | failed | cancelled | interrupted
  deriving DecidableEq

namespace JobState

/-- The `Debug` rendering of a state, used in error messages. -/
def debug : JobState → String
  | queued => "Queued"
  | inspecting => "Inspecting"
  | planned => "Planned"
  | blocked => "Blocked"
  | running => "Running"
  | validating => "Validating"
  | completed => "Completed"
  | warning => "Warning"
  | failed => "Failed"
  | cancelled => "Cancelled"
  | interrupted => "Interrupted"

/-- `JobState::can_transition_to` (`domain.rs`, lines 313–335). -/
def canTransitionTo : JobState → JobState → Bool
  | inspecting, next => next = planned ∨ next = blocked ∨ next = failed ∨ next = cancelled
  | planned, next => next = queued ∨ next = running ∨ next = blocked ∨ next = cancelled
  | queued, next => next = inspecting ∨ next = blocked ∨ next = cancelled
  | blocked, next => next = queued ∨ next = cancelled
  | interrupted, next => next = queued ∨ next = cancelled
  | running, next => next = validating ∨ next = failed ∨ next = cancelled ∨ next = interrupted
  | validating, next =>
    next = completed ∨ next = warning ∨ next = failed ∨ next = cancelled ∨ next = interrupted
  | failed, next => next = queued
  | cancelled, next => next = queued
  | completed, _ => false
  | warning, _ => false

/-- `is_terminal` (`job_store.rs`, lines 2857–2862). -/
def isTerminal : JobState → Bool
  | completed | warning | failed | cancelled => true
  | _ => false

theorem ne_of_canTransitionTo {s t : JobState} (h : s.canTransitionTo t = true) : s ≠ t := by
  rintro rfl
  cases s <;> simp [canTransitionTo] at h

/-- Only `Queued` can follow a terminal state. -/
theorem eq_queued_of_isTerminal {s t : JobState} (h : s.canTransitionTo t = true)
    (hs : s.isTerminal = true) : t = queued := by
  cases s <;> simp_all [canTransitionTo, isTerminal]

/-- Nothing follows `Completed` and `Warning`. -/
theorem not_canTransitionTo_of_finished {s t : JobState} (hs : s = completed ∨ s = warning) :
    s.canTransitionTo t = false := by
  rcases hs with rfl | rfl <;> rfl

/-- Only a `Queued` job can enter `Inspecting`. -/
theorem eq_queued_of_to_inspecting {s : JobState} (h : s.canTransitionTo inspecting = true) :
    s = queued := by
  cases s <;> simp_all [canTransitionTo]

end JobState

/-! ## Plans and reports (`domain.rs`) -/

/-- `Operation` (`engine-sdk/src/lib.rs`, lines 61–69). -/
inductive Operation where
  | inspect | remux | transcode | transform | render | serialize | metadataClean
  deriving DecidableEq

/-- `EngineIdentity` (`engine-sdk/src/lib.rs`, lines 72–80), the fields the queue compares. -/
structure EngineIdentity where
  engineId : String
  version : String
  binarySha256 : String
  deriving DecidableEq

/-- `PlanStep` (`domain.rs`, lines 210–218), the fields the queue reads. -/
structure PlanStep where
  capabilityId : String
  engine : EngineIdentity
  operation : Operation
  arguments : List (String × String)
  deriving DecidableEq

/-- `Plan` (`domain.rs`, lines 221–234), the fields the store and the queue read. -/
structure Plan where
  planHash : String
  inputFingerprint : String
  targetFormat : String
  steps : List PlanStep
  deriving DecidableEq

/-- `ValidationStatus` (`domain.rs`, lines 236–243). -/
inductive ValidationStatus where
  | pass | warning | fail | unknown
  deriving DecidableEq

/-- `validation_status_name` (`maintenance.rs`, lines 761–768). -/
def ValidationStatus.name : ValidationStatus → String
  | pass => "pass"
  | warning => "warning"
  | fail => "fail"
  | unknown => "unknown"

/-- `ValidationReport` (`domain.rs`, lines 283–295), the fields the store, the
    integrity check and the queue read; `outputSizeBytes` is `output.size_bytes`. -/
structure ValidationReport where
  jobId : Uuid
  planHash : String
  status : ValidationStatus
  outputSizeBytes : ℕ
  deriving DecidableEq

end Anole
