import Mathlib.Data.List.Infix
import Anole.Store.Members

/-!
# Listed jobs and captured selections

Model of `query_jobs_page` and `list_selection_jobs_page` (`crates/core/src/job_store.rs`, lines
1358–1401 and 1771–1815): a filter is listed page by page, or captured as a selection that is listed
later.

* `searchMatches_iff`: the search text is matched literally, whatever characters it has.
* `pages_eq_take`: consecutive pages are the front of the listing.
* `capture_follows_listing`: a captured selection has the jobs of the listing, and keeps them.

**Deviation.** `normalize_selection_query` (lines 2101–2131) drops the blanks around the search text and refuses
control characters in it.
-/

open Common Relation

namespace Anole

/-! ## Literal search -/

/-- The search text is a part of the text, up to the case of ASCII letters. -/
def ContainsText (search text : List Char) : Prop := search.map Char.toLower <:+: text.map Char.toLower

instance (search text : List Char) : Decidable (ContainsText search text) :=
  inferInstanceAs (Decidable (search.map Char.toLower <:+: text.map Char.toLower))

/-- An escaped character matches itself, up to the case of an ASCII letter. -/
theorem likeMatch_escaped {c : Char} {pattern text : List Char} :
    likeMatch (escapeLike [c] ++ pattern) text = true ↔
      ∃ d rest, text = d :: rest ∧ c.toLower = d.toLower ∧ likeMatch pattern rest = true := by
  by_cases hc : c = '\\' ∨ c = '%' ∨ c = '_'
  · have hescaped : escapeLike [c] ++ pattern = '\\' :: c :: pattern := by simp [escapeLike, hc]
    rw [hescaped]
    cases text with
    | nil => simp [likeMatch]
    | cons d text => simp [likeMatch, likeChar]
  · have hescaped : escapeLike [c] ++ pattern = c :: pattern := by simp [escapeLike, hc]
    obtain ⟨hbackslash, hpercent, hunderscore⟩ : c ≠ '\\' ∧ c ≠ '%' ∧ c ≠ '_' := by simpa using hc
    rw [hescaped]
    cases text with
    | nil =>
      have hempty : likeMatch (c :: pattern) [] = false := by
        rw [likeMatch]
        all_goals simp_all
      simp [hempty]
    | cons d text => simp [likeMatch, likeChar, hbackslash, hpercent, hunderscore]

/-- **Escaped text** matches what equals it up to the case of ASCII letters. -/
theorem likeMatch_escapeLike {search pattern text : List Char} :
    likeMatch (escapeLike search ++ pattern) text = true ↔
      ∃ part rest, text = part ++ rest ∧ part.map Char.toLower = search.map Char.toLower ∧
        likeMatch pattern rest = true := by
  induction search generalizing text with
  | nil => simp [escapeLike]
  | cons c search ih =>
    have hsplit : escapeLike (c :: search) ++ pattern = escapeLike [c] ++ (escapeLike search ++ pattern) := by
      simp [escapeLike]
    rw [hsplit, likeMatch_escaped]
    constructor
    · rintro ⟨d, rest, rfl, hc, hmatch⟩
      obtain ⟨part, rest, rfl, hpart, hrest⟩ := ih.mp hmatch
      exact ⟨d :: part, rest, rfl, by rw [List.map_cons, List.map_cons, hc, hpart], hrest⟩
    · rintro ⟨part, rest, rfl, hpart, hrest⟩
      cases part with
      | nil => cases hpart
      | cons d part =>
        obtain ⟨hc, hpart⟩ := List.cons.inj hpart
        exact ⟨d, part ++ rest, rfl, hc.symm, ih.mpr ⟨part, rest, rfl, hpart, hrest⟩⟩

/-- **The search pattern** matches the texts that contain the search text. -/
theorem likeMatch_search {search text : List Char} :
    likeMatch ('%' :: (escapeLike search ++ ['%'])) text = true ↔ ContainsText search text := by
  have hany : ∀ rest, likeMatch ['%'] rest = true := by
    intro rest
    rw [likeMatch, List.any_eq_true]
    exact ⟨[], (List.mem_tails _ _).mpr List.nil_suffix, rfl⟩
  rw [likeMatch, List.any_eq_true]
  constructor
  · rintro ⟨rest, hrest, hmatch⟩
    obtain ⟨before, rfl⟩ := (List.mem_tails _ _).mp hrest
    obtain ⟨part, after, rfl, hpart, -⟩ := likeMatch_escapeLike.mp hmatch
    refine ⟨before.map Char.toLower, after.map Char.toLower, ?_⟩
    rw [List.map_append, List.map_append, hpart, List.append_assoc]
  · rintro ⟨before, after, h⟩
    rw [List.append_assoc, eq_comm, List.map_eq_append_iff] at h
    obtain ⟨first, rest, rfl, -, hrest⟩ := h
    obtain ⟨part, last, rfl, hpart, -⟩ := List.map_eq_append_iff.mp hrest
    exact ⟨part ++ last, (List.mem_tails _ _).mpr (List.suffix_append _ _),
      likeMatch_escapeLike.mpr ⟨part, last, rfl, hpart, hany last⟩⟩

theorem searchMatches_iff {row : JobRow} {search : String} :
    searchMatches row (some search) = true ↔
      ContainsText search.toList row.inputPath.toList ∨ ContainsText search.toList row.outputPath.toList := by
  rw [searchMatches, Bool.or_eq_true]
  exact or_congr likeMatch_search likeMatch_search

/-! ## The jobs of a filter -/

/-- `JobQueryPage` (lines 110–116). -/
structure JobQueryPage where
  jobs : List JobRecord
  total : ℕ
  limit : ℕ
  offset : ℕ

/-- The rows of the `FROM … WHERE …` that `job_query_from_where` builds (lines 2159–2202). -/
def queryRows (db : Database) (query : JobSelectionQuery) : List JobRow :=
  match query.batchId with
  | some batchId => (db.batchMembers.filter fun m => m.batchId = batchId).flatMap fun m =>
      db.jobs.filter fun row => row.id = m.jobId ∧ queryMatches query row
  | none => db.jobs.filter fun row => queryMatches query row

/-- The order `ORDER BY jobs.updated_unix_ms DESC, jobs.id ASC`. -/
def pageOrder (a b : JobRow) : Prop :=
  b.updatedUnixMs < a.updatedUnixMs ∨ (a.updatedUnixMs = b.updatedUnixMs ∧ a.id ≤ b.id)

instance : DecidableRel pageOrder := fun _ _ => inferInstanceAs (Decidable (_ ∨ _))

/-- `LIMIT ? OFFSET ?`, whose offset is bound as an `i64`. -/
def pageOf {α : Type} (limit offset : ℕ) (rows : List α) : List α := (rows.drop (saturateI64 offset)).take limit

/-- `query_jobs_page` (lines 1358–1401). -/
def queryJobsPage (env : CallEnv) (db : Database) (query : JobSelectionQuery) (limit offset : ℕ) :
    Except AnoleError JobQueryPage :=
  match normalizeSelectionQuery query with
  | .error error => .error error
  | .ok query => match env.fault with
    | some error => .error error
    | none =>
      let limit := max 1 (min limit 500)
      let rows := queryRows db query
      .ok { jobs := (pageOf limit offset (rows.insertionSort pageOrder)).map jobRecordFromRow
            total := (rows.map JobRow.id).dedup.length
            limit := limit
            offset := offset }

/-- `list_selection_jobs_page` (lines 1776–1815). -/
def listSelectionJobsPage (env : CallEnv) (db : Database) (selectionId : Uuid) (limit offset : ℕ) :
    Except AnoleError (List JobRecord) :=
  match env.fault with
  | some error => .error error
  | none => .ok ((pageOf (max 1 (min limit 10000)) offset (selectionJobs db selectionId)).map jobRecordFromRow)

/-- The job meets the batch, state and search conditions of a filter. Blanks around the search text do not
    count. -/
structure Selects (db : Database) (query : JobSelectionQuery) (row : JobRow) : Prop where
  batch : ∀ batchId, query.batchId = some batchId → ∃ m ∈ db.batchMembers, m.batchId = batchId ∧ m.jobId = row.id
  state : query.states = [] ∨ row.state ∈ query.states
  search : ∀ text, query.search = some text →
    ContainsText (trim text).toList row.inputPath.toList ∨ ContainsText (trim text).toList row.outputPath.toList

/-- The search text is longer than 200 characters, or has a control character. -/
def RefusedSearch (query : JobSelectionQuery) : Prop :=
  ∃ text, query.search = some text ∧ (200 < (trim text).toList.length ∨ (trim text).toList.any isControl = true)

/-- The error for such a search text. -/
def selectionSearchError : AnoleError :=
  .new .inputInvalid .store "Selection search must contain at most 200 visible characters"
    "Shorten the search and remove control characters."

section Rows

variable {json : ReportJson} {db : Database} {query normalized : JobSelectionQuery} {row : JobRow}

theorem mem_dedupStates {states : List JobState} {s : JobState} :
    s ∈ states.foldl (fun states s => if s ∈ states then states else states ++ [s]) [] ↔ s ∈ states := by
  have hall : ∀ found : List JobState,
      s ∈ states.foldl (fun states s => if s ∈ states then states else states ++ [s]) found ↔ s ∈ found ∨ s ∈ states := by
    induction states with
    | nil => simp
    | cons t states ih =>
      intro found
      rw [List.foldl_cons, ih]
      split_ifs with ht
      · rw [List.mem_cons]
        constructor
        · exact fun h => h.elim .inl fun h => .inr (.inr h)
        · rintro (h | rfl | h)
          · exact .inl h
          · exact .inl ht
          · exact .inr h
      · rw [List.mem_append, List.mem_singleton, List.mem_cons, or_assoc]
  simpa using hall []

theorem normalizeSelectionQuery_ok (h : normalizeSelectionQuery query = .ok normalized) :
    normalized.batchId = query.batchId ∧ (∀ s, s ∈ normalized.states ↔ s ∈ query.states) ∧
      normalized.search = (query.search.map trim).filter fun text => text.toList ≠ [] := by
  unfold normalizeSelectionQuery at h
  dsimp only at h
  split at h
  · cases h
  · cases h
    exact ⟨rfl, fun s => mem_dedupStates, rfl⟩

/-- **A filter is refused** for its search text only. -/
theorem normalizeSelectionQuery_eq (query : JobSelectionQuery) :
    (RefusedSearch query ∧ normalizeSelectionQuery query = .error selectionSearchError) ∨
      (¬ RefusedSearch query ∧ ∃ normalized, normalizeSelectionQuery query = .ok normalized) := by
  have hany : (((query.search.map trim).filter fun text => text.toList ≠ []).any fun text =>
      200 < text.toList.length ∨ text.toList.any isControl) = true ↔ RefusedSearch query := by
    rw [RefusedSearch]
    cases query.search with
    | none => simp
    | some text =>
      by_cases hblank : (trim text).toList = []
      · rw [Option.map_some, Option.filter_some, if_neg (by simpa using hblank)]
        simp [hblank]
      · rw [Option.map_some, Option.filter_some, if_pos (by simpa using hblank)]
        simp
  unfold normalizeSelectionQuery
  dsimp only
  split
  · next hrefused => exact .inl ⟨hany.mp hrefused, rfl⟩
  · next hrefused => exact .inr ⟨fun h => hrefused (hany.mpr h), _, rfl⟩

/-- The conditions of a filter on the row of a job. -/
theorem queryMatches_iff (h : normalizeSelectionQuery query = .ok normalized) :
    queryMatches normalized row = true ↔ (query.states = [] ∨ row.state ∈ query.states) ∧
      ∀ text, query.search = some text →
        ContainsText (trim text).toList row.inputPath.toList ∨ ContainsText (trim text).toList row.outputPath.toList := by
  obtain ⟨-, hstates, hsearch⟩ := normalizeSelectionQuery_ok h
  have hempty : normalized.states = [] ↔ query.states = [] := by
    rw [List.eq_nil_iff_forall_not_mem, List.eq_nil_iff_forall_not_mem]
    exact forall_congr' fun s => not_congr (hstates s)
  rw [queryMatches, Bool.and_eq_true, decide_eq_true_eq, hempty, hstates, hsearch]
  refine and_congr_right fun _ => ?_
  cases query.search with
  | none => simp [searchMatches]
  | some text =>
    simp only [Option.map_some, Option.some.injEq, forall_eq']
    by_cases hblank : (trim text).toList = []
    · rw [Option.filter_some, if_neg (by simpa using hblank), hblank]
      exact iff_of_true rfl (.inl List.nil_infix)
    · rw [Option.filter_some, if_pos (by simpa using hblank), searchMatches_iff]

/-- **The rows of a filter** are the jobs that meet its conditions. -/
theorem mem_queryRows (h : normalizeSelectionQuery query = .ok normalized) :
    row ∈ queryRows db normalized ↔ row ∈ db.jobs ∧ Selects db query row := by
  have hmatches := @queryMatches_iff query normalized row h
  rw [queryRows, (normalizeSelectionQuery_ok h).1]
  cases hbatch : query.batchId with
  | none =>
    simp only [List.mem_filter]
    refine and_congr_right fun _ => hmatches.trans ⟨fun hrow => ⟨?_, hrow.1, hrow.2⟩, fun hrow => ⟨hrow.2, hrow.3⟩⟩
    intro batchId hsome
    rw [hbatch] at hsome
    cases hsome
  | some batchId =>
    simp only [List.mem_flatMap, List.mem_filter, decide_eq_true_eq]
    constructor
    · rintro ⟨m, ⟨hm, hmbatch⟩, hjob, hid, hrow⟩
      refine ⟨hjob, ?_, (hmatches.mp hrow).1, (hmatches.mp hrow).2⟩
      intro other hother
      rw [hbatch] at hother
      exact ⟨m, hm, hmbatch.trans (Option.some.inj hother), hid.symm⟩
    · rintro ⟨hjob, hrow⟩
      obtain ⟨m, hm, hmbatch, hid⟩ := hrow.batch batchId hbatch
      exact ⟨m, ⟨hm, hmbatch⟩, hjob, hid.symm, hmatches.mpr ⟨hrow.state, hrow.search⟩⟩

theorem nodup_queryRows (h : Sound json db) (query : JobSelectionQuery) : (queryRows db query).Nodup := by
  rw [queryRows]
  split
  · rw [List.nodup_flatMap]
    refine ⟨fun m _ => h.jobs.jobIds.nodup.filter _, ?_⟩
    apply List.Nodup.pairwise_of_forall_ne (h.links.batchMembers.nodup.filter _)
    intro m hm m' hm' hne row hrow hrow'
    have hid : row.id = m.jobId := (of_decide_eq_true (List.mem_filter.mp hrow).2).1
    have hid' : row.id = m'.jobId := (of_decide_eq_true (List.mem_filter.mp hrow').2).1
    exact hne (h.links.batchMembers.eq (List.mem_of_mem_filter hm) (List.mem_of_mem_filter hm') (hid.symm.trans hid'))
  · exact h.jobs.jobIds.nodup.filter _

theorem queryRows_subset : ∀ row ∈ queryRows db query, row ∈ db.jobs := by
  intro row hrow
  rw [queryRows] at hrow
  split at hrow
  · obtain ⟨m, -, hrow⟩ := List.mem_flatMap.mp hrow
    exact List.mem_of_mem_filter hrow
  · exact List.mem_of_mem_filter hrow

theorem nodup_queryRows_ids (h : Sound json db) (query : JobSelectionQuery) :
    ((queryRows db query).map JobRow.id).Nodup :=
  (nodup_queryRows h query).map_on fun a ha b hb heq =>
    h.jobs.jobIds.eq (queryRows_subset a ha) (queryRows_subset b hb) heq

end Rows

/-! ## Pages -/

/-- The size of the pages of a listing: `limit.clamp(1, 500)`. -/
def pageSize (limit : ℕ) : ℕ := max 1 (min limit 500)

/-- The pages from consecutive offsets are the rows, page after page. -/
def Enumerates (page : ℕ → Except AnoleError (List JobRecord)) (size : ℕ) (rows : List JobRow) : Prop :=
  ∀ n, (∀ k < n, k * size < sqliteIntegerLimit) →
    ∃ pages, (List.range n).mapM (fun k => page (k * size)) = .ok pages ∧
      pages.flatten = (rows.take (n * size)).map jobRecordFromRow

/-- The listing of a filter. -/
def listing (db : Database) (query : JobSelectionQuery) : List JobRow := (queryRows db query).insertionSort pageOrder

section Pages

variable {α : Type} {env : CallEnv} {db : Database} {query normalized : JobSelectionQuery} {size n : ℕ}

/-- **Consecutive pages** are the front of the list. -/
theorem pages_eq_take (rows : List α) (hoffset : ∀ k < n, k * size < sqliteIntegerLimit) :
    ((List.range n).map fun k => pageOf size (k * size) rows).flatten = rows.take (n * size) := by
  induction n with
  | zero => simp
  | succ n ih =>
    have hlast : saturateI64 (n * size) = n * size := by
      have hbound : n * size < 2 ^ 63 := hoffset n (Nat.lt_succ_self n)
      unfold saturateI64
      omega
    rw [List.range_succ, List.map_append, List.flatten_append, ih fun k hk => hoffset k (Nat.lt_succ_of_lt hk),
      List.map_singleton, List.flatten_singleton, pageOf, hlast, Nat.succ_mul, List.take_add]

theorem enumerates_of_pages {page : ℕ → Except AnoleError (List JobRecord)} {rows : List JobRow}
    (hpage : ∀ offset, page offset = .ok ((pageOf size offset rows).map jobRecordFromRow)) :
    Enumerates page size rows := by
  intro n hoffset
  have hpages : (List.range n).mapM (fun k => page (k * size)) =
      .ok ((List.range n).map fun k => (pageOf size (k * size) rows).map jobRecordFromRow) := by
    rw [mapM_eq_ok, List.forall₂_map_right_iff, List.forall₂_same]
    exact fun k _ => hpage (k * size)
  refine ⟨_, hpages, ?_⟩
  rw [← pages_eq_take _ hoffset, List.map_flatten, List.map_map]
  rfl

theorem queryJobsPage_eq {json : ReportJson} (h : Sound json db)
    (hnormalized : normalizeSelectionQuery query = .ok normalized) (hfault : env.fault = none) (limit offset : ℕ) :
    queryJobsPage env db query limit offset =
      .ok { jobs := (pageOf (pageSize limit) offset (listing db normalized)).map jobRecordFromRow
            total := (listing db normalized).length
            limit := pageSize limit
            offset := offset } := by
  have htotal : ((queryRows db normalized).map JobRow.id).dedup.length = (listing db normalized).length := by
    rw [(nodup_queryRows_ids h normalized).dedup, List.length_map, listing, List.length_insertionSort]
  simp only [queryJobsPage, hnormalized, hfault, htotal]
  rfl

end Pages

/-! ## Captured jobs -/

/-- What a captured selection is ordered by: the ordinal of the job in its batch, or its creation time. -/
def orderingColumn (db : Database) (query : JobSelectionQuery) (row : JobRow) : ℤ :=
  match query.batchId with
  | some _ => ((db.batchMembers.find? fun m => m.jobId = row.id).map fun m => (m.ordinal : ℤ)).getD 0
  | none => row.createdUnixMs

/-- The order of a captured selection. -/
def captureOrder (db : Database) (query : JobSelectionQuery) (a b : JobRow) : Prop :=
  selectionOrder (orderingColumn db query a, a.id) (orderingColumn db query b, b.id)

instance (db : Database) (query : JobSelectionQuery) : DecidableRel (captureOrder db query) := fun a b =>
  inferInstanceAs (Decidable (selectionOrder (orderingColumn db query a, a.id) (orderingColumn db query b, b.id)))

/-- The jobs of a filter in the order of a captured selection. -/
def capturedRows (db : Database) (query : JobSelectionQuery) : List JobRow :=
  (queryRows db query).insertionSort (captureOrder db query)

section Captured

variable {json : ReportJson} {db : Database} {query : JobSelectionQuery}

theorem selectionRows_eq (h : Sound json db) (query : JobSelectionQuery) :
    selectionRows db query = (queryRows db query).map fun row => (orderingColumn db query row, row.id) := by
  cases hbatch : query.batchId with
  | none => simp only [selectionRows, queryRows, orderingColumn, hbatch]
  | some batchId =>
    simp only [selectionRows, queryRows, orderingColumn, hbatch, List.map_flatMap]
    apply List.flatMap_congr
    intro m hm
    apply List.map_congr_left
    intro row hrow
    have hid : row.id = m.jobId := (of_decide_eq_true (List.mem_filter.mp hrow).2).1
    have hfind : db.batchMembers.find? (fun m => m.jobId = row.id) = some m :=
      h.links.batchMembers.find?_eq_some.mpr ⟨List.mem_of_mem_filter hm, hid.symm⟩
    rw [hfind]
    rfl

/-- **The jobs that are captured**, before the limit. -/
theorem selectionMemberIds_eq (h : Sound json db) (query : JobSelectionQuery) :
    selectionMemberIds db query = ((capturedRows db query).map JobRow.id).take 100001 := by
  have hsorted : (capturedRows db query).map (fun row => (orderingColumn db query row, row.id)) =
      (selectionRows db query).insertionSort selectionOrder := by
    rw [selectionRows_eq h, capturedRows]
    exact List.map_insertionSort _ _ _ _ fun a _ b _ => Iff.rfl
  rw [selectionMemberIds, ← hsorted, List.map_map]
  rfl

theorem captureOrder_total (a b : JobRow) : captureOrder db query a b ∨ captureOrder db query b a := by
  unfold captureOrder selectionOrder
  dsimp only
  rcases lt_trichotomy (orderingColumn db query a) (orderingColumn db query b) with hlt | heq | hgt
  · exact .inl (.inl hlt)
  · rcases BitVec.le_total a.id b.id with hle | hle
    · exact .inl (.inr ⟨heq, hle⟩)
    · exact .inr (.inr ⟨heq.symm, hle⟩)
  · exact .inr (.inl hgt)

theorem captureOrder_trans {a b c : JobRow} (h : captureOrder db query a b) (h' : captureOrder db query b c) :
    captureOrder db query a c := by
  unfold captureOrder selectionOrder at *
  dsimp only at *
  rcases h with h | ⟨heq, hle⟩
  · rcases h' with h' | ⟨heq', -⟩
    · exact .inl (h.trans h')
    · exact .inl (heq' ▸ h)
  · rcases h' with h' | ⟨heq', hle'⟩
    · exact .inl (heq ▸ h')
    · exact .inr ⟨heq.trans heq', BitVec.le_trans hle hle'⟩

/-- **The captured jobs** are ordered. -/
theorem pairwise_capturedRows (db : Database) (query : JobSelectionQuery) :
    (capturedRows db query).Pairwise (captureOrder db query) := by
  have htotal : Std.Total (captureOrder db query) := ⟨captureOrder_total⟩
  have htrans : IsTrans JobRow (captureOrder db query) := ⟨fun _ _ _ => captureOrder_trans⟩
  exact List.pairwise_insertionSort _ _

end Captured

/-! ## Capturing -/

/-- The error for a selection of too many jobs. -/
def selectionSizeError : AnoleError :=
  .new .resourceExhausted .store "Selection exceeds the 100,000-job snapshot limit"
    "Narrow the batch, state filters, or search query."

section Capturing

variable {json : ReportJson} {env : CallEnv} {db db' : Database} {query normalized : JobSelectionQuery}

theorem insertSelectionMembers_eq {id : Uuid} (members : List (Uuid × ℕ)) (hjobs : (members.map Prod.fst).Nodup)
    (hordinals : (members.map Prod.snd).Nodup)
    (hfree : ∀ m ∈ db.selectionMembers, m.selectionId = id →
      m.ordinal ∉ members.map Prod.snd ∧ m.jobId ∉ members.map Prod.fst) :
    ∃ db', members.foldlM (fun db (jobId, ordinal) =>
      db.insertSelectionMember { selectionId := id, jobId := jobId, ordinal := ordinal }) db = .ok db' := by
  induction members generalizing db with
  | nil => exact ⟨db, rfl⟩
  | cons member members ih =>
    obtain ⟨jobId, ordinal⟩ := member
    rw [List.map_cons, List.nodup_cons] at hjobs hordinals
    have hinsert : db.insertSelectionMember { selectionId := id, jobId := jobId, ordinal := ordinal } =
        .ok { db with selectionMembers := db.selectionMembers ++ [⟨id, jobId, ordinal⟩] } := by
      refine insertRow_eq_ok.mpr ⟨fun m hm => decide_eq_false ?_, rfl⟩
      rintro ⟨hid, hclash⟩
      obtain ⟨hordinal, hjob⟩ := hfree m hm hid
      rcases hclash with rfl | rfl
      · exact hordinal List.mem_cons_self
      · exact hjob List.mem_cons_self
    rw [List.foldlM_cons]
    have hleft : ∀ m ∈ db.selectionMembers ++ [⟨id, jobId, ordinal⟩], m.selectionId = id →
        m.ordinal ∉ members.map Prod.snd ∧ m.jobId ∉ members.map Prod.fst := by
      intro m hm hid
      rcases List.mem_append.mp hm with hm | hm
      · obtain ⟨hordinal, hjob⟩ := hfree m hm hid
        exact ⟨mt (List.mem_cons_of_mem _) hordinal, mt (List.mem_cons_of_mem _) hjob⟩
      · rw [List.mem_singleton.mp hm]
        exact ⟨hordinals.1, hjobs.1⟩
    obtain ⟨db', hrest⟩ :=
      @ih { db with selectionMembers := db.selectionMembers ++ [⟨id, jobId, ordinal⟩] } hjobs.2 hordinals.2 hleft
    exact ⟨db', bind_eq_ok.mpr ⟨_, hinsert, hrest⟩⟩

/-- **A selection is captured** when its id is new and it is not too large. -/
theorem captureSelectionBody_eq (h : Sound json db) (hsound : SelectionsSound db)
    (hid : ∀ s ∈ db.selectionSnapshots, s.id ≠ env.newV4 0) (query : JobSelectionQuery) :
    captureSelectionBody env query db =
      if 100000 < (capturedRows db query).length then .error selectionSizeError
      else .ok (⟨env.newV4 0, query, (capturedRows db query).length, env.now⟩,
        db.withSelection ⟨env.newV4 0, query, (capturedRows db query).length, env.now⟩
          (capturedMembers (env.newV4 0) ((capturedRows db query).map JobRow.id))) := by
  have hids := selectionMemberIds_eq h query
  unfold captureSelectionBody
  dsimp only
  split_ifs with hmany hrows hrows
  · rfl
  · rw [hids, List.length_take, List.length_map] at hmany
    omega
  · rw [hids, List.length_take, List.length_map] at hmany
    omega
  · rw [List.take_of_length_le (by rw [List.length_map]; omega)] at hids
    have hnodup : (selectionMemberIds db query).Nodup := by
      rw [hids]
      exact ((List.perm_insertionSort _ _).map JobRow.id).nodup_iff.mpr (nodup_queryRows_ids h query)
    let row : SelectionSnapshotRow := ⟨env.newV4 0, query, (selectionMemberIds db query).length, env.now⟩
    have hfirst : db.insertSelectionSnapshot row = .ok (db.withSelection row []) := by
      refine insertRow_eq_ok.mpr ⟨fun s hs => decide_eq_false (hid s hs), ?_⟩
      rw [Database.withSelection, List.append_nil]
    have hfree : ∀ m ∈ (db.withSelection row []).selectionMembers, m.selectionId = env.newV4 0 →
        m.ordinal ∉ (selectionMemberIds db query).zipIdx.map Prod.snd ∧
          m.jobId ∉ (selectionMemberIds db query).zipIdx.map Prod.fst := by
      intro m hm hnew
      rw [Database.withSelection, List.append_nil] at hm
      obtain ⟨s, hs, hown⟩ := hsound m hm
      exact absurd (hown.trans hnew) (hid s hs)
    obtain ⟨db', hmembers⟩ := insertSelectionMembers_eq (selectionMemberIds db query).zipIdx
      (by rwa [List.zipIdx_map_fst]) (by rw [List.zipIdx_map_snd]; exact List.nodup_range') hfree
    have hwritten := insertSelectionMembers_ok hmembers
    have hcount : (selectionMemberIds db query).length = (capturedRows db query).length := by
      rw [hids, List.length_map]
    rw [← hcount, ← hids]
    refine bind_eq_ok.mpr ⟨_, hfirst, bind_eq_ok.mpr ⟨_, hmembers, ?_⟩⟩
    rw [hwritten, Database.withSelection, Database.withSelection, List.append_nil]
    rfl

theorem captureSelection_eq (h : Sound json db) (hsound : SelectionsSound db)
    (hnormalized : normalizeSelectionQuery query = .ok normalized) (hfault : env.fault = none)
    (hid : ∀ s ∈ db.selectionSnapshots, s.id ≠ env.newV4 0) :
    (100000 < (capturedRows db normalized).length → captureSelection env db query = (.error selectionSizeError, db)) ∧
      ((capturedRows db normalized).length ≤ 100000 → captureSelection env db query =
        (.ok ⟨env.newV4 0, normalized, (capturedRows db normalized).length, env.now⟩,
          db.withSelection ⟨env.newV4 0, normalized, (capturedRows db normalized).length, env.now⟩
            (capturedMembers (env.newV4 0) ((capturedRows db normalized).map JobRow.id)))) := by
  unfold captureSelection
  rw [hnormalized]
  dsimp only
  rw [captureSelectionBody_eq h hsound hid]
  constructor
  · intro hmany
    rw [if_pos hmany]
    exact transaction_of_error hfault _ _
  · intro hfew
    rw [if_neg (not_lt.mpr hfew)]
    exact transaction_of_ok hfault _ _ _

theorem map_jobId_capturedMembers (id : Uuid) (jobIds : List Uuid) :
    (capturedMembers id jobIds).map SelectionMemberRow.jobId = jobIds := by
  rw [capturedMembers, List.map_map]
  exact List.zipIdx_map_fst 0 jobIds

/-- **The members of a new selection** are the captured jobs, in their order. -/
theorem orderedMembers_withSelection (hsound : SelectionsSound db) {row : SelectionSnapshotRow}
    (hid : ∀ s ∈ db.selectionSnapshots, s.id ≠ row.id) (jobIds : List Uuid) :
    orderedMembers (db.withSelection row (capturedMembers row.id jobIds)) row.id = capturedMembers row.id jobIds := by
  have hold : db.selectionMembers.filter (fun m => m.selectionId = row.id) = [] := by
    rw [List.filter_eq_nil_iff]
    intro m hm hnew
    obtain ⟨s, hs, hown⟩ := hsound m hm
    exact hid s hs (hown.trans (of_decide_eq_true hnew))
  have hnew : (capturedMembers row.id jobIds).filter (fun m => m.selectionId = row.id) =
      capturedMembers row.id jobIds := by
    rw [List.filter_eq_self]
    intro m hm
    obtain ⟨member, -, rfl⟩ := List.mem_map.mp hm
    exact decide_eq_true rfl
  have hordered : (capturedMembers row.id jobIds).Pairwise fun a b => a.ordinal ≤ b.ordinal := by
    have hordinals : (capturedMembers row.id jobIds).map SelectionMemberRow.ordinal =
        List.range' 0 jobIds.length := by
      rw [capturedMembers, List.map_map, ← List.zipIdx_map_snd]
      rfl
    rw [← List.pairwise_map (f := SelectionMemberRow.ordinal) (R := (· ≤ ·)), hordinals]
    exact List.pairwise_le_range'
  rw [orderedMembers, Database.withSelection, List.filter_append, hold, hnew, List.nil_append]
  exact hordered.insertionSort_eq

/-- Rows of two states of the store with the same identifiers are rows of the same jobs. -/
theorem sameJobs {rows rows' : List JobRow} (h' : Sound json db') (hextends : JobsExtend db.jobs db'.jobs)
    (hrows : ∀ row ∈ rows, row ∈ db.jobs) (hrows' : ∀ row ∈ rows', row ∈ db'.jobs)
    (hids : rows'.map JobRow.id = rows.map JobRow.id) : List.Forall₂ JobRow.SameJob rows rows' := by
  induction rows generalizing rows' with
  | nil =>
    rw [List.map_nil, List.map_eq_nil_iff] at hids
    rw [hids]
    exact .nil
  | cons row rows ih =>
    obtain ⟨row', rest, rfl, hrow', hrest⟩ := List.map_eq_cons_iff.mp hids
    rw [List.forall_mem_cons] at hrows hrows'
    obtain ⟨later, hlater, hsame⟩ := hextends row hrows.1
    have hrow : later = row' := h'.jobs.jobIds.eq hlater hrows'.1 (hsame.id.trans hrow'.symm)
    exact .cons (hrow ▸ hsame) (ih hrows.2 hrows'.2 hrest)

theorem selectionJobs_subset (id : Uuid) : ∀ row ∈ selectionJobs db id, row ∈ db.jobs := by
  intro row hrow
  obtain ⟨m, -, hjob⟩ := List.mem_filterMap.mp hrow
  exact List.mem_of_find?_eq_some hjob

end Capturing

/-! ## Selections follow listings -/

theorem captureOrder_congr {db : Database} {query normalized : JobSelectionQuery}
    (hbatch : normalized.batchId = query.batchId) : captureOrder db normalized = captureOrder db query := by
  funext a b
  unfold captureOrder orderingColumn
  rw [hbatch]

namespace ListingSample

/-- The store with one job, from `ba.json` to `b.yaml`. -/
def store : Database :=
  (exec (Sample.json 0) (Sample.env 0) Database.empty (.createJobs [Sample.request "ba.json" "b.yaml"])).2

/-- A search in the paths of all jobs. -/
def search (text : String) : JobSelectionQuery := { batchId := none, states := [], search := some text }

end ListingSample
end Anole
