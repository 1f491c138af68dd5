import Anole.Store.Runs

/-!
# Idempotent submission

An idempotency key is bound to the first submission that commits under it, for
ever. What a later submission under the key means is decided by `same_intent`,
which compares the stored *text* of the input path with the text of the request.

**Deviation.** The texts come from `to_string_lossy`. Two different input paths that
are not Unicode can have one text, and then a submission for another input is taken
for a replay of the first one, although the operation promises a policy error when
a key is reused for a different intent. `idempotent_submission` states exactly when
a submission under a bound key is judged correctly.

Main results:
* `boundJob_forever`: a key never changes its job.
* `idempotent_submission`: the law of submissions over all runs.
-/

open Common

namespace Anole

variable {json : ReportJson} {env : CallEnv} {db db' : Database} {key : String}
  {request original : JobCreateRequest} {label : StoreLabel} {row : JobRow}

/-! ## Keys are bound for ever -/

theorem boundJob_forever (h : Sound json db) (hw : Writes json db db')
    (hbound : db.boundJob key = some row) :
    ∃ row', db'.boundJob key = some row' ∧ row.SameJob row' := by
  obtain ⟨hrow, r, hr, hkey, hid⟩ := (boundJob_eq_some h).mp hbound
  obtain ⟨row', hrow', hsame⟩ := hw.extends row hrow
  refine ⟨row', (boundJob_eq_some (hw.sound h)).mpr ⟨hrow', r, ?_, hkey, ?_⟩, hsame⟩
  · exact hw.keys.subset hr
  · exact hid.trans hsame.id.symm

/-! ## Submissions -/

/-- The label is a submission of `request` under `key`, trimmed. -/
def StoreLabel.Submits (label : StoreLabel) (key : String) (request : JobCreateRequest) : Prop :=
  ∃ text, validateIdempotencyKey text = .ok key ∧
    (label.call = .createJobIdempotent text request ∨
      label.call = .enqueueJobIdempotent text request)

/-- What the label's call returned, for a submission. -/
def StoreLabel.Returns (label : StoreLabel) (result : Except AnoleError IdempotentJobResult) : Prop :=
  label.response = .idempotent result

theorem StoreLabel.Returns.eq {r r' : Except AnoleError IdempotentJobResult}
    (h : label.Returns r) (h' : label.Returns r') : r = r' :=
  Response.idempotent.inj (h.symm.trans h')

theorem submission_step (hstep : StoreStep json db label db')
    (hsubmits : label.Submits key request) :
    ∃ enqueue result, label.Returns result ∧
      transaction label.env db (createJobIdempotentBody label.env key request enqueue db) =
        (result, db') := by
  obtain ⟨env, call, response⟩ := label
  obtain ⟨text, hkey, hcall⟩ := hsubmits
  have hbody : ∀ enqueue, createJobIdempotentWithState env db text request enqueue =
      transaction env db (createJobIdempotentBody env key request enqueue db) := by
    intro enqueue
    rw [createJobIdempotentWithState, hkey]
  rcases hcall with rfl | rfl
  · simp only [StoreStep, exec, Prod.map, id_eq, Prod.mk.injEq] at hstep
    exact ⟨false, _, hstep.1.symm, (hbody false).symm.trans (Prod.ext rfl hstep.2)⟩
  · simp only [StoreStep, exec, Prod.map, id_eq, Prod.mk.injEq] at hstep
    exact ⟨true, _, hstep.1.symm, (hbody true).symm.trans (Prod.ext rfl hstep.2)⟩

/-- A submission that fails consumes nothing: no key, no job, no reservation. -/
theorem submission_error (hstep : StoreStep json db label db')
    (hsubmits : label.Submits key request) {error : AnoleError}
    (hreturns : label.Returns (.error error)) : db' = db := by
  obtain ⟨enqueue, result, hresult, htransaction⟩ := submission_step hstep hsubmits
  rw [hresult.eq hreturns] at htransaction
  exact transaction_error htransaction

/-- The row keeps the texts and the Plan of a request. -/
structure JobRow.StoredFrom (row : JobRow) (request : JobCreateRequest) : Prop where
  inputPath : row.inputPath = request.inputPath.toStringLossy
  outputPath : row.outputPath = request.outputPath.toStringLossy
  planHash : row.planHash = request.plan.planHash

theorem JobRow.StoredFrom.of_sameJob {row row' : JobRow} (h : row.StoredFrom request)
    (hs : row.SameJob row') : row'.StoredFrom request :=
  ⟨hs.inputPath.trans h.inputPath, hs.outputPath.trans h.outputPath, hs.planHash.trans h.planHash⟩

theorem submission_created (h : Sound json db)
    (hstep : StoreStep json db label db') (hsubmits : label.Submits key request)
    {result : IdempotentJobResult} (hreturns : label.Returns (.ok result))
    (hcreated : result.created = true) :
    ∃ row, db'.boundJob key = some row ∧ row.id = result.job.id ∧ row.StoredFrom request := by
  obtain ⟨enqueue, result', hresult, htransaction⟩ := submission_step hstep hsubmits
  rw [hresult.eq hreturns] at htransaction
  have hbody := (transaction_ok.mp htransaction).2
  rcases createJobIdempotentBody_ok h hbody with ⟨row, _, _, rfl, _⟩ |
    ⟨_, _, hid, k, hw, hfresh, hend⟩
  · cases hcreated
  · -- right after the binding the key names the new row; queueing it keeps that
    have hbound := (boundJob_eq_some (hw.sound h)).mpr
      ⟨List.mem_append_right _ (List.mem_singleton.mpr rfl), ⟨key, label.env.newV4 0, label.env.now⟩,
        List.mem_append_right _ (List.mem_singleton.mpr rfl), rfl, rfl⟩
    have hlater : Writes json ((db.withCreated (newJobRow label.env (label.env.newV4 0) request)
        k).withKey ⟨key, label.env.newV4 0, label.env.now⟩) db' := by
      rcases hend with ⟨_, rfl⟩ | ⟨_, henqueue⟩
      · exact .refl
      · exact .single (enqueueCreated_write (hw.sound h) hfresh henqueue)
    obtain ⟨row, hrow, hsame⟩ := boundJob_forever (hw.sound h) hlater hbound
    have hstored : (newJobRow label.env (label.env.newV4 0) request).StoredFrom request :=
      ⟨rfl, rfl, rfl⟩
    exact ⟨row, hrow, hsame.id.trans hid.symm, hstored.of_sameJob hsame⟩

/-! ## Intent -/

/-- Both output paths resolve, and to one identity. -/
def SameOutput (env : CallEnv) (stored requested : PathBuf) : Prop :=
  ∃ identity, env.reservationKey 0 stored = .ok identity ∧
    env.reservationKey 1 requested = .ok identity

/-- The same intent: same input path, Plan hash and output identity. -/
structure SameIntent (env : CallEnv) (original request : JobCreateRequest) : Prop where
  inputPath : request.inputPath = original.inputPath
  planHash : request.plan.planHash = original.plan.planHash
  output : SameOutput env original.outputPath request.outputPath

/-- What the code compares. -/
theorem sameIntent_eq_ok_true :
    sameIntent env row request = .ok true ↔
      row.inputPath = request.inputPath.toStringLossy ∧ row.planHash = request.plan.planHash ∧
        SameOutput env (PathBuf.ofString row.outputPath) request.outputPath := by
  unfold sameIntent
  by_cases htext : row.inputPath = request.inputPath.toStringLossy ∧
      row.planHash = request.plan.planHash
  · rw [if_pos htext, bind_eq_ok]
    constructor
    · rintro ⟨stored, hstored, hok⟩
      obtain ⟨requested, hrequested, hok⟩ := bind_eq_ok.mp hok
      have heq : stored = requested := by
        have := Except.ok.inj hok
        simpa using this
      exact ⟨htext.1, htext.2, stored, hstored, by rw [heq]; exact hrequested⟩
    · rintro ⟨_, _, identity, hstored, hrequested⟩
      refine ⟨identity, hstored, bind_eq_ok.mpr ⟨identity, hrequested, ?_⟩⟩
      simp [pure, Except.pure]
  · rw [if_neg htext]
    refine iff_of_false (by simp) ?_
    rintro ⟨h1, h2, _⟩
    exact htext ⟨h1, h2⟩

/-- When the Plan hashes agree: (a) an input path with the text of the original one and
    the same output identity is the original one, and (b) for the original input path
    the stored text of the output path stands for the original output path. -/
structure PathsFaithful (env : CallEnv) (original request : JobCreateRequest) : Prop where
  input : request.plan.planHash = original.plan.planHash →
    request.inputPath.toStringLossy = original.inputPath.toStringLossy →
    SameOutput env (PathBuf.ofString original.outputPath.toStringLossy) request.outputPath →
    request.inputPath = original.inputPath
  output : request.plan.planHash = original.plan.planHash →
    request.inputPath = original.inputPath →
    (SameOutput env (PathBuf.ofString original.outputPath.toStringLossy) request.outputPath ↔
      SameOutput env original.outputPath request.outputPath)

theorem pathsFaithful_of_isUnicode (horiginal : original.inputPath.IsUnicode)
    (hrequest : request.inputPath.IsUnicode) (houtput : original.outputPath.IsUnicode) :
    PathsFaithful env original request where
  input _ htext _ := hrequest.eq_of_toStringLossy_eq horiginal htext
  output _ _ := by rw [houtput.ofString_toStringLossy]

/-- The code's comparison is the comparison of intents exactly on faithful paths. -/
theorem sameIntent_iff_pathsFaithful (hstored : row.StoredFrom original) :
    (sameIntent env row request = .ok true ↔ SameIntent env original request) ↔
      PathsFaithful env original request := by
  rw [sameIntent_eq_ok_true, hstored.inputPath, hstored.outputPath, hstored.planHash]
  constructor
  · intro h
    constructor
    · intro hplan htext houtput
      exact (h.mp ⟨htext.symm, hplan.symm, houtput⟩).inputPath
    · intro hplan hinput
      constructor
      · exact fun houtput => (h.mp ⟨by rw [hinput], hplan.symm, houtput⟩).output
      · exact fun houtput => (h.mpr ⟨hinput, hplan, houtput⟩).2.2
  · intro h
    constructor
    · rintro ⟨htext, hplan, houtput⟩
      have hinput := h.input hplan.symm htext.symm houtput
      exact ⟨hinput, hplan.symm, (h.output hplan.symm hinput).mp houtput⟩
    · rintro ⟨hinput, hplan, houtput⟩
      exact ⟨by rw [hinput], hplan.symm, (h.output hplan hinput).mpr houtput⟩

/-! ## Submissions under a bound key -/

/-- The submission is judged right: the same intent returns the job with
    `created = false`, another intent fails, and neither changes anything. -/
structure JudgedRight (original request : JobCreateRequest) (row : JobRow) (label : StoreLabel)
    (db db' : Database) : Prop where
  same : SameIntent label.env original request →
    label.Returns (.ok { job := jobRecordFromRow row, created := false }) ∧ db' = db
  other : ¬ SameIntent label.env original request →
    ∃ error, label.Returns (.error error) ∧ db' = db

theorem submission_bound (hstep : StoreStep json db label db')
    (hsubmits : label.Submits key request) (hfault : label.env.fault = none)
    (hbound : db.boundJob key = some row) :
    (sameIntent label.env row request = .ok true →
      label.Returns (.ok { job := jobRecordFromRow row, created := false }) ∧ db' = db) ∧
    (sameIntent label.env row request ≠ .ok true →
      ∃ error, label.Returns (.error error) ∧ db' = db) := by
  obtain ⟨enqueue, result, hreturns, htransaction⟩ := submission_step hstep hsubmits
  unfold createJobIdempotentBody at htransaction
  simp only [hbound] at htransaction
  cases hsame : sameIntent label.env row request with
  | error error =>
    rw [hsame] at htransaction
    have hfails := (transaction_of_error hfault db error).symm.trans htransaction
    obtain ⟨rfl, rfl⟩ := Prod.mk.inj hfails
    exact ⟨fun h => (by cases h), fun _ => ⟨error, hreturns, rfl⟩⟩
  | ok same =>
    rw [hsame] at htransaction
    cases same with
    | false =>
      have hfails := (transaction_of_error hfault db _).symm.trans htransaction
      obtain ⟨rfl, rfl⟩ := Prod.mk.inj hfails
      exact ⟨fun h => (by cases h), fun _ => ⟨_, hreturns, rfl⟩⟩
    | true =>
      have hcommits := (transaction_of_ok hfault db db _).symm.trans htransaction
      obtain ⟨rfl, rfl⟩ := Prod.mk.inj hcommits
      exact ⟨fun _ => ⟨hreturns, rfl⟩, fun h => absurd rfl h⟩

/-- A submission under a bound key is judged right exactly when its paths are faithful. -/
theorem judgedRight_iff (hstep : StoreStep json db label db')
    (hsubmits : label.Submits key request) (hfault : label.env.fault = none)
    (hbound : db.boundJob key = some row) (hstored : row.StoredFrom original) :
    JudgedRight original request row label db db' ↔ PathsFaithful label.env original request := by
  obtain ⟨hreturn, hfail⟩ := submission_bound hstep hsubmits hfault hbound
  rw [← sameIntent_iff_pathsFaithful hstored]
  constructor
  · intro hjudged
    constructor
    · intro hcode
      by_contra hintent
      obtain ⟨error, herror, _⟩ := hjudged.other hintent
      cases (hreturn hcode).1.eq herror
    · intro hintent
      by_contra hcode
      obtain ⟨error, herror, _⟩ := hfail hcode
      cases (hjudged.same hintent).1.eq herror
  · intro hiff
    exact ⟨fun hintent => hreturn (hiff.mpr hintent), fun hintent => hfail fun hcode =>
      hintent (hiff.mp hcode)⟩

/-- **Idempotent submission.** In every run of the store: a key is bound to at most one
    job, for ever; a submission that fails consumes nothing; and a submission under
    a key that an earlier one bound is judged right (the same intent returns that
    job with `created = false`, any other fails, nothing changes) exactly when the
    texts the store keeps are faithful to its paths. -/
theorem idempotent_submission {labels : List StoreLabel}
    (hrun : StoreRun json Database.empty labels db) :
    (∀ r ∈ db.jobIdempotencyKeys, ∀ s ∈ db.jobIdempotencyKeys,
      r.idempotencyKey = s.idempotencyKey → r.jobId = s.jobId) ∧
    (∀ l₁ l₂ before, labels = l₁ ++ l₂ → StoreRun json Database.empty l₁ before →
      StoreRun json before l₂ db → ∀ key row, before.boundJob key = some row →
        ∃ row', db.boundJob key = some row' ∧ row'.id = row.id) ∧
    (∀ l₁ b l₂ before after key request error, labels = l₁ ++ b :: l₂ →
      StoreRun json Database.empty l₁ before → StoreStep json before b after →
      b.Submits key request → b.Returns (.error error) → after = before) ∧
    ∀ l₁ a l₂ b l₃ key original request result, labels = l₁ ++ a :: (l₂ ++ b :: l₃) →
      a.Submits key original → a.Returns (.ok result) → result.created = true →
      b.Submits key request → b.env.fault = none →
      ∃ before after row, StoreRun json Database.empty (l₁ ++ a :: l₂) before ∧
        StoreStep json before b after ∧ StoreRun json after l₃ db ∧
        before.boundJob key = some row ∧ row.id = result.job.id ∧
        (JudgedRight original request row b before after ↔ PathsFaithful b.env original request) := by
  have hsound : Sound json db := Reachable.sound ⟨labels, hrun⟩
  refine ⟨?_, ?_, ?_, ?_⟩
  · intro r hr s hs hkey
    rw [hsound.links.idempotencyKeys.eq hr hs hkey]
  · intro l₁ l₂ before _ h₁ h₂ key row hbound
    have hbefore : Sound json before := Reachable.sound ⟨l₁, h₁⟩
    obtain ⟨row', hbound', hsame⟩ := boundJob_forever hbefore (StoreRun.writes hbefore h₂) hbound
    exact ⟨row', hbound', hsame.id⟩
  · intro l₁ b l₂ before after key request error _ _ hstep hsubmits hreturns
    exact submission_error hstep hsubmits hreturns
  · intro l₁ a l₂ b l₃ key original request result hsplit ha hareturns hcreated hb hfault
    rw [hsplit] at hrun
    obtain ⟨db₀, h₀, hrest⟩ := trace_append.mp hrun
    obtain ⟨db₁, hstepa, hrest⟩ := trace_cons.mp hrest
    obtain ⟨db₂, hbetween, hrest⟩ := trace_append.mp hrest
    obtain ⟨db₃, hstepb, hafter⟩ := trace_cons.mp hrest
    have hsound₀ : Sound json db₀ := Reachable.sound ⟨l₁, h₀⟩
    obtain ⟨row, hbound, hid, hstored⟩ := submission_created hsound₀ hstepa ha hareturns hcreated
    have hsound₁ := (StoreStep.writes hsound₀ hstepa).sound hsound₀
    obtain ⟨row', hbound', hsame⟩ :=
      boundJob_forever hsound₁ (StoreRun.writes hsound₁ hbetween) hbound
    exact ⟨db₂, db₃, row', h₀.append (.cons hstepa hbetween), hstepb, hafter, hbound',
      hsame.id.trans hid, judgedRight_iff hstepb hb hfault hbound' (hstored.of_sameJob hsame)⟩

/-- Two input paths that are not Unicode, with one text. -/
def Sample.lossyRequest (byte : UInt8) : JobCreateRequest :=
  { Sample.request "" "o.yaml" with inputPath := [.char 'a', .illFormed [byte]] }

/-- The run of two submissions under one key. -/
def Sample.submissions (first second : JobCreateRequest) : List (CallEnv × Call) :=
  [(Sample.env 0, .enqueueJobIdempotent "k" first), (Sample.env 1, .enqueueJobIdempotent " k" second)]

/-- A replay of a submission whose paths are Unicode is judged right. -/
theorem idempotent_submission_replay :
    let request := Sample.request "a.json" "o.yaml"
    let run := replay (Sample.json 0) Database.empty (Sample.submissions request request)
    ∃ b before after row, b ∈ run.1 ∧ StoreStep (Sample.json 0) before b after ∧
      before.boundJob "k" = some row ∧ row.id = 0 ∧ JudgedRight request request row b before after := by
  intro request run
  have hunicode : ∀ text, PathBuf.IsUnicode (.ofString text) := fun text => ⟨text, rfl⟩
  obtain ⟨before, after, row, _, hstep, _, hbound, hid, hjudged⟩ :=
    (idempotent_submission (replay_run (Sample.json 0) (Sample.submissions request request)
      Database.empty)).2.2.2 [] ⟨_, _, _⟩ [] ⟨_, _, _⟩ [] "k" request request
      { job := { newJobRecord (Sample.env 0) 0 request with state := .queued, sequence := 1 },
        created := true } rfl ⟨"k", by decide, Or.inr rfl⟩ rfl rfl
      ⟨" k", by decide, Or.inr rfl⟩ rfl
  exact ⟨_, before, after, row, by simp [run, Sample.submissions, replay], hstep, hbound, hid,
    hjudged.mpr (pathsFaithful_of_isUnicode (hunicode _) (hunicode _) (hunicode _))⟩

/-- A submission for the input `a\xFE` under a key bound to the input `a\xFF` is answered
    with the job for `a\xFF` instead of an error. -/
theorem idempotent_submission_conflated :
    (Sample.lossyRequest 0xFE).inputPath ≠ (Sample.lossyRequest 0xFF).inputPath ∧
    ((replay (Sample.json 0) Database.empty (Sample.submissions (Sample.lossyRequest 0xFF)
      (Sample.lossyRequest 0xFE))).1.map fun label => match label.response with
        | .idempotent (.ok result) => some (result.job.id, result.created)
        | _ => none) = [some (0, true), some (0, false)] := by
  constructor
  · decide
  · decide

end Anole
