import Anole.Web.Service

/-!
# Admission to the web service

`create_job` admits one active job of a client, and `execute_web_job` holds one conversion slot "for
the whole run" (`web.rs`, line 769). The slot is given back before `finish_web_job` ends the state
`Running`, so that a waiting job can become `Running` beside it.

* `sound_of_run`: every active job is executed, once, and the slots add up, at any time.
* `admission_limits`: an address has one active job at most, every slot is given back once, and no
  more jobs are `Running` than there are slots when each job that becomes `Running` finds a free
  slot for every job that has given its own back.
-/

open Common

namespace Anole.Web

variable {config : WebConfig} {web next : WebState} {step : WebStep} {steps : List WebStep} {jobId : Uuid}
  {phase : ExecutionPhase} {f : WebJob → WebJob}

/-! ## Executions -/

/-- The state of a job in a phase of its execution. -/
def ExecutionPhase.jobState : ExecutionPhase → WebJobState
  | .waiting | .acquired => .queued
  | _ => .running

/-- The phases that hold a slot. -/
def ExecutionPhase.holds : ExecutionPhase → Bool
  | .acquired | .marked | .converting _ => true
  | _ => false

/-- The phases after the slot is given back. -/
def ExecutionPhase.isFinishing : ExecutionPhase → Bool
  | .released _ | .looked _ _ | .unregistered _ _ | .cleared _ => true
  | _ => false

def WebState.holding (web : WebState) : ℕ := web.executions.countP (·.phase.holds)

def WebState.finishing (web : WebState) : ℕ := web.executions.countP (·.phase.isFinishing)

/-- The identifier of the job that a request is about to admit. -/
def Creating.rooted? (creating : Creating) : Option Uuid :=
  match creating.phase with
  | .rooted jobId => some jobId
  | _ => none

def WebState.rooted (web : WebState) : List Uuid := web.creating.filterMap Creating.rooted?

def WebJob.activeAt (clientIp : IpAddr) (job : WebJob) : Bool :=
  job.isActive && decide (job.clientIp = some clientIp)

theorem phase_eq_some (h : web.phase? jobId = some phase) :
    ⟨jobId, phase⟩ ∈ web.executions := by
  obtain ⟨execution, hfind, rfl⟩ := Option.map_eq_some_iff.mp h
  have hid : execution.jobId = jobId := by simpa using List.find?_some hfind
  exact hid ▸ List.mem_of_find?_eq_some hfind

theorem job_eq_some {job : WebJob} (h : web.job? jobId = some job) :
    job ∈ web.jobs ∧ job.jobId = jobId :=
  ⟨List.mem_of_find?_eq_some h, by simpa using List.find?_some h⟩

/-- The executions are those of the others, and the one that has moved. -/
theorem mem_advance {execution : Execution}
    (h : execution ∈ web.advance jobId phase) :
    (execution ∈ web.executions ∧ execution.jobId ≠ jobId) ∨ execution = ⟨jobId, phase⟩ := by
  obtain ⟨before, hbefore, hexecution⟩ := Table.mem_update.mp h
  by_cases hid : before.jobId = jobId
  · exact .inr (hexecution.trans (by simp [hid]))
  · have hsame : execution = before := hexecution.trans (by simp [hid])
    exact .inl ⟨hsame ▸ hbefore, hsame ▸ hid⟩

theorem advance_mem {execution : Execution} (h : execution ∈ web.executions)
    (phase : ExecutionPhase) : ∃ moved ∈ web.advance jobId phase, moved.jobId = execution.jobId := by
  by_cases hid : execution.jobId = jobId
  · exact ⟨⟨jobId, phase⟩, Table.mem_update_of h (by simpa using hid), hid.symm⟩
  · exact ⟨execution, Table.mem_update_of_not h (by simpa using hid), rfl⟩

/-! ## What holds in every state -/

/-- Every active job is executed once, and in the state of its phase; the jobs that are about to be
    admitted are new; the slots add up; and an address has one active job at most. -/
structure Sound (config : WebConfig) (web : WebState) : Prop where
  jobs : Table.Keyed WebJob.jobId web.jobs
  executions : Table.Keyed Execution.jobId web.executions
  active : ∀ job ∈ web.jobs, job.isActive = true → ∃ execution ∈ web.executions, execution.jobId = job.jobId
  executed : ∀ execution ∈ web.executions, ∃ job ∈ web.jobs, job.jobId = execution.jobId ∧
    job.state = execution.phase.jobState
  drawn : ∀ job ∈ web.jobs, job.jobId ∈ web.drawn
  rooted : web.rooted.Nodup
  fresh : ∀ jobId ∈ web.rooted, jobId ∈ web.drawn ∧ ∀ job ∈ web.jobs, job.jobId ≠ jobId
  slots : web.available + web.holding = config.slots
  clients : ∀ clientIp, web.jobs.countP (WebJob.activeAt clientIp) ≤ 1

theorem sound_initial : Sound config config.initial where
  jobs := .nil
  executions := .nil
  active _ hjob := absurd hjob List.not_mem_nil
  executed _ hexecution := absurd hexecution List.not_mem_nil
  drawn _ hjob := absurd hjob List.not_mem_nil
  rooted := List.nodup_nil
  fresh _ hid := absurd hid List.not_mem_nil
  slots := Nat.add_zero _
  clients _ := Nat.zero_le _

/-- A step that changes neither jobs, executions nor slots. -/
theorem Sound.frame (h : Sound config web) (hjobs : next.jobs = web.jobs)
    (hexecutions : next.executions = web.executions) (havailable : next.available = web.available)
    (hrooted : next.rooted.Sublist web.rooted) (hdrawn : ∀ id ∈ web.drawn, id ∈ next.drawn) :
    Sound config next where
  jobs := by
    rw [hjobs]
    exact h.jobs
  executions := by
    rw [hexecutions]
    exact h.executions
  active := by
    rw [hjobs, hexecutions]
    exact h.active
  executed := by
    rw [hjobs, hexecutions]
    exact h.executed
  drawn := by
    rw [hjobs]
    exact fun job hjob => hdrawn _ (h.drawn job hjob)
  rooted := hrooted.nodup h.rooted
  fresh := by
    rw [hjobs]
    intro jobId hid
    obtain ⟨hdraw, hnew⟩ := h.fresh jobId (hrooted.subset hid)
    exact ⟨hdrawn _ hdraw, hnew⟩
  slots := by
    rw [WebState.holding, hexecutions, havailable]
    exact h.slots
  clients := by
    rw [hjobs]
    exact h.clients

theorem rooted_erase {creating : Creating} {web : WebState} :
    ((web.creating.erase creating).filterMap Creating.rooted?).Sublist web.rooted :=
  List.erase_sublist.filterMap _

/-- The request goes on without the directory of a job. -/
theorem rooted_replace {creating creating' : Creating} {web : WebState} (h : creating'.rooted? = none) :
    ((web.creating.erase creating ++ [creating']).filterMap Creating.rooted?).Sublist web.rooted := by
  rw [List.filterMap_append, List.filterMap_cons_none h, List.filterMap_nil, List.append_nil]
  exact rooted_erase

/-- Without a new job, the identifiers drawn and the directories are those of before. -/
theorem Sound.directories (h : Sound config web)
    (hold : ∀ job' ∈ next.jobs, ∃ job ∈ web.jobs, job'.jobId = job.jobId)
    (hcreating : next.creating = web.creating) (hdrawn : next.drawn = web.drawn) :
    (∀ job ∈ next.jobs, job.jobId ∈ next.drawn) ∧ next.rooted.Nodup ∧
      ∀ jobId ∈ next.rooted, jobId ∈ next.drawn ∧ ∀ job ∈ next.jobs, job.jobId ≠ jobId := by
  have hrooted : next.rooted = web.rooted := by rw [WebState.rooted, WebState.rooted, hcreating]
  rw [hdrawn, hrooted]
  refine ⟨fun job' hjob' => ?_, h.rooted, fun id hid => ⟨(h.fresh id hid).1, fun job' hjob' => ?_⟩⟩
  · obtain ⟨job, hjob, hsame⟩ := hold job' hjob'
    exact hsame ▸ h.drawn job hjob
  · obtain ⟨job, hjob, hsame⟩ := hold job' hjob'
    exact hsame ▸ (h.fresh id hid).2 job hjob

/-- An execution moves to another phase, and its job with it. -/
theorem Sound.advance (h : Sound config web) {phase phase' : ExecutionPhase}
    (hphase : web.phase? jobId = some phase) (hid : ∀ job, (f job).jobId = job.jobId)
    (hip : ∀ job, (f job).clientIp = job.clientIp)
    (hstate : ∀ job, job.state = phase.jobState → (f job).state = phase'.jobState)
    (hjobs : next.jobs = web.updateJob jobId f) (hexecutions : next.executions = web.advance jobId phase')
    (hcreating : next.creating = web.creating) (hdrawn : next.drawn = web.drawn)
    (havailable : next.available + (if phase'.holds then 1 else 0) =
      web.available + (if phase.holds then 1 else 0)) : Sound config next := by
  have hmem := phase_eq_some hphase
  obtain ⟨own, hown, hownId, hownState⟩ := h.executed _ hmem
  have hstays : ∀ {state : WebJobState}, (∃ phase : ExecutionPhase, state = phase.jobState) →
      (state = .queued ∨ state = .running) := by
    rintro _ ⟨phase, rfl⟩
    cases phase <;> simp [ExecutionPhase.jobState]
  -- the job that moves was active, and is
  have hactive : ∀ job ∈ web.jobs, job.jobId = jobId → job.isActive = true ∧ (f job).isActive = true := by
    intro job hjob hjobId
    cases h.jobs.eq hjob hown (hjobId.trans hownId.symm)
    rw [WebJob.isActive, WebJob.isActive]
    constructor
    · simpa using hstays ⟨phase, hownState⟩
    · simpa using hstays ⟨phase', hstate own hownState⟩
  have hjobMem : ∀ job' ∈ next.jobs, ∃ job ∈ web.jobs, job'.jobId = job.jobId ∧ job'.isActive = job.isActive := by
    intro job' hjob'
    rw [hjobs] at hjob'
    obtain ⟨job, hjob, rfl⟩ := Table.mem_update.mp hjob'
    refine ⟨job, hjob, ?_⟩
    by_cases hjobId : job.jobId = jobId
    · obtain ⟨hbefore, hafter⟩ := hactive job hjob hjobId
      simp [hjobId, hid, hbefore, hafter]
    · simp [hjobId]
  obtain ⟨hdraws, hroots, hfresh⟩ := h.directories
    (fun job' hjob' => (hjobMem job' hjob').imp fun job hjob => ⟨hjob.1, hjob.2.1⟩) hcreating hdrawn
  constructor
  · rw [hjobs]
    exact h.jobs.update hid
  · rw [hexecutions]
    exact h.executions.replace ⟨jobId, phase'⟩
  · intro job' hjob' hjobActive
    obtain ⟨job, hjob, hsame, hboth⟩ := hjobMem job' hjob'
    obtain ⟨execution, hexecution, hexecutionId⟩ := h.active job hjob (hboth ▸ hjobActive)
    obtain ⟨moved, hmoved, hmovedId⟩ := advance_mem hexecution phase'
    rw [hexecutions]
    exact ⟨moved, hmoved, hmovedId.trans (hexecutionId.trans hsame.symm)⟩
  · intro execution hexecution
    rw [hexecutions] at hexecution
    rw [hjobs]
    rcases mem_advance hexecution with ⟨hother, hne⟩ | rfl
    · obtain ⟨job, hjob, hjobId, hjobState⟩ := h.executed execution hother
      refine ⟨job, Table.mem_update_of_not hjob ?_, hjobId, hjobState⟩
      simpa using hjobId ▸ hne
    · exact ⟨f own, Table.mem_update_of hown (by simpa using hownId), (hid own).trans hownId, hstate own hownState⟩
  · exact hdraws
  · exact hroots
  · exact hfresh
  · have hcount := h.executions.countP_update hmem ⟨jobId, phase'⟩ (·.phase.holds)
    have hslots := h.slots
    rw [WebState.holding] at hslots ⊢
    rw [hexecutions]
    have hadvance : web.advance jobId phase' = Table.update (fun s => s.jobId = jobId) (fun _ => ⟨jobId, phase'⟩)
      web.executions := rfl
    rw [hadvance]
    simp only at hcount
    omega
  · intro clientIp
    rw [hjobs, WebState.updateJob, Table.update, List.countP_map]
    refine le_trans (List.countP_mono_left fun job hjob hcounted => ?_) (h.clients clientIp)
    by_cases hjobId : job.jobId = jobId
    · obtain ⟨hbefore, -⟩ := hactive job hjob hjobId
      simp only [Function.comp_apply, hjobId, decide_true, if_true, WebJob.activeAt, Bool.and_eq_true, hip] at hcounted
      rw [WebJob.activeAt, hbefore, hcounted.2]
      rfl
    · simpa [hjobId] using hcounted

/-- An execution moves to a phase in which its job has the same state. -/
theorem Sound.move (h : Sound config web) {phase phase' : ExecutionPhase}
    (hphase : web.phase? jobId = some phase)
    (hjobs : next.jobs = web.jobs) (hexecutions : next.executions = web.advance jobId phase')
    (hcreating : next.creating = web.creating) (hdrawn : next.drawn = web.drawn)
    (hstate : phase.jobState = phase'.jobState) (havailable : next.available + (if phase'.holds then 1 else 0) =
      web.available + (if phase.holds then 1 else 0)) : Sound config next := by
  have hsame : next.jobs = web.updateJob jobId id := by
    rw [hjobs, WebState.updateJob, Table.update]
    conv_lhs => rw [← List.map_id web.jobs]
    exact List.map_congr_left fun job _ => by split <;> rfl
  exact h.advance hphase (fun _ => rfl) (fun _ => rfl) (fun _ hjob => hjob.trans hstate) hsame hexecutions
    hcreating hdrawn havailable

/-- A job changes in what the admission does not look at. -/
theorem Sound.annotate (h : Sound config web)
    (hjobs : next.jobs = web.updateJob jobId f)
    (hf : ∀ job, (f job).jobId = job.jobId ∧ (f job).clientIp = job.clientIp ∧ (f job).state = job.state)
    (hexecutions : next.executions = web.executions)
    (hcreating : next.creating = web.creating) (hdrawn : next.drawn = web.drawn)
    (havailable : next.available = web.available) : Sound config next := by
  have hsame : ∀ job, (if decide (job.jobId = jobId) then f job else job).jobId = job.jobId ∧
      (if decide (job.jobId = jobId) then f job else job).clientIp = job.clientIp ∧
      (if decide (job.jobId = jobId) then f job else job).state = job.state := by
    intro job
    split
    · exact hf job
    · exact ⟨rfl, rfl, rfl⟩
  have hjobMem : ∀ job' ∈ next.jobs, ∃ job ∈ web.jobs, job'.jobId = job.jobId ∧ job'.isActive = job.isActive := by
    intro job' hjob'
    rw [hjobs] at hjob'
    obtain ⟨job, hjob, rfl⟩ := Table.mem_update.mp hjob'
    obtain ⟨hid, -, hstate⟩ := hsame job
    exact ⟨job, hjob, hid, by rw [WebJob.isActive, WebJob.isActive, hstate]⟩
  obtain ⟨hdraws, hroots, hfresh⟩ := h.directories
    (fun job' hjob' => (hjobMem job' hjob').imp fun job hjob => ⟨hjob.1, hjob.2.1⟩) hcreating hdrawn
  constructor
  · rw [hjobs]
    exact h.jobs.update fun job => (hf job).1
  · rw [hexecutions]
    exact h.executions
  · intro job' hjob' hactive
    obtain ⟨job, hjob, hid, hboth⟩ := hjobMem job' hjob'
    rw [hexecutions, hid]
    exact h.active job hjob (hboth ▸ hactive)
  · intro execution hexecution
    rw [hexecutions] at hexecution
    obtain ⟨job, hjob, hid, hstate⟩ := h.executed execution hexecution
    obtain ⟨hid', -, hstate'⟩ := hsame job
    rw [hjobs]
    exact ⟨_, Table.mem_update.mpr ⟨job, hjob, rfl⟩, hid'.trans hid, hstate'.trans hstate⟩
  · exact hdraws
  · exact hroots
  · exact hfresh
  · rw [WebState.holding, hexecutions, havailable]
    exact h.slots
  · intro clientIp
    rw [hjobs, WebState.updateJob, Table.update, List.countP_map]
    refine le_trans (List.countP_mono_left fun job _ hcounted => ?_) (h.clients clientIp)
    obtain ⟨-, hip, hstate⟩ := hsame job
    rw [Function.comp_apply, WebJob.activeAt, WebJob.isActive, hip, hstate] at hcounted
    exact hcounted

theorem Sound.root (h : Sound config web) {creating : Creating} {jobId : Uuid} (hnew : jobId ∉ web.drawn)
    (hjobs : next.jobs = web.jobs) (hexecutions : next.executions = web.executions)
    (hcreating : next.creating = web.creating.erase creating ++ [{ creating with phase := .rooted jobId }])
    (hdrawn : next.drawn = jobId :: web.drawn) (havailable : next.available = web.available) :
    Sound config next := by
  have hrooted : next.rooted = (web.creating.erase creating).filterMap Creating.rooted? ++ [jobId] := by
    rw [WebState.rooted, hcreating, List.filterMap_append]
    rfl
  have hold : ∀ {id}, id ∈ (web.creating.erase creating).filterMap Creating.rooted? → id ∈ web.rooted :=
    fun hid => rooted_erase.subset hid
  constructor
  · rw [hjobs]
    exact h.jobs
  · rw [hexecutions]
    exact h.executions
  · rw [hjobs, hexecutions]
    exact h.active
  · rw [hjobs, hexecutions]
    exact h.executed
  · rw [hjobs, hdrawn]
    exact fun job hjob => List.mem_cons_of_mem _ (h.drawn job hjob)
  · rw [hrooted, List.nodup_append]
    refine ⟨rooted_erase.nodup h.rooted, List.nodup_singleton _, fun id hid other hother => ?_⟩
    rw [List.mem_singleton.mp hother]
    rintro rfl
    exact hnew (h.fresh id (hold hid)).1
  · rw [hrooted, hjobs, hdrawn]
    intro id hid
    rcases List.mem_append.mp hid with hid | hid
    · obtain ⟨hdraw, hfresh⟩ := h.fresh id (hold hid)
      exact ⟨List.mem_cons_of_mem _ hdraw, hfresh⟩
    · rw [List.mem_singleton.mp hid]
      refine ⟨List.mem_cons_self, fun job hjob hjobId => hnew (hjobId ▸ h.drawn job hjob)⟩
  · rw [WebState.holding, hexecutions, havailable]
    exact h.slots
  · rw [hjobs]
    exact h.clients

/-- A job is enqueued when its address has no active job. -/
theorem Sound.enqueue (h : Sound config web) {creating : Creating} {job : WebJob}
    (hmem : creating ∈ web.creating) (hphase : creating.phase = .rooted jobId)
    (hnone : web.activeFor creating.clientIp = []) (hid : job.jobId = jobId)
    (hip : job.clientIp = some creating.clientIp) (hstate : job.state = .queued)
    (hjobs : next.jobs = web.jobs ++ [job]) (hexecutions : next.executions = web.executions ++ [⟨jobId, .waiting⟩])
    (hcreating : next.creating = web.creating.erase creating) (hdrawn : next.drawn = web.drawn)
    (havailable : next.available = web.available) : Sound config next := by
  have hrooted : creating.rooted? = some jobId := by rw [Creating.rooted?, hphase]
  have hperm : web.rooted.Perm (jobId :: next.rooted) := by
    have hfilter := (List.perm_cons_erase hmem).filterMap Creating.rooted?
    rwa [List.filterMap_cons_some hrooted, ← hcreating] at hfilter
  obtain ⟨hdraw, hnew⟩ := h.fresh jobId (hperm.mem_iff.mpr List.mem_cons_self)
  obtain ⟨hnot, hnodup⟩ := List.nodup_cons.mp (hperm.nodup_iff.mp h.rooted)
  have hsplit : ∀ {job' : WebJob}, job' ∈ next.jobs → job' ∈ web.jobs ∨ job' = job := by
    intro job' hjob'
    rw [hjobs] at hjob'
    simpa using hjob'
  constructor
  · rw [hjobs]
    exact h.jobs.append fun other hother => hid ▸ hnew other hother
  · rw [hexecutions]
    refine h.executions.append fun execution hexecution => ?_
    obtain ⟨other, hother, hotherId, -⟩ := h.executed execution hexecution
    exact hotherId ▸ hnew other hother
  · intro job' hjob' hactive
    rw [hexecutions]
    rcases hsplit hjob' with hold | rfl
    · obtain ⟨execution, hexecution, hexecutionId⟩ := h.active job' hold hactive
      exact ⟨execution, List.mem_append_left _ hexecution, hexecutionId⟩
    · exact ⟨⟨jobId, .waiting⟩, List.mem_append_right _ List.mem_cons_self, hid.symm⟩
  · intro execution hexecution
    rw [hexecutions] at hexecution
    rw [hjobs]
    rcases List.mem_append.mp hexecution with hold | hmine
    · obtain ⟨other, hother, hotherId, hotherState⟩ := h.executed execution hold
      exact ⟨other, List.mem_append_left _ hother, hotherId, hotherState⟩
    · cases List.mem_singleton.mp hmine
      exact ⟨job, List.mem_append_right _ List.mem_cons_self, hid, hstate⟩
  · intro job' hjob'
    rw [hdrawn]
    rcases hsplit hjob' with hold | rfl
    · exact h.drawn job' hold
    · exact hid ▸ hdraw
  · exact hnodup
  · intro id hmemId
    obtain ⟨hdraw', hnew'⟩ := h.fresh id (hperm.mem_iff.mpr (List.mem_cons_of_mem _ hmemId))
    refine ⟨hdrawn ▸ hdraw', fun job' hjob' => ?_⟩
    rcases hsplit hjob' with hold | rfl
    · exact hnew' job' hold
    · rintro rfl
      exact hnot (hid ▸ hmemId)
  · have hslots := h.slots
    rw [WebState.holding] at hslots ⊢
    rw [hexecutions, List.countP_append, havailable]
    simpa [ExecutionPhase.holds] using hslots
  · intro clientIp
    rw [hjobs, List.countP_append, List.countP_singleton]
    by_cases hsame : creating.clientIp = clientIp
    · have hzero : web.jobs.countP (WebJob.activeAt clientIp) = 0 := by
        rw [List.countP_eq_length_filter, ← hsame]
        exact List.length_eq_zero_iff.mpr hnone
      rw [hzero]
      split <;> omega
    · have hother : WebJob.activeAt clientIp job = false := by simp [WebJob.activeAt, hip, hsame]
      rw [hother]
      exact h.clients clientIp

/-- An execution ends with the last state of its job. -/
theorem Sound.conclude (h : Sound config web)
    (hphase : web.phase? jobId = some phase) (hholds : phase.holds = false)
    (hjobs : next.jobs = web.updateJob jobId f)
    (hf : ∀ job, (f job).jobId = job.jobId ∧ (f job).isActive = false) (hexecutions : next.executions = web.ended jobId)
    (hcreating : next.creating = web.creating) (hdrawn : next.drawn = web.drawn)
    (havailable : next.available = web.available) : Sound config next := by
  have hmem := phase_eq_some hphase
  have hjobMem : ∀ job' ∈ next.jobs, (job' ∈ web.jobs ∧ job'.jobId ≠ jobId) ∨
      ∃ job ∈ web.jobs, job'.jobId = job.jobId ∧ job'.isActive = false := by
    intro job' hjob'
    rw [hjobs] at hjob'
    obtain ⟨job, hjob, rfl⟩ := Table.mem_update.mp hjob'
    by_cases hid : job.jobId = jobId
    · exact .inr ⟨job, hjob, by simp [hid, (hf job).1], by simp [hid, (hf job).2]⟩
    · exact .inl (by simp [hid, hjob])
  have hold : ∀ job' ∈ next.jobs, ∃ job ∈ web.jobs, job'.jobId = job.jobId := by
    intro job' hjob'
    rcases hjobMem job' hjob' with ⟨hjob, -⟩ | ⟨job, hjob, hid, -⟩
    · exact ⟨job', hjob, rfl⟩
    · exact ⟨job, hjob, hid⟩
  obtain ⟨hdraws, hroots, hfresh⟩ := h.directories hold hcreating hdrawn
  constructor
  · rw [hjobs]
    exact h.jobs.update fun job => (hf job).1
  · rw [hexecutions]
    exact h.executions.delete
  · intro job' hjob' hactive
    rcases hjobMem job' hjob' with ⟨hjob, hne⟩ | ⟨job, hjob, -, hinactive⟩
    · obtain ⟨execution, hexecution, hexecutionId⟩ := h.active job' hjob hactive
      refine ⟨execution, ?_, hexecutionId⟩
      rw [hexecutions]
      exact Table.mem_delete.mpr ⟨hexecution, by simpa using hexecutionId ▸ hne⟩
    · rw [hinactive] at hactive
      cases hactive
  · intro execution hexecution
    rw [hexecutions] at hexecution
    obtain ⟨hother, hne⟩ := Table.mem_delete.mp hexecution
    obtain ⟨job, hjob, hid, hstate⟩ := h.executed execution hother
    rw [hjobs]
    exact ⟨job, Table.mem_update_of_not hjob (by simpa [hid] using hne), hid, hstate⟩
  · exact hdraws
  · exact hroots
  · exact hfresh
  · have hcount := h.executions.countP_delete hmem (·.phase.holds)
    have hslots := h.slots
    have hended : web.ended jobId = Table.delete (fun s => s.jobId = jobId) web.executions := rfl
    rw [WebState.holding] at hslots ⊢
    rw [hexecutions, hended, havailable]
    simp only [hholds, Bool.false_eq_true, if_false, Nat.add_zero] at hcount
    rw [hcount]
    exact hslots
  · intro clientIp
    rw [hjobs, WebState.updateJob, Table.update, List.countP_map]
    refine le_trans (List.countP_mono_left fun job _ hcounted => ?_) (h.clients clientIp)
    by_cases hid : job.jobId = jobId
    · simp [hid, WebJob.activeAt, (hf job).2] at hcounted
    · simpa [hid] using hcounted

theorem Sound.sweep (h : Sound config web) {keeps : WebJob → Bool} (hkeeps : ∀ job, job.isActive = true → keeps job = true)
    (hjobs : next.jobs = web.jobs.filter keeps) (hexecutions : next.executions = web.executions)
    (hcreating : next.creating = web.creating) (hdrawn : next.drawn = web.drawn)
    (havailable : next.available = web.available) : Sound config next := by
  have hkept : ∀ {job}, job ∈ next.jobs → job ∈ web.jobs := by
    intro job hjob
    rw [hjobs] at hjob
    exact List.mem_of_mem_filter hjob
  constructor
  · rw [hjobs]
    exact h.jobs.sublist (List.filter_sublist.map _)
  · rw [hexecutions]
    exact h.executions
  · intro job hjob hactive
    rw [hexecutions]
    exact h.active job (hkept hjob) hactive
  · intro execution hexecution
    rw [hexecutions] at hexecution
    obtain ⟨job, hjob, hid, hstate⟩ := h.executed execution hexecution
    have hactive : job.isActive = true := by
      rw [WebJob.isActive, hstate]
      cases execution.phase <;> rfl
    rw [hjobs]
    exact ⟨job, List.mem_filter.mpr ⟨hjob, hkeeps job hactive⟩, hid, hstate⟩
  · intro job hjob
    rw [hdrawn]
    exact h.drawn job (hkept hjob)
  · rw [WebState.rooted, hcreating]
    exact h.rooted
  · intro id hrooted
    rw [WebState.rooted, hcreating] at hrooted
    obtain ⟨hdraw, hnew⟩ := h.fresh id hrooted
    exact ⟨hdrawn ▸ hdraw, fun job hjob => hnew job (hkept hjob)⟩
  · rw [WebState.holding, hexecutions, havailable]
    exact h.slots
  · intro clientIp
    rw [hjobs]
    exact le_trans List.filter_sublist.countP_le (h.clients clientIp)

theorem Sound.job_ne_none (h : Sound config web)
    (hphase : web.phase? jobId = some phase) : web.job? jobId ≠ none := by
  intro hnone
  obtain ⟨job, hjob, hid, -⟩ := h.executed _ (phase_eq_some hphase)
  exact Table.find?_eq_none.mp hnone job hjob hid

/-! ## Steps and runs -/

/-- **What every step keeps.** -/
theorem Sound.kept (h : Sound config web) (hstep : Step config web step next) : Sound config next := by
  cases effect_of_step hstep with
  | receive => exact h.frame rfl rfl rfl (List.Sublist.refl _) fun id hid => List.mem_cons_of_mem _ hid
  | lookupUpload =>
    refine h.frame rfl rfl rfl ?_ fun id hid => hid
    rw [WebState.rooted, List.filterMap_append]
    exact (List.append_nil _).symm ▸ List.Sublist.refl _
  | check => exact h.frame rfl rfl rfl (rooted_replace rfl) fun id hid => hid
  | refuse | reject => exact h.frame rfl rfl rfl rooted_erase fun id hid => hid
  | createRoot _ _ _ _ hnew => exact h.root hnew rfl rfl rfl rfl rfl
  | enqueue _ _ _ hmem hphase hnone => exact h.enqueue hmem hphase hnone rfl rfl rfl rfl rfl rfl rfl rfl
  | acquire jobId hphase hfree =>
    refine h.move hphase rfl rfl rfl rfl rfl ?_
    show web.available - 1 + 1 = web.available + 0
    omega
  | mark jobId hphase =>
    refine h.advance hphase ?_ ?_ ?_ rfl rfl rfl rfl rfl
    · intro job
      split <;> rfl
    · intro job
      split <;> rfl
    · intro job hstate
      exact congrArg WebJob.state (if_pos hstate)
  | snapshot _ _ hphase | release _ _ _ hphase | lookupJob _ _ hphase | unregisterNone _ _ hphase
  | unregister _ _ _ hphase | removeNone _ _ hphase | removeInput _ _ _ hphase =>
    exact h.move hphase rfl rfl rfl rfl rfl rfl
  | missing _ hphase hnone | concludeNone _ _ _ hphase hnone => exact absurd hnone (h.job_ne_none hphase)
  | conclude jobId succeeded _ _ hphase =>
    refine h.conclude hphase rfl rfl (fun job => ⟨rfl, ?_⟩) rfl rfl rfl rfl
    cases succeeded <;> rfl
  | sweepJobs =>
    refine h.sweep (fun job hactive => ?_) rfl rfl rfl rfl rfl
    rw [hactive, Bool.true_or]
  | cacheArchive => exact h.annotate rfl (fun job => ⟨rfl, rfl, rfl⟩) rfl rfl rfl rfl
  | breakOff | exceed | record | write | unlink | sweepUploads | openDownload | inspectOutput | inspectArchive
  | createArchive | giveUp => exact h.frame rfl rfl rfl (List.Sublist.refl _) fun id hid => hid

theorem sound_of_run (h : Run config steps web) : Sound config web :=
  h.invariant sound_initial fun hsound hstep => hsound.kept hstep

/-- **No job is lost or run twice.** In every run an active job has one execution, in a phase of its state, and a
    job that has ended has none. -/
theorem executed_once (h : Run config steps web) {job : WebJob} (hjob : job ∈ web.jobs) :
    (job.isActive = true → ∃ phase, job.state = phase.jobState ∧
      web.executions.filter (fun execution => execution.jobId = job.jobId) = [⟨job.jobId, phase⟩]) ∧
    (job.isActive = false → ∀ execution ∈ web.executions, execution.jobId ≠ job.jobId) := by
  have hsound := sound_of_run h
  have hstate : ∀ execution ∈ web.executions, execution.jobId = job.jobId →
      job.state = execution.phase.jobState := by
    intro execution hexecution hid
    obtain ⟨own, hown, hownId, hstate⟩ := hsound.executed execution hexecution
    rwa [hsound.jobs.eq hown hjob (hownId.trans hid)] at hstate
  constructor
  · intro hactive
    obtain ⟨execution, hexecution, hid⟩ := hsound.active job hjob hactive
    refine ⟨execution.phase, hstate execution hexecution hid, ?_⟩
    rw [← hid, hsound.executions.filter_key hexecution]
  · intro hended execution hexecution hid
    rw [WebJob.isActive, hstate execution hexecution hid] at hended
    cases hphase : execution.phase <;> simp [hphase, ExecutionPhase.jobState] at hended

/-! ## Slots -/

/-- What an execution that moves does to the number of executions of a kind. -/
theorem Sound.countP_advance (h : Sound config web)
    (hphase : web.phase? jobId = some phase) (phase' : ExecutionPhase) (p : Execution → Bool) :
    (web.advance jobId phase').countP p + (if p ⟨jobId, phase⟩ then 1 else 0) =
      web.executions.countP p + (if p ⟨jobId, phase'⟩ then 1 else 0) :=
  h.executions.countP_update (phase_eq_some hphase) ⟨jobId, phase'⟩ p

/-- One that stays of the kind does nothing to it. -/
theorem Sound.countP_stays (h : Sound config web) {phase phase' : ExecutionPhase}
    {p : Execution → Bool} (hphase : web.phase? jobId = some phase) (hp : p ⟨jobId, phase⟩ = p ⟨jobId, phase'⟩) :
    (web.advance jobId phase').countP p = web.executions.countP p := by
  have hcount := h.countP_advance hphase phase' p
  rw [hp] at hcount
  exact Nat.add_right_cancel hcount

theorem Sound.countP_ended (h : Sound config web)
    (hphase : web.phase? jobId = some phase) (p : Execution → Bool) :
    (web.ended jobId).countP p + (if p ⟨jobId, phase⟩ then 1 else 0) = web.executions.countP p :=
  h.executions.countP_delete (phase_eq_some hphase) p

/-- The execution of the job holds a slot. -/
def Execution.holdsFor (jobId : Uuid) (execution : Execution) : Bool :=
  execution.phase.holds && decide (execution.jobId = jobId)

def WebStep.acquires (jobId : Uuid) : WebStep → Bool
  | .acquire jobId' => decide (jobId' = jobId)
  | _ => false

def WebStep.releases (jobId : Uuid) : WebStep → Bool
  | .release jobId' _ => decide (jobId' = jobId)
  | _ => false

/-- A step takes a slot for a job, gives it back, or leaves it. -/
theorem Sound.slot_kept (h : Sound config web) (hstep : Step config web step next) (jobId : Uuid) :
    next.executions.countP (Execution.holdsFor jobId) + (if step.releases jobId then 1 else 0) =
      web.executions.countP (Execution.holdsFor jobId) + (if step.acquires jobId then 1 else 0) := by
  cases effect_of_step hstep with
  | enqueue =>
    rw [List.countP_append]
    simp [WebStep.acquires, WebStep.releases, Execution.holdsFor, ExecutionPhase.holds]
  | acquire other hphase =>
    simpa [WebStep.acquires, WebStep.releases, Execution.holdsFor, ExecutionPhase.holds] using
      h.countP_advance hphase .acquired (Execution.holdsFor jobId)
  | release other succeeded job hphase =>
    simpa [WebStep.acquires, WebStep.releases, Execution.holdsFor, ExecutionPhase.holds] using
      h.countP_advance hphase (.released succeeded) (Execution.holdsFor jobId)
  | mark other hphase | snapshot other _ hphase | lookupJob other _ hphase | unregisterNone other _ hphase
  | unregister other _ _ hphase | removeNone other _ hphase | removeInput other _ _ hphase =>
    exact congrArg (· + 0) (h.countP_stays hphase rfl)
  | missing _ hphase hnone | concludeNone _ _ _ hphase hnone => exact absurd hnone (h.job_ne_none hphase)
  | conclude other succeeded _ _ hphase => exact h.countP_ended hphase (Execution.holdsFor jobId)
  | receive | lookupUpload | check | refuse | reject | createRoot | sweepJobs | cacheArchive | breakOff | exceed
  | record | write | unlink | sweepUploads | openDownload | inspectOutput | inspectArchive | createArchive
  | giveUp => rfl

/-- **Every slot** that was taken for a job was given back once, unless its execution holds it. -/
theorem slots_balanced (h : Run config steps web) (jobId : Uuid) :
    web.executions.countP (Execution.holdsFor jobId) + steps.countP (WebStep.releases jobId) =
      steps.countP (WebStep.acquires jobId) := by
  have hrun : ∀ {start : WebState} {steps : List WebStep}, Trace (Step config) start steps web → Sound config start →
      web.executions.countP (Execution.holdsFor jobId) + steps.countP (WebStep.releases jobId) =
        start.executions.countP (Execution.holdsFor jobId) + steps.countP (WebStep.acquires jobId) := by
    intro start steps htrace hsound
    clear h
    induction htrace with
    | nil => rfl
    | cons hstep _ ih =>
      have hkept := hsound.slot_kept hstep jobId
      have hrest := ih (hsound.kept hstep)
      rw [List.countP_cons, List.countP_cons]
      omega
  simpa [WebConfig.initial] using hrun h sound_initial

/-! ## Running jobs -/

def WebState.running (web : WebState) : ℕ := web.jobs.countP fun job => job.state = .running

def WebStep.marks : WebStep → Bool
  | .mark _ => true
  | _ => false

/-- A job that becomes running finds a free slot for every job that has given its own back. -/
def MarksWithRoom (web : WebState) (step : WebStep) : Prop := step.marks = true → web.finishing ≤ web.available

instance (web : WebState) (step : WebStep) : Decidable (MarksWithRoom web step) :=
  inferInstanceAs (Decidable (_ → _))

/-- The executions whose job is running. -/
def WebState.runningExecutions (web : WebState) : ℕ := web.executions.countP fun execution =>
  execution.phase.jobState = .running

theorem Sound.running_le (h : Sound config web) : web.running ≤ web.runningExecutions := by
  rw [WebState.running, WebState.runningExecutions, List.countP_eq_length_filter, List.countP_eq_length_filter]
  have hnodup : ((web.jobs.filter fun job => job.state = .running).map WebJob.jobId).Nodup :=
    h.jobs.sublist (List.filter_sublist.map _)
  have hsubset : (web.jobs.filter fun job => job.state = .running).map WebJob.jobId ⊆
      (web.executions.filter fun execution => execution.phase.jobState = .running).map Execution.jobId := by
    intro id hid
    obtain ⟨job, hjob, rfl⟩ := List.mem_map.mp hid
    obtain ⟨hjob, hrunning⟩ := List.mem_filter.mp hjob
    rw [decide_eq_true_eq] at hrunning
    obtain ⟨execution, hexecution, hsame⟩ := h.active job hjob (by simp [WebJob.isActive, hrunning])
    obtain ⟨own, hown, hownId, hstate⟩ := h.executed execution hexecution
    cases h.jobs.eq hown hjob (hownId.trans hsame)
    refine List.mem_map.mpr ⟨execution, List.mem_filter.mpr ⟨hexecution, ?_⟩, hsame⟩
    rw [decide_eq_true_eq, ← hstate, hrunning]
  have hlength := (List.subperm_of_subset hnodup hsubset).length_le
  rwa [List.length_map, List.length_map] at hlength

/-- A running execution holds its slot or has given it back. -/
theorem runningExecutions_le (web : WebState) : web.runningExecutions ≤ web.holding + web.finishing := by
  rw [WebState.runningExecutions, WebState.holding, WebState.finishing]
  refine Table.countP_le_add fun execution hrunning => ?_
  rw [decide_eq_true_eq] at hrunning
  cases hphase : execution.phase <;> simp_all [ExecutionPhase.jobState, ExecutionPhase.holds, ExecutionPhase.isFinishing]

/-- Only a job that becomes running makes more of them. -/
theorem Sound.running_kept (h : Sound config web) (hstep : Step config web step next)
    (hroom : MarksWithRoom web step) (hbound : web.runningExecutions ≤ config.slots) :
    next.runningExecutions ≤ config.slots := by
  cases effect_of_step hstep with
  | enqueue =>
    rw [WebState.runningExecutions, List.countP_append]
    exact hbound
  | mark other hphase =>
    have hholding : (web.advance other .marked).countP (·.phase.holds) = web.holding := h.countP_stays hphase rfl
    have hfinishing : (web.advance other .marked).countP (·.phase.isFinishing) = web.finishing :=
      h.countP_stays hphase rfl
    refine le_trans (runningExecutions_le _) ?_
    rw [WebState.holding, WebState.finishing, hholding, hfinishing]
    have hslots := h.slots
    have hfree : web.finishing ≤ web.available := hroom rfl
    omega
  | acquire other hphase | snapshot other _ hphase | release other _ _ hphase | lookupJob other _ hphase
  | unregisterNone other _ hphase | unregister other _ _ hphase | removeNone other _ hphase
  | removeInput other _ _ hphase =>
    rw [WebState.runningExecutions, h.countP_stays hphase]
    · exact hbound
    · rfl
  | missing _ hphase hnone | concludeNone _ _ _ hphase hnone => exact absurd hnone (h.job_ne_none hphase)
  | conclude other succeeded _ _ hphase =>
    have hended := h.countP_ended hphase fun execution => execution.phase.jobState = .running
    exact le_trans (Nat.le.intro hended) hbound
  | receive | lookupUpload | check | refuse | reject | createRoot | sweepJobs | cacheArchive | breakOff | exceed
  | record | write | unlink | sweepUploads | openDownload | inspectOutput | inspectArchive | createArchive
  | giveUp => exact hbound

/-- **In every run** an address has one active job at most, and every slot that was taken is given
    back once; and when each job that becomes running finds a free slot for every job that has given
    its own back, no more jobs are running than there are slots. -/
theorem admission_limits (h : Run config steps web) :
    (∀ clientIp, (web.activeFor clientIp).length ≤ 1) ∧
      web.available + web.holding = config.slots ∧
      (∀ jobId, web.executions.countP (Execution.holdsFor jobId) + steps.countP (WebStep.releases jobId) =
        steps.countP (WebStep.acquires jobId)) ∧
      (Trace (fun web step next => Step config web step next ∧ MarksWithRoom web step) config.initial steps web →
        web.running ≤ config.slots) := by
  have hsound := sound_of_run h
  refine ⟨fun clientIp => ?_, hsound.slots, slots_balanced h, fun hroom => ?_⟩
  · have hcount := hsound.clients clientIp
    rwa [List.countP_eq_length_filter] at hcount
  · have hkept : Sound config web ∧ web.runningExecutions ≤ config.slots := by
      refine hroom.invariant (P := fun web => Sound config web ∧ web.runningExecutions ≤ config.slots)
        ⟨sound_initial, Nat.zero_le _⟩ ?_
      rintro s step t ⟨hs, hbound⟩ ⟨hstep, hfree⟩
      exact ⟨hs.kept hstep, hs.running_kept hstep hfree hbound⟩
    exact le_trans hkept.1.running_le hkept.2

/-! ## Two running jobs and one slot -/

namespace AdmissionSample

def oneSlot : WebConfig where
  ttlSecs := 3600
  maxConcurrentConversions := 1
  plannedOutputPath jobId _ target := .job jobId ["mail.converted." ++ target]
  withExtensionZip path := path
  touches output path := decide (output = path)

/-- A client uploads a mail and asks for a conversion. -/
def enqueues (uploadId jobId : Uuid) (clientIp : IpAddr) : List WebStep :=
  let record : UploadRecord := ⟨uploadId, "mail.eml", .upload uploadId "eml", 3600⟩
  [.receive ⟨uploadId, "mail.eml", "eml"⟩, .record ⟨uploadId, "mail.eml", "eml"⟩ 0,
    .lookupUpload uploadId clientIp "txt", .check ⟨record, clientIp, "txt", .looked⟩,
    .createRoot ⟨record, clientIp, "txt", .checked⟩ jobId, .enqueue ⟨record, clientIp, "txt", .rooted jobId⟩ jobId 0]

/-- The conversion of a job, up to the end of its slot. -/
def converts (jobId : Uuid) : List WebStep := [.acquire jobId, .mark jobId, .snapshot jobId, .release jobId true]

/-- The second job becomes running before the first has finished. -/
def overlapping : List WebStep :=
  enqueues 1 10 (.v4 1) ++ enqueues 2 20 (.v4 2) ++ converts 10 ++ [.acquire 20, .mark 20]

/-- **Two jobs are running**, though there is one slot. -/
theorem running_beyond_slots : ∃ web, Run oneSlot overlapping web ∧ oneSlot.slots < web.running := by
  have hplay : (oneSlot.initial.play oneSlot (fun _ _ => True) overlapping).map WebState.running = some 2 := by
    decide
  obtain ⟨web, hweb, hrunning⟩ := Option.map_eq_some_iff.mp hplay
  refine ⟨web, (trace_of_play hweb).mono fun h => h.1, ?_⟩
  rw [hrunning]
  decide

/-- The second waits for the first to finish. -/
def waiting : List WebStep :=
  enqueues 1 10 (.v4 1) ++ enqueues 2 20 (.v4 2) ++ converts 10 ++
    [.lookupJob 10, .unregister 10, .removeInput 10, .conclude 10 5, .acquire 20, .mark 20]

/-- The first has ended then, and the second is executed. -/
theorem executed_once_waiting : ∃ web, Run oneSlot waiting web ∧ ∀ job ∈ web.jobs, job.isActive = false →
    ∀ execution ∈ web.executions, execution.jobId ≠ job.jobId := by
  have hplay : (oneSlot.initial.play oneSlot MarksWithRoom waiting).isSome = true := by decide
  obtain ⟨web, hweb⟩ := Option.isSome_iff_exists.mp hplay
  have hrun : Run oneSlot waiting web := (trace_of_play hweb).mono fun h => h.1
  exact ⟨web, hrun, fun _ hjob => (executed_once hrun hjob).2⟩

/-- Then one job is running. -/
theorem admission_limits_waiting : ∃ web, Run oneSlot waiting web ∧ web.running ≤ oneSlot.slots := by
  have hplay : (oneSlot.initial.play oneSlot MarksWithRoom waiting).isSome = true := by decide
  obtain ⟨web, hweb⟩ := Option.isSome_iff_exists.mp hplay
  have hrun : Run oneSlot waiting web := (trace_of_play hweb).mono fun h => h.1
  exact ⟨web, hrun, (admission_limits hrun).2.2.2 (trace_of_play hweb)⟩

end AdmissionSample

end Anole.Web
