import Anole.Queue.Abort

/-!
# Windows act on the jobs they own

Any number of processes run windows over one store (`System`), each with its own clock,
failures and order of steps; other clients use the store beside them. A window owns a
job from its own successful claim on. Two windows never own the same job, and a window
changes no other job.

**Deviation.** A window puts a job into its active set before it claims it. When the
claim fails with a storage error while another window has claimed the job, the abort of
the first window reads the job of the other one in flight and moves it, although the
recovery document lets execution ownership begin with the claim.

Main result: `window_owns`.
-/

open Common

namespace Anole

/-! ## Many windows over one store -/

/-- The store and the windows of all processes. -/
structure System (ι : Type) where
  db : Database
  windows : ι → Option Window

/-- What happens next: a window is opened, takes a step or meets an event, or a client
    calls the store. -/
inductive SystemLabel (ι : Type) where
  | launch (i : ι) (env : CallEnv) (logicalCpus limit parallel : ℕ) (control : QueueWindowControl)
  | step (i : ι) (env : StepEnv)
  | event (i : ι) (event : WindowEvent)
  | client (env : CallEnv) (call : Call)

variable {ι : Type} [DecidableEq ι]

/-- The system after a label, if it is possible. -/
def System.next (json : ReportJson) (s : System ι) : SystemLabel ι → Option (System ι)
  | .launch i env logicalCpus limit parallel control =>
    match s.windows i, openWindow env s.db logicalCpus limit parallel control with
    | none, .ok w => some { s with windows := Function.update s.windows i (some w) }
    | _, _ => none
  | .step i env => (s.windows i).bind fun w =>
    (w.step env s.db).map fun (w', db) => ⟨db, Function.update s.windows i (some w')⟩
  | .event i event => (s.windows i).bind fun w =>
    (w.receive event).map fun w' => { s with windows := Function.update s.windows i (some w') }
  | .client env call => some { s with db := (exec json env s.db call).2 }

/-- The transition relation of the system. -/
def SystemStep (json : ReportJson) (s : System ι) (label : SystemLabel ι) (t : System ι) : Prop :=
  s.next json label = some t

/-- When the abort of the window reads a job that the window has not claimed, that job is
    not in flight. -/
def Window.AbortsOwn (w : Window) (db : Database) : Prop :=
  ∀ id ∈ w.point.reading,
    id ∈ w.claimed ∨ ¬ db.JobIn id [.inspecting, .planned, .running, .validating]

/-- The conditions under which windows act on their own jobs only, for one step of a
    run; clients leave claimed jobs untouched. -/
def AbortsOwn (s : System ι) (label : SystemLabel ι) (t : System ι) : Prop :=
  match label with
  | .client _ _ => ∀ i, ∀ w ∈ s.windows i, ∀ id ∈ w.claimed, Untouched id s.db t.db
  | .step i _ => ∀ w ∈ s.windows i, w.AbortsOwn s.db
  | _ => True

/-! ## What a step of a window does to the store -/

theorem Verdict.target_ne_queued (verdict : Verdict) : verdict.target ≠ .queued := by
  cases verdict <;> exact nofun

theorem Completion.target_ne_queued (completion : Completion) : completion.target ≠ .queued := by
  cases completion with
  | validated status => cases status <;> exact nofun
  | paused | cancelled | stopped => exact nofun

/-- No transition is requested back to `Queued`. -/
theorem request_ne_queued {point : Point} {id : Uuid} {next : JobState} {code : String}
    (h : point.request = some (id, next, code)) : next ≠ .queued := by
  cases point with
  | prepare candidate verdict =>
    cases h
    exact verdict.target_ne_queued
  | finish jobId completion =>
    cases h
    exact completion.target_ne_queued
  | start | markMove =>
    cases h
    exact nofun
  | top | admission | claim | inspect | idle | select | report | sample | markRead | returning
  | abortDrain | abort | abortMove | done => cases h

namespace Window

variable {env : StepEnv} {w w' : Window} {db db' : Database}

/-- The effect of a step: none, a claim, or a transition the window has requested. -/
inductive Effect (w : Window) (db : Database) (w' : Window) (db' : Database) : Prop
  | none : (∀ id, Untouched id db db') → w'.claimed = w.claimed → Effect w db w' db'
  | claim (candidate : PendingQueueJob) : w.point = .claim candidate →
      db.Moves candidate.id .queued .inspecting db' → w'.claimed = candidate.id :: w.claimed →
      Effect w db w' db'
  | request (id : Uuid) (s next : JobState) (code : String) :
      w.point.request = some (id, next, code) → db.Moves id s next db' → w'.claimed = w.claimed →
      Effect w db w' db'
  | abort (error : AnoleError) (todo : List Uuid) (firstError : Option AnoleError) (id : Uuid)
      (s target : JobState) : w.point = .abortMove error todo firstError id target →
      db.Moves id s target db' → w'.claimed = w.claimed → Effect w db w' db'

theorem Advance.effect (hadv : w.Advance env db w' db') : w.Effect db w' db' := by
  cases hadv with
  | claimed candidate db' hpoint hm => exact .claim candidate hpoint hm rfl
  | prepared candidate verdict s db' hpoint hm =>
    refine .request candidate.id s verdict.target verdict.code (by rw [hpoint]; rfl) hm ?_
    cases verdict <;> rfl
  | started candidate probe s db' hpoint hm =>
    exact .request candidate.id s .running _ (by rw [hpoint]; rfl) hm rfl
  | marked id after s db' hpoint hm =>
    refine .request id s .validating _ (by rw [hpoint]; rfl) hm ?_
    cases after <;> rfl
  | finished id completion s db' hpoint hm =>
    exact .request id s completion.target _ (by rw [hpoint]; rfl) hm rfl
  | abortMoved error todo firstError id s target db' hpoint hm =>
    exact .abort error todo firstError id s target hpoint hm rfl
  | sampled id report db' hpoint hother => exact .none hother rfl
  | readOther id after => cases after <;> exact .none (fun id => .refl id db) rfl
  | enter | leave | accept | rest | contended | inspected | stop | wait | received | joined
  | reported | readRunning | returned | failed | drained | abortDone | abortSkipped | abortRequested
  | abortRefused => exact .none (fun id => .refl id db) rfl

/-- The window is set on jobs it owns: while its loop runs it keeps its books, and its
    abort moves a claimed job, and not to `Queued`. -/
structure Owning (w : Window) : Prop where
  books : w.point.executing = true → ∃ policy, w.Booked policy
  abort : ∀ error todo firstError id target, w.point = .abortMove error todo firstError id target →
    id ∈ w.claimed ∧ target ∈ restStates

/-- A job that a step changes is claimed before it, or the step is its claim. -/
theorem Effect.owned (heffect : w.Effect db w' db') (h : w.Owning) (id : Uuid) :
    Untouched id db db' ∨ id ∈ w.claimed ∨
      db.Moves id .queued .inspecting db' ∧ w'.claimed = id :: w.claimed := by
  cases heffect with
  | none hother => exact Or.inl (hother id)
  | claim candidate hpoint hm hclaimed =>
    by_cases heq : id = candidate.id
    · subst heq
      exact Or.inr (Or.inr ⟨hm, hclaimed⟩)
    · exact Or.inl (hm.others id heq)
  | request other s next code hrequest hm =>
    by_cases heq : id = other
    · have hexec : w.point.executing = true := by
        generalize w.point = point at hrequest
        cases point <;> first | rfl | cases hrequest
      obtain ⟨policy, hb⟩ := h.books hexec
      exact Or.inr (Or.inl (heq ▸ hb.owns hrequest))
    · exact Or.inl (hm.others id heq)
  | abort error todo firstError other s target hpoint hm =>
    by_cases heq : id = other
    · exact Or.inr (Or.inl (heq ▸ (h.abort error todo firstError other target hpoint).1))
    · exact Or.inl (hm.others id heq)

/-- What a window has claimed after a step it had claimed before, or it was `Queued`. -/
theorem Effect.claims (heffect : w.Effect db w' db') {id : Uuid} (hid : id ∈ w'.claimed) :
    id ∈ w.claimed ∨ db.stateOf id = some .queued ∧ db'.stateOf id = some .inspecting := by
  cases heffect with
  | claim candidate hpoint hm hclaimed =>
    rw [hclaimed] at hid
    rcases List.mem_cons.mp hid with rfl | hid
    · exact Or.inr ⟨hm.before, hm.after⟩
    · exact Or.inl hid
  | none _ hclaimed | request _ _ _ _ _ _ hclaimed | abort _ _ _ _ _ _ _ _ hclaimed =>
    exact Or.inl (hclaimed ▸ hid)

/-- After a step a job that is not `Queued` is not `Queued`. -/
theorem Effect.not_queued (heffect : w.Effect db w' db') (h : w.Owning) {id : Uuid}
    (hne : db.stateOf id ≠ some .queued) : db'.stateOf id ≠ some .queued := by
  have hmoves : ∀ {other s next}, db.Moves other s next db' → next ≠ .queued →
      db'.stateOf id ≠ some .queued := by
    intro other s next hm hnext
    by_cases heq : id = other
    · rw [heq, hm.after]
      exact fun hs => hnext (Option.some.inj hs)
    · rwa [hm.stateOf_other heq]
  cases heffect with
  | none hother => rwa [(hother id).stateOf]
  | claim candidate hpoint hm => exact hmoves hm (by decide)
  | request other s next code hrequest hm => exact hmoves hm (request_ne_queued hrequest)
  | abort error todo firstError other s target hpoint hm =>
    refine hmoves hm ?_
    rintro rfl
    exact absurd (h.abort _ _ _ _ _ hpoint).2 (by decide)

theorem abortTarget_flight {s target : JobState} (h : abortTarget s = some target) :
    s ∈ [JobState.inspecting, .planned, .running, .validating] := by
  cases s <;> first | decide | cases h

/-- A window stays set on jobs it owns when its abort finds no other job in flight. -/
theorem Advance.owning (hadv : w.Advance env db w' db') (h : w.Owning) (haborts : w.AbortsOwn db) :
    w'.Owning where
  books := by
    intro hexec
    obtain ⟨policy, hb⟩ := h.books (hadv.executing hexec)
    exact ⟨policy, hadv.booked hb hexec⟩
  abort := by
    intro error todo firstError id target hpoint'
    cases hadv with
    | abortRequested error id todo firstError s target hpoint hstate htarget =>
      cases hpoint'
      have hid := haborts id (by rw [hpoint]; rfl)
      exact ⟨hid.resolve_right (not_not.mpr ⟨s, abortTarget_flight htarget, hstate⟩),
        abortTarget_mem htarget⟩
    | prepared candidate verdict => cases verdict <;> cases hpoint'
    | readOther id after | marked id after => cases after <;> cases hpoint'
    | joined index id point hpoint hworker hnext =>
      obtain ⟨report, rfl⟩ | ⟨error, rfl⟩ := hnext <;> cases hpoint'
    | reported id report =>
      unfold afterReport at hpoint'
      split_ifs at hpoint' <;> cases hpoint'
    | enter | leave | accept | rest | claimed | contended | inspected | started | stop | wait
    | received | sampled | readRunning | finished | returned | failed | drained | abortDone
    | abortSkipped | abortMoved | abortRefused => cases hpoint'

theorem Owning.event (h : w.Owning) {event : WindowEvent} (hevent : w.receive event = some w') :
    w'.Owning := by
  have hbooked : ∀ {policy}, w.Booked policy → w'.Booked policy := fun hb => hb.event hevent
  obtain ⟨milestones, control, _, _, _, _, rfl⟩ := receive_eq_some hevent
  constructor
  case books =>
    intro hexec
    obtain ⟨policy, hb⟩ := h.books hexec
    exact ⟨policy, hbooked hb⟩
  case abort => exact h.abort

end Window

/-! ## Every interleaving -/

/-- What holds of a system whose windows act on their own jobs: no job is claimed by two
    windows, and a claimed job is not `Queued`. -/
structure System.Owned (json : ReportJson) (s : System ι) : Prop where
  sound : Sound json s.db
  owning : ∀ i, ∀ w ∈ s.windows i, w.Owning
  started : ∀ i, ∀ w ∈ s.windows i, ∀ id ∈ w.claimed, s.db.stateOf id ≠ some .queued
  apart : ∀ i j, i ≠ j → ∀ w ∈ s.windows i, ∀ v ∈ s.windows j, ∀ id ∈ w.claimed, id ∉ v.claimed

section Step

variable {json : ReportJson} {s t : System ι}

/-- Putting a window into the system: what it has claimed beyond the window before was
    still `Queued`, so it belongs to no other window. -/
theorem System.Owned.update (h : s.Owned json) {i : ι} {w : Window} {db : Database}
    (hsound : Sound json db) (howning : w.Owning)
    (hkeeps : ∀ id, s.db.stateOf id ≠ some .queued → db.stateOf id ≠ some .queued)
    (hclaimed : ∀ id ∈ w.claimed, db.stateOf id ≠ some .queued ∧
      ((∃ v ∈ s.windows i, id ∈ v.claimed) ∨ s.db.stateOf id = some .queued)) :
    System.Owned json ⟨db, Function.update s.windows i (some w)⟩ := by
  have hother : ∀ {j v}, j ≠ i → v ∈ Function.update s.windows i (some w) j → v ∈ s.windows j := by
    intro j v hne hv
    rwa [Function.update_of_ne hne] at hv
  have hself : ∀ {v}, v ∈ Function.update s.windows i (some w) i → v = w := by
    intro v hv
    rw [Function.update_self] at hv
    exact (Option.some.inj hv).symm
  have happart : ∀ j, j ≠ i → ∀ v ∈ s.windows j, ∀ id ∈ w.claimed, id ∉ v.claimed := by
    intro j hne v hv id hid hother
    rcases (hclaimed id hid).2 with ⟨u, hu, hmem⟩ | hqueued
    · exact h.apart i j hne.symm u hu v hv id hmem hother
    · exact h.started j v hv id hother hqueued
  constructor
  case sound => exact hsound
  case owning =>
    intro j v hv
    by_cases hj : j = i
    · subst hj
      exact hself hv ▸ howning
    · exact h.owning j v (hother hj hv)
  case started =>
    intro j v hv id hid
    by_cases hj : j = i
    · subst hj
      exact (hclaimed id (hself hv ▸ hid)).1
    · exact hkeeps id (h.started j v (hother hj hv) id hid)
  case apart =>
    intro j k hne v hv u hu id hid
    by_cases hj : j = i
    · subst hj
      exact happart k hne.symm u (hother hne.symm hu) id (hself hv ▸ hid)
    · by_cases hk : k = i
      · subst hk
        exact fun hmem => happart j hj v (hother hj hv) id (hself hu ▸ hmem) hid
      · exact h.apart j k hne v (hother hj hv) u (hother hk hu) id hid

theorem System.Owned.launch (h : s.Owned json) {i : ι} {env : CallEnv}
    {logicalCpus limit parallel : ℕ} {control : QueueWindowControl} {w : Window}
    (hopen : openWindow env s.db logicalCpus limit parallel control = .ok w) :
    System.Owned json ⟨s.db, Function.update s.windows i (some w)⟩ := by
  have hb := openWindow_booked h.sound hopen
  obtain ⟨_, _, jobs, pending, _, _, rfl⟩ := openWindow_eq_ok hopen
  refine h.update h.sound ⟨fun _ => ⟨_, hb⟩, fun _ _ _ _ _ hpoint => ?_⟩ (fun _ hs => hs)
    fun id hid => absurd hid List.not_mem_nil
  cases hpoint

theorem System.Owned.step (h : s.Owned json) {i : ι} {env : StepEnv} {w w' : Window} {db : Database}
    (hwindow : w ∈ s.windows i) (hstep : w.step env s.db = some (w', db))
    (haborts : w.AbortsOwn s.db) :
    System.Owned json ⟨db, Function.update s.windows i (some w')⟩ := by
  have hadv := Window.step_advance h.sound hstep
  have howning := h.owning i w hwindow
  have hsound := (Window.step_writes h.sound hstep).sound h.sound
  refine h.update hsound (hadv.owning howning haborts)
    (fun id hs => hadv.effect.not_queued howning hs) fun id hid => ?_
  rcases hadv.effect.claims hid with hold | ⟨hqueued, hinspecting⟩
  · have hne := h.started i w hwindow id hold
    exact ⟨hadv.effect.not_queued howning hne, Or.inl ⟨w, hwindow, hold⟩⟩
  · rw [hinspecting]
    exact ⟨nofun, Or.inr hqueued⟩

theorem System.Owned.event (h : s.Owned json) {i : ι} {event : WindowEvent} {w w' : Window}
    (hwindow : w ∈ s.windows i) (hevent : w.receive event = some w') :
    System.Owned json ⟨s.db, Function.update s.windows i (some w')⟩ := by
  refine h.update h.sound ((h.owning i w hwindow).event hevent) (fun _ hs => hs) fun id hid => ?_
  obtain ⟨milestones, control, _, _, _, _, rfl⟩ := Window.receive_eq_some hevent
  exact ⟨h.started i w hwindow id hid, Or.inl ⟨w, hwindow, hid⟩⟩

omit [DecidableEq ι] in
theorem System.Owned.client (h : s.Owned json) (env : CallEnv) (call : Call)
    (huntouched : ∀ i, ∀ w ∈ s.windows i, ∀ id ∈ w.claimed,
      Untouched id s.db (exec json env s.db call).2) :
    System.Owned json { s with db := (exec json env s.db call).2 } where
  sound := (exec_writes env h.sound call).sound h.sound
  owning := h.owning
  started := by
    intro i w hw id hid
    rw [(huntouched i w hw id hid).stateOf]
    exact h.started i w hw id hid
  apart := h.apart

/-- **Every step of the system keeps the windows on their own jobs.** -/
theorem SystemStep.owned {label : SystemLabel ι} (hstep : SystemStep json s label t)
    (h : s.Owned json) (haborts : AbortsOwn s label t) : t.Owned json := by
  cases label with
  | launch i env logicalCpus limit parallel control =>
    simp only [SystemStep, System.next] at hstep
    split at hstep
    · next w _ hopen =>
      cases hstep
      exact h.launch hopen
    · cases hstep
  | step i env =>
    obtain ⟨w, hwindow, hnext⟩ := Option.bind_eq_some_iff.mp hstep
    obtain ⟨⟨w', db⟩, hadvance, rfl⟩ := Option.map_eq_some_iff.mp hnext
    exact h.step hwindow hadvance (haborts w hwindow)
  | event i event =>
    obtain ⟨w, hwindow, hstep⟩ := Option.bind_eq_some_iff.mp hstep
    obtain ⟨w', hevent, rfl⟩ := Option.map_eq_some_iff.mp hstep
    exact h.event hwindow hevent
  | client env call =>
    cases hstep
    exact h.client env call haborts

end Step

/-- **Windows act on the jobs they own.** Take any reachable store and any interleaving of
    any number of windows and clients over it, with any failures, in which clients leave
    claimed jobs untouched and no abort reads a job in flight that its window has not
    claimed. Then no job is claimed by two windows, no claimed job gets back to `Queued`,
    and every further step of a window changes only jobs it has claimed, or is its
    successful claim of the job it changes. -/
theorem window_owns {json : ReportJson} {db : Database} (h : Reachable json db)
    {labels : List (SystemLabel ι)} {s : System ι}
    (hrun : Trace (fun s label t => SystemStep json s label t ∧ AbortsOwn s label t)
      ⟨db, fun _ => none⟩ labels s) :
    (∀ i j, i ≠ j → ∀ w ∈ s.windows i, ∀ v ∈ s.windows j, ∀ id ∈ w.claimed, id ∉ v.claimed) ∧
    (∀ i, ∀ w ∈ s.windows i, ∀ id ∈ w.claimed, s.db.stateOf id ≠ some .queued) ∧
    ∀ i env w w' db', w ∈ s.windows i → w.step env s.db = some (w', db') →
      ∀ id, Untouched id s.db db' ∨ id ∈ w.claimed ∨
        s.db.Moves id .queued .inspecting db' ∧ w'.claimed = id :: w.claimed := by
  have hstart : System.Owned json (⟨db, fun _ : ι => none⟩ : System ι) :=
    ⟨h.sound, fun _ _ hw => absurd hw (Option.not_mem_none _),
      fun _ _ hw => absurd hw (Option.not_mem_none _),
      fun _ _ _ _ hw => absurd hw (Option.not_mem_none _)⟩
  have hend := hrun.invariant hstart fun hs hstep => hstep.1.owned hs hstep.2
  refine ⟨hend.apart, hend.started, fun i env w w' db' hwindow hstep id => ?_⟩
  exact (Window.step_advance hend.sound hstep).effect.owned (hend.owning i w hwindow) id

/-! ## Two windows -/

/-- The steps of a system, played from their labels. -/
def System.turn (json : ReportJson) (s : System ι) (label : SystemLabel ι) :
    Option (SystemLabel ι × System ι) :=
  (s.next json label).map fun t => (label, t)

theorem System.turn_step {json : ReportJson} {s t : System ι} {label label' : SystemLabel ι}
    (h : s.turn json label = some (label', t)) : SystemStep json s label' t := by
  obtain ⟨t', hnext, heq⟩ := Option.map_eq_some_iff.mp h
  cases heq
  exact hnext

instance (id : Uuid) (db db' : Database) : Decidable (Untouched id db db') :=
  decidable_of_iff (db'.job? id = db.job? id ∧ db'.logOf id = db.logOf id ∧
      db'.ownedKey id = db.ownedKey id)
    ⟨fun h => ⟨h.1, h.2.1, h.2.2⟩, fun h => ⟨h.job, h.log, h.reservation⟩⟩

instance (w : Window) (db : Database) : Decidable (w.AbortsOwn db) :=
  Option.decidableForallMem w.point.reading

instance [Fintype ι] (s : System ι) (label : SystemLabel ι) (t : System ι) :
    Decidable (AbortsOwn s label t) :=
  match label with
  | .client _ _ => @Fintype.decidableForallFintype _ _ (fun i => @Option.decidableForallMem _ _
      (fun w => List.decidableBAll _ w.claimed) (s.windows i)) _
  | .step i _ => inferInstanceAs (Decidable (∀ w ∈ s.windows i, w.AbortsOwn s.db))
  | .launch .. | .event .. => inferInstanceAs (Decidable True)

namespace Sample

/-- Two windows select the one `Queued` job of a store. The first one is about to claim it
    when the second one claims it. -/
def twoWindows : List (SystemLabel Bool) :=
  [.launch false (env 0) 4 1 1 .new, .launch true (env 0) 4 1 1 .new] ++
    List.replicate 2 (.step false stepEnv) ++ List.replicate 3 (.step true stepEnv)

end Sample

/-- The second window claims the job, the first one finds it contended: the job belongs to
    the second. -/
theorem window_owns_contended :
    let s := play (System.turn (Sample.json 0)) ⟨Sample.queued, fun _ => none⟩
      (Sample.twoWindows ++ [.step false Sample.stepEnv])
    ∀ w ∈ s.windows true, ∀ v ∈ s.windows false, ∀ id ∈ w.claimed, id ∉ v.claimed := by
  intro s
  have hplays : Plays (System.turn (Sample.json 0)) AbortsOwn ⟨Sample.queued, fun _ => none⟩
      (Sample.twoWindows ++ [.step false Sample.stepEnv]) := by decide
  obtain ⟨labels, hrun⟩ := play_trace (SystemStep (Sample.json 0)) System.turn_step hplays
  exact (window_owns Sample.queued_reachable hrun).1 true false nofun

/-- The claim of the first window meets a busy database, after the second window has
    claimed the job. The abort of the first window then moves the job of the second. -/
theorem window_owns_stolen :
    ∃ labels s, Trace (SystemStep (Sample.json 0)) ⟨Sample.queued, fun _ => none⟩ labels s ∧
      ∃ w v w' db', s.windows false = some w ∧ s.windows true = some v ∧ w.claimed = [] ∧
        v.claimed = [0] ∧ w.step Sample.stepEnv s.db = some (w', db') ∧
        s.db.stateOf 0 = some .inspecting ∧ db'.stateOf 0 = some .failed := by
  have hplays : Plays (System.turn (Sample.json 0)) (fun _ _ _ => True)
      ⟨Sample.queued, fun _ => none⟩ (Sample.twoWindows ++ [.step false Sample.busyEnv,
        .step false { Sample.stepEnv with order := [0] }, .step false Sample.stepEnv]) := by decide
  obtain ⟨labels, hrun⟩ := play_trace (SystemStep (Sample.json 0)) System.turn_step hplays
  exact ⟨labels, _, hrun.mono And.left, _, _, _, _, rfl, rfl, by decide, by decide, rfl, by decide,
    by decide⟩

end Anole
