import CardImport.Proofs.Session.Answers

/-!
# A new session

What a session shows after a path was opened and its load has ended: the list and the state come
from the answers to the load alone, whatever was done before. But what is known of the job is taken
over from the session before as long as no status tells otherwise.
-/

namespace CardImport

/-! ## Opening a path -/

/-- Whether a load has ended without a failure. -/
def Control.hasLoaded (c : Control) (load : TaskId) : Bool :=
  match c.task? load with
  | some (.load (.done (.ok ()))) => true
  | _ => false

theorem Control.task?_of_hasLoaded {c : Control} {load : TaskId} (h : c.hasLoaded load = true) :
    c.task? load = some (.load (.done (.ok ()))) := by
  unfold hasLoaded at h
  split at h
  · assumption
  · cases h

/-- A path is opened after anything was done with a session, and its load, left to itself, ends
without a failure. -/
structure Reopening (o : SessionOptions) (path : String) where
  past : List Input
  window : List Input
  alone : ((o.begin.run past).1.openPath path).1.Alone (o.begin.run past).1.tasks.length window
  ended : (((o.begin.run past).1.openPath path).1.run window).1.hasLoaded
    (o.begin.run past).1.tasks.length = true

/-- What a session shows of its list, of the job and of itself. -/
def Session.outlook (s : Session) :
    List Item × Bool × Number × Option Timestamp × Bool × SessionState :=
  (s.items, s.loading, s.progress, s.eta, s.enabled, s.state)

theorem Session.outlook_eq_iff {s s' : Session} : s.outlook = s'.outlook ↔
    s.items = s'.items ∧ s.loading = s'.loading ∧ s.job = s'.job := by
  constructor
  · intro h
    simp only [outlook, Prod.mk.injEq] at h
    obtain ⟨hitems, hloading, hprogress, heta, henabled, -⟩ := h
    exact ⟨hitems, hloading, by rw [job, job, henabled, hprogress, heta]⟩
  · rintro ⟨hitems, hloading, hjob⟩
    simp only [job, Prod.mk.injEq] at hjob
    obtain ⟨henabled, hprogress, heta⟩ := hjob
    simp only [outlook, state, hitems, hloading, henabled, hprogress, heta]

namespace Reopening

open Control

variable {o : SessionOptions} {path : String}

def before (x : Reopening o path) : Control := (o.begin.run x.past).1

def opened (x : Reopening o path) : Control := (x.before.openPath path).1

def load (x : Reopening o path) : TaskId := x.before.tasks.length

def after (x : Reopening o path) : Control := (x.opened.run x.window).1

/-- The answers to the load. -/
def answers (x : Reopening o path) : Answers := x.opened.answers x.load x.window

/-- The tasks from before belong to other sessions, or to none yet. -/
theorem apart (x : Reopening o path) : x.opened.Apart x.load := by
  intro id t hid ht
  refine Or.inl fun hn => ?_
  cases hold : x.before.close.1.task? id with
  | none =>
      obtain ⟨rfl, -⟩ := task?_spawn_of_none (c := x.before.close.1.setSession _) hold ht
      exact hid (length_close x.before)
  | some u =>
      cases (task?_openPath_of_some hold).symm.trans ht
      have hbounded : x.before.CapturesBounded :=
        run_keeps Move.capturesBounded (capturesBounded_begin o) x.past
      have hle : x.before.session.number + 1 ≤ x.before.session.number := by
        rw [task?_close] at hold
        split at hold
        · obtain ⟨v, hv, rfl⟩ := Option.map_eq_some_iff.mp hold
          rw [captured_stopTask] at hn
          exact hbounded hv hn
        · exact hbounded hold hn
      exact absurd hle (Nat.not_succ_le_self _)

/-- The session after the load is made of the answers and of what was opened. -/
theorem session_after (x : Reopening o path) : ∃ items r,
    x.answers.items? o.scene path = some items ∧ x.answers.status = some r ∧
      x.after.session = (x.opened.session.loaded items).look r ∧
      ∀ status, Job.told r = .ok status → ∃ progress, Progress.ofStatus status = .ok progress := by
  obtain ⟨-, stage, ht, hphase⟩ := loadPhase_run
    (task?_openPath_self x.before path) x.apart rfl x.alone
  have hscene : x.opened.session.scene = o.scene := scene_run o.begin x.past
  have hended : x.after.task? x.load = some (.load (.done (.ok ()))) := task?_of_hasLoaded x.ended
  cases ht.symm.trans hended
  change LoadPhase x.opened.session x.answers _ x.after.session at hphase
  generalize hafter : x.after.session = after at hphase
  cases hphase with
  | ended hitems hstatus hmerged =>
      rw [hscene] at hitems
      exact ⟨_, _, hitems, hstatus, rfl, hmerged rfl⟩

/-- The load was given an answer to each of its requests. -/
theorem answered (x : Reopening o path) (hpath : path ≠ "") : ∃ clips takes status,
    x.answers = { clips := some clips, takes := some takes, status := some status } ∧
      .response (.leg x.load .clips) clips ∈ x.window ∧
      .response (.leg x.load .takes) takes ∈ x.window ∧
      .response (.task x.load) status ∈ x.window := by
  obtain ⟨items, status, hitems, hstatus, -⟩ := x.session_after
  obtain ⟨hclipsMem, htakesMem, hstatusMem⟩ : (∀ r, x.answers.clips = some r → _) ∧
      (∀ r, x.answers.takes = some r → _) ∧ ∀ r, x.answers.status = some r → _ :=
    mem_of_answers x.opened x.load x.window
  generalize x.answers = a at hitems hstatus hclipsMem htakesMem hstatusMem
  obtain ⟨clips, takes, r⟩ := a
  rw [Answers.items?, if_neg hpath] at hitems
  split at hitems
  · rename_i clips' takes' hclips htakes
    simp only at hclips htakes hstatus
    subst hclips htakes hstatus
    exact ⟨clips', takes', status, rfl, hclipsMem _ rfl, htakesMem _ rfl, hstatusMem _ rfl⟩
  · cases hitems

/-! ## What is shown after a load -/

/-- The list and the state after a load come from its answers alone. The sessions show the same of
the job exactly if a status told of it, or if they did before. -/
theorem outlook_after_eq_iff (x y : Reopening o path) (hanswers : x.answers = y.answers) :
    (x.after.session.items = y.after.session.items ∧ x.after.session.loading = false ∧
      y.after.session.loading = false) ∧
    (x.after.session.outlook = y.after.session.outlook ↔
      (∃ r status, x.answers.status = some r ∧ Job.told r = .ok status) ∨
        x.before.session.job = y.before.session.job) := by
  obtain ⟨items, r, hitems, hstatus, hx, hmerged⟩ := x.session_after
  obtain ⟨items', r', hitems', hstatus', hy, -⟩ := y.session_after
  rw [← hanswers] at hitems' hstatus'
  obtain rfl : items = items' := Option.some.inj (hitems.symm.trans hitems')
  obtain rfl : r = r' := Option.some.inj (hstatus.symm.trans hstatus')
  have hlist : (x.opened.session.loaded items).SameList (y.opened.session.loaded items) :=
    ⟨rfl, rfl⟩
  have hsame : x.after.session.items = y.after.session.items := by
    rw [hx, hy]
    exact (hlist.look r).1
  have hloading : x.after.session.loading = false ∧ y.after.session.loading = false := by
    rw [hx, hy, Session.loading_look, Session.loading_look]
    exact ⟨rfl, rfl⟩
  refine ⟨⟨hsame, hloading⟩, ?_⟩
  rw [Session.outlook_eq_iff, hloading.1, hloading.2, hx, hy]
  cases hr : Job.told r with
  | error f =>
      -- Both go on with what they knew before.
      rw [Session.job_look_of_untold hr, Session.job_look_of_untold hr]
      refine ⟨fun h => Or.inr h.2.2, ?_⟩
      rintro (⟨r', status, hr', htold⟩ | hjob)
      · cases hstatus.symm.trans hr'
        cases hr.symm.trans htold
      · exact ⟨(hlist.look r).1, rfl, hjob⟩
  | ok status =>
      obtain ⟨progress, hp⟩ := hmerged status hr
      rw [Session.job_look_of_told hr hp, Session.job_look_of_told hr hp]
      exact ⟨fun _ => Or.inl ⟨r, status, hstatus, hr⟩, fun _ => ⟨(hlist.look r).1, rfl, rfl⟩⟩

def loadsClip (load : TaskId) (status : Except Failure Response) : List Input :=
  [.begin load, .beginLeg load .clips, .beginLeg load .takes, .response (.leg load .clips) oneClip,
    .response (.leg load .takes) noTakes, .joined load, .response (.task load) status]

def duringJob : List Input :=
  firstLoad "/a" ++ [.response (.task 0) (.ok ⟨200, .obj [("active", .bool true)]⟩)]

theorem answers_of_loadsClip {x : Reopening o path} (hpath : path ≠ "")
    {status : Except Failure Response} (h : x.window = loadsClip x.load status) :
    x.answers = { clips := oneClip, takes := noTakes, status := status } := by
  obtain ⟨clips, takes, r, hanswers, hclips, htakes, hstatus⟩ := x.answered hpath
  rw [h] at hclips htakes hstatus
  obtain rfl : clips = oneClip := by simpa [loadsClip] using hclips
  obtain rfl : takes = noTakes := by simpa [loadsClip] using htakes
  obtain rfl : r = status := by simpa [loadsClip] using hstatus
  exact hanswers

/-- A path is opened, and its load lists a clip and asks for the status. -/
def listing (past : List Input) (status : Except Failure Response)
    (ended : (((({} : SessionOptions).begin.run past).1.openPath "/b").1.run
      (loadsClip (({} : SessionOptions).begin.run past).1.tasks.length status)).1.hasLoaded
        (({} : SessionOptions).begin.run past).1.tasks.length = true) : Reopening {} "/b" where
  past := past
  window := loadsClip (({} : SessionOptions).begin.run past).1.tasks.length status
  alone := alone_of_forall (by simp [loadsClip, Input.IsCall])
  ended := ended

/-- A status that is told after a load makes up for a job of the session before. -/
theorem outlook_after_idle_status :
    let x := listing [] idleJob (by decide +kernel)
    let y := listing duringJob idleJob (by decide +kernel)
    x.answers = y.answers ∧ x.before.session.job ≠ y.before.session.job ∧
      x.after.session.outlook = y.after.session.outlook := by
  intro x y
  have hanswers : x.answers = y.answers := by
    rw [answers_of_loadsClip (by decide) rfl, answers_of_loadsClip (by decide) rfl]
  have htold : ∃ r status, x.answers.status = some r ∧ Job.told r = .ok status := by
    rw [answers_of_loadsClip (by decide) rfl]
    exact ⟨idleJob, {}, rfl, rfl⟩
  refine ⟨hanswers, fun h => ?_, (outlook_after_eq_iff x y hanswers).2.mpr (Or.inl htold)⟩
  simp only [Session.job, Prod.mk.injEq] at h
  have hactive := congrArg Progress.isActive h.2.1
  exact absurd hactive (by decide +kernel)

/-- Without one the job of the session before goes on in the new session. -/
theorem outlook_after_unknown_status :
    let x := listing [] notFound (by decide +kernel)
    let y := listing duringJob notFound (by decide +kernel)
    x.answers = y.answers ∧ x.after.session.outlook ≠ y.after.session.outlook := by
  intro x y
  refine ⟨?_, fun h => ?_⟩
  · rw [answers_of_loadsClip (by decide) rfl, answers_of_loadsClip (by decide) rfl]
  · simp only [Session.outlook, Prod.mk.injEq] at h
    have hstate := h.2.2.2.2.2
    exact absurd hstate (by decide +kernel)

end Reopening

end CardImport
