import CardImport.Proofs.Progress
import CardImport.Proofs.Session.Look
import CardImport.Proofs.Session.Polling

/-!
# When a poll ends

A poll that ends by itself was told that no job runs, or gave up. But it can also be broken off: an
answer that cannot be read, a status that cannot be merged or a delay that cannot be waited for ends
it at once, and then the session goes on with what it took over before.
-/

namespace CardImport

/-- The session holds no job for running. -/
def Session.Idle (s : Session) : Prop := s.progress = Progress.inactive ∧ s.eta = none

/-- A status that says that no job runs. A progress of -1 can also be that of a job that runs and
has a negative number of bytes copied; then it must tell no end. -/
def JobStatus.TellsIdle (status : JobStatus) : Prop :=
  Progress.ofStatus status = .ok Progress.inactive ∧ (status.active = true → status.eta = none)

theorem JobStatus.tellsIdle_of_idle {status : JobStatus} (h : status.active = false) :
    status.TellsIdle := by
  refine ⟨Progress.ofStatus_of_idle h, fun hactive => ?_⟩
  rw [h] at hactive
  cases hactive

theorem Session.idle_giveUp (s : Session) : s.giveUp.Idle := ⟨rfl, rfl⟩

theorem Session.idle_merge {s : Session} {status : JobStatus} {progress : Number}
    (hp : Progress.ofStatus status = .ok progress) :
    (s.merge status).1.Idle ↔ status.TellsIdle := by
  obtain ⟨items, hs⟩ := merge_of_progress (s := s) hp
  rw [hs]
  show progress = Progress.inactive ∧ (if status.active then status.eta else none) = none ↔ _
  rw [JobStatus.TellsIdle, hp]
  cases status.active <;> simp

namespace Control

/-- An answer that leaves the progress alone: it tells no status, or one whose progress cannot be
computed. -/
def Untold (r : Except Failure Response) : Prop :=
  ∀ status, Job.told r = .ok status → ∃ e, Progress.ofStatus status = .error e

theorem idle_look {c : Control} {n : Nat} (hn : n = c.session.number)
    (r : Except Failure Response) : (c.lookSession n r).Idle ↔
      (∃ status, Job.told r = .ok status ∧ status.TellsIdle) ∨ Untold r ∧ c.session.Idle := by
  cases hr : Job.told r with
  | error f =>
      rw [(look_of_untold hr).1]
      simp [Untold, hr]
  | ok status =>
      rw [(look_of_told hr hn).1]
      cases hp : Progress.ofStatus status with
      | error e =>
          rw [Session.merge_of_no_progress hp]
          simp [Untold, JobStatus.TellsIdle, hr, hp, Session.Idle]
      | ok progress =>
          rw [Session.idle_merge hp]
          simp [Untold, hr, hp]

/-- The inputs that end the poll of a session so that the session holds no job for running. -/
inductive LeavesIdle (c : Control) (id : TaskId) (i : Input) : Prop
  | told {r status} (hi : i = .response (.task id) r) (hr : Job.told r = .ok status)
      (hidle : status.TellsIdle)
  | gaveUp {n stopped failures r f} (hi : i = .response (.task id) r)
      (ht : c.task? id = some (.poll n stopped (.asking failures))) (hr : Job.told r = .error f)
      (hf : f.isRemote = true) (hlast : isLastFailure c.session (failures + 1) f = true)
  | kept (hidle : c.session.Idle) (hi : ∀ r, i = .response (.task id) r → Untold r)

theorem turn_of_poll_end {c : Control} {i : Input} {id : TaskId} {n : Nat} {stopped : Bool}
    {stage : PollStage} (ht : c.task? id = some (.poll n stopped stage))
    (hlive : c.isDone id = false) (hdone : (c.step i).1.isDone id = true) :
    ∃ result, (c.step i).1.task? id = some (.poll n stopped (.done result)) ∧
      ∃ actions, Turn c id i (.poll n stopped stage) (c.step i).1.session
        (.poll n stopped (.done result)) actions := by
  obtain ⟨t', ht', hb⟩ := (move_step c i).became ht
  rw [isDone_of_task? ht] at hlive
  rw [isDone_of_task? ht'] at hdone
  cases hb with
  | same =>
      rw [hlive] at hdone
      cases hdone
  | stopped =>
      rw [isDone_stopTask, hlive] at hdone
      cases hdone
  | turned hturn =>
      obtain ⟨stage', rfl⟩ := hturn.poll rfl
      cases stage' with
      | done result => exact ⟨result, ht', _, hturn⟩
      | _ => cases hdone

/-- A look that does not give up leaves the session idle if it tells so, or tells nothing. -/
theorem leavesIdle_look {c : Control} {id : TaskId} {n : Nat} {stopped : Bool} {failures : Nat}
    {r : Except Failure Response} (hn : n = c.session.number)
    (ht : c.task? id = some (.poll n stopped (.asking failures)))
    (hgoes : ∀ f, Job.told r = .error f → f.isRemote = true →
      isLastFailure c.session (failures + 1) f = false) :
    (c.lookSession n r).Idle ↔ c.LeavesIdle id (.response (.task id) r) := by
  rw [idle_look hn]
  constructor
  · rintro (⟨status, hr, hidle⟩ | ⟨huntold, hidle⟩)
    · exact .told rfl hr hidle
    · refine .kept hidle ?_
      rintro r' ⟨⟩
      exact huntold
  · intro h
    cases h with
    | told hi hr hidle =>
        cases hi
        exact Or.inl ⟨_, hr, hidle⟩
    | gaveUp hi ht' hr hf hlast =>
        cases hi
        cases ht.symm.trans ht'
        rw [hgoes _ hr hf] at hlast
        cases hlast
    | kept hidle hi => exact Or.inr ⟨hi r rfl, hidle⟩

theorem Turn.idle_at_poll_end {c : Control} {id : TaskId} {i : Input} {t t' : Task} {s : Session}
    {actions : List Action} {stage : PollStage} {result : Except Failure Unit}
    (h : Turn c id i t s t' actions) (ht : c.task? id = some t)
    (hstart : t = .poll c.session.number false stage)
    (hend : t' = .poll c.session.number false (.done result)) :
    s.Idle ↔ c.LeavesIdle id i := by
  cases h with
  | pollWaits =>
      -- It could not wait for its first look, and nothing was told.
      constructor
      · intro hidle
        refine .kept hidle ?_
        rintro r ⟨⟩
      · intro hleaves
        cases hleaves with
        | told hi => cases hi
        | gaveUp hi => cases hi
        | kept hidle => exact hidle
  | pollIdle hr | pollGoesOn hr =>
      cases hstart
      refine leavesIdle_look rfl ht fun f htold => ?_
      cases (told_of_lookStatus_ok hr).symm.trans htold
  | pollBroken hr hf =>
      cases hstart
      refine leavesIdle_look rfl ht fun f htold hremote => ?_
      cases hr.symm.trans (look_of_untold htold).2
      rw [hf] at hremote
      cases hremote
  | pollGivesUp hr hf hlast =>
      cases hstart
      rw [if_pos rfl]
      have htold := told_of_remote hr hf
      rw [isLastFailure, (look_of_untold htold).1] at hlast
      exact ⟨fun _ => .gaveUp rfl ht htold hf hlast, fun _ => Session.idle_giveUp _⟩
  | pollRetries hr hf hlast =>
      cases hstart
      refine leavesIdle_look rfl ht fun f htold hremote => ?_
      cases hr.symm.trans (look_of_untold htold).2
      rwa [(look_of_untold htold).1] at hlast
  | pollLeaves hn =>
      cases hstart
      rcases hn with hn | hn
      · cases hn
      · exact absurd rfl hn
  | pollAsks => cases hend
  | _ => cases hstart

/-- A wait that cannot begin ends a poll with a failure. -/
theorem waitStage_ne_ok (s : Session) (failures : Nat) :
    waitStage s failures ≠ .done (.ok ()) := by
  unfold waitStage
  split
  · exact nofun
  · split <;> exact nofun

/-- A poll that ends without a failure was told that no job runs, or gave up. -/
theorem Turn.idle_of_poll_ok {c : Control} {id : TaskId} {i : Input} {t t' : Task} {s : Session}
    {actions : List Action} {stage : PollStage} (h : Turn c id i t s t' actions)
    (hstart : t = .poll c.session.number false stage)
    (hend : t' = .poll c.session.number false (.done (.ok ())))
    (hcopied : ∀ r status, i = .response (.task id) r → Job.told r = .ok status →
      0 ≤ status.bytesCopied) : s.Idle := by
  cases h with
  | pollIdle hr hidle =>
      cases hstart
      have hlt := hidle.resolve_left fun hn => hn rfl
      obtain ⟨hlook, hmerged⟩ := merged_of_lookStatus_ok hr rfl
      obtain ⟨progress, hp⟩ := Session.progress_of_merged hmerged
      obtain ⟨items, hs⟩ := Session.merge_of_progress (s := c.session) hp
      -- A copied size of zero or more rules out that a running job looks idle.
      have hnonneg := hcopied _ _ rfl (told_of_lookStatus_ok hr)
      rw [hlook, hs] at hlt
      rw [hlook, Session.idle_merge hp]
      exact JobStatus.tellsIdle_of_idle (Progress.not_active_of_lt_zero hnonneg hp hlt)
  | pollGivesUp =>
      cases hstart
      rw [if_pos rfl]
      exact Session.idle_giveUp _
  | pollLeaves hn =>
      cases hstart
      rcases hn with hn | hn
      · cases hn
      · exact absurd rfl hn
  | pollWaits | pollGoesOn | pollRetries =>
      cases hstart
      simp only [Task.poll.injEq, waitStage_ne_ok, and_false] at hend
  | pollBroken | pollAsks => cases hend
  | _ => cases hstart

/-- When the poll of a session ends, the session holds no job for running exactly if the poll was
told so or gave up, or nothing was told and none was held for running before. So it is whenever the
poll ends without a failure, if no negative number of bytes is told. -/
theorem idle_at_poll_end_iff (o : SessionOptions) (before : List Input) (i : Input) {id : TaskId}
    {n : Nat} (hcreated : o.begin.PollCreated before id n)
    (hopen : ((o.begin.run before).1.step i).1.session.number = n)
    (hlive : (o.begin.run before).1.isDone id = false)
    (hdone : ((o.begin.run before).1.step i).1.isDone id = true) :
    let c := (o.begin.run before).1
    ((c.step i).1.session.Idle ↔ c.LeavesIdle id i) ∧
      ((∃ n stopped, (c.step i).1.task? id = some (.poll n stopped (.done (.ok ())))) →
        (∀ r status, i = .response (.task id) r → Job.told r = .ok status →
          0 ≤ status.bytesCopied) → (c.step i).1.session.Idle) := by
  intro c
  obtain ⟨stopped, stage, ht⟩ := hcreated.task?
  obtain ⟨result, ht', actions, hturn⟩ := turn_of_poll_end ht hlive hdone
  obtain rfl : c.session.number = n := hturn.number.symm.trans hopen
  -- A poll of the session was not stopped.
  obtain rfl : stopped = false := by
    cases stopped with
    | false => rfl
    | true => exact absurd ((retiring_run o before).past ht) (Nat.lt_irrefl _)
  refine ⟨hturn.idle_at_poll_end ht rfl rfl, ?_⟩
  rintro ⟨n, stopped, hok⟩ hcopied
  cases ht'.symm.trans hok
  exact hturn.idle_of_poll_ok rfl rfl hcopied

/-- A poll whose first look tells that no job runs. -/
theorem idle_at_poll_end_iff_first_look :
    let o : SessionOptions := { pollInterval := .whole 1 }
    let before : List Input := [.startPolling, .begin 0, .elapsed 0]
    let c := (o.begin.run before).1
    o.begin.PollCreated before 0 0 ∧
      (c.step (.response (.task 0) idleJob)).1.session.number = 0 ∧ c.isDone 0 = false ∧
      (c.step (.response (.task 0) idleJob)).1.isDone 0 = true ∧
      (c.step (.response (.task 0) idleJob)).1.session.Idle := by
  intro o before
  dsimp only
  have hcreated : o.begin.PollCreated before 0 0 :=
    ⟨[], .startPolling, [.begin 0, .elapsed 0], rfl, rfl, ⟨_, _, _, rfl⟩, rfl⟩
  have hleaves : (o.begin.run before).1.LeavesIdle 0 (.response (.task 0) idleJob) :=
    .told rfl (show Job.told idleJob = .ok {} from rfl) (JobStatus.tellsIdle_of_idle rfl)
  have hopen : ((o.begin.run before).1.step (.response (.task 0) idleJob)).1.session.number = 0 :=
    by decide +kernel
  have hlive : (o.begin.run before).1.isDone 0 = false := by decide +kernel
  have hdone : ((o.begin.run before).1.step (.response (.task 0) idleJob)).1.isDone 0 = true := by
    decide +kernel
  obtain ⟨hidle, -⟩ :=
    idle_at_poll_end_iff o before (.response (.task 0) idleJob) hcreated hopen hlive hdone
  exact ⟨hcreated, hopen, hlive, hdone, hidle.mpr hleaves⟩

def halfway : Except Failure Response :=
  .ok ⟨200, .obj [("active", .bool true), ("bytesCopied", .int 1), ("bytesTotal", .int 2)]⟩

def boundless : Except Failure Response :=
  .ok ⟨200, .obj [("active", .bool true), ("bytesCopied", .float (.infinite false)),
    ("bytesTotal", .int 2)]⟩

/-- A status that cannot be read ends the poll in the middle of a job. -/
theorem not_idle_after_unreadable_status :
    let o : SessionOptions := { pollInterval := .whole 1 }
    let before : List Input :=
      [.startPolling, .begin 0, .elapsed 0, .response (.task 0) halfway, .elapsed 0]
    let c := (o.begin.run before).1
    let c' := (c.step (.response (.task 0) boundless)).1
    o.begin.PollCreated before 0 0 ∧ c'.session.number = 0 ∧ c.isDone 0 = false ∧
      c'.isDone 0 = true ∧ ¬ c'.session.Idle := by
  intro o before c c'
  have hcreated : o.begin.PollCreated before 0 0 :=
    ⟨[], .startPolling, _, rfl, rfl, ⟨_, _, _, rfl⟩, rfl⟩
  refine ⟨hcreated, by decide +kernel, by decide +kernel, by decide +kernel, ?_⟩
  rintro ⟨hprogress, -⟩
  have hactive : Progress.isActive c'.session.progress = true := by decide +kernel
  rw [hprogress] at hactive
  exact absurd hactive (by decide +kernel)

end Control

end CardImport
