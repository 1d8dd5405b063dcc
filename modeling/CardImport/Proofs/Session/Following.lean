import CardImport.Proofs.Session.Run

/-!
# Whether a submitted job is followed

An accepted batch is followed by the poll of the session, and a poll that runs already is handed on.
If that poll is waiting, or has not begun, it looks at the job before it ends. If it has a look on
its way, the answer can end it, though it was asked for before the batch was accepted.
-/

namespace CardImport.Control

/-! ## The poll of the session -/

/-- The poll of a session belongs to it and was not stopped. -/
def PollerCurrent (c : Control) : Prop :=
  ∀ {id}, c.poller = some id → ∃ stage, c.task? id = some (.poll c.session.number false stage)

theorem Turn.poll {c : Control} {id : TaskId} {i : Input} {t t' : Task} {s : Session}
    {actions : List Action} (h : Turn c id i t s t' actions) {n : Nat} {stopped : Bool}
    {stage : PollStage} (ht : t = .poll n stopped stage) :
    ∃ stage', t' = .poll n stopped stage' := by
  cases h with
  | pollWaits | pollAsks | pollLeaves | pollHalted | pollIdle | pollGoesOn | pollBroken
  | pollGivesUp | pollRetries =>
      cases ht
      exact ⟨_, rfl⟩
  | _ => cases ht

theorem pollerCurrent_startPolling {c : Control} (h : c.PollerCurrent) :
    c.startPolling.1.PollerCurrent := by
  intro id hid
  rw [session_startPolling]
  rcases startPolling_cases c with ⟨p, -, -, heq⟩ | heq
  · rw [heq] at hid ⊢
    exact h hid
  · rw [heq] at hid ⊢
    cases hid
    exact ⟨.created, task?_spawn_self c _⟩

theorem Move.pollerCurrent {c c' : Control} {i : Input} {actions : List Action}
    (h : Move c i c' actions) (hc : c.PollerCurrent) : c'.PollerCurrent := by
  cases h with
  | opened path =>
      intro id hid
      cases hid
  | closed =>
      intro id hid
      cases hid
  | edited e => exact hc
  | started hfresh =>
      intro id hid
      obtain ⟨stage, hstage⟩ := hc hid
      exact ⟨stage, task?_spawn_of_some hstage _⟩
  | polled => exact pollerCurrent_startPolling hc
  | @turned i j t s t' actions ht hturn =>
      intro id hid
      rw [session_setTask, session_setSession, hturn.number]
      obtain ⟨stage, hstage⟩ := hc hid
      -- The turn of a poll leaves it a poll of the same session.
      by_cases hj : j = id
      · subst hj
        obtain rfl : t = .poll c.session.number false stage :=
          Option.some.inj (ht.symm.trans hstage)
        obtain ⟨stage', rfl⟩ := hturn.poll rfl
        exact ⟨stage', task?_setTask_self (c := c.setSession s) ht _⟩
      · exact ⟨stage, (task?_setTask_of_ne _ hj _).trans hstage⟩
  | @accepted j r entries ht hr =>
      intro id hid
      obtain ⟨stage, hstage⟩ := pollerCurrent_startPolling hc hid
      have hj : j ≠ id := by
        rintro rfl
        cases (task?_startPolling_of_some ht).symm.trans hstage
      exact ⟨stage, (task?_setTask_of_ne _ hj _).trans hstage⟩
  | dropped => exact hc

theorem pollerCurrent_run (o : SessionOptions) (inputs : List Input) :
    (o.begin.run inputs).1.PollerCurrent := by
  refine run_keeps Move.pollerCurrent ?_ inputs
  intro id hid
  cases hid

/-! ## Polls that will look -/

/-- A poll of the current session that asks for the status before it ends: it waits for its next
look, or has not begun and can wait for its first. -/
inductive WillLook (c : Control) (poll : TaskId) : Prop
  | begins (ht : c.task? poll = some (.poll c.session.number false .created))
      (hdelay : checkDelay c.session.pollInterval = .ok ())
  | waits (failures : Nat)
      (ht : c.task? poll = some (.poll c.session.number false (.waiting failures)))

/-- Only a whole number can be too large to wait for. -/
theorem checkDelay_real (x : Binary64) : checkDelay (.real x) = .ok () := by
  unfold checkDelay
  split <;> rfl

theorem waitStage_zero {s : Session} (hdelay : checkDelay s.pollInterval = .ok ()) :
    waitStage s 0 = .waiting 0 := by
  simp [waitStage, pollDelay, hdelay]

theorem Move.pollInterval {c c' : Control} {i : Input} {actions : List Action}
    (h : Move c i c' actions) : c'.session.pollInterval = c.session.pollInterval :=
  congrArg (fun settings => settings.2.1) h.settings

theorem Move.number_of_not_closes {c c' : Control} {i : Input} {actions : List Action}
    (h : Move c i c' actions) (hi : ¬ i.Closes) : c'.session.number = c.session.number := by
  cases h with
  | opened | closed => exact absurd trivial hi
  | polled => rw [session_startPolling]
  | turned ht hturn => exact hturn.number
  | accepted ht hr => rw [session_setTask, session_startPolling]
  | _ => rfl

theorem Turn.of_new_poll {c : Control} {id : TaskId} {i : Input} {n : Nat} {stopped : Bool}
    {t' : Task} {s : Session} {actions : List Action}
    (h : Turn c id i (.poll n stopped .created) s t' actions) :
    t' = .poll n stopped (waitStage c.session 0) := by
  cases h with
  | pollWaits => rfl

/-- In its own session, a poll that was not stopped only wakes to look. -/
theorem Turn.of_waiting_poll {c : Control} {id : TaskId} {i : Input} {failures : Nat} {t' : Task}
    {s : Session} {actions : List Action}
    (h : Turn c id i (.poll c.session.number false (.waiting failures)) s t' actions) :
    .ask (.task id) .status ∈ actions := by
  cases h with
  | pollAsks => exact List.mem_singleton.mpr rfl
  | pollLeaves hleaves => simp at hleaves

/-- A poll that will look still does so after a move, or it asks for the status now. -/
theorem WillLook.move {c c' : Control} {i : Input} {actions : List Action} {poll : TaskId}
    (h : c.WillLook poll) (hmove : Move c i c' actions) (hi : ¬ i.Closes) :
    c'.WillLook poll ∨ .ask (.task poll) .status ∈ actions := by
  have hnumber := hmove.number_of_not_closes hi
  have hinterval := hmove.pollInterval
  cases h with
  | begins ht hdelay =>
      obtain ⟨t', ht', hb⟩ := hmove.became ht
      refine Or.inl ?_
      cases hb with
      | same =>
          refine .begins ?_ ?_
          · rw [ht', hnumber]
          · rw [hinterval, hdelay]
      | turned hturn =>
          -- Its one turn is to begin its first wait.
          refine .waits 0 ?_
          rw [ht', hnumber, hturn.of_new_poll, waitStage_zero hdelay]
      | stopped t hp hcloses => exact absurd hcloses hi
  | waits failures ht =>
      obtain ⟨t', ht', hb⟩ := hmove.became ht
      cases hb with
      | same =>
          refine Or.inl (.waits failures ?_)
          rw [ht', hnumber]
      | turned hturn => exact Or.inr hturn.of_waiting_poll
      | stopped t hp hcloses => exact absurd hcloses hi

theorem WillLook.not_isDone {c : Control} {poll : TaskId} (h : c.WillLook poll) :
    c.isDone poll = false := by
  cases h with
  | begins ht => simp [isDone, ht, Task.isDone]
  | waits failures ht => simp [isDone, ht, Task.isDone]

/-- Such a poll does not end before it has asked for the status, unless the session does. -/
theorem WillLook.asks_of_isDone {c : Control} {poll : TaskId} (h : c.WillLook poll)
    {after : List Input} (hafter : ∀ i ∈ after, ¬ i.Closes)
    (hdone : (c.run after).1.isDone poll = true) :
    .ask (.task poll) .status ∈ (c.run after).2 := by
  induction after generalizing c with
  | nil =>
      rw [run, h.not_isDone] at hdone
      cases hdone
  | cons i rest ih =>
      rcases h.move (move_step c i) (hafter i List.mem_cons_self) with hlook | hasked
      · exact List.mem_append_right _
          (ih hlook (fun j hj => hafter j (List.mem_cons_of_mem _ hj)) hdone)
      · exact List.mem_append_left _ hasked

/-! ## Accepted batches -/

theorem isDone_setTask_of_ne (c : Control) {id j : TaskId} (hj : id ≠ j) (t : Task) :
    (c.setTask id t).isDone j = c.isDone j := by
  unfold isDone
  rw [task?_setTask_of_ne c hj t]

/-- The poll that `startPolling` hands on is the one of the session, and has not ended. -/
theorem poller_startPolling (c : Control) :
    c.startPolling.1.poller = some c.startPolling.2.1 ∧
      c.startPolling.1.isDone c.startPolling.2.1 = false := by
  rcases startPolling_cases c with ⟨p, hp, hdone, h⟩ | h
  · rw [h]
    exact ⟨hp, hdone⟩
  · rw [h]
    refine ⟨rfl, ?_⟩
    have hnew := task?_spawn_self c (.poll c.session.number false .created)
    exact congrArg (fun t => Option.any Task.isDone t) hnew

theorem Move.of_accepted {c c' : Control} {id poll : TaskId} {r : Except Failure Response}
    {actions : List Action} (h : Move c (.response (.task id) r) c' actions)
    (ht : c.task? id = some (.submit .asked))
    (ht' : c'.task? id = some (.submit (.done (.ok poll)))) :
    c' = c.startPolling.1.setTask id (.submit (.done (.ok c.startPolling.2.1))) ∧
      poll = c.startPolling.2.1 := by
  cases h with
  | started hfresh => cases hfresh
  | turned hj hturn =>
      cases hturn with
      | @submitRefused r f entries hr =>
          have hself := task?_setTask_self (c := c.setSession c.session) hj
            (.submit (.done (.error f)))
          cases hself.symm.trans ht'
      | _ => cases ht.symm.trans hj
  | accepted hasked hr =>
      refine ⟨rfl, ?_⟩
      have hself := task?_setTask_self (task?_startPolling_of_some ht)
        (.submit (.done (.ok c.startPolling.2.1)))
      cases hself.symm.trans ht'
      rfl
  | dropped => cases ht.symm.trans ht'

/-- The poll that an accepted batch is followed by belongs to the session and has not ended. -/
theorem poll_of_accepted {c c' : Control} (hc : c.PollerCurrent) {id poll : TaskId}
    {r : Except Failure Response} {actions : List Action}
    (h : Move c (.response (.task id) r) c' actions) (ht : c.task? id = some (.submit .asked))
    (ht' : c'.task? id = some (.submit (.done (.ok poll)))) :
    ∃ stage, c'.task? poll = some (.poll c'.session.number false stage) ∧
      ∀ result, stage ≠ .done result := by
  obtain ⟨stage, hstage⟩ : ∃ stage, c'.task? poll = some (.poll c'.session.number false stage) := by
    refine h.pollerCurrent hc ?_
    obtain ⟨rfl, rfl⟩ := h.of_accepted ht ht'
    exact (poller_startPolling c).1
  -- The task of the batch is not the poll, so the poll is as it was handed on.
  have hne : id ≠ poll := by
    rintro rfl
    cases ht'.symm.trans hstage
  refine ⟨stage, hstage, ?_⟩
  rintro result rfl
  obtain ⟨rfl, rfl⟩ := h.of_accepted ht ht'
  have hopen := (poller_startPolling c).2
  rw [← isDone_setTask_of_ne _ hne (.submit (.done (.ok c.startPolling.2.1))), isDone, hstage]
    at hopen
  cases hopen

/-! ## Polls that may not look -/

def notFound : Except Failure Response := .error (.transport "importer HTTP status 404" 404)

/-- A look that is on its way can be the last one. -/
theorem asking_may_end {c : Control} {poll n failures : Nat} {stopped : Bool}
    (ht : c.task? poll = some (.poll n stopped (.asking failures))) :
    (c.run [.response (.task poll) notFound]).1.isDone poll = true ∧
      ∀ sender, .ask sender .status ∉ (c.run [.response (.task poll) notFound]).2 := by
  have hlook : c.receiveStatus n notFound =
      (c, [], .error (.transport "importer HTTP status 404" 404)) := rfl
  have hremote : (Failure.transport "importer HTTP status 404" 404).isRemote = true := by decide
  have hlast : isLastFailure c.session (failures + 1)
      (.transport "importer HTTP status 404" 404) = true := rfl
  have hstep : ∃ s entry, c.step (.response (.task poll) notFound) =
      ((c.setSession s).setTask poll (.poll n stopped (.done (.ok ()))), [.note entry]) := by
    simp only [step, receive, ht, stepPoll, hlook, hremote, hlast, Bool.not_true,
      Bool.false_eq_true, ite_false, ite_true]
    exact ⟨_, _, rfl⟩
  obtain ⟨s, entry, hstep⟩ := hstep
  rw [run_singleton, hstep]
  refine ⟨?_, fun sender => by simp⟩
  simp [isDone, task?_setTask_self (c := c.setSession s) ht, Task.isDone]

/-- A poll that cannot wait for its first look ends without one. -/
theorem created_may_end {c : Control} {poll n : Nat} {stopped : Bool} {e : NumberError}
    (ht : c.task? poll = some (.poll n stopped .created))
    (hdelay : checkDelay c.session.pollInterval = .error e) :
    (c.run [.begin poll]).1.isDone poll = true ∧
      ∀ sender, .ask sender .status ∉ (c.run [.begin poll]).2 := by
  have hstep : c.step (.begin poll) =
      (c.setTask poll (.poll n stopped (.done (.error (.number e)))),
        [.wait poll c.session.pollInterval]) := by
    simp only [step, beginTask, ht, waitPoll, pollDelay, hdelay, ite_true]
  rw [run_singleton, hstep]
  refine ⟨?_, fun sender => by simp⟩
  simp [isDone, task?_setTask_self ht, Task.isDone]

/-- An accepted batch is followed by a poll that asks for the status before it ends, exactly if
that poll has no look on its way and can wait for one. -/
theorem followed_iff (o : SessionOptions) (before : List Input) {id poll : TaskId}
    {r : Except Failure Response}
    (hwaits : (o.begin.run before).1.task? id = some (.submit .asked))
    (haccepted : (o.begin.run (before ++ [.response (.task id) r])).1.task? id =
      some (.submit (.done (.ok poll)))) :
    let c := (o.begin.run (before ++ [.response (.task id) r])).1
    ((∀ after : List Input, (∀ i ∈ after, ¬ i.Closes) → (c.run after).1.isDone poll = true →
        ∃ sender, .ask sender .status ∈ (c.run after).2) ↔ c.WillLook poll) ∧
      (c.WillLook poll → ∀ after : List Input, (∀ i ∈ after, ¬ i.Closes) →
        (c.run after).1.isDone poll = true → .ask (.task poll) .status ∈ (c.run after).2) := by
  intro c
  obtain ⟨actions, hmove⟩ :
      ∃ actions, Move (o.begin.run before).1 (.response (.task id) r) c actions := by
    have h := move_step (o.begin.run before).1 (.response (.task id) r)
    rw [← run_concat_fst] at h
    exact ⟨_, h⟩
  obtain ⟨stage, hstage, hopen⟩ :=
    poll_of_accepted (pollerCurrent_run o before) hmove hwaits haccepted
  refine ⟨⟨fun hfollowed => ?_, ?_⟩, ?_⟩
  · cases stage with
    | created =>
        cases hdelay : checkDelay c.session.pollInterval with
        | ok _ => exact .begins hstage hdelay
        | error e =>
            -- Its first wait fails, which ends it.
            obtain ⟨hdone, hnone⟩ := created_may_end hstage hdelay
            obtain ⟨sender, hasked⟩ := hfollowed [.begin poll] (by simp [Input.Closes]) hdone
            exact absurd hasked (hnone sender)
    | waiting failures => exact .waits failures hstage
    | asking failures =>
        -- The look on its way is answered so that no retry follows.
        obtain ⟨hdone, hnone⟩ := asking_may_end hstage
        obtain ⟨sender, hasked⟩ := hfollowed [.response (.task poll) notFound]
          (by simp [Input.Closes]) hdone
        exact absurd hasked (hnone sender)
    | done result => exact absurd rfl (hopen result)
  · intro hlook after hafter hdone
    exact ⟨.task poll, hlook.asks_of_isDone hafter hdone⟩
  · intro hlook after hafter hdone
    exact hlook.asks_of_isDone hafter hdone

/-- The batch of a first load is followed by a poll of its own, which looks. -/
theorem followed_after_first_load :
    let c := (({} : SessionOptions).begin.run
      (firstLoad "/a" ++ [.submit, .begin 1] ++ [.response (.task 1) batchAccepted])).1
    c.task? 1 = some (.submit (.done (.ok 2))) ∧
      ∀ after : List Input, (∀ i ∈ after, ¬ i.Closes) → (c.run after).1.isDone 2 = true →
        .ask (.task 2) .status ∈ (c.run after).2 := by
  intro c
  have hwaits : (({} : SessionOptions).begin.run
      (firstLoad "/a" ++ [.submit, .begin 1])).1.task? 1 = some (.submit .asked) := rfl
  have haccepted : c.task? 1 = some (.submit (.done (.ok 2))) := rfl
  have hlook : c.WillLook 2 := .begins rfl (checkDelay_real _)
  exact ⟨haccepted, (followed_iff {} _ hwaits haccepted).2 hlook⟩

def asksStatus : Action → Bool
  | .ask _ .status => true
  | _ => false

theorem not_ask_of_any {actions : List Action} (h : actions.any asksStatus = false)
    (sender : Sender) : .ask sender .status ∉ actions := by
  intro hmem
  have hany : actions.any asksStatus = true := List.any_eq_true.mpr ⟨_, hmem, rfl⟩
  rw [h] at hany
  cases hany

/-- A poll that has a look on its way when the batch is accepted can end by its answer. -/
theorem not_followed_while_asking :
    let c := (({ pollInterval := .whole 1 } : SessionOptions).begin.run
      (firstLoad "/a" ++ [.startPolling, .begin 1, .elapsed 1, .submit, .begin 2] ++
        [.response (.task 2) batchAccepted])).1
    c.task? 2 = some (.submit (.done (.ok 1))) ∧
      (c.run [.response (.task 1) idleJob]).1.isDone 1 = true ∧
      ∀ sender, .ask sender .status ∉ (c.run [.response (.task 1) idleJob]).2 := by
  intro c
  have hdone : (c.run [.response (.task 1) idleJob]).1.isDone 1 = true := by decide +kernel
  refine ⟨rfl, hdone, not_ask_of_any ?_⟩
  decide +kernel

end CardImport.Control
