import CardImport.Proofs.Session.Polling

/-!
# After closing

Closing a session stops its poll for good: a poll that waits, or has a look on its way, asks for
nothing any more. But a batch that was submitted before is still accepted after, and its acceptance
starts a poll as it always does. So closing is final for polling exactly if no batch is pending.
-/

namespace CardImport

/-- Whether an input sets a session to work again: a call other than to close it or to edit. -/
def Input.Resumes : Input → Prop
  | .openPath _ | .load | .submit | .startPolling | .refresh => True
  | _ => False

namespace Control

/-- A batch was submitted, and its answer has not come. -/
def PendingBatch (c : Control) (id : TaskId) : Prop :=
  ∃ stage, c.task? id = some (.submit stage) ∧ (Task.submit stage).isDone = false

/-- In a run no poll is created, and none asks for the status. -/
structure Unpolled (c : Control) (inputs : List Input) : Prop where
  uncreated : ∀ poll n, ¬ c.PollCreated inputs poll n
  silent : ∀ poll n stopped stage, (c.run inputs).1.task? poll = some (.poll n stopped stage) →
    .ask (.task poll) .status ∉ (c.run inputs).2

/-! ## New tasks -/

/-- Unless the operator sets the session to work, only the acceptance of a batch adds a task, and
this is a poll. -/
theorem Move.accepted_of_new {c c' : Control} {i : Input} {actions : List Action}
    (h : Move c i c' actions) (hi : ¬ i.Resumes) {j : TaskId} {t : Task}
    (hnone : c.task? j = none) (ht : c'.task? j = some t) :
    ∃ id r, i = .response (.task id) r ∧ c.task? id = some (.submit .asked) ∧
      t = .poll c.session.number false .created := by
  cases h with
  | opened | polled => exact absurd trivial hi
  | started hfresh => cases hfresh <;> exact absurd trivial hi
  | closed =>
      rw [task?_close, hnone] at ht
      simp at ht
  | edited e => cases hnone.symm.trans ht
  | @turned i id u s u' actions hu hturn =>
      have hj : id ≠ j := by
        rintro rfl
        cases hnone.symm.trans hu
      cases hnone.symm.trans ((task?_setTask_of_ne _ hj u').symm.trans ht)
  | @accepted id r entries hu hr =>
      have hj : id ≠ j := by
        rintro rfl
        cases hnone.symm.trans hu
      have hpolled := (task?_setTask_of_ne c.startPolling.1 hj _).symm.trans ht
      exact ⟨id, r, rfl, hu, task?_startPolling_of_none hnone hpolled⟩
  | dropped => cases hnone.symm.trans ht

theorem Turn.submit_before {c : Control} {id : TaskId} {i : Input} {t : Task} {s : Session}
    {stage : SubmitStage} {actions : List Action} (h : Turn c id i t s (.submit stage) actions) :
    ∃ before, t = .submit before := by
  generalize ht' : Task.submit stage = t' at h
  cases h with
  | submitSends | submitRefused => exact ⟨_, rfl⟩
  | _ => cases ht'

theorem Move.pendingBatch {c c' : Control} {i : Input} {actions : List Action}
    (h : Move c i c' actions) (hi : ¬ i.Resumes) {id : TaskId} (hp : c'.PendingBatch id) :
    c.PendingBatch id := by
  obtain ⟨stage, ht', hopen⟩ := hp
  cases ht : c.task? id with
  | none =>
      obtain ⟨j, r, -, -, hpoll⟩ := h.accepted_of_new hi ht ht'
      cases hpoll
  | some t =>
      obtain ⟨u, hu, hb⟩ := h.became ht
      obtain rfl : u = .submit stage := Option.some.inj (hu.symm.trans ht')
      -- A submission was one before the step, and only a call begins a new one.
      generalize hsubmit : Task.submit stage = u at hb
      cases hb with
      | same =>
          subst hsubmit
          exact ⟨stage, ht, hopen⟩
      | turned hturn =>
          subst hsubmit
          obtain ⟨before, rfl⟩ := hturn.submit_before
          exact ⟨before, ht, hturn.not_isDone⟩
      | stopped =>
          cases t with
          | submit before =>
              cases hsubmit
              exact ⟨stage, ht, hopen⟩
          | _ => cases hsubmit
      | accepted =>
          cases hsubmit
          cases hopen

theorem pendingBatch_of_run {c : Control} {id : TaskId} {inputs : List Input}
    (hinputs : ∀ i ∈ inputs, ¬ i.Resumes) (h : (c.run inputs).1.PendingBatch id) :
    c.PendingBatch id := by
  induction inputs generalizing c with
  | nil => exact h
  | cons i rest ih =>
      have hlater := ih (fun j hj => hinputs j (List.mem_cons_of_mem _ hj)) h
      exact (move_step c i).pendingBatch (hinputs i List.mem_cons_self) hlater

/-- Without a call a poll is created by the acceptance of a batch that was pending before. -/
theorem pendingBatch_of_pollCreated {c : Control} {inputs : List Input}
    (hinputs : ∀ i ∈ inputs, ¬ i.Resumes) {poll : TaskId} {n : Nat}
    (h : c.PollCreated inputs poll n) :
    ∃ id r, c.PendingBatch id ∧ .response (.task id) r ∈ inputs := by
  obtain ⟨before, i, after, rfl, hnone, ⟨m, stopped, stage, ht⟩, -⟩ := h
  have hmem : i ∈ before ++ i :: after := List.mem_append_right _ List.mem_cons_self
  obtain ⟨id, r, rfl, hasked, -⟩ :=
    (move_step _ i).accepted_of_new (hinputs i hmem) hnone ht
  refine ⟨id, r, ?_, hmem⟩
  have hbefore : ∀ j ∈ before, ¬ j.Resumes := fun j hj => hinputs j (List.mem_append_left _ hj)
  exact pendingBatch_of_run hbefore ⟨.asked, hasked, rfl⟩

/-! ## Polls of the closed session -/

theorem Asks.not_isDone {c : Control} {id : TaskId} {sender : Sender} {q : Query} {t : Task}
    (h : Asks c id sender q t) : t.isDone = false := by
  cases h <;> rfl

theorem not_ask_of_isDone {c : Control} {id : TaskId} (hdone : c.isDone id = true)
    (inputs : List Input) (q : Query) : .ask (.task id) q ∉ (c.run inputs).2 := by
  refine run_avoids (P := fun c => c.isDone id = true) ?_ hdone inputs
  intro c i c' actions hmove hdone
  have hdone' := hmove.isDone hdone
  refine ⟨hdone', ?_⟩
  intro ha
  obtain ⟨j, t, hasks, ht, -⟩ := hmove.asks ha
  obtain rfl : id = j := hasks.taskId
  rw [isDone_of_task? ht, hasks.not_isDone] at hdone'
  cases hdone'

/-- The polls that there are when a session is closed ask for nothing any more. -/
theorem not_ask_of_close {c : Control} (hc : c.PollerCurrent) (hr : c.Retiring) {poll : TaskId}
    {n : Nat} {stopped : Bool} {stage : PollStage}
    (ht : c.close.1.task? poll = some (.poll n stopped stage)) (inputs : List Input) (q : Query) :
    .ask (.task poll) q ∉ (c.close.1.run inputs).2 := by
  cases hdone : c.close.1.isDone poll with
  | true => exact not_ask_of_isDone hdone inputs q
  | false =>
      -- The closed session knows of no poll, so this one was stopped.
      rcases (retiring_close hc hr).live ht hdone with hp | rfl
      · cases hp
      · exact not_ask_of_stopped ht inputs q

theorem Became.poll_before {c c' : Control} {i : Input} {actions : List Action} {id : TaskId}
    {t t' : Task} (h : Became c i c' actions id t t') {n : Nat} {stopped : Bool}
    {stage : PollStage} (ht' : t' = .poll n stopped stage) :
    ∃ stopped₀ stage₀, t = .poll n stopped₀ stage₀ := by
  cases h with
  | same => exact ⟨_, _, ht'⟩
  | turned hturn =>
      subst ht'
      obtain ⟨stage₀, rfl⟩ := hturn.poll_before
      exact ⟨_, _, rfl⟩
  | stopped =>
      cases t with
      | poll =>
          cases ht'
          exact ⟨_, _, rfl⟩
      | _ => cases ht'
  | accepted => cases ht'

/-- What is a poll after a run was one before, if it was there. -/
theorem poll_of_run {c : Control} {id : TaskId} {t : Task} (ht : c.task? id = some t)
    {inputs : List Input} {n : Nat} {stopped : Bool} {stage : PollStage}
    (ht' : (c.run inputs).1.task? id = some (.poll n stopped stage)) :
    ∃ stopped₀ stage₀, t = .poll n stopped₀ stage₀ := by
  induction inputs generalizing c t with
  | nil => exact ⟨stopped, stage, Option.some.inj (ht.symm.trans ht')⟩
  | cons i rest ih =>
      obtain ⟨u, hu, hb⟩ := (move_step c i).became ht
      obtain ⟨stopped₁, stage₁, hpoll⟩ := ih hu ht'
      exact hb.poll_before hpoll

theorem PollCreated.cons {c : Control} {i : Input} {inputs : List Input} {poll : TaskId} {n : Nat}
    (h : (c.step i).1.PollCreated inputs poll n) : c.PollCreated (i :: inputs) poll n := by
  obtain ⟨before, j, after, rfl, hnone, hpoll, hn⟩ := h
  exact ⟨i :: before, j, after, rfl, hnone, hpoll, hn⟩

/-- Without a call, a poll that comes up in a run was created in it. -/
theorem pollCreated_of_new {c : Control} {poll : TaskId} (hnone : c.task? poll = none)
    {inputs : List Input} (hinputs : ∀ i ∈ inputs, ¬ i.Resumes) {t : Task}
    (ht : (c.run inputs).1.task? poll = some t) : ∃ n, c.PollCreated inputs poll n := by
  induction inputs generalizing c with
  | nil => cases hnone.symm.trans ht
  | cons i rest ih =>
      cases hstep : (c.step i).1.task? poll with
      | none =>
          have hrest : ∀ j ∈ rest, ¬ j.Resumes := fun j hj => hinputs j (List.mem_cons_of_mem _ hj)
          obtain ⟨n, hcreated⟩ := ih hstep hrest ht
          exact ⟨n, hcreated.cons⟩
      | some u =>
          obtain ⟨id, r, -, -, rfl⟩ :=
            (move_step c i).accepted_of_new (hinputs i List.mem_cons_self) hnone hstep
          exact ⟨c.session.number, [], i, rest, rfl, hnone, ⟨_, _, _, hstep⟩, rfl⟩

/-! ## Pending batches -/

/-- The acceptance of a batch starts a poll, if the session has none. -/
theorem pollCreated_of_asked {c : Control} (hp : c.poller = none) {id : TaskId}
    (ht : c.task? id = some (.submit .asked)) :
    c.PollCreated [.response (.task id) batchAccepted] c.tasks.length c.session.number := by
  have hlt : id < c.tasks.length := (List.getElem?_eq_some_iff.mp ht).1
  have hnone : c.task? c.tasks.length = none := List.getElem?_eq_none_iff.mpr (Nat.le_refl _)
  have hstep : ∃ t, (c.step (.response (.task id) batchAccepted)).1 =
      c.startPolling.1.setTask id t := by
    simp only [step, receive, ht]
    exact ⟨_, rfl⟩
  have hnew : c.startPolling.1.task? c.tasks.length =
      some (.poll c.session.number false .created) := by
    rcases startPolling_cases c with ⟨p, hp', -, -⟩ | h
    · cases hp.symm.trans hp'
    · rw [h]
      exact task?_spawn_self c _
  obtain ⟨t, hstep⟩ := hstep
  refine ⟨[], _, [], rfl, hnone, ⟨c.session.number, false, .created, ?_⟩, rfl⟩
  show (c.step _).1.task? _ = _
  rw [hstep, task?_setTask_of_ne _ (Nat.ne_of_lt hlt)]
  exact hnew

/-- A batch that is pending can be accepted, which starts a poll. -/
theorem pollCreated_of_pending {c : Control} (hp : c.poller = none) {id : TaskId}
    (h : c.PendingBatch id) :
    ∃ inputs, (∀ i ∈ inputs, ¬ i.Resumes) ∧ ∃ poll n, c.PollCreated inputs poll n := by
  obtain ⟨stage, ht, hopen⟩ := h
  cases stage with
  | created =>
      have hstep : (c.step (.begin id)).1 = c.setTask id (.submit .asked) := by
        simp only [step, beginTask, ht, beginSubmit]
      have hasked : (c.step (.begin id)).1.task? id = some (.submit .asked) := by
        rw [hstep]
        exact task?_setTask_self ht _
      have hpoller : (c.step (.begin id)).1.poller = none := by
        rw [hstep]
        exact hp
      have hcreated := (pollCreated_of_asked hpoller hasked).cons
      exact ⟨_, by simp [Input.Resumes], _, _, hcreated⟩
  | asked =>
      exact ⟨_, by simp [Input.Resumes], _, _, pollCreated_of_asked hp ht⟩
  | done result => cases hopen

/-- After a session is closed, and until the operator sets it to work again, no poll is created and
none asks for the status, exactly if no batch is pending. In any case the polls that there are ask
for nothing any more, and one is created only when a batch that is pending is accepted. -/
theorem unpolled_after_close_iff (o : SessionOptions) (before : List Input) :
    let c := ((o.begin.run before).1.step .close).1
    ((∀ after : List Input, (∀ i ∈ after, ¬ i.Resumes) → c.Unpolled after) ↔
      ∀ id, ¬ c.PendingBatch id) ∧
    (∀ after poll n stopped stage, c.task? poll = some (.poll n stopped stage) →
      ∀ q, .ask (.task poll) q ∉ (c.run after).2) ∧
    ∀ after : List Input, (∀ i ∈ after, ¬ i.Resumes) → ∀ poll n, c.PollCreated after poll n →
      ∃ id r, c.PendingBatch id ∧ .response (.task id) r ∈ after := by
  intro c
  -- A poll that was there at the close is silent; a new one needs a batch that was pending.
  have hsilent : ∀ after poll n stopped stage, c.task? poll = some (.poll n stopped stage) →
      ∀ q, .ask (.task poll) q ∉ (c.run after).2 := by
    intro after poll n stopped stage ht q
    exact not_ask_of_close (pollerCurrent_run o before) (retiring_run o before) ht after q
  have hcreates : ∀ after : List Input, (∀ i ∈ after, ¬ i.Resumes) → ∀ poll n,
      c.PollCreated after poll n → ∃ id r, c.PendingBatch id ∧ .response (.task id) r ∈ after := by
    intro after hafter poll n hcreated
    exact pendingBatch_of_pollCreated hafter hcreated
  refine ⟨⟨?_, ?_⟩, hsilent, hcreates⟩
  · intro hunpolled id hpending
    have hp : c.poller = none := rfl
    obtain ⟨after, hafter, poll, n, hcreated⟩ := pollCreated_of_pending hp hpending
    exact (hunpolled after hafter).uncreated poll n hcreated
  · intro hnone after hafter
    have huncreated : ∀ poll n, ¬ c.PollCreated after poll n := by
      intro poll n hcreated
      obtain ⟨id, r, hpending, -⟩ := hcreates after hafter poll n hcreated
      exact hnone id hpending
    refine ⟨huncreated, ?_⟩
    intro poll n stopped stage ht
    cases hold : c.task? poll with
    | none =>
        obtain ⟨m, hcreated⟩ := pollCreated_of_new hold hafter ht
        exact absurd hcreated (huncreated poll m)
    | some t =>
        obtain ⟨stopped₀, stage₀, rfl⟩ := poll_of_run hold ht
        exact hsilent after poll n stopped₀ stage₀ hold .status

/-- A session that is closed while its poll waits is polled no more. -/
theorem unpolled_after_close_while_waiting :
    let before : List Input :=
      firstLoad "/a" ++ [.response (.task 0) idleJob, .startPolling, .begin 1]
    let after : List Input := [.elapsed 1, .halted 1]
    let c := ((({ pollInterval := .whole 1 } : SessionOptions).begin.run before).1.step .close).1
    (∀ i ∈ after, ¬ i.Resumes) ∧ (∀ id, ¬ c.PendingBatch id) ∧ c.Unpolled after := by
  intro before after c
  have hafter : ∀ i ∈ after, ¬ i.Resumes := by simp [after, Input.Resumes]
  have hpending : ∀ id, ¬ c.PendingBatch id := by
    rintro id ⟨stage, ht, -⟩
    have htasks : c.tasks = [.load (.done (.ok ())), .poll 1 true (.waiting 0)] := rfl
    have hmem : Task.submit stage ∈ c.tasks := List.mem_of_getElem? ht
    rw [htasks] at hmem
    simp at hmem
  exact ⟨hafter, hpending, (unpolled_after_close_iff _ before).1.mpr hpending after hafter⟩

/-- A batch that is accepted after the session was closed starts a poll, which asks for the
status. -/
theorem polled_after_close :
    let before : List Input :=
      firstLoad "/a" ++ [.response (.task 0) idleJob, .submit, .begin 1]
    let after : List Input := [.response (.task 1) batchAccepted, .begin 2, .elapsed 2]
    let c := ((({ pollInterval := .whole 1 } : SessionOptions).begin.run before).1.step .close).1
    (∀ i ∈ after, ¬ i.Resumes) ∧ c.PollCreated after 2 2 ∧
      .ask (.task 2) .status ∈ (c.run after).2 := by
  intro before after c
  have hafter : ∀ i ∈ after, ¬ i.Resumes := by simp [after, Input.Resumes]
  have hcreated : c.PollCreated after 2 2 :=
    ⟨[], _, _, rfl, rfl, ⟨2, false, .created, rfl⟩, rfl⟩
  have hactions : (c.run after).2 =
      [.begin 2, .wait 2 (.whole 1), .ask (.task 2) .status] := rfl
  exact ⟨hafter, hcreated, by simp [hactions]⟩

end Control

end CardImport
