import CardImport.Proofs.Exchange
import CardImport.Proofs.Job.Batches
import CardImport.Proofs.Session.Closing

/-!
# Submitting a batch

A submission sends one request, with the batch of the list that was in place when it took its first
step, and waits. The answer decides: either the batch was accepted and a poll follows, or the
submission fails and nothing else happens. Neither changes the session itself.
-/

namespace CardImport

namespace Control

/-! ## One request -/

/-- The request of a task that an action sends. -/
def queryOf? (id : TaskId) : Action → Option Query
  | .ask (.task j) q => if j = id then some q else none
  | _ => none

def queriesOf (id : TaskId) (actions : List Action) : List Query :=
  actions.filterMap (queryOf? id)

theorem queriesOf_append (id : TaskId) (first second : List Action) :
    queriesOf id (first ++ second) = queriesOf id first ++ queriesOf id second :=
  List.filterMap_append

theorem queriesOf_eq_nil {id : TaskId} {actions : List Action}
    (h : ∀ q, .ask (.task id) q ∉ actions) : queriesOf id actions = [] := by
  refine List.filterMap_eq_nil_iff.mpr fun a ha => ?_
  unfold queryOf?
  split
  · rename_i j q
    refine if_neg ?_
    rintro rfl
    exact h q ha
  · rfl

/-- A submission that waits for its answer, or is done, asks for nothing. -/
def HasSubmitted (c : Control) (id : TaskId) : Prop :=
  c.task? id = some (.submit .asked) ∨ c.isDone id = true

theorem Turn.isDone_of_asked {c : Control} {id : TaskId} {i : Input} {t' : Task} {s : Session}
    {actions : List Action} (h : Turn c id i (.submit .asked) s t' actions) :
    t'.isDone = true := by
  cases h
  rfl

theorem Move.hasSubmitted {c c' : Control} {i : Input} {actions : List Action}
    (h : Move c i c' actions) {id : TaskId} (hc : c.HasSubmitted id) : c'.HasSubmitted id := by
  rcases hc with ht | hdone
  · obtain ⟨t', ht', hb⟩ := h.became ht
    cases hb with
    | same | stopped => exact Or.inl ht'
    | turned hturn => exact Or.inr ((isDone_of_task? ht').trans hturn.isDone_of_asked)
    | accepted => exact Or.inr (isDone_of_task? ht')
  · exact Or.inr (h.isDone hdone)

theorem Move.not_ask_of_hasSubmitted {c c' : Control} {i : Input} {actions : List Action}
    (h : Move c i c' actions) {id : TaskId} (hc : c.HasSubmitted id) (q : Query) :
    .ask (.task id) q ∉ actions := by
  intro ha
  obtain ⟨j, t, s, t', ht, hturn, -⟩ := h.turn_of_ask ha
  obtain rfl : id = j := (hturn.asks ha).taskId
  rcases hc with hasked | hdone
  · cases hasked.symm.trans ht
    cases hturn
    exact not_ask_notes _ _ _ ha
  · rw [isDone_of_task? ht, hturn.not_isDone] at hdone
    cases hdone

theorem not_ask_of_hasSubmitted {c : Control} {id : TaskId} (hc : c.HasSubmitted id)
    (inputs : List Input) (q : Query) : .ask (.task id) q ∉ (c.run inputs).2 :=
  run_avoids (P := fun c => c.HasSubmitted id)
    (fun hmove hc => ⟨hmove.hasSubmitted hc, hmove.not_ask_of_hasSubmitted hc q⟩) hc inputs

/-- The first step of a submission sends the batch of the session that it finds. -/
theorem step_begin_submission {c : Control} {id : TaskId}
    (ht : c.task? id = some (.submit .created)) : c.step (.begin id) =
      (c.setTask id (.submit .asked), notes (submission c.session).before ++ [.ask (.task id)
        (.submit c.session.path c.session.subdirectory (Items.batch c.session.items))]) := by
  simp only [step, beginTask, ht, beginSubmit]

/-- A submission sends one request, however the session goes on. -/
theorem queriesOf_submission {c : Control} {id : TaskId}
    (ht : c.task? id = some (.submit .created)) (later : List Input) :
    queriesOf id (c.run (.begin id :: later)).2 =
      [.submit c.session.path c.session.subdirectory (Items.batch c.session.items)] := by
  have hbegin := step_begin_submission ht
  have hsent : (c.step (.begin id)).1.HasSubmitted id := by
    rw [hbegin]
    exact Or.inl (task?_setTask_self ht _)
  have hlater : queriesOf id ((c.step (.begin id)).1.run later).2 = [] :=
    queriesOf_eq_nil (not_ask_of_hasSubmitted hsent later)
  have hnotes : queriesOf id (notes (submission c.session).before) = [] :=
    queriesOf_eq_nil fun q => not_ask_notes _ _ _
  have hone : ∀ q, queriesOf id [.ask (.task id) q] = [q] := by
    intro q
    simp [queriesOf, queryOf?]
  calc queriesOf id (c.run (.begin id :: later)).2
    _ = queriesOf id ((c.step (.begin id)).2 ++ ((c.step (.begin id)).1.run later).2) := rfl
    _ = queriesOf id (c.step (.begin id)).2 := by
        rw [queriesOf_append, hlater, List.append_nil]
    _ = [.submit c.session.path c.session.subdirectory (Items.batch c.session.items)] := by
        rw [hbegin, queriesOf_append, hnotes, hone, List.nil_append]

/-! ## The answer -/

theorem Turn.answer_of_asked {c : Control} {id : TaskId} {i : Input} {t' : Task} {s : Session}
    {actions : List Action} (h : Turn c id i (.submit .asked) s t' actions) :
    ∃ r, i = .response (.task id) r := by
  cases h
  exact ⟨_, rfl⟩

theorem Move.task?_of_asked {c c' : Control} {i : Input} {actions : List Action}
    (h : Move c i c' actions) {id : TaskId} (ht : c.task? id = some (.submit .asked))
    (hi : ∀ r, i ≠ .response (.task id) r) : c'.task? id = some (.submit .asked) := by
  have hclosed : c.close.1.task? id = some (.submit .asked) := by
    rw [task?_close, ht]
    split <;> rfl
  cases h with
  | opened path => exact task?_openPath_of_some hclosed
  | closed => exact hclosed
  | edited e => exact ht
  | started hfresh => exact task?_spawn_of_some ht _
  | polled => exact task?_startPolling_of_some ht
  | @turned i j t s t' actions hu hturn =>
      have hj : j ≠ id := by
        rintro rfl
        cases ht.symm.trans hu
        obtain ⟨r, rfl⟩ := hturn.answer_of_asked
        exact hi r rfl
      exact (task?_setTask_of_ne _ hj t').trans ht
  | @accepted j r entries hu hr =>
      have hj : j ≠ id := by
        rintro rfl
        exact hi r rfl
      exact (task?_setTask_of_ne _ hj _).trans (task?_startPolling_of_some ht)
  | dropped => exact ht

theorem task?_run_of_asked {c : Control} {id : TaskId} (ht : c.task? id = some (.submit .asked))
    {inputs : List Input} (hinputs : ∀ r, .response (.task id) r ∉ inputs) :
    (c.run inputs).1.task? id = some (.submit .asked) := by
  induction inputs generalizing c with
  | nil => exact ht
  | cons i rest ih =>
      have hstep := (move_step c i).task?_of_asked ht fun r hi =>
        hinputs r (hi ▸ List.mem_cons_self)
      exact ih hstep fun r hr => hinputs r (List.mem_cons_of_mem _ hr)

theorem step_acceptance {c : Control} {id : TaskId} (ht : c.task? id = some (.submit .asked))
    (r : Except Failure Response) : (c.step (.response (.task id) r)).1 =
      match (Job.acceptance r).outcome.1 with
      | .ok () => c.startPolling.1.setTask id (.submit (.done (.ok c.startPolling.2.1)))
      | .error f => c.setTask id (.submit (.done (.error f))) := by
  simp only [step, receive, ht, endSubmit]
  rcases (Job.acceptance r).outcome with ⟨f | _, entries⟩
  · rfl
  · rfl

theorem session_step_of_asked {c : Control} {id : TaskId}
    (ht : c.task? id = some (.submit .asked)) (r : Except Failure Response) :
    (c.step (.response (.task id) r)).1.session = c.session := by
  rw [step_acceptance ht]
  split
  · exact session_startPolling c
  · rfl

/-- A submission has returned a poll: the one that ran before, or a new one of the session. -/
structure Follows (before after : Control) (id poll : TaskId) : Prop where
  returned : after.task? id = some (.submit (.done (.ok poll)))
  current : after.poller = some poll
  running : before.poller = some poll ∧ before.isDone poll = false ∨
    before.task? poll = none ∧
      after.task? poll = some (.poll before.session.number false .created)

theorem follows_of_accepted {c : Control} {id : TaskId} (ht : c.task? id = some (.submit .asked)) :
    c.Follows (c.startPolling.1.setTask id (.submit (.done (.ok c.startPolling.2.1)))) id
      c.startPolling.2.1 := by
  refine ⟨task?_setTask_self (task?_startPolling_of_some ht) _, (poller_startPolling c).1, ?_⟩
  rcases startPolling_cases c with ⟨p, hp, hdone, h⟩ | h
  · rw [h]
    exact Or.inl ⟨hp, hdone⟩
  · rw [h]
    have hnew : id ≠ c.tasks.length := Nat.ne_of_lt (List.getElem?_eq_some_iff.mp ht).1
    refine Or.inr ⟨List.getElem?_eq_none_iff.mpr (Nat.le_refl _), ?_⟩
    exact (task?_setTask_of_ne _ hnew _).trans (task?_spawn_self c _)

/-- A submission makes one request, however the session goes on: the batch of the list that it found
when it took its first step. It is sent unless the HTTP library refuses it, as it does with a number
that JSON has no text for. Whatever happens until the answer comes, the submission is over with it,
and changes nothing of the session itself. A poll is returned if the answer accepts the batch;
otherwise nothing is left but a failure, which tells what came back exactly if the reply can be
read. -/
theorem submission_atomic (c : Control) {id : TaskId} (ht : c.task? id = some (.submit .created))
    {during : List Input} (hduring : ∀ r, .response (.task id) r ∉ during) (e : Endpoint)
    {libraries : Libraries} (hfinite : libraries.SendsFinite) (answer : Reply) :
    let sent := (c.step (.begin id)).1
    let before := (sent.run during).1
    let request : Request := {
      method := "POST"
      url := e.url Job.path
      body := Job.batchBody (.str c.session.path) c.session.subdirectory
        (Items.batch c.session.items)
      timeout := e.timeout }
    let reply := libraries.carry request answer
    let after :=
      (before.step (.response (.task id) (Exchange.receive request reply).outcome.1)).1
    (∀ later, let requests := (queriesOf id (c.run (.begin id :: later)).2).map (Query.request e)
      requests = [request] ∧
        (requests.filter libraries.sends = [request] ∧ request.body.isFinite = true ∨
          requests.filter libraries.sends = [] ∧ ∃ message, reply = .unsent message)) ∧
      sent.session = c.session ∧ after.session = before.session ∧
      ((Job.Accepts reply ∧ ∃ poll, before.Follows after id poll) ∨
        ¬ Job.Accepts reply ∧ ∃ f, after = before.setTask id (.submit (.done (.error f))) ∧
          (Job.Rejects reply f ↔ reply.IsReadable)) := by
  intro sent before request reply after
  have hbegin := step_begin_submission ht
  have hsent : sent.task? id = some (.submit .asked) := by
    show (c.step (.begin id)).1.task? id = _
    rw [hbegin]
    exact task?_setTask_self ht _
  -- Nothing but its answer moves a submission on, so it still waits when the answer comes.
  have hbefore : before.task? id = some (.submit .asked) := task?_run_of_asked hsent hduring
  have hafter := step_acceptance hbefore (Exchange.receive request reply).outcome.1
  refine ⟨fun later => ?_, ?_, session_step_of_asked hbefore _, ?_⟩
  · intro requests
    have hone : requests = [request] := by
      show (queriesOf id _).map _ = _
      rw [queriesOf_submission ht later]
      rfl
    rw [hone]
    exact ⟨rfl, Libraries.sent_or_unsent hfinite request answer⟩
  · show (c.step (.begin id)).1.session = c.session
    rw [hbegin]
    rfl
  · rcases Job.outcome_acceptance request reply with ⟨haccepts, hok⟩ | ⟨hnot, f, herror, hiff⟩
    · rw [hok] at hafter
      refine Or.inl ⟨haccepts, before.startPolling.2.1, ?_⟩
      show before.Follows (before.step _).1 id _
      rw [hafter]
      exact follows_of_accepted hbefore
    · rw [herror] at hafter
      exact Or.inr ⟨hnot, f, hafter, hiff⟩

/-! ## A batch of one clip -/

def accepting : Json := .obj [("code", .int Job.accepted)]

def acceptingBody : Body := .ofBytes (accepting.write .line).toUTF8

theorem data_acceptingBody : acceptingBody.data = .ok accepting := by
  have hreadable : accepting.Readable Json.Nesting.limit := by
    apply Json.Readable.obj
    · decide
    rw [List.forall_mem_singleton]
    exact .int (by decide +kernel)
  exact Body.data_ofBytes (by decide +kernel) (Json.ofBytes_write hreadable (by decide +kernel))

def aboutToSubmit : Control :=
  (({} : SessionOptions).begin.run
    (firstLoad "/a" ++ [.response (.task 0) idleJob, .submit])).1

/-- The clip is unchecked while its batch is on the way. The batch still holds it, and is
accepted. -/
theorem submission_atomic_one_clip :
    let during : List Input := [.edit .checkNone]
    let before := ((aboutToSubmit.step (.begin 1)).1.run during).1
    aboutToSubmit.task? 1 = some (.submit .created) ∧
      (∀ r, .response (.task 1) r ∉ during) ∧
      Items.batch before.session.items = [] ∧
      (∀ later, (queriesOf 1 (aboutToSubmit.run (.begin 1 :: later)).2).map
          (fun q => (q.request (.ofUrl "http://h" (.whole 1))).body) =
        [Job.batchBody (.str "/a") (.str "") (aboutToSubmit.session.items.map Item.submission)]) ∧
      ∃ poll, before.Follows (before.step (.response (.task 1) batchAccepted)).1 1 poll := by
  intro during before
  have ht : aboutToSubmit.task? 1 = some (.submit .created) := rfl
  have hduring : ∀ r, .response (.task 1) r ∉ during := by simp [during]
  obtain ⟨hone, -, -, hends⟩ := submission_atomic aboutToSubmit ht hduring
    (.ofUrl "http://h" (.whole 1)) Http.sendsFinite_ownLibraries (.answer 200 acceptingBody)
  refine ⟨ht, hduring, rfl, ?_, ?_⟩
  · intro later
    have hbodies := congrArg (List.map Request.body) (hone later).1
    rw [List.map_map] at hbodies
    exact hbodies
  · rw [Libraries.carry_of_sends rfl, Exchange.outcome_receive_answer, data_acceptingBody] at hends
    have haccepts : Job.Accepts (.answer 200 acceptingBody) :=
      ⟨rfl, _, _, data_acceptingBody, rfl, by decide⟩
    rcases hends with ⟨-, hfollows⟩ | ⟨hnot, -⟩
    · exact hfollows
    · exact absurd haccepts hnot

def nestedBody : Body :=
  .ofBytes (String.ofList (Json.bracketed 2000 (List.replicate 2000 ']'))).toUTF8

theorem data_nestedBody : nestedBody.data = .error (.tooDeep .array) :=
  Body.data_ofBytes_bracketed (by decide) _

/-- A body that is nested too deep ends the submission with a failure that does not tell what came
back. -/
theorem not_rejects_of_nested :
    let reply : Reply := .answer 200 nestedBody
    let before := (aboutToSubmit.step (.begin 1)).1
    let request := Query.request (.ofUrl "http://h" (.whole 1)) (.submit "/a" (.str "")
      (aboutToSubmit.session.items.map Item.submission))
    (before.step (.response (.task 1) (Exchange.receive request reply).outcome.1)).1 =
        before.setTask 1 (.submit (.done (.error (.tooDeep .array)))) ∧
      ¬ Job.Accepts reply ∧ ¬ Job.Rejects reply (.tooDeep .array) := by
  intro reply before request
  have hreceived : (Exchange.receive request reply).outcome.1 = .error (.tooDeep .array) := by
    rw [Exchange.outcome_receive_answer, data_nestedBody]
    rfl
  have hnot : ¬ Job.Accepts reply := by
    rintro ⟨-, fields, code, hfields, -⟩
    cases data_nestedBody.symm.trans hfields
  refine ⟨?_, hnot, Job.not_rejects_tooDeep reply .array⟩
  have hasked : before.task? 1 = some (.submit .asked) := rfl
  rw [hreceived]
  exact step_acceptance hasked (.error (.tooDeep .array))

end Control

end CardImport
