import CardImport.Proofs.Command.Loading

/-!
# The submission of a command

A command sends one batch and, once it is accepted, follows the poll until it ends. Each answer to
the poll is heard by all items before the next look is sent, so the states at the end are what the
answers told, one after the other.
-/

namespace CardImport

namespace Command

open Control

/-! ## What answers tell -/

def told? (p : Request × Reply) : Option JobStatus :=
  match (Job.status.finish (received p.1 p.2)).outcome.1 with
  | .ok status => some status
  | .error _ => none

def hearReply (p : Request × Reply) (i : Item) : Item :=
  match told? p with
  | some status => i.hear status
  | none => i

/-- An item after replies to status requests, the last first. -/
def hearAll (replies : List (Request × Reply)) (i : Item) : Item := replies.foldr hearReply i

def batchQuery (s : Session) : Query := .submit s.path s.subdirectory (Items.batch s.items)

end Command

namespace Control

open Command

/-! ## Looks -/

/-- A look in the current session: no status comes, a status cannot be merged, or it is merged. -/
theorem look_cases (c : Control) (r : Except Failure Response) :
    (∃ f, (Job.status.finish r).outcome.1 = .error f ∧
      c.lookSession c.session.number r = c.session ∧
      c.lookStatus c.session.number r = .error f) ∨
    (∃ f, f.isRemote = false ∧ c.lookStatus c.session.number r = .error f) ∨
    ∃ status, (Job.status.finish r).outcome.1 = .ok status ∧
      c.session.merge status = (c.lookSession c.session.number r, .ok ()) ∧
      c.lookStatus c.session.number r = .ok status := by
  unfold lookSession lookStatus
  rcases receiveStatus_cases c c.session.number r with ⟨f, entries, hr, h⟩ |
    ⟨status, entries, -, hn, -⟩ | ⟨status, entries, hr, -, h⟩
  · refine Or.inl ⟨f, ?_, ?_, ?_⟩
    · rw [hr]
    · rw [h]
    · rw [h]
  · exact absurd rfl hn
  · rcases merge_cases c status with ⟨f, hf, hm⟩ | ⟨hok, hm⟩
    · refine Or.inr (Or.inl ⟨f, hf, ?_⟩)
      rw [h, hm]
      rfl
    · refine Or.inr (Or.inr ⟨status, ?_, ?_, ?_⟩)
      · rw [hr]
      · rw [h, hm, ← hok]
        rfl
      · rw [h, hm]
        rfl

/-- What a poll is about to do at its stage. The wait of a poll that broke for want of a clock time
is still there. -/
inductive Due (id : TaskId) : PollStage → List Action → Prop
  | created : Due id .created [.begin id]
  | waiting (failures : Nat) (delay : Number) : Due id (.waiting failures) [.wait id delay]
  | asking (failures : Nat) : Due id (.asking failures) [.ask (.task id) .status]
  | done (result : Except Failure Unit) : Due id (.done result) []
  | broken (result : Except Failure Unit) (delay : Number) : Due id (.done result) [.wait id delay]

theorem due_wait (s : Session) (id : TaskId) (failures : Nat) :
    Due id (waitStage s failures) (live (waitActions s id failures)) := by
  unfold waitStage waitActions
  cases pollDelay s failures with
  | error f => exact .done _
  | ok delay =>
      cases hdelay : checkDelay delay with
      | error f =>
          simp only [hdelay]
          exact .broken _ delay
      | ok _ =>
          simp only [hdelay]
          exact .waiting failures delay

/-- A look is heard by all items, unless it fails in a way that no server answers. -/
theorem items_look {c : Control} (hindexed : c.session.Indexed)
    (hdistinct : Items.Distinct c.session.items) (p : Request × Reply) :
    (∃ f, f.isRemote = false ∧ c.lookStatus c.session.number (received p.1 p.2) = .error f) ∨
      (c.lookSession c.session.number (received p.1 p.2)).items =
        c.session.items.map (hearReply p) := by
  rcases look_cases c (received p.1 p.2) with ⟨f, hr, hs, -⟩ | hbroken | ⟨status, hr, hm, -⟩
  · have hhear : hearReply p = id := by
      funext i
      simp [hearReply, told?, hr]
    rw [hs, hhear, List.map_id]
    exact Or.inr rfl
  · exact Or.inl hbroken
  · have hhear : hearReply p = Item.hear status := by
      funext i
      simp [hearReply, told?, hr]
    rw [hhear]
    exact Or.inr (Session.items_merge hindexed hm hdistinct)

theorem Turn.poll_answered {c : Control} {id : TaskId} {failures : Nat} {t' : Task}
    {s : Session} {actions : List Action} {p : Request × Reply}
    (h : Turn c id (.response (.task id) (received p.1 p.2))
      (.poll c.session.number false (.asking failures)) s t' actions)
    (hindexed : c.session.Indexed) :
    s.base = c.session.base ∧ ∃ stage', t' = .poll c.session.number false stage' ∧
      Due id stage' (live actions) ∧ (Items.Distinct c.session.items →
        (∃ f, stage' = .done (.error f)) ∨ s.items = c.session.items.map (hearReply p)) := by
  have hbase := base_lookSession c c.session.number (received p.1 p.2)
  -- What the poll does next differs from case to case, but the items hear the answer in all.
  have hitems : ∀ {status}, c.lookStatus c.session.number (received p.1 p.2) = status →
      (∀ f, status = .error f → f.isRemote = true) → Items.Distinct c.session.items →
      (c.lookSession c.session.number (received p.1 p.2)).items =
        c.session.items.map (hearReply p) := by
    intro status hr hremote hdistinct
    rcases items_look hindexed hdistinct p with ⟨f, hf, hbroken⟩ | hheard
    · rw [hremote f (hr.symm.trans hbroken)] at hf
      cases hf
    · exact hheard
  cases h with
  | pollIdle hr =>
      refine ⟨hbase, _, rfl, ?_, fun hdistinct => Or.inr ?_⟩
      · rw [live_lookActions]
        exact .done _
      · refine hitems hr ?_ hdistinct
        rintro f ⟨⟩
  | pollGoesOn hr =>
      refine ⟨hbase, _, rfl, ?_, fun hdistinct => Or.inr ?_⟩
      · rw [live_append, live_lookActions]
        exact due_wait _ id 0
      · refine hitems hr ?_ hdistinct
        rintro f ⟨⟩
  | pollBroken =>
      refine ⟨hbase, _, rfl, ?_, fun _ => Or.inl ⟨_, rfl⟩⟩
      rw [live_lookActions]
      exact .done _
  | pollGivesUp hr hf =>
      rw [if_pos rfl]
      refine ⟨hbase, _, rfl, ?_, fun hdistinct => Or.inr ?_⟩
      · rw [live_append, live_lookActions]
        exact .done _
      · refine hitems hr ?_ hdistinct
        rintro f ⟨⟩
        exact hf
  | pollRetries hr hf =>
      refine ⟨hbase, _, rfl, ?_, fun hdistinct => Or.inr ?_⟩
      · rw [live_append, live_lookActions, live_cons_of_skipped rfl rfl]
        exact due_wait _ id _
      · refine hitems hr ?_ hdistinct
        rintro f ⟨⟩
        exact hf

end Control

namespace Command

open Control

/-! ## The invariant -/

/-- What holds while the submission of a loaded session `s` is followed: the batch is not sent yet,
or is not answered, or was refused, or all items heard all answers that came to the poll. -/
inductive Submitting (e : Endpoint) (s : Session) (before : List (Request × Reply)) :
    Control → List Action → List (Request × Reply) → Prop
  | created {c actions} (htasks : c.tasks = [.load (.done (.ok ())), .submit .created])
      (hsession : c.session = s) (hpoller : c.poller = none) (hlive : live actions = [.begin 1]) :
      Submitting e s before c actions before
  | asked {c actions} (htasks : c.tasks = [.load (.done (.ok ())), .submit .asked])
      (hsession : c.session = s) (hpoller : c.poller = none)
      (hlive : live actions = [.ask (.task 1) (batchQuery s)]) :
      Submitting e s before c actions before
  | refused {c actions answer f}
      (htasks : c.tasks = [.load (.done (.ok ())), .submit (.done (.error f))])
      (hlive : live actions = []) :
      Submitting e s before c actions (((batchQuery s).request e, answer) :: before)
  | followed {c actions stage answer later}
      (htasks : c.tasks = [.load (.done (.ok ())), .submit (.done (.ok 2)),
        .poll s.number false stage])
      (haccepted : (Job.acceptance (received ((batchQuery s).request e) answer)).outcome.1 =
        .ok ())
      (hdue : Due 2 stage (live actions))
      (hlater : ∀ p ∈ later, p.1 = Query.status.request e)
      (hbase : c.session.base = s.base)
      (hheard : Items.Distinct s.items → (∃ f, stage = .done (.error f)) ∨
        c.session.items = s.items.map (hearAll later)) :
      Submitting e s before c actions (later ++ ((batchQuery s).request e, answer) :: before)

section

variable {e : Endpoint} {s : Session} {before replies : List (Request × Reply)}
  {c : Control} {actions rest : List Action} {i : Input}

theorem Submitting.skip (h : Submitting e s before c actions replies)
    (hrest : live rest = live actions) : Submitting e s before c rest replies := by
  cases h with
  | created htasks hsession hpoller hlive =>
      exact .created htasks hsession hpoller (hrest.trans hlive)
  | asked htasks hsession hpoller hlive =>
      exact .asked htasks hsession hpoller (hrest.trans hlive)
  | refused htasks hlive => exact .refused htasks (hrest.trans hlive)
  | followed htasks haccepted hdue hlater hbase hheard =>
      rw [← hrest] at hdue
      exact .followed htasks haccepted hdue hlater hbase hheard

theorem tasks_setTask_poll {n : Nat} {stage : PollStage}
    (htasks : c.tasks = [.load (.done (.ok ())), .submit (.done (.ok 2)), .poll n false stage])
    (s' : Session) (stage' : PollStage) :
    ((c.setSession s').setTask 2 (.poll n false stage')).tasks =
      [.load (.done (.ok ())), .submit (.done (.ok 2)), .poll n false stage'] := by
  rw [setTask, setSession, htasks]
  rfl

/-- What a poll does without an answer: it waits for its next look, asks for it, or nothing. -/
theorem due_input {stage : PollStage} {a : Action} {todo : List Action} (hi : input? a = some i)
    (hdue : Due 2 stage (a :: todo)) (htasks : c.tasks = [.load (.done (.ok ())),
      .submit (.done (.ok 2)), .poll c.session.number false stage]) :
    todo = [] ∧ (c.step i).1.session = c.session ∧ ∃ stage',
      (c.step i).1.tasks = [.load (.done (.ok ())), .submit (.done (.ok 2)),
        .poll c.session.number false stage'] ∧
      Due 2 stage' (live (c.step i).2) ∧ ((∃ f, stage = .done (.error f)) → stage' = stage) := by
  have hpoll : c.task? 2 = some (.poll c.session.number false stage) := by
    rw [Control.task?, htasks]
    rfl
  cases hdue with
  | created =>
      cases hi
      have hstep : c.step (.begin 2) = c.waitPoll 2 c.session.number false 0 := by
        simp only [Control.step, beginTask, hpoll]
      rw [hstep, waitPoll_eq]
      exact ⟨rfl, rfl, _, tasks_setTask_poll htasks c.session _, due_wait _ 2 0, by rintro ⟨f, ⟨⟩⟩⟩
  | waiting failures delay =>
      cases hi
      have hstep : c.step (.elapsed 2) =
          (c.setTask 2 (.poll c.session.number false (.asking failures)),
            [.ask (.task 2) .status]) := by
        simp [Control.step, wake, hpoll, wakePoll]
      rw [hstep]
      exact ⟨rfl, rfl, _, tasks_setTask_poll htasks c.session _, .asking failures,
        by rintro ⟨f, ⟨⟩⟩⟩
  | asking failures => cases hi
  | broken result delay =>
      cases hi
      have hstep : c.step (.elapsed 2) = (c, []) := by
        simp only [Control.step, wake, hpoll]
      rw [hstep]
      exact ⟨rfl, rfl, _, htasks, .done result, fun _ => rfl⟩

theorem Submitting.input {a : Action} (h : Submitting e s before c (a :: rest) replies)
    (hi : input? a = some i) :
    Submitting e s before (c.step i).1 ((c.step i).2 ++ rest) replies := by
  have hcons := live_cons_of_input hi rest
  cases h with
  | created htasks hsession hpoller hlive =>
      obtain ⟨rfl, hrest⟩ := List.cons.inj (hcons.symm.trans hlive)
      cases hi
      have htask : c.task? 1 = some (.submit .created) := by
        rw [Control.task?, htasks]
        rfl
      have hstep : c.step (.begin 1) = c.beginSubmit 1 := by
        simp only [Control.step, beginTask, htask]
      rw [hstep]
      refine .asked ?_ hsession hpoller ?_
      · show (c.setTask 1 (.submit .asked)).tasks = _
        rw [setTask, htasks]
        rfl
      · rw [live_append, hrest, beginSubmit, live_append, live_notes, hsession]
        rfl
  | asked htasks hsession hpoller hlive =>
      obtain ⟨rfl, -⟩ := List.cons.inj (hcons.symm.trans hlive)
      cases hi
  | refused htasks hlive => cases hcons.symm.trans hlive
  | followed htasks haccepted hdue hlater hbase hheard =>
      have hnumber := congrArg Session.number hbase
      change c.session.number = s.number at hnumber
      rw [← hnumber] at htasks
      rw [hcons] at hdue
      obtain ⟨hrest, hsession, stage', htasks', hdue', hbroken⟩ := due_input hi hdue htasks
      rw [hnumber] at htasks'
      refine .followed htasks' haccepted ?_ hlater (hsession ▸ hbase) fun hdistinct => ?_
      · rw [live_append, hrest, List.append_nil]
        exact hdue'
      · rw [hsession]
        refine (hheard hdistinct).imp_left fun hstage => ?_
        rw [hbroken hstage]
        exact hstage

theorem startPolling_of_none (hpoller : c.poller = none) :
    c.startPolling = ({ (c.spawn (.poll c.session.number false .created)).1 with
      poller := some c.tasks.length }, c.tasks.length, [.begin c.tasks.length]) := by
  simp only [startPolling, hpoller, startPolling.fresh, spawn]

/-- The poll of an accepted batch has heard nothing so far. -/
theorem Submitting.begins {answer : Reply} (entries : List Entry)
    (htasks : c.tasks = [.load (.done (.ok ())), .submit .asked]) (hsession : c.session = s)
    (hpoller : c.poller = none) (hrest : live rest = [])
    (haccepted : (Job.acceptance (received ((batchQuery s).request e) answer)).outcome.1 = .ok ()) :
    Submitting e s before
      (c.startPolling.1.setTask 1 (.submit (.done (.ok c.startPolling.2.1))))
      ((notes entries ++ c.startPolling.2.2) ++ rest)
      (((batchQuery s).request e, answer) :: before) := by
  rw [startPolling_of_none hpoller, htasks]
  have htasks' : (setTask { (c.spawn (.poll c.session.number false .created)).1 with
      poller := some 2 } 1 (.submit (.done (.ok 2)))).tasks = [.load (.done (.ok ())),
        .submit (.done (.ok 2)), .poll s.number false .created] := by
    rw [setTask, spawn, htasks, hsession]
    rfl
  have hheard : c.session.items = s.items.map (hearAll []) := by
    rw [hsession]
    exact (List.map_id _).symm
  show Submitting e s before _ _ ([] ++ ((batchQuery s).request e, answer) :: before)
  refine .followed htasks' haccepted ?_ (List.forall_mem_nil _)
    (congrArg Session.base hsession) fun _ => Or.inr hheard
  rw [live_append, live_append, live_notes, hrest]
  exact .created

theorem Submitting.accept (answer : Reply)
    (htasks : c.tasks = [.load (.done (.ok ())), .submit .asked]) (hsession : c.session = s)
    (hpoller : c.poller = none) (hrest : live rest = []) :
    Submitting e s before (c.step (answered e (.task 1) (batchQuery s) answer)).1
      ((c.step (answered e (.task 1) (batchQuery s) answer)).2 ++ rest)
      (((batchQuery s).request e, answer) :: before) := by
  have htask : c.task? 1 = some (.submit .asked) := by
    rw [Control.task?, htasks]
    rfl
  have hstep : c.step (answered e (.task 1) (batchQuery s) answer) =
      c.endSubmit 1 (received ((batchQuery s).request e) answer) := by
    simp only [answered, Control.step, receive, htask]
  rw [hstep]
  unfold endSubmit
  rcases hr : (Job.acceptance (received ((batchQuery s).request e) answer)).outcome with
    ⟨f | _, entries⟩
  · show Submitting e s before (c.setTask 1 (.submit (.done (.error f)))) (notes entries ++ rest) _
    refine .refused (f := f) ?_ ?_
    · rw [setTask, htasks]
      rfl
    · rw [live_append, live_notes, hrest]
      rfl
  · exact Submitting.begins entries htasks hsession hpoller hrest (by rw [hr])

theorem Submitting.look {k : Nat} {later : List (Request × Reply)} {answer : Reply}
    (next : Reply) (hindexed : s.Indexed)
    (htasks : c.tasks = [.load (.done (.ok ())), .submit (.done (.ok 2)),
      .poll s.number false (.asking k)])
    (haccepted : (Job.acceptance (received ((batchQuery s).request e) answer)).outcome.1 = .ok ())
    (hlater : ∀ p ∈ later, p.1 = Query.status.request e) (hbase : c.session.base = s.base)
    (hheard : Items.Distinct s.items → c.session.items = s.items.map (hearAll later))
    (hrest : live rest = []) :
    Submitting e s before (c.step (answered e (.task 2) .status next)).1
      ((c.step (answered e (.task 2) .status next)).2 ++ rest)
      ((Query.status.request e, next) :: later ++
        ((batchQuery s).request e, answer) :: before) := by
  have hnumber := congrArg Session.number hbase
  change c.session.number = s.number at hnumber
  have htask : c.task? 2 = some (.poll c.session.number false (.asking k)) := by
    rw [Control.task?, htasks, hnumber]
    rfl
  obtain ⟨s', t', new, hturn, hpoll⟩ := turn_stepPoll c 2 c.session.number false k
    (received (Query.status.request e) next)
  have hstep : c.step (answered e (.task 2) .status next) =
      ((c.setSession s').setTask 2 t', new) := by
    simp only [answered, Control.step, receive, htask]
    exact hpoll
  have hnames := Session.names_of_base hbase
  -- Numbers and names are as they were sent, so the answer is heard under the same names.
  obtain ⟨hbase', stage', rfl, hdue, hheard'⟩ :=
    Turn.poll_answered (p := (Query.status.request e, next)) hturn (hindexed.of_base hbase)
  rw [hstep, hnumber]
  refine .followed (tasks_setTask_poll htasks s' stage') haccepted ?_ ?_
    (hbase'.trans hbase) fun hdistinct => ?_
  · rw [live_append, hrest, List.append_nil]
    exact hdue
  · intro p hp
    rcases List.mem_cons.mp hp with rfl | hp
    · rfl
    · exact hlater p hp
  · rcases hheard' (hdistinct.congr hnames.symm) with hbroken | hheard'
    · exact Or.inl hbroken
    · refine Or.inr ?_
      show s'.items = _
      rw [hheard', hheard hdistinct, List.map_map]
      rfl

theorem Submitting.answer {sender : Sender} {q : Query}
    (h : Submitting e s before c (.ask sender q :: rest) replies) (hindexed : s.Indexed)
    (next : Reply) :
    Submitting e s before (c.step (answered e sender q next)).1
      ((c.step (answered e sender q next)).2 ++ rest) ((q.request e, next) :: replies) := by
  cases h with
  | created htasks hsession hpoller hlive => cases hlive
  | asked htasks hsession hpoller hlive =>
      rw [live_cons_ask] at hlive
      obtain ⟨hask, hrest⟩ := List.cons.inj hlive
      cases hask
      exact Submitting.accept next htasks hsession hpoller hrest
  | refused htasks hlive => cases hlive
  | followed htasks haccepted hdue hlater hbase hheard =>
      rw [live_cons_ask] at hdue
      generalize hrest : live rest = todo at hdue
      cases hdue with
      | asking failures =>
          refine Submitting.look next hindexed htasks haccepted hlater hbase ?_ hrest
          intro hdistinct
          rcases hheard hdistinct with ⟨f, hf⟩ | hheard
          · cases hf
          · exact hheard

theorem kept_submitting (hindexed : s.Indexed) : Kept e (Submitting e s before) where
  skip := fun hi hq h => h.skip (live_cons_of_skipped hi hq _).symm
  input := fun hi h => h.input hi
  ask := fun answer h => h.answer hindexed answer

theorem submitting_follow {σ : Type} (hindexed : s.Indexed) (fuel : Nat) {r : Running} {w : World σ}
    (h : Submitting e s before r.control actions w.replies) :
    Reaches (fun r rest w => Submitting e s before r.control rest w.replies)
      (runIn (follow e fuel r actions) w) :=
  follow_keeps (kept_submitting hindexed) fuel h

theorem submitting_submit (htasks : c.tasks = [.load (.done (.ok ()))])
    (hpoller : c.poller = none) :
    Submitting e c.session before (c.step .submit).1 (c.step .submit).2 before := by
  refine .created ?_ rfl hpoller ?_ <;> rw [Control.step, start, spawn, htasks] <;> rfl

/-- A submission sends its batch once, and looks at the job afterwards. -/
theorem Submitting.sent (h : Submitting e s before c actions replies) :
    replies = before ∨ ∃ answer later, (∀ p ∈ later, p.1 = Query.status.request e) ∧
      replies = later ++ ((batchQuery s).request e, answer) :: before := by
  cases h with
  | created | asked => exact Or.inl rfl
  | @refused answer => exact Or.inr ⟨answer, [], List.forall_mem_nil _, rfl⟩
  | @followed stage answer later htasks haccepted hdue hlater =>
      exact Or.inr ⟨answer, later, hlater, rfl⟩

/-- A submission that was followed to its end was refused, or its poll has come to a result. -/
theorem Submitting.ended (h : Submitting e s before c [] replies) :
    (∃ f, c.task? 1 = some (.submit (.done (.error f)))) ∨
      c.task? 1 = some (.submit (.done (.ok 2))) ∧
        ∃ n stopped result, c.task? 2 = some (.poll n stopped (.done result)) := by
  cases h with
  | created htasks hsession hpoller hlive => cases hlive
  | asked htasks hsession hpoller hlive => cases hlive
  | @refused answer f htasks hlive =>
      refine Or.inl ⟨f, ?_⟩
      rw [Control.task?, htasks]
      rfl
  | followed htasks haccepted hdue =>
      cases hdue with
      | done result =>
          rw [Control.task?, Control.task?, htasks]
          exact Or.inr ⟨rfl, _, _, result, rfl⟩

/-- A submission whose poll ended well was accepted, and all items heard all answers since. -/
theorem Submitting.of_submitResult (h : Submitting e s before c actions replies)
    (hok : submitResult c = .ok ()) : ∃ answer later,
      replies = later ++ ((batchQuery s).request e, answer) :: before ∧
      (Job.acceptance (received ((batchQuery s).request e) answer)).outcome.1 = .ok () ∧
      (∀ p ∈ later, p.1 = Query.status.request e) ∧ c.session.base = s.base ∧
      (Items.Distinct s.items → c.session.items = s.items.map (hearAll later)) := by
  cases h with
  | created htasks | asked htasks | refused htasks =>
      simp [submitResult, Control.task?, htasks] at hok
  | @followed stage answer later htasks haccepted hdue hlater hbase hheard =>
      refine ⟨answer, later, rfl, haccepted, hlater, hbase, fun hdistinct => ?_⟩
      rcases hheard hdistinct with ⟨f, rfl⟩ | hheard
      · simp [submitResult, Control.task?, htasks] at hok
      · exact hheard

end

end Command

end CardImport
