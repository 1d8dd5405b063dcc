import CardImport.Proofs.Session.Following
import CardImport.Proofs.Session.Isolation

/-!
# The polls of a session

At most one poll is live: the session counts up when it is closed, and its poll is stopped in the
same step, so a poll that has not ended is the one of the session or was stopped. A stopped poll
asks for nothing any more, and the one of the session has one request on its way at most.
-/

namespace CardImport

/-- Whether a task waits for the answer to a request of its own. -/
def Task.isAsking : Task → Bool
  | .load (.asking _) => true
  | .submit .asked => true
  | .poll _ _ (.asking _) => true
  | .refresh (.asking _) => true
  | _ => false

def Action.asks (id : TaskId) : Action → Bool
  | .ask (.task sender) _ => sender == id
  | _ => false

def Input.answers (id : TaskId) : Input → Bool
  | .response (.task sender) _ => sender == id
  | _ => false

/-- Whether an input is the end of the wait of a poll. -/
def Input.EndsWait (id : TaskId) (i : Input) : Prop := i = .halted id ∨ i = .elapsed id

namespace Control

/-! ## Where a poll comes from -/

/-- In a run a poll was created while the session number was `n`. -/
def PollCreated (c : Control) (inputs : List Input) (id : TaskId) (n : Nat) : Prop :=
  ∃ before i after, inputs = before ++ i :: after ∧ (c.run before).1.task? id = none ∧
    (∃ m stopped stage, ((c.run before).1.step i).1.task? id = some (.poll m stopped stage)) ∧
    (c.run before).1.session.number = n

/-- A poll stays one of the session that it was created in. -/
theorem Became.poll {c c' : Control} {i : Input} {actions : List Action} {id : TaskId} {n : Nat}
    {stopped : Bool} {stage : PollStage} {t' : Task}
    (h : Became c i c' actions id (.poll n stopped stage) t') :
    ∃ stopped' stage', t' = .poll n stopped' stage' := by
  cases h with
  | same => exact ⟨_, _, rfl⟩
  | turned hturn =>
      obtain ⟨stage', rfl⟩ := hturn.poll rfl
      exact ⟨_, _, rfl⟩
  | stopped => exact ⟨_, _, rfl⟩

theorem poll_run {c : Control} {id : TaskId} {n : Nat} {stopped : Bool} {stage : PollStage}
    (ht : c.task? id = some (.poll n stopped stage)) (inputs : List Input) :
    ∃ stopped' stage', (c.run inputs).1.task? id = some (.poll n stopped' stage') := by
  refine run_keeps (P := fun c => ∃ stopped stage, c.task? id = some (.poll n stopped stage))
    ?_ ⟨stopped, stage, ht⟩ inputs
  rintro c i c' actions hmove ⟨stopped, stage, ht⟩
  obtain ⟨t', ht', hb⟩ := hmove.became ht
  obtain ⟨stopped', stage', rfl⟩ := hb.poll
  exact ⟨stopped', stage', ht'⟩

theorem PollCreated.task? {c : Control} {inputs : List Input} {id : TaskId} {n : Nat}
    (h : c.PollCreated inputs id n) :
    ∃ stopped stage, (c.run inputs).1.task? id = some (.poll n stopped stage) := by
  obtain ⟨before, i, after, rfl, hnone, ⟨m, stopped, stage, ht⟩, rfl⟩ := h
  have hnew := (move_step _ i).new hnone ht
  have hrun : (c.run (before ++ i :: after)).1 = (((c.run before).1.step i).1.run after).1 := by
    rw [run_append]
    rfl
  cases hnew with
  | poll =>
      rw [hrun]
      exact poll_run ht after

/-! ## Polls of closed sessions -/

/-- A turn of a poll that is live afterwards began with a live one. -/
theorem Turn.poll_before {c : Control} {id : TaskId} {i : Input} {t : Task} {s : Session}
    {n : Nat} {stopped : Bool} {stage : PollStage} {actions : List Action}
    (h : Turn c id i t s (.poll n stopped stage) actions) :
    ∃ stage₀, t = .poll n stopped stage₀ := by
  generalize ht' : Task.poll n stopped stage = t' at h
  cases h with
  | pollWaits | pollAsks | pollLeaves | pollHalted | pollIdle | pollGoesOn | pollBroken
  | pollGivesUp | pollRetries =>
      cases ht'
      exact ⟨_, rfl⟩
  | _ => cases ht'

/-- Polls that were stopped belong to closed sessions, and those that were not have ended, but for
the one of the session. -/
structure Retiring (c : Control) : Prop where
  past : ∀ {id n stage}, c.task? id = some (.poll n true stage) → n < c.session.number
  live : ∀ {id n stopped stage}, c.task? id = some (.poll n stopped stage) →
    c.isDone id = false → c.poller = some id ∨ stopped = true

/-- What becomes of the tasks keeps `Retiring`, if no poll is added, stopped or brought back. -/
theorem Retiring.mono {c c' : Control} (h : c.Retiring)
    (hnumber : c.session.number ≤ c'.session.number) (hpoller : c'.poller = c.poller)
    (htasks : ∀ {id n stopped stage}, c'.task? id = some (.poll n stopped stage) →
      (∃ stage₀, c.task? id = some (.poll n stopped stage₀)) ∧
        (c'.isDone id = false → c.isDone id = false)) : c'.Retiring := by
  constructor
  · intro id n stage ht
    obtain ⟨⟨stage₀, ht₀⟩, -⟩ := htasks ht
    exact Nat.lt_of_lt_of_le (h.past ht₀) hnumber
  · intro id n stopped stage ht hlive
    obtain ⟨⟨stage₀, ht₀⟩, hlive₀⟩ := htasks ht
    rw [hpoller]
    exact h.live ht₀ (hlive₀ hlive)

theorem isDone_of_task? {c : Control} {id : TaskId} {t : Task} (ht : c.task? id = some t) :
    c.isDone id = t.isDone := by
  rw [isDone, ht]
  rfl

theorem isDone_stopTask (t : Task) : (stopTask t).isDone = t.isDone := by
  cases t with
  | poll n stopped stage => cases stage <;> rfl
  | _ => rfl

theorem retiring_close {c : Control} (hc : c.PollerCurrent) (h : c.Retiring) :
    c.close.1.Retiring := by
  constructor
  · intro id n stage ht
    show n < c.session.number + 1
    rw [task?_close] at ht
    split at ht
    · rename_i hp
      obtain ⟨stage₀, ht₀⟩ := hc hp
      rw [ht₀] at ht
      cases ht
      exact Nat.lt_succ_self _
    · exact Nat.lt_succ_of_lt (h.past ht)
  · intro id n stopped stage ht hlive
    rw [isDone_of_task? ht] at hlive
    rw [task?_close] at ht
    split at ht
    · rename_i hp
      obtain ⟨stage₀, ht₀⟩ := hc hp
      rw [ht₀] at ht
      cases ht
      exact Or.inr rfl
    · rename_i hp
      rw [← isDone_of_task? ht] at hlive
      rcases h.live ht hlive with hp' | hstopped
      · exact absurd hp' hp
      · exact Or.inr hstopped

theorem startPolling_of_live {c : Control} {id : TaskId} (hp : c.poller = some id)
    (hlive : c.isDone id = false) : c.startPolling = (c, id, []) := by
  simp [startPolling, hp, hlive]

theorem retiring_startPolling {c : Control} (h : c.Retiring) : c.startPolling.1.Retiring := by
  rcases startPolling_cases c with ⟨p, -, -, heq⟩ | heq
  · rw [heq]
    exact h
  · constructor
    · intro id n stage ht
      rw [session_startPolling]
      cases hold : c.task? id with
      | none => cases task?_startPolling_of_none hold ht
      | some t =>
          cases (task?_startPolling_of_some hold).symm.trans ht
          exact h.past hold
    · intro id n stopped stage ht hlive
      cases hold : c.task? id with
      | none =>
          rw [heq] at ht ⊢
          obtain ⟨rfl, -⟩ := task?_spawn_of_none hold ht
          exact Or.inl rfl
      | some t =>
          cases (task?_startPolling_of_some hold).symm.trans ht
          rw [isDone_of_task? ht, ← isDone_of_task? hold] at hlive
          rcases h.live hold hlive with hp | hstopped
          · rw [startPolling_of_live hp hlive]
            exact Or.inl hp
          · exact Or.inr hstopped

theorem Retiring.setSession {c : Control} (h : c.Retiring) {s : Session}
    (hs : s.number = c.session.number) : (c.setSession s).Retiring :=
  h.mono (Nat.le_of_eq hs.symm) rfl fun ht => ⟨⟨_, ht⟩, id⟩

theorem Retiring.spawn {c : Control} (h : c.Retiring) {new : Task}
    (hnew : ∀ n stopped stage, new ≠ .poll n stopped stage) : (c.spawn new).1.Retiring := by
  refine h.mono (Nat.le_refl _) rfl ?_
  intro id n stopped stage ht
  cases hold : c.task? id with
  | none => exact absurd (task?_spawn_of_none hold ht).2.symm (hnew n stopped stage)
  | some t =>
      cases (task?_spawn_of_some hold new).symm.trans ht
      refine ⟨⟨stage, rfl⟩, fun hlive => ?_⟩
      rwa [isDone_of_task? ht, ← isDone_of_task? hold] at hlive

/-- A turn leaves every poll what it is, and only a task that is not done takes one. -/
theorem Turn.retiring {c : Control} {i : Input} {id : TaskId} {t t' : Task} {s : Session}
    {actions : List Action} (h : Turn c id i t s t' actions) (ht : c.task? id = some t)
    (hr : c.Retiring) : ((c.setSession s).setTask id t').Retiring := by
  have hself := task?_setTask_self (c := c.setSession s) ht t'
  refine hr.mono (Nat.le_of_eq h.number.symm) rfl ?_
  intro j n stopped stage hj
  by_cases hid : id = j
  · subst hid
    cases hself.symm.trans hj
    obtain ⟨stage₀, rfl⟩ := h.poll_before
    refine ⟨⟨stage₀, ht⟩, fun _ => ?_⟩
    rw [isDone_of_task? ht]
    exact h.not_isDone
  · have hold : c.task? j = some (.poll n stopped stage) :=
      (task?_setTask_of_ne (c.setSession s) hid t').symm.trans hj
    refine ⟨⟨stage, hold⟩, fun hlive => ?_⟩
    rwa [isDone_of_task? hj, ← isDone_of_task? hold] at hlive

theorem retiring_accepted {c : Control} {id : TaskId} (ht : c.task? id = some (.submit .asked))
    (hr : c.Retiring) :
    (c.startPolling.1.setTask id (.submit (.done (.ok c.startPolling.2.1)))).Retiring := by
  have hself := task?_setTask_self (task?_startPolling_of_some ht)
    (.submit (.done (.ok c.startPolling.2.1)))
  refine (retiring_startPolling hr).mono (Nat.le_refl _) rfl ?_
  intro j n stopped stage hj
  have hid : id ≠ j := by
    rintro rfl
    cases hself.symm.trans hj
  have hold := (task?_setTask_of_ne c.startPolling.1 hid _).symm.trans hj
  refine ⟨⟨stage, hold⟩, fun hlive => ?_⟩
  rwa [isDone_of_task? hj, ← isDone_of_task? hold] at hlive

theorem Move.retiring {c c' : Control} {i : Input} {actions : List Action}
    (h : Move c i c' actions) (hc : c.PollerCurrent) (hr : c.Retiring) : c'.Retiring := by
  cases h with
  | opened path =>
      have hclosed : (c.close.1.setSession
          { c.close.1.session with path, loading := true }).Retiring :=
        (retiring_close hc hr).setSession rfl
      refine hclosed.spawn ?_
      rintro n stopped stage ⟨⟩
  | closed => exact retiring_close hc hr
  | edited e => exact hr.setSession rfl
  | started hfresh =>
      refine hr.spawn ?_
      rintro n stopped stage rfl
      cases hfresh
  | polled => exact retiring_startPolling hr
  | turned ht hturn => exact hturn.retiring ht hr
  | accepted ht => exact retiring_accepted ht hr
  | dropped => exact hr

theorem retiring_run (o : SessionOptions) (inputs : List Input) :
    (o.begin.run inputs).1.Retiring := by
  refine (run_keeps (P := fun c => c.PollerCurrent ∧ c.Retiring) ?_ ⟨?_, ?_⟩ inputs).2
  · rintro c i c' actions hmove ⟨hc, hr⟩
    exact ⟨hmove.pollerCurrent hc, hmove.retiring hc hr⟩
  · intro id hid
    cases hid
  · constructor
    · intro id n stage ht
      cases ht
    · intro id n stopped stage ht
      cases ht

/-- A live poll of the session is the one that the session knows. -/
theorem Retiring.poller_of_current {c : Control} (h : c.Retiring) {id : TaskId} {stopped : Bool}
    {stage : PollStage} (ht : c.task? id = some (.poll c.session.number stopped stage))
    (hlive : c.isDone id = false) : c.poller = some id := by
  rcases h.live ht hlive with hp | rfl
  · exact hp
  · exact absurd (h.past ht) (Nat.lt_irrefl _)

/-! ## Requests of a poll -/

/-- A poll asks only in the session that it belongs to, and only before it is stopped. -/
theorem Move.poll_of_asks {c c' : Control} {i : Input} {actions : List Action}
    (h : Move c i c' actions) {id : TaskId} {n : Nat} {stopped : Bool} {stage : PollStage}
    (ht : c.task? id = some (.poll n stopped stage)) {q : Query}
    (ha : .ask (.task id) q ∈ actions) :
    n = c.session.number ∧ ∃ failures, c'.task? id = some (.poll n false (.asking failures)) := by
  obtain ⟨t', ht', hb⟩ := h.became ht
  obtain ⟨stopped', stage', rfl⟩ := hb.poll
  obtain ⟨id', t₂, hasks, ht₂, -⟩ := h.asks ha
  obtain rfl : id = id' := hasks.taskId
  cases ht'.symm.trans ht₂
  cases hasks with
  | poll => exact ⟨rfl, _, ht'⟩

theorem Move.stopped {c c' : Control} {i : Input} {actions : List Action}
    (h : Move c i c' actions) {id : TaskId} {n : Nat} {stage : PollStage}
    (ht : c.task? id = some (.poll n true stage)) :
    ∃ stage', c'.task? id = some (.poll n true stage') := by
  obtain ⟨t', ht', hb⟩ := h.became ht
  cases hb with
  | same => exact ⟨stage, ht'⟩
  | turned hturn =>
      obtain ⟨stage', rfl⟩ := hturn.poll rfl
      exact ⟨stage', ht'⟩
  | stopped => exact ⟨stage, ht'⟩

theorem not_ask_of_stopped {c : Control} {id : TaskId} {n : Nat} {stage : PollStage}
    (ht : c.task? id = some (.poll n true stage)) (inputs : List Input) (q : Query) :
    .ask (.task id) q ∉ (c.run inputs).2 := by
  refine run_avoids (P := fun c => ∃ stage, c.task? id = some (.poll n true stage)) ?_
    ⟨stage, ht⟩ inputs
  rintro c i c' actions hmove ⟨stage, ht⟩
  obtain ⟨stage', ht'⟩ := hmove.stopped ht
  refine ⟨⟨stage', ht'⟩, ?_⟩
  intro ha
  obtain ⟨-, failures, hasking⟩ := hmove.poll_of_asks ht ha
  cases ht'.symm.trans hasking

/-! ## Requests on their way -/

/-- How many requests of a task are on their way after a run, if `n` were before it: each request
adds one, and each answer takes one away. -/
def inFlight (c : Control) (id : TaskId) (n : Nat) : List Input → Nat
  | [] => n
  | i :: rest =>
    let answered := if i.answers id then n - 1 else n
    inFlight (c.step i).1 id (answered + (c.step i).2.countP (Action.asks id)) rest

/-- One if the task waits for an answer. -/
def awaited (c : Control) (id : TaskId) : Nat := if (c.task? id).any Task.isAsking then 1 else 0

theorem awaited_of_task? {c : Control} {id : TaskId} {t : Task} (ht : c.task? id = some t) :
    c.awaited id = if t.isAsking then 1 else 0 := by
  rw [awaited, ht]
  rfl

theorem awaited_le_one (c : Control) (id : TaskId) : c.awaited id ≤ 1 := by
  unfold awaited
  split <;> omega

theorem countP_asks_eq_zero {actions : List Action} {id : TaskId}
    (h : ∀ q, .ask (.task id) q ∉ actions) : actions.countP (Action.asks id) = 0 := by
  rw [List.countP_eq_zero]
  intro a ha hasks
  cases a with
  | ask sender q =>
      cases sender with
      | task j =>
          obtain rfl : j = id := beq_iff_eq.mp hasks
          exact h q ha
      | leg j leg => cases hasks
  | _ => cases hasks

/-- A task that waits for an answer takes its turn with one and asks for nothing in it; another
asks at most once, and then waits. -/
theorem Turn.asks_once {c : Control} {id : TaskId} {i : Input} {t t' : Task} {s : Session}
    {actions : List Action} (h : Turn c id i t s t' actions) :
    (i.answers id = true ∧ actions.countP (Action.asks id) = 0) ∨
      t.isAsking = false ∧
        actions.countP (Action.asks id) ≤ if t'.isAsking then 1 else 0 := by
  have hnotes : ∀ entries, (notes entries).countP (Action.asks id) = 0 :=
    fun entries => countP_asks_eq_zero fun q => not_ask_notes entries _ q
  cases h with
  | loadEnds | refreshEnds | submitRefused | pollIdle | pollGoesOn | pollBroken | pollGivesUp
  | pollRetries =>
      refine Or.inl ⟨beq_self_eq_true id, countP_asks_eq_zero fun q => ?_⟩
      simp
  | loadEmpty | refreshAsks | pollAsks =>
      refine Or.inr ⟨rfl, ?_⟩
      simp [Action.asks, Task.isAsking]
  | listShown | listFailed | submitSends =>
      refine Or.inr ⟨rfl, ?_⟩
      simp [hnotes, List.countP_append, Action.asks, Task.isAsking]
  | _ =>
      refine Or.inr ⟨rfl, ?_⟩
      rw [countP_asks_eq_zero]
      · exact Nat.zero_le _
      · intro q
        simp

/-- Of a task that asks for nothing in a step, no more is on its way than before. -/
theorem awaited_of_not_asks {actions : List Action} {id : TaskId} {i : Input} {n m : Nat}
    (hasks : ∀ q, .ask (.task id) q ∉ actions) (hn : n ≤ m) :
    (if i.answers id then n - 1 else n) + actions.countP (Action.asks id) ≤ m := by
  rw [countP_asks_eq_zero hasks]
  split <;> omega

theorem isAsking_stopTask (t : Task) : (stopTask t).isAsking = t.isAsking := by
  cases t with
  | poll n stopped stage => cases stage <;> rfl
  | _ => rfl

/-- Unless it takes its turn, a task goes on waiting. -/
theorem awaited_le_close (c : Control) (id : TaskId) : c.awaited id ≤ c.close.1.awaited id := by
  unfold awaited
  rw [task?_close]
  by_cases hp : c.poller = some id
  · cases c.task? id with
    | none => exact Nat.zero_le _
    | some t => simp [hp, isAsking_stopTask]
  · exact Nat.le_of_eq (by rw [if_neg hp])

theorem awaited_le_of_task? {c c' : Control} {id : TaskId}
    (h : ∀ t, c.task? id = some t → c'.task? id = some t) : c.awaited id ≤ c'.awaited id := by
  cases ht : c.task? id with
  | none =>
      rw [awaited, ht]
      exact Nat.zero_le _
  | some t => exact Nat.le_of_eq (by rw [awaited_of_task? ht, awaited_of_task? (h t ht)])

/-- With an answer a task stops waiting, and with a request it begins to. -/
theorem Turn.awaited {c : Control} {i : Input} {j : TaskId} {t t' : Task} {s : Session}
    {actions : List Action} (h : Turn c j i t s t' actions) (ht : c.task? j = some t)
    {id : TaskId} {n : Nat} (hn : n ≤ c.awaited id) :
    (if i.answers id then n - 1 else n) + actions.countP (Action.asks id) ≤
      ((c.setSession s).setTask j t').awaited id := by
  by_cases hj : j = id
  · subst hj
    rw [awaited_of_task? (task?_setTask_self (c := c.setSession s) ht t')]
    rw [awaited_of_task? ht] at hn
    rcases h.asks_once with ⟨hanswers, hnone⟩ | ⟨hasking, honce⟩
    · rw [if_pos hanswers, hnone]
      split at hn <;> omega
    · rw [hasking] at hn
      simp only [Bool.false_eq_true, if_false, Nat.le_zero] at hn
      subst hn
      simpa using honce
  · refine awaited_of_not_asks (fun q ha => ?_) (Nat.le_trans hn ?_)
    · exact hj (h.asks ha).taskId.symm
    · refine awaited_le_of_task? fun u hu => ?_
      exact (task?_setTask_of_ne (c.setSession s) hj t').trans hu

/-- The answer to an accepted submission was awaited, and the poll asks for nothing yet. -/
theorem awaited_accepted {c : Control} {j : TaskId} (ht : c.task? j = some (.submit .asked))
    (r : Except Failure Response) (entries : List Entry) {id : TaskId} {n : Nat}
    (hn : n ≤ c.awaited id) :
    (if (Input.response (.task j) r).answers id then n - 1 else n) +
        (notes entries ++ c.startPolling.2.2).countP (Action.asks id) ≤
      (c.startPolling.1.setTask j (.submit (.done (.ok c.startPolling.2.1)))).awaited id := by
  have hasks : ∀ q, .ask (.task id) q ∉ notes entries ++ c.startPolling.2.2 := by
    intro q ha
    rcases List.mem_append.mp ha with hnote | hpoll
    · exact not_ask_notes entries _ q hnote
    · exact not_ask_startPolling c _ q hpoll
  by_cases hj : j = id
  · subst hj
    rw [awaited_of_task? ht] at hn
    have hanswers : (Input.response (.task j) r).answers j = true := beq_self_eq_true j
    rw [countP_asks_eq_zero hasks, if_pos hanswers]
    simp only [Task.isAsking, if_true] at hn
    omega
  · refine awaited_of_not_asks hasks (Nat.le_trans hn ?_)
    refine awaited_le_of_task? fun u hu => ?_
    exact (task?_setTask_of_ne _ hj _).trans (task?_startPolling_of_some hu)

/-- What is on its way is awaited. -/
theorem Move.awaited {c c' : Control} {i : Input} {actions : List Action}
    (h : Move c i c' actions) {id : TaskId} {n : Nat} (hn : n ≤ c.awaited id) :
    (if i.answers id then n - 1 else n) + actions.countP (Action.asks id) ≤ c'.awaited id := by
  cases h with
  | opened path =>
      refine awaited_of_not_asks (fun q ha => ?_) (Nat.le_trans hn ?_)
      · rcases List.mem_append.mp ha with hclose | hnew
        · exact not_ask_close c _ q hclose
        · simp at hnew
      · exact Nat.le_trans (awaited_le_close c id)
          (awaited_le_of_task? fun t ht => task?_openPath_of_some ht)
  | closed =>
      exact awaited_of_not_asks (not_ask_close c _) (Nat.le_trans hn (awaited_le_close c id))
  | edited e => exact awaited_of_not_asks (fun q => List.not_mem_nil) hn
  | started hfresh =>
      refine awaited_of_not_asks (fun q => by simp [start]) (Nat.le_trans hn ?_)
      exact awaited_le_of_task? fun t ht => task?_spawn_of_some ht _
  | polled =>
      refine awaited_of_not_asks (not_ask_startPolling c _) (Nat.le_trans hn ?_)
      exact awaited_le_of_task? fun t ht => task?_startPolling_of_some ht
  | turned ht hturn => exact hturn.awaited ht hn
  | @accepted j r entries ht => exact awaited_accepted ht r entries hn
  | dropped => exact awaited_of_not_asks (fun q => List.not_mem_nil) hn

theorem inFlight_le_awaited {c : Control} {id : TaskId} {n : Nat} (hn : n ≤ c.awaited id)
    (inputs : List Input) : c.inFlight id n inputs ≤ (c.run inputs).1.awaited id := by
  induction inputs generalizing c n with
  | nil => exact hn
  | cons i rest ih => exact ih ((move_step c i).awaited hn)

theorem inFlight_le_one (o : SessionOptions) (inputs : List Input) (id : TaskId) :
    o.begin.inFlight id 0 inputs ≤ 1 :=
  Nat.le_trans (inFlight_le_awaited (Nat.zero_le _) inputs) (awaited_le_one _ id)

/-! ## The end of a stopped poll -/

theorem Move.isDone {c c' : Control} {i : Input} {actions : List Action}
    (h : Move c i c' actions) {id : TaskId} (hdone : c.isDone id = true) :
    c'.isDone id = true := by
  cases ht : c.task? id with
  | none =>
      rw [Control.isDone, ht] at hdone
      cases hdone
  | some t =>
      obtain ⟨t', ht', hb⟩ := h.became ht
      rw [isDone_of_task? ht] at hdone
      rw [isDone_of_task? ht']
      cases hb with
      | same => exact hdone
      | turned hturn =>
          rw [hturn.not_isDone] at hdone
          cases hdone
      | stopped => rwa [isDone_stopTask]
      | accepted => cases hdone

theorem isDone_run {c : Control} {id : TaskId} (h : c.isDone id = true) (inputs : List Input) :
    (c.run inputs).1.isDone id = true :=
  run_keeps (P := fun c => c.isDone id = true) (fun hmove hdone => hmove.isDone hdone) h inputs

/-- A poll that was stopped while it waited: it has ended, or is still to learn it. -/
def Halting (c : Control) (id : TaskId) : Prop :=
  c.isDone id = true ∨ ∃ n failures, c.task? id = some (.poll n true (.waiting failures))

theorem Turn.isDone_of_stopped {c : Control} {id : TaskId} {i : Input} {n failures : Nat}
    {t' : Task} {s : Session} {actions : List Action}
    (h : Turn c id i (.poll n true (.waiting failures)) s t' actions) : t'.isDone = true := by
  cases h <;> rfl

/-- The end of its wait ends it, and nothing else but that happens to it. -/
theorem Halting.step {c : Control} {id : TaskId} (h : c.Halting id) (i : Input) :
    (c.step i).1.Halting id ∧ (i.EndsWait id → (c.step i).1.isDone id = true) := by
  rcases h with hdone | ⟨n, failures, ht⟩
  · have hdone' : (c.step i).1.isDone id = true := isDone_run hdone [i]
    exact ⟨Or.inl hdone', fun _ => hdone'⟩
  · constructor
    · obtain ⟨t', ht', hb⟩ := (move_step c i).became ht
      cases hb with
      | same => exact Or.inr ⟨n, failures, ht'⟩
      | stopped => exact Or.inr ⟨n, failures, ht'⟩
      | turned hturn =>
          refine Or.inl ?_
          rw [isDone_of_task? ht']
          exact hturn.isDone_of_stopped
    · rintro (rfl | rfl)
      · have hstep : (c.step (.halted id)).1 = c.setTask id (.poll n true (.done (.ok ()))) := by
          simp only [Control.step, haltPoll, ht]
        rw [hstep, isDone_of_task? (task?_setTask_self ht _)]
        rfl
      · have hstep : (c.step (.elapsed id)).1 = c.setTask id (.poll n true (.done (.ok ()))) := by
          simp [Control.step, wake, ht, wakePoll]
        rw [hstep, isDone_of_task? (task?_setTask_self ht _)]
        rfl

theorem Halting.isDone_run {c : Control} {id : TaskId} (h : c.Halting id) {inputs : List Input}
    (hends : ∃ i ∈ inputs, i.EndsWait id) : (c.run inputs).1.isDone id = true := by
  induction inputs generalizing c with
  | nil =>
      obtain ⟨i, hi, -⟩ := hends
      cases hi
  | cons i rest ih =>
      obtain ⟨hhalting, hdone⟩ := h.step i
      obtain ⟨j, hj, hend⟩ := hends
      rcases List.mem_cons.mp hj with rfl | hj
      · exact Control.isDone_run (hdone hend) rest
      · exact ih hhalting ⟨j, hj, hend⟩

theorem stopped_of_closes {c : Control} {id : TaskId} {n failures : Nat}
    (ht : c.task? id = some (.poll n false (.waiting failures))) (hp : c.poller = some id)
    {i : Input} (hi : i.Closes) :
    (c.step i).1.task? id = some (.poll n true (.waiting failures)) := by
  have hclose : c.close.1.task? id = some (.poll n true (.waiting failures)) := by
    rw [task?_close, if_pos hp, ht]
    rfl
  cases i with
  | openPath path => exact task?_openPath_of_some hclose
  | close => exact hclose
  | _ => exact hi.elim

end Control

end CardImport
