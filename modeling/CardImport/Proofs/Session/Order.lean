import CardImport.Proofs.Session.Look
import CardImport.Proofs.Session.Polling

/-!
# The order of looks

Several looks at the job can be on their way in one session, and each is merged when its answer
arrives. So the session holds what the answer says that arrived last, and this need not be the one
to the request that was sent last. Polls are no such case: a look of a poll is on its way alone
among those of polls, so their answers arrive in the order of the requests.
-/

namespace CardImport

/-- What a session holds of the status that was merged last. -/
def Session.standing (s : Session) : Option JobStatus × Bool × Number × Option Timestamp :=
  (s.lastStatus, s.job)

/-- What a status with this progress leaves in the session that merges it. -/
def JobStatus.standing (status : JobStatus) (progress : Number) :
    Option JobStatus × Bool × Number × Option Timestamp :=
  (some status, status.enabled, progress, if status.active then status.eta else none)

theorem Session.standing_merge {s : Session} {status : JobStatus} {progress : Number}
    (hp : Progress.ofStatus status = .ok progress) :
    (s.merge status).1.standing = status.standing progress := by
  obtain ⟨items, hmerge⟩ := merge_of_progress (s := s) hp
  rw [hmerge]
  rfl

theorem Task.isDone_of_isAsking {t : Task} (h : t.isAsking = true) : t.isDone = false := by
  cases t with
  | load stage | submit stage | poll n stopped stage | refresh stage =>
      cases stage <;> first | rfl | cases h

namespace Control

/-! ## Positions in a run -/

/-- The session after so many inputs of a run. -/
def upTo (c : Control) (inputs : List Input) (k : Nat) : Control := (c.run (inputs.take k)).1

theorem upTo_succ {c : Control} {inputs : List Input} {k : Nat} {i : Input}
    (hi : inputs[k]? = some i) : c.upTo inputs (k + 1) = ((c.upTo inputs k).step i).1 := by
  unfold upTo
  rw [List.take_add_one, hi]
  exact run_concat_fst c (inputs.take k) i

theorem upTo_succ_of_none {c : Control} {inputs : List Input} {k : Nat}
    (hi : inputs[k]? = none) : c.upTo inputs (k + 1) = c.upTo inputs k := by
  unfold upTo
  rw [List.take_add_one, hi]
  simp

/-- What the inputs between two positions keep holds at the second if it holds at the first. -/
theorem upTo_keeps {c : Control} {inputs : List Input} {P : Control → Prop} {a b : Nat}
    (hab : a ≤ b) (hstep : ∀ {k i}, a ≤ k → k < b → inputs[k]? = some i →
      P (c.upTo inputs k) → P ((c.upTo inputs k).step i).1)
    (h : P (c.upTo inputs a)) : P (c.upTo inputs b) := by
  induction hab with
  | refl => exact h
  | @step b hab ih =>
      have hbefore := ih fun hk hlt => hstep hk (Nat.lt_succ_of_lt hlt)
      cases hi : inputs[b]? with
      | none =>
          -- The run is over, and nothing comes any more.
          rw [upTo_succ_of_none hi]
          exact hbefore
      | some i =>
          rw [upTo_succ hi]
          exact hstep hab (Nat.lt_succ_self b) hi hbefore

theorem upTo_number_le (c : Control) (inputs : List Input) {a b : Nat} (hab : a ≤ b) :
    (c.upTo inputs a).session.number ≤ (c.upTo inputs b).session.number := by
  refine upTo_keeps (P := fun c' => (c.upTo inputs a).session.number ≤ c'.session.number) hab ?_
    (Nat.le_refl _)
  rintro k i - - - hle
  exact Nat.le_trans hle (move_step _ i).number_le

/-! ## Tasks that look -/

/-- A task waits for the answer to a status request that it sent under a session number. -/
def LooksIn (c : Control) (id : TaskId) (n : Nat) : Prop :=
  ∃ t, c.task? id = some t ∧ t.isAsking = true ∧ t.captured? = some n

theorem Move.looksIn_of_asks {c c' : Control} {i : Input} {actions : List Action}
    (h : Move c i c' actions) {id : TaskId} (ha : .ask (.task id) .status ∈ actions) :
    c'.LooksIn id c.session.number := by
  obtain ⟨j, t, hasks, ht, -⟩ := h.asks ha
  obtain rfl : id = j := hasks.taskId
  cases hasks with
  | load | poll | refresh => exact ⟨_, ht, rfl, rfl⟩

/-- A task that looks goes on until its answer comes. -/
theorem Move.looksIn {c c' : Control} {i : Input} {actions : List Action}
    (h : Move c i c' actions) {id : TaskId} {n : Nat} (hlooks : c.LooksIn id n)
    (hi : i.answers id = false) : c'.LooksIn id n := by
  obtain ⟨t, ht, hasking, hn⟩ := hlooks
  obtain ⟨t', ht', hb⟩ := h.became ht
  cases hb with
  | same => exact ⟨t, ht', hasking, hn⟩
  | turned hturn =>
      rcases hturn.asks_once with ⟨hanswers, -⟩ | ⟨hnot, -⟩
      · cases hi.symm.trans hanswers
      · cases hnot.symm.trans hasking
  | stopped =>
      refine ⟨stopTask t, ht', ?_, ?_⟩
      · rw [isAsking_stopTask, hasking]
      · rw [captured_stopTask, hn]
  | accepted => cases hn

/-- A task that looks asks for nothing else meanwhile. -/
theorem Move.not_ask_of_looksIn {c c' : Control} {i : Input} {actions : List Action}
    (h : Move c i c' actions) {id : TaskId} {n : Nat} (hlooks : c.LooksIn id n)
    (hi : i.answers id = false) (q : Query) : .ask (.task id) q ∉ actions := by
  obtain ⟨t, ht, hasking, -⟩ := hlooks
  have hone : 1 ≤ c.awaited id := by
    rw [awaited_of_task? ht, hasking]
    exact Nat.le_refl 1
  -- One answer is awaited already, and no task awaits two.
  have hcount := Nat.le_trans (h.awaited hone) (awaited_le_one c' id)
  simp only [hi, Bool.false_eq_true, if_false] at hcount
  have hzero : actions.countP (Action.asks id) = 0 := by omega
  intro ha
  exact List.countP_eq_zero.mp hzero _ ha (beq_self_eq_true id)

/-- The answer to a look in its own session is merged. -/
theorem session_of_look {c : Control} {id : TaskId} (hlooks : c.LooksIn id c.session.number)
    {r : Except Failure Response} {status : JobStatus} (hr : Job.told r = .ok status) :
    (c.step (.response (.task id) r)).1.session = (c.session.merge status).1 := by
  obtain ⟨t, ht, hasking, hn⟩ := hlooks
  have hlook := (look_of_told hr (rfl : c.session.number = _)).1
  show (c.receive id r).1.session = _
  cases t with
  | load stage =>
      cases stage with
      | asking n =>
          cases hn
          simp only [receive, ht, endLoad_eq]
          exact hlook
      | _ => cases hasking
  | submit stage => cases hn
  | poll n stopped stage =>
      cases stage with
      | asking failures =>
          cases hn
          simp only [receive, ht]
          obtain ⟨s, t', actions, hturn, hstep⟩ :=
            turn_stepPoll c id c.session.number stopped failures r
          rw [hstep]
          cases hturn with
          | pollIdle | pollGoesOn | pollBroken | pollRetries => exact hlook
          | pollGivesUp hf hremote =>
              -- It was told no status.
              cases (told_of_remote hf hremote).symm.trans hr
      | _ => cases hasking
  | refresh stage =>
      cases stage with
      | asking n =>
          cases hn
          simp only [receive, ht, stepRefresh, receiveStatus_eq]
          exact hlook
      | _ => cases hasking

end Control

/-! ## Looks that were merged -/

/-- A look of a run that was merged: the positions at which its request was sent and its answer
arrived, in one session, and what it was told. -/
structure Look (c : Control) (inputs : List Input) where
  task : TaskId
  sent : Nat
  arrived : Nat
  cause : Input
  result : Except Failure Response
  status : JobStatus
  progress : Number
  caused : inputs[sent]? = some cause
  asked : .ask (.task task) .status ∈ ((c.upTo inputs sent).step cause).2
  later : sent < arrived
  answered : inputs[arrived]? = some (.response (.task task) result)
  first : ∀ i ∈ (inputs.take arrived).drop (sent + 1), i.answers task = false
  current : (c.upTo inputs arrived).session.number = (c.upTo inputs sent).session.number
  told : Job.told result = .ok status
  computed : Progress.ofStatus status = .ok progress

namespace Look

variable {c : Control} {inputs : List Input}

/-- What the look leaves in the session. -/
def standing (x : Look c inputs) : Option JobStatus × Bool × Number × Option Timestamp :=
  x.status.standing x.progress

def number (x : Look c inputs) : Nat := (c.upTo inputs x.sent).session.number

def OfPoll (x : Look c inputs) : Prop :=
  ∃ n stopped stage, (c.upTo inputs x.sent).task? x.task = some (.poll n stopped stage)

theorem not_answers (x : Look c inputs) {k : Nat} {i : Input} (hi : inputs[k]? = some i)
    (hsent : x.sent < k) (harrived : k < x.arrived) : i.answers x.task = false := by
  apply x.first
  refine List.mem_iff_getElem?.mpr ⟨k - (x.sent + 1), ?_⟩
  rw [List.getElem?_drop, Nat.add_sub_cancel' hsent, List.getElem?_take_of_lt harrived]
  exact hi

theorem number_eq (x : Look c inputs) {k : Nat} (hsent : x.sent ≤ k) (harrived : k ≤ x.arrived) :
    (c.upTo inputs k).session.number = x.number := by
  apply Nat.le_antisymm
  · exact Nat.le_trans (Control.upTo_number_le c inputs harrived) (Nat.le_of_eq x.current)
  · exact Control.upTo_number_le c inputs hsent

theorem looksIn (x : Look c inputs) {k : Nat} (hsent : x.sent < k) (harrived : k ≤ x.arrived) :
    (c.upTo inputs k).LooksIn x.task x.number := by
  refine Control.upTo_keeps (P := fun c' => c'.LooksIn x.task x.number) hsent ?_ ?_
  · intro j i hj hlt hi hlooks
    have hnot := x.not_answers hi hj (Nat.lt_of_lt_of_le hlt harrived)
    exact (Control.move_step _ i).looksIn hlooks hnot
  · rw [Control.upTo_succ x.caused]
    exact (Control.move_step _ x.cause).looksIn_of_asks x.asked

/-- When its answer arrives, a look is merged. -/
theorem standing_upTo (x : Look c inputs) :
    (c.upTo inputs (x.arrived + 1)).session.standing = x.standing := by
  have hlooks := x.looksIn x.later (Nat.le_refl _)
  rw [← x.number_eq (Nat.le_of_lt x.later) (Nat.le_refl _)] at hlooks
  rw [Control.upTo_succ x.answered, Control.session_of_look hlooks x.told]
  exact Session.standing_merge x.computed

/-- One task looks again only after it was answered. -/
theorem arrived_le_sent {x y : Look c inputs} (htask : x.task = y.task) (hsent : x.sent < y.sent) :
    x.arrived ≤ y.sent := by
  apply Nat.le_of_not_lt
  intro harrived
  have hlooks := x.looksIn hsent (Nat.le_of_lt harrived)
  have hnot := x.not_answers y.caused hsent harrived
  have hasked := y.asked
  rw [← htask] at hasked
  exact (Control.move_step _ y.cause).not_ask_of_looksIn hlooks hnot _ hasked

theorem arrived_ne {x y : Look c inputs} (hsent : x.sent < y.sent) : x.arrived ≠ y.arrived := by
  intro heq
  have hanswer := x.answered
  rw [heq, y.answered] at hanswer
  simp only [Option.some.injEq, Input.response.injEq, Sender.task.injEq] at hanswer
  have hle := arrived_le_sent hanswer.1.symm hsent
  rw [heq] at hle
  exact Nat.lt_irrefl _ (Nat.lt_of_lt_of_le y.later hle)

/-- While a poll looks, it is live, and belongs to the session. -/
theorem poll_upTo (x : Look c inputs) (hx : x.OfPoll) {k : Nat} (hsent : x.sent < k)
    (harrived : k ≤ x.arrived) :
    (c.upTo inputs k).isDone x.task = false ∧ ∃ stopped stage,
      (c.upTo inputs k).task? x.task =
        some (.poll (c.upTo inputs k).session.number stopped stage) := by
  obtain ⟨n, hpoll⟩ : ∃ n, ∃ stopped stage,
      (c.upTo inputs k).task? x.task = some (.poll n stopped stage) := by
    obtain ⟨n, hstart⟩ := hx
    refine ⟨n, Control.upTo_keeps (P := fun c' => ∃ stopped stage,
      c'.task? x.task = some (.poll n stopped stage)) (Nat.le_of_lt hsent) ?_ hstart⟩
    rintro j i - - - ⟨stopped, stage, ht⟩
    exact Control.poll_run ht [i]
  obtain ⟨stopped, stage, hpoll⟩ := hpoll
  obtain ⟨t, ht, hasking, hn⟩ := x.looksIn hsent harrived
  cases hpoll.symm.trans ht
  obtain rfl : n = x.number := Option.some.inj hn
  rw [x.number_eq (Nat.le_of_lt hsent) harrived, Control.isDone_of_task? hpoll]
  exact ⟨Task.isDone_of_isAsking hasking, stopped, stage, hpoll⟩

/-- Looks of polls are answered in the order in which they were sent. -/
theorem arrived_lt_of_polls {o : SessionOptions} {x y : Look o.begin inputs} (hx : x.OfPoll)
    (hy : y.OfPoll) (hsent : x.sent < y.sent) : x.arrived < y.arrived := by
  apply Nat.lt_of_not_le
  intro hlt
  -- Both looks are on their way just after the second was sent, so one poll sent both.
  have harrived : y.sent + 1 ≤ x.arrived := by
    have hlater := y.later
    omega
  obtain ⟨hxlive, stopped, stage, hxpoll⟩ := x.poll_upTo hx (Nat.lt_succ_of_lt hsent) harrived
  obtain ⟨hylive, stopped', stage', hypoll⟩ := y.poll_upTo hy (Nat.lt_succ_self _) y.later
  have hretiring := Control.retiring_run o (inputs.take (y.sent + 1))
  have hxpoller := hretiring.poller_of_current hxpoll hxlive
  have hypoller := hretiring.poller_of_current hypoll hylive
  have htask : x.task = y.task := Option.some.inj (hxpoller.symm.trans hypoller)
  have hle := arrived_le_sent htask hsent
  omega

/-- After two looks were merged, the session holds what the one left whose answer arrived last. For
polls this is the one that was sent last. -/
theorem standing_of_two (o : SessionOptions) (inputs : List Input) (x y : Look o.begin inputs)
    (hsent : x.sent < y.sent) :
    let s := (o.begin.upTo inputs (max x.arrived y.arrived + 1)).session
    (x.arrived < y.arrived ∧ s.standing = y.standing ∨
      y.arrived < x.arrived ∧ s.standing = x.standing) ∧
    (x.OfPoll → y.OfPoll → x.arrived < y.arrived) := by
  intro s
  constructor
  · rcases Nat.lt_or_gt_of_ne (arrived_ne hsent) with hlt | hgt
    · have hlast : s.standing = y.standing := by
        simp only [s, Nat.max_eq_right (Nat.le_of_lt hlt)]
        exact y.standing_upTo
      exact Or.inl ⟨hlt, hlast⟩
    · have hlast : s.standing = x.standing := by
        simp only [s, Nat.max_eq_left (Nat.le_of_lt hgt)]
        exact x.standing_upTo
      exact Or.inr ⟨hgt, hlast⟩
  · intro hx hy
    exact arrived_lt_of_polls hx hy hsent

def begun : Except Failure Response := .ok ⟨200, .obj [("active", .bool true)]⟩

def twoLooks (answers : List Input) : List Input :=
  firstLoad "/a" ++ [.response (.task 0) idleJob, .refresh, .begin 1, .refresh, .begin 2] ++ answers

def inOrder : List Input := twoLooks [.response (.task 1) begun, .response (.task 2) idleJob]

def reversed : List Input := twoLooks [.response (.task 2) idleJob, .response (.task 1) begun]

def firstInOrder : Look ({} : SessionOptions).begin inOrder where
  task := 1
  sent := 9
  arrived := 12
  cause := .begin 1
  result := begun
  status := { active := true }
  progress := .real (Binary64.zero false)
  caused := rfl
  asked := List.mem_singleton.mpr rfl
  later := by decide
  answered := rfl
  first := by decide
  current := rfl
  told := rfl
  computed := rfl

def secondInOrder : Look ({} : SessionOptions).begin inOrder where
  task := 2
  sent := 11
  arrived := 13
  cause := .begin 2
  result := idleJob
  status := {}
  progress := Progress.inactive
  caused := rfl
  asked := List.mem_singleton.mpr rfl
  later := by decide
  answered := rfl
  first := by decide
  current := rfl
  told := rfl
  computed := rfl

def firstReversed : Look ({} : SessionOptions).begin reversed :=
  { firstInOrder with
    arrived := 13
    caused := rfl
    asked := List.mem_singleton.mpr rfl
    later := by decide
    answered := rfl
    first := by decide
    current := rfl }

def secondReversed : Look ({} : SessionOptions).begin reversed :=
  { secondInOrder with
    arrived := 12
    caused := rfl
    asked := List.mem_singleton.mpr rfl
    later := by decide
    answered := rfl
    first := by decide
    current := rfl }

/-- Two looks that are answered in order leave what the second was told. -/
theorem standing_in_order :
    firstInOrder.sent < secondInOrder.sent ∧
      (({} : SessionOptions).begin.run inOrder).1.session.standing = secondInOrder.standing := by
  have hsent : firstInOrder.sent < secondInOrder.sent := by decide
  obtain ⟨⟨-, hlast⟩ | ⟨hbefore, -⟩, -⟩ :=
    standing_of_two {} inOrder firstInOrder secondInOrder hsent
  · exact ⟨hsent, hlast⟩
  · exact absurd hbefore (by decide)

/-- Two looks of one session that are answered the other way round leave what the first was told:
the job counts as running, though the request that was sent last found it idle. -/
theorem standing_reversed :
    let s := (({} : SessionOptions).begin.run reversed).1.session
    firstReversed.sent < secondReversed.sent ∧ firstReversed.number = secondReversed.number ∧
      secondReversed.status.active = false ∧ s.state = .active ∧
      s.standing ≠ secondReversed.standing := by
  intro s
  have hstate : s.state = .active := by decide +kernel
  refine ⟨by decide, rfl, rfl, hstate, ?_⟩
  intro h
  have hprogress : s.progress = Progress.inactive := congrArg (fun held => held.2.2.1) h
  have hactive : Progress.isActive s.progress = true := by decide +kernel
  rw [hprogress] at hactive
  exact absurd hactive (by decide +kernel)

end Look

end CardImport
