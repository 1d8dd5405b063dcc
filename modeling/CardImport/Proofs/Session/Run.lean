import CardImport.Proofs.Session.Turn

/-!
# Runs

A session begins with its options and nothing else, and then takes inputs in any order. What one
move does to a task is said once here: a task stays as it is, takes its turn, is stopped, or learns
that its batch was accepted. Tasks never go away, and new ones are at their beginning.
-/

namespace CardImport

structure SessionOptions where
  scene : Json := ({} : Session).scene
  pollInterval : Number := ({} : Session).pollInterval
  maxRetries : Number := ({} : Session).maxRetries
  maxBackoff : Number := ({} : Session).maxBackoff
  path : String := ""
  subdirectory : Json := .str ""
  showsPercent : Bool := false

def SessionOptions.begin (o : SessionOptions) : Control where
  session := {
    scene := o.scene
    pollInterval := o.pollInterval
    maxRetries := o.maxRetries
    maxBackoff := o.maxBackoff
    path := o.path
    subdirectory := o.subdirectory }
  showsPercent := o.showsPercent

def oneClip : Except Failure Response := .ok ⟨200, .arr [.obj [("name", .str "a")]]⟩

def noTakes : Except Failure Response := .ok ⟨200, .arr []⟩

def idleJob : Except Failure Response := .ok ⟨200, .obj []⟩

def batchAccepted : Except Failure Response := .ok ⟨200, .obj [("code", .int 200)]⟩

def firstLoad (path : String) : List Input :=
  [.openPath path, .begin 0, .beginLeg 0 .clips, .beginLeg 0 .takes,
    .response (.leg 0 .clips) oneClip, .response (.leg 0 .takes) noTakes, .joined 0]

def Input.Closes : Input → Prop
  | .openPath _ => True
  | .close => True
  | _ => False

def Input.IsCall : Input → Prop
  | .openPath _ | .load | .submit | .startPolling | .refresh | .close | .edit _ => True
  | _ => False

theorem Input.Closes.isCall {i : Input} (h : i.Closes) : i.IsCall := by
  cases i with
  | openPath path => trivial
  | close => trivial
  | _ => exact h.elim

/-- A task at its beginning; a poll belongs to the session in which it was created. -/
inductive Task.IsNew (number : Nat) : Task → Prop
  | load : IsNew number (.load .created)
  | submit : IsNew number (.submit .created)
  | refresh : IsNew number (.refresh .created)
  | poll : IsNew number (.poll number false .created)

namespace Control

theorem Fresh.isNew {i : Input} {t : Task} (h : Fresh i t) (number : Nat) : t.IsNew number := by
  cases h
  · exact .load
  · exact .submit
  · exact .refresh

/-! ## Runs as lists of steps -/

theorem run_append (c : Control) (first second : List Input) :
    c.run (first ++ second) =
      (((c.run first).1.run second).1, (c.run first).2 ++ ((c.run first).1.run second).2) := by
  induction first generalizing c with
  | nil => rfl
  | cons i rest ih => simp only [List.cons_append, run, ih, List.append_assoc]

theorem run_singleton (c : Control) (i : Input) :
    c.run [i] = ((c.step i).1, (c.step i).2) := by
  simp [run]

theorem run_concat_fst (c : Control) (inputs : List Input) (i : Input) :
    (c.run (inputs ++ [i])).1 = ((c.run inputs).1.step i).1 := by
  rw [run_append, run_singleton]

theorem run_keeps {P : Control → Prop}
    (hmove : ∀ {c i c' actions}, Move c i c' actions → P c → P c') {c : Control} (h : P c)
    (inputs : List Input) : P (c.run inputs).1 := by
  induction inputs generalizing c with
  | nil => exact h
  | cons i rest ih => exact ih (hmove (move_step c i) h)

/-- What no move does under something that every move keeps is not done in a run. -/
theorem run_avoids {P : Control → Prop} {a : Action}
    (hmove : ∀ {c i c' actions}, Move c i c' actions → P c → P c' ∧ a ∉ actions) {c : Control}
    (h : P c) (inputs : List Input) : a ∉ (c.run inputs).2 := by
  induction inputs generalizing c with
  | nil => exact List.not_mem_nil
  | cons i rest ih =>
      obtain ⟨hkept, hnot⟩ := hmove (move_step c i) h
      intro ha
      rcases List.mem_append.mp ha with hnow | hlater
      · exact hnot hnow
      · exact ih hkept hlater

/-! ## Finding tasks -/

@[simp] theorem task?_setSession (c : Control) (s : Session) (id : TaskId) :
    (c.setSession s).task? id = c.task? id := rfl

@[simp] theorem session_setTask (c : Control) (id : TaskId) (t : Task) :
    (c.setTask id t).session = c.session := rfl

@[simp] theorem session_setSession (c : Control) (s : Session) :
    (c.setSession s).session = s := rfl

theorem task?_setTask_self {c : Control} {id : TaskId} {t : Task} (ht : c.task? id = some t)
    (t' : Task) : (c.setTask id t').task? id = some t' := by
  have hlt : id < c.tasks.length := (List.getElem?_eq_some_iff.mp ht).1
  simp [task?, setTask, hlt]

theorem task?_setTask_of_ne (c : Control) {id j : TaskId} (hj : id ≠ j) (t : Task) :
    (c.setTask id t).task? j = c.task? j := by
  simp [task?, setTask, hj]

theorem task?_spawn_of_some {c : Control} {j : TaskId} {t : Task} (ht : c.task? j = some t)
    (new : Task) : (c.spawn new).1.task? j = some t := by
  have hlt : j < c.tasks.length := (List.getElem?_eq_some_iff.mp ht).1
  simp only [task?, spawn] at ht ⊢
  rw [List.getElem?_append_left hlt, ht]

theorem task?_spawn_of_none {c : Control} {j : TaskId} {t new : Task} (ht : c.task? j = none)
    (hnew : (c.spawn new).1.task? j = some t) : j = c.tasks.length ∧ t = new := by
  have hle : c.tasks.length ≤ j := List.getElem?_eq_none_iff.mp ht
  simp only [task?, spawn] at hnew
  rw [List.getElem?_append_right hle, List.getElem?_singleton] at hnew
  split at hnew
  · rename_i hj
    cases hnew
    exact ⟨Nat.le_antisymm (Nat.sub_eq_zero_iff_le.mp hj) hle, rfl⟩
  · cases hnew

theorem task?_spawn_self (c : Control) (new : Task) :
    (c.spawn new).1.task? c.tasks.length = some new := by
  simp [task?, spawn]

/-! ## Closing and polling -/

/-- The tasks after the session was closed: its poll knows. -/
theorem task?_close (c : Control) (j : TaskId) :
    c.close.1.task? j = if c.poller = some j then (c.task? j).map stopTask else c.task? j := by
  unfold close task?
  cases hp : c.poller with
  | none => simp
  | some p =>
      by_cases hj : p = j
      · simp [hj]
      · simp [hj]

theorem task?_openPath_of_some {c : Control} {path : String} {j : TaskId} {t : Task}
    (ht : c.close.1.task? j = some t) : (c.openPath path).1.task? j = some t :=
  task?_spawn_of_some (c := c.close.1.setSession _) ht _

theorem length_close (c : Control) : c.close.1.tasks.length = c.tasks.length := by
  unfold close
  cases c.poller <;> simp

theorem task?_openPath_self (c : Control) (path : String) :
    (c.openPath path).1.task? c.tasks.length = some (.load .created) := by
  rw [← length_close c]
  exact task?_spawn_self (c.close.1.setSession _) _

/-- `startPolling` hands on the poll that runs, or adds one for the current session. -/
theorem startPolling_cases (c : Control) :
    (∃ p, c.poller = some p ∧ c.isDone p = false ∧ c.startPolling = (c, p, [])) ∨
    c.startPolling =
      ({ (c.spawn (.poll c.session.number false .created)).1 with
          poller := some c.tasks.length },
        c.tasks.length, [.begin c.tasks.length]) := by
  unfold startPolling
  cases hp : c.poller with
  | none => exact Or.inr rfl
  | some p =>
      cases hd : c.isDone p with
      | true => exact Or.inr (by simp [hd]; rfl)
      | false => exact Or.inl ⟨p, rfl, hd, by simp [hd]⟩

/-- Polling starts with the first step of a poll, if with anything. -/
theorem begin_of_mem_startPolling {c : Control} {a : Action} (ha : a ∈ c.startPolling.2.2) :
    a = .begin c.tasks.length := by
  rcases startPolling_cases c with ⟨p, -, -, h⟩ | h
  · rw [h] at ha
    cases ha
  · rw [h] at ha
    exact List.mem_singleton.mp ha

theorem session_startPolling (c : Control) : c.startPolling.1.session = c.session := by
  rcases startPolling_cases c with ⟨p, -, -, h⟩ | h
  · rw [h]
  · rw [h]
    rfl

theorem task?_startPolling_of_some {c : Control} {j : TaskId} {t : Task}
    (ht : c.task? j = some t) : c.startPolling.1.task? j = some t := by
  rcases startPolling_cases c with ⟨p, -, -, h⟩ | h <;> rw [h]
  · exact ht
  · exact task?_spawn_of_some ht _

theorem task?_startPolling_of_none {c : Control} {j : TaskId} {t : Task}
    (ht : c.task? j = none) (hnew : c.startPolling.1.task? j = some t) :
    t = .poll c.session.number false .created := by
  rcases startPolling_cases c with ⟨p, -, -, h⟩ | h <;> rw [h] at hnew
  · rw [ht] at hnew
    cases hnew
  · exact (task?_spawn_of_none ht hnew).2

/-! ## What a move does to a task -/

/-- `Became c i c' actions j t t'`: the move from `c` to `c'` makes `t'` of the task `j`, which was
`t`. -/
inductive Became (c : Control) (i : Input) (c' : Control) (actions : List Action) (j : TaskId) :
    Task → Task → Prop
  | same (t : Task) : Became c i c' actions j t t
  | turned {t t'} (h : Turn c j i t c'.session t' actions) : Became c i c' actions j t t'
  | stopped (t : Task) (hp : c.poller = some j) (hi : i.Closes) :
      Became c i c' actions j t (stopTask t)
  | accepted (poll : TaskId) :
      Became c i c' actions j (.submit .asked) (.submit (.done (.ok poll)))

theorem became_close {c : Control} {i : Input} (hi : i.Closes) (c' : Control)
    (actions : List Action) {j : TaskId} {t : Task} (ht : c.task? j = some t) :
    ∃ t', c.close.1.task? j = some t' ∧ Became c i c' actions j t t' := by
  rw [task?_close, ht]
  by_cases hp : c.poller = some j
  · exact ⟨stopTask t, by simp [hp], .stopped t hp hi⟩
  · exact ⟨t, by simp [hp], .same t⟩

theorem Move.became {c c' : Control} {i : Input} {actions : List Action}
    (h : Move c i c' actions) {j : TaskId} {t : Task} (ht : c.task? j = some t) :
    ∃ t', c'.task? j = some t' ∧ Became c i c' actions j t t' := by
  cases h with
  | opened path =>
      obtain ⟨t', ht', hb⟩ := became_close (i := .openPath path) trivial _ _ ht
      exact ⟨t', task?_openPath_of_some ht', hb⟩
  | closed => exact became_close (i := .close) trivial _ _ ht
  | edited e => exact ⟨t, ht, .same t⟩
  | started hfresh => exact ⟨t, task?_spawn_of_some ht _, .same t⟩
  | polled => exact ⟨t, task?_startPolling_of_some ht, .same t⟩
  | @turned i id u s u' actions hu hturn =>
      by_cases hj : id = j
      · subst hj
        obtain rfl : u = t := Option.some.inj (hu.symm.trans ht)
        exact ⟨u', task?_setTask_self (c := c.setSession s) hu u', .turned hturn⟩
      · exact ⟨t, (task?_setTask_of_ne _ hj u').trans ht, .same t⟩
  | @accepted id r entries hu hr =>
      by_cases hj : id = j
      · subst hj
        obtain rfl : .submit .asked = t := Option.some.inj (hu.symm.trans ht)
        exact ⟨_, task?_setTask_self (task?_startPolling_of_some hu) _, .accepted _⟩
      · exact ⟨t, (task?_setTask_of_ne _ hj _).trans (task?_startPolling_of_some ht), .same t⟩
  | dropped => exact ⟨t, ht, .same t⟩

theorem Move.new {c c' : Control} {i : Input} {actions : List Action}
    (h : Move c i c' actions) {j : TaskId} {t : Task} (hnone : c.task? j = none)
    (ht : c'.task? j = some t) : t.IsNew c.session.number := by
  -- Only a call and an accepted batch add tasks; a turn changes a task that is there.
  cases h with
  | opened path =>
      have hclosed : c.close.1.task? j = none := by rw [task?_close, hnone]; simp
      rw [(task?_spawn_of_none (c := c.close.1.setSession _) hclosed ht).2]
      exact .load
  | closed =>
      rw [task?_close, hnone] at ht
      simp at ht
  | edited e => cases hnone.symm.trans ht
  | started hfresh =>
      rw [(task?_spawn_of_none hnone ht).2]
      exact hfresh.isNew _
  | polled =>
      rw [task?_startPolling_of_none hnone ht]
      exact .poll
  | @turned i id u s u' actions hu hturn =>
      have hj : id ≠ j := by
        rintro rfl
        cases hnone.symm.trans hu
      cases hnone.symm.trans ((task?_setTask_of_ne _ hj u').symm.trans ht)
  | @accepted id r entries hu hr =>
      have hj : id ≠ j := by
        rintro rfl
        cases hnone.symm.trans hu
      rw [task?_startPolling_of_none hnone ((task?_setTask_of_ne _ hj _).symm.trans ht)]
      exact .poll
  | dropped => cases hnone.symm.trans ht

/-- What holds of new tasks and is kept by all that can become of one holds of all tasks. -/
theorem Move.all_tasks {P Q : TaskId → Task → Prop} {c c' : Control} {i : Input}
    {actions : List Action} (h : Move c i c' actions)
    (hnew : ∀ {j t}, t.IsNew c.session.number → Q j t)
    (hkeep : ∀ {j t t'}, Became c i c' actions j t t' → P j t → Q j t')
    (hall : ∀ {j t}, c.task? j = some t → P j t) {j : TaskId} {t : Task}
    (ht : c'.task? j = some t) : Q j t := by
  cases hold : c.task? j with
  | none => exact hnew (h.new hold ht)
  | some t₀ =>
      obtain ⟨t', ht', hb⟩ := h.became hold
      obtain rfl : t' = t := Option.some.inj (ht'.symm.trans ht)
      exact hkeep hb (hall hold)

theorem Turn.not_isDone {c : Control} {id : TaskId} {i : Input} {t t' : Task} {s : Session}
    {actions : List Action} (h : Turn c id i t s t' actions) : t.isDone = false := by
  cases h <;> rfl

theorem Turn.not_closes {c : Control} {id : TaskId} {i : Input} {t t' : Task} {s : Session}
    {actions : List Action} (h : Turn c id i t s t' actions) : ¬ i.Closes := by
  cases h <;> exact not_false

/-! ## What stays in a session -/

/-- A turn changes the list and what is known of the job, and nothing else. -/
theorem Turn.frame {c : Control} {id : TaskId} {i : Input} {t t' : Task} {s : Session}
    {actions : List Action} (h : Turn c id i t s t' actions) : s.frame = c.session.frame := by
  cases h with
  | loadEnds | refreshEnds | pollIdle | pollGoesOn | pollBroken | pollRetries =>
      exact lookSession_frame _ _ _
  | pollGivesUp =>
      split
      · exact lookSession_frame _ _ _
      · exact lookSession_frame _ _ _
  | _ => rfl

theorem Turn.number {c : Control} {id : TaskId} {i : Input} {t t' : Task} {s : Session}
    {actions : List Action} (h : Turn c id i t s t' actions) : s.number = c.session.number := by
  have hnumber := congrArg Session.number h.frame
  exact hnumber

theorem Turn.path {c : Control} {id : TaskId} {i : Input} {t t' : Task} {s : Session}
    {actions : List Action} (h : Turn c id i t s t' actions) : s.path = c.session.path := by
  have hpath := congrArg Session.path h.frame
  exact hpath

/-- What a session is made with for good. -/
def settings (c : Control) : Json × Number × Number × Number :=
  (c.session.scene, c.session.pollInterval, c.session.maxRetries, c.session.maxBackoff)

theorem Move.settings {c c' : Control} {i : Input} {actions : List Action}
    (h : Move c i c' actions) : c'.settings = c.settings := by
  unfold Control.settings
  cases h with
  | polled => rw [session_startPolling]
  | turned ht hturn =>
      have hframe := congrArg
        (fun s : Session => (s.scene, s.pollInterval, s.maxRetries, s.maxBackoff)) hturn.frame
      exact hframe
  | accepted ht hr => rw [session_setTask, session_startPolling]
  | _ => rfl

theorem scene_run (c : Control) (inputs : List Input) :
    (c.run inputs).1.session.scene = c.session.scene :=
  run_keeps (P := fun c' => c'.session.scene = c.session.scene)
    (fun h hc => (congrArg (fun settings => settings.1) h.settings).trans hc) rfl inputs

/-! ## Session numbers -/

theorem Move.number_le {c c' : Control} {i : Input} {actions : List Action}
    (h : Move c i c' actions) : c.session.number ≤ c'.session.number := by
  cases h with
  | opened path => exact Nat.le_succ _
  | closed => exact Nat.le_succ _
  | edited e => exact Nat.le_refl _
  | started hfresh => exact Nat.le_refl _
  | polled => exact Nat.le_of_eq (by rw [session_startPolling])
  | turned ht hturn => exact Nat.le_of_eq hturn.number.symm
  | accepted ht hr => exact Nat.le_of_eq (by rw [session_setTask, session_startPolling])
  | dropped => exact Nat.le_refl _

theorem run_number_le (c : Control) (inputs : List Input) :
    c.session.number ≤ (c.run inputs).1.session.number :=
  run_keeps (P := fun c' => c.session.number ≤ c'.session.number)
    (fun h hle => Nat.le_trans hle h.number_le) (Nat.le_refl _) inputs

/-! ## Moves without the operator -/

/-- Unless the operator calls, one task takes its turn, a batch is accepted, or nothing happens. -/
theorem Move.of_not_call {c c' : Control} {i : Input} {actions : List Action}
    (h : Move c i c' actions) (hi : ¬ i.IsCall) :
    (∃ id t s t', c.task? id = some t ∧ Turn c id i t s t' actions ∧
      c' = (c.setSession s).setTask id t') ∨
    (∃ id r, i = .response (.task id) r ∧ c.task? id = some (.submit .asked)) ∨
    c' = c ∧ actions = [] := by
  cases h with
  | opened | closed | edited | polled => exact absurd trivial hi
  | started hfresh =>
      cases hfresh <;> exact absurd trivial hi
  | turned ht hturn => exact Or.inl ⟨_, _, _, _, ht, hturn, rfl⟩
  | accepted ht hr => exact Or.inr (Or.inl ⟨_, _, rfl, ht⟩)
  | dropped => exact Or.inr (Or.inr ⟨rfl, rfl⟩)

/-! ## Requests of a move -/

theorem not_ask_close (c : Control) (sender : Sender) (q : Query) :
    .ask sender q ∉ c.close.2 := by
  unfold close
  cases c.poller <;> simp

theorem not_ask_startPolling (c : Control) (sender : Sender) (q : Query) :
    .ask sender q ∉ c.startPolling.2.2 := by
  intro ha
  cases begin_of_mem_startPolling ha

/-- A request is sent in the turn of a task. -/
theorem Move.turn_of_ask {c c' : Control} {i : Input} {actions : List Action}
    (h : Move c i c' actions) {sender : Sender} {q : Query} (ha : .ask sender q ∈ actions) :
    ∃ id t s t', c.task? id = some t ∧ Turn c id i t s t' actions ∧
      c' = (c.setSession s).setTask id t' := by
  cases h with
  | opened path =>
      rcases List.mem_append.mp ha with ha | ha
      · exact absurd ha (not_ask_close c sender q)
      · simp at ha
  | closed => exact absurd ha (not_ask_close c sender q)
  | edited e => cases ha
  | started hfresh => simp [start] at ha
  | polled => exact absurd ha (not_ask_startPolling c sender q)
  | turned ht hturn => exact ⟨_, _, _, _, ht, hturn, rfl⟩
  | accepted ht hr =>
      rcases List.mem_append.mp ha with ha | ha
      · exact absurd ha (not_ask_notes _ sender q)
      · exact absurd ha (not_ask_startPolling c sender q)
  | dropped => cases ha

/-- Requests are sent by the task whose turn it is, and the session number stays. -/
theorem Move.asks {c c' : Control} {i : Input} {actions : List Action}
    (h : Move c i c' actions) {sender : Sender} {q : Query} (ha : .ask sender q ∈ actions) :
    ∃ id t', Asks c id sender q t' ∧ c'.task? id = some t' ∧
      c'.session.number = c.session.number := by
  obtain ⟨id, t, s, t', ht, hturn, rfl⟩ := h.turn_of_ask ha
  exact ⟨id, t', hturn.asks ha, task?_setTask_self (c := c.setSession s) ht t', hturn.number⟩

end Control

end CardImport
