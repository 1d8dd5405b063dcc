import CardImport.Proofs.Session.Merge
import CardImport.Session.Control

/-!
# Turns and moves

A turn is what one task does with one input: the session and the stage it leaves behind, and what
it asks for. A move is what a session with its tasks does: it drops the input, one task takes its
turn, or the operator is obeyed. `move_step` says that every step is a move; what holds of all steps
is read off the moves, and no later proof unfolds a step.
-/

namespace CardImport

namespace Control

/-! ## Waiting -/

/-- The stage of a poll that is about to wait. -/
def waitStage (s : Session) (failures : Nat) : PollStage :=
  match pollDelay s failures with
  | .error e => .done (.error (.number e))
  | .ok delay =>
    match checkDelay delay with
    | .error e => .done (.error (.number e))
    | .ok () => .waiting failures

def waitActions (s : Session) (id : TaskId) (failures : Nat) : List Action :=
  match pollDelay s failures with
  | .error _ => []
  | .ok delay => [.wait id delay]

theorem waitPoll_eq (c : Control) (id : TaskId) (session : Nat) (stopped : Bool)
    (failures : Nat) : c.waitPoll id session stopped failures =
      (c.setTask id (.poll session stopped (waitStage c.session failures)),
        waitActions c.session id failures) := by
  unfold waitPoll waitStage waitActions
  cases pollDelay c.session failures with
  | error e => rfl
  | ok delay =>
    simp only
    cases checkDelay delay <;> rfl

/-! ## Looking at the job -/

/-- The session after the answer to a status request that was sent in a session. -/
def lookSession (c : Control) (session : Nat) (r : Except Failure Response) : Session :=
  (c.receiveStatus session r).1.session

def lookActions (c : Control) (session : Nat) (r : Except Failure Response) : List Action :=
  (c.receiveStatus session r).2.1

def lookStatus (c : Control) (session : Nat) (r : Except Failure Response) :
    Except Failure JobStatus :=
  (c.receiveStatus session r).2.2

/-- A merge that went through is reported, and one that did not is not. -/
theorem merge_cases (c : Control) (status : JobStatus) :
    (∃ f, f.isRemote = false ∧
      c.merge status = (c.setSession (c.session.merge status).1, [], .error f)) ∨
    (c.session.merge status).2 = .ok () ∧
      c.merge status = (c.setSession (c.session.merge status).1, [.merged status], .ok ()) := by
  unfold merge
  rcases hm : c.session.merge status with ⟨s, f | _⟩
  · exact Or.inl ⟨f, Session.not_isRemote_merge (congrArg Prod.snd hm), rfl⟩
  · cases hp : c.reportable s.progress with
    | error e => exact Or.inl ⟨.number e, Session.not_isRemote_number e, by simp [hp]⟩
    | ok _ => exact Or.inr ⟨rfl, by simp [hp]⟩

/-- An answer that tells no status leaves the session as it is, and so does one that comes too
late; any other is merged. -/
theorem receiveStatus_cases (c : Control) (session : Nat) (r : Except Failure Response) :
    (∃ f entries, (Job.status.finish r).outcome = (.error f, entries) ∧
      c.receiveStatus session r = (c, notes entries, .error f)) ∨
    (∃ status entries, (Job.status.finish r).outcome = (.ok status, entries) ∧
      session ≠ c.session.number ∧ c.receiveStatus session r = (c, notes entries, .ok status)) ∨
    (∃ status entries, (Job.status.finish r).outcome = (.ok status, entries) ∧
      session = c.session.number ∧ c.receiveStatus session r =
        ((c.merge status).1, notes entries ++ (c.merge status).2.1,
          (c.merge status).2.2.map fun _ => status)) := by
  unfold receiveStatus
  rcases hr : (Job.status.finish r).outcome with ⟨f | status, entries⟩
  · exact Or.inl ⟨f, entries, rfl, rfl⟩
  · by_cases hn : session = c.session.number
    · exact Or.inr (Or.inr ⟨status, entries, rfl, hn, by simp [hn]⟩)
    · exact Or.inr (Or.inl ⟨status, entries, rfl, hn, by simp [hn]⟩)

theorem receiveStatus_eq (c : Control) (session : Nat) (r : Except Failure Response) :
    c.receiveStatus session r =
      (c.setSession (c.lookSession session r), c.lookActions session r,
        c.lookStatus session r) := by
  unfold lookSession lookActions lookStatus
  rcases receiveStatus_cases c session r with ⟨f, entries, -, h⟩ | ⟨status, entries, -, -, h⟩ |
    ⟨status, entries, -, -, h⟩
  · rw [h]
    rfl
  · rw [h]
    rfl
  · rw [h]
    rcases merge_cases c status with ⟨f, -, hm⟩ | ⟨-, hm⟩ <;> rw [hm] <;> rfl

theorem base_lookSession (c : Control) (session : Nat) (r : Except Failure Response) :
    (c.lookSession session r).base = c.session.base := by
  unfold lookSession
  rcases receiveStatus_cases c session r with ⟨f, entries, -, h⟩ | ⟨status, entries, -, -, h⟩ |
    ⟨status, entries, -, -, h⟩
  · rw [h]
  · rw [h]
  · rw [h]
    rcases merge_cases c status with ⟨f, -, hm⟩ | ⟨-, hm⟩ <;> rw [hm] <;>
      exact Session.base_merge c.session status

/-- The status of an older session is not merged. -/
theorem lookSession_of_ne {c : Control} {session : Nat} (hn : session ≠ c.session.number)
    (r : Except Failure Response) : c.lookSession session r = c.session := by
  unfold lookSession
  rcases receiveStatus_cases c session r with ⟨f, entries, -, h⟩ | ⟨status, entries, -, -, h⟩ |
    ⟨status, entries, -, heq, h⟩
  · rw [h]
  · rw [h]
  · exact absurd heq hn

@[simp] theorem lookSession_number (c : Control) (session : Nat) (r : Except Failure Response) :
    (c.lookSession session r).number = c.session.number := by
  have h := congrArg Session.number (base_lookSession c session r)
  exact h

@[simp] theorem lookSession_path (c : Control) (session : Nat) (r : Except Failure Response) :
    (c.lookSession session r).path = c.session.path := by
  have h := congrArg Session.path (base_lookSession c session r)
  exact h

@[simp] theorem lookSession_loading (c : Control) (session : Nat) (r : Except Failure Response) :
    (c.lookSession session r).loading = c.session.loading := by
  have h := congrArg Session.loading (base_lookSession c session r)
  exact h

theorem lookSession_frame (c : Control) (session : Nat) (r : Except Failure Response) :
    (c.lookSession session r).frame = c.session.frame :=
  Session.frame_of_base (base_lookSession c session r)

theorem lookSession_clips (c : Control) (session : Nat) (r : Except Failure Response) :
    (c.lookSession session r).items.map Item.clip = c.session.items.map Item.clip := by
  have h := congrArg (fun s => s.items.map Item.clip) (base_lookSession c session r)
  simpa [Session.base, Item.plain, Function.comp_def] using h

theorem exists_note_of_mem {entries : List Entry} {a : Action} (ha : a ∈ notes entries) :
    ∃ e, a = .note e := by
  obtain ⟨e, -, rfl⟩ := List.mem_map.mp ha
  exact ⟨e, rfl⟩

theorem mem_lookActions {c : Control} {session : Nat} {r : Except Failure Response} {a : Action}
    (ha : a ∈ c.lookActions session r) :
    (∃ e, a = .note e) ∨ ∃ status, a = .merged status := by
  unfold lookActions at ha
  rcases receiveStatus_cases c session r with ⟨f, entries, -, h⟩ | ⟨status, entries, -, -, h⟩ |
    ⟨status, entries, -, -, h⟩
  · rw [h] at ha
    exact Or.inl (exists_note_of_mem ha)
  · rw [h] at ha
    exact Or.inl (exists_note_of_mem ha)
  · rw [h] at ha
    rcases List.mem_append.mp ha with ha | ha
    · exact Or.inl (exists_note_of_mem ha)
    · rcases merge_cases c status with ⟨f, -, hm⟩ | ⟨-, hm⟩ <;> rw [hm] at ha
      · cases ha
      · exact Or.inr ⟨status, List.mem_singleton.mp ha⟩

def loadEnd : Except Failure JobStatus → Except Failure Unit × List Action
  | .ok _ => (.ok (), [])
  | .error f => if f.isRemote then (.ok (), [.note (statusUnknown f)]) else (.error f, [])

theorem endLoad_eq (c : Control) (id : TaskId) (n : Nat) (r : Except Failure Response) :
    c.endLoad id n r =
      ((c.setSession (c.lookSession n r)).setTask id
        (.load (.done (loadEnd (c.lookStatus n r)).1)),
        c.lookActions n r ++ (loadEnd (c.lookStatus n r)).2) := by
  unfold endLoad loadEnd
  rw [receiveStatus_eq]
  cases c.lookStatus n r with
  | ok status => simp
  | error f => cases hf : f.isRemote <;> simp [hf]

/-! ## Turns -/

/-- `Turn c id i t s t' actions`: in `c` the task `id`, which is `t`, takes the input `i`; after
it the session is `s` and the task is `t'`. -/
inductive Turn (c : Control) (id : TaskId) :
    Input → Task → Session → Task → List Action → Prop
  | loadEmpty (hpath : c.session.path = "") :
      Turn c id (.begin id) (.load .created) { c.session.install [] with loading := false }
        (.load (.asking c.session.number)) [.ask (.task id) .status]
  | loadBegins (hpath : c.session.path ≠ "") :
      Turn c id (.begin id) (.load .created) { c.session with loading := true }
        (.load (.listing c.session.number c.session.path .created .created))
        [.beginLeg id .clips, .beginLeg id .takes]
  | clipsAsked {n path takes} :
      Turn c id (.beginLeg id .clips) (.load (.listing n path .created takes)) c.session
        (.load (.listing n path .asked takes)) [.ask (.leg id .clips) (.clips path)]
  | takesAsked {n path clips} :
      Turn c id (.beginLeg id .takes) (.load (.listing n path clips .created)) c.session
        (.load (.listing n path clips .asked)) [.ask (.leg id .takes) .takes]
  | clipsListed {n path takes r clips entries}
      (hclips : ((listClips path).finish r).outcome = (clips, entries)) :
      Turn c id (.response (.leg id .clips) r) (.load (.listing n path .asked takes)) c.session
        (.load (.listing n path (.done clips) takes))
        (notes entries ++ joinIfDone id (.done clips) takes)
  | takesListed {n path clips r takes entries}
      (htakes : (Registry.list.finish r).outcome = (takes, entries)) :
      Turn c id (.response (.leg id .takes) r) (.load (.listing n path clips .asked)) c.session
        (.load (.listing n path clips (.done takes)))
        (notes entries ++ joinIfDone id clips (.done takes))
  | listShown {n path clips takes items entries} (hn : n = c.session.number)
      (hlist : (Reconcile.combine c.session.scene path clips takes).outcome =
        (.ok items, entries)) :
      Turn c id (.joined id) (.load (.listing n path (.done clips) (.done takes)))
        { c.session.install items with loading := false } (.load (.asking c.session.number))
        (notes entries ++ [.ask (.task id) .status])
  | listFailed {n path clips takes f entries} (hn : n = c.session.number)
      (hlist : (Reconcile.combine c.session.scene path clips takes).outcome =
        (.error f, entries)) (hf : isListingFailure f = true) :
      Turn c id (.joined id) (.load (.listing n path (.done clips) (.done takes)))
        { c.session.install [] with loading := false } (.load (.asking c.session.number))
        (notes entries ++ [.note (loadFailed f), .ask (.task id) .status])
  | listDropped {n path clips takes result entries} (hn : n ≠ c.session.number)
      (hlist : (Reconcile.combine c.session.scene path clips takes).outcome =
        (result, entries)) (hf : ∀ f, result = .error f → isListingFailure f = true) :
      Turn c id (.joined id) (.load (.listing n path (.done clips) (.done takes))) c.session
        (.load (.done (.ok ()))) (notes entries)
  | listBroken {n path clips takes f entries}
      (hlist : (Reconcile.combine c.session.scene path clips takes).outcome =
        (.error f, entries)) (hf : isListingFailure f = false) :
      Turn c id (.joined id) (.load (.listing n path (.done clips) (.done takes))) c.session
        (.load (.done (.error f))) (notes entries)
  | loadEnds {n r} :
      Turn c id (.response (.task id) r) (.load (.asking n)) (c.lookSession n r)
        (.load (.done (loadEnd (c.lookStatus n r)).1))
        (c.lookActions n r ++ (loadEnd (c.lookStatus n r)).2)
  | submitSends :
      Turn c id (.begin id) (.submit .created) c.session (.submit .asked)
        (notes (submission c.session).before ++ [.ask (.task id)
          (.submit c.session.path c.session.subdirectory (Items.batch c.session.items))])
  | submitRefused {r f entries} (hr : (Job.acceptance r).outcome = (.error f, entries)) :
      Turn c id (.response (.task id) r) (.submit .asked) c.session
        (.submit (.done (.error f))) (notes entries)
  | refreshAsks :
      Turn c id (.begin id) (.refresh .created) c.session
        (.refresh (.asking c.session.number)) [.ask (.task id) .status]
  | refreshEnds {n r} :
      Turn c id (.response (.task id) r) (.refresh (.asking n)) (c.lookSession n r)
        (.refresh (.done (c.lookStatus n r))) (c.lookActions n r)
  | pollWaits {n stopped} :
      Turn c id (.begin id) (.poll n stopped .created) c.session
        (.poll n stopped (waitStage c.session 0)) (waitActions c.session id 0)
  | pollAsks {n failures} (hn : n = c.session.number) :
      Turn c id (.elapsed id) (.poll n false (.waiting failures)) c.session
        (.poll n false (.asking failures)) [.ask (.task id) .status]
  | pollLeaves {n stopped failures} (hn : stopped = true ∨ n ≠ c.session.number) :
      Turn c id (.elapsed id) (.poll n stopped (.waiting failures)) c.session
        (.poll n stopped (.done (.ok ()))) []
  | pollHalted {n failures} :
      Turn c id (.halted id) (.poll n true (.waiting failures)) c.session
        (.poll n true (.done (.ok ()))) []
  | pollIdle {n stopped failures r status} (hr : c.lookStatus n r = .ok status)
      (hidle : n ≠ c.session.number ∨ (c.lookSession n r).progress.lt (.whole 0) = true) :
      Turn c id (.response (.task id) r) (.poll n stopped (.asking failures)) (c.lookSession n r)
        (.poll n stopped (.done (.ok ()))) (c.lookActions n r)
  | pollGoesOn {n stopped failures r status} (hr : c.lookStatus n r = .ok status)
      (hn : n = c.session.number) (hp : (c.lookSession n r).progress.lt (.whole 0) = false) :
      Turn c id (.response (.task id) r) (.poll n stopped (.asking failures)) (c.lookSession n r)
        (.poll n stopped (waitStage (c.lookSession n r) 0))
        (c.lookActions n r ++ waitActions (c.lookSession n r) id 0)
  | pollBroken {n stopped failures r f} (hr : c.lookStatus n r = .error f)
      (hf : f.isRemote = false) :
      Turn c id (.response (.task id) r) (.poll n stopped (.asking failures)) (c.lookSession n r)
        (.poll n stopped (.done (.error f))) (c.lookActions n r)
  | pollGivesUp {n stopped failures r f} (hr : c.lookStatus n r = .error f)
      (hf : f.isRemote = true) (hlast : isLastFailure (c.lookSession n r) (failures + 1) f = true) :
      Turn c id (.response (.task id) r) (.poll n stopped (.asking failures))
        (if n = c.session.number then (c.lookSession n r).giveUp else c.lookSession n r)
        (.poll n stopped (.done (.ok ())))
        (c.lookActions n r ++ [.note (gaveUp (failures + 1) f)])
  | pollRetries {n stopped failures r f} (hr : c.lookStatus n r = .error f)
      (hf : f.isRemote = true)
      (hlast : isLastFailure (c.lookSession n r) (failures + 1) f = false) :
      Turn c id (.response (.task id) r) (.poll n stopped (.asking failures)) (c.lookSession n r)
        (.poll n stopped (waitStage (c.lookSession n r) (failures + 1)))
        (c.lookActions n r ++
          .note (retrying (failures + 1) (c.lookSession n r).maxRetries f) ::
            waitActions (c.lookSession n r) id (failures + 1))

/-! ## What a turn does -/

/-- What a task may do in a turn. -/
inductive Does (id : TaskId) : Action → Prop
  | notes (entry : Entry) : Does id (.note entry)
  | reports (status : JobStatus) : Does id (.merged status)
  | asks (sender : Sender) (q : Query) : Does id (.ask sender q)
  | beginsLeg (leg : Leg) : Does id (.beginLeg id leg)
  | joins : Does id (.join id)
  | waits (delay : Number) : Does id (.wait id delay)

theorem does_notes (id : TaskId) (entries : List Entry) : ∀ a ∈ notes entries, Does id a := by
  intro a ha
  obtain ⟨e, rfl⟩ := exists_note_of_mem ha
  exact .notes e

theorem does_lookActions (id : TaskId) (c : Control) (n : Nat) (r : Except Failure Response) :
    ∀ a ∈ c.lookActions n r, Does id a := by
  intro a ha
  rcases mem_lookActions ha with ⟨e, rfl⟩ | ⟨status, rfl⟩
  · exact .notes e
  · exact .reports status

theorem does_waitActions (id : TaskId) (s : Session) (failures : Nat) :
    ∀ a ∈ waitActions s id failures, Does id a := by
  unfold waitActions
  cases pollDelay s failures with
  | error e => exact List.forall_mem_nil _
  | ok delay => exact List.forall_mem_singleton.mpr (.waits delay)

theorem does_loadEnd (id : TaskId) (status : Except Failure JobStatus) :
    ∀ a ∈ (loadEnd status).2, Does id a := by
  unfold loadEnd
  cases status with
  | ok status => exact List.forall_mem_nil _
  | error f =>
      dsimp only
      split
      · exact List.forall_mem_singleton.mpr (.notes _)
      · exact List.forall_mem_nil _

theorem does_joinIfDone (id : TaskId) (clips : LegStage (List Clip))
    (takes : LegStage (List Take)) : ∀ a ∈ joinIfDone id clips takes, Does id a := by
  unfold joinIfDone
  split
  · exact List.forall_mem_singleton.mpr .joins
  · exact List.forall_mem_nil _

theorem Turn.does {c : Control} {id : TaskId} {i : Input} {t t' : Task} {s : Session}
    {actions : List Action} (h : Turn c id i t s t' actions) : ∀ a ∈ actions, Does id a := by
  have hask : ∀ sender q, ∀ a ∈ [Action.ask sender q], Does id a := fun sender q =>
    List.forall_mem_singleton.mpr (.asks sender q)
  cases h with
  | loadEmpty | clipsAsked | takesAsked | refreshAsks | pollAsks => exact hask _ _
  | loadBegins =>
      exact List.forall_mem_cons.mpr ⟨.beginsLeg _, List.forall_mem_singleton.mpr (.beginsLeg _)⟩
  | clipsListed | takesListed =>
      exact List.forall_mem_append.mpr ⟨does_notes id _, does_joinIfDone id _ _⟩
  | listShown | submitSends => exact List.forall_mem_append.mpr ⟨does_notes id _, hask _ _⟩
  | listFailed =>
      exact List.forall_mem_append.mpr ⟨does_notes id _, List.forall_mem_cons.mpr
        ⟨.notes _, hask _ _⟩⟩
  | listDropped | listBroken | submitRefused => exact does_notes id _
  | loadEnds =>
      exact List.forall_mem_append.mpr ⟨does_lookActions id c _ _, does_loadEnd id _⟩
  | refreshEnds | pollIdle | pollBroken => exact does_lookActions id c _ _
  | pollWaits => exact does_waitActions id _ _
  | pollLeaves | pollHalted => exact List.forall_mem_nil _
  | pollGoesOn =>
      exact List.forall_mem_append.mpr ⟨does_lookActions id c _ _, does_waitActions id _ _⟩
  | pollGivesUp =>
      exact List.forall_mem_append.mpr ⟨does_lookActions id c _ _,
        List.forall_mem_singleton.mpr (.notes _)⟩
  | pollRetries =>
      exact List.forall_mem_append.mpr ⟨does_lookActions id c _ _, List.forall_mem_cons.mpr
        ⟨.notes _, does_waitActions id _ _⟩⟩

/-! ## Requests of a turn -/

@[simp] theorem not_ask_notes (entries : List Entry) (sender : Sender) (q : Query) :
    .ask sender q ∉ notes entries := by
  intro h
  obtain ⟨e, he⟩ := exists_note_of_mem h
  cases he

@[simp] theorem not_ask_lookActions (c : Control) (n : Nat) (r : Except Failure Response)
    (sender : Sender) (q : Query) : .ask sender q ∉ c.lookActions n r := by
  intro h
  rcases mem_lookActions h with ⟨e, he⟩ | ⟨status, hs⟩
  · cases he
  · cases hs

@[simp] theorem not_ask_waitActions (s : Session) (id : TaskId) (failures : Nat)
    (sender : Sender) (q : Query) : .ask sender q ∉ waitActions s id failures := by
  unfold waitActions
  cases pollDelay s failures <;> simp

@[simp] theorem not_ask_loadEnd (status : Except Failure JobStatus) (sender : Sender)
    (q : Query) : .ask sender q ∉ (loadEnd status).2 := by
  unfold loadEnd
  cases status with
  | ok status => simp
  | error f => cases hf : f.isRemote <;> simp [hf]

@[simp] theorem not_ask_joinIfDone (id : TaskId) (clips : LegStage (List Clip))
    (takes : LegStage (List Take)) (sender : Sender) (q : Query) :
    .ask sender q ∉ joinIfDone id clips takes := by
  unfold joinIfDone
  split <;> simp

inductive Asks (c : Control) (id : TaskId) : Sender → Query → Task → Prop
  | clips {n path takes} :
      Asks c id (.leg id .clips) (.clips path) (.load (.listing n path .asked takes))
  | takes {n path clips} :
      Asks c id (.leg id .takes) .takes (.load (.listing n path clips .asked))
  | load : Asks c id (.task id) .status (.load (.asking c.session.number))
  | submit : Asks c id (.task id)
      (.submit c.session.path c.session.subdirectory (Items.batch c.session.items))
      (.submit .asked)
  | poll {failures} :
      Asks c id (.task id) .status (.poll c.session.number false (.asking failures))
  | refresh : Asks c id (.task id) .status (.refresh (.asking c.session.number))

theorem Turn.asks {c : Control} {id : TaskId} {i : Input} {t t' : Task} {s : Session}
    {actions : List Action} (h : Turn c id i t s t' actions) {sender : Sender} {q : Query}
    (ha : .ask sender q ∈ actions) : Asks c id sender q t' := by
  cases h with
  | clipsAsked =>
      cases List.mem_singleton.mp ha
      exact .clips
  | takesAsked =>
      cases List.mem_singleton.mp ha
      exact .takes
  | loadEmpty | listShown | listFailed =>
      simp only [List.mem_append, not_ask_notes, List.mem_cons, List.not_mem_nil, reduceCtorEq,
        false_or, or_false] at ha
      cases ha
      exact .load
  | submitSends =>
      simp only [List.mem_append, not_ask_notes, List.mem_singleton, false_or] at ha
      cases ha
      exact .submit
  | refreshAsks =>
      cases List.mem_singleton.mp ha
      exact .refresh
  | pollAsks hn =>
      cases List.mem_singleton.mp ha
      rw [hn]
      exact .poll
  | _ => simp at ha

/-! ## Moves -/

inductive Fresh : Input → Task → Prop
  | load : Fresh .load (.load .created)
  | submit : Fresh .submit (.submit .created)
  | refresh : Fresh .refresh (.refresh .created)

/-- What a session with its tasks can do. -/
inductive Move (c : Control) : Input → Control → List Action → Prop
  | opened (path : String) : Move c (.openPath path) (c.openPath path).1 (c.openPath path).2
  | closed : Move c .close c.close.1 c.close.2
  | edited (e : Edit) : Move c (.edit e) (c.setSession (c.session.edit e).1) []
  | started {i t} (h : Fresh i t) : Move c i (c.start t).1 (c.start t).2
  | polled : Move c .startPolling c.startPolling.1 c.startPolling.2.2
  | turned {i id t s t' actions} (ht : c.task? id = some t) (h : Turn c id i t s t' actions) :
      Move c i ((c.setSession s).setTask id t') actions
  | accepted {id r entries} (ht : c.task? id = some (.submit .asked))
      (hr : (Job.acceptance r).outcome = (.ok (), entries)) :
      Move c (.response (.task id) r)
        (c.startPolling.1.setTask id (.submit (.done (.ok c.startPolling.2.1))))
        (notes entries ++ c.startPolling.2.2)
  | dropped {i} : Move c i c []

theorem move_begin (c : Control) (id : TaskId) :
    Move c (.begin id) (c.beginTask id).1 (c.beginTask id).2 := by
  unfold beginTask
  split
  · rename_i ht
    unfold beginLoad
    by_cases hpath : c.session.path = ""
    · simp only [setSession, if_pos hpath]
      exact .turned ht (.loadEmpty hpath)
    · simp only [setSession, if_neg hpath]
      exact .turned ht (.loadBegins hpath)
  · rename_i ht
    exact .turned ht .submitSends
  · rename_i n stopped ht
    rw [waitPoll_eq]
    exact .turned ht .pollWaits
  · rename_i ht
    exact .turned ht .refreshAsks
  · exact .dropped

theorem move_beginLeg (c : Control) (id : TaskId) (leg : Leg) :
    Move c (.beginLeg id leg) (c.beginLeg id leg).1 (c.beginLeg id leg).2 := by
  cases leg with
  | clips =>
      simp only [beginLeg]
      split
      · rename_i ht
        exact .turned ht .clipsAsked
      · exact .dropped
  | takes =>
      simp only [beginLeg]
      split
      · rename_i ht
        exact .turned ht .takesAsked
      · exact .dropped

theorem move_receiveLeg (c : Control) (id : TaskId) (leg : Leg) (r : Except Failure Response) :
    Move c (.response (.leg id leg) r) (c.receiveLeg id r leg).1 (c.receiveLeg id r leg).2 := by
  cases leg with
  | clips =>
      simp only [receiveLeg]
      split
      · rename_i ht
        exact .turned ht (.clipsListed rfl)
      · exact .dropped
  | takes =>
      simp only [receiveLeg]
      split
      · rename_i ht
        exact .turned ht (.takesListed rfl)
      · exact .dropped

theorem move_join (c : Control) (id : TaskId) :
    Move c (.joined id) (c.join id).1 (c.join id).2 := by
  unfold join
  split
  · rename_i n path clips takes ht
    unfold joinLoad
    rcases hlist : (Reconcile.combine c.session.scene path clips takes).outcome with
      ⟨f | items, entries⟩
    -- A listing that failed is shown as an empty list; any other failure ends the load.
    · cases hf : isListingFailure f with
      | false =>
          simp only [hf, Bool.not_false, ite_true]
          exact .turned ht (.listBroken hlist hf)
      | true =>
          by_cases hn : n = c.session.number
          · simp only [hf, Bool.not_true, Bool.false_eq_true, hn, ne_eq, not_true, ite_false]
            exact .turned ht (.listFailed hn hlist hf)
          · simp only [hf, Bool.not_true, Bool.false_eq_true, ne_eq, hn, not_false_iff, ite_true,
              ite_false]
            refine .turned ht (.listDropped hn hlist ?_)
            rintro _ ⟨⟩
            exact hf
    · by_cases hn : n = c.session.number
      · simp only [hn, ne_eq, not_true, ite_false]
        exact .turned ht (.listShown hn hlist)
      · simp only [ne_eq, hn, not_false_iff, ite_true]
        refine .turned ht (.listDropped hn hlist ?_)
        rintro _ ⟨⟩
  · exact .dropped

theorem turn_stepPoll (c : Control) (id : TaskId) (n : Nat) (stopped : Bool) (failures : Nat)
    (r : Except Failure Response) : ∃ s t' actions,
      Turn c id (.response (.task id) r) (.poll n stopped (.asking failures)) s t' actions ∧
        c.stepPoll id n stopped failures r = ((c.setSession s).setTask id t', actions) := by
  unfold stepPoll
  rw [receiveStatus_eq]
  have hs : (c.setSession (c.lookSession n r)).session = c.lookSession n r := rfl
  -- The step decides in this order: what was merged, where a failure came from, how often it did.
  cases hr : c.lookStatus n r with
  | ok status =>
      by_cases hidle :
          n ≠ c.session.number ∨ (c.lookSession n r).progress.lt (.whole 0) = true
      · have hend : (decide (n ≠ (c.lookSession n r).number) ||
            (c.lookSession n r).progress.lt (.whole 0)) = true := by simpa using hidle
        simp only [hs, hend, ite_true]
        exact ⟨_, _, _, .pollIdle hr hidle, rfl⟩
      · have hend : (decide (n ≠ (c.lookSession n r).number) ||
            (c.lookSession n r).progress.lt (.whole 0)) = false := by simpa using hidle
        simp only [not_or, ne_eq, Decidable.not_not, Bool.not_eq_true] at hidle
        simp only [hs, hend, Bool.false_eq_true, ite_false, waitPoll_eq]
        exact ⟨_, _, _, .pollGoesOn hr hidle.1 hidle.2, rfl⟩
  | error f =>
      cases hf : f.isRemote with
      | false =>
          simp only [hf, Bool.not_false, ite_true]
          exact ⟨_, _, _, .pollBroken hr hf, rfl⟩
      | true =>
          cases hlast : isLastFailure (c.lookSession n r) (failures + 1) f with
          | true =>
              simp only [hf, hs, hlast, Bool.not_true, Bool.false_eq_true, ite_true,
                ite_false, lookSession_number]
              exact ⟨_, _, _, .pollGivesUp hr hf hlast, rfl⟩
          | false =>
              simp only [hf, hs, hlast, Bool.not_true, Bool.false_eq_true, ite_false,
                waitPoll_eq]
              exact ⟨_, _, _, .pollRetries hr hf hlast, rfl⟩

theorem move_receive (c : Control) (id : TaskId) (r : Except Failure Response) :
    Move c (.response (.task id) r) (c.receive id r).1 (c.receive id r).2 := by
  unfold receive
  split
  · rename_i n ht
    rw [endLoad_eq]
    exact .turned ht .loadEnds
  · rename_i ht
    unfold endSubmit
    rcases hr : (Job.acceptance r).outcome with ⟨f | _, entries⟩
    · exact .turned ht (.submitRefused hr)
    · exact .accepted ht hr
  · rename_i n stopped failures ht
    obtain ⟨s, t', actions, hturn, hstep⟩ := turn_stepPoll c id n stopped failures r
    rw [hstep]
    exact .turned ht hturn
  · rename_i n ht
    unfold stepRefresh
    rw [receiveStatus_eq]
    exact .turned ht .refreshEnds
  · exact .dropped

theorem move_wake (c : Control) (id : TaskId) :
    Move c (.elapsed id) (c.wake id).1 (c.wake id).2 := by
  unfold wake
  split
  · rename_i n stopped failures ht
    unfold wakePoll
    by_cases hn : stopped = true ∨ n ≠ c.session.number
    · have hleave : (stopped || decide (n ≠ c.session.number)) = true := by simpa using hn
      simp only [hleave, ite_true]
      exact .turned ht (.pollLeaves hn)
    · have hleave : (stopped || decide (n ≠ c.session.number)) = false := by simpa using hn
      simp only [not_or, Bool.not_eq_true, ne_eq, Decidable.not_not] at hn
      obtain ⟨rfl, hn⟩ := hn
      simp only [hleave, Bool.false_eq_true, ite_false]
      exact .turned ht (.pollAsks hn)
  · exact .dropped

theorem move_halt (c : Control) (id : TaskId) :
    Move c (.halted id) (c.haltPoll id).1 (c.haltPoll id).2 := by
  unfold haltPoll
  split
  · rename_i ht
    exact .turned ht .pollHalted
  · exact .dropped

/-- Every step is a move. -/
theorem move_step (c : Control) (i : Input) : Move c i (c.step i).1 (c.step i).2 := by
  cases i with
  | openPath path => exact .opened path
  | load => exact .started .load
  | submit => exact .started .submit
  | startPolling => exact .polled
  | refresh => exact .started .refresh
  | close => exact .closed
  | edit e => exact .edited e
  | begin id => exact move_begin c id
  | beginLeg id leg => exact move_beginLeg c id leg
  | response sender r =>
      cases sender with
      | task id => exact move_receive c id r
      | leg id leg => exact move_receiveLeg c id leg r
  | joined id => exact move_join c id
  | elapsed id => exact move_wake c id
  | halted id => exact move_halt c id

end Control

end CardImport
