import CardImport.Proofs.Command.Quiet
import CardImport.Proofs.Exchange
import CardImport.Proofs.Session.Run

/-!
# Following a session

A command does what its session asks for, one action after the other. All that this does to the
session is to give it inputs; all that the server sees of it are the requests in the order in which
they were sent. `Acts` says what one action comes to, and `follow_preserves` is the induction over
the actions, done once.
-/

namespace CardImport.Command

open Network

variable {σ : Type}

/-! ## Requests -/

def reply (w : World σ) (r : Request) : Reply := (World.exchange r w).1

theorem replies_exchange (r : Request) (w : World σ) :
    (World.exchange r w).2.replies = (r, reply w r) :: w.replies := by
  unfold reply World.exchange
  cases w.libraries.refusal? r <;> rfl

/-- What a task gets of a reply. -/
def received (r : Request) (answer : Reply) : Except Failure Response :=
  (Exchange.receive r answer).outcome.1

theorem received_answer (r : Request) (status : Int) (body : Body) :
    received r (.answer status body) = body.data.map (Response.mk status) :=
  Exchange.outcome_receive_answer r status body

theorem askServer_run (e : Endpoint) (q : Query) (w : World σ) :
    ((askServer e q : StateM (World σ) _).run w).1 =
        received (q.request e) (reply w (q.request e)) ∧
      unseen ((askServer e q : StateM (World σ) _).run w).2 =
        unseen (World.exchange (q.request e) w).2 := by
  have hrun : (askServer e q : StateM (World σ) _).run w =
      (settle (Exchange.receive (q.request e) (reply w (q.request e))) :
        ExceptT Failure (StateM (World σ)) Response).run.run
          (World.exchange (q.request e) w).2 := rfl
  rw [hrun, settle_run]
  exact ⟨rfl, unseen_noteAll _ _⟩

theorem remember_run (r : Running) (path : String) (w : World σ) :
    ((remember r path : StateM (World σ) Running).run w).1 =
        { r with memory := r.memory.setLastPath path } ∧
      unseen ((remember r path : StateM (World σ) Running).run w).2 =
        unseen (World.writeFile .memory (r.memory.setLastPath path).fileText w).2 := by
  -- Whether the file can be written is a field of the world.
  rcases w with ⟨serve, server, libraries, home, settings, memory, blocked⟩
  cases blocked <;> exact ⟨rfl, rfl⟩

theorem replies_writeFile (text : String) (w : World σ) :
    (World.writeFile .memory text w).2.replies = w.replies := by
  unfold World.writeFile
  cases w.memoryBlocked <;> rfl

theorem output_writeFile (text : String) (w : World σ) :
    (World.writeFile .memory text w).2.output = w.output := by
  unfold World.writeFile
  cases w.memoryBlocked <;> rfl

theorem output_exchange (r : Request) (w : World σ) :
    (World.exchange r w).2.output = w.output := by
  unfold World.exchange
  cases w.libraries.refusal? r <;> rfl

/-! ## Actions -/

/-- The input that an action brings about at once. -/
def input? : Action → Option Input
  | .begin id => some (.begin id)
  | .beginLeg id leg => some (.beginLeg id leg)
  | .join id => some (.joined id)
  | .wait id _ => some (.elapsed id)
  | .halt id => some (.halted id)
  | _ => none

theorem not_isCall_of_input? {a : Action} {i : Input} (h : input? a = some i) : ¬ i.IsCall := by
  cases a <;> cases h <;> exact id

theorem not_response_of_input? {a : Action} {i : Input} (h : input? a = some i) :
    ∀ sender r, i ≠ .response sender r := by
  cases a <;> cases h <;> rintro _ _ ⟨⟩

def query? : Action → Option (Sender × Query)
  | .ask sender q => some (sender, q)
  | _ => none

def answered (e : Endpoint) (sender : Sender) (q : Query) (answer : Reply) : Input :=
  .response sender (received (q.request e) answer)

/-! ## Following an action -/

section

variable (e : Endpoint) (fuel : Nat) (r : Running) (rest : List Action) (w : World σ)

theorem follow_nil : runIn (follow e fuel r []) w = (.ok r, w) := by
  cases fuel <;> rfl

theorem follow_zero (a : Action) :
    runIn (follow e 0 r (a :: rest)) w = (.error .unfinished, w) := rfl

theorem follow_ask (sender : Sender) (q : Query) :
    runIn (follow e (fuel + 1) r (.ask sender q :: rest)) w =
      runIn (follow e fuel
        { r with control := (r.control.step (answered e sender q (reply w (q.request e)))).1 }
        ((r.control.step (answered e sender q (reply w (q.request e)))).2 ++ rest))
          ((askServer e q : StateM (World σ) _).run w).2 := by
  rw [answered, ← (askServer_run e q w).1]
  rfl

theorem follow_remember (path : String) :
    runIn (follow e (fuel + 1) r (.remember path :: rest)) w =
      runIn (follow e fuel { r with memory := r.memory.setLastPath path } rest)
        ((remember r path : StateM (World σ) Running).run w).2 := by
  rw [← (remember_run r path w).1]
  rfl

/-- The world after a merge was reported: the progress is shown if the session shows it. -/
def showing (status : JobStatus) : World σ :=
  if r.control.showsPercent then w.record (progressEvent r.control.session status) else w

theorem unseen_showing (status : JobStatus) : unseen (showing r w status) = unseen w := by
  unfold showing
  split <;> rfl

theorem follow_merged (status : JobStatus) :
    runIn (follow e (fuel + 1) r (.merged status :: rest)) w =
      runIn (follow e fuel { r with described := description status } rest)
        (showing r w status) := by
  have hstep : runIn (follow e (fuel + 1) r (.merged status :: rest)) w =
      runIn (if r.control.showsPercent then
        ExceptT.lift (Console.emit (progressEvent r.control.session status)) >>= fun _ =>
          follow e fuel { r with described := description status } rest
      else follow e fuel { r with described := description status } rest) w := rfl
  rw [hstep, showing]
  split <;> rfl

/-- The world in which an action brings about its input: a wait was noted before, and where a poll
begins to be shown its label was read. -/
def entering : Action → World σ
  | .wait _ delay => w.record (.wait delay)
  | .begin id => if r.showsFrom id then reading [r.label] w else w
  | _ => w

theorem unseen_entering (a : Action) : unseen (entering r w a) = unseen w := by
  cases a with
  | begin id =>
      show unseen (if r.showsFrom id then reading [r.label] w else w) = unseen w
      split <;> rfl
  | _ => rfl

/-- A poll begins once its label was read, if it is shown. -/
theorem follow_begin (id : TaskId) :
    runIn (follow e (fuel + 1) r (.begin id :: rest)) w =
      runIn ((if r.showsFrom id then readLabel r else pure ()) >>= fun _ => follow e fuel
        { r with control := (r.control.step (.begin id)).1 }
        ((r.control.step (.begin id)).2 ++ rest)) w := by
  have hstep : runIn (follow e (fuel + 1) r (.begin id :: rest)) w =
      runIn (if r.showsFrom id then readLabel r >>= fun _ => follow e fuel
          { r with control := (r.control.step (.begin id)).1 }
          ((r.control.step (.begin id)).2 ++ rest)
        else follow e fuel { r with control := (r.control.step (.begin id)).1 }
          ((r.control.step (.begin id)).2 ++ rest)) w := rfl
  rw [hstep]
  split <;> rfl

theorem runIn_readLabel :
    runIn (readLabel r) w = match w.libraries.fault? r.label with
      | some message => (.error (.badMarkup message), reading [r.label] w)
      | none => (.ok (), reading [r.label] w) :=
  runIn_readMarkup_cons r.label [] w

/-- What an action comes to: how the session goes on, what is left to do then, and in which
world. -/
inductive Acts : Action → Running → List Action → World σ → Prop
  | note (entry : Entry) : Acts (.note entry) r rest (w.record (.note entry))
  | merged (status : JobStatus) :
      Acts (.merged status) { r with described := description status } rest (showing r w status)
  | remember (path : String) :
      Acts (.remember path) { r with memory := r.memory.setLastPath path } rest
        ((remember r path : StateM (World σ) Running).run w).2
  | ask (sender : Sender) (q : Query) :
      Acts (.ask sender q)
        { r with control := (r.control.step (answered e sender q (reply w (q.request e)))).1 }
        ((r.control.step (answered e sender q (reply w (q.request e)))).2 ++ rest)
        ((askServer e q : StateM (World σ) _).run w).2
  | input {a : Action} {i : Input} (hi : input? a = some i) :
      Acts a { r with control := (r.control.step i).1 } ((r.control.step i).2 ++ rest)
        (entering r w a)

/-- Whether an action cannot be done: it is the first step of a poll whose label cannot be read. -/
inductive Breaks : Action → Failure → Prop
  | begin {id : TaskId} {message : String} (hshows : r.showsFrom id = true)
      (hfault : w.libraries.fault? r.label = some message) :
      Breaks (.begin id) (.badMarkup message)

theorem Breaks.stops {r : Running} {w : World σ} {a : Action} {f : Failure}
    (h : Breaks r w a f) :
    Stops ((.error f, reading [r.label] w) : Except Failure Running × World σ) := by
  cases h with
  | begin hshows hfault => exact stops_of_fault hfault

/-- Following a session does the first action, and then what is left, unless the action cannot be
done. How many more actions may follow makes no difference to that. -/
theorem follow_acts (a : Action) :
    (∃ f, Breaks r w a f ∧ ∀ fuel, runIn (follow e (fuel + 1) r (a :: rest)) w =
      (.error f, reading [r.label] w)) ∨
    ∃ r' actions w', Acts e r rest w a r' actions w' ∧ ∀ fuel,
      runIn (follow e (fuel + 1) r (a :: rest)) w = runIn (follow e fuel r' actions) w' := by
  cases a with
  | note entry => exact Or.inr ⟨_, _, _, .note entry, fun _ => rfl⟩
  | ask sender q =>
      exact Or.inr ⟨_, _, _, .ask sender q, fun fuel => follow_ask e fuel r rest w sender q⟩
  | begin id =>
      have hread := runIn_readLabel r w
      by_cases hshows : r.showsFrom id = true
      · cases hfault : w.libraries.fault? r.label with
        | some message =>
            rw [hfault] at hread
            refine Or.inl ⟨_, .begin hshows hfault, fun fuel => ?_⟩
            rw [follow_begin, if_pos hshows, runIn_bind, hread]
        | none =>
            rw [hfault] at hread
            refine Or.inr ⟨_, _, _, .input (i := .begin id) rfl, fun fuel => ?_⟩
            rw [follow_begin, if_pos hshows, runIn_bind_of_ok hread, entering, if_pos hshows]
      · refine Or.inr ⟨_, _, _, .input (i := .begin id) rfl, fun fuel => ?_⟩
        rw [follow_begin, if_neg hshows, entering, if_neg hshows]
        rfl
  | beginLeg id leg => exact Or.inr ⟨_, _, _, .input (i := .beginLeg id leg) rfl, fun _ => rfl⟩
  | join id => exact Or.inr ⟨_, _, _, .input (i := .joined id) rfl, fun _ => rfl⟩
  | wait id delay => exact Or.inr ⟨_, _, _, .input (i := .elapsed id) rfl, fun _ => rfl⟩
  | halt id => exact Or.inr ⟨_, _, _, .input (i := .halted id) rfl, fun _ => rfl⟩
  | remember path =>
      exact Or.inr ⟨_, _, _, .remember path, fun fuel => follow_remember e fuel r rest w path⟩
  | merged status =>
      exact Or.inr ⟨_, _, _, .merged status, fun fuel => follow_merged e fuel r rest w status⟩

end

/-! ## What every action keeps -/

/-- Whether `P` holds of how far a session was followed: to the end if that came to a value. -/
def Reaches (P : Running → List Action → World σ → Prop)
    (ran : Except Failure Running × World σ) : Prop :=
  ∃ r rest, P r rest ran.2 ∧ ∀ r', ran.1 = .ok r' → r' = r ∧ rest = []

theorem reaches_ok {P : Running → List Action → World σ → Prop} {r : Running} {w : World σ}
    (h : P r [] w) : Reaches P (.ok r, w) :=
  ⟨r, [], h, fun _ hr => ⟨(Except.ok.inj hr).symm, rfl⟩⟩

theorem reaches_error {P : Running → List Action → World σ → Prop} {r : Running}
    {rest : List Action} {w : World σ} (h : P r rest w) (f : Failure) :
    Reaches P (.error f, w) := by
  refine ⟨r, rest, h, fun r' hr => ?_⟩
  cases hr

theorem Reaches.of_ok {P : Running → List Action → World σ → Prop} {r : Running} {w : World σ}
    (h : Reaches P (.ok r, w)) : P r [] w := by
  obtain ⟨r', rest, hP, hend⟩ := h
  obtain ⟨rfl, rfl⟩ := hend r rfl
  exact hP

/-- What no action undoes, and no reading of styles, holds when the actions have been followed. -/
theorem follow_preserves {e : Endpoint} {P : Running → List Action → World σ → Prop}
    (hacts : ∀ {r a rest w r' actions w'}, Acts e r rest w a r' actions w' →
      P r (a :: rest) w → P r' actions w')
    (hreading : ∀ {r actions w} texts, P r actions w → P r actions (reading texts w))
    (fuel : Nat) {r : Running} (actions : List Action) {w : World σ} (h : P r actions w) :
    Reaches P (runIn (follow e fuel r actions) w) := by
  induction fuel generalizing r actions w with
  | zero =>
      cases actions with
      | nil =>
          rw [follow_nil]
          exact reaches_ok h
      | cons a rest =>
          rw [follow_zero]
          exact reaches_error h _
  | succ fuel ih =>
      cases actions with
      | nil =>
          rw [follow_nil]
          exact reaches_ok h
      | cons a rest =>
          rcases follow_acts e r rest w a with ⟨f, -, hfollow⟩ | ⟨r', actions', w', hact, hfollow⟩
          · rw [hfollow]
            exact reaches_error (hreading _ h) f
          · rw [hfollow]
            exact ih actions' (hacts hact h)

/-- Whether every action keeps `P`, which is about the session, the actions that are left, and the
replies so far. -/
structure Kept (e : Endpoint) (P : Control → List Action → List (Request × Reply) → Prop) :
    Prop where
  skip : ∀ {c a rest replies}, input? a = none → query? a = none →
    P c (a :: rest) replies → P c rest replies
  input : ∀ {c a i rest replies}, input? a = some i →
    P c (a :: rest) replies → P (c.step i).1 ((c.step i).2 ++ rest) replies
  ask : ∀ {c sender q rest replies} (answer : Reply), P c (.ask sender q :: rest) replies →
    P (c.step (answered e sender q answer)).1 ((c.step (answered e sender q answer)).2 ++ rest)
      ((q.request e, answer) :: replies)

variable {P : Control → List Action → List (Request × Reply) → Prop} {e : Endpoint}

theorem replies_askServer (e : Endpoint) (q : Query) (w : World σ) :
    ((askServer e q : StateM (World σ) _).run w).2.replies =
      (q.request e, reply w (q.request e)) :: w.replies :=
  (replies_of_unseen (askServer_run e q w).2).trans (replies_exchange (q.request e) w)

theorem replies_remember (r : Running) (path : String) (w : World σ) :
    ((remember r path : StateM (World σ) Running).run w).2.replies = w.replies :=
  (replies_of_unseen (remember_run r path w).2).trans (replies_writeFile _ w)

theorem Acts.kept (hP : Kept e P) {r r' : Running} {a : Action} {rest actions : List Action}
    {w w' : World σ} (h : Acts e r rest w a r' actions w')
    (hr : P r.control (a :: rest) w.replies) : P r'.control actions w'.replies := by
  cases h with
  | note entry => exact hP.skip rfl rfl hr
  | merged status =>
      rw [replies_of_unseen (unseen_showing r w status)]
      exact hP.skip rfl rfl hr
  | remember path =>
      rw [replies_remember]
      exact hP.skip rfl rfl hr
  | ask sender q =>
      rw [replies_askServer]
      exact hP.ask _ hr
  | input hi =>
      rw [replies_of_unseen (unseen_entering r w a)]
      exact hP.input hi hr

theorem Acts.replies {r r' : Running} {a : Action} {rest actions : List Action}
    {w w' : World σ} (h : Acts e r rest w a r' actions w') :
    ∃ new, w'.replies = new ++ w.replies := by
  cases h with
  | note entry => exact ⟨[], rfl⟩
  | merged status => exact ⟨[], replies_of_unseen (unseen_showing r w status)⟩
  | remember path => exact ⟨[], replies_remember r path w⟩
  | ask sender q => exact ⟨[_], replies_askServer e q w⟩
  | input hi => exact ⟨[], replies_of_unseen (unseen_entering r w a)⟩

/-- What every action keeps holds when the actions have been followed. -/
theorem follow_keeps (hP : Kept e P) (fuel : Nat) {r : Running} {actions : List Action}
    {w : World σ} (h : P r.control actions w.replies) :
    Reaches (fun r actions w => P r.control actions w.replies)
      (runIn (follow e fuel r actions) w) :=
  follow_preserves (P := fun r actions w => P r.control actions w.replies)
    (fun hacts => hacts.kept hP) (fun _ h => h) fuel actions h

end CardImport.Command
