import CardImport.Proofs.Command.Endings
import CardImport.Proofs.Unreported
import CardImport.Terminal

/-!
# Steps that show nothing

What an operator gets to see of a command is its standard output and what it shows on the console:
lines, tables and the progress. All that a command does on the way to its report is silent, and the
progress of a session is shown only if the session was begun so, which no input changes.
-/

namespace CardImport

/-- Whether an event shows something on the console; entries of the journal do not. -/
def Event.isShown : Event → Bool
  | .print _ | .blankLine | .table _ | .progressTask .. | .progress .. => true
  | .note _ | .request _ | .wait _ | .merged .. => false

/-- An event that shows nothing has no line on the terminal. -/
theorem Terminal.linesOf_of_not_isShown {e : Event} (h : e.isShown = false) :
    Terminal.linesOf e = [] := by
  cases e <;> first | rfl | cases h

namespace Control

theorem showsPercent_startPolling (c : Control) :
    c.startPolling.1.showsPercent = c.showsPercent := by
  rcases startPolling_cases c with ⟨p, -, -, h⟩ | h
  · rw [h]
  · rw [h]
    rfl

theorem Move.showsPercent {c c' : Control} {i : Input} {actions : List Action}
    (h : Move c i c' actions) : c'.showsPercent = c.showsPercent := by
  cases h with
  | polled => exact showsPercent_startPolling c
  | accepted ht hr => exact showsPercent_startPolling c
  | _ => rfl

theorem showsPercent_step (c : Control) (i : Input) :
    (c.step i).1.showsPercent = c.showsPercent :=
  (move_step c i).showsPercent

end Control

namespace Command

open Network

variable {σ α β : Type} {F G : Failure → Prop}

/-- What was shown on the console of a world, the last first. -/
def shown (w : World σ) : List Event := w.happened.filter Event.isShown

/-- What an operator gets to see of a world. -/
def view (w : World σ) : String × List Event := (w.output, shown w)

theorem view_record {event : Event} (h : event.isShown = false) (w : World σ) :
    view (w.record event) = view w := by
  have hshown : shown (w.record event) = shown w := List.filter_cons_of_neg (by simp [h])
  exact congrArg (w.output, ·) hshown

theorem view_exchange (r : Request) (w : World σ) : view (World.exchange r w).2 = view w := by
  unfold World.exchange
  split
  · rfl
  · exact view_record rfl _

theorem view_noteAll (entries : List Entry) (w : World σ) :
    view ((noteAll entries : StateM (World σ) Unit).run w).2 = view w := by
  induction entries generalizing w with
  | nil => rfl
  | cons entry rest ih => exact (ih _).trans (view_record rfl w)

/-! ## Silent steps -/

/-- Whether a step shows nothing, and fails in no other ways than those of `F`. -/
structure Silent (F : Failure → Prop) (x : Step (StateM (World σ)) α) : Prop where
  view : Keeps view x
  fails : ∀ w, FailsAs F (runIn x w).1

theorem silent_except {x : Except Failure α} (h : FailsAs F x) :
    Silent F (liftM x : Step (StateM (World σ)) α) := by
  constructor <;> intro w <;> rw [runIn_except]
  exact h

theorem silent_lift {x : StateM (World σ) α} (h : ∀ w, Command.view (x.run w).2 = Command.view w) :
    Silent F (ExceptT.lift x) :=
  ⟨h, fun _ => failsAs_ok _⟩

theorem silent_settle {x : Noted α} (h : Noted.FailsAs F x) :
    Silent F (settle x : Step (StateM (World σ)) α) := by
  constructor <;> intro w <;> unfold runIn <;> rw [settle_run]
  · exact view_noteAll _ w
  · exact h.outcome

/-- An attempt shows nothing if what it runs does not, and it does not fail. -/
theorem Silent.attempt {x : Step (StateM (World σ)) α} (h : Silent G x) :
    Silent F (Network.attempt x) :=
  ⟨h.view, fun _ => failsAs_ok _⟩

theorem Silent.bind {x : Step (StateM (World σ)) α} {f : α → Step (StateM (World σ)) β}
    (hx : Silent F x) (hf : ∀ a, Silent F (f a)) : Silent F (x >>= f) := by
  refine ⟨Keeps.bind Command.view hx.view fun a => (hf a).view, fun w => ?_⟩
  have hfails := hx.fails w
  rw [runIn_bind]
  rcases hrun : runIn x w with ⟨e | a, w₁⟩ <;> rw [hrun] at hfails
  · exact FailsAs.error (hfails e rfl)
  · exact (hf a).fails w₁

theorem silent_perform (e : Endpoint) (c : Call α) :
    Silent (fun _ => True) (perform e c : Step (StateM (World σ)) α) := by
  have hany : ∀ {γ : Type} (x : Noted γ), Noted.FailsAs (fun _ => True) x := fun _ _ _ _ => trivial
  unfold perform
  refine (silent_lift fun w => view_noteAll _ w).bind fun _ => ?_
  refine (silent_lift fun w => view_exchange _ w).bind fun answer => ?_
  exact (silent_settle (hany _)).attempt.bind fun response => silent_settle (hany _)

theorem silent_readHome (file : HomeFile) {load : String → Option ByteArray → Noted α}
    (h : ∀ home bytes, Noted.FailsAs F (load home bytes)) :
    Silent F (readHome file load : Step (StateM (World σ)) α) := by
  unfold readHome
  refine (silent_lift fun _ => rfl).bind fun home => (silent_lift fun _ => rfl).bind fun bytes => ?_
  exact silent_settle (h home bytes)

theorem silent_loadSettings [Json.Nesting] :
    Silent Unreported (loadSettings : Step (StateM (World σ)) Settings) :=
  silent_readHome .settings fun home => Settings.failsAs_load (Settings.filePath home)

theorem silent_loadMemory [Json.Nesting] :
    Silent Unreported (loadMemory : Step (StateM (World σ)) Memory) :=
  silent_readHome .memory fun home => Memory.failsAs_load (Memory.filePath home)

/-! ## Following a session -/

theorem view_askServer (e : Endpoint) (q : Query) (w : World σ) :
    view ((askServer e q : StateM (World σ) _).run w).2 = view w := by
  let answer := reply w (q.request e)
  have hrun : (askServer e q : StateM (World σ) _).run w =
      (settle (Exchange.receive (q.request e) answer) :
        ExceptT Failure (StateM (World σ)) Response).run.run
          (World.exchange (q.request e) w).2 := rfl
  rw [hrun, settle_run]
  exact (view_noteAll _ _).trans (view_exchange _ w)

theorem view_remember (r : Running) (path : String) (w : World σ) :
    view ((remember r path : StateM (World σ) Running).run w).2 = view w := by
  rcases w with ⟨serve, server, libraries, home, settings, memory, blocked⟩
  cases blocked <;> rfl

theorem Acts.showsPercent {e : Endpoint} {r r' : Running} {a : Action} {rest actions : List Action}
    {w w' : World σ} (h : Acts e r rest w a r' actions w') :
    r'.control.showsPercent = r.control.showsPercent := by
  cases h with
  | ask sender q => exact Control.showsPercent_step _ _
  | input hi => exact Control.showsPercent_step _ _
  | _ => rfl

/-- An action shows nothing, unless it is the report of a merge and the progress is shown. -/
theorem Acts.view {e : Endpoint} {r r' : Running} {a : Action} {rest actions : List Action}
    {w w' : World σ} (h : Acts e r rest w a r' actions w')
    (hshows : r.control.showsPercent = false) : view w' = view w := by
  cases h with
  | note entry => exact view_record rfl w
  | merged status => rw [showing, hshows, if_neg Bool.false_ne_true]
  | remember path => exact view_remember r path w
  | ask sender q => exact view_askServer e q w
  | input hi =>
      cases a with
      | wait id delay => exact view_record rfl w
      | begin id =>
          unfold entering
          dsimp only
          split <;> rfl
      | _ => rfl

/-- Following a session shows nothing, unless the session shows its progress, and leaves it as it
is whether it does. -/
theorem reaches_unshown {r : Running} (h : r.control.showsPercent = false) (e : Endpoint)
    (limit : Nat) (i : Input) (w : World σ) :
    Reaches (fun r' _ w' => r'.control.showsPercent = false ∧ view w' = view w)
      (runIn (feed e limit r i) w) :=
  follow_preserves (fun hacts ⟨hshows, hview⟩ =>
      ⟨hacts.showsPercent.trans hshows, (hacts.view hshows).trans hview⟩)
    (fun _ h => h) limit (r := { r with control := (r.control.step i).1 }) _
    ⟨(r.control.showsPercent_step i).trans h, rfl⟩

theorem silent_feed {r : Running} (h : r.control.showsPercent = false) (e : Endpoint) (limit : Nat)
    (i : Input) :
    Silent (fun _ => True) (feed e limit r i : Step (StateM (World σ)) Running) where
  view w := by
    obtain ⟨_, _, ⟨-, hview⟩, -⟩ := reaches_unshown h e limit i w
    exact hview
  fails _ _ _ := trivial

theorem showsPercent_feed {r r' : Running} (h : r.control.showsPercent = false) {e : Endpoint}
    {limit : Nat} {i : Input} {w w' : World σ}
    (hfeed : runIn (feed e limit r i) w = (.ok r', w')) : r'.control.showsPercent = false := by
  have hreaches := reaches_unshown h e limit i w
  rw [hfeed] at hreaches
  exact hreaches.of_ok.1

end Command

end CardImport
