import CardImport.Command.Import
import CardImport.Rehearsal.World

/-!
# Steps in a world

A step of a command takes a world to a result and a world. A quiet step asks the server nothing and
leaves the memory of earlier sessions alone; all that a command shows or reads from its files is
quiet.
-/

namespace CardImport.Command

open Network

variable {σ α β : Type}

def runIn (x : Step (StateM (World σ)) α) (w : World σ) : Except Failure α × World σ := x.run.run w

theorem runIn_bind (x : Step (StateM (World σ)) α) (f : α → Step (StateM (World σ)) β)
    (w : World σ) : runIn (x >>= f) w =
      match runIn x w with
      | (.ok a, w') => runIn (f a) w'
      | (.error e, w') => (.error e, w') := by
  have hbind : runIn (x >>= f) w =
      (ExceptT.bindCont f (runIn x w).1 : StateM (World σ) _).run (runIn x w).2 := rfl
  rw [hbind]
  -- The rest of the step depends only on what came of the first part.
  rcases runIn x w with ⟨_ | _, w'⟩ <;> rfl

theorem runIn_bind_of_ok {x : Step (StateM (World σ)) α} {f : α → Step (StateM (World σ)) β}
    {w w' : World σ} {a : α} (h : runIn x w = (.ok a, w')) :
    runIn (x >>= f) w = runIn (f a) w' := by
  rw [runIn_bind, h]

theorem runIn_lift (x : StateM (World σ) α) (w : World σ) :
    runIn (ExceptT.lift x) w = (.ok (x.run w).1, (x.run w).2) := rfl

/-- A bind ends where its first part fails, or goes on with what that came to. -/
theorem runIn_bind_cases {x : Step (StateM (World σ)) α} {f : α → Step (StateM (World σ)) β}
    {w w' : World σ} {r : Except Failure β} (h : runIn (x >>= f) w = (r, w')) :
    (∃ e, runIn x w = (.error e, w') ∧ r = .error e) ∨
      ∃ a w₁, runIn x w = (.ok a, w₁) ∧ runIn (f a) w₁ = (r, w') := by
  rw [runIn_bind] at h
  rcases hx : runIn x w with ⟨e | a, w₁⟩
  · rw [hx] at h
    cases h
    exact Or.inl ⟨e, rfl, rfl⟩
  · rw [hx] at h
    exact Or.inr ⟨a, w₁, rfl, h⟩

theorem runIn_bind_ok {x : Step (StateM (World σ)) α} {f : α → Step (StateM (World σ)) β}
    {w w' : World σ} {b : β} (h : runIn (x >>= f) w = (.ok b, w')) :
    ∃ a w₁, runIn x w = (.ok a, w₁) ∧ runIn (f a) w₁ = (.ok b, w') := by
  rcases runIn_bind_cases h with ⟨e, -, herror⟩ | hok
  · cases herror
  · exact hok

theorem runIn_except (x : Except Failure α) (w : World σ) :
    runIn (liftM x : Step (StateM (World σ)) α) w = (x, w) := by
  cases x <;> rfl

theorem runIn_except_ok {x : Except Failure α} {w w' : World σ} {a : α}
    (h : runIn (liftM x : Step (StateM (World σ)) α) w = (.ok a, w')) : x = .ok a ∧ w' = w := by
  rw [runIn_except] at h
  exact ⟨congrArg Prod.fst h, (congrArg Prod.snd h).symm⟩

/-! ## What steps keep -/

/-- Whether a step leaves what is looked at in a world as it is. -/
def Keeps {γ : Type} (look : World σ → γ) (x : Step (StateM (World σ)) α) : Prop :=
  ∀ w, look (runIn x w).2 = look w

theorem Keeps.bind {γ : Type} (look : World σ → γ) {x : Step (StateM (World σ)) α}
    {f : α → Step (StateM (World σ)) β} (hx : Keeps look x) (hf : ∀ a, Keeps look (f a)) :
    Keeps look (x >>= f) := by
  intro w
  have hw := hx w
  rw [runIn_bind]
  rcases hrun : runIn x w with ⟨e | a, w₁⟩ <;> rw [hrun] at hw
  · exact hw
  · exact (hf a w₁).trans hw

/-! ## Quiet steps -/

/-- What was asked of the server in a world, and what there is of its memory. -/
def held (w : World σ) : List (Request × Reply) × String × Option ByteArray × Bool :=
  (w.replies, w.home, w.memoryFile, w.memoryBlocked)

theorem replies_of_held {w w' : World σ} (h : held w' = held w) : w'.replies = w.replies :=
  congrArg Prod.fst h

/-- A step that asks the server nothing and leaves the memory alone. -/
def Quiet (x : Step (StateM (World σ)) α) : Prop := ∀ w, held (runIn x w).2 = held w

theorem Quiet.held {x : Step (StateM (World σ)) α} (hx : Quiet x) {w w' : World σ}
    {r : Except Failure α} (h : runIn x w = (r, w')) : held w' = held w := by
  have hw := hx w
  rw [h] at hw
  exact hw

theorem Quiet.replies {x : Step (StateM (World σ)) α} (hx : Quiet x) {w w' : World σ}
    {r : Except Failure α} (h : runIn x w = (r, w')) : w'.replies = w.replies :=
  replies_of_held (hx.held h)

theorem quiet_pure (a : α) : Quiet (pure a : Step (StateM (World σ)) α) := fun _ => rfl

theorem quiet_throw (f : Failure) : Quiet (throw f : Step (StateM (World σ)) α) := fun _ => rfl

theorem quiet_except (x : Except Failure α) :
    Quiet (liftM x : Step (StateM (World σ)) α) := by
  intro w
  cases x <;> rfl

theorem Quiet.bind {x : Step (StateM (World σ)) α} {f : α → Step (StateM (World σ)) β}
    (hx : Quiet x) (hf : ∀ a, Quiet (f a)) : Quiet (x >>= f) :=
  Keeps.bind Command.held hx hf

theorem quiet_echo (text : String) : Quiet (echo text : Step (StateM (World σ)) Unit) :=
  fun _ => rfl

/-! ### Styles -/

/-- A world in which the styles of more texts were read, the last first. -/
def reading (texts : List String) (w : World σ) : World σ := { w with styled := texts ++ w.styled }

theorem reading_reading (texts more : List String) (w : World σ) :
    reading more (reading texts w) = reading (more ++ texts) w := by
  unfold reading
  rw [List.append_assoc]

theorem runIn_readMarkup_cons (text : String) (rest : List String) (w : World σ) :
    runIn (readMarkup (text :: rest)) w =
      match w.libraries.fault? text with
      | some message => (.error (.badMarkup message), reading [text] w)
      | none => runIn (readMarkup rest) (reading [text] w) := by
  have hread : runIn (readMarkup (text :: rest)) w = runIn (match w.libraries.fault? text with
      | some message => throw (.badMarkup message)
      | none => readMarkup rest) (reading [text] w) := rfl
  rw [hread]
  cases w.libraries.fault? text <;> rfl

theorem readMarkup_cases (texts : List String) (w : World σ) :
    (∃ text message read, w.libraries.fault? text = some message ∧
      runIn (readMarkup texts) w = (.error (.badMarkup message), reading (text :: read) w)) ∨
    runIn (readMarkup texts) w = (.ok (), reading texts.reverse w) := by
  induction texts generalizing w with
  | nil => exact Or.inr rfl
  | cons text rest ih =>
      rw [runIn_readMarkup_cons]
      cases hfault : w.libraries.fault? text with
      | some message => exact Or.inl ⟨text, message, [], hfault, rfl⟩
      | none =>
          rw [List.reverse_cons]
          rcases ih (reading [text] w) with ⟨bad, message, read, hbad, hrun⟩ | hrun
          · refine Or.inl ⟨bad, message, read ++ [text], hbad, ?_⟩
            exact hrun.trans (by rw [reading_reading]; rfl)
          · exact Or.inr (hrun.trans (by rw [reading_reading]))

/-- Whether the terminal found a fault in the styles of a text that it read. -/
def Faulty (w : World σ) : Prop := ∃ text ∈ w.styled, (w.libraries.fault? text).isSome = true

/-- Whether a run stops at a text whose styles cannot be read. -/
def Stops (ran : Except Failure α × World σ) : Prop :=
  (∃ message, ran.1 = .error (.badMarkup message)) ∧ Faulty ran.2

theorem stops_of_fault {text message : String} {read : List String} {w : World σ}
    (h : w.libraries.fault? text = some message) :
    Stops ((.error (.badMarkup message), reading (text :: read) w) : Except Failure α × World σ) :=
  ⟨⟨message, rfl⟩, text, List.mem_cons_self, Option.isSome_of_eq_some h⟩

theorem Stops.bind {x : Step (StateM (World σ)) α} {f : α → Step (StateM (World σ)) β}
    {w : World σ} (h : Stops (runIn x w)) : Stops (runIn (x >>= f) w) := by
  obtain ⟨⟨message, hmessage⟩, hfaulty⟩ := h
  rw [runIn_bind]
  rcases hrun : runIn x w with ⟨f | a, w₁⟩ <;> rw [hrun] at hmessage hfaulty
  · exact ⟨⟨message, congrArg Except.error (Except.error.inj hmessage)⟩, hfaulty⟩
  · cases hmessage

theorem quiet_readMarkup (texts : List String) :
    Quiet (readMarkup texts : Step (StateM (World σ)) Unit) := by
  intro w
  rcases readMarkup_cases texts w with ⟨_, _, _, -, hrun⟩ | hrun
  · rw [hrun]
    rfl
  · rw [hrun]
    rfl

theorem quiet_emit (event : Event) : Quiet (emit event : Step (StateM (World σ)) Unit) :=
  (quiet_readMarkup _).bind fun _ _ => rfl

/-! ### The record of a world -/

/-- A world without the record of what happened in it. -/
def unseen (w : World σ) : World σ := { w with happened := [], styled := [] }

theorem unseen_noteAll (entries : List Entry) (w : World σ) :
    unseen ((noteAll entries : StateM (World σ) Unit).run w).2 = unseen w := by
  induction entries generalizing w with
  | nil => rfl
  | cons e rest ih => exact ih _

theorem held_of_unseen {w w' : World σ} (h : unseen w = unseen w') : held w = held w' := by
  have hheld := congrArg held h
  exact hheld

theorem replies_of_unseen {w w' : World σ} (h : unseen w = unseen w') : w.replies = w'.replies :=
  replies_of_held (held_of_unseen h)

theorem settle_run {α : Type} (x : Noted α) (w : World σ) :
    (settle x : ExceptT Failure (StateM (World σ)) α).run.run w =
      (x.outcome.1, ((noteAll x.outcome.2 : StateM (World σ) Unit).run w).2) := by
  unfold settle
  rcases x.outcome with ⟨_ | _, entries⟩ <;> rfl

/-- A step that reads a file of the home directory and notes what is wrong with it. -/
def readHome {m : Type → Type} [Monad m] [Console m] (file : HomeFile)
    (load : String → Option ByteArray → Noted α) : Step m α := do
  let home ← ExceptT.lift (Console.home (m := m))
  settle (load home (← ExceptT.lift (Console.readFile (m := m) file)))

/-- Reading a file changes nothing but what happened. -/
theorem runIn_readHome (file : HomeFile) (load : String → Option ByteArray → Noted α)
    (w : World σ) :
    (runIn (readHome file load) w).1 = (load w.home (w.readFile file)).outcome.1 ∧
      unseen (runIn (readHome file load) w).2 = unseen w := by
  have hhome : runIn (ExceptT.lift (Console.home (m := StateM (World σ)))) w =
      (.ok w.home, w) := rfl
  have hfile : runIn (ExceptT.lift (Console.readFile (m := StateM (World σ)) file)) w =
      (.ok (w.readFile file), w) := rfl
  unfold readHome
  rw [runIn_bind_of_ok hhome, runIn_bind_of_ok hfile, runIn, settle_run]
  exact ⟨rfl, unseen_noteAll _ _⟩

theorem quiet_readHome (file : HomeFile) (load : String → Option ByteArray → Noted α) :
    Quiet (readHome file load : Step (StateM (World σ)) α) :=
  fun w => held_of_unseen (runIn_readHome file load w).2

theorem quiet_loadMemory [Json.Nesting] : Quiet (loadMemory : Step (StateM (World σ)) Memory) :=
  quiet_readHome .memory fun home => Memory.load (Memory.filePath home)

theorem runIn_loadMemory [Json.Nesting] (w : World σ) :
    (runIn loadMemory w).1 = (Memory.load (Memory.filePath w.home) w.memoryFile).outcome.1 ∧
      unseen (runIn loadMemory w).2 = unseen w :=
  runIn_readHome .memory (fun home => Memory.load (Memory.filePath home)) w

theorem quiet_tableOf (items : List Item) :
    Quiet (tableOf items : Step (StateM (World σ)) Unit) :=
  (quiet_except _).bind fun _ => quiet_emit _

theorem quiet_showBatch (path : String) (json : Bool) (items : List Item) :
    Quiet (showBatch path json items : Step (StateM (World σ)) Exit) := by
  unfold showBatch
  cases json with
  | true => exact (quiet_echo _).bind fun _ => quiet_pure _
  | false =>
      refine (quiet_tableOf items).bind fun _ => (quiet_except _).bind fun _ => ?_
      exact (quiet_emit _).bind fun _ => quiet_pure _

theorem quiet_forIn {γ : Type} (xs : List γ)
    {f : γ → PUnit → Step (StateM (World σ)) (ForInStep PUnit)} (hf : ∀ x u, Quiet (f x u)) :
    Quiet (forIn xs PUnit.unit f) := by
  induction xs with
  | nil => exact quiet_pure _
  | cons x rest ih =>
      rw [List.forIn_cons]
      refine (hf x _).bind fun step => ?_
      cases step with
      | done u => exact quiet_pure u
      | yield u => exact ih

theorem quiet_showOutcome (path : String) (json : Bool) (s : Session) :
    Quiet (showOutcome path json s : Step (StateM (World σ)) Exit) := by
  unfold showOutcome
  cases json with
  | true => exact (quiet_echo _).bind fun _ => quiet_pure _
  | false =>
      refine (quiet_tableOf _).bind fun _ => ?_
      dsimp only
      split
      · exact (quiet_emit _).bind fun _ => quiet_pure _
      · refine (quiet_emit _).bind fun _ => (quiet_forIn _ fun line _ => ?_).bind fun _ => ?_
        · exact (quiet_emit _).bind fun _ => quiet_pure _
        · exact quiet_pure _

theorem exit_of_showOutcome {path : String} {json : Bool} {s : Session} {w w' : World σ}
    {exit : Exit} (h : runIn (showOutcome path json s) w = (.ok exit, w')) :
    exit = if (s.items.filter (·.state = .error)).isEmpty then success else failed := by
  unfold showOutcome at h
  cases json with
  | true =>
      obtain ⟨_, w₁, -, hexit⟩ := runIn_bind_ok h
      cases hexit
      rfl
  | false =>
      obtain ⟨_, w₁, -, hshown⟩ := runIn_bind_ok h
      dsimp only at hshown
      split at hshown
      · rename_i hempty
        obtain ⟨_, w₂, -, hexit⟩ := runIn_bind_ok hshown
        cases hexit
        rw [if_pos hempty]
      · rename_i hsome
        obtain ⟨_, w₂, -, hlines⟩ := runIn_bind_ok hshown
        obtain ⟨_, w₃, -, hexit⟩ := runIn_bind_ok hlines
        cases hexit
        rw [if_neg hsome]

end CardImport.Command
