import CardImport.Proofs.Command.JobAndTakes
import CardImport.Proofs.Command.Orders
import CardImport.Proofs.Command.Remembering
import CardImport.Proofs.Recall

/-!
# The path of an earlier import

Of all errands only imports touch the memory, and they remember the path whose clips they ask for.
So the memory of a home directory where it can be written has the path that was opened last,
whatever was run since, and an import without a path is an import of that one.
-/

namespace CardImport.Command

open Control Network

variable {σ α β : Type}

/-! ## Steps that open no path -/

/-- What there is of the memory in a world, and the paths whose clips were asked for. -/
def recollection (w : World σ) : (String × Option ByteArray × Bool) × List String :=
  (shelf w, listedPaths w.replies)

theorem recollection_of_held {w w' : World σ} (h : held w' = held w) :
    recollection w' = recollection w := by
  rw [recollection, recollection, shelf_of_held h, replies_of_held h]

/-- A step that leaves the memory alone and asks for no clips. -/
def Steady (x : Step (StateM (World σ)) α) : Prop :=
  ∀ w, recollection (runIn x w).2 = recollection w

theorem Quiet.steady {x : Step (StateM (World σ)) α} (hx : Quiet x) : Steady x :=
  fun w => recollection_of_held (hx w)

theorem Steady.bind {x : Step (StateM (World σ)) α} {f : α → Step (StateM (World σ)) β}
    (hx : Steady x) (hf : ∀ a, Steady (f a)) : Steady (x >>= f) :=
  Keeps.bind recollection hx hf

theorem steady_except_bind {x : Except Failure α} {f : α → Step (StateM (World σ)) β}
    (hf : ∀ a, x = .ok a → Steady (f a)) :
    Steady ((liftM x : Step (StateM (World σ)) α) >>= f) := by
  intro w
  rw [runIn_bind, runIn_except]
  cases x with
  | error e => rfl
  | ok a => exact hf a rfl w

theorem steady_ite {c : Prop} [Decidable c] {x y : Step (StateM (World σ)) α} (hx : Steady x)
    (hy : Steady y) : Steady (if c then x else y) := by
  split
  · exact hx
  · exact hy

theorem steady_perform (e : Endpoint) {c : Call α} (hc : c.params = .null) :
    Steady (perform e c : Step (StateM (World σ)) α) := by
  intro w
  have hnone : listedPath? (c.request e) = none := by
    rw [listedPath?, Call.request, hc]
  have hworld := (perform_run e c w).2
  have hlisted : listedPaths (runIn (perform e c) w).2.replies = listedPaths w.replies := by
    rw [replies_perform]
    exact List.filterMap_cons_none hnone
  rw [recollection, shelf_of_unseen hworld, shelf_exchange, hlisted]
  rfl

theorem steady_reported (json : Bool) {x : Step (StateM (World σ)) α}
    {next : α → Step (StateM (World σ)) Exit} (hx : Steady x) (hnext : ∀ a, Steady (next a)) :
    Steady (reported json x next) := by
  intro w
  rw [reported, runIn_attempt]
  cases (runIn x w).1 with
  | ok a => exact (hnext a _).trans (hx w)
  | error f => exact ((quiet_refuse json f).steady _).trans (hx w)

/-! ## The commands on the job and on takes -/

theorem steady_statusCommand (e : Endpoint) (json : Bool) :
    Steady (statusCommand e json : Step (StateM (World σ)) Exit) := by
  refine steady_reported json (steady_perform e rfl) fun s => ?_
  exact steady_ite ((quiet_echo _).bind fun _ => quiet_pure _).steady
    (shows_showStatus s).quiet.steady

theorem steady_listTakes (e : Endpoint) (json : Bool) :
    Steady (listTakes e json : Step (StateM (World σ)) Exit) :=
  steady_reported json (steady_perform e rfl) fun takes => (shows_takes json takes).quiet.steady

/-- A call at a path that is worked out has no parameters if none at such a path has. -/
theorem params_of_bind {x : Except Failure String} {f : String → Call α} {c : Call α}
    (h : x >>= (fun path => .ok (f path)) = .ok c) (hf : ∀ path, (f path).params = .null) :
    c.params = .null := by
  obtain ⟨path, -, h⟩ := exists_of_bind_eq_ok h
  cases h
  exact hf path

theorem steady_showTake (e : Endpoint) (id : TakeId) :
    Steady (showTake e id : Step (StateM (World σ)) Exit) := by
  refine steady_reported false ?_ fun t => ?_
  · exact steady_except_bind fun c hc => steady_perform e (params_of_bind hc fun _ => rfl)
  · exact ((quiet_emit _).bind fun _ => (quiet_emit _).bind fun _ => (quiet_emit _).bind fun _ =>
      quiet_pure _).steady

theorem steady_editTake (e : Endpoint) (id : TakeId) (changes : TakeChanges) :
    Steady (editTake e id changes : Step (StateM (World σ)) Exit) := by
  refine steady_reported false ?_ fun t => ((quiet_emit _).bind fun _ => quiet_pure _).steady
  unfold TakeEditor.save
  refine steady_except_bind fun c hc => ?_
  refine (steady_perform e (params_of_bind hc fun _ => rfl)).bind fun t => ?_
  refine steady_except_bind fun put hput => ?_
  refine (steady_perform e (params_of_bind hput fun _ => rfl)).bind fun _ => ?_
  -- Whether the take was moved is noted.
  dsimp only
  split
  · exact fun _ => rfl
  · exact (quiet_pure _).steady

theorem steady_deleteTake (e : Endpoint) (id : TakeId) :
    Steady (deleteTake e id : Step (StateM (World σ)) Exit) := by
  refine steady_reported false ?_ fun _ => ((quiet_emit _).bind fun _ => quiet_pure _).steady
  exact steady_except_bind fun c hc => steady_perform e (params_of_bind hc fun _ => rfl)

theorem quiet_confirm (question : String) (limit : Nat) :
    Quiet (confirm question limit : Step (StateM (World σ)) Bool) := by
  induction limit with
  | zero => exact quiet_throw _
  | succ limit ih =>
      have hask : Quiet (ExceptT.lift (Console.ask question) :
          Step (StateM (World σ)) (Option String)) := by
        intro w
        rw [runIn_lift]
        show held (World.ask question w).2 = held w
        unfold World.ask
        cases w.input <;> rfl
      unfold confirm
      refine hask.bind fun line => ?_
      cases line with
      | none => exact quiet_pure _
      | some line =>
          dsimp only
          cases yesOrNo? line with
          | some answer => exact quiet_pure _
          | none => exact (quiet_echo _).bind fun _ => ih

/-! ## The commands on settings -/

theorem quiet_showFields (name : String) (fields : List (String × Json)) :
    Quiet (showFields name fields : Step (StateM (World σ)) Unit) := by
  induction fields with
  | nil => exact quiet_pure _
  | cons f rest ih => exact (quiet_emit _).bind fun _ => ih

theorem quiet_showSections (fields : List (String × Json)) :
    Quiet (showSections fields : Step (StateM (World σ)) Unit) := by
  induction fields with
  | nil => exact quiet_pure _
  | cons f rest ih =>
      obtain ⟨name, value⟩ := f
      cases value with
      | obj fields =>
          exact (quiet_emit _).bind fun _ => (quiet_showFields _ _).bind fun _ =>
            (quiet_emit _).bind fun _ => ih
      | _ => exact ih

theorem quiet_showSettings (json : Bool) (s : Settings) :
    Quiet (showSettings json s : Step (StateM (World σ)) Exit) := by
  unfold showSettings
  cases json with
  | true => exact (quiet_echo _).bind fun _ => quiet_pure _
  | false =>
      exact (quiet_emit _).bind fun _ => (quiet_emit _).bind fun _ =>
        (quiet_showSections _).bind fun _ => (quiet_emit _).bind fun _ => quiet_pure _

/-- The file of the settings is another one. -/
theorem quiet_setSetting (s : Settings) (key value : String) :
    Quiet (setSetting s key value : Step (StateM (World σ)) Exit) := by
  unfold setSetting
  split
  · refine Quiet.bind (fun _ => rfl) fun written => ?_
    split
    · exact (quiet_emit _).bind fun _ => quiet_pure _
    · exact quiet_throw _
  · split
    · exact (quiet_emit _).bind fun _ => quiet_pure _
    · exact quiet_throw _

theorem quiet_loadSettings [Json.Nesting] :
    Quiet (loadSettings : Step (StateM (World σ)) Settings) :=
  quiet_readHome .settings fun home => Settings.load (Settings.filePath home)

/-! ## Errands -/

theorem steady_order [Json.Nesting] {o : Order} (h : ¬o.IsImport) (limit : Nat) :
    Steady (o.run limit : Step (StateM (World σ)) Exit) := by
  refine quiet_loadSettings.steady.bind fun s => ?_
  cases o with
  | importClips options => exact absurd ⟨options, rfl⟩ h
  | showStatus json => exact steady_statusCommand _ json
  | listTakes json => exact steady_listTakes _ json
  | showTake scene num => exact steady_showTake _ _
  | editTake scene num changes => exact steady_editTake _ _ changes
  | deleteTake agreed scene num =>
      have hanswered : ∀ answer : Bool, Steady (if !answer then pure failed
          else deleteTake (endpointOf s) (TakeId.ofText scene num) :
            Step (StateM (World σ)) Exit) :=
        fun answer => steady_ite (quiet_pure _).steady (steady_deleteTake _ _)
      exact steady_ite ((quiet_pure _).steady.bind hanswered)
        ((quiet_confirm _ _).steady.bind hanswered)

/-- What one run of the program is for. -/
inductive Errand where
  | order (o : Order)
  | showSettings (json : Bool)
  | setSetting (key value : String)
  /-- The words fit no command. -/
  | misfit

def Errand.run [Json.Nesting] {m : Type → Type} [Monad m] [Console m] (limit : Nat) :
    Errand → Step m Exit
  | order o => o.run limit
  | showSettings json => do Command.showSettings json (← loadSettings)
  | setSetting key value => do Command.setSetting (← loadSettings) key value
  | misfit => return .usage

/-- Only the errands that import open a path. -/
theorem steady_errand [Json.Nesting] {errand : Errand}
    (h : ∀ o, errand ≠ .order (.importClips o)) (limit : Nat) :
    Steady (errand.run limit : Step (StateM (World σ)) Exit) := by
  cases errand with
  | order o =>
      refine steady_order ?_ limit
      rintro ⟨options, rfl⟩
      exact h options rfl
  | showSettings json => exact (quiet_loadSettings.bind fun s => quiet_showSettings json s).steady
  | setSetting key value =>
      exact (quiet_loadSettings.bind fun s => quiet_setSetting s key value).steady
  | misfit => exact (quiet_pure _).steady

/-! ## Imports -/

/-- How a world is left in which a path was opened: the memory that there was has the path, and its
clips were asked for last. -/
structure Opens [Json.Nesting] (w : World σ) (path : String) (w' : World σ) : Prop where
  home : w'.home = w.home
  free : w'.memoryBlocked = false
  file : ∃ memory, (Memory.load (Memory.filePath w.home) w.memoryFile).outcome.1 = .ok memory ∧
    w'.memoryFile = some (memory.setLastPath path).fileText.toUTF8
  listed : listedPaths w'.replies = path :: listedPaths w.replies

theorem shelf_writeFile {w : World σ} (free : w.memoryBlocked = false) (text : String) :
    shelf (World.writeFile .memory text w).2 = (w.home, some text.toUTF8, false) := by
  unfold World.writeFile
  rw [free]
  rfl

/-- After its load a command opens no other path. -/
theorem recollection_importPath {limit : Nat} {e : Endpoint} {r : Running} {path : String}
    {o : ImportOptions} {w w' : World σ} {result : Except Failure (Exit × Control)}
    (htasks : r.control.tasks = []) (hpoller : r.control.poller = none) (hpath : path ≠ "")
    (h : runIn (importPath limit e r path o) w = (result, w')) :
    recollection w' = recollection (runIn (feed e limit r (.openPath path)) w).2 := by
  rcases importPath_cases h with ⟨f, hfeed, -⟩ | ⟨r₁, w₁, hfeed, hends⟩ <;> rw [hfeed]
  rcases hends with hunsent | ⟨s, w₂, hcleared, hw₂, hsent⟩
  · exact recollection_of_held hunsent
  obtain ⟨s₁, stage, hstage, hloading⟩ := loading_of_feed htasks hpoller hpath hfeed
  obtain ⟨clips, takes, answer, items, hloaded, -⟩ := hloading.of_loadResult hstage hcleared.loaded
  have hlisted : listedPaths w'.replies = listedPaths w₂.replies := by
    rcases sent_submitAndFollow (r := { r₁ with control := r₁.control.setSession s })
      hloaded.tasks hloaded.poller (indexed_applyOptions hcleared.applied hloaded.indexed)
      hsent with hunsent | ⟨batch, later, hlater, hreplies⟩
    · rw [hunsent]
    · have hlooks : listedPaths later = [] := by
        refine listedPaths_of_none fun p hp => ?_
        rw [hlater p hp]
        rfl
      rw [hreplies, listedPaths_append, hlooks]
      rfl
  rw [← recollection_of_held hw₂, recollection, recollection, hlisted, shelf_submitAndFollow hsent]

/-- A run of the import command opens one path, or none and leaves the memory alone. -/
theorem importCommand_opens [Json.Nesting] {limit : Nat} {settings : Settings} {o : ImportOptions}
    {w w' : World σ} {result : Except Failure Exit} (enough : 4 ≤ limit)
    (free : w.memoryBlocked = false) (h : runIn (importCommand limit settings o) w = (result, w')) :
    recollection w' = recollection w ∨ ∃ path, Opens w path w' := by
  rcases hrun : runIn (importSession limit settings o) w with ⟨outcome, w₀⟩
  have hw₀ : w' = w₀ := by
    unfold importCommand at h
    rw [runIn_bind, hrun] at h
    cases outcome <;> exact (congrArg Prod.snd h).symm
  subst hw₀
  rcases importSession_cases hrun with ⟨hheld, -⟩ |
    ⟨w₁, memory, w₂, s, ended, w₃, hw₁, hmemory, -, hpath, himport, hheld, -⟩
  · exact Or.inl (recollection_of_held hheld)
  have hend := (recollection_of_held hheld).trans (recollection_importPath rfl rfl hpath himport)
  obtain ⟨hshelf, hlisted⟩ := feed_openPath (e := endpointOf settings)
    (r := { control := began o s, memory }) rfl rfl hpath enough w₂
  have hbegun : held w₂ = held w :=
    (quiet_loadMemory.held hmemory).trans (held_of_unseen hw₁)
  have hloaded := (runIn_loadMemory w₁).1
  rw [hmemory, eq_of_unseen hw₁] at hloaded
  have hfree : w₂.memoryBlocked = false := by
    have hblocked := congrArg (fun held => held.2.2.2) hbegun
    exact hblocked.trans free
  rw [shelf_writeFile hfree] at hshelf
  rw [replies_of_held hbegun] at hlisted
  -- After the load nothing is remembered any more, so the file is the one that it wrote.
  rw [recollection, recollection, hshelf, hlisted] at hend
  refine Or.inr ⟨_, ?_, ?_, ⟨memory, hloaded.symm, ?_⟩, congrArg Prod.snd hend⟩
  · have hhome := congrArg (fun held => held.2.1) hbegun
    exact (congrArg (fun r => r.1.1) hend).trans hhome
  · exact congrArg (fun r => r.1.2.2) hend
  · exact congrArg (fun r => r.1.2.1) hend

/-! ## Imports without a path -/

theorem runIn_bind_congr {x : Step (StateM (World σ)) α} {f g : α → Step (StateM (World σ)) β}
    {w : World σ} (h : ∀ a w', runIn x w = (.ok a, w') → runIn (f a) w' = runIn (g a) w') :
    runIn (x >>= f) w = runIn (x >>= g) w := by
  rw [runIn_bind, runIn_bind]
  rcases hrun : runIn x w with ⟨e | a, w'⟩
  · rfl
  · exact h a w' hrun

theorem runIn_progressTask_congr (json : Bool) {f g : Unit → Step (StateM (World σ)) α}
    {w : World σ} (h : ∀ w₁, unseen w₁ = unseen w → runIn (f ()) w₁ = runIn (g ()) w₁) :
    runIn (if !json then emit (.progressTask "Copying" 100) >>= f else f ()) w =
      runIn (if !json then emit (.progressTask "Copying" 100) >>= g else g ()) w := by
  cases json with
  | true => exact h w rfl
  | false => exact h (w.record (.progressTask "Copying" 100)) rfl

theorem path_of_sessionOf {settings : ImportSettings} {s : Session}
    (h : sessionOf settings = .ok s) : s.path = "" := by
  obtain ⟨interval, -, h⟩ := exists_of_bind_eq_ok h
  obtain ⟨backoff, -, h⟩ := exists_of_bind_eq_ok h
  cases h
  rfl

def ImportOptions.Pathless (o : ImportOptions) : Prop := o.path = none ∨ o.path = some ""

def ImportOptions.at (o : ImportOptions) (path : String) : ImportOptions :=
  { o with path := some path }

/-- An import without a path is one of the path that is remembered. -/
theorem importCommand_of_last [Json.Nesting] {limit : Nat} {settings : Settings} {o : ImportOptions}
    {path : String} {w : World σ} {memory : Memory} (pathless : o.Pathless)
    (hmemory : (Memory.load (Memory.filePath w.home) w.memoryFile).outcome.1 = .ok memory)
    (hlast : memory.lastPath? = some path) :
    runIn (importCommand limit settings o) w =
      runIn (importCommand limit settings (o.at path)) w := by
  have hsession : runIn (importSession limit settings o) w =
      runIn (importSession limit settings (o.at path)) w := by
    unfold importSession
    refine runIn_progressTask_congr o.json fun w₁ hw₁ => ?_
    refine runIn_bind_congr fun m w₂ hm => ?_
    have hsame : m = memory := by
      have hload := (runIn_loadMemory w₁).1
      rw [hm, eq_of_unseen hw₁] at hload
      exact Except.ok.inj (hload.trans hmemory)
    subst hsame
    refine runIn_bind_congr fun s w₃ hs => ?_
    -- The path comes from the memory, since neither the order nor the settings name one.
    have hempty : (placeIn o s).path = "" := by
      have hpath := path_of_sessionOf (runIn_except_ok hs).1
      unfold placeIn
      split
      · exact hpath
      · exact hpath
    have hplaced : placeIn (o.at path) s = placeIn o s := rfl
    have hchosen : choosePath (o.at path) (placeIn (o.at path) s) m =
        choosePath o (placeIn o s) m := by
      have hsuggested : (placeIn o s).suggestedPath m.lastPath? = path := by
        rw [Session.suggestedPath, hempty, hlast]
        rfl
      unfold choosePath
      rw [hplaced, hsuggested]
      rcases pathless with hpath | hpath <;> simp [ImportOptions.at, hpath]
    dsimp only
    rw [hchosen]
    rfl
  unfold importCommand
  rw [runIn_bind, runIn_bind, hsession]

/-! ## Errands after each other -/

/-- The world after errands, each with the lines of its standard input. -/
def afterRuns [Json.Nesting] (limit : Nat) (w : World σ) : List (Errand × List String) → World σ
  | [] => w
  | (errand, input) :: rest =>
    afterRuns limit (runIn (errand.run limit) { w with input, output := "" }).2 rest

/-- What holds of all worlds that are reached: their memory can be read, and it has the path that
was opened last since the first world. -/
structure Recollects [Json.Nesting] (first w : World σ) : Prop where
  free : w.memoryBlocked = false
  memory : ∃ memory, Memory.Holds (Memory.filePath w.home) w.memoryFile memory ∧
    ∃ new, listedPaths w.replies = new ++ listedPaths first.replies ∧
      ∀ path ∈ new.head?, memory.lastPath? = some path

theorem Recollects.of_recollection [Json.Nesting] {first w w' : World σ} (h : Recollects first w)
    (hsame : recollection w' = recollection w) : Recollects first w' := by
  have hhome := congrArg (fun r => r.1.1) hsame
  have hfile := congrArg (fun r => r.1.2.1) hsame
  have hblocked := congrArg (fun r => r.1.2.2) hsame
  have hlisted := congrArg Prod.snd hsame
  simp only [recollection, shelf] at hhome hfile hblocked hlisted
  obtain ⟨hfree, hmemory⟩ := h
  rw [← hblocked] at hfree
  rw [← hhome, ← hfile, ← hlisted] at hmemory
  exact ⟨hfree, hmemory⟩

theorem Recollects.of_opens [Json.Nesting] {first w w' : World σ} (h : Recollects first w)
    {path : String} (hopens : Opens w path w') : Recollects first w' := by
  obtain ⟨memory, hholds, new, hnew, -⟩ := h.memory
  obtain ⟨loaded, hloaded, hfile⟩ := hopens.file
  obtain rfl : memory = loaded := Except.ok.inj ((hholds.gives []).symm.trans hloaded)
  refine ⟨hopens.free, memory.setLastPath path, ?_, path :: new, ?_, ?_⟩
  · rw [hfile]
    exact (hholds.distinct.set Memory.lastPathName path).holds _
  · rw [hopens.listed, hnew]
    rfl
  · rintro other hother
    cases hother
    exact (Memory.get?_set _ _ _ _).trans (if_pos rfl)

theorem Recollects.errand [Json.Nesting] {first w : World σ} (h : Recollects first w) {limit : Nat}
    (enough : 4 ≤ limit) (errand : Errand) (input : List String) :
    Recollects first (runIn (errand.run limit) { w with input, output := "" }).2 := by
  let begun : World σ := { w with input, output := "" }
  have hbegun : Recollects first begun := h.of_recollection rfl
  change Recollects first (runIn (errand.run limit) begun).2
  by_cases himport : ∃ o, errand = .order (.importClips o)
  · obtain ⟨o, rfl⟩ := himport
    rcases hrun : runIn (loadSettings >>= fun s => Order.perform limit s (.importClips o)) begun
      with ⟨result, w'⟩
    change Recollects first (runIn (loadSettings >>= fun s =>
      Order.perform limit s (.importClips o)) begun).2
    rw [hrun]
    rcases runIn_bind_cases hrun with ⟨f, hf, -⟩ | ⟨s, w₁, hs, himported⟩
    · exact hbegun.of_recollection (recollection_of_held (quiet_loadSettings.held hf))
    have hread := hbegun.of_recollection (recollection_of_held (quiet_loadSettings.held hs))
    rcases importCommand_opens enough hread.free himported with hsame | ⟨path, hopens⟩
    · exact hread.of_recollection hsame
    · exact hread.of_opens hopens
  · exact hbegun.of_recollection (steady_errand (fun o ho => himport ⟨o, ho⟩) limit begun)

theorem Recollects.afterRuns [Json.Nesting] {first w : World σ} (h : Recollects first w)
    {limit : Nat} (enough : 4 ≤ limit) (errands : List (Errand × List String)) :
    Recollects first (afterRuns limit w errands) := by
  induction errands generalizing w with
  | nil => exact h
  | cons run rest ih =>
      obtain ⟨errand, input⟩ := run
      exact ih (h.errand enough errand input)

/-- Whether an import without a path does what an import of the path does that was opened last since
an earlier world, if one was. -/
def ImportsLast [Json.Nesting] (limit : Nat) (first w : World σ) : Prop :=
  ∀ (path : String) (more : List String) (o : ImportOptions),
    listedPaths w.replies = path :: more ++ listedPaths first.replies → o.Pathless →
    runIn ((Order.importClips o).run limit) w = runIn ((Order.importClips (o.at path)).run limit) w

theorem Recollects.importsLast [Json.Nesting] {first w : World σ} (h : Recollects first w)
    (limit : Nat) : ImportsLast limit first w := by
  intro path more o hlisted pathless
  obtain ⟨memory, hholds, new, hnew, hlast⟩ := h.memory
  rw [hlisted] at hnew
  obtain rfl := List.append_cancel_right hnew
  refine runIn_bind_congr fun s w' hs => ?_
  have hshelf := shelf_of_held (quiet_loadSettings.held hs)
  have hhome := congrArg Prod.fst hshelf
  have hfile := congrArg (fun shelf => shelf.2.1) hshelf
  refine importCommand_of_last pathless ?_ (hlast path rfl)
  simp only [shelf] at hhome hfile
  rw [hhome, hfile]
  exact hholds.gives []

/-- From a memory file that is accepted, the memory recalls what was set, and no change fails; and
in a home directory where it can be written, an import without a path is one of the path that was
opened last by any earlier run. -/
theorem recalls_and_importsLast [Json.Nesting] {w : World σ} {k : Memory.Keeper}
    (opened : (Memory.Keeper.ofFile (Memory.filePath w.home) w.memoryFile).outcome.1 = .ok k) :
    (∀ changes, ∃ k', (k.run (Memory.filePath w.home) changes).outcome.1 = .ok k' ∧
      k'.Recalls (Memory.filePath w.home) w.memoryFile changes) ∧
    (w.memoryBlocked = false → ∀ limit, 4 ≤ limit → ∀ errands,
      ImportsLast limit w (afterRuns limit w errands)) := by
  constructor
  · intro changes
    obtain ⟨k', hrun, hk'⟩ := Memory.Keeper.recalls_run opened changes
    exact ⟨k', hrun [], hk'⟩
  · intro free limit enough errands
    have hfirst : Recollects w w := by
      obtain ⟨memory, before, hload, -⟩ := Noted.ok_of_bind opened
      exact ⟨free, memory, (Memory.of_load hload).1, [], rfl, nofun⟩
    exact (hfirst.afterRuns enough errands).importsLast limit

/-- A text is set and read again, and an import without a path comes after one from "/a". -/
theorem recalls_and_importsLast_after_one_import :
    let first := oneClipWorld [idleStatus, importedStatus, idleStatus]
    let w := afterRuns 40 first
      [(.order (.importClips (importFrom "/a")), []), (.order (.listTakes false), [])]
    let options := { importFrom "/a" with path := none }
    (∃ k', (Memory.Keeper.run (Memory.filePath "/h") ⟨{}, none⟩
        [.set "a" "Ö\x22\n" true, .reload]).outcome.1 = .ok k' ∧
      k'.memory.get? "a" = some "Ö\x22\n") ∧
    runIn ((Order.importClips options).run 40) w =
      runIn ((Order.importClips (options.at "/a")).run 40) w := by
  intro first w options
  obtain ⟨hrecalls, hlast⟩ := recalls_and_importsLast (w := first) (k := ⟨{}, none⟩) rfl
  constructor
  · obtain ⟨k', hrun, hk'⟩ := hrecalls [.set "a" "Ö\x22\n" true, .reload]
    exact ⟨k', hrun, (hk'.written (by decide)).2 "a"⟩
  · have hlisted : listedPaths w.replies = ["/a"] := by decide +kernel
    exact hlast rfl 40 (by decide) _ "/a" [] options hlisted (Or.inl rfl)

end CardImport.Command
