import CardImport.Proofs.Command.Batch

/-!
# What the import command submits

The batch that a run sends is that of its options and of the two listings it was answered with. A dry
run at the same server goes the same way up to the submission, whatever it shows on that way, and
reports exactly that batch.
-/

namespace CardImport.Command

open Control

variable {σ : Type}

/-! ## Worlds that differ in what happened in them -/

theorem eq_of_unseen {w w' : World σ} (h : unseen w' = unseen w) :
    w' = { w with happened := w'.happened, styled := w'.styled } := by
  rcases w with ⟨serve, server, libraries, home, settings, memory, blocked, input, output⟩
  rcases w' with ⟨serve', server', libraries', home', settings', memory', blocked', input',
    output'⟩
  simp only [unseen, World.mk.injEq] at h ⊢
  simp only [h, and_self]

theorem exchange_of_unseen {w w' : World σ} (h : unseen w' = unseen w) (r : Request) :
    reply w' r = reply w r ∧
      unseen (World.exchange r w').2 = unseen (World.exchange r w).2 := by
  rw [eq_of_unseen h]
  unfold reply World.exchange
  dsimp only
  -- What was recorded decides nothing.
  cases w.libraries.refusal? r <;> exact ⟨rfl, rfl⟩

theorem reply_of_unseen {w w' : World σ} (h : unseen w' = unseen w) (r : Request) :
    reply w' r = reply w r := (exchange_of_unseen h r).1

theorem unseen_askServer (e : Endpoint) (q : Query) {w w' : World σ}
    (h : unseen w' = unseen w) :
    unseen ((askServer e q : StateM (World σ) _).run w').2 =
      unseen ((askServer e q : StateM (World σ) _).run w).2 := by
  rw [(askServer_run e q w).2, (askServer_run e q w').2]
  exact (exchange_of_unseen h _).2

/-! ## A load that shows nothing -/

def unshown (r : Running) : Running :=
  { r with control := { r.control with showsPercent := false } }

theorem unseen_remember (r : Running) (path : String) {w w' : World σ}
    (h : unseen w' = unseen w) :
    unseen ((remember (unshown r) path : StateM (World σ) Running).run w').2 =
      unseen ((remember r path : StateM (World σ) Running).run w).2 := by
  have hmemory : (unshown r).memory = r.memory := rfl
  rw [(remember_run r path w).2, (remember_run (unshown r) path w').2, eq_of_unseen h, hmemory]
  rcases w with ⟨serve, server, libraries, home, settings, memory, blocked⟩
  cases blocked <;> rfl

/-- Whether a run that shows nothing comes to the same as another one, if that comes to a session
and its load did not fail. -/
def Agrees (ran ran' : Except Failure Running × World σ) : Prop :=
  ∀ r, ran.1 = .ok r → (∃ f, loadResult r.control = .error f) ∨
    ran'.1 = .ok (unshown r) ∧ unseen ran'.2 = unseen ran.2

theorem Loading.of_done {e : Endpoint} {s s₁ : Session} {before replies : List (Request × Reply)}
    {actions : List Action} {result : Except Failure Unit}
    (h : Loading e s before s₁ (.done result) actions replies) : actions = [] := by
  cases h <;> rfl

/-- A load that ended in an error and left nothing to do stays so. -/
theorem failed_follow {e : Endpoint} (fuel : Nat) {r r' : Running} {actions : List Action}
    {w : World σ} {f : Failure} (hlive : live actions = [])
    (hf : loadResult r.control = .error f) (hr' : (runIn (follow e fuel r actions) w).1 = .ok r') :
    loadResult r'.control = .error f := by
  have hkept : Kept e fun c actions _ => live actions = [] ∧ loadResult c = .error f := by
    refine ⟨?_, ?_, ?_⟩
    · intro c a rest replies hi hq h
      rw [live_cons_of_skipped hi hq] at h
      exact h
    · intro c a i rest replies hi h
      rw [live_cons_of_input hi] at h
      cases h.1
    · intro c sender q rest replies answer h
      rw [live_cons_ask] at h
      cases h.1
  obtain ⟨r₁, rest, ⟨-, hend⟩, hsame⟩ := follow_keeps hkept fuel (r := r) (w := w) ⟨hlive, hf⟩
  rw [(hsame r' hr').1]
  exact hend

/-- The progress of a load is not shown from its first step on. -/
theorem showsFrom_loadOnly {r : Running} {shows : Bool} {s : Session} {stage : LoadStage}
    (hr : r.control = loadOnly shows s stage) (id : TaskId) : r.showsFrom id = false := by
  unfold Running.showsFrom
  rw [hr]
  cases id with
  | zero => exact Bool.and_false _
  | succ id => exact Bool.and_false _

theorem follow_begin_loadOnly {e : Endpoint} (fuel : Nat) {r : Running} {rest : List Action}
    {shows : Bool} {s : Session} {stage : LoadStage} (hr : r.control = loadOnly shows s stage)
    (id : TaskId) (w : World σ) : runIn (follow e (fuel + 1) r (.begin id :: rest)) w =
      runIn (follow e fuel { r with control := (r.control.step (.begin id)).1 }
        ((r.control.step (.begin id)).2 ++ rest)) w := by
  rw [follow_begin, showsFrom_loadOnly hr, if_neg Bool.false_ne_true]
  rfl

theorem agrees_nil (e : Endpoint) (fuel : Nat) (r : Running) {w w' : World σ}
    (hw : unseen w' = unseen w) :
    Agrees (runIn (follow e fuel r []) w) (runIn (follow e fuel (unshown r) []) w') := by
  rw [follow_nil, follow_nil]
  rintro _ ⟨⟩
  exact Or.inr ⟨rfl, hw⟩

/-- A load that is shown, and the same one in a world in which nothing of it is. -/
structure Paired (e : Endpoint) (shows : Bool) (s : Session) (before : List (Request × Reply))
    (r : Running) (actions : List Action) (w w' : World σ) : Prop where
  loads : ∃ s₁ stage, r.control = loadOnly shows s₁ stage ∧
    Loading e s before s₁ stage (live actions) w.replies
  same : unseen w' = unseen w

/-- What the next action of a paired load comes to: the load has failed, or it stays paired. -/
def StaysPaired (e : Endpoint) (shows : Bool) (s : Session) (before : List (Request × Reply))
    (r : Running) (actions : List Action) (w w' : World σ) : Prop :=
  ∃ r' actions' w₁,
    (∀ fuel, runIn (follow e (fuel + 1) r actions) w = runIn (follow e fuel r' actions') w₁) ∧
    ((∃ f, live actions' = [] ∧ loadResult r'.control = .error f) ∨
      ∃ w₁', (∀ fuel, runIn (follow e (fuel + 1) (unshown r) actions) w' =
          runIn (follow e fuel (unshown r') actions') w₁') ∧
        Paired e shows s before r' actions' w₁ w₁')

section

variable {e : Endpoint} {shows : Bool} {s : Session} {before : List (Request × Reply)}
  {r : Running} {a : Action} {rest actions : List Action} {w w' : World σ}

theorem unshown_loadOnly {s₁ : Session} {stage : LoadStage}
    (hr : r.control = loadOnly shows s₁ stage) : (unshown r).control = loadOnly false s₁ stage := by
  rw [unshown, hr]
  rfl

/-- An action that brings about an input, and does nothing else, steps both loads alike. -/
theorem Paired.input (hpath : s.path ≠ "") (hloading : s.loading = true) {i : Input}
    (hi : input? a = some i) (h : Paired e shows s before r (a :: rest) w w')
    (hgoes : ∀ fuel {r : Running} {shows : Bool} {s₁ : Session} {stage : LoadStage} (w : World σ),
      r.control = loadOnly shows s₁ stage → runIn (follow e (fuel + 1) r (a :: rest)) w =
        runIn (follow e fuel { r with control := (r.control.step i).1 }
          ((r.control.step i).2 ++ rest)) w) :
    StaysPaired e shows s before r (a :: rest) w w' := by
  obtain ⟨⟨s₁, stage, hr, hload⟩, hw⟩ := h
  rw [live_cons_of_input hi] at hload
  obtain ⟨s₂, stage₂, new, hstep, hnext⟩ := hload.input hpath hloading hi
  rw [← live_append] at hnext
  refine ⟨{ r with control := loadOnly shows s₂ stage₂ }, new ++ rest, w, fun fuel => ?_,
    Or.inr ⟨w', fun fuel => ?_, ⟨_, _, rfl, hnext⟩, hw⟩⟩
  · rw [hgoes fuel w hr, hr, hstep shows]
  · have hunshown := unshown_loadOnly hr
    rw [hgoes fuel w' hunshown, hunshown, hstep false]
    rfl

theorem Paired.step (hpath : s.path ≠ "") (hloading : s.loading = true)
    (h : Paired e shows s before r (a :: rest) w w') :
    StaysPaired e shows s before r (a :: rest) w w' := by
  obtain ⟨s₁, stage, hr, hload⟩ := h.loads
  have hw := h.same
  cases a with
  | begin id =>
      exact h.input hpath hloading (i := .begin id) rfl fun fuel _ _ _ _ w hr =>
        follow_begin_loadOnly fuel hr id w
  | beginLeg id leg =>
      exact h.input hpath hloading (i := .beginLeg id leg) rfl fun _ _ _ _ _ _ _ => rfl
  | join id => exact h.input hpath hloading (i := .joined id) rfl fun _ _ _ _ _ _ _ => rfl
  | wait id delay | halt id =>
      -- A load neither waits nor halts anything.
      rw [live_cons_of_input rfl] at hload
      cases hload
  | note entry =>
      exact ⟨r, rest, _, fun _ => rfl, Or.inr ⟨_, fun _ => rfl, ⟨_, _, hr, hload⟩, hw⟩⟩
  | remember path =>
      refine ⟨_, rest, _, fun fuel => follow_remember e fuel r rest w path, Or.inr
        ⟨_, fun fuel => follow_remember e fuel (unshown r) rest w' path, ⟨_, _, hr, ?_⟩,
          unseen_remember r path hw⟩⟩
      rw [replies_remember]
      exact hload
  | ask sender q =>
      rw [live_cons_ask] at hload
      obtain ⟨s₂, stage₂, new, hstep, hnext, hsame⟩ := hload.answer shows (reply w (q.request e))
      rw [← live_append, ← replies_askServer] at hnext
      refine ⟨{ r with control := loadOnly shows s₂ stage₂ }, new ++ rest,
        ((askServer e q : StateM (World σ) _).run w).2, fun fuel => ?_, ?_⟩
      · rw [follow_ask, hr, hstep]
      rcases hsame with ⟨f, rfl⟩ | hsame
      · exact Or.inl ⟨f, hnext.of_done, rfl⟩
      · refine Or.inr ⟨_, fun fuel => ?_, ⟨_, _, rfl, hnext⟩, unseen_askServer e q hw⟩
        rw [follow_ask, unshown_loadOnly hr, reply_of_unseen hw, hsame]
        rfl
  | merged status =>
      have hshown := unseen_showing r w status
      refine ⟨_, rest, _, fun fuel => follow_merged e fuel r rest w status, Or.inr
        ⟨_, fun fuel => follow_merged e fuel (unshown r) rest w' status, ⟨_, _, hr, ?_⟩,
          (unseen_showing _ w' status).trans (hw.trans hshown.symm)⟩⟩
      rw [replies_of_unseen hshown]
      exact hload

/-- A load that does not fail comes to the same without showing its progress. -/
theorem follow_unshown (hpath : s.path ≠ "") (hloading : s.loading = true) (fuel : Nat)
    (h : Paired e shows s before r actions w w') :
    Agrees (runIn (follow e fuel r actions) w) (runIn (follow e fuel (unshown r) actions) w') := by
  induction fuel generalizing r actions w w' with
  | zero =>
      cases actions with
      | nil => exact agrees_nil e _ r h.same
      | cons a rest =>
          rintro r₁ hr₁
          rw [follow_zero] at hr₁
          cases hr₁
  | succ fuel ih =>
      cases actions with
      | nil => exact agrees_nil e _ r h.same
      | cons a rest =>
          obtain ⟨r', actions, w₁, hfollow, hnext⟩ := h.step hpath hloading
          rw [hfollow]
          rcases hnext with ⟨f, hlive, hf⟩ | ⟨w₁', hfollow', hnext⟩
          · exact fun r₁ hr₁ => Or.inl ⟨f, failed_follow fuel hlive hf hr₁⟩
          · rw [hfollow']
            exact ih hnext

end

/-! ## The dry run -/

theorem output_of_unseen {w w' : World σ} (h : unseen w' = unseen w) : w'.output = w.output := by
  rw [eq_of_unseen h]

/-- No action writes to the standard output. -/
theorem Acts.output {e : Endpoint} {r r' : Running} {a : Action} {rest actions : List Action}
    {w w' : World σ} (h : Acts e r rest w a r' actions w') : w'.output = w.output := by
  cases h with
  | note entry => rfl
  | merged status => exact output_of_unseen (unseen_showing r w status)
  | remember path =>
      exact (output_of_unseen (remember_run r path w).2).trans (output_writeFile _ w)
  | ask sender q => exact (output_of_unseen (askServer_run e q w).2).trans (output_exchange _ w)
  | input hi => exact output_of_unseen (unseen_entering r w a)

theorem output_follow (e : Endpoint) (fuel : Nat) (r : Running) (actions : List Action)
    (w : World σ) : (runIn (follow e fuel r actions) w).2.output = w.output := by
  obtain ⟨-, -, hsame, -⟩ := follow_preserves (e := e) (P := fun _ _ w' => w'.output = w.output)
    (fun hacts h => hacts.output.trans h) (fun _ h => h) fuel actions (r := r) rfl
  exact hsame

def afterReport (value : Json) (w : World σ) : World σ :=
  { w with output := w.output ++ (value.write .report ++ "\n") }

theorem runIn_showBatch (path : String) (items : List Item) (w : World σ) :
    runIn (showBatch path true items) w =
      (.ok success, afterReport (importReport path (Items.batch items)) w) := by
  generalize hreport : importReport path (Items.batch items) = value
  unfold showBatch report afterReport
  rw [hreport]
  generalize value.write .report = text
  rfl

/-- The options of a dry run with a report, and otherwise the same. -/
def ImportOptions.dry (o : ImportOptions) : ImportOptions := { o with dryRun := true, json := true }

theorem editedSession_of_cleared {o : ImportOptions} {c : Control} {s : Session}
    (hc : Cleared o c s) (path : String) : editedSession c path o = .ok s := by
  unfold editedSession
  rw [hc.loaded, if_neg hc.listed, hc.applied]
  rfl

theorem importPath_dry {limit : Nat} {e : Endpoint} {r r₁ : Running} {path : String}
    {o : ImportOptions} {s : Session} {w w₁ : World σ}
    (hfeed : runIn (feed e limit r (.openPath path)) w = (.ok r₁, w₁))
    (hc : Cleared o r₁.control s) :
    runIn (importPath limit e r path o.dry) w =
      (.ok (success, r₁.control.setSession s),
        afterReport (importReport path (Items.batch s.items)) w₁) := by
  have hedited : runIn (liftM (editedSession r₁.control path o.dry) :
      Step (StateM (World σ)) Session) w₁ = (.ok s, w₁) := by
    rw [runIn_except]
    exact congrArg (·, w₁) (editedSession_of_cleared hc path)
  have hprepared : runIn (prepare r₁ path o.dry) w₁ =
      (.ok (.inl (success, r₁.control.setSession s)),
        afterReport (importReport path (Items.batch s.items)) w₁) := by
    unfold prepare
    rw [runIn_bind_of_ok hedited]
    exact runIn_bind_of_ok (runIn_showBatch path s.items w₁)
  unfold importPath
  rw [runIn_bind_of_ok hfeed, runIn_bind_of_ok hprepared]
  rfl

/-- A path is opened in the same way whether or not the load shows its progress. -/
theorem feed_unshown {r : Running} (htasks : r.control.tasks = [])
    (hpoller : r.control.poller = none) (e : Endpoint) (limit : Nat) (path : String) :
    (feed e limit (unshown r) (.openPath path) : Step (StateM (World σ)) Running) =
      follow e limit (unshown { r with control := (r.control.openPath path).1 })
        (r.control.openPath path).2 := by
  have hopen := openPath_eq htasks hpoller path
  have hopen' := openPath_eq (c := (unshown r).control) htasks hpoller path
  show follow e limit { unshown r with control := ((unshown r).control.openPath path).1 }
    ((unshown r).control.openPath path).2 = _
  rw [hopen, hopen']
  rfl

/-- A load that ended well comes to the same without showing its progress. -/
theorem load_unshown {limit : Nat} {e : Endpoint} {r r₁ : Running} {path : String}
    {w w' w₁ : World σ} (htasks : r.control.tasks = []) (hpoller : r.control.poller = none)
    (hpath : path ≠ "") (hw : unseen w' = unseen w)
    (h : runIn (feed e limit r (.openPath path)) w = (.ok r₁, w₁))
    (hok : loadResult r₁.control = .ok ()) :
    ∃ w₂, runIn (feed e limit (unshown r) (.openPath path)) w' = (.ok (unshown r₁), w₂) ∧
      unseen w₂ = unseen w₁ := by
  have hopen := openPath_eq htasks hpoller path
  have hbegin : Loading e (opened r.control.session path) w.replies
      (opened r.control.session path) .created (live (r.control.openPath path).2) w.replies := by
    rw [hopen]
    exact .created
  have hagrees : Agrees (runIn (feed e limit r (.openPath path)) w)
      (runIn (feed e limit (unshown r) (.openPath path)) w') := by
    rw [feed_unshown htasks hpoller]
    exact follow_unshown hpath rfl limit (r := { r with control := (r.control.openPath path).1 })
      ⟨⟨_, _, congrArg Prod.fst hopen, hbegin⟩, hw⟩
  rw [h] at hagrees
  rcases hagrees r₁ rfl with ⟨f, hf⟩ | ⟨hr, hworld⟩
  · rw [hok] at hf
    cases hf
  · exact ⟨_, Prod.ext hr rfl, hworld⟩

theorem loadMemory_unseen [Json.Nesting] {memory : Memory} {w w' w₁ : World σ}
    (hw : unseen w' = unseen w) (h : runIn loadMemory w = (.ok memory, w₁)) :
    ∃ w₂, runIn loadMemory w' = (.ok memory, w₂) ∧ unseen w₂ = unseen w₁ := by
  obtain ⟨hmemory, hworld⟩ := runIn_loadMemory w
  obtain ⟨hmemory', hworld'⟩ := runIn_loadMemory w'
  have hhome : w'.home = w.home := by rw [eq_of_unseen hw]
  have hfile : w'.memoryFile = w.memoryFile := by rw [eq_of_unseen hw]
  rw [hhome, hfile, ← hmemory, h] at hmemory'
  rw [h] at hworld
  exact ⟨(runIn loadMemory w').2, Prod.ext hmemory' rfl, hworld'.trans (hw.trans hworld.symm)⟩

namespace Approach

variable [Json.Nesting] {limit : Nat} {settings : Settings} {o : ImportOptions} {w : World σ}

theorem output_after (a : Approach limit settings o w) : a.after.output = w.output := by
  have hremembered : unseen a.remembered = unseen a.begun := by
    have hworld := (runIn_loadMemory a.begun).2
    rw [a.remembers] at hworld
    exact hworld
  have hafter : a.after.output = a.remembered.output :=
    (congrArg (fun ran : Except Failure Running × World σ => ran.2.output) a.loads).symm.trans
      (output_follow _ _ _ _ _)
  exact hafter.trans (output_of_unseen (hremembered.trans a.unseen_begun))

/-- A dry run with a report sends what is sent before the batch, and reports the batch. -/
theorem dry (a : Approach limit settings o w) :
    ∃ w', runIn (importCommand limit settings o.dry) w = (.ok success, w') ∧
      w'.replies = a.after.replies ∧
      w'.output = w.output ++
        ((importReport a.path (Items.batch a.session.items)).write .report ++ "\n") := by
  rcases hrun : runIn (importSession limit settings o.dry) w with ⟨result, w'⟩
  have hsession := hrun
  unfold importSession at hsession
  obtain ⟨w₁, hw₁, hbegun⟩ := runIn_progressTask hsession
  obtain ⟨w₂, hmemory, hw₂⟩ := loadMemory_unseen (hw₁.trans a.unseen_begun.symm) a.remembers
  have hdescribes : runIn (liftM (sessionOf settings.importing) :
      Step (StateM (World σ)) Session) w₂ = (.ok a.first, w₂) := by
    rw [runIn_except, a.describes]
  have hpath : choosePath o.dry (placeIn o.dry a.first) a.memory ≠ "" := a.path_ne
  -- The worlds differ only in what was shown, so the load gets the same replies.
  obtain ⟨w₃, hload, hw₃⟩ := load_unshown rfl rfl a.path_ne hw₂ a.loads a.cleared.loaded
  have himport := importPath_dry hload ⟨a.cleared.loaded, a.cleared.listed, a.cleared.applied,
    a.cleared.wet, a.cleared.submittable⟩
  rw [runIn_bind_of_ok hmemory, runIn_bind_of_ok hdescribes] at hbegun
  dsimp only at hbegun
  rw [if_neg hpath] at hbegun
  obtain ⟨ended, w₄, hended, hend⟩ := runIn_attempt_cases hbegun
  cases hended.symm.trans himport
  cases hend
  have hreplies := replies_of_unseen hw₃
  refine ⟨afterReport (importReport a.path (Items.batch a.session.items)) w₃, ?_, hreplies, ?_⟩
  · unfold importCommand
    rw [runIn_bind_of_ok hrun]
    rfl
  · rw [← a.output_after, ← output_of_unseen hw₃]
    rfl

end Approach

/-! ## The batch of a run -/

theorem sessionOf_ok {settings : ImportSettings} {s : Session} (h : sessionOf settings = .ok s) :
    s.scene = settings.defaultScene ∧ s.subdirectory = settings.defaultSubdirectory := by
  unfold sessionOf at h
  cases hpoll : settings.pollSeconds with
  | error f =>
      rw [hpoll] at h
      cases h
  | ok interval =>
      cases hbackoff : settings.backoffSeconds with
      | error f =>
          rw [hpoll, hbackoff] at h
          cases h
      | ok backoff =>
          rw [hpoll, hbackoff] at h
          cases h
          exact ⟨rfl, rfl⟩

/-- The subdirectory that a run imports into. -/
def ImportOptions.destination (o : ImportOptions) (settings : ImportSettings) : Json :=
  (o.subdirectory.map Json.str).getD settings.defaultSubdirectory

theorem placeIn_eq (o : ImportOptions) {settings : ImportSettings} {s : Session}
    (h : sessionOf settings = .ok s) :
    (placeIn o s).scene = settings.defaultScene ∧
      (placeIn o s).subdirectory = o.destination settings := by
  obtain ⟨hscene, hsubdirectory⟩ := sessionOf_ok h
  unfold placeIn ImportOptions.destination
  cases o.subdirectory with
  | none => exact ⟨hscene, hsubdirectory⟩
  | some d => exact ⟨hscene, rfl⟩

/-- The batch that is sent on a way to the submission is that of the options and of the listings
that were answered on it. -/
theorem Approach.batch [Json.Nesting] {limit : Nat} {settings : Settings} {o : ImportOptions}
    {w : World σ} (a : Approach limit settings o w) :
    ∃ clips takes status cs ts,
      a.after.replies = (Query.status.request (endpointOf settings), status) ::
        listings (endpointOf settings) a.path clips takes ++ w.replies ∧
      clipsIn (endpointOf settings) a.path clips = .ok cs ∧
      takesIn (endpointOf settings) takes = .ok ts ∧
      batchQuery a.session = Query.submit a.path (o.destination settings.importing)
        (o.batch settings.importing.defaultScene cs ts) ∧
      Items.batch a.session.items = o.batch settings.importing.defaultScene cs ts := by
  obtain ⟨clips, takes, status, items, hloaded, hreplies⟩ := a.loading
  obtain ⟨cs, ts, hclips, htakes, hitems⟩ :=
    Session.of_listing hloaded.listing (hloaded.items_ne_nil a.cleared)
  obtain ⟨hscene, hsubdirectory⟩ := placeIn_eq o a.describes
  have hbatch : Items.batch a.session.items = o.batch settings.importing.defaultScene cs ts := by
    rw [← hscene]
    exact hloaded.batch hitems a.cleared.applied
  -- The session that is sent differs from the loaded one by the edits of its items.
  have hbase : a.loaded.control.session.base = (a.opening.listed items).base := by
    rw [hloaded.session]
    exact Session.base_look _ _
  obtain ⟨⟨edited, hedited, -⟩, -⟩ := of_applyOptions a.cleared.applied
  have hpath : a.session.path = a.path := by
    rw [hedited]
    exact congrArg Session.path hbase
  have hplaced := congrArg Session.subdirectory hbase
  have hplace : a.session.subdirectory = o.destination settings.importing := by
    rw [hedited, ← hsubdirectory]
    exact hplaced
  refine ⟨clips, takes, status, cs, ts, hreplies, hclips, htakes, ?_, hbatch⟩
  rw [batchQuery, hpath, hplace, hbatch]

end CardImport.Command
