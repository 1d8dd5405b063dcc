import CardImport.Proofs.Command.DryRun

/-!
# What a session remembers

A path is remembered when it is opened, and nothing else that a session asks for touches the memory.
The clips of a path are asked for right after it was remembered, so the path that a world remembers
is the one whose clips were asked for last.
-/

namespace CardImport

/-! ## Steps that remember nothing -/

namespace Control

theorem Turn.not_remember {c : Control} {id : TaskId} {i : Input} {t t' : Task} {s : Session}
    {actions : List Action} (h : Turn c id i t s t' actions) (path : String) :
    .remember path ∉ actions := by
  intro ha
  cases h.does _ ha

/-- Only a path that is opened is remembered. -/
theorem Move.not_remember {c c' : Control} {i : Input} {actions : List Action}
    (h : Move c i c' actions) (hi : ∀ path, i ≠ .openPath path) (path : String) :
    .remember path ∉ actions := by
  cases h with
  | opened other => exact absurd rfl (hi other)
  | closed =>
      unfold close
      cases c.poller <;> simp
  | edited e => exact List.not_mem_nil
  | started hfresh => simp [start]
  | polled =>
      intro ha
      cases begin_of_mem_startPolling ha
  | turned ht hturn => exact hturn.not_remember path
  | accepted ht hr =>
      intro ha
      rcases List.mem_append.mp ha with ha | ha
      · obtain ⟨e, he⟩ := exists_note_of_mem ha
        cases he
      · cases begin_of_mem_startPolling ha
  | dropped => exact List.not_mem_nil

end Control

namespace Command

open Control

variable {σ : Type}

/-! ## The memory of a world -/

/-- What there is of the memory in a world. -/
def shelf (w : World σ) : String × Option ByteArray × Bool :=
  (w.home, w.memoryFile, w.memoryBlocked)

theorem shelf_of_unseen {w w' : World σ} (h : unseen w' = unseen w) : shelf w' = shelf w := by
  rw [eq_of_unseen h]
  rfl

theorem shelf_of_held {w w' : World σ} (h : held w' = held w) : shelf w' = shelf w :=
  congrArg Prod.snd h

theorem shelf_exchange (r : Request) (w : World σ) : shelf (World.exchange r w).2 = shelf w := by
  unfold World.exchange
  cases w.libraries.refusal? r <;> rfl

/-- An action that is not to remember anything leaves the memory alone. -/
theorem Acts.shelf {e : Endpoint} {r r' : Running} {a : Action} {rest actions : List Action}
    {w w' : World σ} (h : Acts e r rest w a r' actions w') (ha : ∀ path, a ≠ .remember path) :
    shelf w' = shelf w := by
  cases h with
  | note entry => rfl
  | merged status => exact shelf_of_unseen (unseen_showing r w status)
  | remember path => exact absurd rfl (ha path)
  | ask sender q => exact (shelf_of_unseen (askServer_run e q w).2).trans (shelf_exchange _ w)
  | input hi => exact shelf_of_unseen (unseen_entering r w a)

theorem Acts.not_remember {e : Endpoint} {r r' : Running} {a : Action} {rest actions : List Action}
    {w w' : World σ} (h : Acts e r rest w a r' actions w') (hrest : ∀ path, .remember path ∉ rest)
    (path : String) : .remember path ∉ actions := by
  have hstep : ∀ i, (∀ path, i ≠ .openPath path) →
      .remember path ∉ (r.control.step i).2 ++ rest := by
    intro i hi hmem
    rcases List.mem_append.mp hmem with hnew | hold
    · exact (move_step r.control i).not_remember hi path hnew
    · exact hrest path hold
  cases h with
  | note entry => exact hrest path
  | merged status => exact hrest path
  | remember other => exact hrest path
  | ask sender q => exact hstep _ nofun
  | input hi =>
      refine hstep _ ?_
      rintro other rfl
      cases a <;> cases hi

/-- Following a session that is not to remember anything leaves the memory alone. -/
theorem shelf_follow (e : Endpoint) (fuel : Nat) {r : Running} {actions : List Action} {w : World σ}
    (h : ∀ path, .remember path ∉ actions) :
    shelf (runIn (follow e fuel r actions) w).2 = shelf w := by
  have hreaches := follow_preserves (e := e)
    (P := fun _ actions w' => (∀ path, Action.remember path ∉ actions) ∧ shelf w' = shelf w)
    ?_ (fun _ h => h) fuel actions (r := r) ⟨h, rfl⟩
  · obtain ⟨_, _, hend, -⟩ := hreaches
    exact hend.2
  rintro r₁ a rest w₁ r₂ actions₂ w₂ hacts ⟨hnone, hshelf⟩
  have ha : ∀ path, a ≠ .remember path := by
    rintro path rfl
    exact hnone path List.mem_cons_self
  refine ⟨hacts.not_remember fun path hmem => ?_, (hacts.shelf ha).trans hshelf⟩
  exact hnone path (List.mem_cons_of_mem _ hmem)

theorem shelf_submitAndFollow {limit : Nat} {e : Endpoint} {r : Running} {path : String}
    {json : Bool} {w w' : World σ} {result : Except Failure (Exit × Control)}
    (h : runIn (submitAndFollow limit e r path json) w = (result, w')) : shelf w' = shelf w := by
  have hfollowed : shelf (runIn (feed e limit r .submit) w).2 = shelf w :=
    shelf_follow e limit (r := { r with control := (r.control.step .submit).1 }) fun path =>
      (move_step r.control .submit).not_remember nofun path
  unfold submitAndFollow at h
  rcases runIn_bind_cases h with ⟨f, hfeed, -⟩ | ⟨r₁, w₁, hfeed, hrest⟩ <;>
    rw [hfeed] at hfollowed
  · exact hfollowed
  have hquiet : held w' = held w₁ := by
    refine Quiet.held ?_ hrest
    refine (quiet_readAccepted _ _).bind fun _ => (quiet_except _).bind fun _ => ?_
    exact (quiet_showOutcome _ _ _).bind fun _ => quiet_pure _
  exact (shelf_of_held hquiet).trans hfollowed

/-! ## Paths whose clips were asked for -/

def listedPath? (r : Request) : Option String :=
  match r.params with
  | .obj [("path", .str path)] => some path
  | _ => none

/-- The paths whose clips were asked for, the last first. -/
def listedPaths (replies : List (Request × Reply)) : List String :=
  replies.filterMap fun p => listedPath? p.1

theorem listedPaths_append (later earlier : List (Request × Reply)) :
    listedPaths (later ++ earlier) = listedPaths later ++ listedPaths earlier :=
  List.filterMap_append

theorem listedPaths_cons_clips (e : Endpoint) (path : String) (answer : Reply)
    (replies : List (Request × Reply)) :
    listedPaths (((Query.clips path).request e, answer) :: replies) =
      path :: listedPaths replies := rfl

theorem listedPaths_of_none {replies : List (Request × Reply)}
    (h : ∀ p ∈ replies, listedPath? p.1 = none) : listedPaths replies = [] :=
  List.filterMap_eq_nil_iff.mpr h

theorem Loading.listed {e : Endpoint} {s s₁ : Session} {before replies : List (Request × Reply)}
    {stage : LoadStage} {actions : List Action}
    (h : Loading e s before s₁ stage actions replies) :
    listedPaths replies = listedPaths before ∨
      listedPaths replies = s.path :: listedPaths before := by
  cases h with
  | created | begun | clipsAsked => exact Or.inl rfl
  | _ => exact Or.inr rfl

theorem replies_follow (e : Endpoint) (fuel : Nat) (r : Running) (actions : List Action)
    (w : World σ) : ∃ new, (runIn (follow e fuel r actions) w).2.replies = new ++ w.replies := by
  have hgrows : Kept e fun _ _ replies => ∃ new, replies = new ++ w.replies := {
    skip := fun _ _ h => h
    input := fun _ h => h
    ask := by
      rintro c sender q rest replies answer ⟨new, rfl⟩
      exact ⟨(q.request e, answer) :: new, rfl⟩ }
  have hreaches : Reaches (fun _ _ w' => ∃ new, w'.replies = new ++ w.replies)
      (runIn (follow e fuel r actions) w) := follow_keeps hgrows fuel ⟨[], rfl⟩
  obtain ⟨_, _, hnew, -⟩ := hreaches
  exact hnew

/-! ## Opening a path -/

/-- A load asks for the clips of its path in its third step. -/
theorem replies_load {e : Endpoint} (fuel : Nat) {r : Running} {shows : Bool} {s : Session}
    (hr : r.control = loadOnly shows s .created) (hpath : s.path ≠ "") (hloading : s.loading = true)
    (w : World σ) : ∃ new answer, (runIn (follow e (fuel + 3) r [.begin 0]) w).2.replies =
      new ++ ((Query.clips s.path).request e, answer) :: w.replies := by
  have hbegin : (loadOnly shows s .created).step (.begin 0) =
      (loadOnly shows s (.listing s.number s.path .created .created),
        [.beginLeg 0 .clips, .beginLeg 0 .takes]) := beginLoad_loadOnly hpath hloading shows
  have hrun : runIn (follow e (fuel + 3) r [.begin 0]) w =
      runIn (follow e (fuel + 1)
        { r with control := loadOnly shows s (.listing s.number s.path .asked .created) }
        [.ask (.leg 0 .clips) (.clips s.path), .beginLeg 0 .takes]) w := by
    rw [follow_begin_loadOnly (fuel + 2) hr, hr, hbegin]
    rfl
  rw [hrun, follow_ask]
  obtain ⟨new, hnew⟩ := replies_follow e fuel _ _
    ((askServer e (.clips s.path) : StateM (World σ) _).run w).2
  rw [replies_askServer] at hnew
  exact ⟨new, _, hnew⟩

/-- With steps enough for its first request, a path that is opened is remembered, and then its clips
are asked for. -/
theorem feed_openPath {limit : Nat} {e : Endpoint} {r : Running} {path : String}
    (htasks : r.control.tasks = []) (hpoller : r.control.poller = none)
    (hpath : path ≠ "") (enough : 4 ≤ limit) (w : World σ) :
    shelf (runIn (feed e limit r (.openPath path)) w).2 =
        shelf (World.writeFile .memory (r.memory.setLastPath path).fileText w).2 ∧
      listedPaths (runIn (feed e limit r (.openPath path)) w).2.replies =
        path :: listedPaths w.replies := by
  obtain ⟨_, todo, ⟨s₁, stage, -, hloading⟩, -⟩ :=
    loading_feed limit (e := e) htasks hpoller hpath w
  obtain ⟨fuel, rfl⟩ := Nat.exists_eq_add_of_le' enough
  let opening : Running :=
    { r with control := loadOnly r.control.showsPercent (opened r.control.session path) .created }
  have hfeed : (feed e (fuel + 4) r (.openPath path) : Step (StateM (World σ)) Running) =
      follow e (fuel + 4) opening [.remember path, .begin 0] := by
    show follow e (fuel + 4) { r with control := (r.control.openPath path).1 }
      (r.control.openPath path).2 = _
    rw [openPath_eq htasks hpoller path]
  rw [hfeed, follow_remember] at hloading ⊢
  have hremembered := (remember_run opening path w).2
  generalize ((remember opening path : StateM (World σ) Running).run w).2 = w₁
    at hloading hremembered ⊢
  constructor
  · rw [shelf_follow e (fuel + 3) (by simp), shelf_of_unseen hremembered]
  · obtain ⟨new, answer, hnew⟩ := replies_load (e := e) fuel
      (r := { opening with memory := opening.memory.setLastPath path })
      (s := opened r.control.session path) rfl hpath rfl w₁
    have hbefore : w₁.replies = w.replies :=
      (replies_of_unseen hremembered).trans (replies_writeFile _ w)
    -- The clips were asked for, and a load asks for them once at most.
    rcases hloading.listed with hnone | hsome
    · rw [hnew, hbefore, listedPaths_append, listedPaths_cons_clips] at hnone
      have hlength := congrArg List.length hnone
      simp only [List.length_append, List.length_cons] at hlength
      omega
    · exact hsome

end Command

end CardImport
