import CardImport.Proofs.Command.Follow
import CardImport.Proofs.Listing
import CardImport.Proofs.Session.Look
import CardImport.Proofs.Session.Told

/-!
# The load of a command

A command opens its path before it does anything else. It asks for the clips, for the takes and for
the status of the job, in this order and whatever the answers are, unless the listings fail in a way
that no server answers. When the load has ended well the list is that of the two listings and the
status is merged.
-/

namespace CardImport

/-- The list that a load shows for two listings: an empty one where they failed as a request can
fail. -/
def Session.listing (s : Session) (clips : Except Failure (List Clip))
    (takes : Except Failure (List Take)) : Except Failure (List Item) :=
  match (Reconcile.combine s.scene s.path clips takes).outcome.1 with
  | .ok items => .ok items
  | .error f => if Control.isListingFailure f then .ok [] else .error f

/-- A list that is not empty comes of two listings that went through. -/
theorem Session.of_listing {s : Session} {clips : Except Failure (List Clip)}
    {takes : Except Failure (List Take)} {items : List Item}
    (h : s.listing clips takes = .ok items) (hsome : items ≠ []) :
    ∃ cs ts, clips = .ok cs ∧ takes = .ok ts ∧ Reconcile.items s.scene cs ts = .ok items := by
  unfold listing at h
  cases hcombine : (Reconcile.combine s.scene s.path clips takes).outcome.1 with
  | ok listed =>
      rw [hcombine] at h
      cases h
      exact Reconcile.listings_of_combine hcombine
  | error f =>
      simp only [hcombine] at h
      split at h
      · cases h
        exact absurd rfl hsome
      · cases h

def Session.listed (s : Session) (items : List Item) : Session :=
  { s.install items with loading := false }

namespace Command

open Control

/-! ## What is left to do -/

/-- Whether an action sends a request or lets a task go on. -/
def isLive (a : Action) : Bool := (input? a).isSome || (query? a).isSome

def live (actions : List Action) : List Action := actions.filter isLive

@[simp] theorem live_nil : live [] = [] := rfl

@[simp] theorem live_append (first second : List Action) :
    live (first ++ second) = live first ++ live second := List.filter_append ..

@[simp] theorem live_notes (entries : List Entry) : live (notes entries) = [] := by
  refine List.filter_eq_nil_iff.mpr fun a ha => ?_
  obtain ⟨entry, rfl⟩ := exists_note_of_mem ha
  exact Bool.false_ne_true

@[simp] theorem live_lookActions (c : Control) (n : Nat) (r : Except Failure Response) :
    live (c.lookActions n r) = [] := by
  refine List.filter_eq_nil_iff.mpr fun a ha => ?_
  rcases mem_lookActions ha with ⟨entry, rfl⟩ | ⟨status, rfl⟩ <;> exact Bool.false_ne_true

@[simp] theorem live_loadEnd (status : Except Failure JobStatus) :
    live (loadEnd status).2 = [] := by
  unfold loadEnd
  cases status with
  | ok status => rfl
  | error f =>
      simp only
      split <;> rfl

theorem live_cons_of_input {a : Action} {i : Input} (h : input? a = some i)
    (rest : List Action) : live (a :: rest) = a :: live rest :=
  List.filter_cons_of_pos (by simp [isLive, h])

theorem live_cons_ask (sender : Sender) (q : Query) (rest : List Action) :
    live (.ask sender q :: rest) = .ask sender q :: live rest := List.filter_cons_of_pos rfl

theorem live_cons_of_skipped {a : Action} (hinput : input? a = none) (hquery : query? a = none)
    (rest : List Action) : live (a :: rest) = live rest :=
  List.filter_cons_of_neg (by simp [isLive, hinput, hquery])

/-! ## The stages of a load -/

def clipsIn (e : Endpoint) (path : String) (answer : Reply) : Except Failure (List Clip) :=
  ((listClips path).finish (received ((Query.clips path).request e) answer)).outcome.1

def takesIn (e : Endpoint) (answer : Reply) : Except Failure (List Take) :=
  (Registry.list.finish (received (Query.takes.request e) answer)).outcome.1

/-- The reply to a look as a task gets it. -/
def lookIn (e : Endpoint) (answer : Reply) : Except Failure Response :=
  received (Query.status.request e) answer

/-- The requests for both listings with what came back, the last first. -/
def listings (e : Endpoint) (path : String) (clips takes : Reply) : List (Request × Reply) :=
  [(Query.takes.request e, takes), ((Query.clips path).request e, clips)]

def loadOnly (shows : Bool) (s : Session) (stage : LoadStage) : Control :=
  { session := s, tasks := [.load stage], showsPercent := shows }

/-- How far the load of a session has come: the session and the stage that it has now, what it is
about to do, and what came back so far. Whether the progress is shown makes no difference to it. -/
inductive Loading (e : Endpoint) (s : Session) (before : List (Request × Reply)) :
    Session → LoadStage → List Action → List (Request × Reply) → Prop
  | created : Loading e s before s .created [.begin 0] before
  | begun : Loading e s before s (.listing s.number s.path .created .created)
      [.beginLeg 0 .clips, .beginLeg 0 .takes] before
  | clipsAsked : Loading e s before s (.listing s.number s.path .asked .created)
      [.ask (.leg 0 .clips) (.clips s.path), .beginLeg 0 .takes] before
  | clipsListed (clips : Reply) : Loading e s before s
      (.listing s.number s.path (.done (clipsIn e s.path clips)) .created)
      [.beginLeg 0 .takes] (((Query.clips s.path).request e, clips) :: before)
  | takesAsked (clips : Reply) : Loading e s before s
      (.listing s.number s.path (.done (clipsIn e s.path clips)) .asked)
      [.ask (.leg 0 .takes) .takes] (((Query.clips s.path).request e, clips) :: before)
  | takesListed (clips takes : Reply) : Loading e s before s
      (.listing s.number s.path (.done (clipsIn e s.path clips)) (.done (takesIn e takes)))
      [.join 0] (listings e s.path clips takes ++ before)
  | broken (clips takes : Reply) (f : Failure) : Loading e s before s (.done (.error f)) []
      (listings e s.path clips takes ++ before)
  | statusAsked {clips takes : Reply} {items : List Item}
      (hitems : s.listing (clipsIn e s.path clips) (takesIn e takes) = .ok items) :
      Loading e s before (s.listed items) (.asking s.number) [.ask (.task 0) .status]
        (listings e s.path clips takes ++ before)
  | ended {clips takes answer : Reply} {items : List Item} {result : Except Failure Unit}
      (hitems : s.listing (clipsIn e s.path clips) (takesIn e takes) = .ok items)
      (hmerged : result = .ok () → ∀ status, Job.told (lookIn e answer) = .ok status →
        ((s.listed items).merge status).2 = .ok ()) :
      Loading e s before ((s.listed items).look (lookIn e answer)) (.done result) []
        ((Query.status.request e, answer) :: listings e s.path clips takes ++ before)

variable {e : Endpoint} {s s₁ : Session} {before replies : List (Request × Reply)}
  {stage : LoadStage} {actions : List Action}

theorem loaded_loadOnly (shows : Bool) (s : Session) (stage : LoadStage) (items : List Item) :
    (loadOnly shows s stage).loaded 0 items =
      (loadOnly shows (s.listed items) (.asking s.number), [.ask (.task 0) .status]) := rfl

/-- With both listings a load shows its list and asks for the status, or it breaks. -/
theorem joinLoad_loadOnly (s : Session) (clips : Except Failure (List Clip))
    (takes : Except Failure (List Take)) (stage : LoadStage) :
    (∃ f entries, ∀ shows, (loadOnly shows s stage).joinLoad 0 s.number s.path clips takes =
      (loadOnly shows s (.done (.error f)), notes entries)) ∨
    ∃ items actions, s.listing clips takes = .ok items ∧
      (∀ shows, (loadOnly shows s stage).joinLoad 0 s.number s.path clips takes =
        (loadOnly shows (s.listed items) (.asking s.number), actions)) ∧
      live actions = [.ask (.task 0) .status] := by
  have hnumber : ∀ shows, (loadOnly shows s stage).session.number = s.number := fun _ => rfl
  have hscene : ∀ shows, (loadOnly shows s stage).session.scene = s.scene := fun _ => rfl
  unfold joinLoad Session.listing
  simp only [hscene, hnumber, loaded_loadOnly]
  -- Whether progress is shown plays no part in the join, so one case split serves both.
  rcases (Reconcile.combine s.scene s.path clips takes).outcome with ⟨f | items, entries⟩
  · cases hf : isListingFailure f with
    | false =>
        refine Or.inl ⟨f, entries, fun shows => ?_⟩
        simp only [hf, Bool.not_false, if_true]
        rfl
    | true =>
        refine Or.inr ⟨[], notes entries ++ [.note (loadFailed f), .ask (.task 0) .status],
          ?_, ?_, ?_⟩
        · simp only [hf, if_true]
        · intro shows
          simp [hf]
        · rw [live_append, live_notes]
          rfl
  · refine Or.inr ⟨items, notes entries ++ [.ask (.task 0) .status], rfl, ?_, ?_⟩
    · intro shows
      simp
    · rw [live_append, live_notes]
      rfl

/-! ## The last look of a load -/

/-- A progress that cannot be shown fails a merge; otherwise showing it makes no difference. -/
theorem merge_unshown (c : Control) (status : JobStatus) :
    (∃ f, f.isRemote = false ∧ (c.merge status).2.2 = .error f) ∨
      (Control.merge { c with showsPercent := false } status).2 = (c.merge status).2 := by
  unfold Control.merge
  rcases c.session.merge status with ⟨s, f | _⟩
  · exact Or.inr rfl
  · cases hp : c.reportable s.progress with
    | error e =>
        refine Or.inl ⟨.number e, Session.not_isRemote_number e, ?_⟩
        simp only [hp]
    | ok _ =>
        refine Or.inr ?_
        simp only [hp]
        rfl

theorem receiveStatus_unshown (c : Control) (n : Nat) (r : Except Failure Response) :
    (∃ f, f.isRemote = false ∧ c.lookStatus n r = .error f) ∨
      (Control.receiveStatus { c with showsPercent := false } n r).2 =
        (c.receiveStatus n r).2 := by
  unfold lookStatus receiveStatus
  rcases (Job.status.finish r).outcome with ⟨f | status, entries⟩
  · exact Or.inr rfl
  · by_cases hn : n = c.session.number
    · simp only [if_pos hn]
      rcases merge_unshown c status with ⟨f, hf, hm⟩ | hm
      · refine Or.inl ⟨f, hf, ?_⟩
        rw [hm]
        rfl
      · exact Or.inr (congrArg (fun merged : List Action × Except Failure Unit =>
          (notes entries ++ merged.1, merged.2.map fun _ => status)) hm)
    · simp only [if_neg hn]
      exact Or.inr trivial

/-- A look that ends a load merges the status that it was told, or the load ends in an error. -/
theorem endLoad_loadOnly (shows : Bool) (s : Session) (r : Except Failure Response) :
    ∃ result actions, (loadOnly shows s (.asking s.number)).endLoad 0 s.number r =
        (loadOnly shows (s.look r) (.done result), actions) ∧ live actions = [] ∧
      (result = .ok () → ∀ status, Job.told r = .ok status → (s.merge status).2 = .ok ()) ∧
      ((∃ f, result = .error f) ∨
        (loadOnly false s (.asking s.number)).endLoad 0 s.number r =
          (loadOnly false (s.look r) (.done result), actions)) := by
  let c := loadOnly shows s (.asking s.number)
  have hn : s.number = c.session.number := rfl
  have hend : ∀ shows', (loadOnly shows' s (.asking s.number)).endLoad 0 s.number r =
      (loadOnly shows' (s.look r) (.done (loadEnd ((loadOnly shows' s (.asking s.number)).lookStatus
        s.number r)).1), (loadOnly shows' s (.asking s.number)).lookActions s.number r ++
          (loadEnd ((loadOnly shows' s (.asking s.number)).lookStatus s.number r)).2) := by
    intro shows'
    have hlook : (loadOnly shows' s (.asking s.number)).lookSession s.number r = s.look r :=
      lookSession_eq rfl r
    rw [endLoad_eq, hlook]
    rfl
  refine ⟨(loadEnd (c.lookStatus s.number r)).1,
    c.lookActions s.number r ++ (loadEnd (c.lookStatus s.number r)).2, hend shows, by simp, ?_, ?_⟩
  · intro hresult status htold
    rcases (look_of_told htold hn).2 with ⟨f, hf, hlook⟩ | ⟨hmerged, -⟩
    · -- A merge that fails ends the load in an error.
      rw [hlook, loadEnd, hf] at hresult
      cases hresult
    · exact hmerged
  · rcases receiveStatus_unshown c s.number r with ⟨f, hf, hlook⟩ | hsame
    · refine Or.inl ⟨f, ?_⟩
      rw [hlook, loadEnd, hf]
      rfl
    · refine Or.inr ((hend false).trans ?_)
      have hstatus : (loadOnly false s (.asking s.number)).lookStatus s.number r =
          c.lookStatus s.number r := congrArg Prod.snd hsame
      have hactions : (loadOnly false s (.asking s.number)).lookActions s.number r =
          c.lookActions s.number r := congrArg Prod.fst hsame
      rw [hstatus, hactions]

/-! ## One step -/

theorem beginLoad_loadOnly {s : Session} (hpath : s.path ≠ "") (hloading : s.loading = true)
    (shows : Bool) : (loadOnly shows s .created).beginLoad 0 =
      (loadOnly shows s (.listing s.number s.path .created .created),
        [.beginLeg 0 .clips, .beginLeg 0 .takes]) := by
  have hs : { s with loading := true } = s := by
    rw [← hloading]
  have hsession : (loadOnly shows s .created).session = s := rfl
  unfold beginLoad
  rw [hsession]
  simp only [hs, if_neg hpath]
  rfl

theorem Loading.input (hpath : s.path ≠ "") (hloading : s.loading = true) {a : Action} {i : Input}
    (hi : input? a = some i) (h : Loading e s before s₁ stage (a :: actions) replies) :
    ∃ s₂ stage₂ new,
      (∀ shows, (loadOnly shows s₁ stage).step i = (loadOnly shows s₂ stage₂, new)) ∧
      Loading e s before s₂ stage₂ (live new ++ actions) replies := by
  cases h with
  | created =>
      cases hi
      exact ⟨_, _, _, beginLoad_loadOnly hpath hloading, .begun⟩
  | begun =>
      cases hi
      exact ⟨_, _, _, fun _ => rfl, .clipsAsked⟩
  | clipsListed clips =>
      cases hi
      exact ⟨_, _, _, fun _ => rfl, .takesAsked clips⟩
  | takesListed clips takes =>
      cases hi
      rcases joinLoad_loadOnly s (clipsIn e s.path clips) (takesIn e takes) (.listing s.number
        s.path (.done (clipsIn e s.path clips)) (.done (takesIn e takes))) with
        ⟨f, entries, hjoin⟩ | ⟨items, new, hitems, hjoin, hlive⟩
      · refine ⟨_, _, _, hjoin, ?_⟩
        rw [live_notes]
        exact .broken clips takes f
      · refine ⟨_, _, _, hjoin, ?_⟩
        rw [hlive]
        exact .statusAsked hitems
  | clipsAsked | takesAsked | statusAsked => cases hi

theorem Loading.answer (shows : Bool) {sender : Sender} {q : Query} (answer : Reply)
    (h : Loading e s before s₁ stage (.ask sender q :: actions) replies) :
    ∃ s₂ stage₂ new,
      (loadOnly shows s₁ stage).step (answered e sender q answer) =
        (loadOnly shows s₂ stage₂, new) ∧
      Loading e s before s₂ stage₂ (live new ++ actions) ((q.request e, answer) :: replies) ∧
      ((∃ f, stage₂ = .done (.error f)) ∨
        (loadOnly false s₁ stage).step (answered e sender q answer) =
          (loadOnly false s₂ stage₂, new)) := by
  cases h with
  | clipsAsked =>
      refine ⟨_, _, notes _ ++ [], rfl, ?_, Or.inr rfl⟩
      rw [live_append, live_notes]
      exact .clipsListed answer
  | takesAsked clips =>
      refine ⟨_, _, notes _ ++ [.join 0], rfl, ?_, Or.inr rfl⟩
      rw [live_append, live_notes]
      exact .takesListed clips answer
  | @statusAsked clips takes items hitems =>
      obtain ⟨result, new, hstep, hlive, hmerged, hsame⟩ :=
        endLoad_loadOnly shows (s.listed items) (lookIn e answer)
      refine ⟨_, _, new, hstep, ?_, ?_⟩
      · rw [hlive]
        exact .ended hitems hmerged
      · rcases hsame with ⟨f, rfl⟩ | hsame
        · exact Or.inl ⟨f, rfl⟩
        · exact Or.inr hsame

/-! ## The whole load -/

/-- A session at the beginning of the load of a path. -/
def opened (s : Session) (path : String) : Session :=
  { s with number := s.number + 1, path, loading := true }

theorem openPath_eq {c : Control} (htasks : c.tasks = []) (hpoller : c.poller = none)
    (path : String) : c.openPath path =
      (loadOnly c.showsPercent (opened c.session path) .created, [.remember path, .begin 0]) := by
  simp only [openPath, close, hpoller, spawn, setSession, htasks]
  rfl

/-- What holds of the session, the actions that are left and the replies while a load of `s` is
followed. -/
def LoadsFrom (e : Endpoint) (shows : Bool) (s : Session) (before : List (Request × Reply))
    (c : Control) (actions : List Action) (replies : List (Request × Reply)) : Prop :=
  ∃ s₁ stage, c = loadOnly shows s₁ stage ∧ Loading e s before s₁ stage (live actions) replies

theorem kept_loadsFrom {shows : Bool} (hpath : s.path ≠ "") (hloading : s.loading = true) :
    Kept e (LoadsFrom e shows s before) where
  skip := by
    rintro c a rest replies hi hq ⟨s₁, stage, rfl, h⟩
    rw [live_cons_of_skipped hi hq] at h
    exact ⟨s₁, stage, rfl, h⟩
  input := by
    rintro c a i rest replies hi ⟨s₁, stage, rfl, h⟩
    rw [live_cons_of_input hi] at h
    obtain ⟨s₂, stage₂, new, hstep, h₂⟩ := h.input hpath hloading hi
    rw [hstep shows, LoadsFrom, live_append]
    exact ⟨s₂, stage₂, rfl, h₂⟩
  ask := by
    rintro c sender q rest replies answer ⟨s₁, stage, rfl, h⟩
    rw [live_cons_ask] at h
    obtain ⟨s₂, stage₂, new, hstep, h₂, -⟩ := h.answer shows answer
    rw [hstep, LoadsFrom, live_append]
    exact ⟨s₂, stage₂, rfl, h₂⟩

theorem loading_follow {σ : Type} {shows : Bool} (hpath : s.path ≠ "") (hloading : s.loading = true)
    (fuel : Nat) {r : Running} {w : World σ} (hr : r.control = loadOnly shows s₁ stage)
    (h : Loading e s before s₁ stage (live actions) w.replies) :
    Reaches (fun r rest w => LoadsFrom e shows s before r.control rest w.replies)
      (runIn (follow e fuel r actions) w) :=
  follow_keeps (kept_loadsFrom hpath hloading) fuel ⟨s₁, stage, hr, h⟩

def reads (e : Endpoint) (path : String) : List Request :=
  [(Query.clips path).request e, Query.takes.request e, Query.status.request e]

theorem method_of_mem_reads {path : String} {q : Request} (h : q ∈ reads e path) :
    q.method = "GET" := by
  simp only [reads, List.mem_cons, List.not_mem_nil, or_false] at h
  rcases h with rfl | rfl | rfl <;> rfl

theorem Loading.reads (h : Loading e s before s₁ stage actions replies) :
    ∃ new, replies = new ++ before ∧ ∀ p ∈ new, p.1 ∈ reads e s.path := by
  cases h with
  | created | begun | clipsAsked => exact ⟨[], rfl, List.forall_mem_nil _⟩
  | clipsListed clips | takesAsked clips =>
      exact ⟨[((Query.clips s.path).request e, clips)], rfl, by simp [Command.reads]⟩
  | takesListed clips takes | broken clips takes =>
      exact ⟨listings e s.path clips takes, rfl, by simp [Command.reads, listings]⟩
  | @statusAsked clips takes =>
      exact ⟨listings e s.path clips takes, rfl, by simp [Command.reads, listings]⟩
  | @ended clips takes answer =>
      exact ⟨(Query.status.request e, answer) :: listings e s.path clips takes, rfl,
        by simp [Command.reads, listings]⟩

/-- A load that has ended well: what came back, the list that is shown, and the session after its
look. -/
structure Loaded (e : Endpoint) (s : Session) (clips takes answer : Reply) (items : List Item)
    (c : Control) : Prop where
  tasks : c.tasks = [.load (.done (.ok ()))]
  poller : c.poller = none
  listing : s.listing (clipsIn e s.path clips) (takesIn e takes) = .ok items
  session : c.session = (s.listed items).look (lookIn e answer)
  merged : ∀ status, Job.told (lookIn e answer) = .ok status →
    ((s.listed items).merge status).2 = .ok ()

theorem Loading.of_loadResult {shows : Bool} {c : Control} (hc : c = loadOnly shows s₁ stage)
    (h : Loading e s before s₁ stage actions replies) (hok : loadResult c = .ok ()) :
    ∃ clips takes answer items, Loaded e s clips takes answer items c ∧
      replies = (Query.status.request e, answer) :: listings e s.path clips takes ++ before := by
  subst hc
  cases h with
  | @ended clips takes answer items result hitems hmerged =>
      have hresult : result = .ok () := hok
      subst hresult
      exact ⟨clips, takes, answer, items, ⟨rfl, rfl, hitems, rfl, hmerged rfl⟩, rfl⟩
  | _ => cases hok

theorem Loaded.indexed {clips takes answer : Reply} {items : List Item} {c : Control}
    (h : Loaded e s clips takes answer items c) : c.session.Indexed := by
  rw [h.session]
  exact Session.Indexed.of_base (s := s.listed items) rfl (Session.base_look _ _)

end Command

end CardImport
