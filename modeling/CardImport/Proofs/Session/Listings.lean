import CardImport.Proofs.Listing
import CardImport.Proofs.Session.Source

/-!
# The two listings of a load

A load lists its path and the takes at the same time. Each listing sends its request once and waits
for the answer to it, whatever becomes of the other one; the load goes on when both are answered.
So what it goes on with depends on the two answers, and not on the order in which they come: the
failure of the clips, or else the failure of the takes, or else the items of both.
-/

namespace CardImport

def Leg.query (path : String) : Leg → Query
  | .clips => .clips path
  | .takes => .takes

/-! ## How far a listing comes -/

namespace LegStage

variable {α β : Type}

def map (f : Except Failure α → Except Failure β) : LegStage α → LegStage β
  | .created => .created
  | .asked => .asked
  | .done result => .done (f result)

@[simp] theorem map_created (f : Except Failure α → Except Failure β) :
    map f .created = .created := rfl

@[simp] theorem map_asked (f : Except Failure α → Except Failure β) : map f .asked = .asked := rfl

@[simp] theorem map_done (f : Except Failure α → Except Failure β) (result : Except Failure α) :
    map f (.done result) = .done (f result) := rfl

/-- What a listing has sent whose request is `q`. -/
def sent (q : Query) : LegStage α → List Query
  | .created => []
  | _ => [q]

/-- A listing of the load `id` after one more input. -/
def next (id : TaskId) (leg : Leg) : LegStage Response → Input → LegStage Response
  | .created, .beginLeg j l => if j = id ∧ l = leg then .asked else .created
  | .asked, .response (.leg j l) r => if j = id ∧ l = leg then .done r else .asked
  | stage, _ => stage

end LegStage

/-- The answers that the listings of a load have got so far. -/
abbrev Heard := Leg → LegStage Response

namespace Heard

def next (h : Heard) (id : TaskId) (i : Input) : Heard := fun leg => (h leg).next id leg i

/-- What the listings of the load `id` have got after inputs. -/
def run (h : Heard) (id : TaskId) (inputs : List Input) : Heard :=
  inputs.foldl (fun h i => h.next id i) h

/-- What the listings have got before they begin. -/
def first : Heard := fun _ => .created

def set (h : Heard) (leg : Leg) (stage : LegStage Response) : Heard :=
  fun l => if l = leg then stage else h l

def Complete (h : Heard) : Prop := ∀ leg, ∃ r, h leg = .done r

/-- Whether an input is for a listing of the load `id`. -/
def Concerns (id : TaskId) (i : Input) : Prop :=
  ∃ leg, i = .beginLeg id leg ∨ ∃ r, i = .response (.leg id leg) r

@[simp] theorem set_self (h : Heard) (leg : Leg) (stage : LegStage Response) :
    h.set leg stage leg = stage := if_pos rfl

theorem set_of_ne (h : Heard) {leg l : Leg} (hl : l ≠ leg) (stage : LegStage Response) :
    h.set leg stage l = h l := if_neg hl

theorem next_of_not_concerns {id : TaskId} {i : Input} (hi : ¬ Concerns id i) (h : Heard) :
    h.next id i = h := by
  funext leg
  unfold next LegStage.next
  split
  · rename_i j l hstage
    rw [if_neg, hstage]
    rintro ⟨rfl, rfl⟩
    exact hi ⟨l, Or.inl rfl⟩
  · rename_i j l r hstage
    rw [if_neg, hstage]
    rintro ⟨rfl, rfl⟩
    exact hi ⟨l, Or.inr ⟨r, rfl⟩⟩
  · rfl

theorem next_beginLeg {h : Heard} {leg : Leg} (hstage : h leg = .created) (id : TaskId) :
    h.next id (.beginLeg id leg) = h.set leg .asked := by
  funext l
  by_cases hl : l = leg
  · subst hl
    simp [next, LegStage.next, hstage]
  · rw [set_of_ne h hl]
    cases hother : h l <;> simp [next, LegStage.next, hother, Ne.symm hl]

theorem next_beginLeg_of_ne {h : Heard} {leg : Leg} (hstage : h leg ≠ .created) (id : TaskId) :
    h.next id (.beginLeg id leg) = h := by
  funext l
  cases hother : h l with
  | created =>
      have hl : leg ≠ l := by
        rintro rfl
        exact hstage hother
      simp [next, LegStage.next, hother, hl]
  | asked | done => simp [next, LegStage.next, hother]

theorem next_response {h : Heard} {leg : Leg} (hstage : h leg = .asked) (id : TaskId)
    (r : Except Failure Response) :
    h.next id (.response (.leg id leg) r) = h.set leg (.done r) := by
  funext l
  by_cases hl : l = leg
  · subst hl
    simp [next, LegStage.next, hstage]
  · rw [set_of_ne h hl]
    cases hother : h l <;> simp [next, LegStage.next, hother, Ne.symm hl]

theorem next_response_of_ne {h : Heard} {leg : Leg} (hstage : h leg ≠ .asked) (id : TaskId)
    (r : Except Failure Response) : h.next id (.response (.leg id leg) r) = h := by
  funext l
  cases hother : h l with
  | asked =>
      have hl : leg ≠ l := by
        rintro rfl
        exact hstage hother
      simp [next, LegStage.next, hother, hl]
  | created | done => simp [next, LegStage.next, hother]

theorem next_of_complete {h : Heard} (hdone : h.Complete) (id : TaskId) (i : Input) :
    h.next id i = h := by
  funext leg
  obtain ⟨r, hr⟩ := hdone leg
  simp [next, LegStage.next, hr]

theorem run_of_complete {h : Heard} (hdone : h.Complete) (id : TaskId) (inputs : List Input) :
    h.run id inputs = h := by
  induction inputs with
  | nil => rfl
  | cons i rest ih =>
      rw [run, List.foldl_cons, next_of_complete hdone]
      exact ih

end Heard

/-! ## What becomes of the answers -/

def clipsOf (path : String) (r : Except Failure Response) : Except Failure (List Clip) :=
  ((listClips path).finish r).outcome.1

def takesOf (r : Except Failure Response) : Except Failure (List Take) :=
  (Registry.list.finish r).outcome.1

/-- What a load goes on with: the failure of the clips, or else that of the takes, or else the items
of both. -/
def Reconcile.result (scene : Json) :
    Except Failure (List Clip) → Except Failure (List Take) → Except Failure (List Item)
  | .error f, _ => .error f
  | .ok _, .error f => .error f
  | .ok clips, .ok takes => items scene clips takes

/-- A list that was loaded is noted. -/
def Reconcile.noted (path : String) : Except Failure (List Item) → List Entry
  | .error _ => []
  | .ok items => [loaded path items]

theorem Reconcile.outcome_combine_eq (scene : Json) (path : String)
    (clips : Except Failure (List Clip)) (takes : Except Failure (List Take)) :
    (combine scene path clips takes).outcome =
      (result scene clips takes, noted path (result scene clips takes)) := by
  cases clips with
  | error f => rfl
  | ok cs =>
      cases takes with
      | error f => rfl
      | ok ts =>
          rw [outcome_combine, result]
          cases items scene cs ts <;> rfl

namespace Control

/-- A load goes on with the items of its listings, or with their failure. -/
def resume (c : Control) (id : TaskId) (session : Nat) (path : String) :
    Except Failure (List Item) → Control × List Action
  | .error f =>
    if !isListingFailure f then (c.setTask id (.load (.done (.error f))), [])
    else if session ≠ c.session.number then (c.setTask id (.load (.done (.ok ()))), [])
    else ((c.loaded id []).1, .note (loadFailed f) :: (c.loaded id []).2)
  | .ok items =>
    let entry := Action.note (Reconcile.loaded path items)
    if session ≠ c.session.number then (c.setTask id (.load (.done (.ok ()))), [entry])
    else ((c.loaded id items).1, entry :: (c.loaded id items).2)

theorem joinLoad_eq (c : Control) (id : TaskId) (session : Nat) (path : String)
    (clips : Except Failure (List Clip)) (takes : Except Failure (List Take)) :
    c.joinLoad id session path clips takes =
      c.resume id session path (Reconcile.result c.session.scene clips takes) := by
  unfold joinLoad resume
  rw [Reconcile.outcome_combine_eq]
  cases Reconcile.result c.session.scene clips takes with
  | error f =>
      simp only
      split
      · rfl
      · split <;> rfl
  | ok items =>
      simp only
      split <;> rfl

/-! ## Requests of a listing -/

/-- The requests of a sender among actions, in their order. -/
def queriesFrom (sender : Sender) (actions : List Action) : List Query :=
  actions.filterMap fun
    | .ask s q => if s = sender then some q else none
    | _ => none

theorem queriesFrom_append (sender : Sender) (first second : List Action) :
    queriesFrom sender (first ++ second) = queriesFrom sender first ++ queriesFrom sender second :=
  List.filterMap_append

theorem queriesFrom_eq_nil {sender : Sender} {actions : List Action}
    (h : ∀ q, .ask sender q ∉ actions) : queriesFrom sender actions = [] := by
  apply List.filterMap_eq_nil_iff.mpr
  intro a ha
  split
  · rename_i s q
    apply if_neg
    rintro rfl
    exact h q ha
  · rfl

/-- The request of a listing is sent when the listing begins. -/
theorem Turn.beginLeg_of_ask {c : Control} {id j : TaskId} {leg : Leg} {q : Query} {i : Input}
    {t t' : Task} {s : Session} {actions : List Action} (h : Turn c id i t s t' actions)
    (ha : .ask (.leg j leg) q ∈ actions) : i = .beginLeg j leg := by
  cases h with
  | clipsAsked =>
      cases List.mem_singleton.mp ha
      rfl
  | takesAsked =>
      cases List.mem_singleton.mp ha
      rfl
  | _ => simp at ha

theorem queriesFrom_step {c : Control} {id : TaskId} {leg : Leg} {i : Input}
    (hi : i ≠ .beginLeg id leg) : queriesFrom (.leg id leg) (c.step i).2 = [] := by
  apply queriesFrom_eq_nil
  intro q ha
  obtain ⟨j, t, s, t', -, hturn, -⟩ := (move_step c i).turn_of_ask ha
  exact hi (hturn.beginLeg_of_ask ha)

/-! ## One more input -/

/-- A load lists a path, and its listings have got so much. -/
def Lists (c : Control) (id : TaskId) (n : Nat) (path : String) (h : Heard) : Prop :=
  c.task? id = some
    (.load (.listing n path ((h .clips).map (clipsOf path)) ((h .takes).map takesOf)))

/-- How the listings of a load come forward with what is asked of the outside: each sends its
request when it begins, and once all is answered the load is to go on. -/
structure Advances (id : TaskId) (path : String) (h h' : Heard) (actions : List Action) : Prop where
  sent : ∀ leg, (h' leg).sent (leg.query path) =
    (h leg).sent (leg.query path) ++ queriesFrom (.leg id leg) actions
  joins : ¬ h.Complete → h'.Complete → .join id ∈ actions

theorem Advances.trans {id : TaskId} {path : String} {h h' h'' : Heard}
    {first second : List Action} (hfirst : Advances id path h h' first)
    (hsecond : Advances id path h' h'' second) : Advances id path h h'' (first ++ second) where
  sent := by
    intro leg
    rw [hsecond.sent, hfirst.sent, queriesFrom_append, List.append_assoc]
  joins := by
    intro hopen hdone
    by_cases hmid : h'.Complete
    · exact List.mem_append_left _ (hfirst.joins hopen hmid)
    · exact List.mem_append_right _ (hsecond.joins hmid hdone)

theorem Advances.stay {id : TaskId} {path : String} {actions : List Action} (h : Heard)
    (hnone : ∀ leg, queriesFrom (.leg id leg) actions = []) : Advances id path h h actions where
  sent := by
    intro leg
    rw [hnone, List.append_nil]
  joins := fun hopen hdone => absurd hdone hopen

section

variable {c : Control} {id : TaskId} {n : Nat} {path : String} {h : Heard}

theorem Lists.set_clips (hc : c.Lists id n path h) (stage : LegStage Response) :
    (c.setTask id (.load (.listing n path (stage.map (clipsOf path))
      ((h .takes).map takesOf)))).Lists id n path (h.set .clips stage) := by
  have htakes : h.set .clips stage .takes = h .takes := Heard.set_of_ne h (by decide) stage
  rw [Lists, Heard.set_self, htakes]
  exact task?_setTask_self hc _

theorem Lists.set_takes (hc : c.Lists id n path h) (stage : LegStage Response) :
    (c.setTask id (.load (.listing n path ((h .clips).map (clipsOf path))
      (stage.map takesOf)))).Lists id n path (h.set .takes stage) := by
  have hclips : h.set .takes stage .clips = h .clips := Heard.set_of_ne h (by decide) stage
  rw [Lists, Heard.set_self, hclips]
  exact task?_setTask_self hc _

theorem Lists.step_beginLeg (hc : c.Lists id n path h) {leg : Leg} (hstage : h leg = .created) :
    (c.step (.beginLeg id leg)).1.Lists id n path (h.set leg .asked) ∧
      (c.step (.beginLeg id leg)).2 = [.ask (.leg id leg) (leg.query path)] := by
  have hsame := hc
  rw [Lists] at hc
  cases leg with
  | clips =>
      rw [hstage, LegStage.map_created] at hc
      simp only [step, beginLeg, hc]
      exact ⟨hsame.set_clips .asked, rfl⟩
  | takes =>
      rw [hstage, LegStage.map_created] at hc
      simp only [step, beginLeg, hc]
      exact ⟨hsame.set_takes .asked, rfl⟩

theorem Lists.step_beginLeg_of_ne (hc : c.Lists id n path h) {leg : Leg}
    (hstage : h leg ≠ .created) : c.step (.beginLeg id leg) = (c, []) := by
  rw [Lists] at hc
  cases leg with
  | clips =>
      cases hclips : h .clips with
      | created => exact absurd hclips hstage
      | asked | done => simp [step, beginLeg, hc, hclips]
  | takes =>
      cases htakes : h .takes with
      | created => exact absurd htakes hstage
      | asked | done => simp [step, beginLeg, hc, htakes]

theorem mem_joinIfDone (hdone : h.Complete) (path : String) (id : TaskId) :
    .join id ∈ joinIfDone id ((h .clips).map (clipsOf path)) ((h .takes).map takesOf) := by
  obtain ⟨rc, hclips⟩ := hdone .clips
  obtain ⟨rt, htakes⟩ := hdone .takes
  rw [hclips, htakes]
  exact List.mem_singleton.mpr rfl

/-- A listing that waits takes its answer, and with the last one the load is to go on. -/
theorem Lists.step_response (hc : c.Lists id n path h) {leg : Leg} (hstage : h leg = .asked)
    (r : Except Failure Response) :
    (c.step (.response (.leg id leg) r)).1.Lists id n path (h.set leg (.done r)) ∧
      ((h.set leg (.done r)).Complete →
        .join id ∈ (c.step (.response (.leg id leg) r)).2) := by
  have hsame := hc
  rw [Lists] at hc
  cases leg with
  | clips =>
      rw [hstage, LegStage.map_asked] at hc
      simp only [step, receiveLeg, hc]
      refine ⟨hsame.set_clips (.done r), ?_⟩
      intro hdone
      have hjoin := mem_joinIfDone hdone path id
      rw [Heard.set_self, Heard.set_of_ne h (by decide)] at hjoin
      exact List.mem_append_right _ hjoin
  | takes =>
      rw [hstage, LegStage.map_asked] at hc
      simp only [step, receiveLeg, hc]
      refine ⟨hsame.set_takes (.done r), ?_⟩
      intro hdone
      have hjoin := mem_joinIfDone hdone path id
      rw [Heard.set_self, Heard.set_of_ne h (by decide)] at hjoin
      exact List.mem_append_right _ hjoin

theorem Lists.step_response_of_ne (hc : c.Lists id n path h) {leg : Leg}
    (hstage : h leg ≠ .asked) (r : Except Failure Response) :
    c.step (.response (.leg id leg) r) = (c, []) := by
  rw [Lists] at hc
  cases leg with
  | clips =>
      cases hclips : h .clips with
      | asked => exact absurd hclips hstage
      | created | done => simp [step, receiveLeg, hc, hclips]
  | takes =>
      cases htakes : h .takes with
      | asked => exact absurd htakes hstage
      | created | done => simp [step, receiveLeg, hc, htakes]

theorem Lists.step_of_concerns (hc : c.Lists id n path h) {i : Input}
    (hi : Heard.Concerns id i) : (c.step i).1.Lists id n path (h.next id i) ∧
      Advances id path h (h.next id i) (c.step i).2 := by
  -- An input that comes at the wrong time is dropped, and the listing stays as it was heard.
  obtain ⟨leg, rfl | ⟨r, rfl⟩⟩ := hi
  · by_cases hstage : h leg = .created
    · obtain ⟨hlists, hactions⟩ := hc.step_beginLeg hstage
      rw [Heard.next_beginLeg hstage]
      refine ⟨hlists, ?_, ?_⟩
      · intro l
        by_cases hl : l = leg
        · subst hl
          rw [hactions, Heard.set_self, hstage]
          simp [LegStage.sent, queriesFrom]
        · have hne : Input.beginLeg id leg ≠ .beginLeg id l := by
            intro heq
            cases heq
            exact hl rfl
          rw [Heard.set_of_ne h hl, queriesFrom_step hne, List.append_nil]
      · intro _ hdone
        obtain ⟨r, hr⟩ := hdone leg
        rw [Heard.set_self] at hr
        cases hr
    · rw [hc.step_beginLeg_of_ne hstage, Heard.next_beginLeg_of_ne hstage]
      exact ⟨hc, .stay h fun _ => rfl⟩
  · by_cases hstage : h leg = .asked
    · obtain ⟨hlists, hjoin⟩ := hc.step_response hstage r
      rw [Heard.next_response hstage]
      refine ⟨hlists, ?_, fun _ => hjoin⟩
      intro l
      have hnone : queriesFrom (.leg id l) (c.step (.response (.leg id leg) r)).2 = [] :=
        queriesFrom_step nofun
      rw [hnone, List.append_nil]
      by_cases hl : l = leg
      · subst hl
        rw [Heard.set_self, hstage]
        rfl
      · rw [Heard.set_of_ne h hl]
    · rw [hc.step_response_of_ne hstage, Heard.next_response_of_ne hstage]
      exact ⟨hc, .stay h fun _ => rfl⟩

theorem Turn.concerns_of_listing {i : Input} {clips : LegStage (List Clip)}
    {takes : LegStage (List Take)} {t : Task} {s : Session} {actions : List Action}
    (hturn : Turn c id i (.load (.listing n path clips takes)) s t actions) :
    Heard.Concerns id i ∨ i = .joined id := by
  cases hturn with
  | clipsAsked | takesAsked => exact Or.inl ⟨_, Or.inl rfl⟩
  | clipsListed | takesListed => exact Or.inl ⟨_, Or.inr ⟨_, rfl⟩⟩
  | listShown | listFailed | listDropped | listBroken => exact Or.inr rfl

/-- What is for neither listing, and does not make the load go on, leaves it as it is. -/
theorem Lists.step_of_not_concerns (hc : c.Lists id n path h) {i : Input}
    (hi : ¬ Heard.Concerns id i) (hjoined : i ≠ .joined id) :
    (c.step i).1.Lists id n path h := by
  obtain ⟨t', ht', hb⟩ := (move_step c i).became hc
  generalize hstages : Task.load (.listing n path ((h .clips).map (clipsOf path))
    ((h .takes).map takesOf)) = t at hb
  cases hb with
  | same => exact ht'.trans (congrArg some hstages.symm)
  | turned hturn =>
      subst hstages
      rcases hturn.concerns_of_listing with hconcerns | hjoins
      · exact absurd hconcerns hi
      · exact absurd hjoins hjoined
  | stopped =>
      subst hstages
      exact ht'
  | accepted => cases hstages

theorem Lists.step_joined_early (hc : c.Lists id n path h) (hopen : ¬ h.Complete) :
    c.step (.joined id) = (c, []) := by
  rw [Lists] at hc
  show c.join id = (c, [])
  unfold join
  rw [hc]
  cases hclips : h .clips with
  | created | asked => rfl
  | done rc =>
      cases htakes : h .takes with
      | created | asked => rfl
      | done rt =>
          apply absurd _ hopen
          intro leg
          cases leg with
          | clips => exact ⟨rc, hclips⟩
          | takes => exact ⟨rt, htakes⟩

/-- A load that has both answers goes on with what they tell together. -/
theorem Lists.step_joined (hc : c.Lists id n path h) {rc rt : Except Failure Response}
    (hclips : h .clips = .done rc) (htakes : h .takes = .done rt) :
    c.step (.joined id) =
      c.resume id n path (Reconcile.result c.session.scene (clipsOf path rc) (takesOf rt)) := by
  rw [Lists, hclips, htakes, LegStage.map_done, LegStage.map_done] at hc
  show c.join id = _
  unfold join
  rw [hc]
  exact joinLoad_eq c id n path _ _

/-- A load goes on listing with one more input, unless this makes it go on. -/
theorem Lists.step (hc : c.Lists id n path h) (i : Input) :
    ((c.step i).1.Lists id n path (h.next id i) ∧ Advances id path h (h.next id i) (c.step i).2) ∨
      i = .joined id ∧ h.Complete := by
  by_cases hi : Heard.Concerns id i
  · exact Or.inl (hc.step_of_concerns hi)
  · rw [Heard.next_of_not_concerns hi]
    have hnone : ∀ leg, queriesFrom (.leg id leg) (c.step i).2 = [] :=
      fun leg => queriesFrom_step fun heq => hi ⟨leg, Or.inl heq⟩
    by_cases hjoined : i = .joined id
    · by_cases hdone : h.Complete
      · exact Or.inr ⟨hjoined, hdone⟩
      · subst hjoined
        rw [hc.step_joined_early hdone]
        exact Or.inl ⟨hc, .stay h fun _ => rfl⟩
    · exact Or.inl ⟨hc.step_of_not_concerns hi hjoined, .stay h hnone⟩

/-! ## Runs -/

theorem hasListed_resume {t : Task} (ht : c.task? id = some t) (n : Nat) (path : String)
    (result : Except Failure (List Item)) :
    ∃ t', (c.resume id n path result).1.task? id = some t' ∧ t'.HasListed := by
  unfold resume
  split
  · split
    · exact ⟨_, task?_setTask_self ht _, trivial⟩
    · split
      · exact ⟨_, task?_setTask_self ht _, trivial⟩
      · exact ⟨_, task?_setTask_self (c := c.setSession _) ht _, trivial⟩
  · split
    · exact ⟨_, task?_setTask_self ht _, trivial⟩
    · exact ⟨_, task?_setTask_self (c := c.setSession _) ht _, trivial⟩

/-- A load that has gone on asks for no listing any more. -/
theorem queriesFrom_of_hasListed {t : Task} (ht : c.task? id = some t) (hlisted : t.HasListed)
    (leg : Leg) (inputs : List Input) : queriesFrom (.leg id leg) (c.run inputs).2 = [] := by
  apply queriesFrom_eq_nil
  intro q
  apply run_avoids (P := fun c => ∃ t, c.task? id = some t ∧ t.HasListed) _ ⟨t, ht, hlisted⟩
  rintro c i c' actions hmove ⟨t, ht, hlisted⟩
  obtain ⟨t', ht', hb⟩ := hmove.became ht
  refine ⟨⟨t', ht', hb.hasListed hlisted⟩, ?_⟩
  intro ha
  obtain ⟨j, u, hasks, hu, -⟩ := hmove.asks ha
  have hlater := hb.hasListed hlisted
  cases hasks with
  | clips | takes =>
      obtain rfl := Option.some.inj (ht'.symm.trans hu)
      exact hlater

/-- Over a run the listings of a load come forward, and the load goes on listing unless it was made
to go on when all was answered. -/
theorem Lists.run (hc : c.Lists id n path h) (inputs : List Input) :
    Advances id path h (h.run id inputs) (c.run inputs).2 ∧
      ((c.run inputs).1.Lists id n path (h.run id inputs) ∨
        (h.run id inputs).Complete ∧ ∃ earlier later, inputs = earlier ++ .joined id :: later ∧
          (c.run earlier).1.Lists id n path (h.run id inputs)) := by
  induction inputs generalizing c h with
  | nil => exact ⟨.stay h fun _ => rfl, Or.inl hc⟩
  | cons i rest ih =>
      rcases hc.step i with ⟨hnext, hadvances⟩ | ⟨rfl, hdone⟩
      · obtain ⟨hlater, hend⟩ := ih hnext
        refine ⟨hadvances.trans hlater, ?_⟩
        rcases hend with hlists | ⟨hdone, earlier, later, rfl, hlists⟩
        · exact Or.inl hlists
        · exact Or.inr ⟨hdone, i :: earlier, later, rfl, hlists⟩
      · -- The load goes on, and its listings have all that they get.
        rw [Heard.run_of_complete hdone]
        refine ⟨.stay h ?_, Or.inr ⟨hdone, [], rest, rfl, hc⟩⟩
        intro leg
        obtain ⟨rc, hclips⟩ := hdone .clips
        obtain ⟨rt, htakes⟩ := hdone .takes
        obtain ⟨t, ht, hlisted⟩ := hasListed_resume hc n path
          (Reconcile.result c.session.scene (clipsOf path rc) (takesOf rt))
        rw [← hc.step_joined hclips htakes] at ht
        have hlater := queriesFrom_of_hasListed ht hlisted leg rest
        show queriesFrom _ ((c.step (.joined id)).2 ++ ((c.step (.joined id)).1.run rest).2) = []
        have hnone : queriesFrom (.leg id leg) (c.step (.joined id)).2 = [] :=
          queriesFrom_step nofun
        rw [queriesFrom_append, hlater, hnone]
        rfl

/-- When all is answered the load goes on in time, and what it goes on with is told by the answers
alone. -/
theorem Lists.joins (hc : c.Lists id n path h) (inputs : List Input)
    {rc rt : Except Failure Response} (hclips : h.run id inputs .clips = .done rc)
    (htakes : h.run id inputs .takes = .done rt) :
    ∃ earlier later, inputs ++ [.joined id] = earlier ++ .joined id :: later ∧
      (c.run earlier).1.Lists id n path (h.run id inputs) ∧
      (c.run earlier).1.step (.joined id) = (c.run earlier).1.resume id n path
        (Reconcile.result c.session.scene (clipsOf path rc) (takesOf rt)) := by
  have hresume : ∀ earlier, (c.run earlier).1.Lists id n path (h.run id inputs) →
      (c.run earlier).1.step (.joined id) = (c.run earlier).1.resume id n path
        (Reconcile.result c.session.scene (clipsOf path rc) (takesOf rt)) := by
    intro earlier hlists
    rw [hlists.step_joined hclips htakes, scene_run]
  rcases (hc.run inputs).2 with hlists | ⟨-, earlier, later, rfl, hlists⟩
  · exact ⟨inputs, [], rfl, hlists, hresume inputs hlists⟩
  · exact ⟨earlier, later ++ [.joined id], by simp, hlists, hresume earlier hlists⟩

end

/-! ## Both listings of a load -/

theorem Turn.begins_legs {c : Control} {id : TaskId} {i : Input} {t : Task} {s : Session} {n : Nat}
    {path : String} {actions : List Action}
    (h : Turn c id i t s (.load (.listing n path .created .created)) actions) :
    actions = [.beginLeg id .clips, .beginLeg id .takes] := by
  generalize ht' : Task.load (.listing n path .created .created) = t' at h
  cases h with
  | loadBegins => rfl
  | _ => cases ht'

/-- With the step from which on a load lists, both its listings begin. -/
theorem legs_begin {c : Control} {id : TaskId} {i : Input} {n : Nat} {path : String}
    (hafter : (c.step i).1.task? id = some (.load (.listing n path .created .created)))
    (hbefore : c.task? id ≠ some (.load (.listing n path .created .created))) :
    (c.step i).2 = [.beginLeg id .clips, .beginLeg id .takes] := by
  have hmove := move_step c i
  cases hold : c.task? id with
  | none => cases hmove.new hold hafter
  | some t =>
      obtain ⟨t', ht', hb⟩ := hmove.became hold
      obtain rfl := Option.some.inj (ht'.symm.trans hafter)
      generalize ht' : Task.load (.listing n path .created .created) = t' at hb
      cases hb with
      | same => exact absurd (hold.trans (congrArg some ht'.symm)) hbefore
      | turned hturn =>
          subst ht'
          exact hturn.begins_legs
      | stopped =>
          cases t with
          | load stage => exact absurd (hold.trans (congrArg some ht'.symm)) hbefore
          | _ => cases ht'
      | accepted => cases ht'

/-- A load lists its path and the takes at once. Each request is sent once, the load goes on listing
until both are answered, and then goes on with what both answers tell, in whichever order they
came. -/
theorem listings_joined {c : Control} {id : TaskId} {n : Nat} {path : String}
    (ht : c.task? id = some (.load (.listing n path .created .created))) (inputs : List Input) :
    let heard := Heard.first.run id inputs
    (∀ (before : Control) (i : Input), c = (before.step i).1 → before.task? id ≠ c.task? id →
      (before.step i).2 = [.beginLeg id .clips, .beginLeg id .takes]) ∧
    (∀ leg, queriesFrom (.leg id leg) (c.run inputs).2 = (heard leg).sent (leg.query path)) ∧
    (¬ heard.Complete → (c.run inputs).1.Lists id n path heard) ∧
    ∀ rc rt, heard .clips = .done rc → heard .takes = .done rt →
      .join id ∈ (c.run inputs).2 ∧
      ∃ earlier later, inputs ++ [.joined id] = earlier ++ .joined id :: later ∧
        (c.run earlier).1.Lists id n path heard ∧
        (c.run earlier).1.step (.joined id) = (c.run earlier).1.resume id n path
          (Reconcile.result c.session.scene (clipsOf path rc) (takesOf rt)) := by
  intro heard
  have hc : c.Lists id n path Heard.first := ht
  obtain ⟨hadvances, hend⟩ := hc.run inputs
  refine ⟨?_, fun leg => (hadvances.sent leg).symm, ?_, ?_⟩
  · rintro before i rfl hbefore
    rw [ht] at hbefore
    exact legs_begin ht hbefore
  · intro hopen
    exact hend.resolve_right fun h => hopen h.1
  · intro rc rt hclips htakes
    -- At first nothing was heard, so the load is joined on the way.
    have hopen : ¬ Heard.first.Complete := by
      intro hdone
      obtain ⟨r, hr⟩ := hdone .clips
      cases hr
    have hdone : heard.Complete := by
      intro leg
      cases leg with
      | clips => exact ⟨rc, hclips⟩
      | takes => exact ⟨rt, htakes⟩
    exact ⟨hadvances.joins hopen hdone, hc.joins inputs hclips htakes⟩

/-- The failure of the clips counts also if the takes failed before. -/
theorem listings_joined_both_failed :
    let c := (({} : SessionOptions).begin.run [.openPath "/a", .begin 0]).1
    let source : Failure := .transport "source down" 503
    let inputs : List Input := [.beginLeg 0 .takes, .beginLeg 0 .clips,
      .response (.leg 0 .takes) (.error (.transport "takes down" 503)), .edit .checkAll,
      .response (.leg 0 .clips) (.error source)]
    c.task? 0 = some (.load (.listing 1 "/a" .created .created)) ∧
      queriesFrom (.leg 0 .clips) (c.run inputs).2 = [.clips "/a"] ∧
      queriesFrom (.leg 0 .takes) (c.run inputs).2 = [.takes] ∧
      .join 0 ∈ (c.run inputs).2 ∧
      (c.run inputs).1.step (.joined 0) = (c.run inputs).1.resume 0 1 "/a" (.error source) := by
  intro c source inputs
  have ht : c.task? 0 = some (.load (.listing 1 "/a" .created .created)) := rfl
  obtain ⟨-, hsent, -, hjoins⟩ := listings_joined ht inputs
  obtain ⟨hjoin, earlier, later, hinputs, -, hstep⟩ := hjoins _ _ rfl rfl
  have hnot : Input.joined 0 ∉ inputs := by simp [inputs]
  have hlast : earlier = inputs := by
    rcases List.append_eq_append_iff.mp hinputs with ⟨between, hearlier, hsplit⟩ |
      ⟨_ | ⟨i, between⟩, hsplit, hi⟩
    · cases between with
      | nil => rw [hearlier, List.append_nil]
      | cons i rest => simp at hsplit
    · rw [hsplit, List.append_nil]
    · obtain ⟨rfl, -⟩ := List.cons.inj hi
      exact absurd (hsplit ▸ List.mem_append_right _ List.mem_cons_self) hnot
  rw [hlast] at hstep
  exact ⟨ht, hsent .clips, hsent .takes, hjoin, hstep⟩

end Control

end CardImport
