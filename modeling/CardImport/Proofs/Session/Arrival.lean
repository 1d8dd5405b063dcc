import CardImport.Proofs.Session.Run
import Mathlib.Data.List.Induction

/-!
# Lists arrive

A session is loading from the moment a path is opened or a load begins, until a load puts its list
in place. So it can stay loading without a load: a load that is overtaken by another session ends
without a list, and so does one whose listing breaks, and then nothing is left that would put one
there.
-/

namespace CardImport

namespace Control

/-- Whether no load is unfinished. -/
def loadsDone (c : Control) : Bool :=
  c.tasks.all fun t => match t with
    | .load _ => t.isDone
    | _ => true

theorem isDone_of_loadsDone {c : Control} (h : c.loadsDone = true) {id : TaskId}
    {stage : LoadStage} (ht : c.task? id = some (.load stage)) :
    (Task.load stage).isDone = true :=
  List.all_eq_true.mp h (.load stage) (List.mem_of_getElem? ht)

/-- A load puts its list in place with this input, and goes on to the status of the job. -/
def PutsList (c : Control) (i : Input) : Prop :=
  ∃ id n, c.task? id ≠ some (.load (.asking n)) ∧
    (c.step i).1.task? id = some (.load (.asking n))

/-- In a run no list is put in place. -/
def NoList (c : Control) : List Input → Prop
  | [] => True
  | i :: rest => ¬ c.PutsList i ∧ (c.step i).1.NoList rest

theorem noList_append {c : Control} {first second : List Input} :
    c.NoList (first ++ second) ↔ c.NoList first ∧ (c.run first).1.NoList second := by
  induction first generalizing c with
  | nil => simp [NoList, run]
  | cons i rest ih => simp [NoList, run, ih, and_assoc]

/-- A load has both its listings, but no list comes of them: another session has begun, or the
listing broke. -/
def EndsListless (c : Control) (id : TaskId) : Prop :=
  ∃ n path clips takes, c.task? id = some (.load (.listing n path (.done clips) (.done takes))) ∧
    (n ≠ c.session.number ∨ ∃ f, (Reconcile.combine c.session.scene path clips takes).outcome.1 =
      .error f ∧ isListingFailure f = false)

/-! ## What a move does to `loading` -/

/-- A turn leaves `loading` as it is, unless it puts a list in place or begins a load. -/
theorem Turn.loading {c : Control} {id : TaskId} {i : Input} {t t' : Task} {s : Session}
    {actions : List Action} (h : Turn c id i t s t' actions) :
    s.loading = c.session.loading ∨
    (s.loading = false ∧ (∀ n, t ≠ .load (.asking n)) ∧ ∃ n, t' = .load (.asking n)) ∨
    (s.loading = true ∧ i = .begin id ∧ t = .load .created) := by
  cases h with
  | loadEmpty | listShown | listFailed => exact Or.inr (Or.inl ⟨rfl, nofun, _, rfl⟩)
  | loadBegins => exact Or.inr (Or.inr ⟨rfl, rfl, rfl⟩)
  | loadEnds | refreshEnds | pollIdle | pollGoesOn | pollBroken | pollRetries =>
      exact Or.inl (lookSession_loading _ _ _)
  | pollGivesUp =>
      refine Or.inl ?_
      split <;> exact lookSession_loading _ _ _
  | _ => exact Or.inl rfl

theorem Turn.loading_of_asking {c : Control} {id : TaskId} {i : Input} {t : Task} {s : Session}
    {n : Nat} {actions : List Action} (h : Turn c id i t s (.load (.asking n)) actions) :
    s.loading = false := by
  generalize ht' : Task.load (.asking n) = t' at h
  cases h with
  | loadEmpty | listShown | listFailed => rfl
  | _ => cases ht'

/-- A load goes on to the status in a turn of its own. -/
theorem Move.turned_of_asking {c c' : Control} {i : Input} {actions : List Action}
    (h : Move c i c' actions) {id : TaskId} {n : Nat}
    (hbefore : c.task? id ≠ some (.load (.asking n)))
    (hafter : c'.task? id = some (.load (.asking n))) :
    ∃ t, Turn c id i t c'.session (.load (.asking n)) actions := by
  cases ht : c.task? id with
  | none => cases h.new ht hafter
  | some t =>
      obtain ⟨t', ht', hb⟩ := h.became ht
      obtain rfl : t' = .load (.asking n) := Option.some.inj (ht'.symm.trans hafter)
      generalize hasking : Task.load (.asking n) = t' at hb
      cases hb with
      | same => exact absurd (hasking ▸ ht) hbefore
      | turned hturn => exact ⟨t, hasking ▸ hturn⟩
      | stopped =>
          cases t with
          | load stage => exact absurd (hasking ▸ ht) hbefore
          | _ => cases hasking
      | accepted => cases hasking

theorem loading_of_putsList {c : Control} {i : Input} (h : c.PutsList i) :
    (c.step i).1.session.loading = false := by
  obtain ⟨id, n, hbefore, hafter⟩ := h
  obtain ⟨t, hturn⟩ := (move_step c i).turned_of_asking hbefore hafter
  exact hturn.loading_of_asking

/-- A move leaves `loading` as it is, unless it puts a list in place, opens a path or begins a
load. -/
theorem Move.loading {c c' : Control} {i : Input} {actions : List Action}
    (h : Move c i c' actions) :
    c'.session.loading = c.session.loading ∨
    (∃ id n, c.task? id ≠ some (.load (.asking n)) ∧ c'.task? id = some (.load (.asking n))) ∨
    (c'.session.loading = true ∧ ((∃ id, c'.task? id = some (.load .created)) ∨
      ∃ id, i = .begin id ∧ c.task? id = some (.load .created))) := by
  cases h with
  | opened path =>
      exact Or.inr (Or.inr ⟨rfl, Or.inl ⟨_, task?_openPath_self c path⟩⟩)
  | closed | edited | started | dropped => exact Or.inl rfl
  | polled => exact Or.inl (by rw [session_startPolling])
  | @turned i id t s t' actions ht hturn =>
      rcases hturn.loading with hs | ⟨-, hbefore, n, rfl⟩ | ⟨hs, rfl, rfl⟩
      · exact Or.inl hs
      · refine Or.inr (Or.inl ⟨id, n, fun hn => ?_, ?_⟩)
        · exact hbefore n (Option.some.inj (ht.symm.trans hn))
        · exact task?_setTask_self (c := c.setSession s) ht _
      · exact Or.inr (Or.inr ⟨hs, Or.inr ⟨id, rfl, ht⟩⟩)
  | accepted => exact Or.inl (by rw [session_setTask, session_startPolling])

/-- Only a list ends the loading. -/
theorem loading_of_not_putsList {c : Control} {i : Input} (h : ¬ c.PutsList i)
    (hloading : c.session.loading = true) : (c.step i).1.session.loading = true := by
  rcases (move_step c i).loading with hsame | hputs | ⟨hset, -⟩
  · exact hsame.trans hloading
  · exact absurd hputs h
  · exact hset

theorem loading_of_noList {c : Control} (hloading : c.session.loading = true)
    {inputs : List Input} (h : c.NoList inputs) : (c.run inputs).1.session.loading = true := by
  induction inputs generalizing c with
  | nil => exact hloading
  | cons i rest ih => exact ih (loading_of_not_putsList h.1 hloading) h.2

/-! ## Loads without a list -/

/-- While a load lists, nothing else becomes of it than that it goes on to the status or ends
without a list. -/
theorem Turn.of_listing {c : Control} {id : TaskId} {i : Input} {t t' : Task} {s : Session}
    {n : Nat} {path : String} {clips : LegStage (List Clip)} {takes : LegStage (List Take)}
    {actions : List Action} (h : Turn c id i t s t' actions) (ht : c.task? id = some t)
    (hlisting : t = .load (.listing n path clips takes)) :
    (∃ clips takes, t' = .load (.listing n path clips takes)) ∨ (∃ m, t' = .load (.asking m)) ∨
      i = .joined id ∧ c.EndsListless id := by
  cases h with
  | clipsAsked | takesAsked | clipsListed | takesListed =>
      cases hlisting
      exact Or.inl ⟨_, _, rfl⟩
  | listShown | listFailed => exact Or.inr (Or.inl ⟨_, rfl⟩)
  | listDropped hn => exact Or.inr (Or.inr ⟨rfl, _, _, _, _, ht, Or.inl hn⟩)
  | listBroken hlist hf =>
      exact Or.inr (Or.inr ⟨rfl, _, _, _, _, ht, Or.inr ⟨_, congrArg Prod.fst hlist, hf⟩⟩)
  | _ => cases hlisting

/-- As long as no list is put in place, a load goes on listing or ends without one. -/
theorem listing_or_ended {c : Control} {id : TaskId} {n : Nat} {path : String}
    {clips : LegStage (List Clip)} {takes : LegStage (List Take)}
    (ht : c.task? id = some (.load (.listing n path clips takes))) {inputs : List Input}
    (hno : c.NoList inputs) :
    (∃ clips takes, (c.run inputs).1.task? id = some (.load (.listing n path clips takes))) ∨
      ∃ between after, inputs = between ++ .joined id :: after ∧
        (c.run between).1.EndsListless id := by
  induction inputs generalizing c clips takes with
  | nil => exact Or.inl ⟨clips, takes, ht⟩
  | cons i rest ih =>
      -- Either the load goes on listing, or this is the input that ends it.
      have hstep : (∃ clips takes, (c.step i).1.task? id =
          some (.load (.listing n path clips takes))) ∨ i = .joined id ∧ c.EndsListless id := by
        obtain ⟨t', ht', hb⟩ := (move_step c i).became ht
        cases hb with
        | same => exact Or.inl ⟨_, _, ht'⟩
        | stopped => exact Or.inl ⟨_, _, ht'⟩
        | turned hturn =>
            rcases hturn.of_listing ht rfl with ⟨clips, takes, rfl⟩ | ⟨m, rfl⟩ | hends
            · exact Or.inl ⟨_, _, ht'⟩
            · refine absurd ⟨id, m, fun hm => ?_, ht'⟩ hno.1
              cases ht.symm.trans hm
            · exact Or.inr hends
      rcases hstep with ⟨clips, takes, ht'⟩ | ⟨rfl, hends⟩
      · rcases ih ht' hno.2 with hlisting | ⟨between, after, rfl, hends⟩
        · exact Or.inl hlisting
        · exact Or.inr ⟨i :: between, after, rfl, hends⟩
      · exact Or.inr ⟨[], rest, rfl, hends⟩

/-- A load that begins without a list for its path lists it. -/
theorem listing_of_begin {c : Control} {id : TaskId} (ht : c.task? id = some (.load .created))
    (hno : ¬ c.PutsList (.begin id)) :
    (c.step (.begin id)).1.session.loading = true ∧ ∃ n path clips takes,
      (c.step (.begin id)).1.task? id = some (.load (.listing n path clips takes)) := by
  have hstep : c.step (.begin id) = c.beginLoad id := by
    simp only [step, beginTask, ht]
  unfold PutsList at hno
  rw [hstep] at hno ⊢
  unfold beginLoad at hno ⊢
  by_cases hpath : c.session.path = ""
  · simp only [setSession, hpath, if_true] at hno
    refine absurd ⟨id, c.session.number, fun hn => ?_, task?_setTask_self ht _⟩ hno
    cases ht.symm.trans hn
  · simp only [setSession, hpath, if_false]
    exact ⟨rfl, _, _, _, _, task?_setTask_self ht _⟩

/-! ## Loading without a load -/

/-- In a run a load began, and no list was put in place since. -/
def Begins (c : Control) (inputs : List Input) (id : TaskId) : Prop :=
  ∃ before after, inputs = before ++ .begin id :: after ∧
    (c.run before).1.task? id = some (.load .created) ∧ (c.run before).1.NoList (.begin id :: after)

theorem Begins.concat {c : Control} {inputs : List Input} {id : TaskId} (h : c.Begins inputs id)
    {i : Input} (hi : ¬ (c.run inputs).1.PutsList i) : c.Begins (inputs ++ [i]) id := by
  obtain ⟨before, after, rfl, ht, hno⟩ := h
  refine ⟨before, after ++ [i], by simp, ht, ?_⟩
  rw [← List.cons_append, noList_append]
  rw [run_append] at hi
  exact ⟨hno, hi, trivial⟩

theorem Turn.of_created {c : Control} {id : TaskId} {i : Input} {t' : Task} {s : Session}
    {actions : List Action} (h : Turn c id i (.load .created) s t' actions) : i = .begin id := by
  cases h <;> rfl

/-- A session that is loading has a load that is still to begin, or one that began last and brought
no list. -/
theorem begins_of_loading (o : SessionOptions) (inputs : List Input)
    (h : (o.begin.run inputs).1.session.loading = true) :
    (∃ id, (o.begin.run inputs).1.task? id = some (.load .created)) ∨
      ∃ id, o.begin.Begins inputs id := by
  induction inputs using List.reverseRecOn with
  | nil => cases h
  | append_singleton before i ih =>
      rw [run_concat_fst] at h ⊢
      have hno : ¬ (o.begin.run before).1.PutsList i := by
        intro hputs
        cases (loading_of_putsList hputs).symm.trans h
      have hbegin : ∀ id, i = .begin id → (o.begin.run before).1.task? id = some (.load .created) →
          o.begin.Begins (before ++ [i]) id := by
        rintro id rfl ht
        exact ⟨before, [], rfl, ht, hno, trivial⟩
      rcases (move_step (o.begin.run before).1 i).loading with hsame | hputs | ⟨-, hnew | hbegins⟩
      · rcases ih (hsame.symm.trans h) with ⟨id, ht⟩ | ⟨id, hbegins⟩
        · -- The load that is still to begin does so now, or stays as it is.
          obtain ⟨t', ht', hb⟩ := (move_step _ i).became ht
          cases hb with
          | same => exact Or.inl ⟨id, ht'⟩
          | stopped => exact Or.inl ⟨id, ht'⟩
          | turned hturn => exact Or.inr ⟨id, hbegin id hturn.of_created ht⟩
        · exact Or.inr ⟨id, hbegins.concat hno⟩
      · exact absurd hputs hno
      · exact Or.inl hnew
      · obtain ⟨id, hi, ht⟩ := hbegins
        exact Or.inr ⟨id, hbegin id hi ht⟩

/-- A load began, ended without a list, and no other has put a list in place since it began. -/
def LeftLoading (c : Control) (inputs : List Input) : Prop :=
  ∃ id before between after,
    inputs = before ++ .begin id :: (between ++ .joined id :: after) ∧
    (c.run before).1.task? id = some (.load .created) ∧
    (c.run (before ++ .begin id :: between)).1.EndsListless id ∧
    (c.run before).1.NoList (.begin id :: (between ++ .joined id :: after))

/-- When no load is unfinished, a session is loading exactly if the load that began last was
overtaken by another session or broke. -/
theorem loading_iff (o : SessionOptions) (inputs : List Input)
    (hdone : (o.begin.run inputs).1.loadsDone = true) :
    ((o.begin.run inputs).1.session.loading = true ↔ o.begin.LeftLoading inputs) ∧
      ((o.begin.run inputs).1.session.state = .loading ↔
        (o.begin.run inputs).1.session.loading = true) := by
  refine ⟨⟨fun h => ?_, ?_⟩, ?_⟩
  · rcases begins_of_loading o inputs h with ⟨id, ht⟩ | ⟨id, before, rest, rfl, ht, hno⟩
    · cases isDone_of_loadsDone hdone ht
    · obtain ⟨-, n, path, clips, takes, hlisting⟩ := listing_of_begin ht hno.1
      rw [run_append] at hdone
      -- All loads are done, so the listing of this one has ended in some way.
      rcases listing_or_ended hlisting hno.2 with ⟨clips, takes, hstill⟩ |
        ⟨between, after, rfl, hends⟩
      · cases isDone_of_loadsDone hdone hstill
      · refine ⟨id, before, between, after, rfl, ht, ?_, hno⟩
        rw [run_append]
        exact hends
  · rintro ⟨id, before, between, after, rfl, ht, -, hno⟩
    rw [run_append]
    exact loading_of_noList (listing_of_begin ht hno.1).1 hno.2
  · unfold Session.state
    cases (o.begin.run inputs).1.session.loading with
    | true => exact ⟨fun _ => rfl, fun _ => rfl⟩
    | false =>
        refine ⟨fun h => ?_, nofun⟩
        split at h
        · assumption
        · split at h
          · cases h
          · split at h <;> cases h

/-- The first load of a session puts its list in place, and the session is not loading after it. -/
theorem loading_iff_first_load :
    let inputs : List Input := firstLoad "/a" ++ [.response (.task 0) idleJob]
    (({} : SessionOptions).begin.run inputs).1.loadsDone = true ∧
      ¬ ({} : SessionOptions).begin.LeftLoading inputs ∧
      (({} : SessionOptions).begin.run inputs).1.session.state ≠ .loading := by
  intro inputs
  have hdone : (({} : SessionOptions).begin.run inputs).1.loadsDone = true := by decide +kernel
  have hloading : (({} : SessionOptions).begin.run inputs).1.session.loading = false := by
    decide +kernel
  obtain ⟨hleft, hstate⟩ := loading_iff {} inputs hdone
  rw [hloading] at hleft hstate
  refine ⟨hdone, fun h => ?_, fun h => ?_⟩
  · cases hleft.mpr h
  · cases hstate.mp h

def boundlessClip : Except Failure Response :=
  .ok ⟨200, .arr [.obj [("name", .str "a"), ("totalSize", .float (.infinite false))]]⟩

/-- A session whose only load broke goes on loading, and so does one that is closed while its only
load lists. -/
theorem still_loading_without_load :
    let listing (clips : Except Failure Response) : List Input :=
      [.response (.leg 0 .clips) clips, .response (.leg 0 .takes) noTakes, .joined 0]
    let begun : List Input := [.openPath "/a", .begin 0, .beginLeg 0 .clips, .beginLeg 0 .takes]
    let broken := (({} : SessionOptions).begin.run (begun ++ listing boundlessClip)).1
    let overtaken := (({} : SessionOptions).begin.run (begun ++ .close :: listing oneClip)).1
    (broken.loadsDone = true ∧ broken.session.state = .loading) ∧
      overtaken.loadsDone = true ∧ overtaken.session.state = .loading := by
  intro listing begun broken overtaken
  refine ⟨⟨?_, ?_⟩, ?_, ?_⟩ <;> decide +kernel

end Control

end CardImport
