import CardImport.Proofs.Listing
import CardImport.Proofs.Session.Answers
import CardImport.Proofs.Session.Arrival

/-!
# Loads of closed sessions

A load belongs to the session in which it takes its first step. When that session is closed, the
load has no effect any more: what comes for it later is dropped. But a load that is still to begin
when its session is closed begins in the next one, and there it is as good as the load of that
session: it asks for the status, and its list takes the place of the one that is shown.
-/

namespace CardImport

def Input.taskId? : Input → Option TaskId
  | .begin id | .beginLeg id _ | .joined id | .elapsed id | .halted id => some id
  | .response sender _ => some sender.taskId
  | _ => none

namespace Control

/-- A load that has no effect any more: whatever comes, it asks for no status, puts no list in
place, and leaves the session as it is. -/
structure Inert (c : Control) (id : TaskId) : Prop where
  silent : ∀ later, .ask (.task id) .status ∉ (c.run later).2
  listless : ∀ later i n, (c.run later).1.task? id ≠ some (.load (.asking n)) →
    ((c.run later).1.step i).1.task? id ≠ some (.load (.asking n))
  still : ∀ later i, i.taskId? = some id →
    ((c.run later).1.step i).1.session = (c.run later).1.session

/-! ## Tasks of closed sessions -/

/-- A task that has begun, in a session that is closed since if it belongs to one. -/
def Superseded (c : Control) (id : TaskId) : Prop :=
  ∃ t, c.task? id = some t ∧ t.HasBegun ∧ ∀ n, t.captured? = some n → n < c.session.number

theorem Move.superseded {c c' : Control} {i : Input} {actions : List Action}
    (h : Move c i c' actions) {id : TaskId} (hs : c.Superseded id) : c'.Superseded id := by
  obtain ⟨t, ht, hbegun, hpast⟩ := hs
  obtain ⟨t', ht', hb⟩ := h.became ht
  refine ⟨t', ht', hb.hasBegun hbegun, ?_⟩
  intro n hn
  rcases hb.captured hn with hold | ⟨hnot, -⟩
  · exact Nat.lt_of_lt_of_le (hpast n hold) h.number_le
  · exact absurd hbegun hnot

theorem superseded_run {c : Control} {id : TaskId} (hs : c.Superseded id)
    (inputs : List Input) : (c.run inputs).1.Superseded id :=
  run_keeps (fun h => h.superseded) hs inputs

theorem Turn.taskId {c : Control} {id : TaskId} {i : Input} {t t' : Task} {s : Session}
    {actions : List Action} (h : Turn c id i t s t' actions) : i.taskId? = some id := by
  cases h <;> rfl

theorem Move.session_of_superseded {c c' : Control} {i : Input} {actions : List Action}
    (h : Move c i c' actions) {id : TaskId} (hs : c.Superseded id) (hi : i.taskId? = some id) :
    c'.session = c.session := by
  cases h with
  | opened | closed | edited | polled => cases hi
  | started hfresh => cases hfresh <;> cases hi
  | @turned i j t s t' actions ht hturn =>
      obtain rfl : j = id := Option.some.inj (hturn.taskId.symm.trans hi)
      obtain ⟨u, hu, hbegun, hpast⟩ := hs
      obtain rfl : t = u := Option.some.inj (ht.symm.trans hu)
      have hne : t.captured? ≠ some c.session.number := by
        intro hn
        exact absurd (hpast _ hn) (Nat.lt_irrefl _)
      exact hturn.session_of_captured_ne hbegun hne
  | accepted => rw [session_setTask, session_startPolling]
  | dropped => rfl

/-- Who asks for the status has captured the current number. -/
theorem Asks.captured_of_status {c : Control} {id : TaskId} {sender : Sender} {t : Task}
    (h : Asks c id sender .status t) : t.captured? = some c.session.number := by
  cases h <;> rfl

theorem Move.not_ask_of_superseded {c c' : Control} {i : Input} {actions : List Action}
    (h : Move c i c' actions) {id : TaskId} (hs : c.Superseded id) :
    .ask (.task id) .status ∉ actions := by
  intro ha
  obtain ⟨j, t, hasks, ht, hnumber⟩ := h.asks ha
  obtain rfl : id = j := hasks.taskId
  obtain ⟨u, hu, -, hpast⟩ := h.superseded hs
  obtain rfl : t = u := Option.some.inj (ht.symm.trans hu)
  have hlt := hpast _ hasks.captured_of_status
  rw [hnumber] at hlt
  exact Nat.lt_irrefl _ hlt

theorem not_ask_of_superseded {c : Control} {id : TaskId} (hs : c.Superseded id)
    (inputs : List Input) : .ask (.task id) .status ∉ (c.run inputs).2 :=
  run_avoids (fun h hs => ⟨h.superseded hs, h.not_ask_of_superseded hs⟩) hs inputs

/-! ## Lists and requests -/

theorem Turn.asks_of_asking {c : Control} {id : TaskId} {i : Input} {t : Task} {s : Session}
    {n : Nat} {actions : List Action} (h : Turn c id i t s (.load (.asking n)) actions) :
    .ask (.task id) .status ∈ actions := by
  generalize ht' : Task.load (.asking n) = t' at h
  cases h with
  | loadEmpty => exact List.mem_singleton.mpr rfl
  | listShown => exact List.mem_append_right _ (List.mem_singleton.mpr rfl)
  | listFailed => exact List.mem_append_right _ (List.mem_cons_of_mem _ (List.mem_singleton.mpr rfl))
  | _ => cases ht'

/-- A load that puts its list in place asks for the status in the same step. -/
theorem Move.asks_of_asking {c c' : Control} {i : Input} {actions : List Action}
    (h : Move c i c' actions) {id : TaskId} {n : Nat}
    (hbefore : c.task? id ≠ some (.load (.asking n)))
    (hafter : c'.task? id = some (.load (.asking n))) : .ask (.task id) .status ∈ actions := by
  obtain ⟨t, hturn⟩ := h.turned_of_asking hbefore hafter
  exact hturn.asks_of_asking

theorem inert_of_superseded {c : Control} {id : TaskId} (hs : c.Superseded id) : c.Inert id := by
  refine ⟨not_ask_of_superseded hs, ?_, ?_⟩
  · intro later i n hbefore hafter
    have hmove := move_step (c.run later).1 i
    exact hmove.not_ask_of_superseded (superseded_run hs later)
      (hmove.asks_of_asking hbefore hafter)
  · intro later i hi
    exact (move_step _ i).session_of_superseded (superseded_run hs later) hi

/-! ## Closing -/

theorem number_of_closes {c : Control} {i : Input} (hi : i.Closes) :
    (c.step i).1.session.number = c.session.number + 1 := by
  cases i with
  | openPath path => rfl
  | close => rfl
  | _ => exact hi.elim

/-- A task that has begun belongs to the session that is closed, or to one before. -/
theorem superseded_of_closes {c : Control} (hc : c.CapturesBounded) {i : Input} (hi : i.Closes)
    {id : TaskId} {t : Task} (ht : c.task? id = some t) (hbegun : t.HasBegun) :
    (c.step i).1.Superseded id := by
  obtain ⟨t', ht', hb⟩ := (move_step c i).became ht
  refine ⟨t', ht', hb.hasBegun hbegun, ?_⟩
  intro n hn
  rw [number_of_closes hi]
  rcases hb.captured hn with hold | ⟨hnot, -⟩
  · exact Nat.lt_succ_of_le (hc ht hold)
  · exact absurd hbegun hnot

/-! ## Loads that are still to begin -/

section

variable {c : Control} {id : TaskId} {n : Nat} {path : String} {clips : LegStage (List Clip)}
  {takes : LegStage (List Take)}

theorem listing_begun (ht : c.task? id = some (.load .created)) (hpath : c.session.path ≠ "") :
    (c.step (.begin id)).1.task? id =
      some (.load (.listing c.session.number c.session.path .created .created)) := by
  simp only [step, beginTask, ht, beginLoad, setSession, if_neg hpath]
  exact task?_setTask_self (c := c.setSession _) ht _

theorem clips_asked (ht : c.task? id = some (.load (.listing n path .created takes))) :
    (c.step (.beginLeg id .clips)).1.task? id = some (.load (.listing n path .asked takes)) := by
  simp only [step, beginLeg, ht]
  exact task?_setTask_self ht _

theorem takes_asked (ht : c.task? id = some (.load (.listing n path clips .created))) :
    (c.step (.beginLeg id .takes)).1.task? id = some (.load (.listing n path clips .asked)) := by
  simp only [step, beginLeg, ht]
  exact task?_setTask_self ht _

theorem clips_listed (ht : c.task? id = some (.load (.listing n path .asked takes))) :
    ∃ listed, (c.step (.response (.leg id .clips) oneClip)).1.task? id =
      some (.load (.listing n path (.done (.ok listed)) takes)) := by
  simp only [step, receiveLeg, ht]
  exact ⟨_, task?_setTask_self ht _⟩

theorem takes_listed (ht : c.task? id = some (.load (.listing n path clips .asked))) :
    ∃ listed, (c.step (.response (.leg id .takes) noTakes)).1.task? id =
      some (.load (.listing n path clips (.done (.ok listed)))) := by
  simp only [step, receiveLeg, ht]
  exact ⟨_, task?_setTask_self ht _⟩

end

def listings (id : TaskId) : List Input :=
  [.begin id, .beginLeg id .clips, .beginLeg id .takes, .response (.leg id .clips) oneClip,
    .response (.leg id .takes) noTakes]

theorem listed_of_created {c : Control} {id : TaskId} (ht : c.task? id = some (.load .created))
    (hpath : c.session.path ≠ "") :
    ∃ clips takes, (c.run (listings id)).1.task? id = some (.load
      (.listing c.session.number c.session.path (.done (.ok clips)) (.done (.ok takes)))) := by
  have hasked := takes_asked (clips_asked (listing_begun ht hpath))
  obtain ⟨clips, hclips⟩ := clips_listed hasked
  obtain ⟨takes, htakes⟩ := takes_listed hclips
  refine ⟨clips, takes, ?_⟩
  simp only [listings, run]
  exact htakes

/-- A load that has both listings in its own session goes on to the status. -/
theorem asks_of_listed {c : Control} {id : TaskId} {path : String} {clips : List Clip}
    {takes : List Take} (ht : c.task? id = some (.load
      (.listing c.session.number path (.done (.ok clips)) (.done (.ok takes))))) :
    .ask (.task id) .status ∈ (c.step (.joined id)).2 := by
  simp only [step, join, ht, joinLoad, Reconcile.outcome_combine, Reconcile.items]
  by_cases hkeys : ((takes.all fun t => t.clipName.isKey) && clips.all fun c => c.name.isKey) = true
  · simp [hkeys, loaded]
  · -- Names that cannot be compared leave an empty list.
    simp [hkeys, loaded, isListingFailure, Failure.kind, Failure.Kind.isBadData]

theorem run_number_of_not_closes {c : Control} {inputs : List Input}
    (h : ∀ i ∈ inputs, ¬ i.Closes) : (c.run inputs).1.session.number = c.session.number := by
  induction inputs generalizing c with
  | nil => rfl
  | cons i rest ih =>
      have hstep := (move_step c i).number_of_not_closes (h i List.mem_cons_self)
      exact (ih fun j hj => h j (List.mem_cons_of_mem _ hj)).trans hstep

/-- A load that is still to begin asks for the status in time. -/
theorem asks_of_created {c : Control} {id : TaskId} (ht : c.task? id = some (.load .created)) :
    ∃ later, .ask (.task id) .status ∈ (c.run later).2 := by
  by_cases hpath : c.session.path = ""
  · refine ⟨[Input.begin id], ?_⟩
    rw [run_singleton]
    show _ ∈ (c.beginTask id).2
    simp only [beginTask, ht, beginLoad, setSession, if_pos hpath]
    exact List.mem_singleton.mpr rfl
  · obtain ⟨clips, takes, hlisted⟩ := listed_of_created ht hpath
    have hnumber : (c.run (listings id)).1.session.number = c.session.number :=
      run_number_of_not_closes (by simp [listings, Input.Closes])
    rw [← hnumber] at hlisted
    have hasked := asks_of_listed hlisted
    refine ⟨listings id ++ [Input.joined id], ?_⟩
    rw [run_append, run_singleton]
    exact List.mem_append_right _ hasked

/-- A load has no effect after its session is closed exactly if it had begun by then. -/
theorem inert_after_close_iff (o : SessionOptions) (before : List Input) {i : Input}
    (hi : i.Closes) {id : TaskId} {stage : LoadStage}
    (ht : (o.begin.run before).1.task? id = some (.load stage)) :
    ((o.begin.run before).1.step i).1.Inert id ↔ (Task.load stage).HasBegun := by
  constructor
  · intro hinert
    cases stage with
    | created =>
        obtain ⟨t, ht', hb⟩ := (move_step (o.begin.run before).1 i).became ht
        have hcreated : t = .load .created := by
          cases hb with
          | same => rfl
          | turned hturn => exact absurd hi hturn.not_closes
          | stopped => rfl
        rw [hcreated] at ht'
        obtain ⟨later, hasked⟩ := asks_of_created ht'
        exact absurd hasked (hinert.silent later)
    | _ => trivial
  · intro hbegun
    have hbounded : (o.begin.run before).1.CapturesBounded :=
      run_keeps Move.capturesBounded (capturesBounded_begin o) before
    exact inert_of_superseded (superseded_of_closes hbounded hi ht hbegun)

/-- A load that lists when another path is opened has no effect on it. -/
theorem inert_after_close_while_listing :
    let before : List Input := [.openPath "/a", .begin 0]
    let c := (({} : SessionOptions).begin.run before).1
    (Input.openPath "/b").Closes ∧ c.task? 0 = some (.load (.listing 1 "/a" .created .created)) ∧
      (c.step (.openPath "/b")).1.Inert 0 := by
  intro before c
  have hlisting : c.task? 0 = some (.load (.listing 1 "/a" .created .created)) := rfl
  have hcloses : (Input.openPath "/b").Closes := trivial
  exact ⟨hcloses, hlisting, (inert_after_close_iff {} before hcloses hlisting).mpr trivial⟩

theorem ask_of_any {actions : List Action} {id : TaskId}
    (h : (actions.any fun a => a.asks id && asksStatus a) = true) :
    .ask (.task id) .status ∈ actions := by
  obtain ⟨a, ha, hboth⟩ := List.any_eq_true.mp h
  obtain ⟨hasks, hstatus⟩ := Bool.and_eq_true_iff.mp hboth
  unfold Action.asks at hasks
  split at hasks
  · obtain rfl := beq_iff_eq.mp hasks
    unfold asksStatus at hstatus
    split at hstatus
    · rename_i hask
      cases hask
      exact ha
    · cases hstatus
  · cases hasks

/-- A load that begins after another path was opened puts its list in the place of the one that is
shown, and the edits are lost. -/
theorem not_inert_before_first_step :
    let opened := (({} : SessionOptions).begin.run [.openPath "/a", .openPath "/b"]).1
    let shown : List Input := [.begin 0, .begin 1, .beginLeg 0 .clips, .beginLeg 0 .takes,
      .response (.leg 0 .takes) noTakes, .beginLeg 1 .clips, .response (.leg 1 .clips) oneClip,
      .beginLeg 1 .takes, .response (.leg 1 .takes) noTakes, .joined 1,
      .response (.task 1) idleJob, .edit .checkNone]
    let late : List Input := [.response (.leg 0 .clips) oneClip, .joined 0]
    let edited := (opened.run shown).1
    (edited.session.state = .ready ∧ edited.session.items.map Item.checked = [false]) ∧
      (edited.run late).1.session.items.map Item.checked = [true] ∧
      .ask (.task 0) .status ∈ (edited.run late).2 ∧ ¬ opened.Inert 0 := by
  intro opened shown late edited
  have hstate : edited.session.state = .ready := by decide +kernel
  have hedited : edited.session.items.map Item.checked = [false] := by decide +kernel
  have hlost : (edited.run late).1.session.items.map Item.checked = [true] := by decide +kernel
  have hany : ((edited.run late).2.any fun a => a.asks 0 && asksStatus a) = true := by
    decide +kernel
  have hasked : .ask (.task 0) .status ∈ (edited.run late).2 := ask_of_any hany
  have hinert : ¬ opened.Inert 0 := by
    intro hinert
    apply hinert.silent (shown ++ late)
    rw [run_append]
    exact List.mem_append_right _ hasked
  exact ⟨⟨hstate, hedited⟩, hlost, hasked, hinert⟩

end Control

end CardImport
