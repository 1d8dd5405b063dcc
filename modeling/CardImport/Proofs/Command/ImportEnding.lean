import CardImport.Proofs.Command.Endings
import CardImport.Proofs.Command.Limit

/-!
# How the import command ends

An import waits for its load, edits and shows the list, and waits for its submission and the poll of
the job. With replies that it can deal with, each of these goes through or fails in a way that is
reported, whatever the replies say about the job. Only the poll may go on for ever, and only the
styles in a text that is shown may stop the command in another way.
-/

namespace CardImport

/-- A session that a command can wait for: its tasks have failed only in ways that are reported, and
it does not look at the job too often or too late. -/
structure Control.Calm (c : Control) : Prop where
  harmless : c.Harmless
  patient : c.session.Patient

theorem Input.suits_of_not_response {i : Input} (h : ∀ sender r, i ≠ .response sender r)
    (t : Task) : i.Suits t := by
  cases i with
  | response sender r => exact absurd rfl (h sender r)
  | _ => trivial

namespace Command

open Control

variable {σ : Type} {e : Endpoint} {o : ImportOptions} {s s₁ : Session}
  {before replies : List (Request × Reply)}

/-- Whether an import can deal with all replies to its queries. -/
def AllFit (e : Endpoint) (o : ImportOptions) (replies : List (Request × Reply)) : Prop :=
  ∀ p ∈ replies, ∀ q : Query, p.1 = q.request e → Fits e o q p.2

/-! ## Following tasks -/

/-- With replies that fit a session stays calm, if each reply suits the task that it goes to. -/
theorem Kept.calm {P : Control → List Action → List (Request × Reply) → Prop} (hP : Kept e P)
    (hsuits : ∀ {c sender q rest replies answer}, P c (.ask sender q :: rest) replies →
      Fits e o q answer → ∀ {j t}, c.task? j = some t → t.isDone = false →
        (answered e sender q answer).Suits t) :
    Kept e fun c actions replies => P c actions replies ∧ (AllFit e o replies → c.Calm) where
  skip := fun hi hq h => ⟨hP.skip hi hq h.1, h.2⟩
  input := by
    rintro c a i rest replies hi ⟨h, hcalm⟩
    refine ⟨hP.input hi h, fun hfit => ?_⟩
    obtain ⟨hharmless, hpatient⟩ := hcalm hfit
    have hmove := move_step c i
    refine ⟨hmove.harmless hpatient (fun _ _ => ?_) hharmless, hmove.patient hpatient⟩
    exact Input.suits_of_not_response (not_response_of_input? hi) _
  ask := by
    rintro c sender q rest replies answer ⟨h, hcalm⟩
    refine ⟨hP.ask answer h, fun hfit => ?_⟩
    obtain ⟨hharmless, hpatient⟩ := hcalm fun p hp => hfit p (List.mem_cons_of_mem _ hp)
    have hanswer : Fits e o q answer := hfit _ List.mem_cons_self q rfl
    have hmove := move_step c (answered e sender q answer)
    exact ⟨hmove.harmless hpatient (hsuits h hanswer) hharmless, hmove.patient hpatient⟩

/-- Where all tasks but the last are done, only the last waits for something. -/
theorem last_of_open {c : Control} (earlier : List Task) {last t : Task} {j : TaskId}
    (htasks : c.tasks = earlier ++ [last]) (hdone : ∀ t ∈ earlier, t.isDone = true)
    (ht : c.task? j = some t) (hopen : t.isDone = false) : t = last := by
  have hmem := List.mem_of_getElem? ht
  rw [htasks] at hmem
  rcases List.mem_append.mp hmem with hearlier | hlast
  · rw [hdone t hearlier] at hopen
    cases hopen
  · exact List.mem_singleton.mp hlast

/-! ### The load -/

theorem clear_of_fits {answer : Reply} (h : Fits e o .status answer) :
    Control.Clear (lookIn e answer) where
  fails := failsAs_told h.1
  merges := fun status hstatus => (h.2 status hstatus).mergeable

theorem Loading.suits {stage : LoadStage} {sender : Sender} {q : Query} {rest : List Action}
    {answer : Reply} (h : Loading e s before s₁ stage (.ask sender q :: rest) replies)
    (hanswer : Fits e o q answer) : (answered e sender q answer).Suits (.load stage) := by
  cases h with
  | clipsAsked => exact failsAs_clipsIn hanswer.1 s.path
  | takesAsked clips => exact failsAs_takesIn hanswer
  | statusAsked hitems => exact clear_of_fits hanswer

theorem Loading.ended_of_nil {stage : LoadStage} (h : Loading e s before s₁ stage [] replies) :
    ∃ result, stage = .done result := by
  cases h with
  | broken clips takes f => exact ⟨_, rfl⟩
  | ended => exact ⟨_, rfl⟩

theorem calm_load {limit : Nat} {r r' : Running} {path : String} {w w' : World σ}
    (htasks : r.control.tasks = []) (hpoller : r.control.poller = none) (hpath : path ≠ "")
    (hpatient : r.control.session.Patient)
    (h : runIn (feed e limit r (.openPath path)) w = (.ok r', w')) (hfit : AllFit e o w'.replies) :
    r'.control.Calm := by
  have hopen := openPath_eq htasks hpoller path
  have hbegin : LoadsFrom e r.control.showsPercent (opened r.control.session path) w.replies
      (r.control.openPath path).1 (r.control.openPath path).2 w.replies := by
    rw [hopen]
    exact ⟨_, _, rfl, .created⟩
  have hcalm : (r.control.openPath path).1.Calm := by
    rw [hopen]
    refine ⟨fun {j t} ht => ?_, hpatient.interval, hpatient.backoff, hpatient.retries⟩
    rw [List.mem_singleton.mp (List.mem_of_getElem? ht)]
    trivial
  -- The invariant of the load is carried along, since it says which reply goes to which request.
  have hkept : Kept e fun c actions replies =>
      LoadsFrom e r.control.showsPercent (opened r.control.session path) w.replies c actions
        replies ∧ (AllFit e o replies → c.Calm) := (kept_loadsFrom hpath rfl).calm ?_
  · have hreaches := follow_keeps hkept limit (w := w)
      (r := { r with control := (r.control.openPath path).1 }) ⟨hbegin, fun _ => hcalm⟩
    change Reaches _ (runIn (feed e limit r (.openPath path)) w) at hreaches
    rw [h] at hreaches
    exact hreaches.of_ok.2 hfit
  · rintro c sender q rest replies answer ⟨s₁, stage, rfl, hloading⟩ hanswer j t ht -
    rw [List.mem_singleton.mp (List.mem_of_getElem? ht)]
    rw [live_cons_ask] at hloading
    exact hloading.suits hanswer

/-! ### The submission -/

theorem Submitting.suits {c : Control} {sender : Sender} {q : Query} {rest : List Action}
    {answer : Reply} (h : Submitting e s before c (.ask sender q :: rest) replies)
    (hanswer : Fits e o q answer) {j : TaskId} {t : Task} (ht : c.task? j = some t)
    (hopen : t.isDone = false) : (answered e sender q answer).Suits t := by
  cases h with
  | created htasks hsession hpoller hlive => cases hlive
  | asked htasks hsession hpoller hlive =>
      rw [live_cons_ask] at hlive
      cases (List.cons.inj hlive).1
      rw [last_of_open [_] htasks (by simp [Task.isDone]) ht hopen]
      exact fun f hf => isReported_rejected hanswer _ hf
  | refused htasks hlive => cases hlive
  | followed htasks haccepted hdue hlater hbase hheard =>
      rw [live_cons_ask] at hdue
      generalize live rest = todo at hdue
      cases hdue with
      | asking failures =>
          rw [last_of_open [_, _] htasks (by simp [Task.isDone]) ht hopen]
          exact clear_of_fits hanswer

theorem calm_submission {limit : Nat} {r r' : Running} {w w' : World σ}
    (htasks : r.control.tasks = [.load (.done (.ok ()))]) (hpoller : r.control.poller = none)
    (hindexed : r.control.session.Indexed) (hcalm : r.control.Calm)
    (h : runIn (feed e limit r .submit) w = (.ok r', w')) (hfit : AllFit e o w'.replies) :
    r'.control.Calm := by
  have hmove := move_step r.control .submit
  have hbegun : (r.control.step .submit).1.Calm :=
    ⟨hmove.harmless hcalm.patient (fun _ _ => trivial) hcalm.harmless, hmove.patient hcalm.patient⟩
  have hkept : Kept e fun c actions replies =>
      Submitting e r.control.session w.replies c actions replies ∧ (AllFit e o replies → c.Calm) :=
    (kept_submitting hindexed).calm fun hsubmitting hanswer _ _ => hsubmitting.suits hanswer
  have hreaches := follow_keeps hkept limit (w := w)
    (r := { r with control := (r.control.step .submit).1 })
    ⟨submitting_submit htasks hpoller, fun _ => hbegun⟩
  change Reaches _ (runIn (feed e limit r .submit) w) at hreaches
  rw [h] at hreaches
  exact hreaches.of_ok.2 hfit

/-! ## What is shown at the end -/

theorem Told.emit {w : World σ} (h : Told w) (event : Event) :
    Told ((reading event.markup.reverse w).record event) :=
  h.imp_right fun ⟨text, htext⟩ => ⟨text, List.mem_cons_of_mem _ htext⟩

/-- Lines that are printed leave told what was told. -/
theorem fares_forIn (lines : List String) {w : World σ} (h : Told w) :
    Fares (fun _ w' => Told w') (runIn (forIn lines PUnit.unit fun line _ => do
      print line
      pure (.yield PUnit.unit)) w) := by
  induction lines generalizing w with
  | nil => exact fares_ok h
  | cons line rest ih =>
      rw [List.forIn_cons]
      have hline : Fares (fun step w' => step = ForInStep.yield PUnit.unit ∧ Told w')
          (runIn (print line >>= fun _ => pure (.yield PUnit.unit)) w) := by
        refine (fares_emit (.print line) w).bind ?_
        rintro _ w' rfl
        exact fares_ok ⟨rfl, h.emit _⟩
      refine hline.bind ?_
      rintro _ w' ⟨rfl, htold⟩
      exact ih htold

theorem fares_tableOf {items : List Item} (h : Items.Displayable items) (w : World σ) :
    Fares (fun _ _ => True) (runIn (tableOf items) w) := by
  obtain ⟨table, htable⟩ := exists_itemTable h
  have hmade : Excused (itemTable items) := by
    rw [htable]
    exact failsAs_ok table
  refine (fares_except hmade w).bind fun table w' _ => ?_
  exact (fares_emit (.table table) w').imp id fun h => ⟨h.1, fun _ _ => trivial⟩

/-- How a command ends whose last part comes to an exit code. -/
def Closing (exit : Exit) (w : World σ) : Prop := EndsWell (.ok exit, w)

/-- The outcome of an import is a success, or it tells how many clips failed. -/
theorem fares_showOutcome {json : Bool} {s : Session}
    (h : json = false → Items.Displayable s.items) (path : String) (w : World σ) :
    Fares Closing (runIn (showOutcome path json s) w) := by
  unfold showOutcome
  extract_lets errors last
  -- In every case the last step ends the command: with a success, or with what was told before.
  have hlast : ∀ u w', errors.isEmpty = true ∨ Told w' → Fares Closing (runIn (last u) w') := by
    intro u w' hend
    unfold last
    by_cases hempty : errors.isEmpty = true
    · rw [if_pos hempty]
      exact fares_ok (Or.inl rfl)
    · rw [if_neg hempty]
      exact fares_ok (Or.inr ⟨rfl, hend.resolve_left hempty⟩)
  cases json with
  | true =>
      have hreport : runIn (report (importReport path (s.items.map itemReport))) w =
          (.ok (), afterReport (importReport path (s.items.map itemReport)) w) := rfl
      rw [if_pos rfl, runIn_bind_of_ok hreport]
      exact hlast () _ (Or.inr (told_of_echo rfl))
  | false =>
      rw [if_neg Bool.false_ne_true]
      refine (fares_tableOf (h rfl) w).bind fun _ w₁ _ => ?_
      by_cases hempty : errors.isEmpty = true
      · rw [if_pos hempty]
        exact (fares_emit _ w₁).bind fun _ w₂ _ => hlast () w₂ (Or.inl hempty)
      · have htext : "[red]" ++ (toString errors.length ++ " clips failed to import") ++ "[/red]" =
            "[red]" ++ toString errors.length ++ " clips failed to import[/red]" := by
          rw [← String.append_assoc, String.append_assoc]
          rfl
        rw [if_neg hempty]
        refine (fares_emit _ w₁).bind ?_
        rintro _ w₂ rfl
        refine (fares_forIn _ (Or.inr ⟨toString errors.length ++ " clips failed to import",
          ?_⟩)).bind fun _ w₃ htold => hlast () w₃ (Or.inr htold)
        rw [htext]
        exact List.mem_cons_self

/-! ## The end of the list -/

theorem excused_submittable (s : Session) : Excused (submittable s) := by
  unfold submittable
  split
  · exact FailsAs.error rfl
  · split
    · exact FailsAs.error rfl
    · exact failsAs_ok _

theorem excused_batchText {items : List Item} (h : Items.Displayable items) :
    Excused (numberResult (batchText items)) := by
  obtain ⟨text, htext⟩ := exists_batchText h
  rw [htext]
  exact failsAs_ok text

theorem fares_showBatch {json : Bool} {items : List Item}
    (h : json = false → Items.Displayable items) (path : String) (w : World σ) :
    Fares Closing (runIn (showBatch path json items) w) := by
  unfold showBatch
  cases json with
  | true => exact fares_ok (Or.inl rfl)
  | false =>
      rw [if_neg Bool.false_ne_true]
      refine (fares_tableOf (h rfl) w).bind fun _ w₁ _ => ?_
      refine (fares_except (excused_batchText (h rfl)) w₁).bind fun text w₂ _ => ?_
      exact (fares_emit _ w₂).bind fun _ _ _ => fares_ok (Or.inl rfl)

/-- An import whose list is edited ends there, or it goes on with a session to submit. -/
theorem fares_prepare {r : Running} {path : String}
    (hedited : Excused (editedSession r.control path o))
    (hshown : ∀ s, editedSession r.control path o = .ok s → o.json = false →
      Items.Displayable s.items) (w : World σ) :
    Fares (fun x w' => ∀ exit c, x = .inl (exit, c) → Closing exit w')
      (runIn (prepare r path o) w) := by
  have hgoes : ∀ (r' : Running) (w' : World σ), Fares (fun x w' => ∀ exit c, x = .inl (exit, c) →
      Closing exit w') ((.ok (.inr r'), w') : Except Failure (Exit × Control ⊕ Running) × _) := by
    intro r' w'
    refine fares_ok ?_
    rintro exit c ⟨⟩
  have hends : ∀ {exit : Exit} {w' : World σ} (c : Control), Closing exit w' →
      Fares (fun x w' => ∀ exit c, x = .inl (exit, c) → Closing exit w')
        ((.ok (.inl (exit, c)), w') : Except Failure (Exit × Control ⊕ Running) × _) := by
    intro exit w' c hclosing
    refine fares_ok ?_
    rintro _ _ ⟨⟩
    exact hclosing
  unfold prepare
  refine (fares_except hedited w).bind ?_
  rintro s w₁ ⟨hs, rfl⟩
  dsimp only
  split
  · refine (fares_showBatch (hshown s hs) path _).bind fun exit w₂ hclosing => ?_
    exact hends _ hclosing
  refine (fares_except (excused_submittable s) _).bind ?_
  rintro submits w₂ -
  split
  · split
    · exact hends _ (Or.inl rfl)
    · exact (fares_emit _ w₂).bind fun _ _ _ => hends _ (Or.inl rfl)
  · split
    · rename_i hjson
      have hplain : o.json = false := by simpa using hjson
      refine (fares_except (excused_batchText (hshown s hs hplain)) w₂).bind fun text w₃ _ => ?_
      exact (fares_emit _ w₃).bind fun _ w₄ _ => hgoes _ w₄
    · exact hgoes _ w₂

/-! ## Parts without end -/

theorem quiet_follows (r : Running) (path : String) (json : Bool) :
    Quiet (readAccepted r json >>= fun _ => (liftM (submitResult r.control) >>= fun _ =>
      showOutcome path json r.control.session >>= fun exit => pure (exit, r.control) :
        Step (StateM (World σ)) (Exit × Control))) :=
  (quiet_readAccepted r json).bind fun _ => (quiet_except _).bind fun _ =>
    (quiet_showOutcome _ _ _).bind fun _ => quiet_pure _

theorem grows_submitAndFollow (limit : Nat) (r : Running) (path : String) (json : Bool) :
    Grows (submitAndFollow limit e r path json : Step (StateM (World σ)) (Exit × Control)) :=
  (grows_feed limit r .submit).bind fun r => (quiet_follows r path json).grows

theorem finishes_submitAndFollow (r : Running) (path : String) (json : Bool) (w : World σ) :
    Finishes (fun _ => True) (fun limit => submitAndFollow limit e r path json) w :=
  (finishes_feed r .submit w).bind (fun _ r => (quiet_follows r path json).grows)
    (fun _ _ _ => trivial) fun _ _ _ => finishes_const trivial

/-- What is left of an import once its list is edited. -/
def finish (limit : Nat) (e : Endpoint) (path : String) (o : ImportOptions) :
    Exit × Control ⊕ Running → Step (StateM (World σ)) (Exit × Control)
  | .inl ended => pure ended
  | .inr r => submitAndFollow limit e r path o.json

theorem importPath_eq (limit : Nat) (r : Running) (path : String) :
    (importPath limit e r path o : Step (StateM (World σ)) (Exit × Control)) =
      feed e limit r (.openPath path) >>= fun r =>
        prepare r path o >>= finish limit e path o := by
  unfold importPath
  congr 1

theorem grows_finish (limit : Nat) (path : String) (x : Exit × Control ⊕ Running) :
    Grows (finish limit e path o x : Step (StateM (World σ)) (Exit × Control)) := by
  cases x with
  | inl ended => exact (quiet_pure ended).grows
  | inr r => exact grows_submitAndFollow limit r path o.json

theorem grows_prepare (limit : Nat) (r : Running) (path : String) :
    Grows (prepare r path o >>= finish limit e path o :
      Step (StateM (World σ)) (Exit × Control)) :=
  (quiet_prepare r path o).grows.bind fun x => grows_finish limit path x

theorem stable_importPath (r : Running) (path : String) :
    Stable (fun limit => importPath limit e r path o :
      Nat → Step (StateM (World σ)) (Exit × Control)) := by
  simp only [importPath_eq]
  refine (stable_feed r _).bind fun r₁ => (stable_const _).bind fun x => ?_
  cases x with
  | inl ended => exact stable_const _
  | inr r₂ => exact (stable_feed r₂ .submit).bind fun _ => stable_const _

theorem finishes_importPath (r : Running) (path : String) (w : World σ) :
    Finishes (fun _ => True) (fun limit => importPath limit e r path o) w := by
  simp only [importPath_eq]
  refine (finishes_feed r _ w).bind (fun limit r => grows_prepare limit r path)
    (fun _ _ _ => trivial) fun r₁ w₁ _ => ?_
  refine (finishes_const (P := fun _ => True) trivial).bind
    (fun limit x => grows_finish limit path x) (fun _ _ _ => trivial) fun x w₂ _ => ?_
  cases x with
  | inl ended => exact finishes_const trivial
  | inr r₂ => exact finishes_submitAndFollow r₂ path o.json w₂

/-! ## The way of an import -/

/-- A session that was followed to the end went all the way, or stopped at a label. -/
theorem Over.fares {β : Type} {Q : β → World σ → Prop} {f : Failure} {w : World σ}
    (h : Over (.error f, w)) : Fares Q ((.error f, w) : Except Failure β × World σ) := by
  rcases h with ⟨r, hr⟩ | hstops
  · cases hr
  · exact Fares.of_error (Q := fun _ _ => True) (Or.inl hstops)

/-- Whether the import of a path ends well, or fails in a way that is reported. -/
def Arrives (ran : Except Failure (Exit × Control) × World σ) : Prop :=
  Fares (fun ended w => Closing ended.1 w) ran

theorem arrives_submitAndFollow {r : Running} {path : String} {json : Bool}
    {w : World σ} {ran : Except Failure (Exit × Control) × World σ}
    (htasks : r.control.tasks = [.load (.done (.ok ()))]) (hpoller : r.control.poller = none)
    (hindexed : r.control.session.Indexed) (hcalm : r.control.Calm)
    (hshown : json = false → Items.Displayable r.control.session.items)
    (h : ComesTo (fun limit => submitAndFollow limit e r path json) w ran)
    (hfit : AllFit e o ran.2.replies) : Arrives ran := by
  unfold submitAndFollow at h
  rcases h.of_bind (finishes_feed r .submit w) fun _ r => (quiet_follows r path json).grows with
    ⟨f, w₁, -, hover, rfl⟩ | ⟨r₁, w₁, hcomes, -, hrest⟩
  · exact hover.fares
  obtain ⟨limit, hfeed⟩ := hcomes.exists_run
  obtain ⟨-, hran⟩ := hrest.exists_run
  -- Nothing is sent after the submission, so all replies are those that came to it.
  rw [← hran, replies_of_held (quiet_follows r₁ path json w₁)] at hfit
  have hended := calm_submission htasks hpoller hindexed hcalm hfeed hfit
  have hreaches := submitting_feed limit (e := e) (w := w) htasks hpoller hindexed
  rw [hfeed] at hreaches
  have hfollowed := hreaches.of_ok
  rw [← hran]
  -- Reading the label changes nothing that the rest goes by.
  have hlabel : Fares (fun _ _ => True) (runIn (readAccepted r₁ json) w₁) := by
    unfold readAccepted
    split
    · rcases readMarkup_cases [r₁.label] w₁ with ⟨text, message, read, hfault, hread⟩ | hread
      · refine Or.inl ?_
        rw [readLabel, hread]
        exact stops_of_fault hfault
      · rw [readLabel, hread]
        exact fares_ok trivial
    · exact fares_ok trivial
  refine hlabel.bind fun _ w₂ _ => ?_
  refine (fares_except (excused_submitResult hended.harmless hfollowed.ended) w₂).bind ?_
  rintro _ w₃ ⟨hok, -⟩
  obtain ⟨answer, later, -, -, -, hbase, -⟩ := hfollowed.of_submitResult hok
  -- The poll changes states only, and a table shows the same items before and after it.
  have hlist : json = false → Items.Displayable r₁.control.session.items := fun hjson =>
    (hshown hjson).of_plain (congrArg Session.items hbase)
  exact (fares_showOutcome hlist path w₃).bind fun _ _ hclosing => fares_ok hclosing

/-! ### After the load -/

/-- What holds of a session after the load of `s` if the replies fit: the load failed in no way that
is not reported, and the clips of a list that it shows can be edited and shown. -/
structure FitLoad (e : Endpoint) (o : ImportOptions) (s : Session) (c : Control) : Prop where
  calm : c.Calm
  excused : Excused (loadResult c)
  loaded : loadResult c = .ok () → ∃ clips takes answer items,
    Loaded e s clips takes answer items c ∧ ∀ cs, clipsIn e s.path clips = .ok cs → Manageable o cs

theorem fitLoad_of_feed {limit : Nat} {r r' : Running} {path : String} {w w' : World σ}
    (htasks : r.control.tasks = []) (hpoller : r.control.poller = none) (hpath : path ≠ "")
    (hpatient : r.control.session.Patient)
    (h : runIn (feed e limit r (.openPath path)) w = (.ok r', w')) (hfit : AllFit e o w'.replies) :
    FitLoad e o (opened r.control.session path) r'.control := by
  have hcalm := calm_load htasks hpoller hpath hpatient h hfit
  obtain ⟨s₁, stage, hstage, hloading⟩ := loading_of_feed htasks hpoller hpath h
  refine ⟨hcalm, ?_, fun hok => ?_⟩
  · obtain ⟨result, rfl⟩ := hloading.ended_of_nil
    have hdone : r'.control.task? 0 = some (.load (.done result)) := by
      rw [hstage]
      rfl
    exact excused_loadResult hcalm.harmless hdone
  · obtain ⟨clips, takes, answer, items, hloaded, hreplies⟩ := hloading.of_loadResult hstage hok
    -- The listing of the clips is one of the replies that fit.
    have hmem : ((Query.clips path).request e, clips) ∈ w'.replies := by
      rw [hreplies]
      simp [listings, opened]
    exact ⟨clips, takes, answer, items, hloaded, (hfit _ hmem (.clips path) rfl).2⟩

namespace FitLoad

variable {c : Control} {s' : Session} {path : String}

theorem excused_editedSession (h : FitLoad e o s c) (path : String) :
    Excused (editedSession c path o) := by
  unfold editedSession
  refine FailsAs.bind h.excused fun _ hok => ?_
  obtain ⟨clips, takes, answer, items, hloaded, hmanageable⟩ := h.loaded hok
  split
  · exact FailsAs.error rfl
  · exact hloaded.excused_applyOptions hmanageable

theorem displayable (h : FitLoad e o s c) (hjson : o.json = false)
    (hscene : (o.sceneOr s.scene).IsCell) (hedited : editedSession c path o = .ok s') :
    Items.Displayable s'.items := by
  obtain ⟨hok, -, happlied⟩ := of_editedSession hedited
  obtain ⟨clips, takes, answer, items, hloaded, hmanageable⟩ := h.loaded hok
  exact hloaded.displayable hmanageable hjson hscene happlied

/-- The submission of what was edited arrives. -/
theorem arrives {r : Running} {w : World σ} {ran : Except Failure (Exit × Control) × World σ}
    (h : FitLoad e o s r.control) (hscene : o.json = false → (o.sceneOr s.scene).IsCell)
    (hcleared : Cleared o r.control s')
    (hrun : ComesTo (fun limit => submitAndFollow limit e
      { r with control := r.control.setSession s' } path o.json) w ran)
    (hfit : AllFit e o ran.2.replies) : Arrives ran := by
  obtain ⟨clips, takes, answer, items, hloaded, -⟩ := h.loaded hcleared.loaded
  have hindexed := indexed_applyOptions hcleared.applied hloaded.indexed
  have hshown : o.json = false → Items.Displayable s'.items := fun hjson =>
    h.displayable hjson (hscene hjson) (editedSession_of_cleared hcleared path)
  obtain ⟨⟨edited, rfl, -⟩, -⟩ := of_applyOptions hcleared.applied
  -- The options edit the items, and a session is calm whatever it lists.
  have hcalm : (r.control.setSession { r.control.session with items := edited }).Calm :=
    ⟨h.calm.harmless, h.calm.patient.interval, h.calm.patient.backoff, h.calm.patient.retries⟩
  exact arrives_submitAndFollow
    (r := { r with control := r.control.setSession { r.control.session with items := edited } })
    hloaded.tasks hloaded.poller hindexed hcalm hshown hrun hfit

end FitLoad

theorem arrives_importPath {r : Running} {path : String} {w : World σ}
    {ran : Except Failure (Exit × Control) × World σ} (htasks : r.control.tasks = [])
    (hpoller : r.control.poller = none) (hpath : path ≠ "")
    (hpatient : r.control.session.Patient)
    (hscene : o.json = false → (o.sceneOr r.control.session.scene).IsCell)
    (h : ComesTo (fun limit => importPath limit e r path o) w ran)
    (hfit : AllFit e o ran.2.replies) : Arrives ran := by
  simp only [importPath_eq] at h
  rcases h.of_bind (finishes_feed r _ w) fun limit r => grows_prepare limit r path with
    ⟨f, w₁, -, hover, rfl⟩ | ⟨r₁, w₁, hcomes, -, hrest⟩
  · exact hover.fares
  obtain ⟨limit, hfeed⟩ := hcomes.exists_run
  obtain ⟨limit', hran⟩ := hrest.exists_run
  -- What is sent later does not replace the replies of the load, so those fit too.
  have hfit₁ : AllFit e o w₁.replies := by
    obtain ⟨new, hnew⟩ := grows_prepare limit' r₁ path w₁
    rw [hran] at hnew
    exact fun p hp => hfit p (hnew ▸ List.mem_append_right new hp)
  have hload := fitLoad_of_feed htasks hpoller hpath hpatient hfeed hfit₁
  have hprepared := fares_prepare (hload.excused_editedSession path)
    (fun s hs hjson => hload.displayable hjson (hscene hjson) hs) w₁
  rcases hrun : runIn (prepare r₁ path o) w₁ with ⟨f | ended | r₂, w₂⟩ <;> rw [hrun] at hprepared
  · rw [runIn_bind, hrun] at hran
    rw [← hran]
    exact hprepared.of_error
  · rw [runIn_bind_of_ok hrun] at hran
    rw [← hran]
    exact fares_ok (hprepared.of_ok ended.1 ended.2 rfl)
  · obtain ⟨s, hcleared, rfl⟩ := cleared_of_prepare hrun
    exact hload.arrives hscene hcleared (hrest.congr fun limit => runIn_bind_of_ok hrun) hfit

end Command

end CardImport
