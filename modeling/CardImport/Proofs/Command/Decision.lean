import CardImport.Proofs.Command.Submitting
import CardImport.Proofs.Except
import CardImport.Proofs.Session.Edit
import Mathlib.Data.List.Basic

/-!
# What the import command decides

The command comes to the submission of its batch by one way only, and leaves it for many reasons.
`importSession_cases` and `importPath_cases` say what holds where it has come to the end of that
way; wherever it leaves, it has sent nothing but the requests of its load.
-/

namespace CardImport.Command

open Control

variable {σ : Type}

/-! ## The options -/

theorem map_given_editItems {items items' : List Item} {edits : List Edit}
    (h : editItems items edits = .ok items') : items'.map Item.given = items.map Item.given := by
  induction edits generalizing items with
  | nil =>
      cases h
      rfl
  | cons e rest ih =>
      have hedit := Items.map_given_edit items e
      rcases he : Items.edit items e with ⟨edited, error | _⟩
      · simp only [editItems, List.foldlM_cons, he] at h
        cases h
      · simp only [editItems, List.foldlM_cons, he] at h
        rw [he] at hedit
        exact (ih h).trans hedit

/-- Options that can be applied first edit the list and then mark the selects. -/
theorem applyOptions_ok {s s' : Session} {o : ImportOptions} (h : applyOptions s o = .ok s') :
    ∃ items, editItems s.items (optionEdits o) = .ok items ∧
      selectItems { s with items } o.selects = .ok s' := by
  unfold applyOptions at h
  cases hedit : editItems s.items (optionEdits o) with
  | error f =>
      rw [hedit] at h
      cases h
  | ok items =>
      rw [hedit] at h
      exact ⟨items, rfl, h⟩

/-- Marking selects finds all of their names, and changes nothing but what the operator can change
of an item. -/
theorem of_selectItems {s s' : Session} {names : List String} (h : selectItems s names = .ok s') :
    (∃ items, s' = { s with items } ∧ items.map Item.given = s.items.map Item.given) ∧
      ∀ name ∈ names, (s.find? (.str name)).isSome = true := by
  induction names generalizing s with
  | nil =>
      cases h
      exact ⟨⟨_, rfl, rfl⟩, List.forall_mem_nil _⟩
  | cons name rest ih =>
      unfold selectItems at h
      cases hp : s.find? (.str name) with
      | none =>
          rw [hp] at h
          cases h
      | some position =>
          rw [hp] at h
          obtain ⟨⟨items, rfl, hitems⟩, hfound⟩ := ih h
          have hgiven := Items.map_given_edit s.items (.setSelect position true)
          refine ⟨⟨items, rfl, hitems.trans hgiven⟩, ?_⟩
          intro other hother
          rcases List.mem_cons.mp hother with rfl | hrest
          · rw [hp]
            rfl
          · exact hfound other hrest

/-- The options change nothing but the items, and neither clips nor states of these. All names of
selects are found. -/
theorem of_applyOptions {s s' : Session} {o : ImportOptions} (h : applyOptions s o = .ok s') :
    (∃ items, s' = { s with items } ∧ items.map Item.given = s.items.map Item.given) ∧
      ∀ name ∈ o.selects, (s.find? (.str name)).isSome = true := by
  obtain ⟨edited, hedit, hselect⟩ := applyOptions_ok h
  obtain ⟨⟨items, rfl, hitems⟩, hfound⟩ := of_selectItems hselect
  exact ⟨⟨items, rfl, hitems.trans (map_given_editItems hedit)⟩, hfound⟩

theorem indexed_applyOptions {s s' : Session} {o : ImportOptions}
    (h : applyOptions s o = .ok s') (hs : s.Indexed) : s'.Indexed := by
  obtain ⟨⟨items, rfl, hitems⟩, -⟩ := of_applyOptions h
  have hnames := congrArg (List.map fun p : Clip × ItemState => p.1.name) hitems
  rw [List.map_map, List.map_map] at hnames
  exact hs.trans (NameIndex.ofItems_congr hnames).symm

/-! ## From the load to the submission -/

theorem loading_feed (limit : Nat) {e : Endpoint} {r : Running} {path : String}
    (htasks : r.control.tasks = []) (hpoller : r.control.poller = none) (hpath : path ≠ "")
    (w : World σ) :
    Reaches (fun r' rest w' => LoadsFrom e r.control.showsPercent (opened r.control.session path)
      w.replies r'.control rest w'.replies) (runIn (feed e limit r (.openPath path)) w) := by
  have hopen := openPath_eq htasks hpoller path
  have hbegin : Loading e (opened r.control.session path) w.replies
      (opened r.control.session path) .created (live (r.control.openPath path).2) w.replies := by
    rw [hopen]
    exact .created
  exact loading_follow hpath rfl limit (r := { r with control := (r.control.openPath path).1 })
    (congrArg Prod.fst hopen) hbegin

theorem loading_of_feed {limit : Nat} {e : Endpoint} {r r' : Running} {path : String}
    {w w' : World σ} (htasks : r.control.tasks = []) (hpoller : r.control.poller = none)
    (hpath : path ≠ "") (h : runIn (feed e limit r (.openPath path)) w = (.ok r', w')) :
    ∃ s stage, r'.control = loadOnly r.control.showsPercent s stage ∧
      Loading e (opened r.control.session path) w.replies s stage [] w'.replies := by
  have hreaches := loading_feed limit (e := e) htasks hpoller hpath w
  rw [h] at hreaches
  exact hreaches.of_ok

/-- What has to hold for the batch of `s` to be sent after the load of `c`. -/
structure Cleared (o : ImportOptions) (c : Control) (s : Session) : Prop where
  loaded : loadResult c = .ok ()
  listed : c.session.state ≠ .noData
  applied : applyOptions c.session o = .ok s
  wet : o.dryRun = false
  submittable : submittable s = .ok true

theorem of_editedSession {c : Control} {path : String} {o : ImportOptions} {s : Session}
    (h : editedSession c path o = .ok s) :
    loadResult c = .ok () ∧ c.session.state ≠ .noData ∧ applyOptions c.session o = .ok s := by
  unfold editedSession at h
  obtain ⟨_, hloaded, h⟩ := exists_of_bind_eq_ok h
  split at h
  · cases h
  · rename_i hlisted
    exact ⟨hloaded, hlisted, h⟩

theorem quiet_prepare (r : Running) (path : String) (o : ImportOptions) :
    Quiet (prepare r path o : Step (StateM (World σ)) (Exit × Control ⊕ Running)) := by
  unfold prepare
  refine (quiet_except _).bind fun s => ?_
  dsimp only
  split
  · exact (quiet_showBatch _ _ _).bind fun _ => quiet_pure _
  refine (quiet_except _).bind fun submits => ?_
  split
  · split
    · exact (quiet_echo _).bind fun _ => quiet_pure _
    · exact (quiet_emit _).bind fun _ => quiet_pure _
  · split
    · exact (quiet_except _).bind fun _ => (quiet_emit _).bind fun _ => quiet_pure _
    · exact quiet_pure _

/-- What goes on to the submission is the edited session, if it may be submitted. -/
theorem cleared_of_prepare {r r' : Running} {path : String} {o : ImportOptions} {w w' : World σ}
    (h : runIn (prepare r path o) w = (.ok (.inr r'), w')) :
    ∃ s, Cleared o r.control s ∧ r' = { r with control := r.control.setSession s } := by
  unfold prepare at h
  obtain ⟨s, w₁, hok, hlater⟩ := runIn_bind_ok h
  obtain ⟨hedited, rfl⟩ := runIn_except_ok hok
  obtain ⟨hloaded, hlisted, happlied⟩ := of_editedSession hedited
  dsimp only at hlater
  split at hlater
  · obtain ⟨_, _, -, hended⟩ := runIn_bind_ok hlater
    cases hended
  rename_i hwet
  obtain ⟨submits, w₂, hok, hdecided⟩ := runIn_bind_ok hlater
  obtain ⟨hsubmits, rfl⟩ := runIn_except_ok hok
  cases submits with
  | false =>
      -- With nothing to submit the command ends here.
      simp only [Bool.not_false, if_true] at hdecided
      split at hdecided <;> obtain ⟨_, _, -, hended⟩ := runIn_bind_ok hdecided <;> cases hended
  | true =>
      refine ⟨s, ⟨hloaded, hlisted, happlied, Bool.eq_false_iff.mpr hwet, hsubmits⟩, ?_⟩
      simp only [Bool.not_true, Bool.false_eq_true, if_false] at hdecided
      split at hdecided
      · obtain ⟨_, _, -, hprinted⟩ := runIn_bind_ok hdecided
        obtain ⟨_, _, -, hended⟩ := runIn_bind_ok hprinted
        cases hended
        rfl
      · cases hdecided
        rfl

/-- After its load a command sends nothing and leaves its memory alone, or it submits the edited
session. -/
theorem importPath_cases {limit : Nat} {e : Endpoint} {r : Running} {path : String}
    {o : ImportOptions} {w w' : World σ} {result : Except Failure (Exit × Control)}
    (h : runIn (importPath limit e r path o) w = (result, w')) :
    (∃ f, runIn (feed e limit r (.openPath path)) w = (.error f, w') ∧ result = .error f) ∨
    ∃ r₁ w₁, runIn (feed e limit r (.openPath path)) w = (.ok r₁, w₁) ∧
      (held w' = held w₁ ∨
        ∃ s w₂, Cleared o r₁.control s ∧ held w₂ = held w₁ ∧
          runIn (submitAndFollow limit e { r₁ with control := r₁.control.setSession s } path
            o.json) w₂ = (result, w')) := by
  unfold importPath at h
  rcases runIn_bind_cases h with ⟨f, hf, hresult⟩ | ⟨r₁, w₁, hfeed, hrest⟩
  · exact Or.inl ⟨f, hf, hresult⟩
  refine Or.inr ⟨r₁, w₁, hfeed, ?_⟩
  rcases runIn_bind_cases hrest with ⟨f, hf, -⟩ | ⟨ended | r₂, w₂, hprepared, hsent⟩
  · exact Or.inl ((quiet_prepare _ _ _).held hf)
  · cases hsent
    exact Or.inl ((quiet_prepare _ _ _).held hprepared)
  · obtain ⟨s, hcleared, rfl⟩ := cleared_of_prepare hprepared
    exact Or.inr ⟨s, w₂, hcleared, (quiet_prepare _ _ _).held hprepared, hsent⟩

/-! ## From the settings to the load -/

theorem exit_of_fail {json : Bool} {message : String} {w w' : World σ} {exit : Exit}
    (h : runIn (fail json message) w = (.ok exit, w')) : exit = failed := by
  unfold fail at h
  cases json with
  | true =>
      obtain ⟨_, w₁, -, hend⟩ := runIn_bind_ok h
      cases hend
      rfl
  | false =>
      obtain ⟨_, w₁, -, hend⟩ := runIn_bind_ok h
      cases hend
      rfl

theorem exit_of_refuse {json : Bool} {f : Failure} {w w' : World σ} {exit : Exit}
    (h : runIn (refuse json f) w = (.ok exit, w')) : exit = failed := by
  unfold refuse at h
  split at h
  · exact exit_of_fail h
  · cases h

theorem runIn_attempt_cases {α β : Type} {x : Step (StateM (World σ)) α}
    {f : Except Failure α → Step (StateM (World σ)) β} {w w' : World σ} {r : Except Failure β}
    (h : runIn (Network.attempt x >>= f) w = (r, w')) :
    ∃ ended w₁, runIn x w = (ended, w₁) ∧ runIn (f ended) w₁ = (r, w') :=
  ⟨(runIn x w).1, (runIn x w).2, rfl, h⟩

/-- Whether a command that comes to an exit code has failed. -/
def Fails (result : Except Failure (Exit × Option Control)) : Prop :=
  ∀ exit c, result = .ok (exit, c) → exit = failed

theorem fails_error (f : Failure) : Fails (.error f) := by
  intro exit c h
  cases h

theorem quiet_fail (json : Bool) (message : String) :
    Quiet (fail json message : Step (StateM (World σ)) Exit) := by
  unfold fail
  split
  · exact (quiet_echo _).bind fun _ => quiet_pure _
  · exact (quiet_emit _).bind fun _ => quiet_pure _

theorem quiet_refuse (json : Bool) (f : Failure) :
    Quiet (refuse json f : Step (StateM (World σ)) Exit) := by
  unfold refuse
  split
  · exact quiet_fail _ _
  · exact quiet_throw _

/-- What is left of a command that does not go on is quiet, and it has failed. -/
theorem fails_of_quiet {x : Step (StateM (World σ)) Exit} {w w' : World σ}
    {result : Except Failure (Exit × Option Control)} (hx : Quiet x)
    (hfailed : ∀ {w₁ exit}, runIn x w = (.ok exit, w₁) → exit = failed)
    (h : runIn (x >>= fun exit => pure (exit, none)) w = (result, w')) :
    held w' = held w ∧ Fails result := by
  refine ⟨(hx.bind fun _ => quiet_pure _).held h, ?_⟩
  rintro exit c rfl
  obtain ⟨code, w₁, hcode, hend⟩ := runIn_bind_ok h
  cases hend
  exact hfailed hcode

def began (o : ImportOptions) (s : Session) : Control :=
  { session := placeIn o s, showsPercent := !o.json }

theorem runIn_progressTask {α : Type} {json : Bool} {f : Unit → Step (StateM (World σ)) α}
    {w : World σ} {r : Except Failure α × World σ}
    (h : runIn (if !json then emit (.progressTask "Copying" 100) >>= f else f ()) w = r) :
    ∃ w₁, unseen w₁ = unseen w ∧ runIn (f ()) w₁ = r := by
  cases json with
  | true => exact ⟨w, rfl, h⟩
  | false => exact ⟨w.record (.progressTask "Copying" 100), rfl, h⟩

/-- The command fails before it sends anything, or it imports the path that was chosen. -/
theorem importSession_cases [Json.Nesting] {limit : Nat} {settings : Settings} {o : ImportOptions}
    {w w' : World σ} {result : Except Failure (Exit × Option Control)}
    (h : runIn (importSession limit settings o) w = (result, w')) :
    (held w' = held w ∧ Fails result) ∨
      ∃ w₁ memory w₂ s ended w₃, unseen w₁ = unseen w ∧
        runIn loadMemory w₁ = (.ok memory, w₂) ∧ sessionOf settings.importing = .ok s ∧
        choosePath o (placeIn o s) memory ≠ "" ∧
        runIn (importPath limit (endpointOf settings) { control := began o s, memory }
          (choosePath o (placeIn o s) memory) o) w₂ = (ended, w₃) ∧
        held w' = held w₃ ∧
        ((∃ exit c, ended = .ok (exit, c) ∧ result = .ok (exit, some c)) ∨ Fails result) := by
  unfold importSession at h
  obtain ⟨w₁, hw₁, hbegun⟩ := runIn_progressTask h
  rcases runIn_bind_cases hbegun with ⟨f, hf, rfl⟩ | ⟨memory, w₂, hmemory, hloaded⟩
  · exact Or.inl ⟨(quiet_loadMemory.held hf).trans (held_of_unseen hw₁), fails_error f⟩
  -- Reading the memory and the settings sends nothing.
  have hheld := (quiet_loadMemory.held hmemory).trans (held_of_unseen hw₁)
  rcases runIn_bind_cases hloaded with ⟨f, hf, rfl⟩ | ⟨s, w₃, hrun, hopened⟩
  · exact Or.inl ⟨((quiet_except _).held hf).trans hheld, fails_error f⟩
  obtain ⟨hs, rfl⟩ := runIn_except_ok hrun
  dsimp only at hopened
  split at hopened
  · obtain ⟨hquiet, hfails⟩ := fails_of_quiet (quiet_fail _ _) exit_of_fail hopened
    exact Or.inl ⟨hquiet.trans hheld, hfails⟩
  · rename_i hpath
    obtain ⟨ended, w₄, hrun, hend⟩ := runIn_attempt_cases hopened
    refine Or.inr ⟨w₁, memory, _, s, ended, w₄, hw₁, hmemory, hs, hpath, hrun, ?_⟩
    cases ended with
    | error f =>
        obtain ⟨hquiet, hfails⟩ := fails_of_quiet (quiet_refuse _ _) exit_of_refuse hend
        exact ⟨hquiet, Or.inr hfails⟩
    | ok outcome =>
        obtain ⟨exit, c⟩ := outcome
        cases hend
        exact ⟨rfl, Or.inl ⟨exit, c, rfl, rfl⟩⟩

end CardImport.Command
