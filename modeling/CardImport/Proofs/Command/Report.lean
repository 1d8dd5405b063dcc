import CardImport.Proofs.Command.Outcome
import CardImport.Proofs.Command.Silent

/-!
# One report on every way out

A command that was asked for JSON writes one document and shows nothing else, however it ends: the
document is what the command comes to or the error that ended it. The exit code can be worked out
from that document alone.
-/

namespace CardImport

/-! ## What a document tells -/

namespace Json

def field? (x : Json) (name : String) : Option Json := x.fields?.bind (Fields.get? · name)

/-- Whether a document is an object with an error. -/
def tellsError (doc : Json) : Bool := (doc.field? "error").isSome

/-- Whether an item of a document is in the state of an error. -/
def inError (item : Json) : Bool :=
  match item.field? "state" with
  | some (.str state) => state == "error"
  | _ => false

/-- Whether a document lists an item in the state of an error. -/
def listsError (doc : Json) : Bool :=
  match doc.field? "items" with
  | some (.arr items) => items.any inError
  | _ => false

end Json

namespace Command

open Network

/-- Whether an order asks for JSON. -/
def Order.inJson : Order → Bool
  | importClips o => o.json
  | showStatus json => json
  | listTakes json => json
  | showTake .. | editTake .. | deleteTake .. => false

/-- Whether a document tells that the order that it answers failed. -/
def Order.failsBy (o : Order) (doc : Json) : Bool :=
  doc.tellsError || match o with
    | importClips _ => doc.listsError
    | _ => false

def Order.exitBy (o : Order) (doc : Json) : Exit := if o.failsBy doc then failed else success

def Order.Matches (o : Order) (exit : Exit) (doc : Json) : Prop := exit = o.exitBy doc

theorem exitBy_of_fails {o : Order} {doc : Json} (h : o.failsBy doc = true) :
    o.exitBy doc = failed := if_pos h

theorem exitBy_of_not_fails {o : Order} {doc : Json} (h : o.failsBy doc = false) :
    o.exitBy doc = success := if_neg (Bool.eq_false_iff.mp h)

theorem failsBy_error (o : Order) (message : String) :
    o.failsBy (.obj [("error", .str message)]) = true := rfl

/-! ### The documents of an import -/

theorem failsBy_importReport (o : ImportOptions) (path : String) (items : List Json) :
    (Order.importClips o).failsBy (importReport path items) = items.any Json.inError :=
  Bool.false_or _

theorem inError_itemReport (i : Item) : (itemReport i).inError = decide (i.state = .error) := by
  unfold itemReport
  cases i.state <;> rfl

theorem inError_submission (i : Item) : i.submission.inError = false := rfl

theorem failsBy_batch (o : ImportOptions) (path : String) (items : List Item) :
    (Order.importClips o).failsBy (importReport path (Items.batch items)) = false := by
  rw [failsBy_importReport, Items.batch, List.any_map, List.any_eq_false]
  intro i _
  exact Bool.eq_false_iff.mp (inError_submission i)

theorem isEmpty_filter (p : Item → Bool) (items : List Item) :
    (items.filter p).isEmpty = !items.any p := by
  rw [Bool.eq_iff_iff]
  simp

theorem exitBy_outcome (o : ImportOptions) (path : String) (items : List Item) :
    (Order.importClips o).exitBy (importReport path (items.map itemReport)) =
      if (items.filter (·.state = .error)).isEmpty then success else failed := by
  have hany : (items.map itemReport).any Json.inError = items.any (·.state = .error) := by
    rw [List.any_map]
    exact congrArg (items.any ·) (funext inError_itemReport)
  unfold Order.exitBy
  rw [failsBy_importReport, hany, isEmpty_filter]
  cases items.any (·.state = .error) <;> rfl

/-! ## Ways to end -/

variable {σ α β : Type} {F G : Failure → Prop} {P : α → Json → Prop}

/-- How a step ends that began in a world: it fails as in `F` and has shown nothing, or it comes to
a value and has written one document, which goes with the value as in `P`. -/
inductive Ends (F : Failure → Prop) (P : α → Json → Prop) (w : World σ) :
    Except Failure α × World σ → Prop
  | fails {f : Failure} {w' : World σ} (hf : F f) (hview : view w' = view w) :
      Ends F P w (.error f, w')
  | reports {a : α} {doc : Json} {indented : Bool} {w' : World σ} (ha : P a doc)
      (hview : view w' = (w.output ++ (doc.write ⟨indented, true⟩ ++ "\n"), shown w)) :
      Ends F P w (.ok a, w')

theorem Ends.of_view {w w₁ : World σ} {ran : Except Failure α × World σ} (h : Ends F P w₁ ran)
    (hview : view w₁ = view w) : Ends F P w ran := by
  have houtput : w₁.output = w.output := congrArg Prod.fst hview
  have hshown : shown w₁ = shown w := congrArg Prod.snd hview
  cases h with
  | fails hf hend => exact .fails hf (hend.trans hview)
  | reports ha hend =>
      rw [houtput, hshown] at hend
      exact .reports ha hend

/-- What comes after a silent step decides how it ends. -/
theorem Silent.ends {x : Step (StateM (World σ)) β} {f : β → Step (StateM (World σ)) α}
    {w : World σ} (hx : Silent F x)
    (hf : ∀ b w', runIn x w = (.ok b, w') → Ends F P w' (runIn (f b) w')) :
    Ends F P w (runIn (x >>= f) w) := by
  have hview := hx.view w
  have hfails := hx.fails w
  rw [runIn_bind]
  rcases hrun : runIn x w with ⟨e | b, w'⟩ <;> rw [hrun] at hview hfails
  · exact .fails (hfails e rfl) hview
  · exact (hf b w' hrun).of_view hview

/-- What is done with the value of a step that ended, and shows nothing, changes only the value. -/
theorem Ends.map {Q : β → Json → Prop} {x : Step (StateM (World σ)) α} {g : α → β} {w : World σ}
    (h : Ends F P w (runIn x w)) (hg : ∀ a doc, P a doc → Q (g a) doc) :
    Ends F Q w (runIn (x >>= fun a => pure (g a)) w) := by
  rw [runIn_bind]
  generalize runIn x w = ran at h
  cases h with
  | fails hf hview => exact .fails hf hview
  | reports ha hview => exact .reports (hg _ _ ha) hview

theorem ends_echo {a : α} {doc : Json} (h : P a doc) (indented : Bool) (w : World σ) :
    Ends F P w (runIn (echo (doc.write ⟨indented, true⟩) >>= fun _ => pure a) w) :=
  .reports h rfl

/-! ## Ways to fail -/

theorem ends_fail (o : Order) (message : String) (w : World σ) :
    Ends F o.Matches w (runIn (fail true message) w) :=
  ends_echo (exitBy_of_fails (failsBy_error o message)).symm false w

theorem ends_refuse (o : Order) (f : Failure) (w : World σ) :
    Ends Unreported o.Matches w (runIn (refuse true f) w) := by
  unfold refuse
  split
  · exact ends_fail o _ w
  · rename_i hf
    exact .fails (Bool.eq_false_iff.mpr hf) rfl

/-- A command that reports how a silent step failed ends as it does with the value of the step. -/
theorem Silent.ends_reported {x : Step (StateM (World σ)) α}
    {next : α → Step (StateM (World σ)) Exit} {w : World σ} {o : Order} (hx : Silent G x)
    (hnext : ∀ a w', Ends Unreported o.Matches w' (runIn (next a) w')) :
    Ends Unreported o.Matches w (runIn (reported true x next) w) := by
  unfold reported
  refine hx.attempt.ends fun result w' _ => ?_
  cases result with
  | ok a => exact hnext a w'
  | error f => exact ends_refuse o f w'

/-! ## The commands -/

theorem ends_statusCommand (e : Endpoint) (w : World σ) :
    Ends Unreported (Order.showStatus true).Matches w (runIn (statusCommand e true) w) := by
  refine (silent_perform e Job.status).ends_reported fun s w' => ?_
  have hexit : (Order.showStatus true).Matches success (statusReport s) := rfl
  exact ends_echo hexit true w'

theorem ends_listTakes (e : Endpoint) (w : World σ) :
    Ends Unreported (Order.listTakes true).Matches w (runIn (Command.listTakes e true) w) := by
  refine (silent_perform e Registry.list).ends_reported fun takes w' => ?_
  have hexit : (Order.listTakes true).Matches success (.arr (takes.map Take.toJson)) := rfl
  exact ends_echo hexit true w'

/-! ## The import -/

section Import

variable {o : ImportOptions}

theorem ends_showBatch (path : String) (items : List Item) (w : World σ) :
    Ends F (Order.importClips o).Matches w (runIn (showBatch path true items) w) :=
  ends_echo (exitBy_of_not_fails (failsBy_batch o path items)).symm true w

theorem ends_showOutcome (path : String) (s : Session) (w : World σ) :
    Ends F (Order.importClips o).Matches w (runIn (showOutcome path true s) w) :=
  ends_echo (exitBy_outcome o path s.items).symm true w

theorem ends_submitAndFollow {r : Running} (hshows : r.control.showsPercent = false) (limit : Nat)
    (e : Endpoint) (path : String) (w : World σ) :
    Ends (fun _ => True) (fun p => (Order.importClips o).Matches p.1) w
      (runIn (submitAndFollow limit e r path true) w) := by
  unfold submitAndFollow
  refine (silent_feed hshows e limit _).ends fun r₁ w₁ _ => ?_
  -- Where no progress is shown the terminal has no label to read.
  have hlabel : (readAccepted r₁ true : Step (StateM (World σ)) Unit) = pure () := rfl
  rw [hlabel, pure_bind]
  refine (silent_except fun _ _ => trivial).ends fun _ w₂ _ => ?_
  exact (ends_showOutcome path _ w₂).map fun _ _ h => h

/-- An import that goes on after its list was edited has shown nothing. -/
theorem ends_prepare {r : Running} (hjson : o.json = true)
    (hshows : r.control.showsPercent = false) (limit : Nat) (e : Endpoint) (path : String)
    (w : World σ) :
    Ends (fun _ => True) (fun p => (Order.importClips o).Matches p.1) w
      (runIn (prepare r path o >>= finish limit e path o) w) := by
  unfold prepare
  rw [hjson, bind_assoc]
  refine (silent_except fun _ _ => trivial).ends fun s w₁ _ => ?_
  dsimp only
  split
  · rw [bind_assoc]
    exact (ends_showBatch path s.items w₁).map fun _ _ h => h
  rw [bind_assoc]
  refine (silent_except fun _ _ => trivial).ends fun submits w₂ _ => ?_
  split
  · -- With nothing checked the list is empty, and no item can be in an error.
    have hexit : (Order.importClips o).Matches success (importReport path []) := rfl
    rw [if_pos rfl]
    exact (ends_echo hexit false w₂).map (g := fun exit => (exit, r.control.setSession s))
      fun _ _ h => h
  · have hsent := ends_submitAndFollow (o := o)
      (r := { r with control := r.control.setSession s }) hshows limit e path w₂
    rw [← hjson] at hsent
    exact hsent

theorem ends_importPath {r : Running} (hjson : o.json = true)
    (hshows : r.control.showsPercent = false) (limit : Nat) (e : Endpoint) (path : String)
    (w : World σ) :
    Ends (fun _ => True) (fun p => (Order.importClips o).Matches p.1) w
      (runIn (importPath limit e r path o) w) := by
  rw [importPath_eq]
  refine (silent_feed hshows e limit _).ends fun r₁ w₁ hfeed => ?_
  exact ends_prepare hjson (showsPercent_feed hshows hfeed) limit e path w₁

theorem ends_importSession [Json.Nesting] (hjson : o.json = true) (limit : Nat)
    (settings : Settings) (w : World σ) :
    Ends Unreported (fun p => (Order.importClips o).Matches p.1) w
      (runIn (importSession limit settings o) w) := by
  unfold importSession
  rw [hjson]
  refine silent_loadMemory.ends fun memory w₁ _ => ?_
  refine (silent_except (failsAs_sessionOf _)).ends fun s w₂ _ => ?_
  dsimp only
  split
  · exact (ends_fail (.importClips o) _ w₂).map fun _ _ h => h
  let first : Running := { control := { session := placeIn o s, showsPercent := !true }, memory }
  have hends := ends_importPath (r := first) hjson rfl limit (endpointOf settings)
    (choosePath o (placeIn o s) memory) w₂
  rw [runIn_attempt]
  generalize runIn (importPath limit _ first _ o) w₂ = ran at hends
  -- An import that failed has shown nothing so far; what it reports now is the error.
  cases hends with
  | @fails f w' _ hview =>
      have hrefused := ends_refuse (.importClips o) f w'
      exact (hrefused.map (g := fun exit => (exit, none)) fun _ _ h => h).of_view hview
  | reports ha hview => exact .reports ha hview

end Import

/-! ## Orders -/

theorem Order.ends [Json.Nesting] {o : Order} (hjson : o.inJson = true) (limit : Nat) (s : Settings)
    (w : World σ) : Ends Unreported o.Matches w (runIn (o.perform limit s) w) := by
  cases o with
  | importClips o => exact (ends_importSession hjson limit s w).map fun _ _ h => h
  | showStatus json =>
      cases json with
      | true => exact ends_statusCommand _ w
      | false => cases hjson
  | listTakes json =>
      cases json with
      | true => exact ends_listTakes _ w
      | false => cases hjson
  | _ => cases hjson

/-- An order that asks for JSON writes one document that goes with its exit code, or it fails in a
way that is not reported and shows nothing. -/
theorem Order.ends_run [Json.Nesting] {o : Order} (hjson : o.inJson = true) (limit : Nat)
    (w : World σ) : Ends Unreported o.Matches w (runIn (o.run limit) w) :=
  silent_loadSettings.ends fun s w' _ => o.ends hjson limit s w'

/-- An order that asks for JSON comes to an end, unless it is an import that sends more and more
requests. If no failure arises in it but those that are reported, it writes one document and shows
nothing else, however it ends. Its exit code is that of a failure if the document tells an error or,
for an import, lists an item in an error; otherwise it is that of success. -/
theorem reports_once [Json.Nesting] {o : Order} (hjson : o.inJson = true) (w : World σ) :
    o.IsImport ∧ AsksOn (fun limit => o.run limit) w ∨
      ∃ ran, ComesTo (fun limit => o.run limit) w ran ∧ (Excused ran.1 →
        ∃ doc indented, ran.1 = .ok (o.exitBy doc) ∧
          ran.2.output = w.output ++ (doc.write ⟨indented, true⟩ ++ "\n") ∧
          shown ran.2 = shown w) := by
  refine (o.comesTo_run w).imp id fun ⟨ran, hcomes⟩ => ⟨ran, hcomes, fun hexcused => ?_⟩
  obtain ⟨limit, hrun⟩ := hcomes.exists_run
  have hends := Order.ends_run hjson limit w
  rw [hrun] at hends
  cases hends with
  | @fails f w' hf _ =>
      have hreported : f.kind.isReported = true := hexcused f rfl
      exact absurd hreported (Bool.eq_false_iff.mp hf)
  | @reports exit doc indented w' hexit hview =>
      subst hexit
      exact ⟨doc, indented, rfl, congrArg Prod.fst hview, congrArg Prod.snd hview⟩

/-- A status that tells that the clip could not be imported. -/
def brokenStatus : Prepared :=
  prepared (.obj [("results", .arr [.obj [("clip", .obj [("name", .str "a")]),
    ("error", .str "disk full")]])])

/-- An import at the server of one clip, which cannot be imported. -/
def brokenRun : Except Failure Exit × World Script :=
  runIn ((Order.importClips (importFrom "/a")).run 40) (oneClipWorld [idleStatus, brokenStatus])

theorem reports_once_broken_clip :
    ComesTo (fun limit => (Order.importClips (importFrom "/a")).run limit)
        (oneClipWorld [idleStatus, brokenStatus]) brokenRun ∧
      brokenRun.1 = .ok failed ∧ shown brokenRun.2 = [] ∧
      ∃ doc indented, (Order.importClips (importFrom "/a")).failsBy doc = true ∧
        brokenRun.2.output = doc.write ⟨indented, true⟩ ++ "\n" := by
  have hcode : brokenRun.1.toOption = some failed := by decide +kernel
  have hfailed : brokenRun.1 = .ok failed := eq_ok_of_toOption hcode
  -- The run was not cut short, so it is the same with every larger limit.
  have hcomes : ComesTo (fun limit => (Order.importClips (importFrom "/a")).run limit)
      (oneClipWorld [idleStatus, brokenStatus]) brokenRun := by
    refine (Order.stable_run _).comesTo (n := 40) fun hstopped => ?_
    cases hfailed.symm.trans hstopped
  rcases reports_once (o := .importClips (importFrom "/a")) rfl
    (oneClipWorld [idleStatus, brokenStatus]) with ⟨-, hasks⟩ | ⟨ran, hran, hreports⟩
  · exact absurd hasks hcomes.not_asksOn
  cases hran.unique hcomes
  have hexcused : Excused brokenRun.1 := by
    rw [hfailed]
    exact failsAs_ok _
  obtain ⟨doc, indented, hexit, houtput, hshown⟩ := hreports hexcused
  refine ⟨hcomes, hfailed, hshown, doc, indented, ?_, houtput.trans String.empty_append⟩
  have hexit' : Except.ok failed = Except.ok ((Order.importClips (importFrom "/a")).exitBy doc) :=
    hfailed.symm.trans hexit
  by_contra hnot
  rw [exitBy_of_not_fails (Bool.eq_false_iff.mpr hnot)] at hexit'
  cases hexit'

end Command

end CardImport
