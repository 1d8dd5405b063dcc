import CardImport.Proofs.Command.ImportEnding
import CardImport.Proofs.Command.JobAndTakes
import CardImport.Proofs.Command.Orders
import CardImport.Proofs.Json.Nesting
import CardImport.Proofs.Json.Reread
import CardImport.Proofs.Settings.Valid

/-!
# The outcome of an order

An order ends well if it can be carried out with the settings and the files at hand, if every reply
of the server is one that its commands can deal with, and if the terminal finds no fault in the
styles of what is shown. The commands cannot deal with all replies: a list of takes that is no
array, or an infinite number of bytes, ends a command with a failure that nobody reports. No order
but an import may go on for ever, asking the server again and again.
-/

namespace CardImport

/-- A world in which nothing was asked, written or done so far. -/
def World.fresh {σ : Type} (w : World σ) : World σ :=
  { w with output := "", happened := [], replies := [], styled := [] }

namespace Command

variable {σ : Type}

/-! ## The import -/

/-- What an import needs apart from the server: the memory and the session that the settings
describe, and a scene that the tables can show. -/
structure Ready [Json.Nesting] (o : ImportOptions) (s : Settings) (w : World σ) : Prop where
  remembers : ∃ memory,
    (Memory.load (Memory.filePath w.home) w.memoryFile).outcome.1 = .ok memory
  describes : ∃ session, sessionOf s.importing = .ok session
  scene : o.json = false → (o.sceneOr s.importing.defaultScene).IsCell

theorem exists_real {x : Except NumberError Binary64} {y : Number}
    (h : (x.map Number.real).mapError Failure.number = .ok y) : ∃ z, y = .real z := by
  obtain ⟨z, -, rfl⟩ := exists_of_map_eq_ok (eq_ok_of_mapError h)
  exact ⟨z, rfl⟩

/-- Settings that were checked describe a session that is patient. -/
theorem patient_of_sessionOf {s : ImportSettings} (hs : s.Checked) {session : Session}
    (h : sessionOf s = .ok session) : session.Patient := by
  unfold sessionOf at h
  obtain ⟨interval, hinterval, h⟩ := exists_of_bind_eq_ok h
  obtain ⟨backoff, hbackoff, h⟩ := exists_of_bind_eq_ok h
  cases h
  obtain ⟨n, hcounted, hfit⟩ := hs.counts
  exact ⟨exists_real hinterval, exists_real hbackoff, n.retries, hcounted.retries, hfit.retries.2⟩

theorem patient_began {s : Session} (h : s.Patient) (o : ImportOptions) :
    (began o s).session.Patient := by
  unfold began placeIn
  cases o.subdirectory with
  | none => exact h
  | some d => exact ⟨h.interval, h.backoff, h.retries⟩

/-- What comes of the import of a path: the session that it ends with, or a refusal. -/
def concluded (json : Bool) :
    Except Failure (Exit × Control) → Step (StateM (World σ)) (Exit × Option Control)
  | .ok (exit, control) => pure (exit, some control)
  | .error f => refuse json f >>= fun exit => pure (exit, none)

def importChosen (limit : Nat) (s : Settings) (o : ImportOptions) (memory : Memory)
    (session : Session) : Step (StateM (World σ)) (Exit × Option Control) :=
  if choosePath o (placeIn o session) memory = "" then
    fail o.json "No path given and no previous import path remembered" >>= fun exit =>
      pure (exit, none)
  else
    Network.attempt (importPath limit (endpointOf s) { control := began o session, memory }
      (choosePath o (placeIn o session) memory) o) >>= concluded o.json

theorem importSession_eq [Json.Nesting] (limit : Nat) (s : Settings) (o : ImportOptions) :
    (importSession limit s o : Step (StateM (World σ)) (Exit × Option Control)) =
      (if !o.json then emit (.progressTask "Copying" 100) else pure ()) >>= fun _ =>
        loadMemory >>= fun memory => liftM (sessionOf s.importing) >>= fun session =>
          importChosen limit s o memory session := by
  have hchosen : ∀ (memory : Memory) (session : Session),
      importChosen limit s o memory session = (if choosePath o (placeIn o session) memory = "" then
        fail o.json "No path given and no previous import path remembered" >>= fun exit =>
          pure (exit, none)
      else do
        match ← Network.attempt (importPath limit (endpointOf s)
          { control := began o session, memory } (choosePath o (placeIn o session) memory) o) with
        | .ok (exit, control) => return (exit, some control)
        | .error f => return (← refuse o.json f, none) :
          Step (StateM (World σ)) (Exit × Option Control)) := by
    intro memory session
    unfold importChosen
    refine congrArg _ (congrArg _ (funext fun ended => ?_))
    cases ended <;> rfl
  simp only [hchosen]
  unfold importSession
  by_cases hjson : (!o.json) = true
  · rw [if_pos hjson, if_pos hjson]
    rfl
  · rw [if_neg hjson, if_neg hjson]
    rfl

theorem quiet_concluded (json : Bool) (ended : Except Failure (Exit × Control)) :
    Quiet (concluded json ended : Step (StateM (World σ)) (Exit × Option Control)) := by
  cases ended with
  | ok outcome => exact quiet_pure _
  | error f => exact (quiet_refuse json f).bind fun _ => quiet_pure _

theorem stable_importChosen (s : Settings) (o : ImportOptions) (memory : Memory)
    (session : Session) :
    Stable (fun limit => importChosen limit s o memory session :
      Nat → Step (StateM (World σ)) (Exit × Option Control)) := by
  intro n k w hle h
  unfold importChosen at h ⊢
  by_cases hpath : choosePath o (placeIn o session) memory = ""
  · simp only [if_pos hpath]
  simp only [if_neg hpath, runIn_attempt] at h ⊢
  rw [stable_importPath _ _ n k w hle fun hstopped => h ?_]
  -- That the limit was reached is not reported, so the command would fail with that.
  rw [hstopped]
  rfl

theorem stable_importCommand [Json.Nesting] (s : Settings) (o : ImportOptions) :
    Stable (fun limit => importCommand limit s o : Nat → Step (StateM (World σ)) Exit) := by
  have hsession : Stable (fun limit => importSession limit s o :
      Nat → Step (StateM (World σ)) (Exit × Option Control)) := by
    simp only [importSession_eq]
    exact (stable_const _).bind fun _ => (stable_const _).bind fun memory =>
      (stable_const _).bind fun session => stable_importChosen s o memory session
  exact hsession.bind fun _ => stable_const _

/-- What is handed on beside an exit code makes no difference to how a command ends. -/
theorem closes_pair {α : Type} {x : Step (StateM (World σ)) Exit} {a : α} {w : World σ}
    (hx : Closes (runIn x w)) :
    Closes ((runIn (x >>= fun exit => pure (exit, a)) w).1.map Prod.fst,
      (runIn (x >>= fun exit => pure (exit, a)) w).2) := by
  rw [runIn_bind]
  rcases hrun : runIn x w with ⟨f | exit, w'⟩ <;> rw [hrun] at hx <;> exact hx

theorem Arrives.concluded {ended : Except Failure (Exit × Control)} {w : World σ}
    (h : Arrives (ended, w)) (json : Bool) :
    Closes ((runIn (concluded json ended) w).1.map Prod.fst,
      (runIn (concluded json ended) w).2) := by
  cases ended with
  | ok outcome => exact Or.inl h.of_ok
  | error f =>
      refine closes_pair ?_
      rcases h with ⟨⟨message, hmessage⟩, hfaulty⟩ | ⟨hexcused, -⟩
      · -- A text that cannot be read is no failure that is reported.
        cases hmessage
        exact Or.inr ⟨⟨message, rfl⟩, hfaulty⟩
      · exact closes_refuse (hexcused f rfl) json w

/-- The import of the path that is chosen ends, unless it sends more and more requests. If all its
replies fit it ends well. -/
theorem finishes_importChosen {s : Settings} {o : ImportOptions} {session : Session}
    (memory : Memory) (hsession : sessionOf s.importing = .ok session) (w : World σ) :
    Finishes (fun ran => s.importing.Checked →
      (o.json = false → (o.sceneOr s.importing.defaultScene).IsCell) →
      AllFit (endpointOf s) o ran.2.replies → Closes (ran.1.map Prod.fst, ran.2))
      (fun limit => importChosen limit s o memory session) w := by
  unfold importChosen
  by_cases hpath : choosePath o (placeIn o session) memory = ""
  · simp only [if_pos hpath]
    exact finishes_const fun _ _ _ => closes_pair (closes_fail o.json _ w)
  simp only [if_neg hpath]
  have hended := (finishes_importPath (e := endpointOf s) (o := o)
    { control := began o session, memory } (choosePath o (placeIn o session) memory) w).mono
    (Q := fun ran => s.importing.Checked →
      (o.json = false → (o.sceneOr s.importing.defaultScene).IsCell) →
      AllFit (endpointOf s) o ran.2.replies → Arrives ran) ?_
  · refine hended.attempt.bind (fun _ ended => (quiet_concluded o.json ended).grows) ?_ ?_
    · rintro f w' ⟨result, ⟨⟩, -⟩
    · rintro ended w' ⟨_, ⟨⟩, harrives⟩
      refine finishes_const fun hchecked hscene hfit => ?_
      rw [replies_of_held (quiet_concluded o.json ended w')] at hfit
      exact (harrives hchecked hscene hfit).concluded o.json
  · rintro ran hcomes - hchecked hscene hfit
    have hpatient := patient_began (patient_of_sessionOf hchecked hsession) o
    refine arrives_importPath rfl rfl hpath hpatient (fun hjson => ?_) hcomes hfit
    show (o.sceneOr (placeIn o session).scene).IsCell
    rw [(placeIn_eq o hsession).1]
    exact hscene hjson

theorem runIn_progressTask_ok (json : Bool) (w : World σ) :
    ∃ w', unseen w' = unseen w ∧
      runIn (if !json then emit (.progressTask "Copying" 100) else pure ()) w = (.ok (), w') := by
  cases json with
  | true => exact ⟨w, rfl, rfl⟩
  | false => exact ⟨w.record (.progressTask "Copying" 100), rfl, rfl⟩

theorem finishes_importSession [Json.Nesting] (s : Settings) (o : ImportOptions) (w : World σ) :
    Finishes (fun ran => s.importing.Checked → Ready o s w →
      AllFit (endpointOf s) o ran.2.replies → Closes (ran.1.map Prod.fst, ran.2))
      (fun limit => importSession limit s o) w := by
  simp only [importSession_eq]
  obtain ⟨w₁, hunseen, hbegins⟩ := runIn_progressTask_ok o.json w
  refine .after (fun f w' hrun => ?_) fun _ w' hrun => ?_ <;> cases hbegins.symm.trans hrun
  -- Without the memory or a session that the settings describe the import is not ready.
  have hmemory : (runIn loadMemory w₁).1 =
      (Memory.load (Memory.filePath w.home) w.memoryFile).outcome.1 := by
    refine (runIn_loadMemory w₁).1.trans ?_
    rw [eq_of_unseen hunseen]
  refine .after (fun f w₂ hrun _ hready => ?_) fun memory w₂ _ => ?_
  · obtain ⟨memory, hremembers⟩ := hready.remembers
    rw [hrun] at hmemory
    cases hmemory.trans hremembers
  refine .after (fun f w₃ hrun _ hready => ?_) fun session w₃ hrun => ?_
  · obtain ⟨session, hdescribes⟩ := hready.describes
    rw [runIn_except, hdescribes] at hrun
    cases hrun
  exact (finishes_importChosen memory (runIn_except_ok hrun).1 w₃).mono
    fun ran _ hcloses hchecked hready => hcloses hchecked hready.scene

/-- An import ends, unless it sends more and more requests. If it is ready and all its replies fit
it closes. -/
theorem finishes_importCommand [Json.Nesting] (s : Settings) (o : ImportOptions) (w : World σ) :
    Finishes (fun ran => s.importing.Checked → Ready o s w →
      AllFit (endpointOf s) o ran.2.replies → Closes ran)
      (fun limit => importCommand limit s o) w :=
  (finishes_importSession s o w).bind (fun _ _ => (quiet_pure _).grows)
    (fun _ _ hcloses => hcloses) fun _ _ hcloses => finishes_const hcloses

/-! ## Questions -/

theorem runIn_confirm_succ (question : String) (limit : Nat) (w : World σ) :
    runIn (confirm question (limit + 1)) w =
      match (w.ask question).1 with
      | none => (.ok false, (w.ask question).2)
      | some line => match yesOrNo? line with
        | some answer => (.ok answer, (w.ask question).2)
        | none => runIn (echo "Error: invalid input" >>= fun _ => confirm question limit)
            (w.ask question).2 := by
  have hasked : runIn (ExceptT.lift (Console.ask (m := StateM (World σ)) question)) w =
      (.ok (w.ask question).1, (w.ask question).2) := rfl
  refine (runIn_bind_of_ok hasked).trans ?_
  cases (w.ask question).1 with
  | none => rfl
  | some line =>
      dsimp only
      cases yesOrNo? line <;> rfl

theorem told_ask (question : String) (w : World σ) : Told (w.ask question).2 := by
  unfold World.ask
  split
  · exact told_of_output rfl (by decide)
  · exact told_of_output rfl (by decide)

/-- A question is shown until a line answers it, or until there is no line left. -/
theorem comesTo_confirm (question : String) (w : World σ) :
    ∃ answer w', ComesTo (confirm question) w (.ok answer, w') ∧ Told w' := by
  induction hlines : w.input generalizing w with
  | nil =>
      have hask : (w.ask question).1 = none := by simp only [World.ask, hlines]
      refine ⟨false, (w.ask question).2, ⟨1, fun limit hlimit => ?_⟩, told_ask question w⟩
      rw [← Nat.sub_add_cancel hlimit, runIn_confirm_succ, hask]
  | cons line rest ih =>
      have hask : (w.ask question).1 = some line := by simp only [World.ask, hlines]
      cases hanswer : yesOrNo? line with
      | some answer =>
          refine ⟨answer, (w.ask question).2, ⟨1, fun limit hlimit => ?_⟩, told_ask question w⟩
          rw [← Nat.sub_add_cancel hlimit, runIn_confirm_succ, hask]
          simp only [hanswer]
      | none =>
          -- A line that is neither yes nor no is asked for again.
          let asked : World σ := { (w.ask question).2 with
            output := (w.ask question).2.output ++ ("Error: invalid input" ++ "
") }
          have hrest : asked.input = rest := by simp only [asked, World.ask, hlines]
          obtain ⟨answer, w', ⟨enough, hcomes⟩, htold⟩ := ih asked hrest
          refine ⟨answer, w', ⟨enough + 1, fun limit hlimit => ?_⟩, htold⟩
          rw [← Nat.sub_add_cancel (Nat.le_of_add_left_le hlimit), runIn_confirm_succ, hask]
          simp only [hanswer]
          exact hcomes _ (Nat.le_sub_of_add_le hlimit)

/-! ## Orders -/

/-- What an order needs apart from the server. -/
def Order.Ready [Json.Nesting] (s : Settings) (w : World σ) : Order → Prop
  | importClips o => Command.Ready o s w
  | _ => True

/-- Whether a reply is one that the command of an order can deal with. -/
def Order.Fits (e : Endpoint) : Order → Request → Reply → Prop
  | importClips o, request, answer => ∀ q : Query, request = q.request e → Command.Fits e o q answer
  | showStatus json, _, answer => TellsStatus e json answer
  | listTakes json, _, answer => Suits (IsTakeList json) answer
  | showTake .., _, answer => Suits IsTake answer
  | editTake .., request, answer => Suits (fun data => request.method = "GET" → IsTake data) answer
  | deleteTake .., _, answer => Suits (fun _ => True) answer

theorem stable_confirm (question : String) :
    Stable (confirm question : Nat → Step (StateM (World σ)) Bool) := by
  intro n k w hle h
  induction n generalizing k w with
  | zero => exact absurd rfl h
  | succ n ih =>
      obtain ⟨k, rfl⟩ : ∃ j, k = j + 1 := ⟨k - 1, (Nat.sub_add_cancel (Nat.one_le_of_lt hle)).symm⟩
      rw [runIn_confirm_succ] at h ⊢
      rw [runIn_confirm_succ]
      cases hask : (w.ask question).1 with
      | none => rfl
      | some line =>
          rw [hask] at h
          dsimp only at h ⊢
          cases hanswer : yesOrNo? line with
          | some answer => rfl
          | none =>
              rw [hanswer] at h
              exact ih k _ (Nat.le_of_succ_le_succ hle) h

/-- An order that was not cut short comes to the same with every larger limit. -/
theorem Order.stable_run [Json.Nesting] (o : Order) :
    Stable (fun limit => o.run limit : Nat → Step (StateM (World σ)) Exit) := by
  refine (stable_const loadSettings).bind fun s => ?_
  cases o with
  | importClips o => exact stable_importCommand s o
  | deleteTake agreed scene num =>
      cases agreed with
      | true => exact stable_const _
      | false => exact (stable_confirm deleteQuestion).bind fun _ => stable_const _
  | _ => exact stable_const _

/-- An order comes to an end, unless it is an import that sends more and more requests. If it is
ready and all its replies fit it closes. -/
theorem Order.closes [Json.Nesting] (o : Order) (s : Settings) (w : World σ) :
    o.IsImport ∧ AsksOn (fun limit => o.perform limit s) w ∨
      ∃ ran, ComesTo (fun limit => o.perform limit s) w ran ∧ (s.importing.Checked → o.Ready s w →
        (∀ p ∈ ran.2.replies, o.Fits (endpointOf s) p.1 p.2) → Closes ran) := by
  cases o with
  | importClips options =>
      rcases finishes_importCommand s options w with ⟨ran, hcomes, hcloses⟩ | hasks
      · exact Or.inr ⟨ran, hcomes, hcloses⟩
      · exact Or.inl ⟨⟨options, rfl⟩, hasks⟩
  | showStatus json =>
      exact Or.inr ⟨_, comesTo_const _ w, fun _ _ hfits => closes_statusCommand hfits⟩
  | listTakes json =>
      exact Or.inr ⟨_, comesTo_const _ w, fun _ _ hfits => closes_listTakes hfits⟩
  | showTake scene num =>
      obtain ⟨path, hpath⟩ := exists_path scene num
      exact Or.inr ⟨_, comesTo_const _ w, fun _ _ hfits => closes_showTake hpath hfits⟩
  | editTake scene num changes =>
      obtain ⟨path, hpath⟩ := exists_path scene num
      exact Or.inr ⟨_, comesTo_const _ w, fun _ _ hfits => closes_editTake hpath hfits⟩
  | deleteTake agreed scene num =>
      obtain ⟨path, hpath⟩ := exists_path scene num
      cases agreed with
      | true =>
          exact Or.inr ⟨_, comesTo_const _ w, fun _ _ hfits => closes_deleteTake hpath hfits⟩
      | false =>
          -- The order was not agreed to, so the user is asked; a refusal is told.
          obtain ⟨answer, w', hcomes, htold⟩ := comesTo_confirm deleteQuestion w
          refine Or.inr ⟨_, hcomes.bind (f := fun _ answer => if !answer then pure failed
            else Command.deleteTake (endpointOf s) (TakeId.ofText scene num))
              (comesTo_const _ w'), fun _ _ hfits => ?_⟩
          cases answer with
          | true => exact closes_deleteTake hpath hfits
          | false => exact Or.inl (Or.inr ⟨rfl, htold⟩)

theorem runIn_loadSettings [Json.Nesting] (w : World σ) :
    (runIn loadSettings w).1 = (Settings.load (Settings.filePath w.home) w.settingsFile).outcome.1 ∧
      unseen (runIn loadSettings w).2 = unseen w :=
  runIn_readHome .settings (fun home => Settings.load (Settings.filePath home)) w

theorem Order.run_of_settings [Json.Nesting] (o : Order) {s : Settings} {w w₁ : World σ}
    (hload : runIn loadSettings w = (.ok s, w₁)) :
    o.IsImport ∧ AsksOn (fun limit => o.run limit) w ∨
      ∃ ran, ComesTo (fun limit => o.run limit) w ran ∧ (s.importing.Checked → o.Ready s w₁ →
        (∀ p ∈ ran.2.replies, o.Fits (endpointOf s) p.1 p.2) → Closes ran) := by
  have hloads : ComesTo (fun _ => loadSettings) w (.ok s, w₁) := ⟨0, fun _ _ => hload⟩
  rcases o.closes s w₁ with ⟨himport, hasks⟩ | ⟨ran, hcomes, hcloses⟩
  · exact Or.inl ⟨himport, .after hloads hasks⟩
  · exact Or.inr ⟨ran, hloads.bind hcomes, hcloses⟩

/-- An order comes to an end, unless it is an import that sends more and more requests. -/
theorem Order.comesTo_run [Json.Nesting] (o : Order) (w : World σ) :
    o.IsImport ∧ AsksOn (fun limit => o.run limit) w ∨
      ∃ ran, ComesTo (fun limit => o.run limit) w ran := by
  rcases hload : runIn loadSettings w with ⟨f | s, w₁⟩
  · have hloads : ComesTo (fun _ => loadSettings) w (.error f, w₁) := ⟨0, fun _ _ => hload⟩
    exact Or.inr ⟨_, hloads.bind_error⟩
  · exact (o.run_of_settings hload).imp id fun ⟨ran, hcomes, _⟩ => ⟨ran, hcomes⟩

/-- An order whose settings can be read, and that is ready with them, comes to an end, unless it is
an import that sends more and more requests. It ends with the exit code of success, or tells that it
failed and ends with that of failure, if every reply that the server gives to it fits and the
terminal finds no fault in the styles of what it shows. -/
theorem endsWell_of_fits [Json.Nesting] {o : Order} {s : Settings} {w : World σ}
    (hsettings : (Settings.load (Settings.filePath w.home) w.settingsFile).outcome.1 = .ok s)
    (hready : o.Ready s w) :
    o.IsImport ∧ AsksOn (fun limit => o.run limit) w.fresh ∨
      ∃ ran, ComesTo (fun limit => o.run limit) w.fresh ran ∧
        ((∀ p ∈ ran.2.replies, o.Fits (endpointOf s) p.1 p.2) → ¬Faulty ran.2 → EndsWell ran) := by
  obtain ⟨hloaded, hkept⟩ := runIn_loadSettings w.fresh
  have hload : runIn loadSettings w.fresh = (.ok s, (runIn loadSettings w.fresh).2) :=
    Prod.ext (hloaded.trans hsettings) rfl
  have hready' : o.Ready s (runIn loadSettings w.fresh).2 := by
    rw [eq_of_unseen hkept]
    cases o with
    | importClips o => exact ⟨hready.remembers, hready.describes, hready.scene⟩
    | _ => trivial
  have hchecked := (Settings.checked_of_load hsettings).importing
  refine (o.run_of_settings hload).imp id fun ⟨ran, hcomes, hcloses⟩ => ?_
  refine ⟨ran, hcomes, fun hfits hstyles => ?_⟩
  exact (hcloses hchecked hready' hfits).resolve_right fun hstops => hstyles hstops.2

/-! ## A server with the same answer to everything -/

/-- The libraries of this program, with a terminal that finds a fault in a closing mark at the
beginning of a text. -/
def strictLibraries : Libraries where
  refusal? := Http.refusal?
  fault? text := if text.startsWith "[/" then some "nothing to close" else none

/-- A world whose server gives the same answer to every request. -/
def answering (value : Json) : World Unit where
  serve _ _ := (.answer 200 (.ofBytes (value.write .line).toUTF8), ())
  server := ()
  libraries := strictLibraries
  home := "/h"

def oneTake (clip : String) : Json :=
  .arr [.obj [("id", .obj [("scene", .str "a"), ("num", .str "1")]), ("clipName", .str clip)]]

theorem readable_oneTake : (oneTake "c").Readable Json.Nesting.limit := by
  apply Json.Readable.arr
  rw [List.forall_mem_singleton]
  apply Json.Readable.obj
  · decide
  rw [List.forall_mem_cons, List.forall_mem_singleton]
  constructor
  · apply Json.Readable.obj
    · decide
    rw [List.forall_mem_cons, List.forall_mem_singleton]
    exact ⟨.str _, .str _⟩
  · exact .str _

theorem suits_oneTake : Suits (IsTakeList false)
    (.answer 200 (.ofBytes ((oneTake "c").write .line).toUTF8)) := by
  have hdata : (Body.ofBytes ((oneTake "c").write .line).toUTF8).data = .ok (oneTake "c") :=
    Body.data_ofBytes (by decide +kernel)
      (Json.ofBytes_write readable_oneTake (by decide +kernel))
  refine ⟨oneTake "c", hdata, fun _ _ => ⟨_, rfl, fun x hx => ?_⟩⟩
  cases List.mem_singleton.mp hx
  refine ⟨⟨_, _, rfl, rfl, rfl, rfl⟩, fun _ t ht => ?_⟩
  cases ht
  exact ⟨.str "1", .str "c"⟩

/-- A take that can be shown is listed, and the terminal reads styles in what is shown. -/
theorem endsWell_of_fits_listTakes :
    ∃ ran, ComesTo (fun limit => (Order.listTakes false).run limit) (answering (oneTake "c")).fresh
        ran ∧ EndsWell ran ∧ ran.2.styled ≠ [] := by
  let w := (answering (oneTake "c")).fresh
  have hcomes := comesTo_const ((Order.listTakes false).run 0) w
  rcases endsWell_of_fits (o := .listTakes false) (s := {}) (w := answering (oneTake "c")) rfl
    trivial with ⟨⟨options, himport⟩, -⟩ | ⟨ran, hran, hends⟩
  · cases himport
  cases hran.unique hcomes
  refine ⟨_, hcomes, hends ?_ ?_, by decide +kernel⟩
  · intro p hp
    obtain ⟨hloaded, hkept⟩ := runIn_loadSettings w
    have hload : runIn loadSettings w = (.ok {}, (runIn loadSettings w).2) := Prod.ext hloaded rfl
    rw [Order.run, runIn_bind_of_ok hload, Order.perform, replies_listTakes,
      replies_of_unseen hkept, reply_of_unseen hkept] at hp
    cases List.mem_singleton.mp hp
    exact suits_oneTake
  · rintro ⟨text, htext, hfault⟩
    have hclear : (runIn ((Order.listTakes false).run 0) w).2.styled.all (fun text =>
        ((runIn ((Order.listTakes false).run 0) w).2.libraries.fault? text).isNone) = true := by
      decide +kernel
    have hnone := List.all_eq_true.mp hclear text htext
    rw [Option.isNone_iff_eq_none] at hnone
    rw [hnone] at hfault
    cases hfault

/-- A mark that closes nothing, in the name of a clip, stops the list of takes. -/
example : (runIn ((Order.listTakes false).run 0) (answering (oneTake "[/x]")).fresh).1.toOption =
    none := by decide +kernel

/-- A number in the place of a list of takes ends the command with a failure that it does not
report. -/
theorem not_endsWell_of_number : ∃ ran,
    ComesTo (fun limit => (Order.listTakes false).run limit) (answering (.int 5)).fresh ran ∧
      ¬EndsWell ran := by
  refine ⟨_, comesTo_const ((Order.listTakes false).run 0) _, fun hends => ?_⟩
  have hfailed : (runIn ((Order.listTakes false).run 0) (answering (.int 5)).fresh).1.toOption =
      none := by
    decide +kernel
  rcases hends with hcode | ⟨hcode, -⟩
  · rw [hcode] at hfailed
    cases hfailed
  · rw [hcode] at hfailed
    cases hfailed

end Command

end CardImport
