import CardImport.Http.Body
import CardImport.Proofs.Command.Decision

/-!
# What success of the import command means

The exit code of an import is worked out from the states of the items when the poll has ended. It
is no promise about clips that no status told of: what it says is that no item ended in an error,
and that all clips a status told of at last are imported.
-/

namespace CardImport.Command

open Control

variable {σ : Type}

/-! ## Runs of the command -/

/-- The end of a submission of `s` that was answered by `answer` and then followed by `later`: it
was accepted, all items heard all answers since, and the exit code tells whether one of them is in
an error. -/
structure Ended (e : Endpoint) (s : Session) (answer : Reply) (later : List (Request × Reply))
    (c : Control) (exit : Exit) : Prop where
  accepted : (Job.acceptance (received ((batchQuery s).request e) answer)).outcome.1 = .ok ()
  looks : ∀ p ∈ later, p.1 = Query.status.request e
  base : c.session.base = s.base
  heard : Items.Distinct s.items → c.session.items = s.items.map (hearAll later)
  exit : exit = if (c.session.items.filter (·.state = .error)).isEmpty then success else failed

/-- What was sent in a run of the command after `before`: requests that read, and at most one batch
whose job was followed to its end. -/
def Sent (e : Endpoint) (before : List (Request × Reply)) (c : Control) (exit : Exit)
    (replies : List (Request × Reply)) : Prop :=
  ∃ gets, (∀ p ∈ gets, p.1.method = "GET") ∧ (replies = gets ++ before ∨
    ∃ s answer later, Ended e s answer later c exit ∧
      replies = later ++ ((batchQuery s).request e, answer) :: (gets ++ before))

theorem submitting_feed (limit : Nat) {e : Endpoint} {r : Running} {w : World σ}
    (htasks : r.control.tasks = [.load (.done (.ok ()))]) (hpoller : r.control.poller = none)
    (hindexed : r.control.session.Indexed) :
    Reaches (fun r' rest w' => Submitting e r.control.session w.replies r'.control rest w'.replies)
      (runIn (feed e limit r .submit) w) :=
  submitting_follow hindexed limit (r := { r with control := (r.control.step .submit).1 })
    (submitting_submit htasks hpoller)

theorem quiet_readAccepted (r : Running) (json : Bool) :
    Quiet (readAccepted r json : Step (StateM (World σ)) Unit) := by
  unfold readAccepted
  split
  · exact quiet_readMarkup _
  · exact quiet_pure _

theorem submitAndFollow_run {limit : Nat} {e : Endpoint} {r : Running} {path : String}
    {json : Bool} {w w' : World σ} {exit : Exit} {c : Control}
    (htasks : r.control.tasks = [.load (.done (.ok ()))]) (hpoller : r.control.poller = none)
    (hindexed : r.control.session.Indexed)
    (h : runIn (submitAndFollow limit e r path json) w = (.ok (exit, c), w')) :
    ∃ answer later, Ended e r.control.session answer later c exit ∧
      w'.replies = later ++ ((batchQuery r.control.session).request e, answer) :: w.replies := by
  unfold submitAndFollow at h
  obtain ⟨r₁, w₁, hfeed, hread⟩ := runIn_bind_ok h
  obtain ⟨_, w₂, hlabel, hrest⟩ := runIn_bind_ok hread
  obtain ⟨_, w₃, hok, hshow⟩ := runIn_bind_ok hrest
  obtain ⟨exit', w₄, hshown, hend⟩ := runIn_bind_ok hshow
  cases hend
  have hreaches := submitting_feed limit (e := e) (w := w) htasks hpoller hindexed
  rw [hfeed] at hreaches
  obtain ⟨hresult, rfl⟩ := runIn_except_ok hok
  obtain ⟨answer, later, hreplies, haccepted, hlater, hbase, hheard⟩ :=
    hreaches.of_ok.of_submitResult hresult
  refine ⟨answer, later, ⟨haccepted, hlater, hbase, hheard, exit_of_showOutcome hshown⟩, ?_⟩
  rw [(quiet_showOutcome _ _ _).replies hshown, (quiet_readAccepted _ _).replies hlabel, hreplies]

theorem importPath_run {limit : Nat} {e : Endpoint} {r : Running} {path : String}
    {o : ImportOptions} {w w' : World σ} {exit : Exit} {c : Control}
    (htasks : r.control.tasks = []) (hpoller : r.control.poller = none) (hpath : path ≠ "")
    (h : runIn (importPath limit e r path o) w = (.ok (exit, c), w')) :
    Sent e w.replies c exit w'.replies := by
  rcases importPath_cases h with ⟨f, -, hfailed⟩ | ⟨r₁, w₁, hfeed, hends⟩
  · cases hfailed
  obtain ⟨s₁, stage, hstage, hloading⟩ := loading_of_feed htasks hpoller hpath hfeed
  obtain ⟨gets, hgets, hreads⟩ := hloading.reads
  refine ⟨gets, fun p hp => method_of_mem_reads (hreads p hp), ?_⟩
  rw [← hgets]
  rcases hends with hunsent | ⟨s, w₂, hcleared, hw₂, hsent⟩
  · exact Or.inl (replies_of_held hunsent)
  · obtain ⟨clips, takes, answer, items, hloaded, -⟩ :=
      hloading.of_loadResult hstage hcleared.loaded
    have hindexed := indexed_applyOptions hcleared.applied hloaded.indexed
    obtain ⟨answer, later, hended, hreplies⟩ := submitAndFollow_run
      (r := { r₁ with control := r₁.control.setSession s })
      hloaded.tasks hloaded.poller hindexed hsent
    rw [replies_of_held hw₂] at hreplies
    exact Or.inr ⟨s, answer, later, hended, hreplies⟩

theorem importSession_run [Json.Nesting] {limit : Nat} {settings : Settings} {o : ImportOptions}
    {w w' : World σ} {exit : Exit} {result : Option Control}
    (h : runIn (importSession limit settings o) w = (.ok (exit, result), w')) :
    exit = failed ∨ ∃ c, result = some c ∧
      Sent (endpointOf settings) w.replies c exit w'.replies := by
  rcases importSession_cases h with ⟨-, hfails⟩ |
    ⟨w₁, memory, w₂, s, ended, w₃, hw₁, hmemory, -, hpath, hrun, hheld, hended⟩
  · exact Or.inl (hfails _ _ rfl)
  · rcases hended with ⟨exit', c, rfl, hresult⟩ | hfails
    · cases hresult
      have hsent := importPath_run rfl rfl hpath hrun
      rw [quiet_loadMemory.replies hmemory, replies_of_unseen hw₁,
        ← replies_of_held hheld] at hsent
      exact Or.inr ⟨c, rfl, hsent⟩
    · exact Or.inl (hfails _ _ rfl)

/-! ## What the answers told -/

/-- The state that the last status told of a name, in replies to status requests, the last
first. -/
def lastTold (name : Json) : List (Request × Reply) → Option ItemState
  | [] => none
  | p :: earlier => ((told? p).bind fun status => status.tells? name).or (lastTold name earlier)

theorem clip_hearReply (p : Request × Reply) (i : Item) : (hearReply p i).clip = i.clip := by
  unfold hearReply
  cases told? p <;> rfl

theorem clip_hearAll (replies : List (Request × Reply)) (i : Item) :
    (hearAll replies i).clip = i.clip := by
  induction replies with
  | nil => rfl
  | cons p earlier ih => exact (clip_hearReply p _).trans ih

/-- An item is at last in the state that was told last, or else in its first state. -/
theorem state_hearAll (replies : List (Request × Reply)) (i : Item) :
    (hearAll replies i).state = (lastTold i.clip.name replies).getD i.state := by
  induction replies with
  | nil => rfl
  | cons p earlier ih =>
      have hclip := clip_hearAll earlier i
      show (hearReply p (hearAll earlier i)).state = _
      unfold hearReply lastTold
      cases told? p with
      | none => exact ih
      | some status =>
          simp only [Item.hear, hclip, ih, Option.bind_some]
          cases status.tells? i.clip.name <;> rfl

theorem batchQuery_of_base {s s' : Session} (h : s'.base = s.base) :
    batchQuery s' = batchQuery s := by
  have hplain : ∀ s : Session, batchQuery s = batchQuery s.base := by
    intro s
    show _ = Query.submit s.path s.subdirectory (Items.batch (s.items.map Item.plain))
    rw [Items.batch_map_plain]
    rfl
  rw [hplain, h, ← hplain]

/-- Between replies to other requests there is one place for the reply to a batch. -/
theorem split_at_post {later later' earlier earlier' : List (Request × Reply)}
    {p p' : Request × Reply} (hlater : ∀ r ∈ later, r.1.method ≠ "POST")
    (hearlier : ∀ r ∈ earlier, r.1.method ≠ "POST") (hpost : p'.1.method = "POST")
    (h : later ++ p :: earlier = later' ++ p' :: earlier') :
    later = later' ∧ p = p' ∧ earlier = earlier' := by
  have hnotLater : p' ∉ later := fun hmem => hlater p' hmem hpost
  have hnotEarlier : p' ∉ earlier := fun hmem => hearlier p' hmem hpost
  exact (List.append_cons_inj_of_notMem hnotLater hnotEarlier).mp h

/-- The batch is the only request that is not one of reading, so it is the one that is found. -/
theorem Sent.of_post {e : Endpoint} {before : List (Request × Reply)} {c : Control} {exit : Exit}
    {later earlier : List (Request × Reply)} {q : Request} {answer : Reply}
    (h : Sent e before c exit (later ++ (q, answer) :: (earlier ++ before)))
    (hpost : q.method = "POST") :
    ∃ s, q = (batchQuery s).request e ∧ Ended e s answer later c exit := by
  have hno : ∀ {r : Request}, r.method = "GET" → r.method ≠ "POST" := by
    intro r hget
    rw [hget]
    decide
  obtain ⟨gets, hgets, hnone | ⟨s, answer', later', hended, hsent⟩⟩ := h
  · have hmem : (q, answer) ∈ gets := by
      rw [← List.cons_append, ← List.append_assoc] at hnone
      rw [← List.append_cancel_right hnone]
      simp
    exact absurd hpost (hno (hgets _ hmem))
  · -- Neither the looks nor the requests of the load are like it.
    rw [← List.cons_append, ← List.cons_append, ← List.append_assoc, ← List.append_assoc] at hsent
    have hlooks : ∀ p ∈ later', p.1.method ≠ "POST" :=
      fun p hp => hno (congrArg Request.method (hended.looks p hp))
    obtain ⟨rfl, hbatch, -⟩ := split_at_post hlooks (fun p hp => hno (hgets p hp)) hpost
      (List.append_cancel_right hsent).symm
    obtain ⟨rfl, rfl⟩ := Prod.mk.inj hbatch
    exact ⟨s, rfl, hended⟩

theorem lastTold_ne_ready (name : Json) (replies : List (Request × Reply)) :
    lastTold name replies ≠ some .ready := by
  induction replies with
  | nil => exact nofun
  | cons p earlier ih =>
      unfold lastTold
      cases told? p with
      | none => exact ih
      | some status =>
          rw [Option.bind_some]
          cases htells : status.tells? name with
          | none => exact ih
          | some state =>
              rw [← htells]
              intro hready
              rw [Option.or_of_isSome (by rw [htells]; rfl)] at hready
              exact status.tells?_ne_ready name hready

theorem Ended.not_error {e : Endpoint} {s : Session} {answer : Reply}
    {later : List (Request × Reply)} {c : Control} (h : Ended e s answer later c success) :
    ∀ i ∈ c.session.items, i.state ≠ .error := by
  intro i hi herror
  have hexit := h.exit
  split at hexit
  · rename_i hempty
    rw [List.isEmpty_iff, List.filter_eq_nil_iff] at hempty
    exact hempty i hi (decide_eq_true herror)
  · cases hexit

theorem Ended.imported {e : Endpoint} {s : Session} {answer : Reply}
    {later : List (Request × Reply)} {c : Control} (h : Ended e s answer later c success)
    (hdistinct : Items.Distinct c.session.items) {i : Item} (hi : i ∈ c.session.items) :
    i.state = .imported ∨ lastTold i.clip.name later = none ∨
      lastTold i.clip.name later = some .active ∧ i.state = .active := by
  have hok := h.not_error i hi
  rw [h.heard (hdistinct.congr (Session.names_of_base h.base))] at hi
  obtain ⟨j, -, rfl⟩ := List.mem_map.mp hi
  rw [clip_hearAll]
  rw [state_hearAll] at hok ⊢
  cases hlast : lastTold j.clip.name later with
  | none => exact Or.inr (Or.inl rfl)
  | some state =>
      rw [hlast] at hok
      cases state with
      | ready => exact absurd hlast (lastTold_ne_ready _ _)
      | active => exact Or.inr (Or.inr ⟨rfl, rfl⟩)
      | imported => exact Or.inl rfl
      | error => exact absurd rfl hok

/-- If the command succeeds after it sent a batch, the batch was accepted and no item ended in an
error; with distinct names each clip of the batch is imported, unless no status told of it since, or
the last one that did told that it is being copied. -/
theorem imported_of_success [Json.Nesting] {limit : Nat} {settings : Settings} {o : ImportOptions}
    {w w' : World σ} {later earlier : List (Request × Reply)} {q : Request} {answer : Reply}
    (h : runIn (importCommand limit settings o) w = (.ok success, w'))
    (hreplies : w'.replies = later ++ (q, answer) :: (earlier ++ w.replies))
    (hpost : q.method = "POST") :
    ∃ c, runIn (importSession limit settings o) w = (.ok (success, some c), w') ∧
      q = (batchQuery c.session).request (endpointOf settings) ∧
      (Job.acceptance (received q answer)).outcome.1 = .ok () ∧
      (∀ p ∈ later, p.1 = Query.status.request (endpointOf settings)) ∧
      (∀ i ∈ c.session.items, i.state ≠ .error) ∧
      (Items.Distinct c.session.items → ∀ i ∈ Items.submitted c.session.items,
        i.state = .imported ∨ lastTold i.clip.name later = none ∨
          lastTold i.clip.name later = some .active ∧ i.state = .active) := by
  unfold importCommand at h
  obtain ⟨⟨exit, result⟩, w₁, hrun, hend⟩ := runIn_bind_ok h
  cases hend
  rcases importSession_run hrun with hfailed | ⟨c, rfl, hsent⟩
  · cases hfailed
  · rw [hreplies] at hsent
    obtain ⟨s, rfl, hended⟩ := hsent.of_post hpost
    refine ⟨c, hrun, ?_, hended.accepted, hended.looks, hended.not_error, ?_⟩
    · rw [batchQuery_of_base hended.base]
    · intro hdistinct i hi
      exact hended.imported hdistinct (Items.mem_of_mem_submitted hi)

def prepared (value : Json) : Prepared :=
  { reply := .answer 200 (.ofBytes (value.write .line).toUTF8) }

/-- A server of one clip that accepts every batch, with its answers to status requests. -/
def oneClipWorld (statuses : List Prepared) : World Script where
  serve := World.serveScript
  server := [("GET /source", [prepared (.arr [.obj [("name", .str "a")]])]),
    ("GET /take/", [prepared (.arr [])]), ("GET /import", statuses),
    ("POST /import", [prepared (.obj [("code", .int 200)])])]
  home := "/h"

def importFrom (path : String) : ImportOptions where
  path := some path
  subdirectory := none
  selects := []
  scene := none
  startNum := none
  all := false
  dryRun := false
  json := true

def oneClipRun (statuses : List Prepared) : Except Failure Exit × World Script :=
  runIn (importCommand 40 {} (importFrom "/a")) (oneClipWorld statuses)

def oneClipItems (statuses : List Prepared) : List Item :=
  match (runIn (importSession 40 {} (importFrom "/a")) (oneClipWorld statuses)).1 with
  | .ok (_, some c) => c.session.items
  | _ => []

def idleStatus : Prepared := prepared (.obj [])

def importedStatus : Prepared :=
  prepared (.obj [("results", .arr [.obj [("clip", .obj [("name", .str "a")])]])])

def copyingStatus : Prepared :=
  prepared (.obj [("active", .bool true), ("pending", .arr [.obj [("name", .str "a")]])])

def goneStatus : Prepared := { reply := .answer 404 .empty }

theorem eq_ok_of_toOption {α : Type} {x : Except Failure α} {a : α} (h : x.toOption = some a) :
    x = .ok a := by
  cases x <;> cases h
  rfl

theorem eq_append_of_getElem? {α : Type} {l : List α} {n : Nat} {a : α} (h : l[n]? = some a) :
    l = l.take n ++ a :: (l.drop (n + 1) ++ []) := by
  obtain ⟨hn, rfl⟩ := List.getElem?_eq_some_iff.mp h
  rw [List.append_nil, ← List.drop_eq_getElem_cons, List.take_append_drop]

/-- The job is seen to run and then to be done, and the clip is imported at the end. -/
theorem imported_of_success_one_clip :
    let run := oneClipRun [idleStatus, copyingStatus, importedStatus]
    let later := run.2.replies.take 2
    ∃ (c : Control) (answer : Reply) (earlier : List (Request × Reply)),
      run.1 = .ok success ∧
      run.2.replies = later ++ ((batchQuery c.session).request (endpointOf {}), answer) :: earlier ∧
      lastTold (.str "a") later = some .imported ∧ Items.Distinct c.session.items ∧
      (Items.submitted c.session.items).map (·.clip.name.text) = ["a"] ∧
      ∀ i ∈ Items.submitted c.session.items, i.state = .imported ∨
        lastTold i.clip.name later = none ∨
        lastTold i.clip.name later = some .active ∧ i.state = .active := by
  intro run later
  have hends : run.1.toOption = some success ∧
      (run.2.replies[2]?.map fun p => p.1.method) = some "POST" ∧
      lastTold (.str "a") later = some .imported ∧
      Items.Distinct (oneClipItems [idleStatus, copyingStatus, importedStatus]) ∧
      (Items.submitted (oneClipItems [idleStatus, copyingStatus, importedStatus])).map
        (·.clip.name.text) = ["a"] := by decide +kernel
  obtain ⟨hcode, hmethod, htold, hdistinct, hnames⟩ := hends
  have hrun : run = (.ok success, run.2) := Prod.ext (eq_ok_of_toOption hcode) rfl
  obtain ⟨⟨q, answer⟩, hsent, hpost⟩ := Option.map_eq_some_iff.mp hmethod
  have hreplies : run.2.replies = later ++ (q, answer) :: (run.2.replies.drop 3 ++ []) :=
    eq_append_of_getElem? hsent
  obtain ⟨c, hsession, rfl, -, -, -, himported⟩ := imported_of_success hrun hreplies hpost
  rw [oneClipItems, hsession] at hdistinct hnames
  exact ⟨c, answer, _, congrArg Prod.fst hrun, hreplies, htold, hdistinct, hnames,
    himported hdistinct⟩

/-- Whether the import has its batch accepted, succeeds, and leaves the clips of the batch in these
states. -/
def SucceedsWith (statuses : List Prepared) (states : List ItemState) : Prop :=
  (oneClipRun statuses).1.toOption = some success ∧
    (∃ p ∈ (oneClipRun statuses).2.replies, p.1.method = "POST" ∧
      (Job.acceptance (received p.1 p.2)).outcome.1.toOption = some ()) ∧
    Items.Distinct (oneClipItems statuses) ∧
    (Items.submitted (oneClipItems statuses)).map Item.state = states

instance (statuses : List Prepared) (states : List ItemState) :
    Decidable (SucceedsWith statuses states) :=
  inferInstanceAs (Decidable (_ ∧ _ ∧ _ ∧ _))

/-- A poll that gives up ends the import like one that sees the job idle: the clip is as it was, or
as it was told of before. -/
theorem not_imported_after_success :
    SucceedsWith [idleStatus, goneStatus] [.ready] ∧
      SucceedsWith [idleStatus, copyingStatus, goneStatus] [.active] := by
  decide +kernel

end CardImport.Command
