import CardImport.Proofs.Command.Endings

/-!
# How the commands on the job and on takes end

Each of these commands makes one call, or two to change a take, and shows what came of it. If the
replies suit the calls it ends well, unless a text that it shows has styles that cannot be read: a
status without infinite numbers that can be presented, takes that have their ids, and for the other
calls any body that can be read.
-/

namespace CardImport

/-- A take that can stand in a row of a table. -/
structure Take.InCells (t : Take) : Prop where
  num : t.id.num.IsCell
  clipName : t.clipName.IsCell

namespace Command

open Network

variable {σ : Type}

/-! ## The status -/

/-- A status that can be shown: sizes are shown while a job runs, and the names of clips that are
done stand in a table. -/
structure Presentable (status : JobStatus) : Prop where
  copied : status.active = true → status.bytesCopied.natAbs < twoTo 1023
  total : status.active = true → status.bytesTotal.natAbs < twoTo 1023
  names : ∀ r ∈ status.results, r.clip.name.IsCell

theorem exists_resultTable {results : List ClipResult} (h : ∀ r ∈ results, r.clip.name.IsCell) :
    ∃ table, resultTable results = .ok table := by
  have hrow : ∀ r ∈ results, ∃ row, resultRow r = .ok row := by
    intro r hr
    refine Table.exists_row ?_
    simp only [List.forall_mem_cons]
    exact ⟨h r hr, .str _, List.forall_mem_nil _⟩
  obtain ⟨rows, hrows⟩ := exists_mapM hrow
  refine ⟨⟨"Results", ["Clip", "Result"], rows⟩, ?_⟩
  rw [resultTable, hrows]
  rfl

theorem exists_numberResult {y : Except NumberError α} (h : ∃ a, y = .ok a) :
    ∃ a, numberResult y = .ok a := by
  obtain ⟨a, rfl⟩ := h
  exact ⟨a, rfl⟩

theorem shows_showStatus (s : JobStatus) :
    Shows (Presentable s) (· = success) (showStatus s : Step (StateM (World σ)) Exit) := by
  unfold showStatus
  -- What is left to show after each part that may be left out, from the last one on.
  extract_lets last results remaining pending job
  have hresults : ∀ u, Shows (Presentable s) (· = success) (results u) := by
    intro u
    refine shows_ite (fun _ => ?_) fun _ => shows_pure rfl
    refine (shows_except fun h => exists_resultTable h.names).bind fun _ => ?_
    exact (shows_emit _).bind fun _ => shows_pure rfl
  have hpending : ∀ u, Shows (Presentable s) (· = success) (pending u) := by
    intro u
    unfold pending
    split
    · exact (shows_emit _).bind hresults
    · exact hresults ()
  have hjob : ∀ u, Shows (Presentable s) (· = success) (job u) := by
    intro u
    refine shows_ite (fun hactive => ?_) fun _ => (shows_emit _).bind hresults
    refine (shows_emit _).bind fun _ => ?_
    refine (shows_except fun h => exists_numberResult
      (Size.exists_text (h.copied hactive))).bind fun copied => ?_
    refine (shows_except fun h => exists_numberResult
      (Size.exists_text (h.total hactive))).bind fun total => (shows_emit _).bind fun _ => ?_
    split
    · exact (shows_emit _).bind hpending
    · exact hpending ()
  exact shows_ite (fun _ => (shows_emit _).bind hjob) fun _ => hjob ()

/-- What a reply to a request for the status must be for the status command. -/
def TellsStatus (e : Endpoint) (json : Bool) (answer : Reply) : Prop :=
  Suits Json.Bounded answer ∧ ∀ status, Job.told (lookIn e answer) = .ok status →
    json = false → Presentable status

theorem closes_statusCommand {e : Endpoint} {json : Bool} {w : World σ}
    (h : ∀ p ∈ (runIn (statusCommand e json) w).2.replies, TellsStatus e json p.2) :
    Closes (runIn (statusCommand e json) w) := by
  have hnext : ∀ s : JobStatus, Shows (json = false → Presentable s) (· = success)
      (if json then report (statusReport s) >>= fun _ => pure success else showStatus s :
        Step (StateM (World σ)) Exit) := by
    intro s
    cases json with
    | true => exact (shows_echo _).bind fun _ => shows_pure rfl
    | false =>
        obtain ⟨hquiet, hvalue⟩ := shows_showStatus s
        exact ⟨hquiet, fun hs => hvalue (hs rfl)⟩
  have hreplies := replies_of_reported json (x := perform e Job.status)
    (fun s => (hnext s).quiet) w
  obtain ⟨hsuits, hshown⟩ := h _ (by
    rw [statusCommand, hreplies, replies_perform]
    exact List.mem_cons_self)
  refine closes_reported (excused_perform hsuits fun r hr => ?_) fun s hs => ?_
  · simp only [Job.status]
    cases hsuccess : r.isSuccess with
    | false => exact Noted.FailsAs.throw rfl
    | true =>
        intro before f hf
        exact isReported_of_isRemote (failsAs_decodeStatus (hr hsuccess) before f hf)
  · rw [(perform_run e Job.status w).1] at hs
    exact (hnext s).closes (hshown s hs) _

/-! ## Takes -/

/-- The entry of a take: an object with an id of a scene and a number. -/
def IsTake (data : Json) : Prop :=
  ∃ fields id, data = .obj fields ∧ Fields.get? fields "id" = some (.obj id) ∧
    (Fields.get? id "scene").isSome = true ∧ (Fields.get? id "num").isSome = true

theorem IsTake.exists_take {data : Json} (h : IsTake data) : ∃ t, Take.ofJson data = .ok t := by
  obtain ⟨fields, id, rfl, hid, hscene, hnum⟩ := h
  obtain ⟨scene, hscene⟩ := Option.isSome_iff_exists.mp hscene
  obtain ⟨num, hnum⟩ := Option.isSome_iff_exists.mp hnum
  have hrequires : (Json.obj fields).require "id" = .ok (.obj id) := by rw [Json.require, hid]
  have hread : TakeId.ofJson (.obj id) = .ok ⟨scene, num⟩ := by
    rw [TakeId.ofJson, Json.require, Json.require, hscene, hnum]
    rfl
  refine ⟨{
    id := ⟨scene, num⟩
    clipName := Fields.getD fields "clipName" (.str "")
    select := (Fields.getD fields "select" (.bool false)).truthy }, ?_⟩
  rw [Take.ofJson, hrequires]
  show (TakeId.ofJson (.obj id) >>= _) = _
  rw [hread]
  rfl

/-! ## The list of takes -/

theorem mem_of_forall₂ {α β : Type} {R : α → β → Prop} {xs : List α} {ys : List β}
    (h : List.Forall₂ R xs ys) : ∀ y ∈ ys, ∃ x ∈ xs, R x y := by
  induction h with
  | nil => exact List.forall_mem_nil _
  | cons hxy _ ih =>
      intro y hy
      rcases List.mem_cons.mp hy with rfl | hrest
      · exact ⟨_, List.mem_cons_self, hxy⟩
      · obtain ⟨x, hx, hR⟩ := ih y hrest
        exact ⟨x, List.mem_cons_of_mem _ hx, hR⟩

theorem SceneGroup.mem_cons {t t' : Take} {groups : List SceneGroup} {g : SceneGroup}
    (hg : g ∈ SceneGroup.cons t groups) (ht : t' ∈ g.takes) :
    t' = t ∨ ∃ g' ∈ groups, t' ∈ g'.takes := by
  have hnew : g ∈ ⟨t.id.scene, [t]⟩ :: groups → t' = t ∨ ∃ g' ∈ groups, t' ∈ g'.takes := by
    intro hg
    rcases List.mem_cons.mp hg with rfl | hrest
    · exact Or.inl (List.mem_singleton.mp ht)
    · exact Or.inr ⟨g, hrest, ht⟩
  cases groups with
  | nil => exact hnew hg
  | cons first rest =>
      rw [SceneGroup.cons] at hg
      by_cases hscene : t.id.scene.equals first.scene = true
      · rw [if_pos hscene] at hg
        rcases List.mem_cons.mp hg with rfl | hrest
        · exact (List.mem_cons.mp ht).imp_right fun hold => ⟨first, List.mem_cons_self, hold⟩
        · exact Or.inr ⟨g, List.mem_cons_of_mem _ hrest, ht⟩
      · rw [if_neg hscene] at hg
        exact hnew hg

theorem mem_of_groupByScene {takes : List Take} {g : SceneGroup} (hg : g ∈ groupByScene takes)
    {t : Take} (ht : t ∈ g.takes) : t ∈ takes := by
  induction takes generalizing g t with
  | nil => cases hg
  | cons first rest ih =>
      rcases SceneGroup.mem_cons hg ht with rfl | ⟨g', hg', ht'⟩
      · exact List.mem_cons_self
      · exact List.mem_cons_of_mem _ (ih hg' ht')

theorem shows_showTables {p : Prop} {groups : List SceneGroup}
    (h : p → ∀ g ∈ groups, ∀ t ∈ g.takes, t.InCells) :
    Shows p (fun _ => True) (showTables groups : Step (StateM (World σ)) Unit) := by
  induction groups with
  | nil => exact shows_pure trivial
  | cons g rest ih =>
      have htable : p → ∃ table, sceneTable g = .ok table := by
        intro hp
        have hrow : ∀ t ∈ g.takes, ∃ row, takeRow t = .ok row := by
          intro t ht
          obtain ⟨hnum, hclip⟩ := h hp g List.mem_cons_self t ht
          refine Table.exists_row ?_
          simp only [List.forall_mem_cons, Table.mark]
          exact ⟨hnum, hclip, .str _, List.forall_mem_nil _⟩
        obtain ⟨rows, hrows⟩ := exists_mapM hrow
        refine ⟨⟨"Scene " ++ g.scene.text, ["Take", "Clip", "Select"], rows⟩, ?_⟩
        rw [sceneTable, hrows]
        rfl
      unfold showTables
      refine (shows_except htable).bind fun table => (shows_emit _).bind fun _ => ?_
      exact ih fun hp g' hg' => h hp g' (List.mem_cons_of_mem _ hg')

/-- The body of an answer to a request for all takes. What is shown in tables are texts. -/
def IsTakeList (json : Bool) (data : Json) : Prop :=
  data.truthy = true → ∃ entries, data = .arr entries ∧ ∀ x ∈ entries, IsTake x ∧
    (json = false → ∀ t, Take.ofJson x = .ok t → t.InCells)

theorem IsTakeList.elementsOrNone {json : Bool} {data : Json} (h : IsTakeList json data) :
    ∃ entries, data.elementsOrNone = .ok entries ∧ ∀ x ∈ entries, IsTake x ∧
      (json = false → ∀ t, Take.ofJson x = .ok t → t.InCells) := by
  unfold Json.elementsOrNone
  by_cases hdata : data.truthy = true
  · obtain ⟨entries, rfl, hentries⟩ := h hdata
    exact ⟨entries, if_pos hdata, hentries⟩
  · exact ⟨[], if_neg hdata, List.forall_mem_nil _⟩

theorem shows_takes (json : Bool) (takes : List Take) :
    Shows (json = false → ∀ t ∈ takes, t.InCells) (· = success)
      (do
        if json then report (.arr (takes.map Take.toJson))
        else if takes.isEmpty then print "No takes recorded"
        else showTables (groupByScene takes)
        return success : Step (StateM (World σ)) Exit) := by
  refine shows_ite (fun _ => (shows_echo _).bind fun _ => shows_pure rfl) fun hjson => ?_
  refine shows_ite (fun _ => (shows_emit _).bind fun _ => shows_pure rfl) fun _ => ?_
  refine (shows_showTables fun hcells g hg t ht => ?_).bind fun _ => shows_pure rfl
  exact hcells (Bool.eq_false_iff.mpr hjson) t (mem_of_groupByScene hg ht)

theorem replies_listTakes (e : Endpoint) (json : Bool) (w : World σ) :
    (runIn (listTakes e json) w).2.replies =
      (Registry.list.request e, reply w (Registry.list.request e)) :: w.replies := by
  rw [listTakes, replies_of_reported json (fun takes => (shows_takes json takes).quiet) w,
    replies_perform]

theorem closes_listTakes_of_suits {e : Endpoint} {json : Bool} {w : World σ}
    (hsuits : Suits (IsTakeList json) (reply w (Registry.list.request e))) :
    Closes (runIn (listTakes e json) w) := by
  refine closes_reported (excused_perform hsuits fun r hr => ?_) fun takes htakes => ?_
  · simp only [Registry.list, Registry.checked]
    cases hsuccess : r.isSuccess with
    | false => exact Noted.FailsAs.throw rfl
    | true =>
        obtain ⟨entries, helements, hentries⟩ := (hr hsuccess).elementsOrNone
        rw [if_pos rfl, pure_bind, helements]
        refine Noted.FailsAs.bind_lift (failsAs_ok entries) fun _ hok => ?_
        cases hok
        refine Noted.FailsAs.mapM fun x hx => Noted.FailsAs.lift ?_
        obtain ⟨t, ht⟩ := (hentries x hx).1.exists_take
        rw [ht]
        exact failsAs_ok t
  -- Each take that is shown was read from an entry of the answer, and that entry can be shown.
  · refine (shows_takes json takes).closes (fun hjson t ht => ?_) _
    rw [(perform_run e Registry.list w).1] at htakes
    obtain ⟨r, entries, hreceived, hsuccess, helements, htaken⟩ := entries_of_listTakes htakes
    obtain ⟨x, hx, hread⟩ := mem_of_forall₂ htaken t ht
    rcases received_of_suits hsuits (Registry.list.request e) with ⟨text, hr⟩ | ⟨r', hr, hlist⟩
    · rw [hreceived] at hr
      cases hr
    · rw [hreceived] at hr
      cases hr
      obtain ⟨entries', helements', hentries⟩ := (hlist hsuccess).elementsOrNone
      rw [helements] at helements'
      cases helements'
      exact (hentries x hx).2 hjson t hread

theorem closes_listTakes {e : Endpoint} {json : Bool} {w : World σ}
    (h : ∀ p ∈ (runIn (listTakes e json) w).2.replies, Suits (IsTakeList json) p.2) :
    Closes (runIn (listTakes e json) w) := by
  apply closes_listTakes_of_suits
  apply h (Registry.list.request e, reply w (Registry.list.request e))
  rw [replies_listTakes]
  exact List.mem_cons_self

/-! ## Single takes -/

theorem exists_path (scene num : String) : ∃ path, (TakeId.ofText scene num).path = .ok path :=
  ⟨_, rfl⟩

theorem failsAs_checked (action : String) (r : Response) :
    (Registry.checked action r).FailsAs fun f => f.kind.isReported = true := by
  unfold Registry.checked
  split
  · exact Noted.failsAs_pure r
  · exact Noted.FailsAs.throw rfl

/-- The call for a take fails for a take that is not found, a status or a body that is none. -/
theorem of_get {id : TakeId} {path : String} (hpath : id.path = .ok path) :
    ∃ c, Registry.get id = .ok c ∧ c.method = "GET" ∧
      ∀ r : Response, (r.isSuccess = true → IsTake r.data) →
        (c.accept r).FailsAs fun f => f.kind.isReported = true := by
  unfold Registry.get
  rw [hpath]
  refine ⟨_, rfl, rfl, fun r hr => ?_⟩
  by_cases hmissing : r.status = 404
  · simp only [hmissing, if_true]
    exact Noted.FailsAs.throw rfl
  · simp only [hmissing, if_false, Registry.checked]
    by_cases hsuccess : r.isSuccess = true
    · obtain ⟨t, ht⟩ := (hr hsuccess).exists_take
      rw [if_pos hsuccess, pure_bind, ht]
      exact Noted.FailsAs.lift (failsAs_ok t)
    · rw [if_neg hsuccess]
      exact Noted.FailsAs.throw rfl

theorem of_update {id : TakeId} {path : String} (hpath : id.path = .ok path) (t : Take) :
    ∃ c, Registry.update id t = .ok c ∧
      ∀ r : Response, (c.accept r).FailsAs fun f => f.kind.isReported = true := by
  unfold Registry.update
  rw [hpath]
  refine ⟨_, rfl, fun r => ?_⟩
  exact (failsAs_checked _ r).bind fun _ => Noted.failsAs_write _ _ _

theorem of_delete {id : TakeId} {path : String} (hpath : id.path = .ok path) :
    ∃ c, Registry.delete id = .ok c ∧
      ∀ r : Response, (c.accept r).FailsAs fun f => f.kind.isReported = true := by
  unfold Registry.delete
  rw [hpath]
  refine ⟨_, rfl, fun r => ?_⟩
  exact (failsAs_checked _ r).bind fun _ => Noted.failsAs_write _ _ _

theorem load_of_get {e : Endpoint} {id : TakeId} {c : Call Take} (hget : Registry.get id = .ok c)
    (w : World σ) :
    runIn (TakeEditor.load e id : Step (StateM (World σ)) Take) w = runIn (perform e c) w := by
  have hcall : runIn (liftM (Registry.get id) : Step (StateM (World σ)) (Call Take)) w =
      (.ok c, w) := by
    rw [runIn_except, hget]
  exact runIn_bind_of_ok hcall

theorem closes_showTake {e : Endpoint} {id : TakeId} {path : String} {w : World σ}
    (hpath : id.path = .ok path)
    (h : ∀ p ∈ (runIn (showTake e id) w).2.replies, Suits IsTake p.2) :
    Closes (runIn (showTake e id) w) := by
  have hnext : ∀ t : Take, Shows True (· = success) (do
      print ("[bold]Take " ++ t.id.text ++ "[/bold]")
      print ("  Clip: " ++ (if t.clipName.truthy then t.clipName.text else "-"))
      print ("  Select: " ++ (if t.select then "yes" else "no"))
      return success : Step (StateM (World σ)) Exit) := fun t =>
    (shows_emit _).bind fun _ => (shows_emit _).bind fun _ => (shows_emit _).bind fun _ =>
      shows_pure rfl
  obtain ⟨c, hget, -, haccept⟩ := of_get hpath
  have hreplies := replies_of_reported false (x := TakeEditor.load e id)
    (fun t => (hnext t).quiet) w
  rw [load_of_get hget, replies_perform] at hreplies
  have hsuits : Suits IsTake (reply w (c.request e)) := h _ (by
    rw [showTake, hreplies]
    exact List.mem_cons_self)
  refine closes_reported ?_ fun t _ => (hnext t).closes trivial _
  rw [load_of_get hget]
  exact excused_perform hsuits haccept

theorem closes_deleteTake {e : Endpoint} {id : TakeId} {path : String} {w : World σ}
    (hpath : id.path = .ok path)
    (h : ∀ p ∈ (runIn (deleteTake e id) w).2.replies, Suits (fun _ => True) p.2) :
    Closes (runIn (deleteTake e id) w) := by
  have hnext : ∀ _ : Unit, Shows True (· = success) (do
      print ("[green]✓ Deleted take " ++ id.text ++ "[/green]")
      return success : Step (StateM (World σ)) Exit) := fun _ =>
    (shows_emit _).bind fun _ => shows_pure rfl
  obtain ⟨c, hdelete, haccept⟩ := of_delete hpath
  have hcall : runIn (liftM (Registry.delete id) : Step (StateM (World σ)) (Call Unit)) w =
      (.ok c, w) := by
    rw [runIn_except, hdelete]
  have hdestroy : runIn (TakeEditor.destroy e id : Step (StateM (World σ)) Unit) w =
      runIn (perform e c) w := runIn_bind_of_ok hcall
  have hreplies := replies_of_reported false (x := TakeEditor.destroy e id)
    (fun u => (hnext u).quiet) w
  rw [hdestroy, replies_perform] at hreplies
  have hsuits : Suits (fun _ => True) (reply w (c.request e)) := h _ (by
    rw [deleteTake, hreplies]
    exact List.mem_cons_self)
  refine closes_reported ?_ fun u _ => (hnext u).closes trivial _
  rw [hdestroy]
  exact excused_perform hsuits fun r _ => haccept r

/-- A change asks for the take, and if it gets it, it stores the changed one. -/
theorem save_cases {e : Endpoint} {id : TakeId} {path : String} {c : Call Take}
    (hpath : id.path = .ok path) (hget : Registry.get id = .ok c) (changes : TakeChanges)
    (w : World σ) :
    (∃ f, (runIn (perform e c) w).1 = .error f ∧
      runIn (TakeEditor.save e id changes : Step (StateM (World σ)) Take) w =
        (.error f, (runIn (perform e c) w).2)) ∨
    ∃ (t : Take) (put : Call Unit), (runIn (perform e c) w).1 = .ok t ∧
      Registry.update id (changes.apply t) = .ok put ∧
      (runIn (TakeEditor.save e id changes : Step (StateM (World σ)) Take) w).1 =
        (runIn (perform e put) (runIn (perform e c) w).2).1.map (fun _ => changes.apply t) ∧
      (runIn (TakeEditor.save e id changes : Step (StateM (World σ)) Take) w).2.replies =
        (runIn (perform e put) (runIn (perform e c) w).2).2.replies := by
  have hcall : runIn (liftM (Registry.get id) : Step (StateM (World σ)) (Call Take)) w =
      (.ok c, w) := by
    rw [runIn_except, hget]
  have hsave : runIn (TakeEditor.save e id changes : Step (StateM (World σ)) Take) w =
      runIn (perform e c >>= _) w := runIn_bind_of_ok hcall
  rcases hgot : runIn (perform e c) w with ⟨f | t, w₁⟩
  · refine Or.inl ⟨f, rfl, ?_⟩
    rw [hsave, runIn_bind, hgot]
  · obtain ⟨put, hput, -⟩ := of_update hpath (changes.apply t)
    have hputs : runIn (liftM (Registry.update id (changes.apply t)) :
        Step (StateM (World σ)) (Call Unit)) w₁ = (.ok put, w₁) := by
      rw [runIn_except, hput]
    rw [runIn_bind_of_ok hgot, runIn_bind_of_ok hputs] at hsave
    refine Or.inr ⟨t, put, rfl, hput, ?_⟩
    rcases hstored : runIn (perform e put) w₁ with ⟨f | u, w₂⟩
    · rw [hsave, runIn_bind, hstored]
      exact ⟨rfl, rfl⟩
    · -- Whether the take was moved is noted, and makes no other difference.
      rw [hsave, runIn_bind_of_ok hstored]
      by_cases hsame : (!(changes.apply t).id.same id) = true
      · simp only [hsame]
        exact ⟨rfl, rfl⟩
      · simp only [hsame]
        exact ⟨rfl, rfl⟩

theorem closes_editTake {e : Endpoint} {id : TakeId} {path : String} {changes : TakeChanges}
    {w : World σ} (hpath : id.path = .ok path)
    (h : ∀ p ∈ (runIn (editTake e id changes) w).2.replies,
      Suits (fun data => p.1.method = "GET" → IsTake data) p.2) :
    Closes (runIn (editTake e id changes) w) := by
  have hnext : ∀ t : Take, Shows True (· = success) (do
      print ("[green]✓ Saved take " ++ t.id.text ++ "[/green]")
      return success : Step (StateM (World σ)) Exit) := fun t =>
    (shows_emit _).bind fun _ => shows_pure rfl
  obtain ⟨c, hget, hmethod, haccept⟩ := of_get hpath
  have hreplies := replies_of_reported false (x := TakeEditor.save e id changes)
    (fun t => (hnext t).quiet) w
  -- What is printed at the end sends nothing, so the replies are those of the saving.
  have hcomes : ∀ p ∈ (runIn (TakeEditor.save e id changes : Step (StateM (World σ)) Take)
      w).2.replies, Suits (fun data => p.1.method = "GET" → IsTake data) p.2 := by
    intro p hp
    rw [← hreplies] at hp
    exact h p hp
  refine closes_reported ?_ fun t _ => (hnext t).closes trivial _
  rcases save_cases hpath hget changes w with ⟨f, hf, hsave⟩ | ⟨t, put, -, hput, hresult, hsave⟩
  · rw [hsave, replies_perform] at hcomes
    have hsuits := (hcomes _ List.mem_cons_self).mono fun _ hdata => hdata hmethod
    rw [hsave, ← hf]
    exact excused_perform hsuits haccept
  · obtain ⟨put', hput', hstores⟩ := of_update hpath (changes.apply t)
    cases hput.symm.trans hput'
    rw [hsave, replies_perform, replies_perform] at hcomes
    have hstored : Excused (runIn (perform e put) (runIn (perform e c) w).2).1 :=
      excused_perform (hcomes _ List.mem_cons_self) fun r _ => hstores r
    rw [hresult]
    cases hput : (runIn (perform e put) (runIn (perform e c) w).2).1 with
    | error f =>
        rw [hput] at hstored
        exact FailsAs.error (hstored f rfl)
    | ok u => exact failsAs_ok _

end Command

end CardImport
