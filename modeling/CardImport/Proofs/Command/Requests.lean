import CardImport.Proofs.Command.Import
import CardImport.Proofs.Progress

/-!
# What the import command asks of the server

A run of the command reads, submits one batch at most, and then only looks at the job. The batch is
sent if the options allow it, something is checked, all selects are listed, and the status that was
merged during the load says that the server takes batches and that no job runs.
-/

namespace CardImport.Command

open Control

variable {σ : Type}

/-! ## What is known before the batch is sent -/

theorem of_submittable {s : Session} (h : submittable s = .ok true) :
    s.state ≠ .active ∧ s.enabled = true ∧ Items.anyChecked s.items = true := by
  unfold submittable at h
  split at h
  · cases h
  · rename_i hstate
    cases henabled : s.enabled with
    | false =>
        rw [henabled] at h
        cases h
    | true =>
        rw [henabled] at h
        exact ⟨hstate, rfl, Except.ok.inj h⟩

theorem batch_ne_nil {items : List Item} (h : Items.anyChecked items = true) :
    Items.batch items ≠ [] := by
  obtain ⟨i, hi, hchecked⟩ := List.any_eq_true.mp h
  have hsubmitted : i ∈ Items.submitted items := by
    rw [Items.submitted, List.mem_append, List.mem_filter, List.mem_filter]
    cases hselect : i.select with
    | true => exact Or.inl ⟨hi, by rw [hchecked]; rfl⟩
    | false => exact Or.inr ⟨hi, by rw [hchecked]; rfl⟩
  exact List.ne_nil_of_mem (List.mem_map_of_mem hsubmitted)

/-- A session that shows its list is active exactly if its progress says so. -/
theorem isActive_of_state {s : Session} (hloading : s.loading = false) (hsome : s.items ≠ [])
    (hstate : s.state ≠ .active) : Progress.isActive s.progress = false := by
  have hempty : s.items.isEmpty = false := List.isEmpty_eq_false_iff.mpr hsome
  cases hactive : Progress.isActive s.progress with
  | false => rfl
  | true =>
      refine absurd ?_ hstate
      simp [Session.state, hloading, hempty, hactive]

variable {e : Endpoint} {s s' : Session} {o : ImportOptions} {clips takes status : Reply}
  {items : List Item} {c : Control}

/-- The status that was told during the load allows the batch. -/
theorem Loaded.allowed (hloaded : Loaded e s clips takes status items c) (hc : Cleared o c s')
    {told : JobStatus} (htold : Job.told (lookIn e status) = .ok told) :
    told.enabled = true ∧ (0 ≤ told.bytesCopied → told.active = false) := by
  obtain ⟨progress, hprogress⟩ := Session.progress_of_merged (hloaded.merged told htold)
  have hjob := Session.job_look_of_told (s := s.listed items) htold hprogress
  rw [← hloaded.session] at hjob
  obtain ⟨⟨edited, rfl, -⟩, -⟩ := of_applyOptions hc.applied
  obtain ⟨hstate, henabled, hchecked⟩ := of_submittable hc.submittable
  have hknown : c.session.enabled = told.enabled := congrArg Prod.fst hjob
  have hprog : c.session.progress = progress := congrArg (fun job => job.2.1) hjob
  refine ⟨hknown.symm.trans henabled, fun hcopied => ?_⟩
  have hloading : c.session.loading = false := by
    rw [hloaded.session, Session.loading_look]
    rfl
  have hsome : edited ≠ [] := by
    rintro rfl
    cases hchecked
  have hidle := isActive_of_state (s := { c.session with items := edited }) hloading hsome hstate
  cases hactive : told.active with
  | false => rfl
  | true =>
      have hruns := Progress.isActive_of_active hactive hcopied hprogress
      rw [← hprog] at hruns
      exact absurd hruns (by rw [hidle]; exact Bool.false_ne_true)

theorem Loaded.names (hloaded : Loaded e s clips takes status items c) :
    (c.session.items.map fun i => i.clip.name) = items.map fun i => i.clip.name := by
  rw [hloaded.session]
  exact Session.names_of_base (s := s.listed items) (Session.base_look _ _)

theorem Loaded.items_ne_nil (hloaded : Loaded e s clips takes status items c)
    (hc : Cleared o c s') : items ≠ [] := by
  rintro rfl
  obtain ⟨⟨edited, rfl, hgiven⟩, -⟩ := of_applyOptions hc.applied
  obtain ⟨-, -, hchecked⟩ := of_submittable hc.submittable
  have hempty : c.session.items = [] := List.map_eq_nil_iff.mp hloaded.names
  rw [hempty] at hgiven
  obtain rfl : edited = [] := List.map_eq_nil_iff.mp hgiven
  cases hchecked

theorem Loaded.listed_of_find? (hloaded : Loaded e s clips takes status items c) {name : String}
    (hfound : (c.session.find? (.str name)).isSome = true) :
    .str name ∈ items.map fun i => i.clip.name := by
  have hindex : c.session.index = .ofItems c.session.items := hloaded.indexed
  unfold Session.find? at hfound
  rw [hindex, NameIndex.position?_ofItems rfl, List.findIdx?_isSome, List.any_eq_true] at hfound
  obtain ⟨i, hi, halike⟩ := hfound
  rw [← hloaded.names, ← Json.eq_str_of_alike halike]
  exact List.mem_map_of_mem hi

theorem Loaded.selects (hloaded : Loaded e s clips takes status items c) (hc : Cleared o c s') :
    ∃ listed, clipsIn e s.path clips = .ok listed ∧
      ∀ name ∈ o.selects, ∃ clip ∈ listed, clip.name = .str name := by
  obtain ⟨-, hfound⟩ := of_applyOptions hc.applied
  obtain ⟨cs, ts, hclips, -, hitems⟩ :=
    Session.of_listing hloaded.listing (hloaded.items_ne_nil hc)
  refine ⟨cs, hclips, fun name hname => ?_⟩
  have hlisted := hloaded.listed_of_find? (hfound name hname)
  rw [← Reconcile.map_clip_items hitems]
  obtain ⟨i, hi, hi'⟩ := List.mem_map.mp hlisted
  exact ⟨i.clip, List.mem_map_of_mem hi, hi'⟩

/-! ## The way to the submission -/

/-- A run of the command up to the submission of its batch: the memory is read, the path is loaded,
and the edited session may be submitted. -/
structure Approach [Json.Nesting] (limit : Nat) (settings : Settings) (o : ImportOptions)
    (w : World σ) where
  begun : World σ
  unseen_begun : unseen begun = unseen w
  memory : Memory
  remembered : World σ
  remembers : runIn loadMemory begun = (.ok memory, remembered)
  first : Session
  describes : sessionOf settings.importing = .ok first
  path_ne : choosePath o (placeIn o first) memory ≠ ""
  loaded : Running
  after : World σ
  loads : runIn (feed (endpointOf settings) limit { control := began o first, memory }
    (.openPath (choosePath o (placeIn o first) memory))) remembered = (.ok loaded, after)
  session : Session
  cleared : Cleared o loaded.control session

namespace Approach

variable [Json.Nesting] {limit : Nat} {settings : Settings} {w : World σ}

def path (a : Approach limit settings o w) : String := choosePath o (placeIn o a.first) a.memory

def opening (a : Approach limit settings o w) : Session := opened (placeIn o a.first) a.path

/-- The load ended well, after the requests of a whole load. -/
theorem loading (a : Approach limit settings o w) : ∃ clips takes status items,
    Loaded (endpointOf settings) a.opening clips takes status items a.loaded.control ∧
      a.after.replies = (Query.status.request (endpointOf settings), status) ::
        listings (endpointOf settings) a.path clips takes ++ w.replies := by
  obtain ⟨s₁, stage, hstage, hloading⟩ := loading_of_feed rfl rfl a.path_ne a.loads
  rw [quiet_loadMemory.replies a.remembers, replies_of_unseen a.unseen_begun] at hloading
  exact hloading.of_loadResult hstage a.cleared.loaded

end Approach

/-- A submission sends its batch or nothing, and looks at the job afterwards. -/
theorem sent_submitAndFollow {limit : Nat} {r : Running} {path : String} {json : Bool}
    {w w' : World σ} {result : Except Failure (Exit × Control)}
    (htasks : r.control.tasks = [.load (.done (.ok ()))]) (hpoller : r.control.poller = none)
    (hindexed : r.control.session.Indexed)
    (h : runIn (submitAndFollow limit e r path json) w = (result, w')) :
    w'.replies = w.replies ∨ ∃ answer later, (∀ p ∈ later, p.1 = Query.status.request e) ∧
      w'.replies = later ++ ((batchQuery r.control.session).request e, answer) :: w.replies := by
  unfold submitAndFollow at h
  have hreaches := submitting_feed limit (e := e) (w := w) htasks hpoller hindexed
  rcases runIn_bind_cases h with ⟨f, hfeed, -⟩ | ⟨r₁, w₁, hfeed, hrest⟩ <;> rw [hfeed] at hreaches
  · obtain ⟨r₁, todo, hfollowed, -⟩ := hreaches
    exact hfollowed.sent
  · have hquiet : w'.replies = w₁.replies := by
      refine Quiet.replies ?_ hrest
      refine (quiet_readAccepted _ _).bind fun _ => (quiet_except _).bind fun _ => ?_
      exact (quiet_showOutcome _ _ _).bind fun _ => quiet_pure _
    rw [hquiet]
    exact hreaches.of_ok.sent

/-- A run of the command only reads, or it comes to the submission of its batch. -/
theorem approach_of_import [Json.Nesting] {limit : Nat} {settings : Settings} {w w' : World σ}
    {result : Except Failure Exit}
    (h : runIn (importCommand limit settings o) w = (result, w')) :
    (∃ path new, w'.replies = new ++ w.replies ∧
      ∀ p ∈ new, p.1 ∈ reads (endpointOf settings) path) ∨
    ∃ (a : Approach limit settings o w) (answer : Reply) (later : List (Request × Reply)),
      (∀ p ∈ later, p.1 = Query.status.request (endpointOf settings)) ∧
      w'.replies = later ++ ((batchQuery a.session).request (endpointOf settings), answer) ::
        a.after.replies := by
  rcases hrun : runIn (importSession limit settings o) w with ⟨outcome, w₀⟩
  have hw₀ : w' = w₀ := by
    unfold importCommand at h
    rw [runIn_bind, hrun] at h
    cases outcome <;> exact (congrArg Prod.snd h).symm
  subst hw₀
  rcases importSession_cases hrun with ⟨hunsent, -⟩ |
    ⟨w₁, memory, w₂, s, ended, w₃, hw₁, hmemory, hs, hpath, himport, hheld, -⟩
  · exact Or.inl ⟨"", [], replies_of_held hunsent, List.forall_mem_nil _⟩
  rw [replies_of_held hheld]
  have hbegan := (quiet_loadMemory.replies hmemory).trans (replies_of_unseen hw₁)
  -- Up to the end of the load only requests that read were sent; the batch is the first that is
  -- not.
  rcases importPath_cases himport with ⟨f, hfeed, -⟩ | ⟨r₁, w₄, hfeed, hends⟩
  · have hreaches := loading_feed limit (e := endpointOf settings)
      (r := { control := began o s, memory }) rfl rfl hpath w₂
    rw [hfeed] at hreaches
    obtain ⟨r₁, todo, ⟨s₁, stage, -, hloading⟩, -⟩ := hreaches
    obtain ⟨new, hnew, hreads⟩ := hloading.reads
    rw [hbegan] at hnew
    exact Or.inl ⟨_, new, hnew, hreads⟩
  obtain ⟨s₁, stage, hstage, hloading⟩ := loading_of_feed rfl rfl hpath hfeed
  obtain ⟨new, hnew, hreads⟩ := hloading.reads
  rw [hbegan] at hnew
  rcases hends with hunsent | ⟨s', w₅, hc, hw₅, hsubmitted⟩
  · exact Or.inl ⟨_, new, (replies_of_held hunsent).trans hnew, hreads⟩
  have hsame := replies_of_held hw₅
  obtain ⟨clips, takes, status, items, hloaded, -⟩ := hloading.of_loadResult hstage hc.loaded
  rcases sent_submitAndFollow (r := { r₁ with control := r₁.control.setSession s' })
    hloaded.tasks hloaded.poller (indexed_applyOptions hc.applied hloaded.indexed) hsubmitted with
    hunsent | ⟨answer, later, hlater, hsent⟩
  · exact Or.inl ⟨_, new, hunsent.trans (hsame.trans hnew), hreads⟩
  · rw [hsame] at hsent
    exact Or.inr ⟨{
      begun := w₁, unseen_begun := hw₁, memory := memory, remembered := w₂, remembers := hmemory
      first := s, describes := hs, path_ne := hpath, loaded := r₁, after := w₄, loads := hfeed
      session := s', cleared := hc }, answer, later, hlater, hsent⟩

/-! ## At most one batch -/

/-- What has to hold for a batch to be sent after these answers. -/
structure Permitted (e : Endpoint) (o : ImportOptions) (path : String) (q : Request)
    (clips status : Reply) : Prop where
  wet : o.dryRun = false
  batch : ∃ subdirectory batch, batch ≠ [] ∧ q = (Query.submit path subdirectory batch).request e
  selects : ∃ listed, clipsIn e path clips = .ok listed ∧
    ∀ name ∈ o.selects, ∃ clip ∈ listed, clip.name = .str name
  allowed : ∀ told, Job.told (lookIn e status) = .ok told →
    told.enabled = true ∧ (0 ≤ told.bytesCopied → told.active = false)

theorem Loaded.permitted (hloaded : Loaded e s clips takes status items c)
    (hc : Cleared o c s') :
    Permitted e o s.path ((batchQuery s').request e) clips status := by
  obtain ⟨⟨edited, rfl, -⟩, -⟩ := of_applyOptions hc.applied
  obtain ⟨-, -, hchecked⟩ := of_submittable hc.submittable
  have hpath : c.session.path = s.path := by
    have hbase := congrArg Session.path (Session.base_look (s.listed items) (lookIn e status))
    rw [hloaded.session]
    exact hbase
  refine ⟨hc.wet, ⟨c.session.subdirectory, Items.batch edited, batch_ne_nil hchecked, ?_⟩,
    hloaded.selects hc, fun told htold => hloaded.allowed hc htold⟩
  rw [← hpath]
  rfl

def IsRead (e : Endpoint) (r : Request) : Prop :=
  r.method = "GET" ∧ r.url ∈ [e.url "/source", e.url "/take/", e.url "/import"]

theorem isRead_of_mem_reads {path : String} {r : Request} (h : r ∈ reads e path) :
    IsRead e r := by
  simp only [reads, List.mem_cons, List.not_mem_nil, or_false] at h
  rcases h with rfl | rfl | rfl
  · exact ⟨rfl, List.mem_cons_self⟩
  · exact ⟨rfl, List.mem_cons_of_mem _ List.mem_cons_self⟩
  · exact ⟨rfl, List.mem_cons_of_mem _ (List.mem_cons_of_mem _ List.mem_cons_self)⟩

theorem IsRead.method_ne_post {r : Request} (h : IsRead e r) : r.method ≠ "POST" := by
  rw [h.1]
  decide

theorem isRead_status (e : Endpoint) : IsRead e (Query.status.request e) := by
  have hread : Query.status.request e ∈ reads e "" := by simp [reads]
  exact isRead_of_mem_reads hread

theorem isRead_of_mem_load {path : String} {p : Request × Reply}
    (hp : p ∈ (Query.status.request e, status) :: listings e path clips takes) : IsRead e p.1 := by
  have hmem : p.1 ∈ reads e path := by
    simp only [listings, List.mem_cons, List.not_mem_nil, or_false] at hp
    rcases hp with rfl | rfl | rfl <;> simp [reads]
  exact isRead_of_mem_reads hmem

theorem countP_post_eq_zero {replies : List (Request × Reply)}
    (h : ∀ p ∈ replies, IsRead e p.1) : (replies.countP fun p => p.1.method = "POST") = 0 := by
  rw [List.countP_eq_zero]
  intro p hp
  exact fun hpost => (h p hp).method_ne_post (of_decide_eq_true hpost)

/-- The one request of a run that is no read is that of the batch, and it follows the load. -/
theorem approach_of_post [Json.Nesting] {limit : Nat} {settings : Settings} {w w' : World σ}
    {result : Except Failure Exit} {later earlier : List (Request × Reply)} {q : Request}
    {answer : Reply} (h : runIn (importCommand limit settings o) w = (result, w'))
    (hreplies : w'.replies = later ++ (q, answer) :: (earlier ++ w.replies))
    (hpost : q.method = "POST") :
    ∃ a : Approach limit settings o w,
      (∀ p ∈ later, p.1 = Query.status.request (endpointOf settings)) ∧
      q = (batchQuery a.session).request (endpointOf settings) ∧
      a.after.replies = earlier ++ w.replies := by
  rcases approach_of_import h with ⟨path, new, hnew, hreads⟩ | ⟨a, answer', later', hlater, hsent⟩
  -- Without a batch all requests only read, and the request in question does not.
  · have hall : new ++ w.replies = (later ++ (q, answer) :: earlier) ++ w.replies := by
      rw [← hnew, hreplies, List.append_assoc, List.cons_append]
    have hq : (q, answer) ∈ new := by
      rw [List.append_cancel_right hall]
      exact List.mem_append_right _ List.mem_cons_self
    exact absurd hpost (isRead_of_mem_reads (hreads _ hq)).method_ne_post
  · obtain ⟨clips, takes, status, items, -, hafter⟩ := a.loading
    have hlooks : ∀ p ∈ later', p.1.method ≠ "POST" := by
      intro p hp
      rw [hlater p hp]
      exact (isRead_status _).method_ne_post
    have hall : (later' ++ ((batchQuery a.session).request (endpointOf settings), answer') ::
        (Query.status.request (endpointOf settings), status) ::
          listings (endpointOf settings) a.path clips takes) ++ w.replies =
        (later ++ (q, answer) :: earlier) ++ w.replies := by
      rw [hsent, hafter] at hreplies
      simpa only [List.append_assoc, List.cons_append] using hreplies
    -- Both splits are made at the only POST, so their parts are the same.
    obtain ⟨rfl, hbatch, rfl⟩ := split_at_post hlooks
      (fun p hp => (isRead_of_mem_load hp).method_ne_post) hpost (List.append_cancel_right hall)
    obtain ⟨rfl, -⟩ := Prod.mk.inj hbatch
    exact ⟨a, hlater, rfl, hafter⟩

/-- The requests of a run are reads, with one batch between them at most. -/
theorem requests_of_import [Json.Nesting] {limit : Nat} {settings : Settings} {w w' : World σ}
    {result : Except Failure Exit}
    (h : runIn (importCommand limit settings o) w = (result, w')) :
    ∃ new, w'.replies = new ++ w.replies ∧
      ((∀ p ∈ new, IsRead (endpointOf settings) p.1) ∨
        ∃ later batch earlier, new = later ++ batch :: earlier ∧
          (∀ p ∈ later, IsRead (endpointOf settings) p.1) ∧
          (∀ p ∈ earlier, IsRead (endpointOf settings) p.1) ∧
          batch.1.method = "POST" ∧ batch.1.url = (endpointOf settings).url "/import") := by
  rcases approach_of_import h with ⟨path, new, hnew, hreads⟩ | ⟨a, answer, later, hlater, hreplies⟩
  · exact ⟨new, hnew, Or.inl fun p hp => isRead_of_mem_reads (hreads p hp)⟩
  · obtain ⟨clips, takes, status, items, -, hafter⟩ := a.loading
    have hlooks : ∀ p ∈ later, IsRead (endpointOf settings) p.1 := by
      intro p hp
      rw [hlater p hp]
      exact isRead_status _
    refine ⟨later ++ ((batchQuery a.session).request (endpointOf settings), answer) ::
      (Query.status.request (endpointOf settings), status) ::
        listings (endpointOf settings) a.path clips takes, ?_, Or.inr ⟨later, _, _, rfl, hlooks,
          fun p hp => isRead_of_mem_load hp, rfl, rfl⟩⟩
    rw [hreplies, hafter, List.append_assoc]
    rfl

/-- A run of the command reads, and sends one batch at most. The batch comes after the load, and
only if it is permitted; after it there are only looks at the job. -/
theorem at_most_one_batch [Json.Nesting] (limit : Nat) (settings : Settings) (o : ImportOptions)
    (w : World σ) : ∃ new, (runIn (importCommand limit settings o) w).2.replies = new ++ w.replies ∧
      (∀ p ∈ new, IsRead (endpointOf settings) p.1 ∨
        p.1.method = "POST" ∧ p.1.url = (endpointOf settings).url "/import") ∧
      (new.countP fun p => p.1.method = "POST") ≤ 1 ∧
      ∀ later q answer earlier, new = later ++ (q, answer) :: earlier → q.method = "POST" →
        (∀ p ∈ later, p.1 = Query.status.request (endpointOf settings)) ∧
        ∃ path clips takes status,
          earlier = (Query.status.request (endpointOf settings), status) ::
            listings (endpointOf settings) path clips takes ∧
          Permitted (endpointOf settings) o path q clips status := by
  rcases hrun : runIn (importCommand limit settings o) w with ⟨result, w'⟩
  obtain ⟨new, hnew, hshape⟩ := requests_of_import hrun
  refine ⟨new, hnew, ?_, ?_, ?_⟩
  · intro p hp
    rcases hshape with hread | ⟨later, batch, earlier, rfl, hlater, hearlier, hmethod, hurl⟩
    · exact Or.inl (hread p hp)
    · rcases List.mem_append.mp hp with hp | hp
      · exact Or.inl (hlater p hp)
      · rcases List.mem_cons.mp hp with rfl | hp
        · exact Or.inr ⟨hmethod, hurl⟩
        · exact Or.inl (hearlier p hp)
  · rcases hshape with hread | ⟨later, batch, earlier, rfl, hlater, hearlier, -⟩
    · rw [countP_post_eq_zero hread]
      exact Nat.zero_le 1
    · rw [List.countP_append, countP_post_eq_zero hlater, List.countP_cons,
        countP_post_eq_zero hearlier]
      split <;> decide
  · rintro later q answer earlier rfl hpost
    rw [List.append_assoc, List.cons_append] at hnew
    obtain ⟨a, hlooks, rfl, hafter⟩ := approach_of_post hrun hnew hpost
    obtain ⟨clips, takes, status, items, hloaded, hload⟩ := a.loading
    rw [hafter] at hload
    exact ⟨hlooks, a.path, clips, takes, status, List.append_cancel_right hload,
      hloaded.permitted a.cleared⟩

/-- The request before the last of an import at the server of one clip is that of its batch. -/
theorem oneClip_sent : ∃ q answer,
    (oneClipRun [idleStatus, importedStatus]).2.replies[1]? = some (q, answer) ∧
      q.method = "POST" := by
  have hmethod : ((oneClipRun [idleStatus, importedStatus]).2.replies[1]?.map fun p =>
      p.1.method) = some "POST" := by decide +kernel
  obtain ⟨⟨q, answer⟩, hat, hpost⟩ := Option.map_eq_some_iff.mp hmethod
  exact ⟨q, answer, hat, hpost⟩

/-- An import at the server of one clip has its batch permitted by an idle status. -/
theorem at_most_one_batch_one_clip :
    ∃ later q answer path clips takes status,
      (oneClipRun [idleStatus, importedStatus]).2.replies =
        later ++ (q, answer) :: (Query.status.request (endpointOf {}), status) ::
          listings (endpointOf {}) path clips takes ∧
      q.method = "POST" ∧ (∀ p ∈ later, p.1 = Query.status.request (endpointOf {})) ∧
      Permitted (endpointOf {}) (importFrom "/a") path q clips status := by
  obtain ⟨new, hnew, -, -, hbatch⟩ :=
    at_most_one_batch 40 {} (importFrom "/a") (oneClipWorld [idleStatus, importedStatus])
  obtain ⟨q, answer, hat, hpost⟩ := oneClip_sent
  have hreplies : new = (oneClipRun [idleStatus, importedStatus]).2.replies := by
    rw [← List.append_nil new]
    exact hnew.symm
  have hsplit := hreplies.trans (eq_append_of_getElem? hat)
  obtain ⟨hlater, path, clips, takes, status, hearlier, hpermitted⟩ :=
    hbatch _ q answer _ hsplit hpost
  refine ⟨_, q, answer, path, clips, takes, status, ?_, hpost, hlater, hpermitted⟩
  rw [← hearlier]
  exact hreplies.symm.trans hsplit

end CardImport.Command
