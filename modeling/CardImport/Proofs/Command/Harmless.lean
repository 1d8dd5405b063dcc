import CardImport.Command.Import
import CardImport.Proofs.Failing
import CardImport.Proofs.Number.Range
import CardImport.Proofs.Session.Look
import CardImport.Proofs.Session.Run

/-!
# Tasks that end as a command can tell

A command waits for the tasks of its session and reports how they failed, if that is a failure meant
for the operator. No task ends in any other failure as long as each answer is one that the task that
waits for it can deal with, in whatever order the answers come.
-/

namespace CardImport

/-! ## Failures that are reported -/

/-- Whether a result is no failure, or one that is meant for the operator. -/
def Excused {α : Type} (x : Except Failure α) : Prop := FailsAs (fun f => f.kind.isReported = true) x

theorem isReported_of_isRemote {f : Failure} (h : f.isRemote = true) :
    f.kind.isReported = true := by
  rw [Failure.Kind.isReported, show f.kind.isRemote = true from h]
  rfl

/-! ## Merging -/

/-- A status that every session can merge, and whose progress can be shown. -/
structure JobStatus.Mergeable (status : JobStatus) : Prop where
  progress : ∃ p percent, Progress.ofStatus status = .ok p ∧ Progress.percentage? p = .ok percent
  results : ∀ r ∈ status.results, r.clip.name.isKey = true
  pending : ∀ c ∈ status.pending, c.name.isKey = true

namespace Session

theorem exists_mark {name : Json} (h : name.isKey = true) (s : Session) (state : ItemState) :
    ∃ s', s.mark name state = .ok s' := by
  unfold mark lookup
  rw [if_pos h]
  cases s.find? name with
  | none => exact ⟨_, rfl⟩
  | some position => exact ⟨_, rfl⟩

theorem mergeResults_of_keys {results : List ClipResult}
    (h : ∀ r ∈ results, r.clip.name.isKey = true) (s : Session) :
    (s.mergeResults results).2 = .ok () := by
  induction results generalizing s with
  | nil => rfl
  | cons r rest ih =>
      obtain ⟨s', hs'⟩ := exists_mark (h r List.mem_cons_self) s (resultState r)
      unfold mergeResults
      rw [hs']
      exact ih (fun r' hr' => h r' (List.mem_cons_of_mem _ hr')) s'

theorem mergePending_of_keys {pending : List Clip} (h : ∀ c ∈ pending, c.name.isKey = true)
    (s : Session) : (s.mergePending pending).2 = .ok () := by
  cases pending with
  | nil => rfl
  | cons c rest =>
      obtain ⟨s', hs'⟩ := exists_mark (h c List.mem_cons_self) s .active
      simp only [mergePending, hs']

theorem merge_of_mergeable {status : JobStatus} (h : status.Mergeable) (s : Session) :
    (s.merge status).2 = .ok () := by
  obtain ⟨p, percent, hp, -⟩ := h.progress
  have hresults := mergeResults_of_keys h.results (s.mergeJob status p)
  unfold merge
  simp only [hp]
  rcases hs : (s.mergeJob status p).mergeResults status.results with ⟨s', result⟩
  rw [hs] at hresults
  obtain rfl : result = .ok () := hresults
  exact mergePending_of_keys h.pending s'

/-! ## Waiting -/

/-- A session whose delays are binary numbers, and that looks at the job a few times only before it
gives up. -/
structure Patient (s : Session) : Prop where
  interval : ∃ x, s.pollInterval = .real x
  backoff : ∃ x, s.maxBackoff = .real x
  retries : ∃ n, s.maxRetries = .whole n ∧ n ≤ 20

theorem Patient.of_frame {s s' : Session} (h : s.Patient) (hs : s'.frame = s.frame) :
    s'.Patient := by
  have hinterval := congrArg Session.pollInterval hs
  have hbackoff := congrArg Session.maxBackoff hs
  have hretries := congrArg Session.maxRetries hs
  exact ⟨h.interval.imp fun _ => hinterval.trans, h.backoff.imp fun _ => hbackoff.trans,
    h.retries.imp fun _ => And.imp_left hretries.trans⟩

end Session

namespace Retry

theorem exists_delay {attempt : Int} (h : attempt ≤ 20) (x y : Binary64) :
    ∃ z, delay attempt (.real x) (.real y) = .ok (.real z) := by
  unfold delay
  split
  · exact ⟨x, rfl⟩
  · have hpower : (twoTo (attempt - 1).toNat : Int).natAbs < twoTo 1023 := by
      rw [Int.natAbs_natCast]
      exact twoTo_lt_twoTo (by omega)
    obtain ⟨z, hz⟩ := Number.exists_toBinary hpower
    have hdoubled : Number.mul (.real x) (.whole (twoTo (attempt - 1).toNat)) =
        .ok (.real (x.mul z)) := by
      simp only [Number.mul, Number.whole?, hz]
      rfl
    rw [hdoubled]
    by_cases hless : (Number.real (x.mul z)).lt (.real y) = true
    · exact ⟨x.mul z, congrArg Except.ok (if_pos hless)⟩
    · exact ⟨y, congrArg Except.ok (if_neg hless)⟩

end Retry

namespace Session

theorem Patient.waitStage {s : Session} (h : s.Patient) {failures : Nat}
    (hfailures : (failures : Int) ≤ 20) : Control.waitStage s failures = .waiting failures := by
  obtain ⟨x, hx⟩ := h.interval
  obtain ⟨y, hy⟩ := h.backoff
  have hdelay : ∃ z, Control.pollDelay s failures = .ok (.real z) := by
    unfold Control.pollDelay
    rw [hx, hy]
    split
    · exact ⟨x, rfl⟩
    · exact Retry.exists_delay hfailures x y
  obtain ⟨z, hz⟩ := hdelay
  have hcheck : Control.checkDelay (.real z) = .ok () := by
    unfold Control.checkDelay
    split <;> rfl
  unfold Control.waitStage
  rw [hz]
  simp only [hcheck]

end Session

namespace Control

/-! ## Looking at the job -/

/-- What the answer to a status request must be for every task that waits for one: it fails as a
request does, or it tells a status that can be merged. -/
structure Clear (r : Except Failure Response) : Prop where
  fails : FailsAs (fun f => f.isRemote = true) (Job.told r)
  merges : ∀ status, Job.told r = .ok status → status.Mergeable

theorem merge_of_mergeable {status : JobStatus} (h : status.Mergeable) (c : Control) :
    (c.merge status).2.2 = .ok () := by
  obtain ⟨p, percent, hp, hpercent⟩ := h.progress
  obtain ⟨items, hitems⟩ := Session.merge_of_progress (s := c.session) hp
  have hmerged := Session.merge_of_mergeable h c.session
  have hprogress : (c.session.merge status).1.progress = p := congrArg Session.progress hitems
  have hshown : c.reportable (c.session.merge status).1.progress = .ok () := by
    rw [hprogress]
    unfold reportable
    split
    · rw [hpercent]
      rfl
    · rfl
  unfold merge
  rcases hm : c.session.merge status with ⟨s, result⟩
  rw [hm] at hmerged hshown
  obtain rfl : result = .ok () := hmerged
  simp only [hshown]

/-- A look that is answered clearly fails as a request does, if it fails at all. -/
theorem failsAs_lookStatus {r : Except Failure Response} (h : Clear r) (c : Control) (n : Nat) :
    FailsAs (fun f => f.isRemote = true) (c.lookStatus n r) := by
  unfold lookStatus
  rcases receiveStatus_cases c n r with ⟨f, entries, hr, heq⟩ | ⟨status, entries, -, -, heq⟩ |
    ⟨status, entries, hr, -, heq⟩
  · rw [heq]
    exact FailsAs.error (h.fails f (congrArg Prod.fst hr))
  · rw [heq]
    exact failsAs_ok _
  · rw [heq, merge_of_mergeable (h.merges status (congrArg Prod.fst hr))]
    exact failsAs_ok _

end Control

/-! ## Tasks -/

/-- Whether a failure of a listing leaves an empty list. -/
def OfListing (f : Failure) : Prop := Control.isListingFailure f = true

/-- Whether a listing has failed in no other way than those that leave an empty list. -/
def LegStage.Harmless {α : Type} : LegStage α → Prop
  | .done result => FailsAs OfListing result
  | _ => True

/-- Whether a task has failed in no other way than those that a command reports. -/
def Task.Harmless : Task → Prop
  | .load (.listing _ _ clips takes) => clips.Harmless ∧ takes.Harmless
  | .load (.done result) => Excused result
  | .submit (.done (.error f)) => (Command.rejected f).kind.isReported = true
  | .poll _ _ (.done result) => Excused result
  | _ => True

/-- Whether an input is one that a task can deal with, if it is an answer to the task. -/
def Input.Suits : Input → Task → Prop
  | .response (.leg _ .clips) r, .load (.listing _ path _ _) =>
    FailsAs OfListing ((listClips path).finish r).outcome.1
  | .response (.leg _ .takes) r, _ => FailsAs OfListing (Registry.list.finish r).outcome.1
  | .response (.task _) r, .submit _ =>
    ∀ f, (Job.acceptance r).outcome.1 = .error f → (Command.rejected f).kind.isReported = true
  | .response (.task _) r, _ => Control.Clear r
  | _, _ => True

theorem failsAs_combine {clips : Except Failure (List Clip)} {takes : Except Failure (List Take)}
    (hclips : FailsAs OfListing clips) (htakes : FailsAs OfListing takes) (scene : Json)
    (path : String) : FailsAs OfListing (Reconcile.combine scene path clips takes).outcome.1 := by
  refine Noted.FailsAs.outcome ?_
  unfold Reconcile.combine
  refine Noted.FailsAs.bind_lift hclips fun clips _ => ?_
  refine Noted.FailsAs.bind_lift htakes fun takes _ => ?_
  refine Noted.FailsAs.bind_lift ?_ fun items _ => fun _ => failsAs_ok _
  unfold Reconcile.items
  split
  · exact failsAs_ok _
  · exact FailsAs.error rfl

namespace Control

theorem excused_loadEnd {status : Except Failure JobStatus}
    (h : FailsAs (fun f => f.isRemote = true) status) : Excused (loadEnd status).1 := by
  cases status with
  | ok status => exact failsAs_ok ()
  | error f =>
      rw [loadEnd, if_pos (h f rfl)]
      exact failsAs_ok ()

theorem Turn.harmless {c : Control} {id : TaskId} {i : Input} {t t' : Task} {s : Session}
    {actions : List Action} (h : Turn c id i t s t' actions) (hpatient : c.session.Patient)
    (hi : i.Suits t) (ht : t.Harmless) : t'.Harmless := by
  cases h with
  | loadEmpty | loadBegins | clipsAsked | takesAsked | listShown | listFailed | submitSends
  | refreshAsks | refreshEnds | pollAsks => trivial
  | clipsListed hclips =>
      refine ⟨?_, ht.2⟩
      rw [Input.Suits, hclips] at hi
      exact hi
  | takesListed htakes =>
      refine ⟨ht.1, ?_⟩
      rw [Input.Suits, htakes] at hi
      exact hi
  | listDropped => exact failsAs_ok ()
  -- Listings that are told of cannot combine to a failure that is not.
  | listBroken hlist hf =>
      have hlisting := failsAs_combine ht.1 ht.2 _ _ _ (congrArg Prod.fst hlist)
      rw [OfListing, hf] at hlisting
      cases hlisting
  | loadEnds => exact excused_loadEnd (failsAs_lookStatus hi c _)
  | submitRefused hr => exact hi _ (congrArg Prod.fst hr)
  | pollWaits =>
      rw [hpatient.waitStage (by decide)]
      trivial
  | pollLeaves | pollHalted | pollIdle | pollGivesUp => exact failsAs_ok ()
  | pollGoesOn =>
      rw [(hpatient.of_frame (lookSession_frame c _ _)).waitStage (by decide)]
      trivial
  | pollBroken hr hf =>
      have hremote : Failure.isRemote _ = true := failsAs_lookStatus hi c _ _ hr
      rw [hf] at hremote
      cases hremote
  -- Looks are repeated no more often than the settings say, so the next wait is a short one.
  | @pollRetries n stopped failures r f hr hf hlast =>
      have hlook := hpatient.of_frame (lookSession_frame c n r)
      obtain ⟨retries, hretries, hfew⟩ := hlook.retries
      have hmore : ((failures + 1 : Nat) : Int) ≤ retries := by
        rw [isLastFailure, hretries, Bool.or_eq_false_iff] at hlast
        rw [← not_lt, ← Number.lt_whole, hlast.2]
        exact Bool.false_ne_true
      rw [hlook.waitStage (hmore.trans hfew)]
      trivial

/-- Whether all tasks have failed, if at all, in ways that a command reports. -/
def Harmless (c : Control) : Prop := ∀ {j t}, c.task? j = some t → t.Harmless

/-- A step leaves all tasks harmless if its input suits those that are not done. -/
theorem Move.harmless {c c' : Control} {i : Input} {actions : List Action}
    (h : Move c i c' actions) (hpatient : c.session.Patient)
    (hi : ∀ {j t}, c.task? j = some t → t.isDone = false → i.Suits t) (hc : c.Harmless) :
    c'.Harmless := by
  refine h.all_tasks (P := fun _ t => (t.isDone = false → i.Suits t) ∧ t.Harmless)
    (Q := fun _ t => t.Harmless) ?_ ?_ fun ht => ⟨hi ht, hc ht⟩
  · intro j t hnew
    cases hnew <;> trivial
  · rintro j t t' hbecame ⟨hsuited, ht⟩
    cases hbecame with
    | same => exact ht
    | turned hturn => exact hturn.harmless hpatient (hsuited hturn.not_isDone) ht
    | stopped =>
        cases t with
        | poll n stopped stage => cases stage <;> exact ht
        | _ => exact ht
    | accepted => trivial

theorem Move.patient {c c' : Control} {i : Input} {actions : List Action}
    (h : Move c i c' actions) (hc : c.session.Patient) : c'.session.Patient := by
  have hsettings := h.settings
  simp only [Control.settings, Prod.mk.injEq] at hsettings
  obtain ⟨-, hinterval, hretries, hbackoff⟩ := hsettings
  exact ⟨hc.interval.imp fun _ => hinterval.trans, hc.backoff.imp fun _ => hbackoff.trans,
    hc.retries.imp fun _ => And.imp_left hretries.trans⟩

end Control

namespace Command

/-! ## What a command waits for -/

theorem excused_loadResult {c : Control} (h : c.Harmless) {result : Except Failure Unit}
    (ht : c.task? 0 = some (.load (.done result))) : Excused (loadResult c) := by
  unfold loadResult
  rw [ht]
  exact h ht

theorem excused_submitResult {c : Control} (h : c.Harmless)
    (hended : (∃ f, c.task? 1 = some (.submit (.done (.error f)))) ∨
      c.task? 1 = some (.submit (.done (.ok 2))) ∧
        ∃ n stopped result, c.task? 2 = some (.poll n stopped (.done result))) :
    Excused (submitResult c) := by
  unfold submitResult
  rcases hended with ⟨f, ht⟩ | ⟨ht, n, stopped, result, hpoll⟩
  · rw [ht]
    exact FailsAs.error (h ht)
  · rw [ht]
    simp only [hpoll]
    exact h hpoll

end Command

end CardImport
