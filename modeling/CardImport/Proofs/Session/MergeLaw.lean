import CardImport.Proofs.Session.Snapshot
import CardImport.Proofs.Session.Told
import CardImport.Rehearsal.Schedule

/-!
# The law of a merge

All that a merge does to a session and its list. The first item of each name hears the status, and
every later item of that name keeps its state. Nothing else of the list changes, and of the session
only what the status says about the job. The merge is reported once, when all of this is done.
-/

namespace CardImport

namespace NameIndex

/-- No mark reaches an item that is not the first of its name. -/
theorem lastMark_of_not_isFirst {items : List Item} {p : Nat} {i : Item} (hi : items[p]? = some i)
    (hlater : ¬ Items.IsFirst items p i.clip.name) (marks : List Mark) :
    (ofItems items).lastMark p marks = none := by
  induction marks with
  | nil => rfl
  | cons m rest ih =>
      unfold lastMark
      by_cases hkey : m.name.isKey = true
      · have hmiss : ¬ position? m.name (ofItems items) = some p := by
          rw [position?_ofItems_eq_some_iff hkey hi]
          exact fun hfound => hlater hfound.2
        rw [if_pos hkey, ih, if_neg hmiss]
        rfl
      · rw [if_neg hkey]

end NameIndex

namespace Items

theorem marked_at {index : NameIndex} {marks : List Mark} {items : List Item} {p : Nat} {i : Item}
    (hi : items[p]? = some i) : (marked index marks items)[p]? =
      some { i with state := (index.lastMark p marks).getD i.state } := by
  rw [marked, List.getElem?_mapIdx, hi]
  rfl

end Items

namespace Session

/-- Once it is known how far the job is, and no name is an array or object, a merge marks the list
and goes through. -/
theorem merge_of_keys (s : Session) {status : JobStatus} {progress : Number}
    (hprogress : Progress.ofStatus status = .ok progress)
    (hkeys : status.marks.all (·.name.isKey) = true) : s.merge status =
      ({ s.mergeJob status progress with items := Items.marked s.index status.marks s.items },
        .ok ()) := by
  rw [merge_eq, hprogress]
  show (s.mergeJob status progress).markAll status.marks = _
  unfold markAll Mark.outcome
  rw [if_pos hkeys]
  rfl

end Session

namespace Control

/-- What comes of reporting that a status was merged: the report, unless there is no percentage to
show. -/
def report (c : Control) (status : JobStatus) (progress : Number) :
    List Action × Except Failure Unit :=
  match c.reportable progress with
  | .ok () => ([.merged status], .ok ())
  | .error e => ([], .error (.number e))

/-- A merge that goes through is reported once, with the session as it is then. -/
theorem merge_of_merged {c : Control} {status : JobStatus} {s : Session}
    (h : c.session.merge status = (s, .ok ())) :
    c.merge status = (c.setSession s, c.report status s.progress) := by
  unfold merge report
  rw [h]
  cases hreport : c.reportable s.progress with
  | ok _ => simp only [hreport]
  | error e => simp only [hreport]

/-- Merging a status that says how far the job is into any list. Of each name the first item hears
the status: it is active if the first pending clip has its name, and otherwise it ended as the last
result with its name says, if there is one. All later items of the name keep their states, and all
items keep their places and all else. The session takes over what the status says about the job and
keeps all else. When this is done the merge is reported once, so the report shows the list as it is
then; a report that fails is the only way in which the merge can fail. -/
theorem merge_law (c : Control) (items : List Item) (status : JobStatus) (progress : Number)
    (hprogress : Progress.ofStatus status = .ok progress)
    (hkeys : status.marks.all (·.name.isKey) = true) :
    ∃ later : List Item,
      (c.setSession (c.session.install items)).merge status =
          (c.setSession { c.session.install items with
            items := later
            enabled := status.enabled
            progress := progress
            eta := if status.active then status.eta else none
            lastStatus := some status }, c.report status progress) ∧
        later.length = items.length ∧
        (∀ p i, items[p]? = some i →
          (Items.IsFirst items p i.clip.name → later[p]? = some (i.hear status)) ∧
          (¬ Items.IsFirst items p i.clip.name → later[p]? = some i)) ∧
        ∀ (r : Rehearsal) (fuel : Nat),
          r.control = ((c.setSession (c.session.install items)).merge status).1 →
          c.reportable progress = .ok () →
          (r.perform (fuel + 2)
              ((c.setSession (c.session.install items)).merge status).2.1).happened =
            .merged r.control.session.state.name progress (later.map Item.state) ::
              r.happened := by
  have hmerge := (c.session.install items).merge_of_keys hprogress hkeys
  have hindexed : (c.session.install items).Indexed := rfl
  have hreported := merge_of_merged (c := c.setSession (c.session.install items)) hmerge
  -- The items are those that one pass over all marks leaves, each reached by its index.
  refine ⟨Items.marked (.ofItems items) status.marks items, hreported, List.length_mapIdx, ?_, ?_⟩
  · intro p i hi
    constructor
    · intro hfirst
      exact Session.merge_at hindexed hmerge hi hfirst
    · intro hlater
      rw [Items.marked_at hi, NameIndex.lastMark_of_not_isFirst hi hlater]
      rfl
  · intro r fuel hr hreport
    rw [hreported] at hr ⊢
    -- Progress that can be reported leaves one action, which records the merge.
    have hactions : (c.report status progress).1 = [.merged status] := by
      unfold report
      rw [hreport]
    show (r.perform (fuel + 2) (c.report status progress).1).happened = _
    rw [hactions]
    show r.merged :: r.happened = _
    unfold Rehearsal.merged
    rw [hr]
    rfl

/-- A status in which the clip being copied ended before, one result takes back another, and a clip
is named that no list has. -/
def contested : JobStatus where
  enabled := false
  active := true
  results := [⟨{ name := .str "a" }, .null, none, none⟩,
    ⟨{ name := .str "b" }, .null, none, none⟩,
    ⟨{ name := .str "d" }, .null, none, none⟩,
    ⟨{ name := .str "b" }, .str "unreadable", none, none⟩]
  pending := [{ name := .str "a" }, { name := .str "c" }]

theorem merge_law_contested :
    Progress.ofStatus contested = .ok (.real (Binary64.zero false)) ∧
      contested.marks.all (·.name.isKey) = true ∧
      ∃ later : List Item,
        ((({} : Control).setSession mixedList).merge contested).1.session.items = later ∧
          ((({} : Control).setSession mixedList).merge contested).2 =
            ([.merged contested], .ok ()) ∧
          later[3]? = mixedList.items[3]? ∧
          later.map Item.state = [.active, .ready, .error, .ready] := by
  have hprogress : Progress.ofStatus contested = .ok (.real (Binary64.zero false)) := rfl
  have hkeys : contested.marks.all (·.name.isKey) = true := rfl
  obtain ⟨later, hmerge, -, hat, -⟩ :=
    merge_law {} mixedList.items contested (.real (Binary64.zero false)) hprogress hkeys
  have hitems : ((({} : Control).setSession mixedList).merge contested).1.session.items = later :=
    congrArg (fun m => m.1.session.items) hmerge
  have hsecond : ¬ Items.IsFirst mixedList.items 3 (.str "b") := by
    intro hfirst
    exact absurd (hfirst 2 (by decide) _ rfl) (by decide)
  have hstates : ((({} : Control).setSession mixedList).merge contested).1.session.items.map
      Item.state = [.active, .ready, .error, .ready] := by decide +kernel
  refine ⟨hprogress, hkeys, later, hitems, congrArg Prod.snd hmerge, (hat 3 _ rfl).2 hsecond, ?_⟩
  rw [← hitems]
  exact hstates

end Control

end CardImport
