import CardImport.Proofs.Session.Merge

/-!
# A merge as a list of marks

A status marks clip names, one after the other: the results in their order, and then the clip that
is being copied. What a merge does to a list follows from the marks and the index alone: an item
takes over the last mark whose name leads to its position, and keeps its state if there is none.
-/

namespace CardImport

/-- A state that a status gives to a clip name. -/
structure Mark where
  name : Json
  state : ItemState

def JobStatus.marks (status : JobStatus) : List Mark :=
  status.results.map (fun r => ⟨r.clip.name, Session.resultState r⟩) ++
    (status.pending.head?.map fun c => ⟨c.name, .active⟩).toList

/-- The state that marks give to a position at last. What stands behind a name that cannot be
looked up is not reached. -/
def NameIndex.lastMark (index : NameIndex) (p : Nat) : List Mark → Option ItemState
  | [] => none
  | m :: rest =>
    if m.name.isKey then
      (lastMark index p rest).or (if index.position? m.name = some p then some m.state else none)
    else none

def Items.marked (index : NameIndex) (marks : List Mark) (items : List Item) : List Item :=
  items.mapIdx fun p i => { i with state := (index.lastMark p marks).getD i.state }

/-- Whether all marks were reached. -/
def Mark.outcome (marks : List Mark) : Except Failure Unit :=
  if marks.all (·.name.isKey) then .ok () else .error .wrongType

namespace Items

theorem marked_nil (index : NameIndex) (items : List Item) : marked index [] items = items := by
  apply List.ext_getElem?
  intro p
  rw [marked, List.getElem?_mapIdx]
  cases items[p]? <;> rfl

theorem marked_cons {index : NameIndex} {m : Mark} (hm : m.name.isKey = true) (rest : List Mark)
    (items : List Item) :
    marked index (m :: rest) items = marked index rest (marked index [m] items) := by
  unfold marked
  rw [List.mapIdx_mapIdx]
  congr 1
  funext p i
  simp only [Function.comp, NameIndex.lastMark, if_pos hm, Option.none_or]
  cases index.lastMark p rest <;> rfl

theorem marked_cons_of_not_key {index : NameIndex} {m : Mark} (hm : m.name.isKey = false)
    (rest : List Mark) (items : List Item) : marked index (m :: rest) items = items := by
  have hnone : marked index (m :: rest) items = marked index [] items := by
    simp [marked, NameIndex.lastMark, hm]
  rw [hnone, marked_nil]

end Items

namespace Session

def markAll (s : Session) (marks : List Mark) : Session × Except Failure Unit :=
  ({ s with items := Items.marked s.index marks s.items }, Mark.outcome marks)

theorem mark_eq (s : Session) (m : Mark) : s.mark m.name m.state =
    if m.name.isKey then .ok (s.markAll [m]).1 else .error .wrongType := by
  have hitems : ∀ {items : List Item}, (∀ p, items[p]? = (s.items[p]?).map fun i : Item =>
      { i with state := (if s.find? m.name = some p then some m.state else none).getD i.state }) →
      m.name.isKey = true → items = Items.marked s.index [m] s.items := by
    intro items h hkey
    apply List.ext_getElem?
    intro p
    rw [h, Items.marked, List.getElem?_mapIdx]
    simp only [NameIndex.lastMark, hkey, if_true, Option.none_or]
    rfl
  unfold mark lookup
  cases hkey : m.name.isKey with
  | false => rfl
  | true =>
      cases hfound : s.find? m.name with
      | none =>
          have hsame : s.items = Items.marked s.index [m] s.items := by
            apply hitems _ hkey
            intro p
            simp [hfound]
          show Except.ok s = Except.ok (s.markAll [m]).1
          unfold markAll
          rw [← hsame]
      | some position =>
          have hmarked : (s.items.modify position fun i => { i with state := m.state }) =
              Items.marked s.index [m] s.items := by
            apply hitems _ hkey
            intro p
            rw [List.getElem?_modify, hfound]
            by_cases hp : position = p <;> simp [hp]
          show Except.ok { s with
            items := s.items.modify position fun i => { i with state := m.state } } =
              Except.ok (s.markAll [m]).1
          rw [hmarked]
          rfl

theorem markAll_nil (s : Session) : s.markAll [] = (s, .ok ()) := by
  unfold markAll
  rw [Items.marked_nil]
  rfl

theorem markAll_cons (s : Session) (m : Mark) (rest : List Mark) : s.markAll (m :: rest) =
    match s.mark m.name m.state with
    | .error f => (s, .error f)
    | .ok s => s.markAll rest := by
  rw [mark_eq]
  unfold markAll
  cases hkey : m.name.isKey with
  | false =>
      rw [Items.marked_cons_of_not_key hkey]
      simp [Mark.outcome, hkey]
  | true =>
      rw [Items.marked_cons hkey]
      simp [Mark.outcome, hkey]

/-- The results and the clip being copied are marked in one go. -/
theorem mergeResults_mergePending (s : Session) (results : List ClipResult)
    (pending : List Clip) :
    (match s.mergeResults results with
      | (s, .error e) => (s, .error e)
      | (s, .ok ()) => s.mergePending pending) =
      s.markAll (results.map (fun r => ⟨r.clip.name, resultState r⟩) ++
        (pending.head?.map fun c => (⟨c.name, .active⟩ : Mark)).toList) := by
  induction results generalizing s with
  | nil =>
      cases pending with
      | nil => exact (markAll_nil s).symm
      | cons c rest =>
          show s.mergePending (c :: rest) = s.markAll [⟨c.name, .active⟩]
          rw [markAll_cons]
          simp only [mergePending]
          cases hm : s.mark c.name .active with
          | error f => rfl
          | ok s' => exact (markAll_nil s').symm
  | cons r rest ih =>
      rw [List.map_cons, List.cons_append, markAll_cons]
      unfold mergeResults
      cases hm : s.mark r.clip.name (resultState r) with
      | error f => rfl
      | ok s' => exact ih s'

/-- Once it is known how far the job is, a merge does nothing but mark the list. -/
theorem merge_eq (s : Session) (status : JobStatus) : s.merge status =
    match Progress.ofStatus status with
    | .error e => ({ s with enabled := status.enabled }, .error (.number e))
    | .ok progress => (s.mergeJob status progress).markAll status.marks := by
  unfold merge
  cases Progress.ofStatus status with
  | error e => rfl
  | ok progress =>
      exact mergeResults_mergePending (s.mergeJob status progress) status.results status.pending

end Session

end CardImport
