import CardImport.Session.Basic

/-!
# Merging a status

What a merge leaves as it is. A status tells whether a job runs, how far it is and which items are
done; the list, its index and the session itself are not its business.
-/

namespace CardImport

/-- An item without its state. -/
def Item.plain (i : Item) : Item := { i with state := .ready }

theorem Items.map_modify {α : Type} {g : Item → α} {f : Item → Item} (hf : ∀ i, g (f i) = g i)
    (items : List Item) (position : Nat) : (items.modify position f).map g = items.map g := by
  apply List.ext_getElem?
  intro p
  rw [List.getElem?_map, List.getElem?_map, List.getElem?_modify]
  cases items[p]? with
  | none => rfl
  | some i => by_cases hp : position = p <;> simp [hp, hf]

namespace Session

/-- A session without what a status tells: all that a merge leaves as it is. -/
def base (s : Session) : Session :=
  { s with
    enabled := true
    progress := Progress.inactive
    eta := none
    lastStatus := none
    items := s.items.map Item.plain }

theorem base_mark {s s' : Session} {name : Json} {state : ItemState}
    (h : s.mark name state = .ok s') : s'.base = s.base := by
  unfold mark at h
  cases hl : s.lookup name with
  | error f =>
      rw [hl] at h
      cases h
  | ok found =>
      rw [hl] at h
      cases found with
      | none =>
          cases h
          rfl
      | some position =>
          cases h
          unfold base
          congr 1
          exact Items.map_modify (g := Item.plain) (f := fun i => { i with state })
            (fun i => rfl) s.items position

theorem base_mergeResults (s : Session) (results : List ClipResult) :
    (s.mergeResults results).1.base = s.base := by
  induction results generalizing s with
  | nil => rfl
  | cons r rest ih =>
      unfold mergeResults
      cases hm : s.mark r.clip.name (resultState r) with
      | error f => rfl
      | ok s' => exact (ih s').trans (base_mark hm)

theorem base_mergePending (s : Session) (pending : List Clip) :
    (s.mergePending pending).1.base = s.base := by
  cases pending with
  | nil => rfl
  | cons c rest =>
      simp only [mergePending]
      cases hm : s.mark c.name .active with
      | error f => rfl
      | ok s' => exact base_mark hm

theorem base_merge (s : Session) (status : JobStatus) : (s.merge status).1.base = s.base := by
  unfold merge
  cases Progress.ofStatus status with
  | error e => rfl
  | ok progress =>
      have hresults := base_mergeResults (s.mergeJob status progress) status.results
      rcases hs : (s.mergeJob status progress).mergeResults status.results with ⟨s', _ | _⟩
      · simp only [hs] at hresults ⊢
        exact hresults
      · simp only [hs] at hresults ⊢
        exact (base_mergePending s' status.pending).trans hresults

/-- A session without its list and without what it knows of the job: what only the operator
changes. -/
def frame (s : Session) : Session :=
  { s.base with items := [], index := [], loading := false }

theorem frame_of_base {s s' : Session} (h : s.base = s'.base) : s.frame = s'.frame :=
  congrArg (fun b : Session => { b with items := [], index := [], loading := false }) h

/-! ## Merges that fail -/

theorem not_isRemote_number (e : NumberError) : (Failure.number e).isRemote = false := by
  cases e <;> rfl

theorem not_isRemote_mark {s : Session} {name : Json} {state : ItemState} {f : Failure}
    (h : s.mark name state = .error f) : f.isRemote = false := by
  unfold mark lookup at h
  split at h
  · cases hl : s.find? name <;> rw [hl] at h <;> cases h
  · cases h
    rfl

theorem not_isRemote_mergeResults {s : Session} {results : List ClipResult} {f : Failure}
    (h : (s.mergeResults results).2 = .error f) : f.isRemote = false := by
  induction results generalizing s with
  | nil => cases h
  | cons r rest ih =>
      unfold mergeResults at h
      cases hm : s.mark r.clip.name (resultState r) with
      | error e =>
          rw [hm] at h
          cases h
          exact not_isRemote_mark hm
      | ok s' =>
          rw [hm] at h
          exact ih h

theorem not_isRemote_merge {s : Session} {status : JobStatus} {f : Failure}
    (h : (s.merge status).2 = .error f) : f.isRemote = false := by
  -- A merge fails at a number or at a name, and neither failure comes from the server.
  unfold merge at h
  cases hprogress : Progress.ofStatus status with
  | error e =>
      rw [hprogress] at h
      cases h
      exact not_isRemote_number e
  | ok progress =>
      rw [hprogress] at h
      rcases hresults : (s.mergeJob status progress).mergeResults status.results with ⟨s', e | _⟩
      · simp only [hresults] at h
        cases h
        exact not_isRemote_mergeResults (congrArg Prod.snd hresults)
      · simp only [hresults] at h
        unfold mergePending at h
        cases hpending : status.pending with
        | nil =>
            rw [hpending] at h
            cases h
        | cons c rest =>
            rw [hpending] at h
            cases hm : s'.mark c.name .active with
            | error e =>
                simp only [hm] at h
                cases h
                exact not_isRemote_mark hm
            | ok s'' =>
                simp only [hm] at h
                cases h

end Session

end CardImport
