import CardImport.Proofs.Session.Turn

/-!
# Looking at the job

What the answer to a status request tells, and what a session takes over from it: a status sets
what is known of the job as a whole, and marks the items that it names. An answer that tells no
status, or comes in another session, sets nothing.
-/

namespace CardImport

/-- What the answer to a status request tells. -/
def Job.told (r : Except Failure Response) : Except Failure JobStatus :=
  (Job.status.finish r).outcome.1

namespace Session

/-- What a session knows of the job as a whole. -/
def job (s : Session) : Bool × Number × Option Timestamp := (s.enabled, s.progress, s.eta)

/-! ## Merging a status -/

theorem mark_items {s s' : Session} {name : Json} {state : ItemState}
    (h : s.mark name state = .ok s') : ∃ items, s' = { s with items } := by
  unfold mark at h
  cases hl : s.lookup name with
  | error f =>
      rw [hl] at h
      cases h
  | ok found =>
      rw [hl] at h
      cases found with
      | none =>
          cases h
          exact ⟨s.items, rfl⟩
      | some position =>
          cases h
          exact ⟨_, rfl⟩

theorem mergeResults_items (s : Session) (results : List ClipResult) :
    ∃ items, (s.mergeResults results).1 = { s with items } := by
  induction results generalizing s with
  | nil => exact ⟨s.items, rfl⟩
  | cons r rest ih =>
      unfold mergeResults
      cases hm : s.mark r.clip.name (resultState r) with
      | error f => exact ⟨s.items, rfl⟩
      | ok s' =>
          obtain ⟨marked, rfl⟩ := mark_items hm
          obtain ⟨items, h⟩ := ih { s with items := marked }
          exact ⟨items, h⟩

theorem mergePending_items (s : Session) (pending : List Clip) :
    ∃ items, (s.mergePending pending).1 = { s with items } := by
  cases pending with
  | nil => exact ⟨s.items, rfl⟩
  | cons c rest =>
      simp only [mergePending]
      cases hm : s.mark c.name .active with
      | error f => exact ⟨s.items, rfl⟩
      | ok s' => exact mark_items hm

/-- A status whose progress is known sets what is known of the job, also when the merge fails at an
item later on. -/
theorem merge_of_progress {s : Session} {status : JobStatus} {progress : Number}
    (hp : Progress.ofStatus status = .ok progress) :
    ∃ items, (s.merge status).1 = { s.mergeJob status progress with items } := by
  unfold merge
  simp only [hp]
  obtain ⟨items, hresults⟩ := mergeResults_items (s.mergeJob status progress) status.results
  rcases hs : (s.mergeJob status progress).mergeResults status.results with ⟨s', _ | _⟩
  · rw [hs] at hresults
    exact ⟨items, hresults⟩
  · rw [hs] at hresults
    obtain ⟨later, hpending⟩ := mergePending_items s' status.pending
    refine ⟨later, hpending.trans ?_⟩
    rw [show s' = _ from hresults]

theorem merge_of_no_progress {s : Session} {status : JobStatus} {e : NumberError}
    (hp : Progress.ofStatus status = .error e) :
    s.merge status = ({ s with enabled := status.enabled }, .error (.number e)) := by
  simp only [merge, hp]

/-! ## What a merge reads -/

/-- Sessions with the same list. -/
def SameList (s s' : Session) : Prop := s.items = s'.items ∧ s.index = s'.index

/-- A mark reads nothing but the list. -/
theorem SameList.mark {s s' : Session} (h : s.SameList s') (name : Json) (state : ItemState) :
    (∃ f, s.mark name state = .error f ∧ s'.mark name state = .error f) ∨
      ∃ t t', s.mark name state = .ok t ∧ s'.mark name state = .ok t' ∧ t.SameList t' := by
  obtain ⟨hitems, hindex⟩ := h
  unfold Session.mark
  have hlookup : s'.lookup name = s.lookup name := by
    simp only [lookup, find?, hindex]
  rw [hlookup]
  cases s.lookup name with
  | error f => exact Or.inl ⟨f, rfl, rfl⟩
  | ok found =>
      cases found with
      | none => exact Or.inr ⟨s, s', rfl, rfl, hitems, hindex⟩
      | some position =>
          refine Or.inr ⟨_, _, rfl, rfl, ?_, hindex⟩
          show s.items.modify position _ = s'.items.modify position _
          rw [hitems]

theorem SameList.mergeResults {s s' : Session} (h : s.SameList s') (results : List ClipResult) :
    (s.mergeResults results).1.SameList (s'.mergeResults results).1 ∧
      (s.mergeResults results).2 = (s'.mergeResults results).2 := by
  induction results generalizing s s' with
  | nil => exact ⟨h, rfl⟩
  | cons r rest ih =>
      unfold Session.mergeResults
      rcases h.mark r.clip.name (resultState r) with ⟨f, hs, hs'⟩ | ⟨t, t', hs, hs', ht⟩
      · rw [hs, hs']
        exact ⟨h, rfl⟩
      · rw [hs, hs']
        exact ih ht

theorem SameList.mergePending {s s' : Session} (h : s.SameList s') (pending : List Clip) :
    (s.mergePending pending).1.SameList (s'.mergePending pending).1 := by
  cases pending with
  | nil => exact h
  | cons c rest =>
      simp only [Session.mergePending]
      rcases h.mark c.name .active with ⟨f, hs, hs'⟩ | ⟨t, t', hs, hs', ht⟩
      · rw [hs, hs']
        exact h
      · rw [hs, hs']
        exact ht

theorem SameList.merge {s s' : Session} (h : s.SameList s') (status : JobStatus) :
    (s.merge status).1.SameList (s'.merge status).1 := by
  unfold Session.merge
  cases Progress.ofStatus status with
  | error e => exact h
  | ok progress =>
      have hjob : (s.mergeJob status progress).SameList (s'.mergeJob status progress) := h
      obtain ⟨hlist, hresult⟩ := hjob.mergeResults status.results
      rcases hs : (s.mergeJob status progress).mergeResults status.results with ⟨t, result⟩
      rcases hs' : (s'.mergeJob status progress).mergeResults status.results with ⟨t', result'⟩
      rw [hs, hs'] at hlist hresult
      obtain rfl : result = result' := hresult
      simp only [hs, hs']
      cases result with
      | error f => exact hlist
      | ok _ => exact hlist.mergePending status.pending

theorem progress_of_merged {s : Session} {status : JobStatus} (h : (s.merge status).2 = .ok ()) :
    ∃ progress, Progress.ofStatus status = .ok progress := by
  cases hp : Progress.ofStatus status with
  | ok progress => exact ⟨progress, rfl⟩
  | error e =>
      rw [merge_of_no_progress hp] at h
      cases h

/-- The session after an answer to its own look. -/
def look (s : Session) (r : Except Failure Response) : Session :=
  match Job.told r with
  | .ok status => (s.merge status).1
  | .error _ => s

theorem base_look (s : Session) (r : Except Failure Response) : (s.look r).base = s.base := by
  unfold look
  cases Job.told r with
  | error f => rfl
  | ok status => exact base_merge s status

theorem loading_look (s : Session) (r : Except Failure Response) :
    (s.look r).loading = s.loading := by
  have h := congrArg Session.loading (base_look s r)
  exact h

theorem SameList.look {s s' : Session} (h : s.SameList s') (r : Except Failure Response) :
    (s.look r).SameList (s'.look r) := by
  unfold Session.look
  split
  · exact h.merge _
  · exact h

/-- What is known of the job after a look: what was told, or else what was known before. -/
theorem job_look_of_untold {s : Session} {r : Except Failure Response} {f : Failure}
    (hr : Job.told r = .error f) : (s.look r).job = s.job := by
  rw [look, hr]

theorem job_look_of_told {s : Session} {r : Except Failure Response} {status : JobStatus}
    (hr : Job.told r = .ok status) {progress : Number}
    (hp : Progress.ofStatus status = .ok progress) :
    (s.look r).job = (status.enabled, progress, if status.active then status.eta else none) := by
  obtain ⟨items, h⟩ := merge_of_progress (s := s) hp
  rw [look, hr]
  exact congrArg job h

end Session

namespace Control

/-! ## The answer to a look -/

theorem look_of_untold {c : Control} {n : Nat} {r : Except Failure Response} {f : Failure}
    (hr : Job.told r = .error f) : c.lookSession n r = c.session ∧ c.lookStatus n r = .error f := by
  unfold Job.told at hr
  unfold lookSession lookStatus receiveStatus
  rcases ho : (Job.status.finish r).outcome with ⟨result, entries⟩
  rw [ho] at hr
  simp only [show result = .error f from hr, and_self]

/-- A status that comes in another session is handed on and changes nothing. -/
theorem look_of_late {c : Control} {n : Nat} {r : Except Failure Response} {status : JobStatus}
    (hr : Job.told r = .ok status) (hn : n ≠ c.session.number) :
    c.lookSession n r = c.session ∧ c.lookStatus n r = .ok status := by
  unfold Job.told at hr
  unfold lookSession lookStatus receiveStatus
  rcases ho : (Job.status.finish r).outcome with ⟨result, entries⟩
  rw [ho] at hr
  simp only [show result = .ok status from hr, if_neg hn, and_self]

/-- A status is merged in the session that asked for it. It is handed on if this went through. -/
theorem look_of_told {c : Control} {n : Nat} {r : Except Failure Response} {status : JobStatus}
    (hr : Job.told r = .ok status) (hn : n = c.session.number) :
    c.lookSession n r = (c.session.merge status).1 ∧
      ((∃ f, f.isRemote = false ∧ c.lookStatus n r = .error f) ∨
        (c.session.merge status).2 = .ok () ∧ c.lookStatus n r = .ok status) := by
  unfold Job.told at hr
  unfold lookSession lookStatus receiveStatus
  rcases ho : (Job.status.finish r).outcome with ⟨result, entries⟩
  rw [ho] at hr
  simp only [show result = .ok status from hr, if_pos hn]
  rcases merge_cases c status with ⟨f, hf, hm⟩ | ⟨hmerged, hm⟩
  · rw [hm]
    exact ⟨rfl, Or.inl ⟨f, hf, rfl⟩⟩
  · rw [hm]
    exact ⟨rfl, Or.inr ⟨hmerged, rfl⟩⟩

theorem lookSession_eq {c : Control} {n : Nat} (hn : n = c.session.number)
    (r : Except Failure Response) : c.lookSession n r = c.session.look r := by
  unfold Session.look
  cases hr : Job.told r with
  | error f => exact (look_of_untold hr).1
  | ok status => exact (look_of_told hr hn).1

theorem told_of_lookStatus_ok {c : Control} {n : Nat} {r : Except Failure Response}
    {status : JobStatus} (hr : c.lookStatus n r = .ok status) : Job.told r = .ok status := by
  cases ht : Job.told r with
  | error f => cases (look_of_untold ht).2.symm.trans hr
  | ok told =>
      by_cases hn : n = c.session.number
      · rcases (look_of_told ht hn).2 with ⟨f, -, h⟩ | ⟨-, h⟩
        · cases h.symm.trans hr
        · exact h.symm.trans hr
      · exact (look_of_late ht hn).2.symm.trans hr

/-- A status that is handed on in the session that asked for it was merged, all of it. -/
theorem merged_of_lookStatus_ok {c : Control} {n : Nat} {r : Except Failure Response}
    {status : JobStatus} (hr : c.lookStatus n r = .ok status) (hn : n = c.session.number) :
    c.lookSession n r = (c.session.merge status).1 ∧ (c.session.merge status).2 = .ok () := by
  obtain ⟨hs, ⟨f, -, h⟩ | ⟨hmerged, -⟩⟩ := look_of_told (told_of_lookStatus_ok hr) hn
  · cases h.symm.trans hr
  · exact ⟨hs, hmerged⟩

theorem told_of_remote {c : Control} {n : Nat} {r : Except Failure Response} {f : Failure}
    (hr : c.lookStatus n r = .error f) (hf : f.isRemote = true) : Job.told r = .error f := by
  cases ht : Job.told r with
  | error f' => exact (look_of_untold ht).2.symm.trans hr
  | ok status =>
      by_cases hn : n = c.session.number
      · rcases (look_of_told ht hn).2 with ⟨f', hf', h⟩ | ⟨-, h⟩
        · cases h.symm.trans hr
          exact absurd hf (by rw [hf']; exact Bool.false_ne_true)
        · cases h.symm.trans hr
      · cases (look_of_late ht hn).2.symm.trans hr

end Control

end CardImport
