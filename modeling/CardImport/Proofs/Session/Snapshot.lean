import CardImport.Proofs.Session.Marks
import Mathlib.Data.List.Induction

/-!
# Snapshots of a job

A job imports its clips one after the other, and a status of it is a snapshot: the clips that have
ended, and behind them those that have not. A later snapshot names all that an earlier one named,
so it overwrites whatever the earlier one left behind. How often the job is looked at makes no
difference to the list.
-/

namespace CardImport

/-- A clip of a job, and whether its import ends well. -/
structure JobPart where
  clip : Clip
  succeeds : Bool

/-- A status of a job whose first clips are done. What it says about bytes and times may be
anything. -/
structure Snapshot (job : List JobPart) where
  done : Nat
  status : JobStatus
  results : status.results.map (fun r => ⟨r.clip, r.succeeded⟩) = job.take done
  pending : status.pending = (job.drop done).map JobPart.clip

/-- Whether a status says how far the job is: its progress is not too large for a number. -/
def JobStatus.isMeasured (status : JobStatus) : Bool := (Progress.ofStatus status).isOk

def Session.mergeAll (s : Session) (statuses : List JobStatus) : Session :=
  statuses.foldl (fun s status => (s.merge status).1) s

/-! ## Names of a snapshot -/

theorem Snapshot.map_name_marks {job : List JobPart} (x : Snapshot job) :
    x.status.marks.map Mark.name = (job.take (x.done + 1)).map fun part => part.clip.name := by
  have hresults : x.status.results.map (fun r => r.clip.name) =
      (job.take x.done).map fun part => part.clip.name := by
    rw [← x.results, List.map_map]
    rfl
  have hpending : x.status.pending.head? = (job[x.done]?).map JobPart.clip := by
    rw [x.pending, List.head?_map, List.head?_drop]
  unfold JobStatus.marks
  rw [List.map_append, List.map_map, hpending, List.take_add_one, List.map_append, ← hresults]
  congr 1
  cases job[x.done]? <;> rfl

theorem Snapshot.names_prefix {job : List JobPart} {x y : Snapshot job} (h : x.done ≤ y.done) :
    x.status.marks.map Mark.name <+: y.status.marks.map Mark.name := by
  rw [x.map_name_marks, y.map_name_marks]
  exact (List.take_prefix_take_left (Nat.succ_le_succ h)).map _

/-! ## Overwriting -/

/-- A position that is marked stays marked when more names follow, whatever their states. -/
theorem NameIndex.lastMark_isSome_of_prefix {index : NameIndex} {p : Nat}
    {marks marks' : List Mark} (h : marks.map Mark.name <+: marks'.map Mark.name)
    (hmarked : (index.lastMark p marks).isSome = true) :
    (index.lastMark p marks').isSome = true := by
  induction marks generalizing marks' with
  | nil => cases hmarked
  | cons m rest ih =>
      cases marks' with
      | nil => cases List.prefix_nil.mp h
      | cons m' rest' =>
          rw [List.map_cons, List.map_cons] at h
          obtain ⟨hname, hrest⟩ := List.cons_prefix_cons.mp h
          unfold lastMark at hmarked ⊢
          rw [← hname]
          cases hkey : m.name.isKey with
          | false =>
              rw [hkey] at hmarked
              cases hmarked
          | true =>
              rw [hkey, if_pos rfl, Option.isSome_or, Bool.or_eq_true] at hmarked
              rw [if_pos rfl, Option.isSome_or, Bool.or_eq_true]
              -- The item is named behind this mark or by it, and so it is in the longer list.
              rcases hmarked with hlater | hhere
              · exact Or.inl (ih hrest hlater)
              · right
                split at hhere
                · rename_i hfound
                  rw [if_pos hfound]
                  rfl
                · cases hhere

theorem Items.marked_marked {index : NameIndex} {marks marks' : List Mark}
    (h : marks.map Mark.name <+: marks'.map Mark.name) (items : List Item) :
    marked index marks' (marked index marks items) = marked index marks' items := by
  unfold marked
  rw [List.mapIdx_mapIdx]
  congr 1
  funext p i
  simp only [Function.comp]
  cases hmarked : index.lastMark p marks with
  | none => rfl
  | some state =>
      have hsome := NameIndex.lastMark_isSome_of_prefix (p := p) h (by rw [hmarked]; rfl)
      obtain ⟨state', hstate'⟩ := Option.isSome_iff_exists.mp hsome
      rw [hstate']
      rfl

namespace Session

theorem items_merge_eq (s : Session) (status : JobStatus) : (s.merge status).1.items =
    if status.isMeasured then Items.marked s.index status.marks s.items else s.items := by
  rw [merge_eq]
  unfold JobStatus.isMeasured
  cases Progress.ofStatus status <;> rfl

theorem index_merge (s : Session) (status : JobStatus) : (s.merge status).1.index = s.index := by
  have h := congrArg Session.index (base_merge s status)
  exact h

theorem items_merge_merge {job : List JobPart} (s : Session) {x y : Snapshot job}
    (h : x.done ≤ y.done) (hy : y.status.isMeasured = true) :
    ((s.merge x.status).1.merge y.status).1.items = (s.merge y.status).1.items := by
  rw [items_merge_eq _ y.status, items_merge_eq s y.status, index_merge, items_merge_eq]
  simp only [hy, if_true]
  split
  · exact Items.marked_marked (Snapshot.names_prefix h) s.items
  · rfl

theorem mergeAll_concat (s : Session) (statuses : List JobStatus) (last : JobStatus) :
    s.mergeAll (statuses ++ [last]) = ((s.mergeAll statuses).merge last).1 := by
  unfold mergeAll
  rw [List.foldl_append]
  rfl

theorem items_mergeAll {job : List JobPart} (s : Session) (earlier : List (Snapshot job))
    (last : Snapshot job) (hlast : last.status.isMeasured = true)
    (hsorted : ∀ x ∈ earlier, x.done ≤ last.done) :
    (s.mergeAll ((earlier ++ [last]).map Snapshot.status)).items =
      (s.merge last.status).1.items := by
  induction earlier generalizing s with
  | nil => rfl
  | cons x rest ih =>
      have hrest : ∀ y ∈ rest, y.done ≤ last.done :=
        fun y hy => hsorted y (List.mem_cons_of_mem x hy)
      calc (s.mergeAll ((x :: rest ++ [last]).map Snapshot.status)).items
          = ((s.merge x.status).1.mergeAll ((rest ++ [last]).map Snapshot.status)).items := rfl
        _ = ((s.merge x.status).1.merge last.status).1.items := ih _ hrest
        _ = (s.merge last.status).1.items := items_merge_merge s (hsorted x List.mem_cons_self) hlast

/-! ## Clips being copied -/

theorem resultState_ne_active (r : ClipResult) : resultState r ≠ .active := by
  unfold resultState
  split <;> exact nofun

end Session

/-- Only the clip that is being copied is marked as such. -/
theorem NameIndex.of_lastMark_active {index : NameIndex} {status : JobStatus} {p : Nat}
    (h : index.lastMark p status.marks = some .active) :
    ∃ c, status.pending.head? = some c ∧ index.position? c.name = some p := by
  unfold JobStatus.marks at h
  generalize status.results = results at h
  induction results with
  | nil =>
      cases hpending : status.pending.head? with
      | none =>
          rw [hpending] at h
          cases h
      | some c =>
          simp only [hpending, List.map_nil, List.nil_append, Option.map_some, Option.toList_some,
            lastMark, Option.none_or] at h
          refine ⟨c, rfl, ?_⟩
          split at h
          · split at h
            · assumption
            · cases h
          · cases h
  -- No result marks an item as active, so the mark comes from behind the results.
  | cons r rest ih =>
      simp only [List.map_cons, List.cons_append, lastMark] at h
      split at h
      · rcases Option.or_eq_some_iff.mp h with hlater | ⟨-, hhere⟩
        · exact ih hlater
        · split at hhere
          · exact absurd (Option.some.inj hhere) (Session.resultState_ne_active r)
          · cases hhere
      · cases h

/-- Where no item was being copied, a merge leaves at most one that is: the one that the first
pending clip leads to. -/
theorem Session.active_of_merge {s : Session} {status : JobStatus}
    (hnone : ∀ i ∈ s.items, i.state ≠ .active) {p : Nat} {i : Item}
    (hi : (s.merge status).1.items[p]? = some i) (hactive : i.state = .active) :
    ∃ c, status.pending.head? = some c ∧ s.index.position? c.name = some p := by
  rw [items_merge_eq] at hi
  split at hi
  · rw [Items.marked, List.getElem?_mapIdx] at hi
    obtain ⟨j, hj, rfl⟩ := Option.map_eq_some_iff.mp hi
    cases hmark : s.index.lastMark p status.marks with
    | none =>
        rw [hmark] at hactive
        exact absurd hactive (hnone j (List.mem_of_getElem? hj))
    | some state =>
        rw [hmark] at hactive
        obtain rfl : state = .active := hactive
        exact NameIndex.of_lastMark_active hmark
  · exact absurd hactive (hnone i (List.mem_of_getElem? hi))

theorem countP_le_one {α : Type} {q : α → Bool} {l : List α}
    (h : ∀ i j (hi : i < l.length) (hj : j < l.length), q l[i] = true → q l[j] = true → i = j) :
    l.countP q ≤ 1 := by
  have hpair : l.Pairwise fun a b => ¬ (q a = true ∧ q b = true) := by
    rw [List.pairwise_iff_getElem]
    intro i j hi hj hij hboth
    exact absurd (h i j hi hj hboth.1 hboth.2) (Nat.ne_of_lt hij)
  clear h
  induction l with
  | nil => exact Nat.zero_le 1
  | cons a rest ih =>
      obtain ⟨hhead, htail⟩ := List.pairwise_cons.mp hpair
      by_cases ha : q a = true
      · have hzero : rest.countP q = 0 := by
          rw [List.countP_eq_zero]
          intro b hb hq
          exact hhead b hb ⟨ha, hq⟩
        have hone : (a :: rest).countP q = 1 := by rw [List.countP_cons_of_pos ha, hzero]
        exact Nat.le_of_eq hone
      · rw [List.countP_cons_of_neg ha]
        exact ih htail

namespace Session

def countActive (s : Session) : Nat := s.items.countP fun i => i.state = .active

theorem countActive_merge_le {s : Session} (status : JobStatus)
    (hnone : ∀ i ∈ s.items, i.state ≠ .active) : (s.merge status).1.countActive ≤ 1 := by
  apply countP_le_one
  intro p q hp hq hactive hactive'
  obtain ⟨c, hc, hfound⟩ :=
    active_of_merge hnone (List.getElem?_eq_getElem hp) (of_decide_eq_true hactive)
  obtain ⟨c', hc', hfound'⟩ :=
    active_of_merge hnone (List.getElem?_eq_getElem hq) (of_decide_eq_true hactive')
  obtain rfl : c = c' := Option.some.inj (hc.symm.trans hc')
  exact Option.some.inj (hfound.symm.trans hfound')

theorem countActive_eq_zero {s : Session} :
    s.countActive = 0 ↔ ∀ i ∈ s.items, i.state ≠ .active := by
  unfold countActive
  rw [List.countP_eq_zero]
  simp

theorem countActive_mergeAll_le {job : List JobPart} (s : Session)
    (snapshots : List (Snapshot job)) (hsorted : snapshots.Pairwise fun x y => x.done ≤ y.done)
    (hnone : s.countActive = 0) : (s.mergeAll (snapshots.map Snapshot.status)).countActive ≤ 1 := by
  induction snapshots using List.reverseRecOn with
  | nil => exact Nat.le_of_lt (Nat.lt_one_iff.mpr hnone)
  | append_singleton earlier last ih =>
      obtain ⟨hearlier, -, hlast⟩ := List.pairwise_append.mp hsorted
      have hle : ∀ x ∈ earlier, x.done ≤ last.done :=
        fun x hx => hlast x hx last List.mem_cons_self
      cases hmeasured : last.status.isMeasured with
      | true =>
          unfold countActive
          rw [items_mergeAll s earlier last hmeasured hle]
          exact countActive_merge_le _ (countActive_eq_zero.mp hnone)
      | false =>
          rw [List.map_append, List.map_singleton, mergeAll_concat]
          unfold countActive at ih ⊢
          rw [items_merge_eq, hmeasured]
          exact ih hearlier

/-- The list after snapshots of a job is that after the last one alone; a status that does not say
how far the job is changes no list. If no clip was being copied before, at most one is after each
snapshot, and none is once the whole job is done. -/
theorem items_of_snapshots {job : List JobPart} (s : Session) (earlier : List (Snapshot job))
    (last : Snapshot job) (hsorted : (earlier ++ [last]).Pairwise fun x y => x.done ≤ y.done) :
    (s.mergeAll ((earlier ++ [last]).map Snapshot.status)).items =
        (if last.status.isMeasured then (s.merge last.status).1
          else s.mergeAll (earlier.map Snapshot.status)).items ∧
      (s.countActive = 0 →
        (∀ n, (s.mergeAll (((earlier ++ [last]).take n).map Snapshot.status)).countActive ≤ 1) ∧
        (last.status.isMeasured = true → job.length ≤ last.done →
          (s.mergeAll ((earlier ++ [last]).map Snapshot.status)).countActive = 0)) := by
  obtain ⟨-, -, hlast⟩ := List.pairwise_append.mp hsorted
  have hle : ∀ x ∈ earlier, x.done ≤ last.done := fun x hx => hlast x hx last List.mem_cons_self
  refine ⟨?_, fun hnone => ⟨fun n => ?_, fun hmeasured hdone => ?_⟩⟩
  · cases hmeasured : last.status.isMeasured with
    | true => exact items_mergeAll s earlier last hmeasured hle
    | false =>
        rw [List.map_append, List.map_singleton, mergeAll_concat, items_merge_eq, hmeasured]
        rfl
  · have hsublist := (List.take_sublist n (earlier ++ [last]))
    exact countActive_mergeAll_le s _ (hsorted.sublist hsublist) hnone
  · unfold countActive
    rw [items_mergeAll s earlier last hmeasured hle]
    refine countActive_eq_zero.mpr fun i hi hactive => ?_
    obtain ⟨p, hp⟩ := List.mem_iff_getElem?.mp hi
    obtain ⟨c, hc, -⟩ := active_of_merge (countActive_eq_zero.mp hnone) hp hactive
    -- No clip is left to be copied.
    rw [last.pending, List.drop_eq_nil_of_le hdone] at hc
    cases hc

end Session

/-! ## A job of two clips -/

def JobPart.result (part : JobPart) : ClipResult where
  clip := part.clip
  error := if part.succeeds then .null else .str "unreadable"

/-- The snapshot of a job that says nothing but what is done. -/
def Snapshot.after (job : List JobPart) (done : Nat) : Snapshot job where
  done := done
  status := {
    active := done < job.length
    results := (job.take done).map JobPart.result
    pending := (job.drop done).map JobPart.clip }
  results := by
    have hpart : ∀ part : JobPart, JobPart.mk part.result.clip part.result.succeeded = part := by
      rintro ⟨clip, _ | _⟩ <;> rfl
    rw [List.map_map]
    exact (List.map_congr_left fun part _ => hpart part).trans (List.map_id _)
  pending := rfl

def twoClips : List JobPart :=
  [⟨{ name := .str "a" }, true⟩, ⟨{ name := .str "b" }, false⟩]

def whileCopying : List (Snapshot twoClips) := [.after twoClips 0, .after twoClips 1]

def whenDone : Snapshot twoClips := .after twoClips 2

/-- A list with a clip that the job does not have, and with one of its names twice. -/
def mixedList : Session :=
  ({} : Session).install (["a", "c", "b", "b"].map fun name => { clip := { name := .str name } })

namespace Session

theorem items_of_snapshots_two_clips :
    (whileCopying ++ [whenDone]).Pairwise (fun x y => x.done ≤ y.done) ∧
      mixedList.countActive = 0 ∧ whenDone.status.isMeasured = true ∧
      (mixedList.mergeAll ((whileCopying ++ [whenDone]).map Snapshot.status)).items =
        (mixedList.merge whenDone.status).1.items ∧
      (mixedList.merge whenDone.status).1.items.map Item.state =
        [.imported, .ready, .error, .ready] ∧
      (mixedList.mergeAll ((whileCopying ++ [whenDone]).map Snapshot.status)).countActive = 0 := by
  have hsorted : (whileCopying ++ [whenDone]).Pairwise (fun x y => x.done ≤ y.done) := by decide
  have hnone : mixedList.countActive = 0 := by decide
  have hmeasured : whenDone.status.isMeasured = true := by decide
  obtain ⟨hitems, hactive⟩ := items_of_snapshots mixedList whileCopying whenDone hsorted
  rw [if_pos hmeasured] at hitems
  have hstates : (mixedList.merge whenDone.status).1.items.map Item.state =
      [.imported, .ready, .error, .ready] := by decide +kernel
  exact ⟨hsorted, hnone, hmeasured, hitems, hstates,
    (hactive hnone).2 hmeasured (Nat.le_refl 2)⟩

end Session

end CardImport
