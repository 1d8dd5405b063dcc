import CardImport.Proofs.Session.Edit
import CardImport.Proofs.Session.Snapshot

/-!
# Edits between merges

The operator edits a list while statuses are merged into it. An edit neither reads nor writes the
states of the items, and a merge reads the index and writes states alone. So each goes on as if the
other did not happen: whatever the order, the list is that of all edits with all merges behind them,
and what is submitted is what the edits made of it.
-/

namespace CardImport

namespace Items

/-! ## An edit does not see states -/

theorem map_plain_modify {f : Item → Item} (hf : ∀ i : Item, f i.plain = (f i).plain)
    (items : List Item) (position : Nat) :
    (items.map Item.plain).modify position f = (items.modify position f).map Item.plain := by
  apply List.ext_getElem?
  intro p
  rw [List.getElem?_modify, List.getElem?_map, List.getElem?_map, List.getElem?_modify]
  cases items[p]? with
  | none => rfl
  | some i => by_cases hp : position = p <;> simp [hp, hf]

theorem at?_map_plain (items : List Item) (position : Int) :
    at? (items.map Item.plain) position =
      (at? items position).map fun found => (found.1.plain, found.2) := by
  unfold at?
  rw [List.getElem?_map]
  split
  · rfl
  · cases items[position.toNat]? <;> rfl

theorem fillScene_map_plain (items : List Item) (position : Int) :
    fillScene (items.map Item.plain) position = (fillScene items position).map Item.plain := by
  unfold fillScene
  rw [at?_map_plain]
  cases at? items position with
  | none => rfl
  | some found =>
      obtain ⟨i, n⟩ := found
      simp only [Option.map_some, List.map_append, List.map_take, List.map_drop, List.map_map]
      rfl

theorem numbered_map_plain (n : Int) (items : List Item) :
    numbered n (items.map Item.plain) =
      ((numbered n items).1.map Item.plain, (numbered n items).2) := by
  induction items generalizing n with
  | nil => rfl
  | cons i rest ih =>
      rw [List.map_cons, numbered, numbered]
      cases Number.writeWhole n with
      | error e => rfl
      | ok num =>
          simp only [ih]
          rfl

theorem fillNum_map_plain (items : List Item) (position : Int) :
    fillNum (items.map Item.plain) position =
      ((fillNum items position).1.map Item.plain, (fillNum items position).2) := by
  unfold fillNum
  rw [at?_map_plain]
  cases at? items position with
  | none => rfl
  | some found =>
      obtain ⟨i, n⟩ := found
      have hnum : i.plain.num = i.num := rfl
      simp only [Option.map_some, hnum]
      cases TakeNumber.parse? i.num with
      | error e => rfl
      | ok parsed =>
          cases parsed with
          | none => rfl
          | some first =>
              simp only [← List.map_drop, numbered_map_plain, ← List.map_take, List.map_append]

/-- An edit does the same to a list without its states. -/
theorem edit_map_plain (items : List Item) (e : Edit) :
    edit (items.map Item.plain) e = ((edit items e).1.map Item.plain, (edit items e).2) := by
  cases e with
  | checkAll => simp only [edit, List.map_map]; rfl
  | checkNone => simp only [edit, List.map_map]; rfl
  | autofillScene position => simp only [edit, fillScene_map_plain]
  | autofillNum position => exact fillNum_map_plain items position
  | setChecked position checked =>
      simp only [edit, map_plain_modify (f := fun i => { i with checked }) fun i => rfl]
  | setScene position scene =>
      simp only [edit, map_plain_modify (f := fun i => { i with scene }) fun i => rfl]
  | setNum position num =>
      simp only [edit, map_plain_modify (f := fun i => { i with num }) fun i => rfl]
  | setSelect position select =>
      simp only [edit, map_plain_modify (f := fun i => { i with select }) fun i => rfl]

/-! ## Marks touch states alone -/

theorem map_plain_marked (index : NameIndex) (marks : List Mark) (items : List Item) :
    (marked index marks items).map Item.plain = items.map Item.plain := by
  apply List.ext_getElem?
  intro p
  rw [List.getElem?_map, List.getElem?_map, marked, List.getElem?_mapIdx]
  cases items[p]? <;> rfl

theorem map_state_marked (index : NameIndex) (marks : List Mark) (items : List Item) :
    (marked index marks items).map Item.state =
      (items.map Item.state).mapIdx fun p state => (index.lastMark p marks).getD state := by
  apply List.ext_getElem?
  intro p
  rw [List.getElem?_map, marked, List.getElem?_mapIdx, List.getElem?_mapIdx, List.getElem?_map]
  cases items[p]? <;> rfl

/-- A list is told by its items without their states, and the states. -/
theorem eq_of_plain_of_state {items items' : List Item}
    (hplain : items.map Item.plain = items'.map Item.plain)
    (hstate : items.map Item.state = items'.map Item.state) : items = items' := by
  apply List.ext_getElem?
  intro p
  have hp := congrArg (fun l => l[p]?) hplain
  have hs := congrArg (fun l => l[p]?) hstate
  simp only [List.getElem?_map] at hp hs
  cases hi : items[p]? with
  | none =>
      rw [hi] at hp
      exact (Option.map_eq_none_iff.mp hp.symm).symm
  | some i =>
      rw [hi] at hp hs
      obtain ⟨j, hj, hij⟩ := Option.map_eq_some_iff.mp hp.symm
      rw [hj] at hs ⊢
      have hsame : i.state = j.state := Option.some.inj hs
      congr 1
      calc i = { i.plain with state := i.state } := rfl
        _ = { j.plain with state := j.state } := by rw [hij, hsame]
        _ = j := rfl

/-- An edit of a marked list is a marked edit. -/
theorem edit_marked (index : NameIndex) (marks : List Mark) (items : List Item) (e : Edit) :
    edit (marked index marks items) e =
      (marked index marks (edit items e).1, (edit items e).2) := by
  have hplain := edit_map_plain (marked index marks items) e
  rw [map_plain_marked, edit_map_plain] at hplain
  obtain ⟨hitems, hresult⟩ := Prod.mk.inj hplain
  refine Prod.ext (eq_of_plain_of_state ?_ ?_) hresult.symm
  · rw [map_plain_marked]
    exact hitems.symm
  · rw [map_state_edit, map_state_marked, map_state_marked, map_state_edit]

theorem checkedTotal_map_plain (items : List Item) :
    checkedTotal (items.map Item.plain) = checkedTotal items := by
  unfold checkedTotal
  rw [List.filter_map, List.foldr_map]
  rfl

end Items

namespace Session

/-- A merge goes on as if an edit before it had not been made, and the other way round. -/
theorem merge_edit (s : Session) (status : JobStatus) (e : Edit) :
    (s.edit e).1.merge status = (((s.merge status).1.edit e).1, (s.merge status).2) ∧
      ((s.merge status).1.edit e).2 = (s.edit e).2 := by
  rw [merge_eq, merge_eq]
  cases Progress.ofStatus status with
  | error error => exact ⟨rfl, rfl⟩
  | ok progress =>
      have hedit := Items.edit_marked s.index status.marks s.items e
      constructor
      · refine Prod.ext ?_ rfl
        show { (s.edit e).1.mergeJob status progress with
            items := Items.marked s.index status.marks (Items.edit s.items e).1 } =
          { s.mergeJob status progress with
            items := (Items.edit (Items.marked s.index status.marks s.items) e).1 }
        rw [hedit]
        rfl
      · show (Items.edit (Items.marked s.index status.marks s.items) e).2 = (Items.edit s.items e).2
        rw [hedit]

def editAll (s : Session) (edits : List Edit) : Session :=
  edits.foldl (fun s e => (s.edit e).1) s

theorem editAll_merge (s : Session) (status : JobStatus) (edits : List Edit) :
    (s.merge status).1.editAll edits = ((s.editAll edits).merge status).1 := by
  induction edits generalizing s with
  | nil => rfl
  | cons e rest ih =>
      have hfirst : ((s.merge status).1.edit e).1 = ((s.edit e).1.merge status).1 :=
        (congrArg Prod.fst (merge_edit s status e).1).symm
      calc (s.merge status).1.editAll (e :: rest)
          = ((s.merge status).1.edit e).1.editAll rest := rfl
        _ = ((s.edit e).1.merge status).1.editAll rest := by rw [hfirst]
        _ = ((s.editAll (e :: rest)).merge status).1 := ih (s.edit e).1

theorem base_mergeAll (s : Session) (statuses : List JobStatus) :
    (s.mergeAll statuses).base = s.base := by
  induction statuses generalizing s with
  | nil => rfl
  | cons status rest ih => exact (ih _).trans (base_merge s status)

end Session

/-! ## Interleavings -/

/-- What happens to a list that is shown. -/
inductive Change where
  | edit (e : Edit)
  | merge (status : JobStatus)

namespace Change

def edit? : Change → Option Edit
  | .edit e => some e
  | .merge _ => none

def status? : Change → Option JobStatus
  | .edit _ => none
  | .merge status => some status

end Change

namespace Session

def change (s : Session) : Change → Session
  | .edit e => (s.edit e).1
  | .merge status => (s.merge status).1

def changeAll (s : Session) (changes : List Change) : Session := changes.foldl change s

theorem changeAll_eq (s : Session) (changes : List Change) : s.changeAll changes =
    (s.editAll (changes.filterMap Change.edit?)).mergeAll
      (changes.filterMap Change.status?) := by
  induction changes generalizing s with
  | nil => rfl
  | cons c rest ih =>
      cases c with
      | edit e => exact ih (s.edit e).1
      | merge status =>
          calc s.changeAll (.merge status :: rest)
              = (s.merge status).1.changeAll rest := rfl
            _ = ((s.merge status).1.editAll (rest.filterMap Change.edit?)).mergeAll
                  (rest.filterMap Change.status?) := ih (s.merge status).1
            _ = ((s.editAll (rest.filterMap Change.edit?)).merge status).1.mergeAll
                  (rest.filterMap Change.status?) := by rw [editAll_merge]

/-- Edits and merges in any order come to all the edits with all the merges behind them. An edit
changes neither a state nor a field of the session; a merge changes nothing of an item but its
state. What would be submitted, and its size, is therefore up to the edits alone. -/
theorem changes_separate (s : Session) (changes : List Change) :
    s.changeAll changes = (s.editAll (changes.filterMap Change.edit?)).mergeAll
        (changes.filterMap Change.status?) ∧
      (∀ e, (s.edit e).1 = { s with items := (Items.edit s.items e).1 } ∧
        (Items.edit s.items e).1.map Item.given = s.items.map Item.given) ∧
      (∀ status, (s.merge status).1.items.map Item.plain = s.items.map Item.plain) ∧
      Items.batch (s.changeAll changes).items =
        Items.batch (s.editAll (changes.filterMap Change.edit?)).items ∧
      Items.checkedTotal (s.changeAll changes).items =
        Items.checkedTotal (s.editAll (changes.filterMap Change.edit?)).items := by
  have hplain : (s.changeAll changes).items.map Item.plain =
      (s.editAll (changes.filterMap Change.edit?)).items.map Item.plain := by
    rw [changeAll_eq]
    exact congrArg Session.items (base_mergeAll _ _)
  refine ⟨changeAll_eq s changes, fun e => ⟨rfl, Items.map_given_edit s.items e⟩,
    fun status => congrArg Session.items (base_merge s status), ?_, ?_⟩
  · rw [← Items.batch_map_plain, hplain, Items.batch_map_plain]
  · rw [← Items.checkedTotal_map_plain, hplain, Items.checkedTotal_map_plain]

end Session

end CardImport
