import CardImport.Proofs.Session.Merge

/-!
# Edits

What an edit leaves as it is: the clips, their order and the states of the items, and all of the
session but its items. The operator decides what is imported and how, and the server the rest; so
what goes out in a batch does not depend on what the server told.
-/

namespace CardImport

/-- What the operator cannot change of an item. -/
def Item.given (i : Item) : Clip × ItemState := (i.clip, i.state)

namespace Items

theorem map_given_fillScene (items : List Item) (position : Int) :
    (fillScene items position).map Item.given = items.map Item.given := by
  unfold fillScene
  cases at? items position with
  | none => rfl
  | some found =>
      obtain ⟨i, n⟩ := found
      have hlater : (Item.given ∘ fun later : Item => { later with scene := i.scene }) =
          Item.given := rfl
      simp only
      rw [List.map_append, List.map_map, hlater, ← List.map_append, List.take_append_drop]

theorem map_given_numbered (n : Int) (items : List Item) :
    (numbered n items).1.map Item.given = items.map Item.given := by
  induction items generalizing n with
  | nil => rfl
  | cons i rest ih =>
      unfold numbered
      cases Number.writeWhole n with
      | error e => rfl
      | ok num =>
          rw [List.map_cons, List.map_cons, ih]
          rfl

theorem map_given_fillNum (items : List Item) (position : Int) :
    (fillNum items position).1.map Item.given = items.map Item.given := by
  unfold fillNum
  cases at? items position with
  | none => rfl
  | some found =>
      obtain ⟨i, n⟩ := found
      simp only
      cases TakeNumber.parse? i.num with
      | error e => rfl
      | ok parsed =>
          cases parsed with
          | none => rfl
          | some first =>
              rw [List.map_append, map_given_numbered, ← List.map_append,
                List.take_append_drop]

theorem map_given_edit (items : List Item) (e : Edit) :
    (edit items e).1.map Item.given = items.map Item.given := by
  cases e with
  | checkAll => exact List.map_map.trans rfl
  | checkNone => exact List.map_map.trans rfl
  | autofillScene position => exact map_given_fillScene items position
  | autofillNum position => exact map_given_fillNum items position
  | setChecked position checked =>
      exact map_modify (g := Item.given) (f := fun i => { i with checked })
        (fun i => rfl) items position
  | setScene position scene =>
      exact map_modify (g := Item.given) (f := fun i => { i with scene })
        (fun i => rfl) items position
  | setNum position num =>
      exact map_modify (g := Item.given) (f := fun i => { i with num })
        (fun i => rfl) items position
  | setSelect position select =>
      exact map_modify (g := Item.given) (f := fun i => { i with select })
        (fun i => rfl) items position

theorem map_state_edit (items : List Item) (e : Edit) :
    (edit items e).1.map Item.state = items.map Item.state := by
  have hgiven := congrArg (List.map Prod.snd) (map_given_edit items e)
  rw [List.map_map, List.map_map] at hgiven
  exact hgiven

/-! ## Batches -/

theorem mem_of_mem_submitted {items : List Item} {i : Item} (h : i ∈ submitted items) :
    i ∈ items := by
  rcases List.mem_append.mp h with hselect | hother
  · exact (List.mem_filter.mp hselect).1
  · exact (List.mem_filter.mp hother).1

theorem batch_map_plain (items : List Item) : batch (items.map Item.plain) = batch items := by
  simp only [batch, submitted, List.filter_map, List.map_append, List.map_map]
  rfl

end Items

theorem Session.edit_fst (s : Session) (e : Edit) :
    (s.edit e).1 = { s with items := (Items.edit s.items e).1 } := rfl

end CardImport
