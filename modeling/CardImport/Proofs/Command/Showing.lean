import CardImport.Proofs.Autofill
import CardImport.Proofs.Command.Answers
import CardImport.Proofs.Command.Batch

/-!
# Lists that can be edited and shown

The options of an import number the list, and its tables show names, scenes and sizes. Each of these
can fail where a value is too long or of another type; none of them does for a list whose clips are
manageable.
-/

namespace CardImport

/-! ## Rows -/

theorem exists_mapM {ε α β : Type} {f : α → Except ε β} {xs : List α}
    (h : ∀ x ∈ xs, ∃ y, f x = .ok y) : ∃ ys, xs.mapM f = .ok ys := by
  induction xs with
  | nil => exact ⟨[], rfl⟩
  | cons x rest ih =>
      obtain ⟨y, hy⟩ := h x List.mem_cons_self
      obtain ⟨ys, hys⟩ := ih fun z hz => h z (List.mem_cons_of_mem _ hz)
      refine ⟨y :: ys, ?_⟩
      rw [List.mapM_cons, hy, hys]
      rfl

theorem Json.IsCell.exists_cell {x : Json} (h : x.IsCell) : ∃ text, Table.cell x = .ok text := by
  cases h with
  | str s => exact ⟨s, rfl⟩
  | null => exact ⟨"", rfl⟩

theorem Table.exists_row {values : List Json} (h : ∀ x ∈ values, x.IsCell) :
    ∃ texts, row values = .ok texts := exists_mapM fun x hx => (h x hx).exists_cell

/-! ## Tables of items -/

namespace Items

/-- Items that a table can show, with their sizes together. -/
structure Displayable (items : List Item) : Prop where
  names : ∀ i ∈ items, i.clip.name.IsCell
  scenes : ∀ i ∈ items, i.scene.IsCell
  sizes : (items.map fun i => i.clip.totalSize.natAbs).sum < twoTo 1023

theorem Displayable.of_clips {items : List Item} {clips : List Clip}
    (hclips : items.map Item.clip = clips) (hnames : ∀ c ∈ clips, c.name.IsCell)
    (hsizes : (clips.map fun c => c.totalSize.natAbs).sum < twoTo 1023)
    (hscenes : ∀ i ∈ items, i.scene.IsCell) : Displayable items := by
  subst hclips
  rw [List.map_map] at hsizes
  exact ⟨fun i hi => hnames i.clip (List.mem_map_of_mem hi), hscenes, hsizes⟩

theorem Displayable.of_plain {items items' : List Item} (h : Displayable items)
    (hplain : items'.map Item.plain = items.map Item.plain) : Displayable items' := by
  have hclips := congrArg (List.map Item.clip) hplain
  have hscenes := congrArg (List.map Item.scene) hplain
  have hclip : Item.clip ∘ Item.plain = Item.clip := rfl
  have hscene : Item.scene ∘ Item.plain = Item.scene := rfl
  simp only [List.map_map, hclip, hscene] at hclips hscenes
  refine .of_clips hclips (List.forall_mem_map.mpr h.names) ?_ fun i hi => ?_
  · rw [List.map_map]
    exact h.sizes
  · have hmem : i.scene ∈ items.map Item.scene := hscenes ▸ List.mem_map_of_mem hi
    obtain ⟨j, hj, hsame⟩ := List.mem_map.mp hmem
    rw [← hsame]
    exact h.scenes j hj

theorem Displayable.size_lt {items : List Item} (h : Displayable items) {i : Item}
    (hi : i ∈ items) : i.clip.totalSize.natAbs < twoTo 1023 :=
  (List.single_le_sum (fun _ _ => Nat.zero_le _) _
    (List.mem_map_of_mem (f := fun i : Item => i.clip.totalSize.natAbs) hi)).trans_lt h.sizes

/-- The sizes of the checked items are no more than all sizes. -/
theorem natAbs_checkedTotal_le (items : List Item) :
    (checkedTotal items).natAbs ≤ (items.map fun i => i.clip.totalSize.natAbs).sum := by
  induction items with
  | nil => exact Nat.le_refl 0
  | cons i rest ih =>
      rw [List.map_cons, List.sum_cons]
      unfold checkedTotal at ih ⊢
      cases hchecked : i.checked with
      | false =>
          rw [List.filter_cons_of_neg (by rw [hchecked]; exact Bool.false_ne_true)]
          exact ih.trans (Nat.le_add_left _ _)
      | true =>
          rw [List.filter_cons_of_pos hchecked, List.foldr_cons]
          exact (Int.natAbs_add_le _ _).trans (Nat.add_le_add_left ih _)

end Items

namespace Command

theorem exists_itemTable {items : List Item} (h : Items.Displayable items) :
    ∃ table, itemTable items = .ok table := by
  have hrow : ∀ i ∈ items, ∃ row, itemRow i = .ok row := by
    intro i hi
    obtain ⟨text, htext⟩ := Size.exists_text (h.size_lt hi)
    have hcells : ∀ x ∈ [Table.mark "x" i.checked, i.clip.name, .str text, i.scene, .str i.num,
        Table.mark "*" i.select, .str (stateText i.state)], x.IsCell := by
      simp only [List.forall_mem_cons, Table.mark]
      exact ⟨.str _, h.names i hi, .str _, h.scenes i hi, .str _, .str _, .str _,
        List.forall_mem_nil _⟩
    obtain ⟨row, hcells⟩ := Table.exists_row hcells
    refine ⟨row, ?_⟩
    unfold itemRow
    rw [htext]
    exact hcells
  obtain ⟨rows, hrows⟩ := exists_mapM hrow
  refine ⟨⟨"Clips", itemColumns, rows⟩, ?_⟩
  rw [itemTable, hrows]
  rfl

theorem exists_batchText {items : List Item} (h : Items.Displayable items) :
    ∃ text, batchText items = .ok text := by
  obtain ⟨text, htext⟩ := Size.exists_text ((Items.natAbs_checkedTotal_le items).trans_lt h.sizes)
  refine ⟨toString (Items.batch items).length ++ " clips (" ++ text ++ ")", ?_⟩
  rw [batchText, htext]
  rfl

end Command

/-! ## The options -/

namespace Items

theorem exists_fillNum {n : Int} {items : List Item}
    (h : ∀ p : Nat, p < items.length → Number.Short (n + p)) :
    ∃ items', fillNum (items.modify 0 fun i => { i with num := toString n }) 0 =
      (items', .ok ()) := by
  cases items with
  | nil => exact ⟨[], rfl⟩
  | cons i rest =>
      let first : Item := { i with num := toString n }
      obtain ⟨hfirst, hrest⟩ := short_cons h
      have hlater := numbered_of_short hrest
      have hmodified : (i :: rest).modify 0 (fun i => { i with num := toString n }) =
          first :: rest := rfl
      have hat : at? (first :: rest) 0 = some (first, 1) := rfl
      have hread : TakeNumber.parse? first.num = .ok (some n) := parse?_of_short hfirst
      refine ⟨first :: consecutive (n + 1) rest, ?_⟩
      rw [hmodified]
      unfold fillNum
      simp only [hat, hread, List.drop_one, List.tail_cons, hlater]
      rfl

end Items

namespace Command

theorem editItems_cons_of_ok {items mid : List Item} {edit : Edit}
    (h : Items.edit items edit = (mid, .ok ())) (rest : List Edit) :
    editItems items (edit :: rest) = editItems mid rest := by
  rw [editItems, List.foldlM_cons, h]
  rfl

theorem editItems_append_of_ok {items mid : List Item} {first : List Edit}
    (h : editItems items first = .ok mid) (second : List Edit) :
    editItems items (first ++ second) = editItems mid second := by
  rw [editItems] at h
  rw [editItems, List.foldlM_append, h]
  rfl

theorem exists_editItems_numbered {items mid : List Item} {front : List Edit} {n : ℤ}
    (hfront : editItems items front = .ok mid)
    (h : ∀ p : Nat, p < items.length → Number.Short (n + p)) :
    ∃ items', editItems items (front ++ [.setNum 0 (toString n), .autofillNum 0]) =
      .ok items' := by
  -- The edits before leave the list as long as it was.
  have hlength := congrArg List.length (map_given_editItems hfront)
  rw [List.length_map, List.length_map] at hlength
  obtain ⟨items', hfill⟩ := Items.exists_fillNum (n := n) fun p (hp : p < mid.length) =>
    h p (hlength ▸ hp)
  have hset : Items.edit mid (.setNum 0 (toString n)) =
      (mid.modify 0 fun i => { i with num := toString n }, .ok ()) := rfl
  have hauto : Items.edit (mid.modify 0 fun i => { i with num := toString n })
      (.autofillNum 0) = (items', .ok ()) := hfill
  refine ⟨items', ?_⟩
  rw [editItems_append_of_ok hfront, editItems_cons_of_ok hset, editItems_cons_of_ok hauto]
  rfl

/-- The edits of the options go through if all numbers that they give can be written. -/
theorem exists_editItems_optionEdits {o : ImportOptions} {items : List Item}
    (h : ∀ n, o.startNum = some n → ∀ p : Nat, p < items.length → Number.Short (n + p)) :
    ∃ items', editItems items (optionEdits o) = .ok items' := by
  unfold optionEdits
  cases hstart : o.startNum with
  | none =>
      cases o.all with
      | true => cases o.scene <;> exact ⟨_, rfl⟩
      | false => cases o.scene <;> exact ⟨_, rfl⟩
  | some n =>
      cases o.all with
      | true => cases o.scene <;> exact exists_editItems_numbered rfl (h n hstart)
      | false => cases o.scene <;> exact exists_editItems_numbered rfl (h n hstart)

theorem failsAs_selectItems (s : Session) (names : List String) :
    FailsAs (fun f => f.kind.isReported = true) (selectItems s names) := by
  induction names generalizing s with
  | nil => exact failsAs_ok s
  | cons name rest ih =>
      unfold selectItems
      split
      · exact FailsAs.error rfl
      · exact ih _

/-- Options can fail to be applied only by a select that is not listed. -/
theorem excused_applyOptions {o : ImportOptions} {s : Session}
    (h : ∀ n, o.startNum = some n → ∀ p : Nat, p < s.items.length → Number.Short (n + p)) :
    Excused (applyOptions s o) := by
  obtain ⟨items, hedit⟩ := exists_editItems_optionEdits h
  rw [applyOptions, hedit]
  exact failsAs_selectItems { s with items } o.selects

/-! ## The list of a load -/

def ImportOptions.sceneOr (o : ImportOptions) (scene : Json) : Json :=
  (o.scene.map Json.str).getD scene

variable {e : Endpoint} {s s' : Session} {o : ImportOptions} {clips takes status : Reply}
  {items : List Item} {c : Control}

theorem manageable_nil (o : ImportOptions) : Manageable o [] where
  numbers := fun _ _ _ hp => absurd hp (Nat.not_lt_zero _)
  names := fun _ => List.forall_mem_nil _
  sizes := fun _ => twoTo_pos 1023

/-- The items of a load have the clips that were listed, or there are none. -/
theorem Loaded.manageable (hloaded : Loaded e s clips takes status items c)
    (h : ∀ cs, clipsIn e s.path clips = .ok cs → Manageable o cs) :
    Manageable o (c.session.items.map Item.clip) := by
  have hclips := congrArg (List.map Item.clip) hloaded.plain
  have hclip : Item.clip ∘ Item.plain = Item.clip := rfl
  simp only [List.map_map, hclip] at hclips
  rw [hclips]
  by_cases hnil : items = []
  · rw [hnil]
    exact manageable_nil o
  · obtain ⟨cs, ts, hlisted, -, hitems⟩ := Session.of_listing hloaded.listing hnil
    rw [Reconcile.map_clip_items hitems]
    exact h cs hlisted

theorem Loaded.scene (hloaded : Loaded e s clips takes status items c) :
    ∀ i ∈ c.session.items, i.scene = s.scene := by
  intro i hi
  have hscenes := congrArg (List.map Item.scene) hloaded.plain
  have hscene : Item.scene ∘ Item.plain = Item.scene := rfl
  simp only [List.map_map, hscene] at hscenes
  have hmem : i.scene ∈ items.map Item.scene := hscenes ▸ List.mem_map_of_mem hi
  obtain ⟨j, hj, hsame⟩ := List.mem_map.mp hmem
  obtain ⟨cs, ts, -, -, hitems⟩ :=
    Session.of_listing hloaded.listing (List.ne_nil_of_mem hj)
  rw [← Reconcile.items_ok hitems, Reconcile.itemsFrom_eq] at hj
  obtain ⟨p, hp, rfl⟩ := List.mem_mapIdx.mp hj
  exact hsame.symm

theorem Loaded.excused_applyOptions (hloaded : Loaded e s clips takes status items c)
    (h : ∀ cs, clipsIn e s.path clips = .ok cs → Manageable o cs) :
    Excused (applyOptions c.session o) := by
  have hnumbers := (hloaded.manageable h).numbers
  rw [List.length_map] at hnumbers
  exact Command.excused_applyOptions hnumbers

theorem Loaded.displayable (hloaded : Loaded e s clips takes status items c)
    (h : ∀ cs, clipsIn e s.path clips = .ok cs → Manageable o cs) (hjson : o.json = false)
    (hscene : (o.sceneOr s.scene).IsCell) (happlied : applyOptions c.session o = .ok s') :
    Items.Displayable s'.items := by
  have hmanageable := hloaded.manageable h
  have hclips : s'.items.map Item.clip = c.session.items.map Item.clip := by
    obtain ⟨⟨edited, rfl, hgiven⟩, -⟩ := of_applyOptions happlied
    have hfirst := congrArg (List.map Prod.fst) hgiven
    rw [List.map_map, List.map_map] at hfirst
    exact hfirst
  refine .of_clips hclips (hmanageable.names hjson) (hmanageable.sizes hjson) fun i hi => ?_
  rw [items_of_applyOptions happlied] at hi
  obtain ⟨p, hp, rfl⟩ := List.mem_mapIdx.mp hi
  rw [← hloaded.scene _ (List.getElem_mem hp)] at hscene
  exact hscene

end Command

end CardImport
