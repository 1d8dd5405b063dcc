import CardImport.Proofs.Command.Requests
import CardImport.Proofs.Numbering

/-!
# The batch of the import command

What a command submits is a function of its options and of the two listings: the clips that have no
take yet, the selects before the others, each with the scene and the number that the options give to
its position in the listing.
-/

namespace CardImport.Command

namespace ImportOptions

/-- Whether a position of the listing is that of the first clip with the name of a select. -/
def selectsAt (o : ImportOptions) (clips : List Clip) (p : Nat) : Bool :=
  o.selects.any fun name => clips.findIdx? (fun c => c.name.alike (.str name)) == some p

/-- Whether a clip is imported: one that has no take yet, or any. -/
def wants (o : ImportOptions) (takes : List Take) (c : Clip) : Bool :=
  o.all || !Reconcile.hasTake takes c.name

/-- What is sent of the clip at a position of the listing; `scene` is that of the settings. -/
def entry (o : ImportOptions) (scene : Json) (clips : List Clip) (p : Nat) (c : Clip) : Json :=
  .obj [("clip", c.toJson), ("scene", (o.scene.map Json.str).getD scene),
    ("num", .str (toString (o.startNum.getD 1 + p))), ("select", .bool (o.selectsAt clips p))]

/-- What is sent for two listings: the selects first, each kind in the order of the listing. -/
def batch (o : ImportOptions) (scene : Json) (clips : List Clip) (takes : List Take) : List Json :=
  let wanted := clips.zipIdx.filter fun p => o.wants takes p.1
  let ordered := wanted.filter (fun p => o.selectsAt clips p.2) ++
    wanted.filter fun p => !o.selectsAt clips p.2
  ordered.map fun p => o.entry scene clips p.2 p.1

def edited (o : ImportOptions) (p : Nat) (i : Item) : Item :=
  { i with
    checked := o.all || i.checked
    scene := (o.scene.map Json.str).getD i.scene
    num := (o.startNum.map fun n => toString (n + (p : Int))).getD i.num }

theorem selectsAt_iff (o : ImportOptions) (clips : List Clip) (p : Nat) :
    o.selectsAt clips p = true ↔ ∃ name ∈ o.selects, ∃ hp : p < clips.length,
      clips[p].name = .str name ∧ ∀ q (hq : q < p), clips[q].name ≠ .str name := by
  simp only [selectsAt, List.any_eq_true, beq_iff_eq, List.findIdx?_eq_some_iff_getElem,
    Json.alike_str_iff]

end ImportOptions

/-! ## The edits of the options -/

theorem editItems_cons {items items' : List Item} {edit : Edit} {rest : List Edit}
    (h : editItems items (edit :: rest) = .ok items') :
    ∃ mid, Items.edit items edit = (mid, .ok ()) ∧ editItems mid rest = .ok items' := by
  rcases he : Items.edit items edit with ⟨mid, f | _⟩
  · simp only [editItems, List.foldlM_cons, he] at h
    cases h
  · simp only [editItems, List.foldlM_cons, he] at h
    exact ⟨mid, rfl, h⟩

theorem editItems_append {items items' : List Item} {first second : List Edit}
    (h : editItems items (first ++ second) = .ok items') :
    ∃ mid, editItems items first = .ok mid ∧ editItems mid second = .ok items' := by
  rw [editItems, List.foldlM_append] at h
  cases hfirst : editItems items first with
  | error f =>
      rw [← editItems, hfirst] at h
      cases h
  | ok mid =>
      rw [← editItems, hfirst] at h
      exact ⟨mid, rfl, h⟩

theorem editItems_nil {items items' : List Item} (h : editItems items [] = .ok items') :
    items' = items := (Except.ok.inj h).symm

theorem mapIdx_eq_self {α : Type} {f : Nat → α → α} (h : ∀ p a, f p a = a) (l : List α) :
    l.mapIdx f = l := by
  apply List.ext_getElem?
  intro p
  rw [List.getElem?_mapIdx, funext (h p)]
  exact Option.map_id_apply

theorem editItems_all {items items' : List Item} {all : Bool}
    (h : editItems items (if all then [.checkAll] else []) = .ok items') :
    items' = items.map fun i => { i with checked := all || i.checked } := by
  cases all with
  | true =>
      obtain ⟨mid, hedit, hrest⟩ := editItems_cons h
      cases hedit
      exact editItems_nil hrest
  | false =>
      rw [editItems_nil h]
      exact (List.map_id _).symm

theorem editItems_scene {items items' : List Item} {scene : Option String}
    (h : editItems items (match scene with
      | some scene => [.setScene 0 (.str scene), .autofillScene 0]
      | none => []) = .ok items') :
    items' = items.map fun i => { i with scene := (scene.map Json.str).getD i.scene } := by
  cases scene with
  | none =>
      rw [editItems_nil h]
      exact (List.map_id _).symm
  | some scene =>
      obtain ⟨mid, hset, hrest⟩ := editItems_cons h
      obtain ⟨last, hfill, hend⟩ := editItems_cons hrest
      cases hset
      cases hfill
      rw [editItems_nil hend]
      exact Items.fillScene_setScene items (.str scene)

theorem editItems_startNum {items items' : List Item} {startNum : Option Int}
    (h : editItems items (match startNum with
      | some n => [.setNum 0 (toString n), .autofillNum 0]
      | none => []) = .ok items') :
    items' = items.mapIdx fun p i =>
      { i with num := (startNum.map fun n => toString (n + (p : Int))).getD i.num } := by
  cases startNum with
  | none =>
      rw [editItems_nil h]
      exact (mapIdx_eq_self (fun _ _ => rfl) _).symm
  | some n =>
      obtain ⟨mid, hset, hrest⟩ := editItems_cons h
      obtain ⟨last, hfill, hend⟩ := editItems_cons hrest
      cases hset
      rw [editItems_nil hend]
      exact Items.fillNum_setNum hfill

theorem editItems_optionEdits {items items' : List Item} {o : ImportOptions}
    (h : editItems items (optionEdits o) = .ok items') : items' = items.mapIdx o.edited := by
  obtain ⟨mid, hfront, hnum⟩ := editItems_append h
  obtain ⟨first, hall, hscene⟩ := editItems_append hfront
  rw [editItems_startNum hnum, editItems_scene hscene, editItems_all hall, List.map_map]
  apply List.ext_getElem?
  intro p
  simp only [List.getElem?_mapIdx, List.getElem?_map]
  cases items[p]? <;> rfl

/-! ## The selects -/

theorem items_of_selectItems {s s' : Session} {names : List String}
    (h : selectItems s names = .ok s') :
    s'.items = s.items.mapIdx fun p i =>
      { i with select := i.select || names.any fun name => s.find? (.str name) == some p } := by
  induction names generalizing s with
  | nil =>
      cases h
      refine (mapIdx_eq_self (fun p i => ?_) _).symm
      rw [List.any_nil, Bool.or_false]
  | cons name rest ih =>
      unfold selectItems at h
      cases hp : s.find? (.str name) with
      | none =>
          rw [hp] at h
          cases h
      | some position =>
          rw [hp] at h
          rw [ih h]
          have hfind : ∀ other, (s.edit (.setSelect position true)).1.find? other =
              s.find? other := fun _ => rfl
          have hitems : (s.edit (.setSelect position true)).1.items =
              s.items.modify position fun i => { i with select := true } := rfl
          -- Selecting changes no name, so later names are still found at the same positions.
          apply List.ext_getElem?
          intro p
          simp only [hfind, hitems, List.getElem?_mapIdx, List.getElem?_modify, List.any_cons, hp]
          cases s.items[p]? with
          | none => rfl
          | some i =>
              by_cases hat : position = p
              · simp [hat]
              · have hne : (position == p) = false := beq_eq_false_iff_ne.mpr hat
                simp [hat, hne]

/-- What the options make of a list: each item is edited, and marked if it is that of a select. -/
theorem items_of_applyOptions {s s' : Session} {o : ImportOptions}
    (h : applyOptions s o = .ok s') :
    s'.items = s.items.mapIdx fun p i =>
      { o.edited p i with
        select := i.select || o.selects.any fun name => s.find? (.str name) == some p } := by
  obtain ⟨items, hedit, hselect⟩ := applyOptions_ok h
  rw [items_of_selectItems hselect, editItems_optionEdits hedit]
  apply List.ext_getElem?
  intro p
  simp only [List.getElem?_mapIdx]
  cases s.items[p]? <;> rfl

/-! ## The batch of two listings -/

/-- The item of the clip at a position of the listing, with what the options make of it. -/
def optionItem (o : ImportOptions) (scene : Json) (clips : List Clip) (takes : List Take) (p : Nat)
    (c : Clip) : Item :=
  { o.edited p (Reconcile.item scene takes p c) with select := o.selectsAt clips p }

theorem submission_optionItem (o : ImportOptions) (scene : Json) (clips : List Clip)
    (takes : List Take) (p : Nat) (c : Clip) :
    (optionItem o scene clips takes p c).submission = o.entry scene clips p c := by
  have hnum : (o.startNum.map fun n => toString (n + (p : Int))).getD (toString (p + 1)) =
      toString (o.startNum.getD 1 + (p : Int)) := by
    cases o.startNum with
    | some n => rfl
    | none =>
        have hfirst : (1 : Int) + p = ((p + 1 : Nat) : Int) := by omega
        show toString (p + 1) = toString ((1 : Int) + p)
        rw [hfirst]
        rfl
  show Json.obj [_, _, ("num", .str ((o.startNum.map fun n => toString (n + (p : Int))).getD
    (toString (p + 1)))), _] = _
  rw [hnum]
  rfl

theorem batch_optionItems (o : ImportOptions) (scene : Json) (clips : List Clip)
    (takes : List Take) :
    Items.batch (clips.mapIdx (optionItem o scene clips takes)) = o.batch scene clips takes := by
  let itemOf : Clip × Nat → Item := fun q => optionItem o scene clips takes q.2 q.1
  have hitems : clips.mapIdx (optionItem o scene clips takes) = clips.zipIdx.map itemOf :=
    List.mapIdx_eq_zipIdx_map
  have hselected : (fun i : Item => i.checked && i.select) ∘ itemOf =
      fun q => o.selectsAt clips q.2 && o.wants takes q.1 :=
    funext fun _ => Bool.and_comm _ _
  have hother : (fun i : Item => i.checked && !i.select) ∘ itemOf =
      fun q => !o.selectsAt clips q.2 && o.wants takes q.1 :=
    funext fun _ => Bool.and_comm _ _
  have hsubmission : Item.submission ∘ itemOf = fun q => o.entry scene clips q.2 q.1 :=
    funext fun q => submission_optionItem o scene clips takes q.2 q.1
  simp only [Items.batch, Items.submitted, hitems, List.filter_map, ← List.map_append,
    List.map_map, hselected, hother, hsubmission, ImportOptions.batch, List.filter_filter]

variable {e : Endpoint} {s s' : Session} {o : ImportOptions} {clips takes status : Reply}
  {items : List Item} {c : Control}

/-- The session of a load has the list that was shown, but for the states of the items. -/
theorem Loaded.plain (hloaded : Loaded e s clips takes status items c) :
    c.session.items.map Item.plain = items.map Item.plain := by
  have hbase := congrArg Session.items (Session.base_look (s.listed items) (lookIn e status))
  rw [hloaded.session]
  exact hbase

/-- A name is found in the session where it is first found in the listing. -/
theorem Loaded.find? (hloaded : Loaded e s clips takes status items c) (name : String) :
    c.session.find? (.str name) =
      (items.map Item.clip).findIdx? fun c => c.name.alike (.str name) := by
  have hindex : c.session.index = .ofItems c.session.items := hloaded.indexed
  have hnames := congrArg (List.findIdx? fun n : Json => n.alike (.str name)) hloaded.names
  rw [List.findIdx?_map, List.findIdx?_map] at hnames
  rw [Session.find?, hindex, NameIndex.position?_ofItems rfl, List.findIdx?_map]
  exact hnames

/-- The batch of the edited session is that of the options and the two listings. -/
theorem Loaded.batch (hloaded : Loaded e s clips takes status items c) {cs : List Clip}
    {ts : List Take} (hitems : Reconcile.items s.scene cs ts = .ok items)
    (happlied : applyOptions c.session o = .ok s') :
    Items.batch s'.items = o.batch s.scene cs ts := by
  have hclips : items.map Item.clip = cs := Reconcile.map_clip_items hitems
  have hlisted : items = cs.mapIdx (Reconcile.item s.scene ts) := by
    rw [← Reconcile.items_ok hitems, Reconcile.itemsFrom_eq]
    simp only [Nat.zero_add]
  have hselects : ∀ p, (o.selects.any fun name => c.session.find? (.str name) == some p) =
      o.selectsAt cs p := by
    intro p
    simp only [ImportOptions.selectsAt, hloaded.find?, hclips]
  -- Item by item, the states apart, the options find what the listings made.
  have hedited : s'.items.map Item.plain =
      (cs.mapIdx (optionItem o s.scene cs ts)).map Item.plain := by
    apply List.ext_getElem?
    intro p
    have hplain := congrArg (fun l : List Item => l[p]?) hloaded.plain
    rw [items_of_applyOptions happlied]
    simp only [hlisted, List.getElem?_map, List.getElem?_mapIdx] at hplain ⊢
    cases hclip : cs[p]? with
    | none =>
        rw [hclip] at hplain
        rw [Option.map_eq_none_iff.mp hplain]
        rfl
    | some clip =>
        rw [hclip] at hplain
        obtain ⟨i, hi, hsame⟩ := Option.map_eq_some_iff.mp hplain
        rw [hi, Option.map_some, Option.map_some, Option.map_some, Option.map_some, hselects]
        have hoption : ∀ j : Item, ({ o.edited p j with
            select := j.select || o.selectsAt cs p } : Item).plain =
              ({ o.edited p j.plain with
                select := j.plain.select || o.selectsAt cs p } : Item).plain := fun _ => rfl
        rw [hoption, hsame, ← hoption]
        rfl
  calc Items.batch s'.items
      = Items.batch (s'.items.map Item.plain) := (Items.batch_map_plain _).symm
    _ = Items.batch (cs.mapIdx (optionItem o s.scene cs ts)) := by
        rw [hedited, Items.batch_map_plain]
    _ = o.batch s.scene cs ts := batch_optionItems o s.scene cs ts

end CardImport.Command
