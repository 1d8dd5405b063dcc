import CardImport.Item
import CardImport.Proofs.Key

/-!
# The index of a list

The index of a list leads from a name to the first item that has it, and depends on the names
alone.
-/

namespace CardImport

/-- Whether no item before the one at a position has its name. -/
def Items.IsFirst (items : List Item) (p : Nat) (name : Json) : Prop :=
  ∀ q < p, ∀ j, items[q]? = some j → j.clip.name.alike name = false

/-- Whether no two items have one name. -/
def Items.Distinct (items : List Item) : Prop :=
  items.Pairwise fun i j => i.clip.name.alike j.clip.name = false

instance (items : List Item) : Decidable (Items.Distinct items) :=
  inferInstanceAs (Decidable (List.Pairwise _ items))

namespace NameIndex

theorem position?_append (name : Json) (index later : NameIndex) :
    position? name (index ++ later) = (position? name index).or (position? name later) := by
  induction index with
  | nil => rfl
  | cons entry rest ih =>
      obtain ⟨n, p⟩ := entry
      by_cases hn : n.alike name = true
      · simp [position?, hn]
      · simp [position?, hn, ih]

theorem position?_isSome_of_alike {index : NameIndex} {name other : Json}
    (hname : name.isKey = true) (h : other.alike name = true)
    (hother : (position? other index).isSome = true) : (position? name index).isSome = true := by
  induction index with
  | nil => cases hother
  | cons entry rest ih =>
      obtain ⟨n, p⟩ := entry
      by_cases hn : n.alike name = true
      · simp [position?, hn]
      · have hno : ¬ n.alike other = true := fun hn' => hn (Json.alike_trans hname hn' h)
        simp only [position?, if_neg hno] at hother
        simp only [position?, if_neg hn]
        exact ih hother

/-- A name leads to what it led to before, or else to the first of the new items that has it. -/
theorem position?_ofItemsFrom {name : Json} (hname : name.isKey = true) (index : NameIndex)
    (n : Nat) (items : List Item) : position? name (ofItemsFrom index n items) =
      (position? name index).or
        ((items.findIdx? fun i => i.clip.name.alike name).map (· + n)) := by
  induction items generalizing index n with
  | nil => simp [ofItemsFrom]
  | cons i rest ih =>
      rw [ofItemsFrom, ih, List.findIdx?_cons]
      by_cases hi : i.clip.name.alike name = true
      · -- The name leads to this item, unless it is in the index already.
        cases hin : (position? i.clip.name index).isSome with
        | true =>
            have hsome := position?_isSome_of_alike hname hi hin
            obtain ⟨p, hp⟩ := Option.isSome_iff_exists.mp hsome
            simp [hp]
        | false =>
            simp [position?_append, position?, hi]
      · cases hin : (position? i.clip.name index).isSome with
        | true => simp [hi, Function.comp_def, Nat.add_assoc, Nat.add_comm 1]
        | false =>
            simp [position?_append, position?, hi, Function.comp_def, Nat.add_assoc,
              Nat.add_comm 1]

theorem position?_ofItems {name : Json} (hname : name.isKey = true) (items : List Item) :
    position? name (ofItems items) = items.findIdx? fun i => i.clip.name.alike name := by
  rw [ofItems, position?_ofItemsFrom hname]
  simp [position?]

theorem position?_ofItems_eq_some_iff {name : Json} (hname : name.isKey = true)
    {items : List Item} {p : Nat} {i : Item} (hi : items[p]? = some i) :
    position? name (ofItems items) = some p ↔
      i.clip.name.alike name = true ∧ Items.IsFirst items p i.clip.name := by
  obtain ⟨hlt, rfl⟩ := List.getElem?_eq_some_iff.mp hi
  rw [position?_ofItems hname, List.findIdx?_eq_some_iff_getElem]
  constructor
  · rintro ⟨_, hp, hbefore⟩
    refine ⟨hp, fun q hq j hj => ?_⟩
    obtain ⟨hlt', rfl⟩ := List.getElem?_eq_some_iff.mp hj
    refine Bool.eq_false_iff.mpr fun hq' => ?_
    exact hbefore q hq (Json.alike_trans hname hq' hp)
  · rintro ⟨hp, hfirst⟩
    refine ⟨hlt, hp, fun q hq hq' => ?_⟩
    have hkey := Json.isKey_of_alike hname hp
    have hno := hfirst q hq _ (List.getElem?_eq_getElem (Nat.lt_trans hq hlt))
    rw [Json.alike_trans hkey hq' (Json.alike_symm hname hp)] at hno
    cases hno

theorem ofItemsFrom_congr {items items' : List Item}
    (h : items.map (fun i => i.clip.name) = items'.map fun i => i.clip.name) (index : NameIndex)
    (n : Nat) : ofItemsFrom index n items = ofItemsFrom index n items' := by
  induction items generalizing items' index n with
  | nil =>
      cases items' with
      | nil => rfl
      | cons i' rest' => cases h
  | cons i rest ih =>
      cases items' with
      | nil => cases h
      | cons i' rest' =>
          rw [List.map_cons, List.map_cons] at h
          obtain ⟨hname, hrest⟩ := List.cons.inj h
          rw [ofItemsFrom, ofItemsFrom, hname, ih hrest]

theorem ofItems_congr {items items' : List Item}
    (h : items.map (fun i => i.clip.name) = items'.map fun i => i.clip.name) :
    ofItems items = ofItems items' := ofItemsFrom_congr h [] 0

end NameIndex

theorem Items.IsFirst.congr {items items' : List Item} {p : Nat} {name : Json}
    (h : items.map (fun i => i.clip.name) = items'.map fun i => i.clip.name)
    (hfirst : IsFirst items p name) : IsFirst items' p name := by
  intro q hq j hj
  have hat := congrArg (fun names => names[q]?) h
  simp only [List.getElem?_map, hj, Option.map_some] at hat
  obtain ⟨i, hi, hname⟩ := Option.map_eq_some_iff.mp hat
  rw [← hname]
  exact hfirst q hq i hi

theorem Items.Distinct.congr {items items' : List Item}
    (h : items.map (fun i => i.clip.name) = items'.map fun i => i.clip.name)
    (hdistinct : Distinct items) : Distinct items' := by
  have hnames : ∀ {l : List Item}, Distinct l ↔
      (l.map fun i => i.clip.name).Pairwise fun n m => n.alike m = false := by
    intro l
    rw [List.pairwise_map]
    rfl
  rw [hnames] at hdistinct ⊢
  rw [← h]
  exact hdistinct

theorem Items.Distinct.isFirst {items : List Item} (h : Items.Distinct items) {p : Nat} {i : Item}
    (hi : items[p]? = some i) : Items.IsFirst items p i.clip.name := by
  intro q hq j hj
  obtain ⟨hp, rfl⟩ := List.getElem?_eq_some_iff.mp hi
  obtain ⟨hq', rfl⟩ := List.getElem?_eq_some_iff.mp hj
  exact List.pairwise_iff_getElem.mp h q p hq' hp hq

end CardImport
