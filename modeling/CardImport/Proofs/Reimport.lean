import CardImport.Proofs.Key
import CardImport.Proofs.Listing
import CardImport.Session.Basic

/-!
# Importing the same card again

By default a batch is what no take has recorded yet. Once the takes of a batch are recorded nothing
is left to import, and takes that are recorded meanwhile take their clips out of the batch and leave
all else as it was, numbers included.
-/

namespace CardImport

def Json.str? : Json → Option String
  | .str s => some s
  | _ => none

theorem Json.eq_str_of_str? {x : Json} {s : String} (h : x.str? = some s) : x = .str s := by
  cases x with
  | str t => cases h; rfl
  | _ => cases h

namespace Reconcile

/-! ## New clips -/

def recorded (takes : List Take) : List String := takes.filterMap (·.clipName.str?)

def isRecorded (takes : List Take) (c : Clip) : Bool :=
  c.name.str?.any fun name => (recorded takes).contains name

/-- The clips of a listing that are not recorded, with their positions. -/
def fresh (takes : List Take) (clips : List Clip) : List (Clip × Nat) :=
  clips.zipIdx.filter fun p => !isRecorded takes p.1

/-- What is submitted of a clip at a position, counted from 0, that nobody edited. -/
def entry (scene : Json) (p : Clip × Nat) : Json :=
  .obj [("clip", p.1.toJson), ("scene", scene), ("num", .str (toString (p.2 + 1))),
    ("select", .bool false)]

theorem hasTake_eq {takes : List Take} {c : Clip} {name : String} (h : c.name.str? = some name) :
    hasTake takes c.name = isRecorded takes c := by
  have hname := Json.eq_str_of_str? h
  rw [Bool.eq_iff_iff]
  simp only [hasTake, isRecorded, hname, Json.str?, Option.any_some, List.any_eq_true,
    List.contains_iff_mem, recorded, List.mem_filterMap, Json.alike_str_iff]
  constructor
  · rintro ⟨t, ht, hrecorded⟩
    exact ⟨t, ht, by rw [hrecorded]⟩
  · rintro ⟨t, ht, hrecorded⟩
    exact ⟨t, ht, Json.eq_str_of_str? hrecorded⟩

/-- Takes that have recorded more leave fewer clips, in the same places. -/
theorem fresh_of_subset {takes later : List Take} (hmore : recorded takes ⊆ recorded later)
    (clips : List Clip) :
    fresh later clips = (fresh takes clips).filter fun p => !isRecorded later p.1 := by
  rw [fresh, fresh, List.filter_filter]
  refine List.filter_congr fun p _ => ?_
  cases hlater : isRecorded later p.1 with
  | true => rfl
  | false =>
      cases htakes : isRecorded takes p.1 with
      | false => rfl
      | true =>
          simp only [isRecorded, Option.any_eq_true, List.contains_iff_mem] at htakes
          obtain ⟨name, hname, hmem⟩ := htakes
          simp [isRecorded, hname, hmore hmem] at hlater

/-! ## Items that nobody edited -/

section

variable {scene : Json} {clips : List Clip} {takes : List Take}

theorem items_of_keys (hclips : ∀ c ∈ clips, c.name.str?.isSome)
    (htakes : ∀ t ∈ takes, t.clipName.isKey = true) :
    items scene clips takes = .ok (clips.zipIdx.map fun p => item scene takes p.2 p.1) := by
  have hnames : ∀ c ∈ clips, c.name.isKey = true := by
    intro c hc
    obtain ⟨name, hname⟩ := Option.isSome_iff_exists.mp (hclips c hc)
    rw [Json.eq_str_of_str? hname]
    rfl
  rw [items, if_pos]
  · rw [itemsFrom_eq, List.mapIdx_eq_zipIdx_map]
    simp only [Nat.zero_add]
  · rw [Bool.and_eq_true, List.all_eq_true, List.all_eq_true]
    exact ⟨htakes, hnames⟩

theorem batch_items (hclips : ∀ c ∈ clips, c.name.str?.isSome) :
    Items.batch (clips.zipIdx.map fun p => item scene takes p.2 p.1) =
      (fresh takes clips).map (entry scene) := by
  have hselects : ∀ xs : List (Clip × Nat),
      (xs.map fun p => item scene takes p.2 p.1).filter (fun i => i.checked && i.select) = [] := by
    intro xs
    rw [List.filter_eq_nil_iff]
    intro i hi
    obtain ⟨p, -, rfl⟩ := List.mem_map.mp hi
    simp [item]
  have hchecked : ∀ p ∈ clips.zipIdx, ((fun i : Item => i.checked && !i.select) ∘
      fun p : Clip × Nat => item scene takes p.2 p.1) p = !isRecorded takes p.1 := by
    intro p hp
    obtain ⟨name, hname⟩ :=
      Option.isSome_iff_exists.mp (hclips p.1 (List.fst_mem_of_mem_zipIdx hp))
    show (!hasTake takes p.1.name && !false) = !isRecorded takes p.1
    rw [hasTake_eq hname, Bool.not_false, Bool.and_true]
  rw [Items.batch, Items.submitted, hselects, List.nil_append, List.filter_map, List.map_map,
    List.filter_congr hchecked]
  rfl

theorem unchecked_of_recorded (hclips : ∀ c ∈ clips, c.name.str?.isSome)
    (hrecorded : fresh takes clips = []) :
    ∀ i ∈ clips.zipIdx.map (fun p => item scene takes p.2 p.1), i.checked = false := by
  intro i hi
  obtain ⟨p, hp, rfl⟩ := List.mem_map.mp hi
  obtain ⟨name, hname⟩ :=
    Option.isSome_iff_exists.mp (hclips p.1 (List.fst_mem_of_mem_zipIdx hp))
  have hold := List.filter_eq_nil_iff.mp hrecorded p hp
  rw [Bool.not_eq_true, Bool.not_eq_false'] at hold
  show (!hasTake takes p.1.name) = false
  rw [hasTake_eq hname, hold, Bool.not_true]

/-- By default a batch is what is not recorded, in the order of the listing and with the numbers
of the whole listing. With takes that have recorded all of that, nothing is checked any more; with
takes that have recorded more, the batch is the former one without what they recorded. -/
theorem batch_of_unedited (s : Session) (hclips : ∀ c ∈ clips, c.name.str?.isSome)
    (htakes : ∀ t ∈ takes, t.clipName.isKey = true) :
    (∃ listed, items scene clips takes = .ok listed ∧
      Items.batch (s.install listed).items = (fresh takes clips).map (entry scene)) ∧
    ∀ later : List Take, (∀ t ∈ later, t.clipName.isKey = true) →
      recorded takes ⊆ recorded later →
      ∃ listed, items scene clips later = .ok listed ∧
        Items.batch (s.install listed).items =
          ((fresh takes clips).filter fun p => !isRecorded later p.1).map (entry scene) ∧
        ((∀ p ∈ fresh takes clips, isRecorded later p.1 = true) →
          ∀ i ∈ listed, i.checked = false) := by
  refine ⟨⟨_, items_of_keys hclips htakes, batch_items hclips⟩, fun later hlater hmore => ?_⟩
  have hfresh := fresh_of_subset hmore clips
  refine ⟨_, items_of_keys hclips hlater, (batch_items hclips).trans (by rw [hfresh]),
    fun hall => unchecked_of_recorded hclips ?_⟩
  rw [hfresh, List.filter_eq_nil_iff]
  intro p hp
  rw [hall p hp]
  decide

end

/-- Two clips of one name and one that is recorded, before and after the two are imported. -/
def threeClips : List Clip := [⟨.str "a", [], 1⟩, ⟨.str "b", [], 2⟩, ⟨.str "a", [], 3⟩]

def takesOf (names : List String) : List Take :=
  names.map fun name => { id := .ofText "scratch" "1", clipName := .str name }

theorem batch_of_unedited_three_clips :
    (∃ listed, items (.str "scratch") threeClips (takesOf ["b"]) = .ok listed ∧
      Items.batch (({} : Session).install listed).items =
        [entry (.str "scratch") (⟨.str "a", [], 1⟩, 0),
          entry (.str "scratch") (⟨.str "a", [], 3⟩, 2)]) ∧
    ∃ listed, items (.str "scratch") threeClips (takesOf ["b", "a"]) = .ok listed ∧
      Items.batch (({} : Session).install listed).items = [] ∧ ∀ i ∈ listed, i.checked = false := by
  obtain ⟨hfirst, hlater⟩ :=
    @batch_of_unedited (.str "scratch") threeClips (takesOf ["b"]) {} (by decide) (by decide)
  refine ⟨hfirst, ?_⟩
  obtain ⟨listed, hlisted, hbatch, hunchecked⟩ :=
    hlater (takesOf ["b", "a"]) (by decide) (by decide)
  refine ⟨listed, hlisted, hbatch, hunchecked ?_⟩
  decide

end Reconcile

end CardImport
