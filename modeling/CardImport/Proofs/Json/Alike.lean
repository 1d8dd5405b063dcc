import CardImport.Proofs.Json.Readable
import CardImport.Proofs.Key
import Mathlib.Data.List.Forall2
import Mathlib.Data.List.Perm.Subperm

/-!
# Equal values

Being found equal is an equivalence of all values whose objects have each name once, although the
order of fields does not matter and numbers of several kinds can be equal. Directly compared,
everything but a NaN is equal to itself.
-/

namespace CardImport

namespace Fields

theorem mem_of_lookup {fields : Fields} {name : String} {value : Json}
    (h : fields.lookup name = some value) : (name, value) ∈ fields := by
  obtain ⟨before, after, rfl, -⟩ := List.lookup_eq_some_iff.mp h
  exact List.mem_append_right _ List.mem_cons_self

theorem lookup_of_mem {fields : Fields} (h : fields.names.Nodup) {f : String × Json}
    (hf : f ∈ fields) : fields.lookup f.1 = some f.2 := by
  obtain ⟨before, after, rfl⟩ := List.append_of_mem hf
  refine List.lookup_eq_some_iff.mpr ⟨before, after, rfl, fun g hg => ?_⟩
  rw [names, List.map_append, List.nodup_append] at h
  exact bne_iff_ne.mpr (h.2.2 g.1 (List.mem_map_of_mem hg) f.1 List.mem_cons_self).symm

end Fields

namespace Json

/-- The values whose objects have each name once, on all levels. -/
inductive Proper : Json → Prop
  | key {x : Json} (h : x.isKey = true) : Proper x
  | arr {elements : List Json} (proper : ∀ x ∈ elements, Proper x) : Proper (.arr elements)
  | obj {fields : Fields} (unique : fields.names.Nodup) (proper : ∀ f ∈ fields, Proper f.2) :
      Proper (.obj fields)

theorem Readable.proper {depth : ℕ} {x : Json} (h : Readable depth x) : Proper x := by
  induction h with
  | null => exact .key rfl
  | bool => exact .key rfl
  | int => exact .key rfl
  | float => exact .key rfl
  | str => exact .key rfl
  | arr _ ih => exact .arr ih
  | obj unique _ ih => exact .obj unique ih

/-! ## Arrays and objects -/

theorem alikeAll_iff {xs ys : List Json} :
    alikeAll xs ys = true ↔ List.Forall₂ (fun x y => x.alike y = true) xs ys := by
  induction xs generalizing ys with
  | nil => cases ys <;> simp [alikeAll]
  | cons x rest ih => cases ys <;> simp [alikeAll, ih]

theorem alikeFields_iff {fs gs : Fields} :
    alikeFields fs gs = true ↔
      ∀ f ∈ fs, ∃ y, gs.lookup f.1 = some y ∧ f.2.alike y = true := by
  induction fs with
  | nil => simp [alikeFields]
  | cons f rest ih =>
      rw [alikeFields, Bool.and_eq_true, ih, List.forall_mem_cons, alikeField]
      apply and_congr_left'
      cases hlookup : gs.lookup f.1 with
      | none => simp
      | some y => simp

theorem alike_arr_iff {xs : List Json} {y : Json} :
    (arr xs).alike y = true ↔
      ∃ ys, y = .arr ys ∧ List.Forall₂ (fun x y => x.alike y = true) xs ys := by
  cases y with
  | arr ys => simp [alike, alikeAll_iff]
  | _ => simp [alike, number?]

theorem alike_obj_iff {fs : Fields} {y : Json} :
    (obj fs).alike y = true ↔ ∃ gs : Fields, y = .obj gs ∧ fs.length = gs.length ∧
      ∀ f ∈ fs, ∃ z, gs.lookup f.1 = some z ∧ f.2.alike z = true := by
  cases y with
  | obj gs => simp [alike, alikeFields_iff]
  | _ => simp [alike, number?]

/-! ## An equivalence -/

theorem Proper.alike_self {x : Json} (h : Proper x) : x.alike x = true := by
  induction h with
  | key h => exact Json.alike_self h
  | arr _ ih => exact alike_arr_iff.mpr ⟨_, rfl, List.forall₂_same.mpr ih⟩
  | obj unique _ ih =>
      refine alike_obj_iff.mpr ⟨_, rfl, rfl, fun f hf => ⟨f.2, ?_, ih f hf⟩⟩
      exact Fields.lookup_of_mem unique hf

theorem Proper.alike_trans {x y z : Json} (h : Proper x) (hxy : x.alike y = true)
    (hyz : y.alike z = true) : x.alike z = true := by
  induction h generalizing y z with
  | @key x hx =>
      have hkey := (alike_iff_key? hx y).mp hxy
      have hy : y.isKey = true := by
        rw [isKey_iff, ← hkey]
        exact (isKey_iff x).mp hx
      exact (alike_iff_key? hx z).mpr (hkey.trans ((alike_iff_key? hy z).mp hyz))
  | arr proper ih =>
      obtain ⟨ys, rfl, hxs⟩ := alike_arr_iff.mp hxy
      obtain ⟨zs, rfl, hys⟩ := alike_arr_iff.mp hyz
      refine alike_arr_iff.mpr ⟨zs, rfl, ?_⟩
      clear hxy hyz proper
      -- The elements are compared one by one along the first list.
      induction hxs generalizing zs with
      | nil =>
          cases hys
          exact .nil
      | cons hx _ ihxs =>
          obtain ⟨hih, hrest⟩ := List.forall_mem_cons.mp ih
          cases hys with
          | cons hy hys => exact .cons (hih hx hy) (ihxs hrest _ hys)
  | obj _ _ ih =>
      obtain ⟨gs, rfl, hlength, hfs⟩ := alike_obj_iff.mp hxy
      obtain ⟨hs, rfl, hlength', hgs⟩ := alike_obj_iff.mp hyz
      refine alike_obj_iff.mpr ⟨hs, rfl, hlength.trans hlength', fun f hf => ?_⟩
      obtain ⟨v, hv, hfv⟩ := hfs f hf
      obtain ⟨w, hw, hvw⟩ := hgs _ (Fields.mem_of_lookup hv)
      exact ⟨w, hw, ih f hf hfv hvw⟩

/-- An object that has all names of one with as many fields, each of them once, has no others. -/
theorem names_subset {fs gs : Fields} (hfs : fs.names.Nodup)
    (hlength : fs.length = gs.length) (h : fs.names ⊆ gs.names) : gs.names ⊆ fs.names := by
  have hle : gs.names.length ≤ fs.names.length := by
    rw [Fields.names, Fields.names, List.length_map, List.length_map, hlength]
  exact ((hfs.subperm h).perm_of_length_le hle).symm.subset

theorem Proper.alike_symm {x y : Json} (h : Proper x) (h' : Proper y) (hxy : x.alike y = true) :
    y.alike x = true := by
  induction h generalizing y with
  | @key x hx => exact (alike_iff_key?_right y hx).mpr ((alike_iff_key? hx y).mp hxy).symm
  | arr proper ih =>
      obtain ⟨ys, rfl, hxs⟩ := alike_arr_iff.mp hxy
      refine alike_arr_iff.mpr ⟨_, rfl, ?_⟩
      cases h' with
      | key h => cases h
      | arr hys =>
          clear hxy proper
          induction hxs with
          | nil => exact .nil
          | cons hx _ ihxs =>
              obtain ⟨hih, hrest⟩ := List.forall_mem_cons.mp ih
              obtain ⟨hy, hys⟩ := List.forall_mem_cons.mp hys
              exact .cons (hih hy hx) (ihxs hrest hys)
  | @obj fs unique _ ih =>
      obtain ⟨gs, rfl, hlength, hfs⟩ := alike_obj_iff.mp hxy
      cases h' with
      | key h => cases h
      | obj unique' proper' =>
          -- As many names on both sides, and none is there twice, so they are the same names.
          have hnames : fs.names ⊆ gs.names := by
            intro name hname
            obtain ⟨f, hf, rfl⟩ := List.mem_map.mp hname
            obtain ⟨v, hv, -⟩ := hfs f hf
            exact List.mem_map.mpr ⟨_, Fields.mem_of_lookup hv, rfl⟩
          refine alike_obj_iff.mpr ⟨fs, rfl, hlength.symm, fun g hg => ?_⟩
          have hname := names_subset unique hlength hnames (List.mem_map_of_mem hg)
          obtain ⟨f, hf, hfg⟩ := List.mem_map.mp hname
          obtain ⟨v, hv, hfv⟩ := hfs f hf
          rw [hfg, Fields.lookup_of_mem unique' hg] at hv
          cases hv
          refine ⟨f.2, ?_, ih f hf (proper' g hg) hfv⟩
          rw [← hfg]
          exact Fields.lookup_of_mem unique hf

/-! ## Direct comparison -/

theorem equals_iff (x y : Json) :
    x.equals y = true ↔ x ≠ .float .nan ∧ y ≠ .float .nan ∧ x.alike y = true := by
  unfold equals
  split
  · simp
  · simp
  · rename_i hx hy
    simp only [ne_eq]
    exact ⟨fun h => ⟨hx, hy, h⟩, fun h => h.2.2⟩

theorem Proper.equals_trans {x y z : Json} (h : Proper x) (hxy : x.equals y = true)
    (hyz : y.equals z = true) : x.equals z = true := by
  obtain ⟨hx, -, hxy⟩ := (equals_iff x y).mp hxy
  obtain ⟨-, hz, hyz⟩ := (equals_iff y z).mp hyz
  exact (equals_iff x z).mpr ⟨hx, hz, h.alike_trans hxy hyz⟩

theorem Proper.equals_symm {x y : Json} (h : Proper x) (h' : Proper y)
    (hxy : x.equals y = true) : y.equals x = true := by
  obtain ⟨hx, hy, hxy⟩ := (equals_iff x y).mp hxy
  exact (equals_iff y x).mpr ⟨hy, hx, h.alike_symm h' hxy⟩

theorem equals_str_iff {x : Json} {s : String} : x.equals (.str s) = true ↔ x = .str s := by
  rw [equals_iff, alike_str_iff]
  constructor
  · exact fun h => h.2.2
  · rintro rfl
    exact ⟨nofun, nofun, rfl⟩

end Json

end CardImport
