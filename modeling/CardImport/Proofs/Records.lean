import CardImport.Job.Client
import CardImport.Proofs.Batch
import CardImport.Proofs.Command.Saving
import CardImport.Proofs.Command.TakeList
import CardImport.Proofs.Settings.Reload
import CardImport.Registry

/-!
# Records that are sent back

Clips and takes come from the server and are sent back to it. Reading one brings it into its regular
form, and from then on nothing changes: what is written of it, as a value or as a JSON text, is read
as the same record. So a batch stands for the clips that were listed, and an update for the take.
-/

namespace CardImport

/-! ## Regular forms -/

/-- Whether records are the same after they were written and read, as a value and as a text. -/
structure Stable [Json.Nesting] {α : Type} (toJson : α → Json)
    (ofJson : Json → Except Failure α) : Prop where
  same : ∀ x, ofJson (toJson x) = .ok x
  /-- What is written of a value that was read is read as the value was. -/
  normal : ∀ v x, ofJson v = .ok x → ofJson (toJson x) = ofJson v
  /-- What came as a text can also be written as one: the regular form is nested no deeper than may
  be read. -/
  reread : ∀ cs v x, Json.parse cs = .ok v → ofJson v = .ok x → ∀ style,
    Json.parse (Json.written style 0 (toJson x)) = .ok (toJson x)

theorem stable_of_readable [Json.Nesting] {α : Type} {toJson : α → Json}
    {ofJson : Json → Except Failure α}
    (same : ∀ x, ofJson (toJson x) = .ok x)
    (readable : ∀ v x, v.Readable Json.Nesting.limit → ofJson v = .ok x →
      (toJson x).Readable Json.Nesting.limit) : Stable toJson ofJson where
  same := same
  normal := by
    intro v x hx
    rw [same, hx]
  reread := by
    intro cs v x hcs hx style
    exact Json.parse_written (readable v x (Json.readable_of_parse hcs) hx) style

/-! ## Nesting -/

namespace Json

variable {depth : ℕ} {x y : Json} {xs : List Json}

/-- The elements of a value can be read within one level less. -/
theorem Readable.elements (h : Readable (depth + 1) x) (hxs : x.elements = .ok xs) :
    ∀ y ∈ xs, Readable depth y := by
  cases h with
  | str s =>
      cases hxs
      intro y hy
      obtain ⟨c, -, rfl⟩ := List.mem_map.mp hy
      exact .str _
  | arr readable =>
      cases hxs
      exact readable
  | obj _ _ =>
      cases hxs
      intro y hy
      obtain ⟨f, -, rfl⟩ := List.mem_map.mp hy
      exact .str _
  | _ => cases hxs

theorem Readable.elementsOrNone (h : Readable (depth + 1) x) (hxs : x.elementsOrNone = .ok xs) :
    ∀ y ∈ xs, Readable depth y := by
  unfold Json.elementsOrNone at hxs
  split at hxs
  · exact h.elements hxs
  · cases hxs
    exact fun y hy => absurd hy List.not_mem_nil

theorem Readable.require {name : String} (h : Readable (depth + 1) x)
    (hy : x.require name = .ok y) : Readable depth y := by
  obtain ⟨fields, rfl, hget⟩ := exists_of_require hy
  have hfield : Readable depth (Fields.getD fields name .null) := h.getD name .null
  rwa [Fields.getD, hget] at hfield

end Json

/-- The regular form of a clip can be read wherever the value could be that it was read from, if two
levels are allowed at all. -/
theorem Clip.readable_toJson {depth : ℕ} {v : Json} {c : Clip} (h : v.Readable (depth + 2))
    (hc : Clip.ofJson v = .ok c) : c.toJson.Readable (depth + 2) := by
  obtain ⟨name, hname, hc⟩ := exists_of_bind_eq_ok hc
  obtain ⟨paths, hpaths, hc⟩ := exists_of_bind_eq_ok hc
  obtain ⟨totalSize, hsize, hc⟩ := exists_of_bind_eq_ok hc
  cases hc
  have hnameReadable := h.require hname
  obtain ⟨fields, rfl, -⟩ := Json.exists_of_require hname
  have hpathsReadable := (h.getD "paths" .null).elementsOrNone hpaths
  have hshort := Json.short_of_toWhole (h.getD "totalSize" (.int (by decide))).short hsize
  have hnames : ["name", "paths", "totalSize"].Nodup := by decide
  refine .obj hnames ?_
  rw [List.forall_mem_cons, List.forall_mem_cons, List.forall_mem_singleton]
  exact ⟨hnameReadable, .arr hpathsReadable, .int hshort⟩

theorem TakeId.readable_toJson {depth : ℕ} {v : Json} {id : TakeId} (h : v.Readable (depth + 1))
    (hid : TakeId.ofJson v = .ok id) : id.toJson.Readable (depth + 1) := by
  obtain ⟨scene, hscene, hid⟩ := exists_of_bind_eq_ok hid
  obtain ⟨num, hnum, hid⟩ := exists_of_bind_eq_ok hid
  cases hid
  have hnames : ["scene", "num"].Nodup := by decide
  refine .obj hnames ?_
  rw [List.forall_mem_cons, List.forall_mem_singleton]
  exact ⟨h.require hscene, h.require hnum⟩

theorem Take.readable_toJson {depth : ℕ} {v : Json} {t : Take} (h : v.Readable (depth + 2))
    (ht : Take.ofJson v = .ok t) : t.toJson.Readable (depth + 2) := by
  obtain ⟨data, hdata, ht⟩ := exists_of_bind_eq_ok ht
  obtain ⟨id, hid, ht⟩ := exists_of_bind_eq_ok ht
  cases ht
  obtain ⟨fields, rfl, -⟩ := Json.exists_of_require hdata
  have hnames : ["id", "clipName", "select"].Nodup := by decide
  refine .obj hnames ?_
  rw [List.forall_mem_cons, List.forall_mem_cons, List.forall_mem_singleton]
  exact ⟨TakeId.readable_toJson (h.require hdata) hid, h.getD "clipName" (.str _), .bool _⟩

/-! ## What is sent -/

/-- Whether the body of a batch stands for these clips, entry by entry. -/
def StandsFor (body : Json) (clips : List Clip) : Prop :=
  ∃ entries, body.require "items" = .ok (.arr entries) ∧
    List.Forall₂ (fun entry c => (entry.require "clip" >>= Clip.ofJson) = .ok c) entries clips

theorem standsFor_batch (source subdirectory : Json) (items : List Item) :
    StandsFor (Job.start source subdirectory (Items.batch items)).body
      ((Items.submitted items).map Item.clip) := by
  refine ⟨Items.batch items, rfl, ?_⟩
  rw [Items.batch, List.forall₂_map_left_iff, List.forall₂_map_right_iff, List.forall₂_same]
  intro i _
  exact Clip.ofJson_toJson i.clip

theorem ofJson_body_of_update {id : TakeId} {t : Take} {c : Call Unit}
    (h : Registry.update id t = .ok c) : Take.ofJson c.body = .ok t := by
  obtain ⟨path, -, h⟩ := exists_of_bind_eq_ok h
  cases h
  exact Take.ofJson_toJson t

/-- Clips and takes are the same after they were written and read. A value that can be read as one
is read as a regular form of it, and so a batch stands for the clips of its items, and an update for
its take. -/
theorem records_stable [Json.Nesting] :
    Stable Clip.toJson Clip.ofJson ∧ Stable Take.toJson Take.ofJson ∧
      (∀ source subdirectory items,
        StandsFor (Job.start source subdirectory (Items.batch items)).body
          ((Items.submitted items).map Item.clip)) ∧
      ∀ id t c, Registry.update id t = .ok c → Take.ofJson c.body = .ok t := by
  refine ⟨?_, ?_, standsFor_batch, fun id t c => ofJson_body_of_update⟩
  · exact stable_of_readable Clip.ofJson_toJson fun v x => Clip.readable_toJson
  · exact stable_of_readable Take.ofJson_toJson fun v x => Take.readable_toJson

/-- The files of a clip may be told by a text, and its size in a text as well. -/
example : Clip.ofJson (.obj [("paths", .str "ab"), ("totalSize", .str " 12\n"), ("more", .null),
    ("name", .null)]) = .ok ⟨.null, [.str "a", .str "b"], 12⟩ := by
  cbv

end CardImport
