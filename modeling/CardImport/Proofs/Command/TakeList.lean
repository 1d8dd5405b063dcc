import CardImport.Proofs.Command.JobAndTakes
import CardImport.Proofs.Except
import CardImport.Proofs.Json.Nesting

/-!
# Answers that end the list of takes

If the styles in all that is shown can be read, the list of takes ends well for the answers that
suit it, and for no others: a body that is nested too deep, data that is no list of takes and a take
that no table can show each end it with a failure that is not reported.
-/

namespace CardImport

/-! ## What is read and shown -/

theorem exists_of_mapM {ε α β : Type} {f : α → Except ε β} {xs : List α} {ys : List β}
    (h : xs.mapM f = .ok ys) : ∀ x ∈ xs, ∃ y, f x = .ok y := by
  induction xs generalizing ys with
  | nil => exact List.forall_mem_nil _
  | cons x rest ih =>
      rw [List.mapM_cons] at h
      obtain ⟨y, hy, h⟩ := exists_of_bind_eq_ok h
      obtain ⟨zs, hzs, -⟩ := exists_of_bind_eq_ok h
      rw [List.forall_mem_cons]
      exact ⟨⟨y, hy⟩, ih hzs⟩

theorem Json.isCell_of_cell {x : Json} {text : String} (h : Table.cell x = .ok text) :
    x.IsCell := by
  cases x with
  | str s => exact .str s
  | null => exact .null
  | _ => cases h

theorem Json.exists_of_require {data x : Json} {name : String} (h : data.require name = .ok x) :
    ∃ fields, data = .obj fields ∧ Fields.get? fields name = some x := by
  cases data with
  | obj fields =>
      rw [Json.require] at h
      split at h
      · rename_i y hy
        cases h
        exact ⟨fields, rfl, hy⟩
      · cases h
  | _ => cases h

theorem BadData.not_isReported {f : Failure} (h : BadData f) : ¬f.kind.isReported = true := by
  revert h
  unfold BadData
  cases f.kind <;> decide

theorem SceneGroup.exists_cons (t : Take) (groups : List SceneGroup) :
    ∃ g ∈ SceneGroup.cons t groups, t ∈ g.takes := by
  cases groups with
  | nil => exact ⟨⟨t.id.scene, [t]⟩, List.mem_cons_self, List.mem_cons_self⟩
  | cons first rest =>
      rw [SceneGroup.cons]
      split
      · exact ⟨⟨t.id.scene, t :: first.takes⟩, List.mem_cons_self, List.mem_cons_self⟩
      · exact ⟨⟨t.id.scene, [t]⟩, List.mem_cons_self, List.mem_cons_self⟩

theorem SceneGroup.exists_cons_of_mem (t : Take) {groups : List SceneGroup} {g : SceneGroup}
    (hg : g ∈ groups) : ∃ g' ∈ SceneGroup.cons t groups, g.takes ⊆ g'.takes := by
  cases groups with
  | nil => cases hg
  | cons first rest =>
      rw [SceneGroup.cons]
      split
      · rcases List.mem_cons.mp hg with rfl | hrest
        · exact ⟨⟨t.id.scene, t :: g.takes⟩, List.mem_cons_self, List.subset_cons_self _ _⟩
        · exact ⟨g, List.mem_cons_of_mem _ hrest, List.Subset.refl _⟩
      · exact ⟨g, List.mem_cons_of_mem _ hg, List.Subset.refl _⟩

theorem exists_group {takes : List Take} {t : Take} (h : t ∈ takes) :
    ∃ g ∈ groupByScene takes, t ∈ g.takes := by
  induction takes with
  | nil => cases h
  | cons first rest ih =>
      rcases List.mem_cons.mp h with rfl | hmem
      · exact SceneGroup.exists_cons t (groupByScene rest)
      · obtain ⟨g, hg, ht⟩ := ih hmem
        obtain ⟨g', hg', hsub⟩ := SceneGroup.exists_cons_of_mem first hg
        exact ⟨g', hg', hsub ht⟩

namespace Command

open Network

variable {σ : Type}

theorem isTake_iff {data : Json} : IsTake data ↔ ∃ t, Take.ofJson data = .ok t := by
  constructor
  · exact IsTake.exists_take
  · rintro ⟨t, ht⟩
    obtain ⟨id, hid, ht⟩ := exists_of_bind_eq_ok ht
    obtain ⟨read, hread, -⟩ := exists_of_bind_eq_ok ht
    obtain ⟨scene, hscene, hread⟩ := exists_of_bind_eq_ok hread
    obtain ⟨num, hnum, -⟩ := exists_of_bind_eq_ok hread
    obtain ⟨fields, rfl, hfield⟩ := Json.exists_of_require hid
    obtain ⟨parts, rfl, hsceneField⟩ := Json.exists_of_require hscene
    obtain ⟨_, hparts, hnumField⟩ := Json.exists_of_require hnum
    cases hparts
    exact ⟨fields, parts, rfl, hfield, Option.isSome_of_eq_some hsceneField,
      Option.isSome_of_eq_some hnumField⟩

theorem inCells_of_takeRow {t : Take} {row : List String} (h : takeRow t = .ok row) :
    t.InCells := by
  have hcells := exists_of_mapM h
  simp only [List.forall_mem_cons] at hcells
  obtain ⟨⟨num, hnum⟩, ⟨clip, hclip⟩, -⟩ := hcells
  exact ⟨Json.isCell_of_cell hnum, Json.isCell_of_cell hclip⟩

/-- Tables that were shown hold takes that can be shown. -/
theorem inCells_of_showTables {groups : List SceneGroup} {w w' : World σ}
    (h : runIn (showTables groups) w = (.ok (), w')) :
    ∀ g ∈ groups, ∀ t ∈ g.takes, t.InCells := by
  induction groups generalizing w with
  | nil => exact List.forall_mem_nil _
  | cons g rest ih =>
      unfold showTables at h
      rcases htable : sceneTable g with f | table
      · have hstop : runIn (liftM (sceneTable g) : Step (StateM (World σ)) Table) w =
            (.error f, w) := by rw [runIn_except, htable]
        rw [runIn_bind, hstop] at h
        cases h
      · have hgo : runIn (liftM (sceneTable g) : Step (StateM (World σ)) Table) w =
            (.ok table, w) := by rw [runIn_except, htable]
        rw [runIn_bind_of_ok hgo] at h
        obtain ⟨_, w₁, -, hrest⟩ := runIn_bind_ok h
        obtain ⟨rows, hrows, -⟩ := exists_of_bind_eq_ok htable
        rw [List.forall_mem_cons]
        constructor
        · intro t ht
          obtain ⟨row, hrow⟩ := exists_of_mapM hrows t ht
          exact inCells_of_takeRow hrow
        · exact ih hrest

/-- The elements of a value that counts as yes are entries of takes only if it is an array of them. -/
theorem exists_arr_of_elements {data : Json} (htruthy : data.truthy = true) {entries : List Json}
    (hentries : data.elementsOrNone = .ok entries) (htakes : ∀ x ∈ entries, IsTake x) :
    data = .arr entries := by
  rw [Json.elementsOrNone, if_pos htruthy] at hentries
  -- The characters of a text and the names of an object are texts, and no takes.
  have htext : ∀ text, ¬IsTake (.str text) := by
    rintro text ⟨fields, id, hfields, -⟩
    cases hfields
  cases data with
  | arr xs =>
      cases hentries
      rfl
  | str s =>
      cases hentries
      have hne : s.toList ≠ [] := by simpa [Json.truthy] using htruthy
      obtain ⟨c, rest, hchars⟩ := List.exists_cons_of_ne_nil hne
      rw [hchars] at htakes
      exact absurd (htakes _ List.mem_cons_self) (htext _)
  | obj fields =>
      cases hentries
      have hne : fields ≠ [] := by simpa [Json.truthy] using htruthy
      obtain ⟨field, rest, rfl⟩ := List.exists_cons_of_ne_nil hne
      exact absurd (htakes _ List.mem_cons_self) (htext _)
  | _ => cases hentries

/-! ## The list of takes -/

theorem inCells_of_endsWell {takes : List Take} {w : World σ}
    (h : EndsWell (runIn (showTables (groupByScene takes) >>= fun _ => pure success :
      Step (StateM (World σ)) Exit) w)) : ∀ t ∈ takes, t.InCells := by
  intro t ht
  obtain ⟨g, hg, htg⟩ := exists_group ht
  rcases hshown : runIn (showTables (groupByScene takes)) w with ⟨f | u, w'⟩
  · rw [runIn_bind, hshown] at h
    rcases h with hcode | ⟨hcode, -⟩
    · cases hcode
    · cases hcode
  · exact inCells_of_showTables hshown g hg t htg

/-- Data of a success that is no list of takes is not reported. -/
theorem failsAs_list {r : Response} (h : r.isSuccess = true) :
    (Registry.list.accept r).FailsAs BadData := by
  simp only [Registry.list, Registry.checked]
  rw [if_pos h, pure_bind]
  refine .bind_lift (Json.failsAs_elementsOrNone _) fun entries _ => ?_
  exact .mapM fun entry _ => .lift (failsAs_take entry)

/-- A list of takes that ends well has read the data of its answer, the entries of a success one by
one, and has found a cell for everything in the takes that it showed. -/
theorem read_of_endsWell {e : Endpoint} {json : Bool} {w : World σ} {status : ℤ} {body : Body}
    (hreply : reply w (Registry.list.request e) = .answer status body)
    (hends : EndsWell (runIn (listTakes e json) w)) :
    ∃ data, body.data = .ok data ∧ (Retry.isSuccess status = true → ∃ entries takes,
      data.elementsOrNone = .ok entries ∧
      List.Forall₂ (fun entry t => Take.ofJson entry = .ok t) entries takes ∧
      (json = false → ∀ t ∈ takes, t.InCells)) := by
  obtain ⟨hexcused, hshown⟩ := of_endsWell_reported hends
  rw [(perform_run e Registry.list w).1, hreply, received_answer] at hexcused hshown
  cases hbody : body.data with
  | error f =>
      -- The only body that cannot be read is too deep, which no command reports.
      obtain ⟨innermost, rfl⟩ := Body.eq_tooDeep_of_data hbody
      rw [hbody] at hexcused
      cases hexcused _ rfl
  | ok data =>
      rw [hbody] at hexcused hshown
      refine ⟨data, rfl, fun hsuccess => ?_⟩
      -- Data that is refused is not reported either, so here the takes were read.
      rcases hlisted : (Registry.list.finish (.ok ⟨status, data⟩)).outcome.1 with f | takes
      · exact absurd (hexcused f hlisted)
          ((failsAs_list (r := ⟨status, data⟩) hsuccess).outcome f hlisted).not_isReported
      obtain ⟨r, entries, hr, -, hentries, hread⟩ := entries_of_listTakes hlisted
      cases hr
      refine ⟨entries, takes, hentries, hread, ?_⟩
      rintro rfl t hmem
      have htables := hshown takes hlisted
      have hsome : takes.isEmpty = false := by
        cases takes with
        | nil => cases hmem
        | cons _ _ => rfl
      rw [hsome] at htables
      exact inCells_of_endsWell htables t hmem

/-- Data whose elements are all read as takes is a list of takes. -/
theorem isTakeList_of_read {json : Bool} {data : Json} {entries : List Json} {takes : List Take}
    (hentries : data.elementsOrNone = .ok entries)
    (hread : List.Forall₂ (fun entry t => Take.ofJson entry = .ok t) entries takes)
    (hcells : json = false → ∀ t ∈ takes, t.InCells) : IsTakeList json data := by
  have htaken : ∀ x ∈ entries, ∃ t ∈ takes, Take.ofJson x = .ok t :=
    fun x hx => mem_of_forall₂ hread.flip x hx
  have htakes : ∀ x ∈ entries, IsTake x := fun x hx =>
    isTake_iff.mpr ((htaken x hx).imp fun t ht => ht.2)
  intro htruthy
  refine ⟨entries, exists_arr_of_elements htruthy hentries htakes, fun x hx => ⟨htakes x hx, ?_⟩⟩
  rintro hjson t ht
  obtain ⟨t', hmem, ht'⟩ := htaken x hx
  cases ht.symm.trans ht'
  exact hcells hjson t hmem

/-- The list of takes ends well for the answers that suit it, and for no others, as long as the
terminal finds no fault in what it shows. -/
theorem endsWell_listTakes_iff {e : Endpoint} {json : Bool} {w : World σ} {status : ℤ}
    {body : Body} (hreply : reply w (Registry.list.request e) = .answer status body)
    (hstyles : ¬Faulty (runIn (listTakes e json) w).2) :
    EndsWell (runIn (listTakes e json) w) ↔ Suits (IsTakeList json) (.answer status body) := by
  constructor
  · intro hends
    obtain ⟨data, hdata, hsuccess⟩ := read_of_endsWell hreply hends
    refine ⟨data, hdata, fun hs => ?_⟩
    obtain ⟨entries, takes, hentries, hread, hcells⟩ := hsuccess hs
    exact isTakeList_of_read hentries hread hcells
  · intro hsuits
    have hcloses : Closes (runIn (listTakes e json) w) := by
      apply closes_listTakes_of_suits
      rw [hreply]
      exact hsuits
    exact hcloses.resolve_right fun hstops => hstyles hstops.2

end Command

end CardImport
