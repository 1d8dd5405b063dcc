import CardImport.Proofs.Json.Alike
import CardImport.Proofs.Span
import CardImport.Take
import Mathlib.Data.List.Chain

/-!
# Scenes

Grouped by scene, takes fall into their longest runs of one scene. There is no other way to cut a
list into such runs: the first group has the scene of the first take and goes on up to the first
take of another scene, and the others are the groups of what is left.
-/

namespace CardImport

/-! ## Runs -/

/-- Whether a group has the scene of its first take, and all other takes of it have the same. -/
def SceneGroup.IsRun (g : SceneGroup) : Prop :=
  ∃ t rest, g.takes = t :: rest ∧ g.scene = t.id.scene ∧
    ∀ u ∈ rest, g.scene.equals u.id.scene = true

/-- Whether takes are cut into runs that cannot be longer. -/
structure AreRuns (takes : List Take) (groups : List SceneGroup) : Prop where
  joined : groups.flatMap SceneGroup.takes = takes
  runs : ∀ g ∈ groups, g.IsRun
  apart : groups.IsChain fun g g' => g.scene.equals g'.scene = false

def Take.hasScene (scene : Json) (t : Take) : Bool := scene.equals t.id.scene

variable {takes : List Take} {groups : List SceneGroup} {g : SceneGroup} {t : Take}

theorem AreRuns.proper (h : AreRuns takes (g :: groups))
    (hproper : ∀ t ∈ takes, t.id.scene.Proper) : g.scene.Proper := by
  obtain ⟨t, rest, htakes, hscene, -⟩ := h.runs g List.mem_cons_self
  rw [hscene]
  apply hproper t
  rw [← h.joined, List.flatMap_cons, htakes]
  exact List.mem_append_left _ List.mem_cons_self

theorem AreRuns.tail (h : AreRuns takes (g :: groups)) :
    AreRuns (groups.flatMap SceneGroup.takes) groups where
  joined := rfl
  runs := fun g' hg' => h.runs g' (List.mem_cons_of_mem _ hg')
  apart := h.apart.tail

/-! ## The groups of takes -/

/-- A take in front of runs lengthens the first one or is one of its own. -/
theorem AreRuns.cons (h : AreRuns takes groups) (ht : t.id.scene.Proper)
    (hproper : ∀ t ∈ takes, t.id.scene.Proper) :
    AreRuns (t :: takes) (SceneGroup.cons t groups) := by
  have hsingle : SceneGroup.IsRun ⟨t.id.scene, [t]⟩ :=
    ⟨t, [], rfl, rfl, fun u hu => absurd hu List.not_mem_nil⟩
  cases groups with
  | nil =>
      obtain rfl : [] = takes := h.joined
      exact ⟨rfl, List.forall_mem_singleton.mpr hsingle, List.isChain_singleton _⟩
  | cons g rest =>
      have hg := h.proper hproper
      obtain ⟨hrun, hruns⟩ := List.forall_mem_cons.mp h.runs
      rw [SceneGroup.cons]
      by_cases hsame : t.id.scene.equals g.scene = true
      · rw [if_pos hsame]
        refine ⟨congrArg (t :: ·) h.joined, List.forall_mem_cons.mpr ⟨?_, hruns⟩, ?_⟩
        · obtain ⟨first, others, htakes, hscene, hothers⟩ := hrun
          refine ⟨t, g.takes, rfl, rfl, ?_⟩
          rw [htakes]
          refine List.forall_mem_cons.mpr ⟨hscene ▸ hsame, fun u hu => ?_⟩
          exact ht.equals_trans hsame (hothers u hu)
        · -- A scene that is told apart from that of the group is told apart from an equal one.
          refine List.isChain_cons.mpr ⟨fun g' hg' => ?_, h.apart.tail⟩
          rw [Bool.eq_false_iff]
          intro hnext
          have happart := (List.isChain_cons.mp h.apart).1 g' hg'
          rw [hg.equals_trans (ht.equals_symm hg hsame) hnext] at happart
          cases happart
      · rw [if_neg hsame]
        refine ⟨congrArg (t :: ·) h.joined, List.forall_mem_cons.mpr ⟨hsingle, h.runs⟩, ?_⟩
        exact List.isChain_cons_cons.mpr ⟨Bool.eq_false_iff.mpr hsame, h.apart⟩

theorem areRuns_groupByScene (hproper : ∀ t ∈ takes, t.id.scene.Proper) :
    AreRuns takes (groupByScene takes) := by
  induction takes with
  | nil => exact ⟨rfl, fun g hg => absurd hg List.not_mem_nil, List.isChain_nil⟩
  | cons t rest ih =>
      obtain ⟨ht, hrest⟩ := List.forall_mem_cons.mp hproper
      exact (ih hrest).cons ht hrest

/-! ## No other groups -/

/-- The first run holds the takes up to the first one of another scene. -/
theorem AreRuns.uncons (h : AreRuns takes (g :: groups)) : ∃ t rest, takes = t :: rest ∧
    g = ⟨t.id.scene, t :: rest.takeWhile (Take.hasScene t.id.scene)⟩ ∧
    AreRuns (rest.dropWhile (Take.hasScene t.id.scene)) groups := by
  obtain ⟨scene, takesOfGroup⟩ := g
  obtain ⟨t, others, htakes, hscene, hothers⟩ := h.runs _ List.mem_cons_self
  dsimp only at htakes hscene hothers
  subst htakes hscene
  have hstop : ∀ u ∈ (groups.flatMap SceneGroup.takes).head?,
      Take.hasScene t.id.scene u = false := by
    cases groups with
    | nil => exact fun u hu => nomatch hu
    | cons g' rest =>
        obtain ⟨first, more, hfirst, hscene', -⟩ := h.runs g' (by simp)
        have happart := (List.isChain_cons_cons.mp h.apart).1
        rw [List.flatMap_cons, hfirst]
        rintro u hu
        cases hu
        rw [Take.hasScene, ← hscene']
        exact happart
  obtain ⟨htake, hdrop⟩ := span_of_stop (p := Take.hasScene t.id.scene) hothers hstop
  refine ⟨t, others ++ groups.flatMap SceneGroup.takes, h.joined.symm, ?_, ?_⟩
  · rw [htake]
  · rw [hdrop]
    exact h.tail

theorem AreRuns.unique {groups' : List SceneGroup} (h : AreRuns takes groups)
    (h' : AreRuns takes groups') : groups = groups' := by
  induction groups generalizing takes groups' with
  | nil =>
      cases groups' with
      | nil => rfl
      | cons g' rest' =>
          obtain ⟨t, rest, htakes, -⟩ := h'.uncons
          cases h.joined.trans htakes
  | cons g rest ih =>
      obtain ⟨t, left, rfl, rfl, hrest⟩ := h.uncons
      cases groups' with
      | nil => cases h'.joined
      | cons g' rest' =>
          obtain ⟨t', left', htakes, rfl, hrest'⟩ := h'.uncons
          cases htakes
          rw [ih hrest hrest']

theorem areRuns_iff (hproper : ∀ t ∈ takes, t.id.scene.Proper) :
    AreRuns takes groups ↔ groups = groupByScene takes := by
  constructor
  · exact fun h => h.unique (areRuns_groupByScene hproper)
  · rintro rfl
    exact areRuns_groupByScene hproper

/-! ## Scenes that are texts -/

def Take.HasTextScene (t : Take) : Prop := ∃ s, t.id.scene = .str s

/-- Whether takes are cut into runs that cannot be longer, for scenes that are texts: these are the
same exactly if they are equal. -/
structure AreTextRuns (takes : List Take) (groups : List SceneGroup) : Prop where
  joined : groups.flatMap SceneGroup.takes = takes
  nonempty : ∀ g ∈ groups, g.takes ≠ []
  shared : ∀ g ∈ groups, ∀ t ∈ g.takes, t.id.scene = g.scene
  apart : groups.IsChain fun g g' => g.scene ≠ g'.scene

theorem Take.HasTextScene.equals_iff (h : t.HasTextScene) (x : Json) :
    x.equals t.id.scene = true ↔ x = t.id.scene := by
  obtain ⟨s, hs⟩ := h
  rw [hs]
  exact Json.equals_str_iff

theorem mem_of_joined (h : groups.flatMap SceneGroup.takes = takes) (hg : g ∈ groups)
    (ht : t ∈ g.takes) : t ∈ takes :=
  h ▸ List.mem_flatMap.mpr ⟨g, hg, ht⟩

/-- Groups that each have the scene of one of their takes are told apart by comparing scenes. -/
theorem isChain_equals_iff (htext : ∀ t ∈ takes, t.HasTextScene)
    (hjoined : groups.flatMap SceneGroup.takes = takes)
    (hscene : ∀ g ∈ groups, ∃ t ∈ g.takes, g.scene = t.id.scene) :
    groups.IsChain (fun g g' => g.scene.equals g'.scene = false) ↔
      groups.IsChain fun g g' => g.scene ≠ g'.scene := by
  apply List.IsChain.iff_of_mem_imp
  intro g g' _ hg'
  obtain ⟨t, ht, hsame⟩ := hscene g' hg'
  rw [hsame, Bool.eq_false_iff, ne_eq,
    (htext t (mem_of_joined hjoined hg' ht)).equals_iff g.scene]

theorem areTextRuns_iff (htext : ∀ t ∈ takes, t.HasTextScene) :
    AreTextRuns takes groups ↔ AreRuns takes groups := by
  constructor
  · intro h
    have hfirst : ∀ g ∈ groups, ∃ t rest, g.takes = t :: rest ∧ g.scene = t.id.scene := by
      intro g hg
      obtain ⟨t, rest, htakes⟩ := List.exists_cons_of_ne_nil (h.nonempty g hg)
      exact ⟨t, rest, htakes, (h.shared g hg t (htakes ▸ List.mem_cons_self)).symm⟩
    refine ⟨h.joined, fun g hg => ?_, (isChain_equals_iff htext h.joined ?_).mpr h.apart⟩
    · obtain ⟨t, rest, htakes, hscene⟩ := hfirst g hg
      refine ⟨t, rest, htakes, hscene, fun u hu => ?_⟩
      have hmem : u ∈ g.takes := htakes ▸ List.mem_cons_of_mem t hu
      rw [(htext u (mem_of_joined h.joined hg hmem)).equals_iff]
      exact (h.shared g hg u hmem).symm
    · intro g hg
      obtain ⟨t, rest, htakes, hscene⟩ := hfirst g hg
      exact ⟨t, htakes ▸ List.mem_cons_self, hscene⟩
  · intro h
    refine ⟨h.joined, fun g hg => ?_, fun g hg u hu => ?_,
      (isChain_equals_iff htext h.joined ?_).mp h.apart⟩
    · obtain ⟨t, rest, htakes, -⟩ := h.runs g hg
      rw [htakes]
      exact List.cons_ne_nil t rest
    · have hutext := htext u (mem_of_joined h.joined hg hu)
      obtain ⟨t, rest, htakes, hscene, hrest⟩ := h.runs g hg
      rw [htakes] at hu
      rcases List.mem_cons.mp hu with rfl | hu
      · exact hscene.symm
      · exact ((hutext.equals_iff g.scene).mp (hrest u hu)).symm
    · intro g hg
      obtain ⟨t, rest, htakes, hscene, -⟩ := h.runs g hg
      exact ⟨t, htakes ▸ List.mem_cons_self, hscene⟩

/-- The groups of takes are the only way to cut the takes into runs of one scene that cannot be
longer. This also holds of scenes that are no texts, which may be equal without being the same. -/
theorem groupByScene_unique (takes : List Take) (groups : List SceneGroup) :
    ((∀ t ∈ takes, t.HasTextScene) →
      (AreTextRuns takes groups ↔ groups = groupByScene takes)) ∧
    ((∀ t ∈ takes, t.id.scene.Proper) →
      (AreRuns takes groups ↔ groups = groupByScene takes)) := by
  refine ⟨fun htext => ?_, areRuns_iff⟩
  rw [areTextRuns_iff htext]
  apply areRuns_iff
  intro t ht
  obtain ⟨s, hs⟩ := htext t ht
  rw [hs]
  exact .key rfl

/-- A scene that comes back after another one has a group of its own. -/
theorem groupByScene_unique_reappearing :
    let take (scene num : String) : Take := ⟨.ofText scene num, .str "A001", false⟩
    let takes := [take "1" "1", take "1" "2", take "2" "1", take "1" "3"]
    let groups : List SceneGroup :=
      [⟨.str "1", [take "1" "1", take "1" "2"]⟩, ⟨.str "2", [take "2" "1"]⟩,
        ⟨.str "1", [take "1" "3"]⟩]
    (∀ t ∈ takes, t.HasTextScene) ∧ (∀ t ∈ takes, t.id.scene.Proper) ∧
      AreTextRuns takes groups ∧ AreRuns takes groups := by
  intro take takes groups
  have htext : ∀ t ∈ takes, t.HasTextScene := by
    simp only [takes, List.forall_mem_cons]
    exact ⟨⟨_, rfl⟩, ⟨_, rfl⟩, ⟨_, rfl⟩, ⟨_, rfl⟩, nofun⟩
  have hproper : ∀ t ∈ takes, t.id.scene.Proper := by
    simp only [takes, List.forall_mem_cons]
    exact ⟨.key rfl, .key rfl, .key rfl, .key rfl, nofun⟩
  have hgroups : groups = groupByScene takes := by cbv
  obtain ⟨hruns, hruns'⟩ := groupByScene_unique takes groups
  exact ⟨htext, hproper, (hruns htext).mpr hgroups, (hruns' hproper).mpr hgroups⟩

end CardImport
