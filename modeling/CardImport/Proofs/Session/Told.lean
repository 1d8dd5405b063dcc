import CardImport.Proofs.Index
import CardImport.Proofs.Session.Merge

/-!
# What a status tells of an item

A merge that goes through gives each item the state that the status tells of its name: the first
pending clip is active, and any other ended as the last of its results says. An item that the status
does not name keeps its state. Names that occur twice lead to the first item only.
-/

namespace CardImport

/-- The state in the last result that has a name. -/
def ClipResult.last? (name : Json) : List ClipResult → Option ItemState
  | [] => none
  | r :: rest => (last? name rest).or
      (if name.alike r.clip.name then some (Session.resultState r) else none)

/-- What a status tells of a name. -/
def JobStatus.tells? (status : JobStatus) (name : Json) : Option ItemState :=
  match status.pending with
  | [] => ClipResult.last? name status.results
  | c :: _ => if name.alike c.name then some .active else ClipResult.last? name status.results

theorem ClipResult.last?_ne_ready (name : Json) (results : List ClipResult) :
    last? name results ≠ some .ready := by
  induction results with
  | nil => exact nofun
  | cons r rest ih =>
      unfold last?
      cases hrest : last? name rest with
      | some state =>
          rw [hrest] at ih
          exact ih
      | none =>
          unfold Session.resultState
          split
          · split <;> exact nofun
          · exact nofun

theorem JobStatus.tells?_ne_ready (status : JobStatus) (name : Json) :
    status.tells? name ≠ some .ready := by
  unfold tells?
  cases status.pending with
  | nil => exact ClipResult.last?_ne_ready name status.results
  | cons c rest =>
      show (if name.alike c.name then some .active else ClipResult.last? name status.results) ≠ _
      split
      · exact nofun
      · exact ClipResult.last?_ne_ready name status.results

/-- An item after a status. -/
def Item.hear (status : JobStatus) (i : Item) : Item :=
  { i with state := (status.tells? i.clip.name).getD i.state }

namespace Session

/-- Whether the index is that of the items. -/
def Indexed (s : Session) : Prop := s.index = .ofItems s.items

theorem names_of_base {s s' : Session} (h : s'.base = s.base) :
    s'.items.map (fun i => i.clip.name) = s.items.map fun i => i.clip.name := by
  have hplain : s'.items.map Item.plain = s.items.map Item.plain := congrArg Session.items h
  have hnames := congrArg (List.map fun i : Item => i.clip.name) hplain
  simpa [Function.comp_def, Item.plain] using hnames

theorem Indexed.of_base {s s' : Session} (hs : s.Indexed) (h : s'.base = s.base) :
    s'.Indexed := by
  have hindex := congrArg Session.index h
  change s'.index = s.index at hindex
  unfold Indexed at hs ⊢
  rw [hindex, hs, NameIndex.ofItems_congr (names_of_base h)]

theorem lookup_eq {s : Session} (hs : s.Indexed) {name : Json} {found : Option Nat}
    (h : s.lookup name = .ok found) {p : Nat} {i : Item} (hi : s.items[p]? = some i)
    (hfirst : Items.IsFirst s.items p i.clip.name) :
    found = some p ↔ i.clip.name.alike name = true := by
  unfold lookup at h
  split at h
  · rename_i hkey
    cases h
    unfold find?
    rw [hs, NameIndex.position?_ofItems_eq_some_iff hkey hi]
    exact and_iff_left hfirst
  · cases h

theorem mark_at {s s' : Session} (hs : s.Indexed) {name : Json} {state : ItemState}
    (h : s.mark name state = .ok s') {p : Nat} {i : Item} (hi : s.items[p]? = some i)
    (hfirst : Items.IsFirst s.items p i.clip.name) :
    s'.items[p]? = some { i with state := if i.clip.name.alike name then state else i.state } := by
  unfold mark at h
  cases hl : s.lookup name with
  | error f =>
      rw [hl] at h
      cases h
  | ok found =>
      -- An item is found under its name only where it is the first of that name.
      have hfound := lookup_eq hs hl hi hfirst
      rw [hl] at h
      cases found with
      | none =>
          cases h
          have hno : ¬ i.clip.name.alike name = true := fun hn => nomatch hfound.mpr hn
          rw [hi, if_neg hno]
      | some position =>
          cases h
          simp only [List.getElem?_modify, hi]
          by_cases hp : position = p
          · subst hp
            rw [if_pos (hfound.mp rfl)]
            simp
          · have hno : ¬ i.clip.name.alike name = true :=
              fun hn => hp (Option.some.inj (hfound.mpr hn))
            rw [if_neg hno]
            simp [hp]

theorem mergeResults_at {s s' : Session} (hs : s.Indexed) {results : List ClipResult}
    (h : s.mergeResults results = (s', .ok ())) {p : Nat} {i : Item} (hi : s.items[p]? = some i)
    (hfirst : Items.IsFirst s.items p i.clip.name) :
    s'.items[p]? =
      some { i with state := (ClipResult.last? i.clip.name results).getD i.state } := by
  induction results generalizing s i with
  | nil =>
      cases h
      exact hi
  | cons r rest ih =>
      unfold mergeResults at h
      cases hm : s.mark r.clip.name (resultState r) with
      | error f =>
          rw [hm] at h
          cases h
      | ok marked =>
          rw [hm] at h
          have hbase := base_mark hm
          have hfirst' := hfirst.congr (names_of_base hbase).symm
          rw [ih (hs.of_base hbase) h (mark_at hs hm hi hfirst) hfirst']
          -- A later result counts more.
          cases hlast : ClipResult.last? i.clip.name rest with
          | some state => simp [ClipResult.last?, hlast]
          | none =>
              by_cases hn : i.clip.name.alike r.clip.name = true
              · simp [ClipResult.last?, hlast, hn]
              · simp [ClipResult.last?, hlast, hn]

/-- A merge that goes through lets the first item of each name hear the status. -/
theorem merge_at {s s' : Session} (hs : s.Indexed) {status : JobStatus}
    (h : s.merge status = (s', .ok ())) {p : Nat} {i : Item} (hi : s.items[p]? = some i)
    (hfirst : Items.IsFirst s.items p i.clip.name) : s'.items[p]? = some (i.hear status) := by
  unfold merge at h
  cases hprogress : Progress.ofStatus status with
  | error e =>
      rw [hprogress] at h
      cases h
  | ok progress =>
      rw [hprogress] at h
      rcases hresults : (s.mergeJob status progress).mergeResults status.results with ⟨s₁, _ | _⟩
      · simp only [hresults] at h
        cases h
      · simp only [hresults] at h
        have hjob : (s.mergeJob status progress).Indexed := hs
        have hat := mergeResults_at hjob hresults hi hfirst
        have hbase := base_mergeResults (s.mergeJob status progress) status.results
        rw [hresults] at hbase
        have hfirst₁ := hfirst.congr (names_of_base hbase).symm
        unfold mergePending at h
        unfold Item.hear JobStatus.tells?
        -- The clip that is being copied is marked last, over what the results said of it.
        cases hpending : status.pending with
        | nil =>
            rw [hpending] at h
            cases h
            exact hat
        | cons c rest =>
            rw [hpending] at h
            cases hm : s₁.mark c.name .active with
            | error f =>
                simp only [hm] at h
                cases h
            | ok s₂ =>
                simp only [hm] at h
                cases h
                rw [mark_at (hjob.of_base hbase) hm hat hfirst₁]
                by_cases hn : i.clip.name.alike c.name = true
                · simp [hn]
                · simp [hn]

/-- With distinct names all items hear a merge that goes through. -/
theorem items_merge {s s' : Session} (hs : s.Indexed) {status : JobStatus}
    (h : s.merge status = (s', .ok ())) (hdistinct : Items.Distinct s.items) :
    s'.items = s.items.map (Item.hear status) := by
  have hbase := base_merge s status
  rw [h] at hbase
  apply List.ext_getElem?
  intro p
  rw [List.getElem?_map]
  cases hi : s.items[p]? with
  | some i => exact merge_at hs h hi (hdistinct.isFirst hi)
  | none =>
      -- The list has not grown.
      have hnames := congrArg (fun names => names[p]?) (names_of_base hbase)
      simpa [hi] using hnames

end Session

end CardImport
