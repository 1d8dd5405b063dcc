import CardImport.Proofs.Session.Source
import CardImport.Proofs.Session.Told

/-!
# Settled lists

Whatever happens to a session, the list in place is one that the server answered with, whole and in
its order, and a name leads to the first item that has it. As long as no listing is on its way, the
list is that of the path.
-/

namespace CardImport

namespace Session

theorem Indexed.edit {s : Session} (hs : s.Indexed) (e : Edit) : (s.edit e).1.Indexed := by
  have hnames := congrArg (List.map Clip.name) (Control.clips_edit s e)
  simp only [List.map_map] at hnames
  exact hs.trans (NameIndex.ofItems_congr hnames).symm

theorem Indexed.lookup {s : Session} (hs : s.Indexed) {name : Json} (hname : name.isKey = true) :
    s.lookup name = .ok (s.items.findIdx? fun i => i.clip.name.alike name) := by
  rw [Session.lookup, if_pos hname, find?, hs, NameIndex.position?_ofItems hname]

end Session

namespace Control

/-! ## The index -/

theorem indexed_lookSession {c : Control} (hc : c.session.Indexed) (n : Nat)
    (r : Except Failure Response) : (c.lookSession n r).Indexed :=
  hc.of_base (base_lookSession c n r)

theorem Turn.indexed {c : Control} {id : TaskId} {i : Input} {t t' : Task} {s : Session}
    {actions : List Action} (h : Turn c id i t s t' actions) (hc : c.session.Indexed) :
    s.Indexed := by
  cases h with
  | loadEmpty | listShown | listFailed => rfl
  | loadEnds | refreshEnds | pollIdle | pollGoesOn | pollBroken | pollRetries =>
      exact indexed_lookSession hc _ _
  | pollGivesUp =>
      split
      · exact indexed_lookSession hc _ _
      · exact indexed_lookSession hc _ _
  | _ => exact hc

theorem Move.indexed {c c' : Control} {i : Input} {actions : List Action}
    (h : Move c i c' actions) (hc : c.session.Indexed) : c'.session.Indexed := by
  cases h with
  | edited e => exact hc.edit e
  | polled =>
      rw [session_startPolling]
      exact hc
  | turned ht hturn => exact hturn.indexed hc
  | accepted =>
      rw [session_setTask, session_startPolling]
      exact hc
  | opened | closed | started | dropped => exact hc

theorem indexed_run (o : SessionOptions) (inputs : List Input) :
    (o.begin.run inputs).1.session.Indexed := by
  have hbegin : o.begin.session.Indexed := rfl
  exact run_keeps (P := fun c => c.session.Indexed) Move.indexed hbegin inputs

/-! ## Whole lists -/

/-- The list in place is empty, or all that the load was answered which put it there. -/
def Whole (c₀ : Control) (inputs : List Input) : Prop :=
  (c₀.run inputs).1.session.items = [] ∨ ∃ id q, c₀.lister? none inputs = some (id, q) ∧
    c₀.Listed inputs id q ((c₀.run inputs).1.session.items.map Item.clip)

theorem Sourced.whole_concat {c₀ : Control} {inputs : List Input} (h : Sourced c₀ inputs)
    (hwhole : c₀.Whole inputs) (i : Input) : c₀.Whole (inputs ++ [i]) := by
  have hrelist := (move_step (c₀.run inputs).1 i).relist
  generalize hshown : (c₀.run inputs).1.shown? ((c₀.run inputs).1.step i).1 i = shown at hrelist
  unfold Whole
  rw [run_concat_fst, lister?_concat, hshown]
  cases hrelist with
  | @arrived id path takes m ht ht' hpath =>
      -- The load that shows its list is current, so it listed under the path of the session.
      cases h.known ht with
      | listing hcovers hasked hwaits hlisted =>
          obtain ⟨-, rfl⟩ : _ ∧ path = (c₀.run inputs).1.session.path :=
            hcovers.resolve_left (Nat.lt_irrefl _)
          exact Or.inr ⟨id, _, rfl, (hlisted _ rfl).append _⟩
      | listed hlisted => exact hlisted.elim
      | other hother => cases hother
  | emptied hitems => exact Or.inl hitems
  | kept hclips hsettled =>
      rcases hwhole with hitems | ⟨id, q, hlister, hlisted⟩
      · rw [hitems] at hclips
        exact Or.inl (List.map_eq_nil_iff.mp hclips)
      · rw [hclips]
        exact Or.inr ⟨id, q, hlister, hlisted.append _⟩

theorem whole_run (o : SessionOptions) (inputs : List Input) : o.begin.Whole inputs := by
  induction inputs using List.reverseRecOn with
  | nil => exact Or.inl rfl
  | append_singleton inputs i ih => exact (sourced_run o inputs).whole_concat ih i

/-! ## Settled lists -/

/-- In a run the clips under a path were asked for, and the answer had these entries. -/
def Served (c : Control) (inputs : List Input) (path : String) (entries : List Json) : Prop :=
  ∃ id before response after,
    inputs = before ++ .response (.leg id .clips) (.ok response) :: after ∧
      c.AskedClips before id path ∧ response.isSuccess = true ∧
      response.data.elementsOrNone = .ok entries

theorem Listed.served {c : Control} {inputs : List Input} {id : TaskId} {path : String}
    {clips : List Clip} (h : c.Listed inputs id path clips) :
    ∃ entries, c.Served inputs path entries ∧
      List.Forall₂ (fun entry clip => Clip.ofJson entry = .ok clip) entries clips := by
  obtain ⟨before, r, after, rfl, hasked, hclips⟩ := h
  obtain ⟨response, entries, rfl, hsuccess, hentries, hall⟩ := entries_of_listClips hclips
  exact ⟨entries, ⟨id, before, response, after, rfl, hasked, hsuccess, hentries⟩, hall⟩

/-- As long as no listing is on its way, the list is empty or has one item for each entry of an
answer under the path of the session, and a name leads to the first item that has it. -/
theorem served_of_settled (o : SessionOptions) (inputs : List Input)
    (hsettled : (o.begin.run inputs).1.session.loading = false) :
    let s := (o.begin.run inputs).1.session
    (s.items = [] ∨ ∃ entries, o.begin.Served inputs s.path entries ∧
      List.Forall₂ (fun entry i => Clip.ofJson entry = .ok i.clip) entries s.items) ∧
    ∀ name, name.isKey = true →
      s.lookup name = .ok (s.items.findIdx? fun i => i.clip.name.alike name) := by
  intro s
  constructor
  · rcases (sourced_run o inputs).settled hsettled with hitems | ⟨id, hlister⟩
    · exact Or.inl hitems
    · rcases whole_run o inputs with hitems | ⟨id', q, hlister', hlisted⟩
      · exact Or.inl hitems
      · -- The list was put in place under the path that the session still has.
        cases hlister.symm.trans hlister'
        obtain ⟨entries, hserved, hall⟩ := hlisted.served
        rw [List.forall₂_map_right_iff] at hall
        exact Or.inr ⟨entries, hserved, hall⟩
  · intro name hname
    exact (indexed_run o inputs).lookup hname

/-- After the first load the list is that of its path. -/
theorem served_of_first_load :
    let s := (({} : SessionOptions).begin.run (firstLoad "/a")).1.session
    s.loading = false ∧ s.items ≠ [] ∧
      (∃ entries, ({} : SessionOptions).begin.Served (firstLoad "/a") "/a" entries ∧
        List.Forall₂ (fun entry i => Clip.ofJson entry = .ok i.clip) entries s.items) ∧
      s.lookup (.str "a") = .ok (some 0) := by
  intro s
  have hsettled : s.loading = false := rfl
  have hitems : s.items ≠ [] := nofun
  obtain ⟨hlist, hnames⟩ := served_of_settled {} (firstLoad "/a") hsettled
  exact ⟨hsettled, hitems, hlist.resolve_left hitems, hnames (.str "a") rfl⟩

end Control

end CardImport
