import CardImport.Listing
import Mathlib.Data.List.Forall2

/-!
# Listed items

The items of a listing are those of the clips that were listed, each clip once and in their order,
and there is one clip for each entry that the server answered with.
-/

namespace CardImport.Reconcile

theorem map_clip_itemsFrom (scene : Json) (takes : List Take) (position : Nat)
    (clips : List Clip) : (itemsFrom scene takes position clips).map Item.clip = clips := by
  induction clips generalizing position with
  | nil => rfl
  | cons c rest ih =>
      rw [itemsFrom, List.map_cons, ih]
      rfl

theorem itemsFrom_eq (scene : Json) (takes : List Take) (position : Nat) (clips : List Clip) :
    itemsFrom scene takes position clips =
      clips.mapIdx fun p c => item scene takes (position + p) c := by
  induction clips generalizing position with
  | nil => rfl
  | cons c rest ih =>
      have hnext : ∀ p, position + 1 + p = position + (p + 1) := by
        intro p
        omega
      rw [itemsFrom, ih, List.mapIdx_cons]
      simp only [hnext, Nat.add_zero]

theorem items_ok {scene : Json} {clips : List Clip} {takes : List Take}
    {listed : List Item} (h : items scene clips takes = .ok listed) :
    itemsFrom scene takes 0 clips = listed := by
  unfold items at h
  split at h
  · exact Except.ok.inj h
  · cases h

theorem map_clip_items {scene : Json} {clips : List Clip} {takes : List Take}
    {listed : List Item} (h : items scene clips takes = .ok listed) :
    listed.map Item.clip = clips := by
  rw [← items_ok h]
  exact map_clip_itemsFrom scene takes 0 clips

theorem outcome_combine (scene : Json) (path : String) (clips : List Clip) (takes : List Take) :
    (combine scene path (.ok clips) (.ok takes)).outcome =
      match items scene clips takes with
      | .ok listed => (.ok listed, [loaded path listed])
      | .error f => (.error f, []) := by
  have hbind : (combine scene path (.ok clips) (.ok takes)).outcome =
      ((liftM (items scene clips takes) : Noted (List Item)) >>= fun listed => do
        modify (· ++ [loaded path listed])
        return listed).outcome := rfl
  rw [hbind]
  cases items scene clips takes <;> rfl

theorem listings_of_combine {scene : Json} {path : String} {clips : Except Failure (List Clip)}
    {takes : Except Failure (List Take)} {listed : List Item}
    (h : (combine scene path clips takes).outcome.1 = .ok listed) :
    ∃ cs ts, clips = .ok cs ∧ takes = .ok ts ∧ items scene cs ts = .ok listed := by
  cases clips with
  | error f => cases h
  | ok cs =>
      cases takes with
      | error f => cases h
      | ok ts =>
          rw [outcome_combine] at h
          refine ⟨cs, ts, rfl, rfl, ?_⟩
          cases hitems : items scene cs ts with
          | error f =>
              rw [hitems] at h
              cases h
          | ok found =>
              rw [hitems] at h
              exact h

theorem clips_of_combine {scene : Json} {path : String} {clips : Except Failure (List Clip)}
    {takes : Except Failure (List Take)} {listed : List Item} {entries : List Entry}
    (h : (combine scene path clips takes).outcome = (.ok listed, entries)) :
    clips = .ok (listed.map Item.clip) := by
  obtain ⟨cs, ts, rfl, -, hitems⟩ := listings_of_combine (congrArg Prod.fst h)
  rw [map_clip_items hitems]

end CardImport.Reconcile

namespace CardImport

namespace Noted

variable {α β : Type} {before : List Entry}

theorem run_bind (x : Noted α) (f : α → Noted β) (before : List Entry) :
    (x >>= f).run.run before =
      match x.run.run before with
      | (.ok a, after) => (f a).run.run after
      | (.error e, after) => (.error e, after) := by
  simp only [ExceptT.run_bind, StateT.run_bind]
  rcases x.run.run before with ⟨_ | a, after⟩ <;> rfl

theorem ok_of_bind {x : Noted α} {f : α → Noted β} {b : β}
    (h : ((x >>= f).run.run before).1 = .ok b) :
    ∃ a after, (x.run.run before).1 = .ok a ∧ ((f a).run.run after).1 = .ok b := by
  rw [run_bind] at h
  rcases hx : x.run.run before with ⟨_ | a, after⟩
  · rw [hx] at h
    cases h
  · rw [hx] at h
    exact ⟨a, after, rfl, h⟩

theorem run_lift (x : Except Failure α) (before : List Entry) :
    (x : Noted α).run.run before = (x, before) := by
  cases x <;> rfl

theorem forall₂_of_mapM {f : α → Except Failure β} {xs : List α} {ys : List β}
    (h : ((xs.mapM fun x => (f x : Noted β)).run.run before).1 = .ok ys) :
    List.Forall₂ (fun x y => f x = .ok y) xs ys := by
  induction xs generalizing ys before with
  | nil =>
      cases h
      exact .nil
  | cons x rest ih =>
      rw [List.mapM_cons] at h
      obtain ⟨y, after, hy, h⟩ := ok_of_bind h
      obtain ⟨later, last, hlater, h⟩ := ok_of_bind h
      cases h
      rw [run_lift] at hy
      exact .cons hy (ih hlater)

end Noted

theorem entries_of_listClips {path : String} {r : Except Failure Response} {clips : List Clip}
    (h : ((listClips path).finish r).outcome.1 = .ok clips) :
    ∃ response entries, r = .ok response ∧ response.isSuccess = true ∧
      response.data.elementsOrNone = .ok entries ∧
      List.Forall₂ (fun entry clip => Clip.ofJson entry = .ok clip) entries clips := by
  cases r with
  | error f => cases h
  | ok response =>
      simp only [Noted.outcome, Call.finish, listClips] at h
      cases hsuccess : response.isSuccess with
      | false =>
          simp only [hsuccess] at h
          cases h
      | true =>
          simp only [hsuccess] at h
          obtain ⟨entries, after, hentries, h⟩ := Noted.ok_of_bind h
          rw [Noted.run_lift] at hentries
          exact ⟨response, entries, rfl, hsuccess, hentries, Noted.forall₂_of_mapM h⟩

theorem entries_of_listTakes {r : Except Failure Response} {takes : List Take}
    (h : (Registry.list.finish r).outcome.1 = .ok takes) :
    ∃ response entries, r = .ok response ∧ response.isSuccess = true ∧
      response.data.elementsOrNone = .ok entries ∧
      List.Forall₂ (fun entry take => Take.ofJson entry = .ok take) entries takes := by
  cases r with
  | error f => cases h
  | ok response =>
      simp only [Noted.outcome, Call.finish, Registry.list, Registry.checked] at h
      cases hsuccess : response.isSuccess with
      | false =>
          simp only [hsuccess] at h
          cases h
      | true =>
          simp only [hsuccess] at h
          obtain ⟨_, after, hchecked, h⟩ := Noted.ok_of_bind h
          cases hchecked
          obtain ⟨entries, after, hentries, h⟩ := Noted.ok_of_bind h
          rw [Noted.run_lift] at hentries
          exact ⟨response, entries, rfl, hsuccess, hentries, Noted.forall₂_of_mapM h⟩

end CardImport
