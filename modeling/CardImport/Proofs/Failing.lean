import CardImport.Job.Client
import CardImport.Proofs.Listing
import CardImport.Session.Control

/-!
# How decoding fails

Bodies are decoded by looking up, converting and typing values, and each of these fails in its own
ways. One of them no caller reckons with: a whole number that is asked of an infinite one.
-/

namespace CardImport

variable {α β : Type} {P : Failure → Prop}

/-! ## Ways to fail -/

/-- Whether a result fails in these ways only. -/
def FailsAs (P : Failure → Prop) (x : Except Failure α) : Prop := ∀ f, x = .error f → P f

theorem failsAs_ok (a : α) : FailsAs P (.ok a) := by
  rintro f ⟨⟩

theorem FailsAs.error {f : Failure} (h : P f) : FailsAs P (.error f : Except Failure α) := by
  rintro _ ⟨⟩
  exact h

theorem FailsAs.bind {x : Except Failure α} {f : α → Except Failure β} (hx : FailsAs P x)
    (hf : ∀ a, x = .ok a → FailsAs P (f a)) : FailsAs P (x >>= f) := by
  cases x with
  | error e => exact FailsAs.error (hx e rfl)
  | ok a => exact hf a rfl

theorem FailsAs.mono {Q : Failure → Prop} {x : Except Failure α} (hx : FailsAs P x)
    (h : ∀ f, P f → Q f) : FailsAs Q x := fun f hf => h f (hx f hf)

namespace Noted

/-- Whether a noted computation fails in these ways only. -/
def FailsAs (P : Failure → Prop) (x : Noted α) : Prop :=
  ∀ before, CardImport.FailsAs P (x.run.run before).1

theorem FailsAs.outcome {x : Noted α} (h : FailsAs P x) : CardImport.FailsAs P x.outcome.1 := h []

theorem failsAs_pure (a : α) : FailsAs P (pure a : Noted α) := fun _ => failsAs_ok a

theorem failsAs_write (level : Level) (source : Source) (message : String) :
    FailsAs P (write level source message) := fun _ => failsAs_ok ()

theorem FailsAs.throw {f : Failure} (h : P f) : FailsAs P (throw f : Noted α) :=
  fun _ => CardImport.FailsAs.error h

theorem FailsAs.lift {x : Except Failure α} (h : CardImport.FailsAs P x) :
    FailsAs P (x : Noted α) := by
  intro before
  rw [run_lift]
  exact h

theorem FailsAs.bind {x : Noted α} {f : α → Noted β} (hx : FailsAs P x)
    (hf : ∀ a, FailsAs P (f a)) : FailsAs P (x >>= f) := by
  intro before
  rw [run_bind]
  rcases hrun : x.run.run before with ⟨e | a, after⟩
  · exact CardImport.FailsAs.error (hx before e (congrArg Prod.fst hrun))
  · exact hf a after

theorem run_tryCatch (x : Noted α) (handle : Failure → Noted α) (before : List Entry) :
    (MonadExcept.tryCatch x handle).run.run before =
      match x.run.run before with
      | (.ok a, after) => (.ok a, after)
      | (.error f, after) => (handle f).run.run after := by
  show (ExceptT.tryCatch x handle).run.run before = _
  simp only [ExceptT.tryCatch, ExceptT.run_mk, StateT.run_bind]
  rcases hrun : x.run.run before with ⟨f | a, after⟩
  · change StateT.run x before = _ at hrun
    rw [hrun]
    rfl
  · change StateT.run x before = _ at hrun
    rw [hrun]
    rfl

/-- A failure that is caught is replaced by what is done about it. -/
theorem FailsAs.tryCatch {Q : Failure → Prop} {x : Noted α} {handle : Failure → Noted α}
    (hx : FailsAs Q x) (hhandle : ∀ f, Q f → FailsAs P (handle f)) :
    FailsAs P (MonadExcept.tryCatch x handle) := by
  intro before
  rw [run_tryCatch]
  rcases hrun : x.run.run before with ⟨f | a, after⟩
  · exact hhandle f (hx before f (congrArg Prod.fst hrun)) after
  · exact failsAs_ok a

/-- What a result came to is known to what is done with it. -/
theorem FailsAs.bind_lift {x : Except Failure α} {f : α → Noted β}
    (hx : CardImport.FailsAs P x) (hf : ∀ a, x = .ok a → FailsAs P (f a)) :
    FailsAs P ((x : Noted α) >>= f) := by
  intro before
  rw [run_bind, run_lift]
  cases x with
  | error e => exact CardImport.FailsAs.error (hx e rfl)
  | ok a => exact hf a rfl before

theorem FailsAs.mapM {f : α → Noted β} {xs : List α} (hf : ∀ x ∈ xs, FailsAs P (f x)) :
    FailsAs P (xs.mapM f) := by
  induction xs with
  | nil => exact failsAs_pure []
  | cons x rest ih =>
      rw [List.mapM_cons]
      refine (hf x List.mem_cons_self).bind fun y => ?_
      refine (ih fun z hz => hf z (List.mem_cons_of_mem _ hz)).bind fun ys => ?_
      exact failsAs_pure _

end Noted

/-! ## Values and what they hold -/

/-- Whether a failure is one of looking up, converting or typing a value. -/
def BadData (f : Failure) : Prop := f.kind.isBadData = true

namespace Json

/-- The values in which no number is infinite. -/
inductive Bounded : Json → Prop
  | null : Bounded .null
  | bool (b : Bool) : Bounded (.bool b)
  | int (n : Int) : Bounded (.int n)
  | float {x : Binary64} (finite : ∀ negative, x ≠ .infinite negative) : Bounded (.float x)
  | str (s : String) : Bounded (.str s)
  | arr {elements : List Json} (bounded : ∀ x ∈ elements, Bounded x) : Bounded (.arr elements)
  | obj {fields : Fields} (bounded : ∀ f ∈ fields, Bounded f.2) : Bounded (.obj fields)

/-- A kind of values: what one holds is of the kind too, and a whole number that is asked of one
fails in these ways only. -/
structure Yields (P : Failure → Prop) (Q : Json → Prop) : Prop where
  badData : ∀ f, BadData f → P f
  null : Q .null
  zero : Q (.int 0)
  str : ∀ s, Q (.str s)
  element : ∀ {elements x}, Q (.arr elements) → x ∈ elements → Q x
  field : ∀ {fields f}, Q (.obj fields) → f ∈ fields → Q f.2
  whole : ∀ {x}, Q x → FailsAs P x.toWhole

section Yields

variable {Q : Json → Prop} (hQ : Yields P Q)

include hQ

theorem Yields.fields {data : Json} (h : Q data) : ∀ f ∈ data.fields?.getD [], Q f.2 := by
  intro f hf
  cases data with
  | obj fields => exact hQ.field h hf
  | _ => cases hf

omit hQ in
theorem of_get? {fields : Fields} (h : ∀ f ∈ fields, Q f.2) {name : String} {x : Json}
    (hx : fields.get? name = some x) : Q x := by
  obtain ⟨before, after, rfl, -⟩ := List.lookup_eq_some_iff.mp hx
  exact h (name, x) (List.mem_append_right _ List.mem_cons_self)

theorem Yields.getD {data : Json} (h : Q data) (name : String) {default : Json}
    (hdefault : Q default) : Q (Fields.getD (data.fields?.getD []) name default) := by
  unfold Fields.getD
  cases hget : Fields.get? (data.fields?.getD []) name with
  | none => exact hdefault
  | some x => exact of_get? (hQ.fields h) hget

theorem Yields.require {data x : Json} {name : String} (h : Q data)
    (hx : data.require name = .ok x) : Q x := by
  cases data with
  | obj fields =>
      rw [Json.require] at hx
      cases hget : Fields.get? fields name with
      | none =>
          rw [hget] at hx
          cases hx
      | some y =>
          rw [hget] at hx
          cases hx
          exact of_get? (hQ.fields h) hget
  | _ => cases hx

theorem Yields.elements {data : Json} {xs : List Json} (h : Q data)
    (hxs : data.elementsOrNone = .ok xs) : ∀ x ∈ xs, Q x := by
  unfold elementsOrNone at hxs
  split at hxs
  · cases data with
    | str s =>
        cases hxs
        exact List.forall_mem_map.mpr fun c _ => hQ.str _
    | arr elements =>
        cases hxs
        exact fun x hx => hQ.element h hx
    | obj fields =>
        cases hxs
        exact List.forall_mem_map.mpr fun f _ => hQ.str _
    | _ => cases hxs
  · cases hxs
    exact List.forall_mem_nil _

end Yields

theorem failsAs_require (data : Json) (name : String) : FailsAs BadData (data.require name) := by
  unfold require
  split
  · split
    · exact failsAs_ok _
    · exact FailsAs.error rfl
  · exact FailsAs.error rfl

theorem failsAs_elementsOrNone (data : Json) : FailsAs BadData data.elementsOrNone := by
  unfold elementsOrNone
  split
  · cases data <;> first | exact failsAs_ok _ | exact FailsAs.error rfl
  · exact failsAs_ok _

theorem failsAs_readWhole (cs : List Char) :
    FailsAs BadData (numberResult (Number.readWhole cs)) := by
  unfold Number.readWhole
  dsimp only
  split
  · exact FailsAs.error rfl
  · split
    · exact FailsAs.error rfl
    · split
      · exact FailsAs.error rfl
      · exact failsAs_ok _

/-- Whether a whole number was asked of an infinite one. -/
def AsksInfinity (f : Failure) : Prop := f = .number .wholeOfInfinity

/-- Only an infinite number has a whole part that is too large. -/
theorem failsAs_toWhole (x : Json) :
    FailsAs (fun f => BadData f ∨ AsksInfinity f ∧ ¬ Bounded x) x.toWhole := by
  cases x with
  | bool b => exact failsAs_ok _
  | int n => exact failsAs_ok _
  | str s => exact (failsAs_readWhole _).mono fun _ => Or.inl
  | float x =>
      cases x with
      | nan => exact FailsAs.error (Or.inl rfl)
      | infinite negative =>
          refine FailsAs.error (Or.inr ⟨rfl, ?_⟩)
          rintro ⟨⟩
          rename_i finite
          exact finite negative rfl
      | finite negative m e canonical => exact failsAs_ok _
  | _ => exact FailsAs.error (Or.inl rfl)

/-- Without infinite numbers whole numbers fail as bad data does. -/
theorem Bounded.yields (hP : ∀ f, BadData f → P f) : Yields P Bounded where
  badData := hP
  null := .null
  zero := .int 0
  str := .str
  element h hx := by
    cases h with
    | arr bounded => exact bounded _ hx
  field h hf := by
    cases h with
    | obj bounded => exact bounded _ hf
  whole h := (failsAs_toWhole _).mono fun f hf =>
    hf.elim (hP f) fun hinfinite => absurd h hinfinite.2

/-- Any other value may also ask a whole number of an infinite one. -/
theorem yields_any (hP : ∀ f, BadData f → P f) (hinfinite : ∀ f, AsksInfinity f → P f) :
    Yields P fun _ => True where
  badData := hP
  null := trivial
  zero := trivial
  str _ := trivial
  element _ _ := trivial
  field _ _ := trivial
  whole _ := (failsAs_toWhole _).mono fun f hf => hf.elim (hP f) fun h => hinfinite f h.1

end Json

/-! ## Decoding what the server answers -/

open Json

section Yields

variable {Q : Json → Prop} (hQ : Yields P Q)

include hQ

theorem Json.Yields.failsAs_clip {data : Json} (h : Q data) : FailsAs P (Clip.ofJson data) := by
  unfold Clip.ofJson
  refine ((failsAs_require data "name").mono hQ.badData).bind fun name _ => ?_
  refine ((failsAs_elementsOrNone _).mono hQ.badData).bind fun paths _ => ?_
  refine (hQ.whole (hQ.getD h "totalSize" hQ.zero)).bind fun size _ => ?_
  exact failsAs_ok _

theorem Json.Yields.failsAs_count {x : Json} (h : Q x) : FailsAs P (JobStatus.count x) := by
  unfold JobStatus.count
  split
  · exact hQ.whole h
  · exact failsAs_ok _

end Yields

theorem failsAs_take (data : Json) : FailsAs BadData (Take.ofJson data) := by
  unfold Take.ofJson TakeId.ofJson
  refine (failsAs_require data "id").bind fun id _ => ?_
  refine FailsAs.bind ?_ fun _ _ => failsAs_ok _
  refine (failsAs_require id "scene").bind fun scene _ => ?_
  exact (failsAs_require id "num").bind fun num _ => failsAs_ok _

theorem isMalformed_of_badData {f : Failure} (h : BadData f) : Job.isMalformed f = true := by
  rw [Job.isMalformed, h]
  rfl

section Yields

variable {Q : Json → Prop} (hQ : Yields P Q) (hmalformed : ∀ f, Job.isMalformed f = true → P f)

include hmalformed

theorem failsAs_timestamp (value : Json) : Noted.FailsAs P (Timestamp.decode value) := by
  unfold Timestamp.decode
  split
  · exact Noted.failsAs_pure _
  · split
    · split
      · exact (Noted.failsAs_write _ _ _).bind fun _ => Noted.failsAs_pure _
      · exact Noted.failsAs_pure _
    · exact Noted.FailsAs.throw (hmalformed _ rfl)

include hQ

theorem Json.Yields.failsAs_clipResult {data : Json} (h : Q data) :
    Noted.FailsAs P (ClipResult.decode data) := by
  unfold ClipResult.decode
  refine Noted.FailsAs.bind_lift ((failsAs_require data "clip").mono hQ.badData)
    fun clip hclip => ?_
  refine (Noted.FailsAs.lift (hQ.failsAs_clip (hQ.require h hclip))).bind fun clip => ?_
  refine (failsAs_timestamp hmalformed _).bind fun start => ?_
  exact (failsAs_timestamp hmalformed _).bind fun finish => Noted.failsAs_pure _

theorem Json.Yields.failsAs_status {data : Json} (h : Q data) :
    Noted.FailsAs P (JobStatus.decode data) := by
  have hfield : ∀ name, Q (Fields.getD (data.fields?.getD []) name .null) :=
    fun name => hQ.getD h name hQ.null
  unfold JobStatus.decode
  cases hfields : data.fields? with
  | none => exact Noted.FailsAs.throw (hmalformed _ rfl)
  | some fields =>
      rw [hfields] at hfield
      have hcount : ∀ name, FailsAs P (JobStatus.count (Fields.getD fields name .null)) :=
        fun name => hQ.failsAs_count (hfield name)
      have hlist : ∀ name, FailsAs P (Fields.getD fields name .null).elementsOrNone :=
        fun name => (failsAs_elementsOrNone _).mono hQ.badData
      refine Noted.FailsAs.bind_lift (failsAs_ok fields) fun _ hok => ?_
      cases hok
      refine Noted.FailsAs.bind_lift (hcount _) fun copied _ => ?_
      refine Noted.FailsAs.bind_lift (hcount _) fun total _ => ?_
      refine (failsAs_timestamp hmalformed _).bind fun start => ?_
      refine (failsAs_timestamp hmalformed _).bind fun eta => ?_
      refine Noted.FailsAs.bind_lift (hlist _) fun entries hentries => ?_
      refine (Noted.FailsAs.mapM fun entry hentry => hQ.failsAs_clipResult hmalformed
        (hQ.elements (hfield "results") hentries entry hentry)).bind fun _ => ?_
      refine Noted.FailsAs.bind_lift (hlist _) fun clips hclips => ?_
      refine (Noted.FailsAs.mapM fun clip hclip => Noted.FailsAs.lift (hQ.failsAs_clip
        (hQ.elements (hfield "pending") hclips clip hclip))).bind fun _ => ?_
      exact Noted.failsAs_pure _

end Yields

/-- A body without infinite numbers is a status, or one that is put down to the server. -/
theorem failsAs_status {data : Json} (h : Bounded data) :
    Noted.FailsAs (fun f => Job.isMalformed f = true) (JobStatus.decode data) :=
  (Bounded.yields fun _ => isMalformed_of_badData).failsAs_status (fun _ => id) h

/-- What is put down to the server fails as a request does. -/
theorem failsAs_decodeStatus {r : Response} (h : Bounded r.data) :
    Noted.FailsAs (fun f => f.isRemote = true) (Job.decodeStatus r) := by
  have hdata : Bounded (if r.data.truthy then r.data else .obj []) := by
    split
    · exact h
    · exact .obj (List.forall_mem_nil _)
  refine (failsAs_status hdata).tryCatch fun f hf => ?_
  rw [if_pos hf]
  refine (Noted.failsAs_write _ _ _).bind fun _ => ?_
  exact Noted.FailsAs.throw rfl

end CardImport
