import CardImport.Memory.Keeper
import CardImport.Proofs.Json.Reread
import CardImport.Proofs.Listing
import Mathlib.Data.List.DropRight

/-!
# What a memory recalls

A memory is written as an object of texts, each name once, and such an object is read as the same
memory. So what was set is recalled however often the memory is read again, as long as its file can
be written. Where it cannot, a text is recalled until the memory is read again. No change fails.
-/

namespace CardImport

/-! ## Computations that come to a value -/

namespace Noted

variable {α β : Type}

/-- Whether a computation comes to a value, whatever was noted before. -/
def Gives (x : Noted α) (a : α) : Prop := ∀ before, (x.run.run before).1 = .ok a

theorem gives_pure (a : α) : Gives (pure a) a := fun _ => rfl

theorem Gives.bind {x : Noted α} {f : α → Noted β} {a : α} {b : β} (hx : Gives x a)
    (hf : Gives (f a) b) : Gives (x >>= f) b := by
  intro before
  have ha := hx before
  rw [run_bind]
  rcases hrun : x.run.run before with ⟨e | a', after⟩
  · rw [hrun] at ha
    cases ha
  · rw [hrun] at ha
    cases ha
    exact hf after

theorem Gives.unique {x : Noted α} {a b : α} (ha : Gives x a) (hb : Gives x b) : a = b :=
  Except.ok.inj ((ha []).symm.trans (hb []))

end Noted

namespace Memory

open Noted

/-! ## Memories as objects -/

def fieldsOf (m : Memory) : Fields := m.texts.map fun p => (p.1, .str p.2)

theorem names_fieldsOf (m : Memory) : m.fieldsOf.names = m.texts.map Prod.fst := by
  rw [fieldsOf, Fields.names, List.map_map]
  rfl

theorem get?_fieldsOf (m : Memory) (name : String) :
    m.fieldsOf.get? name = (m.get? name).map .str := by
  unfold fieldsOf Fields.get? get?
  induction m.texts with
  | nil => rfl
  | cons p rest ih =>
      rw [List.map_cons, List.lookup_cons, List.lookup_cons, ih]
      cases name == p.1 <;> rfl

theorem fieldsOf_set (m : Memory) (name text : String) :
    (m.set name text).fieldsOf = m.fieldsOf.set name (.str text) := by
  unfold fieldsOf set
  dsimp only
  induction m.texts with
  | nil => rfl
  | cons p rest ih =>
      obtain ⟨n, t⟩ := p
      rw [put, List.map_cons, Fields.set]
      split
      · rfl
      · rw [List.map_cons, ih]

theorem get?_set (m : Memory) (name text other : String) :
    (m.set name text).get? other = if name = other then some text else m.get? other := by
  refine Option.map_injective (fun _ _ => Json.str.inj) ?_
  rw [← get?_fieldsOf, fieldsOf_set]
  split
  · rename_i heq
    subst heq
    exact Fields.get?_set_self _ _ _
  · rename_i hne
    rw [Fields.get?_set_of_ne _ _ (Ne.symm hne), get?_fieldsOf]

/-- Whether each name is there once. -/
def Distinct (m : Memory) : Prop := m.fieldsOf.names.Nodup

theorem distinct_empty : Distinct {} := List.nodup_nil

theorem Distinct.set {m : Memory} (h : m.Distinct) (name text : String) :
    (m.set name text).Distinct := by
  rw [Distinct, fieldsOf_set]
  exact Fields.nodup_names_set h name _

/-! ## Reading the file -/

/-- The text that a file holds under a name: that of a field of its object. -/
def textIn? [Json.Nesting] (file : Option ByteArray) (name : String) : Option String :=
  match file.map Json.ofFile with
  | some (.ok (.obj fields)) => (Fields.get? fields name).map Json.text
  | _ => none

theorem get?_ofFields (fields : Fields) (name : String) :
    get? ⟨fields.map fun f => (f.1, f.2.text)⟩ name = (fields.get? name).map Json.text := by
  unfold get? Fields.get?
  dsimp only
  induction fields with
  | nil => rfl
  | cons f rest ih =>
      rw [List.map_cons, List.lookup_cons, List.lookup_cons, ih]
      cases name == f.1 <;> rfl

/-- Whether a file holds a memory. -/
structure Holds [Json.Nesting] (path : String) (file : Option ByteArray) (m : Memory) : Prop where
  gives : Gives (load path file) m
  distinct : m.Distinct

/-- A file holds an object, or it is ignored, or refused. -/
theorem load_cases [Json.Nesting] (path : String) (bytes : ByteArray) :
    (∃ fields, Json.ofFile bytes = .ok (.obj fields) ∧
      load path (some bytes) = pure ⟨fields.map fun f => (f.1, f.2.text)⟩) ∨
    (∀ fields, Json.ofFile bytes ≠ .ok (.obj fields)) ∧
      ((∀ f, Json.ofFile bytes = .error f → f = .notJson) ∧
          (∃ message, load path (some bytes) = do
            Noted.write .warning .memory message; return {}) ∨
        ∃ f, Json.ofFile bytes = .error f ∧ f ≠ .notJson ∧ load path (some bytes) = throw f) := by
  unfold load
  dsimp only
  split
  · rename_i fields hread
    exact Or.inl ⟨fields, hread, rfl⟩
  · rename_i data hdata hread
    refine Or.inr ⟨fun fields h => ?_, Or.inl ⟨fun f h => ?_, _, rfl⟩⟩
    · cases hread.symm.trans h
      exact hdata fields rfl
    · cases hread.symm.trans h
  · rename_i hread
    refine Or.inr ⟨fun fields h => ?_, Or.inl ⟨fun f h => ?_, _, rfl⟩⟩
    · cases hread.symm.trans h
    · cases hread.symm.trans h
      rfl
  · rename_i f hnot hread
    refine Or.inr ⟨fun fields h => ?_, Or.inr ⟨f, hread, ?_, rfl⟩⟩
    · cases hread.symm.trans h
    · rintro rfl
      exact hnot rfl

theorem textIn?_of_no_object [Json.Nesting] {bytes : ByteArray}
    (h : ∀ fields, Json.ofFile bytes ≠ .ok (.obj fields)) (name : String) :
    textIn? (some bytes) name = none := by
  unfold textIn?
  split
  · rename_i fields hread
    exact absurd (Option.some.inj hread) (h fields)
  · rfl

/-- The memory of a file that is accepted has the texts of the file. -/
theorem of_load [Json.Nesting] {path : String} {file : Option ByteArray} {m : Memory}
    (h : (load path file).outcome.1 = .ok m) :
    Holds path file m ∧ ∀ name, m.get? name = textIn? file name := by
  cases file with
  | none =>
      cases h
      exact ⟨⟨gives_pure _, distinct_empty⟩, fun _ => rfl⟩
  | some bytes =>
      rcases load_cases path bytes with
        ⟨fields, hread, hload⟩ | ⟨hread, ⟨-, _, hload⟩ | ⟨f, -, -, hload⟩⟩
      · rw [hload] at h
        cases h
        have hnames : (fields.map fun f => (f.1, f.2.text)).map Prod.fst = Fields.names fields := by
          rw [List.map_map]
          rfl
        refine ⟨⟨fun _ => by rw [hload]; rfl, ?_⟩, fun name => ?_⟩
        · rw [Distinct, names_fieldsOf, hnames]
          cases Json.readable_of_ofFile hread with
          | obj unique readable => exact unique
        · rw [get?_ofFields, textIn?, Option.map_some, hread]
      · rw [hload] at h
        cases h
        refine ⟨⟨fun _ => by rw [hload]; rfl, distinct_empty⟩, fun name => ?_⟩
        rw [textIn?_of_no_object hread]
        rfl
      · rw [hload] at h
        cases h

/-- What a memory is written to holds it. -/
theorem Distinct.holds [Json.Nesting] {m : Memory} (h : m.Distinct) (path : String) :
    Holds path (some m.fileText.toUTF8) m := by
  have htexts : ∀ f ∈ m.fieldsOf, Json.Readable (Json.Nesting.limit - 1) f.2 := by
    intro f hf
    obtain ⟨p, -, rfl⟩ := List.mem_map.mp hf
    exact .str _
  have hread : Json.ofFile m.fileText.toUTF8 = .ok (.obj m.fieldsOf) :=
    Json.ofFile_write (@Json.Readable.obj (Json.Nesting.limit - 1) _ h htexts) .file
  have hsame : (m.fieldsOf.map fun f => (f.1, f.2.text)) = m.texts := by
    rw [fieldsOf, List.map_map]
    exact List.map_id _
  refine ⟨fun before => ?_, h⟩
  rw [load, hread]
  dsimp only
  rw [hsame]
  rfl

/-! ## Single changes -/

namespace Change

/-- The text that a change sets under a name. -/
def text? (name : String) : Change → Option String
  | .set other text _ => if other = name then some text else none
  | .reload => none

def isWritten : Change → Bool
  | .set _ _ written => written
  | .reload => true

def isUnwritten : Change → Bool
  | .set _ _ written => !written
  | .reload => true

def isReload : Change → Bool
  | .set .. => false
  | .reload => true

end Change

/-- The text that was set last under a name. -/
def lastSet? (name : String) (changes : List Change) : Option String :=
  (changes.filterMap (Change.text? name)).getLast?

theorem lastSet?_concat (name : String) (changes : List Change) (c : Change) :
    lastSet? name (changes ++ [c]) = (c.text? name).or (lastSet? name changes) := by
  unfold lastSet?
  rw [List.filterMap_append]
  cases h : c.text? name with
  | none => simp [h]
  | some text => simp [h]

def sinceReload (changes : List Change) : List Change := changes.rtakeWhile fun c => !c.isReload

theorem sinceReload_set (changes : List Change) (name text : String) (written : Bool) :
    sinceReload (changes ++ [.set name text written]) =
      sinceReload changes ++ [.set name text written] :=
  List.rtakeWhile_concat_pos _ _ _ rfl

theorem sinceReload_reload (changes : List Change) : sinceReload (changes ++ [.reload]) = [] :=
  List.rtakeWhile_concat_neg _ _ _ Bool.false_ne_true

namespace Keeper

/-- A set never fails. -/
theorem gives_set (path : String) (k : Keeper) (name text : String) (written : Bool) :
    Gives (k.set path name text written) ⟨k.memory.set name text,
      if written then some (k.memory.set name text).fileText.toUTF8 else k.file⟩ := by
  cases written with
  | true => exact fun _ => rfl
  | false => exact fun _ => rfl

theorem run_concat [Json.Nesting] (path : String) (k : Keeper) (changes : List Change)
    (c : Change) :
    k.run path (changes ++ [c]) = k.run path changes >>= fun k' => k'.step path c := by
  induction changes generalizing k with
  | nil => exact bind_pure _
  | cons first rest ih =>
      rw [List.cons_append, run, run, bind_assoc]
      exact congrArg _ (funext fun k' => ih k')

/-! ## All changes -/

/-- What a keeper recalls after changes from a file. -/
structure Recalls [Json.Nesting] (path : String) (file : Option ByteArray) (changes : List Change)
    (k : Keeper) : Prop where
  distinct : k.memory.Distinct
  /-- The file can be read again. -/
  readable : ∃ m, Holds path k.file m
  written : (∀ c ∈ changes, c.isWritten = true) → Holds path k.file k.memory ∧
    ∀ name, k.memory.get? name = (lastSet? name changes).or (textIn? file name)
  unwritten : (∀ c ∈ changes, c.isUnwritten = true) → k.file = file ∧
    ∀ name, k.memory.get? name = (lastSet? name (sinceReload changes)).or (textIn? file name)
  held : ∀ name text, lastSet? name (sinceReload changes) = some text →
    k.memory.get? name = some text

theorem recalls_ofFile [Json.Nesting] {path : String} {file : Option ByteArray} {k : Keeper}
    (h : (ofFile path file).outcome.1 = .ok k) : k.Recalls path file [] := by
  obtain ⟨m, before, hm, hk⟩ := ok_of_bind h
  cases hk
  obtain ⟨hholds, htexts⟩ := of_load hm
  exact ⟨hholds.distinct, ⟨m, hholds⟩, fun _ => ⟨hholds, htexts⟩, fun _ => ⟨rfl, htexts⟩, nofun⟩

theorem get?_set_eq (m : Memory) (name text other : String) (written : Bool) :
    (m.set name text).get? other =
      ((Change.set name text written).text? other).or (m.get? other) := by
  rw [get?_set, Change.text?]
  split <;> rfl

theorem Recalls.set [Json.Nesting] {path : String} {file : Option ByteArray} {changes : List Change}
    {k : Keeper} (h : k.Recalls path file changes) (name text : String) (written : Bool) :
    ∃ k', Gives (k.set path name text written) k' ∧
      k'.Recalls path file (changes ++ [.set name text written]) := by
  have hdistinct := h.distinct.set name text
  -- The new entry comes last, so it decides over those of its name that came before.
  have hlast : ∀ other, lastSet? other (sinceReload (changes ++ [.set name text written])) =
      ((Change.set name text written).text? other).or (lastSet? other (sinceReload changes)) := by
    intro other
    rw [sinceReload_set, lastSet?_concat]
  refine ⟨_, gives_set path k name text written, hdistinct, ?_, ?_, ?_, ?_⟩
  · cases written with
    | true => exact ⟨_, hdistinct.holds path⟩
    | false => exact h.readable
  · intro hall
    obtain rfl : written = true := hall (.set name text written) (by simp)
    have hbefore := (h.written fun c hc => hall c (List.mem_append_left _ hc)).2
    refine ⟨hdistinct.holds path, fun other => ?_⟩
    rw [get?_set_eq _ _ _ _ true, hbefore, lastSet?_concat, Option.or_assoc]
  · intro hall
    obtain rfl : written = false := by
      have hlast := hall (.set name text written) (by simp)
      rwa [Change.isUnwritten, Bool.not_eq_true'] at hlast
    obtain ⟨hfile, hbefore⟩ := h.unwritten fun c hc => hall c (List.mem_append_left _ hc)
    refine ⟨hfile, fun other => ?_⟩
    rw [get?_set_eq _ _ _ _ false, hbefore, hlast, Option.or_assoc]
  · intro other held hheld
    rw [hlast] at hheld
    rw [get?_set_eq _ _ _ _ written]
    cases hnew : (Change.set name text written).text? other with
    | some new => rwa [hnew] at hheld
    | none =>
        rw [hnew] at hheld
        exact h.held other held hheld

theorem Recalls.reload [Json.Nesting] {path : String} {file : Option ByteArray}
    {changes : List Change} {k : Keeper} (h : k.Recalls path file changes) :
    ∃ k', Gives (ofFile path k.file) k' ∧ k'.Recalls path file (changes ++ [.reload]) := by
  obtain ⟨m, hm⟩ := h.readable
  have hload : (load path k.file).outcome.1 = .ok m := hm.gives []
  have hlast : ∀ name, lastSet? name (changes ++ [.reload]) = lastSet? name changes := by
    intro name
    rw [lastSet?_concat]
    rfl
  refine ⟨⟨m, k.file⟩, hm.gives.bind (gives_pure _), hm.distinct, ⟨m, hm⟩, ?_, ?_, ?_⟩
  · intro hall
    obtain ⟨hholds, hbefore⟩ := h.written fun c hc => hall c (List.mem_append_left _ hc)
    obtain rfl := hm.gives.unique hholds.gives
    refine ⟨hm, fun name => ?_⟩
    rw [hbefore, hlast]
  · intro hall
    obtain ⟨hfile, -⟩ := h.unwritten fun c hc => hall c (List.mem_append_left _ hc)
    refine ⟨hfile, fun name => ?_⟩
    rw [(of_load hload).2, hfile, sinceReload_reload]
    rfl
  · intro name text hnone
    rw [sinceReload_reload] at hnone
    cases hnone

/-- No change fails. As long as the file can be written each text is recalled as it was set last,
and else as it was in the file at first, however often the memory is read again; where it cannot, a
text that was set is recalled until the memory is read again. -/
theorem recalls_run [Json.Nesting] {path : String} {file : Option ByteArray} {k : Keeper}
    (opened : (ofFile path file).outcome.1 = .ok k) (changes : List Change) :
    ∃ k', Gives (k.run path changes) k' ∧ k'.Recalls path file changes := by
  induction changes using List.reverseRecOn with
  | nil => exact ⟨k, gives_pure k, recalls_ofFile opened⟩
  | append_singleton changes c ih =>
      obtain ⟨k', hrun, hk'⟩ := ih
      rw [run_concat]
      cases c with
      | set name text written =>
          obtain ⟨k'', hstep, hk''⟩ := hk'.set name text written
          exact ⟨k'', hrun.bind hstep, hk''⟩
      | reload =>
          obtain ⟨k'', hstep, hk''⟩ := hk'.reload
          exact ⟨k'', hrun.bind hstep, hk''⟩

end Keeper

end Memory

end CardImport
