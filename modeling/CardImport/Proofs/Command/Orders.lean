import CardImport.Command.Run

/-!
# Orders

An order is a command with its options and arguments, as they come out of the words of a command
line. The settings are read first, and then the order is carried out.
-/

namespace CardImport.Command

inductive Order where
  | importClips (o : ImportOptions)
  | showStatus (json : Bool)
  | listTakes (json : Bool)
  | showTake (scene num : String)
  | editTake (scene num : String) (changes : TakeChanges)
  /-- `agreed` if the question is answered beforehand. -/
  | deleteTake (agreed : Bool) (scene num : String)

/-- Whether an order is an import, the only one that can go on for ever. -/
def Order.IsImport (o : Order) : Prop := ∃ options, o = .importClips options

/-- Whether JSON is asked for, where nothing else can be; none if the words do not fit. -/
def jsonFlag? (words : List String) : Option Bool :=
  match Words.parse? [jsonOption] true words with
  | some ⟨options, []⟩ => some (Words.isSet ⟨options, []⟩ "json")
  | _ => none

theorem withJson_of_flag {m : Type → Type} [Monad m] {words : List String}
    {json : Bool} (h : jsonFlag? words = some json) (next : Bool → Step m Exit) :
    withJson words next = next json := by
  unfold jsonFlag? at h
  split at h
  · rename_i options hparse
    cases h
    rw [withJson, hparse]
  · cases h

def showOrder? (words : List String) : Option Order :=
  match Words.parse? [] true words with
  | some ⟨_, [scene, num]⟩ => some (.showTake scene num)
  | _ => none

def editOrder? (words : List String) : Option Order := do
  let w ← Words.parse? editSpecs true words
  match w.arguments with
  | [scene, num] =>
    some (.editTake scene num {
      scene := (w.value? "scene").map .str
      num := (w.value? "num").map .str
      clipName := (w.value? "clip-name").map .str
      select := w.flag? "select" })
  | _ => none

def deleteOrder? (words : List String) : Option Order := do
  let w ← Words.parse? deleteSpecs true words
  match w.arguments with
  | [scene, num] => some (.deleteTake (w.isSet "yes") scene num)
  | _ => none

def takesOrder? (words : List String) : Option Order :=
  match Words.parse? [] false words with
  | some ⟨_, "list" :: rest⟩ => (jsonFlag? rest).map .listTakes
  | some ⟨_, "show" :: rest⟩ => showOrder? rest
  | some ⟨_, "edit" :: rest⟩ => editOrder? rest
  | some ⟨_, "delete" :: rest⟩ => deleteOrder? rest
  | _ => none

/-- The order in a command line; none if the words do not fit a command that reaches the server. -/
def orderOf? (words : List String) : Option Order :=
  match Words.parse? verboseOptions false words with
  | some ⟨_, "import" :: rest⟩ => (importOptions? rest).map .importClips
  | some ⟨_, "status" :: rest⟩ => (jsonFlag? rest).map .showStatus
  | some ⟨_, "takes" :: rest⟩ => takesOrder? rest
  | _ => none

variable {m : Type → Type} [Monad m] [Console m]

def Order.perform [Json.Nesting] (limit : Nat) (s : Settings) : Order → Step m Exit
  | importClips o => importCommand limit s o
  | showStatus json => statusCommand (endpointOf s) json
  | listTakes json => Command.listTakes (endpointOf s) json
  | showTake scene num => Command.showTake (endpointOf s) (TakeId.ofText scene num)
  | editTake scene num changes =>
    Command.editTake (endpointOf s) (TakeId.ofText scene num) changes
  | deleteTake agreed scene num => do
    let agreed ← if agreed then pure true else confirm deleteQuestion limit
    if !agreed then return failed
    else Command.deleteTake (endpointOf s) (TakeId.ofText scene num)

def Order.run [Json.Nesting] (limit : Nat) (o : Order) : Step m Exit := do
  o.perform limit (← loadSettings)

/-! ## Command lines as orders -/

theorem runShow_of_order [Json.Nesting] {words : List String} {o : Order}
    (h : showOrder? words = some o) (limit : Nat) (s : Settings) :
    (runShow (endpointOf s) words : Step m Exit) = o.perform limit s := by
  unfold showOrder? at h
  split at h
  · rename_i options scene num hparse
    cases h
    rw [runShow, hparse]
    rfl
  · cases h

theorem runEdit_of_order [Json.Nesting] {words : List String} {o : Order}
    (h : editOrder? words = some o) (limit : Nat) (s : Settings) :
    (runEdit (endpointOf s) words : Step m Exit) = o.perform limit s := by
  unfold editOrder? at h
  obtain ⟨w, hparse, h⟩ := Option.bind_eq_some_iff.mp h
  split at h
  · rename_i scene num hwords
    cases h
    unfold runEdit
    simp only [hparse, hwords]
    rfl
  · cases h

theorem runDelete_of_order [Json.Nesting] {words : List String} {o : Order}
    (h : deleteOrder? words = some o) (limit : Nat) (s : Settings) :
    (runDelete limit (endpointOf s) words : Step m Exit) = o.perform limit s := by
  unfold deleteOrder? at h
  obtain ⟨w, hparse, h⟩ := Option.bind_eq_some_iff.mp h
  split at h
  · rename_i scene num hwords
    cases h
    unfold runDelete
    simp only [hparse, hwords]
    rfl
  · cases h

theorem runTakes_of_order [Json.Nesting] {words : List String} {o : Order}
    (h : takesOrder? words = some o) (limit : Nat) (s : Settings) :
    (runTakes limit (endpointOf s) words : Step m Exit) = o.perform limit s := by
  unfold takesOrder? at h
  split at h
  · rename_i options rest hparse
    obtain ⟨json, hjson, rfl⟩ := Option.map_eq_some_iff.mp h
    rw [runTakes, hparse]
    exact withJson_of_flag hjson _
  · rename_i options rest hparse
    rw [runTakes, hparse]
    exact runShow_of_order h limit s
  · rename_i options rest hparse
    rw [runTakes, hparse]
    exact runEdit_of_order h limit s
  · rename_i options rest hparse
    rw [runTakes, hparse]
    exact runDelete_of_order h limit s
  · cases h

/-- The words of an order run that order. -/
theorem run_of_order [Json.Nesting] {words : List String} {o : Order} (h : orderOf? words = some o)
    (limit : Nat) : (run limit words : Step m Exit) = o.run limit := by
  unfold orderOf? at h
  split at h
  · rename_i options rest hparse
    obtain ⟨o, hoptions, rfl⟩ := Option.map_eq_some_iff.mp h
    unfold run
    simp only [hparse, hoptions]
    rfl
  · rename_i options rest hparse
    obtain ⟨json, hjson, rfl⟩ := Option.map_eq_some_iff.mp h
    rw [run, hparse]
    show (loadSettings >>= fun s => withJson rest (statusCommand (endpointOf s))) = _
    simp only [withJson_of_flag hjson]
    rfl
  · rename_i options rest hparse
    rw [run, hparse]
    show (loadSettings >>= fun s => runTakes limit (endpointOf s) rest) = _
    simp only [runTakes_of_order h limit]
    rfl
  · cases h

end CardImport.Command
