import CardImport.Item
import CardImport.Settings.Section

/-!
# Settings

The settings have two sections: how the server is reached, and how clips are imported. Each
section is checked as a whole whenever one of its values changes.
-/

namespace CardImport

/-! ## The server -/

structure ServerSettings where
  baseUrl : String := "http://localhost:8080"
  /-- Seconds that a request may take. -/
  timeout : Number := .real (Binary64.ofNat 30)

namespace ServerSettings

def fields (s : ServerSettings) : Fields :=
  [("base_url", .str s.baseUrl), ("timeout_seconds", .ofNumber s.timeout)]

def schemes : List (List Char) := ["http://".toList, "https://".toList]

def hasScheme (url : String) : Bool := schemes.any fun s => s.isPrefixOf url.toList

def checkUrl (url : String) : Except SettingError Unit :=
  if hasScheme url then .ok () else .error (.badUrl url)

def checkTimeout (seconds : Number) : Except SettingError Unit :=
  if seconds.le (.whole 0) then .error (.badTimeout seconds) else .ok ()

def check (s : ServerSettings) : Except SettingError ServerSettings := do
  checkUrl s.baseUrl
  checkTimeout s.timeout
  return s

/-- Settings of values that need not be of the right type. -/
def make (baseUrl timeout : Json) : Except Failure ServerSettings :=
  match baseUrl with
  | .str baseUrl => do
    (checkUrl baseUrl).mapError .setting
    let timeout ← timeout.toNumber
    (checkTimeout timeout).mapError .setting
    return { baseUrl, timeout }
  | _ => .error .noAttribute

end ServerSettings

/-! ## Importing -/

structure ImportSettings where
  /-- The scene of newly listed clips. -/
  defaultScene : Json := .str CardImport.defaultScene
  /-- Where clips go if nothing else is asked for. -/
  defaultSubdirectory : Json := .str ""
  /-- Milliseconds between two looks at the job. -/
  pollInterval : Number := .whole 500
  /-- How many failures in a row are tolerated. -/
  maxRetries : Number := .whole 5
  /-- The longest delay before a retry, in milliseconds. -/
  maxBackoff : Number := .whole 8000

namespace ImportSettings

def fields (s : ImportSettings) : Fields :=
  [("default_scene", s.defaultScene),
    ("default_subdirectory", s.defaultSubdirectory),
    ("poll_interval_ms", .ofNumber s.pollInterval),
    ("max_poll_retries", .ofNumber s.maxRetries),
    ("max_poll_backoff_ms", .ofNumber s.maxBackoff)]

def checkScene (scene : Json) : Except SettingError Unit :=
  if scene.truthy then .ok () else .error .emptyScene

def checkInterval (interval : Number) : Except SettingError Unit :=
  if interval.le (.whole 0) then .error (.badInterval interval) else .ok ()

def checkRetries (count : Number) : Except SettingError Unit :=
  if Number.le (.whole 0) count && count.le (.whole 20) then .ok () else .error (.badRetries count)

def checkBackoff (backoff interval : Number) : Except SettingError Unit :=
  if backoff.lt interval then .error (.badBackoff backoff interval) else .ok ()

def check (s : ImportSettings) : Except SettingError ImportSettings := do
  checkScene s.defaultScene
  checkInterval s.pollInterval
  checkRetries s.maxRetries
  checkBackoff s.maxBackoff s.pollInterval
  return s

/-- Settings of values that need not be of the right type. -/
def make (defaultScene defaultSubdirectory interval retries backoff : Json) :
    Except Failure ImportSettings := do
  (checkScene defaultScene).mapError .setting
  let pollInterval ← interval.toNumber
  (checkInterval pollInterval).mapError .setting
  let maxRetries ← retries.toNumber
  (checkRetries maxRetries).mapError .setting
  let maxBackoff ← backoff.toNumber
  (checkBackoff maxBackoff pollInterval).mapError .setting
  return { defaultScene, defaultSubdirectory, pollInterval, maxRetries, maxBackoff }

def pollSeconds (s : ImportSettings) : Except Failure Number :=
  (s.pollInterval.divNat 1000).map .real |>.mapError .number

/-- The longest delay before a retry, in seconds. -/
def backoffSeconds (s : ImportSettings) : Except Failure Number :=
  (s.maxBackoff.divNat 1000).map .real |>.mapError .number

end ImportSettings

/-! ## All settings -/

structure Settings where
  server : ServerSettings := {}
  importing : ImportSettings := {}
  schemaVersion : Json := .str "1.0"

namespace Settings

def fieldsOf (s : Settings) : Section → Fields
  | .server => s.server.fields
  | .importing => s.importing.fields

def toJson (s : Settings) : Json :=
  .obj (("schema_version", s.schemaVersion) ::
    Section.all.map fun part => (part.name, .obj (s.fieldsOf part)))

def isDefault (s : Settings) : Bool := s.toJson.alike ({} : Settings).toJson

/-- A field as an object; an object without fields if it is not there. -/
def section? (name : String) (fields : Fields) : Except Failure Fields :=
  match (Fields.getD fields name (.obj [])).fields? with
  | some fields => .ok fields
  | none => .error .noAttribute

/-- The settings that a value describes; what it leaves out keeps its first value. -/
def ofJson (data : Json) : Except Failure Settings := do
  let first : Settings := {}
  let fields ← match data.fields? with
    | some fields => .ok fields
    | none => .error .noAttribute
  let serverFields ← section? "server" fields
  let timeout ←
    (Fields.getD serverFields "timeout_seconds" (.ofNumber first.server.timeout)).toBinary
  let server ← ServerSettings.make
    (Fields.getD serverFields "base_url" (.str first.server.baseUrl)) (.float timeout)
  let importFields ← section? "import" fields
  let whole (name : String) (default : Number) : Except Failure Int :=
    (Fields.getD importFields name (.ofNumber default)).toWhole
  let pollInterval ← whole "poll_interval_ms" first.importing.pollInterval
  let maxRetries ← whole "max_poll_retries" first.importing.maxRetries
  let maxBackoff ← whole "max_poll_backoff_ms" first.importing.maxBackoff
  let importing ← ImportSettings.make
    (Fields.getD importFields "default_scene" first.importing.defaultScene)
    (Fields.getD importFields "default_subdirectory" first.importing.defaultSubdirectory)
    (.int pollInterval) (.int maxRetries) (.int maxBackoff)
  let schemaVersion := Fields.getD fields "schema_version" first.schemaVersion
  return { server, importing, schemaVersion }

/-! ## Single settings -/

inductive Key where
  | baseUrl | timeout | defaultScene | defaultSubdirectory | pollInterval | maxRetries | maxBackoff
deriving DecidableEq, Repr

def Key.all : List Key :=
  [.baseUrl, .timeout, .defaultScene, .defaultSubdirectory, .pollInterval, .maxRetries, .maxBackoff]

def Key.name : Key → String
  | .baseUrl => "server.base_url"
  | .timeout => "server.timeout_seconds"
  | .defaultScene => "import.default_scene"
  | .defaultSubdirectory => "import.default_subdirectory"
  | .pollInterval => "import.poll_interval_ms"
  | .maxRetries => "import.max_poll_retries"
  | .maxBackoff => "import.max_poll_backoff_ms"

def Key.value (s : Settings) : Key → Json
  | .baseUrl => .str s.server.baseUrl
  | .timeout => .ofNumber s.server.timeout
  | .defaultScene => s.importing.defaultScene
  | .defaultSubdirectory => s.importing.defaultSubdirectory
  | .pollInterval => .ofNumber s.importing.pollInterval
  | .maxRetries => .ofNumber s.importing.maxRetries
  | .maxBackoff => .ofNumber s.importing.maxBackoff

/-- What a written key names: a setting, a delay in seconds that follows from one, or something
about a section itself. -/
inductive Named where
  | setting (key : Key)
  | pollSeconds
  | backoffSeconds
  | about (part : Section) (name : String)

/-- Takes a key apart: a section and a name with one point between them. -/
def named (key : String) : Except SettingError Named :=
  match key.toList.splitOnP (· == '.') with
  | [sectionName, name] =>
    match Section.all.find? (·.name == String.ofList sectionName) with
    | none => .error (.unknownSection (String.ofList sectionName))
    | some part =>
      match Key.all.find? (·.name == key) with
      | some k => .ok (.setting k)
      | none =>
        if key = "import.poll_interval" then .ok .pollSeconds
        else if key = "import.max_poll_backoff" then .ok .backoffSeconds
        else if Section.reservedNames.contains (String.ofList name) then
          .ok (.about part (String.ofList name))
        else .error (.unknownKey key)
  | _ => .error (.badKeyFormat key)

def get (s : Settings) (key : String) : Except Failure Json := do
  if key = "schema_version" then return s.schemaVersion
  else match ← (named key).mapError .setting with
    | .setting k => return k.value s
    | .pollSeconds => return .ofNumber (← s.importing.pollSeconds)
    | .backoffSeconds => return .ofNumber (← s.importing.backoffSeconds)
    | .about part name => return part.about (s.fieldsOf part) name

/-- A conversion whose failure is reported as a bad value, unless a number was too large. -/
def converted {α : Type} (key : String) (value : Json) : Except Failure α → Except Failure α
  | .ok x => .ok x
  | .error e => .error (if e.kind.isBadData then .setting (.badValue key value) else e)

def setServer (s : Settings) (server : ServerSettings) : Except Failure Settings := do
  return { s with server := ← server.check.mapError .setting }

def setImporting (s : Settings) (importing : ImportSettings) : Except Failure Settings := do
  return { s with importing := ← importing.check.mapError .setting }

def setKey (s : Settings) (k : Key) (value : Json) : Except Failure Settings :=
  let whole : Except Failure Number := (converted k.name value value.toWhole).map .whole
  match k with
  | .baseUrl => s.setServer { s.server with baseUrl := value.text }
  | .timeout => do
    let timeout ← (converted k.name value value.toBinary)
    s.setServer { s.server with timeout := .real timeout }
  | .defaultScene => s.setImporting { s.importing with defaultScene := .str value.text }
  | .defaultSubdirectory =>
    s.setImporting { s.importing with defaultSubdirectory := .str value.text }
  | .pollInterval => do s.setImporting { s.importing with pollInterval := ← whole }
  | .maxRetries => do s.setImporting { s.importing with maxRetries := ← whole }
  | .maxBackoff => do s.setImporting { s.importing with maxBackoff := ← whole }

def set (s : Settings) (key : String) (value : Json) : Except Failure Settings := do
  match ← (named key).mapError .setting with
  | .setting k => s.setKey k value
  | .pollSeconds =>
    let _ ← s.importing.pollSeconds
    throw (.setting (.readOnlyKey key))
  | .backoffSeconds =>
    let _ ← s.importing.backoffSeconds
    throw (.setting (.readOnlyKey key))
  | .about .. => throw (.setting (.readOnlyKey key))

end Settings

end CardImport
