import CardImport.Proofs.Settings.Reload

/-!
# What becomes of a settings file

A file that describes settings gives them. Of the others most are noted, and the first settings are
used: what cannot be converted or does not pass its check is bad data. But a value without fields
where a section is looked for, an address that is no text, and a number beyond the range of what is
asked of it are not reckoned with, and neither is a text that is nested too deep. A file whose first
fault is one of these gives no settings at all.
-/

namespace CardImport

open Settings

variable {α β : Type}

/-! ## Failures that are not reckoned with -/

/-- Whether a computation fails in a way that is not taken for bad data. -/
def Breaks (x : Except Failure α) : Prop := ∃ f, x = .error f ∧ f.kind.isBadData = false

theorem not_breaks_ok (a : α) : ¬ Breaks (.ok a : Except Failure α) := by
  rintro ⟨f, hf, -⟩
  cases hf

theorem breaks_error {f : Failure} :
    Breaks (.error f : Except Failure α) ↔ f.kind.isBadData = false := by
  constructor
  · rintro ⟨_, ⟨rfl⟩, h⟩
    exact h
  · exact fun h => ⟨f, rfl, h⟩

/-- A computation breaks in its first part, or goes through it and breaks later. -/
theorem breaks_bind {x : Except Failure α} {f : α → Except Failure β} :
    Breaks (x >>= f) ↔ Breaks x ∨ ∃ a, x = .ok a ∧ Breaks (f a) := by
  cases x with
  | error e =>
      refine ⟨fun h => Or.inl (breaks_error.mpr (breaks_error.mp h)), ?_⟩
      rintro (h | ⟨a, ha, -⟩)
      · exact breaks_error.mpr (breaks_error.mp h)
      · cases ha
  | ok a =>
      refine ⟨fun h => Or.inr ⟨a, rfl, h⟩, ?_⟩
      rintro (h | ⟨_, ⟨rfl⟩, h⟩)
      · exact absurd h (not_breaks_ok a)
      · exact h

theorem not_breaks_bind {x : Except Failure α} {f : α → Except Failure β} (hx : ¬ Breaks x)
    (hf : ∀ a, ¬ Breaks (f a)) : ¬ Breaks (x >>= f) := by
  rw [breaks_bind]
  rintro (h | ⟨a, -, h⟩)
  · exact hx h
  · exact hf a h

theorem not_breaks_check {p : Prop} [Decidable p] {e : SettingError} (he : e.isLookup = false) :
    ¬ Breaks ((if p then .ok () else .error e : Except SettingError Unit).mapError .setting) := by
  split
  · exact not_breaks_ok ()
  · refine mt breaks_error.mp ?_
    rw [Failure.kind, he]
    exact Bool.true_eq_false_eq_False

theorem not_breaks_refusal {p : Prop} [Decidable p] {e : SettingError} (he : e.isLookup = false) :
    ¬ Breaks ((if p then .error e else .ok () : Except SettingError Unit).mapError .setting) := by
  rw [← ite_not]
  exact not_breaks_check he

theorem breaks_number {x : Except NumberError α} :
    Breaks (numberResult x) ↔
      ∃ e, x = .error e ∧ (Failure.number e).kind.isBadData = false := by
  cases x with
  | ok a =>
      exact ⟨fun h => absurd h (not_breaks_ok a), nofun⟩
  | error e =>
      refine breaks_error.trans ⟨fun h => ⟨e, rfl, h⟩, ?_⟩
      rintro ⟨_, ⟨rfl⟩, h⟩
      exact h

/-! ## Conversions -/

namespace Json

theorem not_breaks_readWhole (cs : List Char) : ¬ Breaks (numberResult (Number.readWhole cs)) := by
  rw [breaks_number]
  rintro ⟨e, he, hkind⟩
  unfold Number.readWhole at he
  dsimp only at he
  split at he
  · cases he
    cases hkind
  · split at he
    · cases he
      cases hkind
    · split at he
      · cases he
        cases hkind
      · cases he

theorem not_breaks_readBinary (cs : List Char) :
    ¬ Breaks (numberResult (Number.readBinary cs)) := by
  rw [breaks_number]
  rintro ⟨e, he, hkind⟩
  unfold Number.readBinary at he
  dsimp only at he
  split at he
  · split at he
    · cases he
    · cases he
      cases hkind
  · cases he
    cases hkind

/-- Whether a whole number is too large to become a binary one. -/
def IsHuge (x : Json) : Prop := ∃ n, x = .int n ∧ Binary64.ofInt? n = none

def IsInfinite (x : Json) : Prop := ∃ negative, x = .float (.infinite negative)

theorem not_isHuge {x : Json} (h : ∀ n, x ≠ .int n) : ¬ x.IsHuge := by
  rintro ⟨n, hx, -⟩
  exact h n hx

theorem not_isInfinite {x : Json} (h : ∀ negative, x ≠ .float (.infinite negative)) :
    ¬ x.IsInfinite := by
  rintro ⟨negative, hx⟩
  exact h negative hx

theorem breaks_toBinary {x : Json} : Breaks x.toBinary ↔ x.IsHuge := by
  cases x with
  | int n =>
      refine breaks_number.trans ?_
      rw [Number.toBinary, IsHuge]
      cases hn : Binary64.ofInt? n with
      | some y => simp [hn]
      | none => exact ⟨fun _ => ⟨n, rfl, hn⟩, fun _ => ⟨_, rfl, rfl⟩⟩
  | str s => exact iff_of_false (not_breaks_readBinary _) (not_isHuge (by simp))
  | bool b | float y => exact iff_of_false (not_breaks_ok _) (not_isHuge (by simp))
  | null | arr xs | obj fields =>
      exact iff_of_false (mt breaks_error.mp (by decide)) (not_isHuge (by simp))

theorem breaks_toWhole {x : Json} : Breaks x.toWhole ↔ x.IsInfinite := by
  cases x with
  | float y =>
      refine breaks_number.trans ?_
      rw [Number.wholeOfBinary, IsInfinite]
      cases y with
      | nan =>
          refine iff_of_false ?_ (not_isInfinite (by simp))
          rintro ⟨_, ⟨rfl⟩, hkind⟩
          cases hkind
      | infinite negative =>
          exact ⟨fun _ => ⟨negative, rfl⟩, fun _ => ⟨_, rfl, rfl⟩⟩
      | finite negative m e canonical =>
          refine iff_of_false ?_ (not_isInfinite (by simp))
          rintro ⟨e, he, -⟩
          cases he
  | str s => exact iff_of_false (not_breaks_readWhole _) (not_isInfinite (by simp))
  | bool b | int n => exact iff_of_false (not_breaks_ok _) (not_isInfinite (by simp))
  | null | arr xs | obj fields =>
      exact iff_of_false (mt breaks_error.mp (by decide)) (not_isInfinite (by simp))

end Json

theorem ImportSettings.Counted.unique {s : ImportSettings} {n m : ImportSettings.Counts}
    (hn : s.Counted n) (hm : s.Counted m) : n = m := by
  obtain ⟨interval, retries, backoff⟩ := n
  cases hn.interval.symm.trans hm.interval
  cases hn.retries.symm.trans hm.retries
  cases hn.backoff.symm.trans hm.backoff
  rfl

namespace Settings

/-! ## Sections -/

def sectionValue (fields : Fields) (part : Section) : Json := fields.getD part.name (.obj [])

theorem breaks_section? {name : String} {fields : Fields} :
    Breaks (section? name fields) ↔ ∀ found, fields.getD name (.obj []) ≠ .obj found := by
  unfold section?
  generalize fields.getD name (.obj []) = x
  cases x with
  | obj found => exact ⟨fun h => absurd h (not_breaks_ok _), fun h => absurd rfl (h found)⟩
  | _ => exact ⟨fun _ => nofun, fun _ => ⟨_, rfl, rfl⟩⟩

theorem section?_eq_ok {name : String} {fields found : Fields} : section? name fields = .ok found ↔
    fields.getD name (.obj []) = .obj found := by
  unfold section?
  generalize fields.getD name (.obj []) = x
  cases x with
  | obj other => simp [Json.fields?]
  | _ => exact ⟨nofun, nofun⟩

theorem section?_bind_eq_ok {name : String} {fields : Fields} {f : Fields → Except Failure α}
    {a : α} : section? name fields >>= f = .ok a ↔
      ∃ found, fields.getD name (.obj []) = .obj found ∧ f found = .ok a := by
  constructor
  · intro h
    obtain ⟨found, hfound, h⟩ := exists_of_bind_eq_ok h
    exact ⟨found, section?_eq_ok.mp hfound, h⟩
  · rintro ⟨found, hfound, h⟩
    rw [section?_eq_ok.mpr hfound]
    exact h

/-! ### The server -/

def timeoutValue (fields : Fields) : Json :=
  fields.getD "timeout_seconds" (.ofNumber ({} : ServerSettings).timeout)

def urlValue (fields : Fields) : Json := fields.getD "base_url" (.str ({} : ServerSettings).baseUrl)

def ofServer (fields : Fields) : Except Failure ServerSettings := do
  let timeout ← (timeoutValue fields).toBinary
  ServerSettings.make (urlValue fields) (.float timeout)

/-- How the fields of a section describe the settings of the server. -/
structure DescribesServer (fields : Fields) (s : ServerSettings) : Prop where
  url : urlValue fields = .str s.baseUrl
  timeout : ∃ x, (timeoutValue fields).toBinary = .ok x ∧ s.timeout = .real x
  checked : s.Checked

theorem ofServer_eq_ok {fields : Fields} {s : ServerSettings} :
    ofServer fields = .ok s ↔ DescribesServer fields s := by
  constructor
  · intro h
    obtain ⟨x, hx, h⟩ := exists_of_bind_eq_ok h
    obtain ⟨url, seconds, hurl, ⟨rfl⟩, rfl, hscheme, hpositive⟩ := ServerSettings.make_ok h
    exact ⟨hurl, ⟨x, hx, rfl⟩, hscheme, x, rfl, hpositive⟩
  · rintro ⟨hurl, ⟨x, hx, htimeout⟩, hscheme, x', hx', hpositive⟩
    obtain ⟨url, timeout⟩ := s
    dsimp only at hurl htimeout hscheme hx' hpositive
    subst htimeout
    rw [ofServer, hx, hurl]
    exact make_server hscheme hpositive

/-- Of the settings of the server only an address that is no text is not reckoned with. -/
theorem breaks_makeServer {url : Json} {x : Binary64} :
    Breaks (ServerSettings.make url (.float x)) ↔ ∀ text, url ≠ .str text := by
  cases url with
  | str text =>
      refine ⟨fun h => absurd h ?_, fun h => absurd rfl (h text)⟩
      exact not_breaks_bind (not_breaks_check rfl) fun _ => not_breaks_bind (not_breaks_ok _)
        fun _ => not_breaks_bind (not_breaks_refusal rfl) fun _ => not_breaks_ok _
  | _ => exact ⟨fun _ => nofun, fun _ => ⟨_, rfl, rfl⟩⟩

/-- What of a section for the server is not reckoned with. -/
inductive ServerDefeats (fields : Fields) : Prop where
  | timeout (huge : (timeoutValue fields).IsHuge)
  | url {x : Binary64} (timeout : (timeoutValue fields).toBinary = .ok x)
      (noText : ∀ text, urlValue fields ≠ .str text)

theorem breaks_ofServer {fields : Fields} : Breaks (ofServer fields) ↔ ServerDefeats fields := by
  rw [ofServer, breaks_bind, Json.breaks_toBinary]
  constructor
  · rintro (h | ⟨x, hx, h⟩)
    · exact .timeout h
    · exact .url hx (breaks_makeServer.mp h)
  · rintro (h | ⟨hx, h⟩)
    · exact Or.inl h
    · exact Or.inr ⟨_, hx, breaks_makeServer.mpr h⟩

/-! ### Importing -/

def intervalValue (fields : Fields) : Json :=
  fields.getD "poll_interval_ms" (.ofNumber ({} : ImportSettings).pollInterval)

def retriesValue (fields : Fields) : Json :=
  fields.getD "max_poll_retries" (.ofNumber ({} : ImportSettings).maxRetries)

def backoffValue (fields : Fields) : Json :=
  fields.getD "max_poll_backoff_ms" (.ofNumber ({} : ImportSettings).maxBackoff)

def sceneValue (fields : Fields) : Json :=
  fields.getD "default_scene" ({} : ImportSettings).defaultScene

def subdirectoryValue (fields : Fields) : Json :=
  fields.getD "default_subdirectory" ({} : ImportSettings).defaultSubdirectory

def ofImporting (fields : Fields) : Except Failure ImportSettings := do
  let interval ← (intervalValue fields).toWhole
  let retries ← (retriesValue fields).toWhole
  let backoff ← (backoffValue fields).toWhole
  ImportSettings.make (sceneValue fields) (subdirectoryValue fields) (.int interval)
    (.int retries) (.int backoff)

/-- How the fields of a section describe the settings for importing. -/
structure DescribesImporting (fields : Fields) (s : ImportSettings) : Prop where
  scene : s.defaultScene = sceneValue fields
  subdirectory : s.defaultSubdirectory = subdirectoryValue fields
  counts : ∃ n, s.Counted n ∧ (intervalValue fields).toWhole = .ok n.interval ∧
    (retriesValue fields).toWhole = .ok n.retries ∧ (backoffValue fields).toWhole = .ok n.backoff
  checked : s.Checked

theorem ofImporting_eq_ok {fields : Fields} {s : ImportSettings} :
    ofImporting fields = .ok s ↔ DescribesImporting fields s := by
  constructor
  · intro h
    obtain ⟨interval, hinterval, h⟩ := exists_of_bind_eq_ok h
    obtain ⟨retries, hretries, h⟩ := exists_of_bind_eq_ok h
    obtain ⟨backoff, hbackoff, h⟩ := exists_of_bind_eq_ok h
    obtain ⟨hscene, hsubdirectory, hcounted, hchecked⟩ :=
      ImportSettings.make_ok (n := ⟨interval, retries, backoff⟩) h
    exact ⟨hscene, hsubdirectory, ⟨_, hcounted, hinterval, hretries, hbackoff⟩, hchecked⟩
  · rintro ⟨hscene, hsubdirectory, ⟨n, hn, hinterval, hretries, hbackoff⟩, htruthy, m, hm, hfit⟩
    obtain rfl := hn.unique hm
    obtain ⟨scene, subdirectory, interval, retries, backoff⟩ := s
    obtain ⟨rfl, rfl, rfl⟩ := hn
    dsimp only at hscene hsubdirectory htruthy
    rw [ofImporting, hinterval, hretries, hbackoff, ← hscene, ← hsubdirectory]
    exact make_importing htruthy hfit

/-- Settings for importing that are made of whole numbers are refused as bad data only. -/
theorem not_breaks_makeImporting {scene subdirectory : Json} {interval retries backoff : ℤ} :
    ¬ Breaks (ImportSettings.make scene subdirectory (.int interval) (.int retries)
      (.int backoff)) :=
  not_breaks_bind (not_breaks_check rfl) fun _ =>
    not_breaks_bind (not_breaks_ok _) fun _ => not_breaks_bind (not_breaks_refusal rfl) fun _ =>
    not_breaks_bind (not_breaks_ok _) fun _ => not_breaks_bind (not_breaks_check rfl) fun _ =>
    not_breaks_bind (not_breaks_ok _) fun _ => not_breaks_bind (not_breaks_refusal rfl) fun _ =>
    not_breaks_ok _

/-- What of a section for importing is not reckoned with. -/
inductive ImportingDefeats (fields : Fields) : Prop where
  | interval (infinite : (intervalValue fields).IsInfinite)
  | retries {interval : ℤ} (whole : (intervalValue fields).toWhole = .ok interval)
      (infinite : (retriesValue fields).IsInfinite)
  | backoff {interval retries : ℤ} (whole : (intervalValue fields).toWhole = .ok interval)
      (whole' : (retriesValue fields).toWhole = .ok retries)
      (infinite : (backoffValue fields).IsInfinite)

theorem breaks_ofImporting {fields : Fields} :
    Breaks (ofImporting fields) ↔ ImportingDefeats fields := by
  simp only [ofImporting, breaks_bind, Json.breaks_toWhole, not_breaks_makeImporting, and_false,
    exists_false, or_false]
  constructor
  · rintro (h | ⟨n, hn, h | ⟨m, hm, h⟩⟩)
    · exact .interval h
    · exact .retries hn h
    · exact .backoff hn hm h
  · rintro (h | ⟨hn, h⟩ | ⟨hn, hm, h⟩)
    · exact Or.inl h
    · exact Or.inr ⟨_, hn, Or.inl h⟩
    · exact Or.inr ⟨_, hn, Or.inr ⟨_, hm, h⟩⟩

/-! ## Values -/

/-- How a value describes settings: it has fields, and so has each section, which describes its
settings. -/
structure Describes (fields : Fields) (s : Settings) : Prop where
  server : ∃ found, sectionValue fields .server = .obj found ∧ DescribesServer found s.server
  importing : ∃ found, sectionValue fields .importing = .obj found ∧
    DescribesImporting found s.importing
  schemaVersion : s.schemaVersion = fields.getD "schema_version" ({} : Settings).schemaVersion

/-- What of a value is not reckoned with. The section for importing is looked at when the server has
been described. -/
inductive Defeats : Json → Prop where
  | noObject {data : Json} (h : ∀ fields, data ≠ .obj fields) : Defeats data
  | noServer {fields : Fields} (h : ∀ found, sectionValue fields .server ≠ .obj found) :
      Defeats (.obj fields)
  | server {fields found : Fields} (h : sectionValue fields .server = .obj found)
      (defeats : ServerDefeats found) : Defeats (.obj fields)
  | noImporting {fields found : Fields} {server : ServerSettings}
      (h : sectionValue fields .server = .obj found) (described : DescribesServer found server)
      (h' : ∀ found, sectionValue fields .importing ≠ .obj found) : Defeats (.obj fields)
  | importing {fields found found' : Fields} {server : ServerSettings}
      (h : sectionValue fields .server = .obj found) (described : DescribesServer found server)
      (h' : sectionValue fields .importing = .obj found') (defeats : ImportingDefeats found') :
      Defeats (.obj fields)

theorem ofJson_obj (fields : Fields) :
    ofJson (.obj fields) = (do
      let server ← section? Section.server.name fields >>= ofServer
      let importing ← section? Section.importing.name fields >>= ofImporting
      return ⟨server, importing, fields.getD "schema_version" ({} : Settings).schemaVersion⟩) := by
  simp only [ofServer, ofImporting, bind_assoc]
  rfl

theorem ofJson_eq_ok {data : Json} {s : Settings} :
    ofJson data = .ok s ↔ ∃ fields, data = .obj fields ∧ Describes fields s := by
  constructor
  · intro h
    obtain ⟨fields, part, rfl, -⟩ := described_of_ofJson h
    rw [ofJson_obj] at h
    obtain ⟨server, hserver, h⟩ := exists_of_bind_eq_ok h
    obtain ⟨importing, himporting, h⟩ := exists_of_bind_eq_ok h
    obtain ⟨found, hfound, hserver⟩ := section?_bind_eq_ok.mp hserver
    obtain ⟨found', hfound', himporting⟩ := section?_bind_eq_ok.mp himporting
    cases h
    exact ⟨fields, rfl, ⟨found, hfound, ofServer_eq_ok.mp hserver⟩,
      ⟨found', hfound', ofImporting_eq_ok.mp himporting⟩, rfl⟩
  · rintro ⟨fields, rfl, ⟨found, hfound, hserver⟩, ⟨found', hfound', himporting⟩, hschema⟩
    have hfirst := section?_bind_eq_ok.mpr ⟨found, hfound, ofServer_eq_ok.mpr hserver⟩
    have hsecond := section?_bind_eq_ok.mpr ⟨found', hfound', ofImporting_eq_ok.mpr himporting⟩
    rw [ofJson_obj, hfirst, hsecond, ← hschema]
    rfl

theorem breaks_ofJson {data : Json} : Breaks (ofJson data) ↔ Defeats data := by
  cases data with
  | obj fields =>
      have hlast : ∀ s : Settings, ¬ Breaks (pure s : Except Failure Settings) := not_breaks_ok
      simp only [ofJson_obj, breaks_bind, breaks_section?, section?_eq_ok, section?_bind_eq_ok,
        breaks_ofServer, breaks_ofImporting, ofServer_eq_ok, hlast, and_false, exists_false,
        or_false]
      constructor
      · rintro ((h | ⟨_, h, defeats⟩) | ⟨_, ⟨_, h, described⟩, (h' | ⟨_, h', defeats⟩)⟩)
        · exact .noServer h
        · exact .server h defeats
        · exact .noImporting h described h'
        · exact .importing h described h' defeats
      · rintro (h | h | ⟨h, defeats⟩ | ⟨h, described, h'⟩ | ⟨h, described, h', defeats⟩)
        · exact absurd rfl (h fields)
        · exact Or.inl (Or.inl h)
        · exact Or.inl (Or.inr ⟨_, h, defeats⟩)
        · exact Or.inr ⟨_, ⟨_, h, described⟩, Or.inl h'⟩
        · exact Or.inr ⟨_, ⟨_, h, described⟩, Or.inr ⟨_, h', defeats⟩⟩
  | _ => exact ⟨fun _ => .noObject nofun, fun _ => ⟨_, rfl, rfl⟩⟩

/-! ## Files -/

def NestedTooDeep [Json.Nesting] (bytes : ByteArray) : Prop := ∃ c, Json.ofFile bytes = .error
    (.tooDeep c)

theorem breaks_ofFile [Json.Nesting] {bytes : ByteArray} : Breaks
    (Json.ofFile bytes) ↔ NestedTooDeep bytes := by
  unfold NestedTooDeep Json.ofFile
  split
  · exact breaks_error.trans ⟨nofun, nofun⟩
  · rename_i s _
    cases Json.parse s.toList with
    | ok x => exact ⟨fun h => absurd h (not_breaks_ok x), nofun⟩
    | error e =>
        cases e with
        | tooDeep c => exact ⟨fun _ => ⟨c, rfl⟩, fun _ => ⟨_, rfl, rfl⟩⟩
        | _ => exact breaks_error.trans ⟨nofun, nofun⟩

def FileDescribes [Json.Nesting] (bytes : ByteArray) (s : Settings) : Prop :=
  ∃ fields, Json.ofFile bytes = .ok (.obj fields) ∧ Describes fields s

/-- What of a file is not reckoned with. -/
def FileDefeats [Json.Nesting] (bytes : ByteArray) : Prop :=
  NestedTooDeep bytes ∨ ∃ data, Json.ofFile bytes = .ok data ∧ Defeats data

theorem ofFile_eq_ok [Json.Nesting] {bytes : ByteArray} {s : Settings} :
    ofFile bytes = .ok s ↔ FileDescribes bytes s := by
  constructor
  · intro h
    obtain ⟨data, hdata, h⟩ := exists_of_bind_eq_ok h
    obtain ⟨fields, rfl, hfields⟩ := ofJson_eq_ok.mp h
    exact ⟨fields, hdata, hfields⟩
  · rintro ⟨fields, hdata, h⟩
    rw [ofFile, hdata]
    exact ofJson_eq_ok.mpr ⟨fields, rfl, h⟩

theorem breaks_settingsOfFile [Json.Nesting] {bytes : ByteArray} : Breaks
    (ofFile bytes) ↔ FileDefeats bytes := by
  simp only [ofFile, breaks_bind, breaks_ofFile, breaks_ofJson, FileDefeats]

/-- What is to become of a settings file: it gives the settings that it describes and nothing is
noted, or it describes none, gives the first settings, and a warning says why. -/
inductive Settles [Json.Nesting] (path : String) (bytes : ByteArray) : Prop where
  | described {s : Settings} (h : FileDescribes bytes s)
      (loaded : (load path (some bytes)).outcome = (.ok s, []))
  | first (h : ∀ s, ¬ FileDescribes bytes s) {reason : String}
      (loaded : (load path (some bytes)).outcome = (.ok {}, [⟨.warning, .settings,
        "Could not load config from " ++ path ++ ": " ++ reason⟩]))

/-- A settings file gives settings, with or without a warning, unless something of it is not
reckoned with; such a file gives none. -/
theorem settles_iff [Json.Nesting] (path : String) (bytes : ByteArray) :
    (Settles path bytes ↔ ¬ FileDefeats bytes) ∧
      (FileDefeats bytes ↔ ∃ f, (load path (some bytes)).outcome = (.error f, [])) := by
  rw [← breaks_settingsOfFile]
  cases hfile : ofFile bytes with
  | ok s =>
      have hload : (load path (some bytes)).outcome = (.ok s, []) := by
        rw [load, hfile]
        rfl
      have hbreaks := not_breaks_ok s
      refine ⟨⟨fun _ => hbreaks, fun _ => .described (ofFile_eq_ok.mp hfile) hload⟩,
        fun h => absurd h hbreaks, ?_⟩
      rintro ⟨f, hf⟩
      cases hload.symm.trans hf
  | error f =>
      have hnone : ∀ s, ¬ FileDescribes bytes s := by
        intro s hs
        cases hfile.symm.trans (ofFile_eq_ok.mpr hs)
      -- Bad data is told of and replaced by the defaults; other failures go through.
      rw [breaks_error]
      cases hkind : f.kind.isBadData with
      | true =>
          have hload : (load path (some bytes)).outcome = (.ok {}, [⟨.warning, .settings,
              "Could not load config from " ++ path ++ ": " ++ f.message⟩]) := by
            rw [load, hfile]
            dsimp only
            rw [if_pos hkind]
            rfl
          have hnot : ¬ true = false := by decide
          refine ⟨⟨fun _ => hnot, fun _ => .first hnone hload⟩, fun h => absurd h hnot, ?_⟩
          rintro ⟨f', hf⟩
          cases hload.symm.trans hf
      | false =>
          have hload : (load path (some bytes)).outcome = (.error f, []) := by
            rw [load, hfile]
            dsimp only
            rw [if_neg (by rw [hkind]; exact Bool.false_ne_true)]
            rfl
          refine ⟨⟨?_, fun h => absurd rfl h⟩, fun _ => ⟨f, hload⟩, fun _ => rfl⟩
          rintro (⟨-, h⟩ | ⟨-, h⟩)
          · cases hload.symm.trans h
          · cases hload.symm.trans h

/-- A list, where an object is looked for, stops everything. -/
theorem not_settles_list : ¬ Settles "" "[]".toUTF8 := by
  have hread : Json.ofFile "[]".toUTF8 = .ok (.arr []) := by
    rw [Json.ofFile, Json.fromUTF8?_toUTF8]
    rfl
  have hload : (load "" (some "[]".toUTF8)).outcome.1 = .error .noAttribute := by
    rw [load, ofFile, hread]
    rfl
  rintro (⟨-, h⟩ | ⟨-, h⟩)
  · rw [h] at hload
    cases hload
  · rw [h] at hload
    cases hload

end Settings

end CardImport
