import CardImport.Proofs.Except
import CardImport.Proofs.Key
import CardImport.Proofs.Number.Range
import CardImport.Settings.Keeper

/-!
# Valid settings

Settings come from a file or from changes of single values, and each section is checked as a whole
before it is taken over. What the checks see to holds of all settings that can be reached: the
address has a known scheme, the counts are in their ranges, the timeout is not zero or below, and
the scene does not count as no. Two things the checks let through: a timeout that is a NaN, which is
not below anything, and a scene in a file that is no text.
-/

namespace CardImport

/-! ## What the checks see to -/

namespace ServerSettings

/-- What the check of the server's settings sees to. -/
structure Checked (s : ServerSettings) : Prop where
  scheme : hasScheme s.baseUrl = true
  timeout : ∃ x, s.timeout = .real x ∧ s.timeout.le (.whole 0) = false

theorem checkUrl_ok {url : String} {u : Unit} (h : checkUrl url = .ok u) :
    hasScheme url = true := by
  unfold checkUrl at h
  split at h
  · assumption
  · cases h

theorem checkTimeout_ok {seconds : Number} {u : Unit} (h : checkTimeout seconds = .ok u) :
    seconds.le (.whole 0) = false := by
  unfold checkTimeout at h
  split at h
  · cases h
  · rename_i hle
    simpa using hle

theorem check_ok {s s' : ServerSettings} (h : s.check = .ok s') :
    s' = s ∧ hasScheme s.baseUrl = true ∧ s.timeout.le (.whole 0) = false := by
  unfold check at h
  obtain ⟨_, hurl, h⟩ := exists_of_bind_eq_ok h
  obtain ⟨_, htimeout, h⟩ := exists_of_bind_eq_ok h
  cases h
  exact ⟨rfl, checkUrl_ok hurl, checkTimeout_ok htimeout⟩

/-- Settings of the server that are made of values are an address and a timeout that were
checked. -/
theorem make_ok {baseUrl timeout : Json} {s : ServerSettings}
    (h : make baseUrl timeout = .ok s) :
    ∃ url seconds, baseUrl = .str url ∧ timeout.toNumber = .ok seconds ∧ s = ⟨url, seconds⟩ ∧
      hasScheme url = true ∧ seconds.le (.whole 0) = false := by
  unfold make at h
  split at h
  · rename_i url
    obtain ⟨_, hurl, h⟩ := exists_of_bind_eq_ok h
    obtain ⟨seconds, hseconds, h⟩ := exists_of_bind_eq_ok h
    obtain ⟨_, htimeout, h⟩ := exists_of_bind_eq_ok h
    cases h
    exact ⟨url, seconds, rfl, hseconds, rfl, checkUrl_ok (eq_ok_of_mapError hurl),
      checkTimeout_ok (eq_ok_of_mapError htimeout)⟩
  · cases h

end ServerSettings

namespace ImportSettings

/-- The whole numbers among the settings for importing. -/
structure Counts where
  interval : Int
  retries : Int
  backoff : Int

/-- Counts in their ranges. -/
structure Counts.Fit (n : Counts) : Prop where
  interval : 0 < n.interval
  retries : 0 ≤ n.retries ∧ n.retries ≤ 20
  backoff : n.interval ≤ n.backoff

structure Counted (s : ImportSettings) (n : Counts) : Prop where
  interval : s.pollInterval = .whole n.interval
  retries : s.maxRetries = .whole n.retries
  backoff : s.maxBackoff = .whole n.backoff

/-- What the check of the settings for importing sees to. -/
structure Checked (s : ImportSettings) : Prop where
  scene : s.defaultScene.truthy = true
  counts : ∃ n, s.Counted n ∧ n.Fit

theorem checkScene_ok {scene : Json} {u : Unit} (h : checkScene scene = .ok u) :
    scene.truthy = true := by
  unfold checkScene at h
  split at h
  · assumption
  · cases h

theorem checkInterval_ok {n : Int} {u : Unit} (h : checkInterval (.whole n) = .ok u) : 0 < n := by
  unfold checkInterval at h
  split at h
  · cases h
  · rename_i hle
    rw [Number.le_whole] at hle
    exact Int.not_le.mp hle

theorem checkRetries_ok {n : Int} {u : Unit} (h : checkRetries (.whole n) = .ok u) :
    0 ≤ n ∧ n ≤ 20 := by
  unfold checkRetries at h
  split at h
  · rename_i hrange
    rw [Bool.and_eq_true, Number.le_whole, Number.le_whole] at hrange
    exact hrange
  · cases h

theorem checkBackoff_ok {m n : Int} {u : Unit} (h : checkBackoff (.whole m) (.whole n) = .ok u) :
    n ≤ m := by
  unfold checkBackoff at h
  split at h
  · cases h
  · rename_i hlt
    rw [Number.lt_whole] at hlt
    exact Int.not_lt.mp hlt

theorem check_ok {s s' : ImportSettings} {n : Counts} (hn : s.Counted n) (h : s.check = .ok s') :
    s' = s ∧ s.Checked := by
  unfold check at h
  obtain ⟨_, hscene, h⟩ := exists_of_bind_eq_ok h
  obtain ⟨_, hinterval, h⟩ := exists_of_bind_eq_ok h
  obtain ⟨_, hretries, h⟩ := exists_of_bind_eq_ok h
  obtain ⟨_, hbackoff, h⟩ := exists_of_bind_eq_ok h
  cases h
  rw [hn.interval] at hinterval hbackoff
  rw [hn.retries] at hretries
  rw [hn.backoff] at hbackoff
  exact ⟨rfl, checkScene_ok hscene, n, hn, checkInterval_ok hinterval, checkRetries_ok hretries,
    checkBackoff_ok hbackoff⟩

/-- Settings for importing that are made of values keep the texts and the counts, and were
checked. -/
theorem make_ok {scene subdirectory : Json} {n : Counts} {s : ImportSettings}
    (h : make scene subdirectory (.int n.interval) (.int n.retries) (.int n.backoff) = .ok s) :
    s.defaultScene = scene ∧ s.defaultSubdirectory = subdirectory ∧ s.Counted n ∧ s.Checked := by
  unfold make at h
  obtain ⟨_, hscene, h⟩ := exists_of_bind_eq_ok h
  obtain ⟨_, ⟨rfl⟩, h⟩ := exists_of_bind_eq_ok h
  obtain ⟨_, hinterval, h⟩ := exists_of_bind_eq_ok h
  obtain ⟨_, ⟨rfl⟩, h⟩ := exists_of_bind_eq_ok h
  obtain ⟨_, hretries, h⟩ := exists_of_bind_eq_ok h
  obtain ⟨_, ⟨rfl⟩, h⟩ := exists_of_bind_eq_ok h
  obtain ⟨_, hbackoff, h⟩ := exists_of_bind_eq_ok h
  cases h
  exact ⟨rfl, rfl, ⟨rfl, rfl, rfl⟩, checkScene_ok (eq_ok_of_mapError hscene), n, ⟨rfl, rfl, rfl⟩,
    checkInterval_ok (eq_ok_of_mapError hinterval), checkRetries_ok (eq_ok_of_mapError hretries),
    checkBackoff_ok (eq_ok_of_mapError hbackoff)⟩

end ImportSettings

namespace Settings

/-- What the checks see to in all settings. -/
structure Checked (s : Settings) : Prop where
  server : s.server.Checked
  importing : s.importing.Checked

theorem checked_first : ({} : Settings).Checked where
  server := ⟨by decide, _, rfl, by decide +kernel⟩
  importing := ⟨by decide, ⟨500, 5, 8000⟩, ⟨rfl, rfl, rfl⟩, by decide, by decide, by decide⟩

/-! ## Settings of a file -/

theorem section?_ok {name : String} {fields found : Fields}
    (h : section? name fields = .ok found) :
    (Fields.getD fields name (.obj [])).fields? = some found := by
  unfold section? at h
  split at h
  · cases h
    assumption
  · cases h

/-- How settings are described by the fields of a value, and those of its part for importing. -/
structure Described (s : Settings) (fields part : Fields) : Prop where
  importing : (Fields.getD fields "import" (.obj [])).fields? = some part
  schemaVersion :
    s.schemaVersion = Fields.getD fields "schema_version" ({} : Settings).schemaVersion
  scene : s.importing.defaultScene =
    Fields.getD part "default_scene" ({} : ImportSettings).defaultScene
  subdirectory : s.importing.defaultSubdirectory =
    Fields.getD part "default_subdirectory" ({} : ImportSettings).defaultSubdirectory
  counts : ∃ n, s.importing.Counted n ∧
    (Fields.getD part "poll_interval_ms" (.int 500)).toWhole = .ok n.interval ∧
    (Fields.getD part "max_poll_retries" (.int 5)).toWhole = .ok n.retries ∧
    (Fields.getD part "max_poll_backoff_ms" (.int 8000)).toWhole = .ok n.backoff
  checked : s.Checked

theorem described_of_ofJson {data : Json} {s : Settings} (h : ofJson data = .ok s) :
    ∃ fields part, data = .obj fields ∧ s.Described fields part := by
  unfold ofJson at h
  cases data with
  | obj fields => ?_
  | _ => cases h
  change (_ >>= _ : Except Failure Settings) = _ at h
  obtain ⟨_, ⟨rfl⟩, h⟩ := exists_of_bind_eq_ok h
  obtain ⟨server, hserver, h⟩ := exists_of_bind_eq_ok h
  obtain ⟨timeout, htimeout, h⟩ := exists_of_bind_eq_ok h
  obtain ⟨serverSettings, hmade, h⟩ := exists_of_bind_eq_ok h
  obtain ⟨importing, himporting, h⟩ := exists_of_bind_eq_ok h
  obtain ⟨interval, hinterval, h⟩ := exists_of_bind_eq_ok h
  obtain ⟨retries, hretries, h⟩ := exists_of_bind_eq_ok h
  obtain ⟨backoff, hbackoff, h⟩ := exists_of_bind_eq_ok h
  obtain ⟨importSettings, himported, h⟩ := exists_of_bind_eq_ok h
  cases h
  obtain ⟨url, seconds, -, ⟨rfl⟩, rfl, hscheme, hpositive⟩ := ServerSettings.make_ok hmade
  obtain ⟨hscene, hsubdirectory, hcounted, hchecked⟩ :=
    ImportSettings.make_ok (n := ⟨interval, retries, backoff⟩) himported
  exact ⟨fields, importing, rfl, section?_ok himporting, rfl, hscene, hsubdirectory,
    ⟨_, hcounted, hinterval, hretries, hbackoff⟩, ⟨hscheme, _, rfl, hpositive⟩, hchecked⟩

theorem checked_of_ofFile [Json.Nesting] {bytes : ByteArray} {s : Settings}
    (h : ofFile bytes = .ok s) : s.Checked := by
  obtain ⟨data, -, hdata⟩ := exists_of_bind_eq_ok h
  obtain ⟨fields, part, -, hdescribed⟩ := described_of_ofJson hdata
  exact hdescribed.checked

theorem load_ok [Json.Nesting] {path : String} {file : Option ByteArray} {s : Settings}
    (h : (load path file).outcome.1 = .ok s) :
    s = {} ∨ ∃ bytes, file = some bytes ∧ ofFile bytes = .ok s := by
  cases file with
  | none =>
      cases h
      exact Or.inl rfl
  | some bytes =>
      simp only [load] at h
      cases hfile : ofFile bytes with
      | ok s' =>
          simp only [hfile] at h
          cases h
          exact Or.inr ⟨bytes, rfl, hfile⟩
      | error f =>
          simp only [hfile] at h
          split at h
          · cases h
            exact Or.inl rfl
          · cases h

theorem checked_of_load [Json.Nesting] {path : String} {file : Option ByteArray} {s : Settings}
    (h : (load path file).outcome.1 = .ok s) : s.Checked := by
  rcases load_ok h with rfl | ⟨bytes, -, hbytes⟩
  · exact checked_first
  · exact checked_of_ofFile hbytes

/-! ## Changes -/

/-- The settings of the server after a change of one of them. -/
inductive ServerChange (s : ServerSettings) (value : Json) : ServerSettings → Prop where
  | baseUrl : ServerChange s value { s with baseUrl := value.text }
  | timeout {x : Binary64} (h : value.toBinary = .ok x) :
      ServerChange s value { s with timeout := .real x }

/-- The settings for importing after a change of one of them. -/
inductive ImportChange (s : ImportSettings) (value : Json) : ImportSettings → Prop where
  | scene : ImportChange s value { s with defaultScene := .str value.text }
  | subdirectory : ImportChange s value { s with defaultSubdirectory := .str value.text }
  | interval {n : Int} (h : value.toWhole = .ok n) :
      ImportChange s value { s with pollInterval := .whole n }
  | retries {n : Int} (h : value.toWhole = .ok n) :
      ImportChange s value { s with maxRetries := .whole n }
  | backoff {n : Int} (h : value.toWhole = .ok n) :
      ImportChange s value { s with maxBackoff := .whole n }

theorem converted_ok {α : Type} {key : String} {value : Json} {x : Except Failure α} {a : α}
    (h : converted key value x = .ok a) : x = .ok a := by
  cases x with
  | error e => cases h
  | ok b =>
      cases h
      rfl

theorem whole_of_converted {key : String} {value : Json} {n : Number}
    (h : (converted key value value.toWhole).map .whole = .ok n) :
    ∃ m, value.toWhole = .ok m ∧ n = .whole m := by
  obtain ⟨m, hm, rfl⟩ := exists_of_map_eq_ok h
  exact ⟨m, converted_ok hm, rfl⟩

theorem setServer_ok {s s' : Settings} {server : ServerSettings}
    (h : s.setServer server = .ok s') :
    ∃ checked, server.check = .ok checked ∧ s' = { s with server := checked } := by
  obtain ⟨checked, hchecked, h⟩ := exists_of_bind_eq_ok h
  cases h
  exact ⟨checked, eq_ok_of_mapError hchecked, rfl⟩

theorem setImporting_ok {s s' : Settings} {importing : ImportSettings}
    (h : s.setImporting importing = .ok s') :
    ∃ checked, importing.check = .ok checked ∧ s' = { s with importing := checked } := by
  obtain ⟨checked, hchecked, h⟩ := exists_of_bind_eq_ok h
  cases h
  exact ⟨checked, eq_ok_of_mapError hchecked, rfl⟩

/-- A change that goes through is one of these, and the section with it passes its check. -/
theorem setKey_ok {s s' : Settings} {k : Key} {value : Json} (h : s.setKey k value = .ok s') :
    (∃ server checked, ServerChange s.server value server ∧ server.check = .ok checked ∧
      s' = { s with server := checked }) ∨
    ∃ importing checked, ImportChange s.importing value importing ∧
      importing.check = .ok checked ∧ s' = { s with importing := checked } := by
  cases k with
  | baseUrl => exact Or.inl ⟨_, _, .baseUrl, (setServer_ok h).choose_spec⟩
  | timeout =>
      obtain ⟨x, hx, h⟩ := exists_of_bind_eq_ok h
      exact Or.inl ⟨_, _, .timeout (converted_ok hx), (setServer_ok h).choose_spec⟩
  | defaultScene => exact Or.inr ⟨_, _, .scene, (setImporting_ok h).choose_spec⟩
  | defaultSubdirectory => exact Or.inr ⟨_, _, .subdirectory, (setImporting_ok h).choose_spec⟩
  | pollInterval =>
      obtain ⟨n, hn, h⟩ := exists_of_bind_eq_ok h
      obtain ⟨m, hm, rfl⟩ := whole_of_converted hn
      exact Or.inr ⟨_, _, .interval hm, (setImporting_ok h).choose_spec⟩
  | maxRetries =>
      obtain ⟨n, hn, h⟩ := exists_of_bind_eq_ok h
      obtain ⟨m, hm, rfl⟩ := whole_of_converted hn
      exact Or.inr ⟨_, _, .retries hm, (setImporting_ok h).choose_spec⟩
  | maxBackoff =>
      obtain ⟨n, hn, h⟩ := exists_of_bind_eq_ok h
      obtain ⟨m, hm, rfl⟩ := whole_of_converted hn
      exact Or.inr ⟨_, _, .backoff hm, (setImporting_ok h).choose_spec⟩

theorem set_ok {s s' : Settings} {key : String} {value : Json} (h : s.set key value = .ok s') :
    ∃ k, s.setKey k value = .ok s' := by
  obtain ⟨named, -, h⟩ := exists_of_bind_eq_ok h
  cases named with
  | setting k => exact ⟨k, h⟩
  | pollSeconds =>
      obtain ⟨_, -, h⟩ := exists_of_bind_eq_ok h
      cases h
  | backoffSeconds =>
      obtain ⟨_, -, h⟩ := exists_of_bind_eq_ok h
      cases h
  | about part name => cases h

theorem ImportChange.counted {s importing : ImportSettings} {value : Json}
    (h : ImportChange s value importing) {n : ImportSettings.Counts} (hn : s.Counted n) :
    ∃ m, importing.Counted m := by
  cases h with
  | scene => exact ⟨n, hn.interval, hn.retries, hn.backoff⟩
  | subdirectory => exact ⟨n, hn.interval, hn.retries, hn.backoff⟩
  | @interval i => exact ⟨{ n with interval := i }, rfl, hn.retries, hn.backoff⟩
  | @retries i => exact ⟨{ n with retries := i }, hn.interval, rfl, hn.backoff⟩
  | @backoff i => exact ⟨{ n with backoff := i }, hn.interval, hn.retries, rfl⟩

theorem ServerChange.checked {s server checked : ServerSettings} {value : Json} (hs : s.Checked)
    (h : ServerChange s value server) (hchecked : server.check = .ok checked) :
    checked.Checked := by
  obtain ⟨rfl, hscheme, hpositive⟩ := ServerSettings.check_ok hchecked
  refine ⟨hscheme, ?_⟩
  cases h with
  | baseUrl => exact hs.timeout
  | @timeout x _ => exact ⟨x, rfl, hpositive⟩

theorem Checked.set {s s' : Settings} {key : String} {value : Json} (hs : s.Checked)
    (h : s.set key value = .ok s') : s'.Checked := by
  obtain ⟨k, h⟩ := set_ok h
  rcases setKey_ok h with ⟨server, checked, hchange, hchecked, rfl⟩ |
    ⟨importing, checked, hchange, hchecked, rfl⟩
  · exact ⟨hchange.checked hs.server hchecked, hs.importing⟩
  · obtain ⟨n, hn, -⟩ := hs.importing.counts
    obtain ⟨m, hm⟩ := hchange.counted hn
    obtain ⟨rfl, hpassed⟩ := ImportSettings.check_ok hm hchecked
    exact ⟨hs.server, hpassed⟩

namespace Keeper

variable {path : String} {P : Settings → Prop}

/-- What holds of the first settings and of those in a file, and is kept by changes of single
values, holds of all settings that are reached. -/
theorem ofFile_gives [Json.Nesting] (first : P {})
    (read : ∀ {bytes s}, Settings.ofFile bytes = .ok s → P s)
    {file : Option ByteArray} {k : Keeper} (h : ofFile path file = .ok k) : P k.settings := by
  obtain ⟨s, hs, h⟩ := exists_of_bind_eq_ok h
  cases h
  rcases load_ok hs with rfl | ⟨bytes, -, hbytes⟩
  · exact first
  · exact read hbytes

theorem step_keeps [Json.Nesting] (first : P {})
    (read : ∀ {bytes s}, Settings.ofFile bytes = .ok s → P s) {k k' : Keeper} {c : Change}
    (set : ∀ {s s' key value}, c = .set key value → P s → s.set key value = .ok s' → P s')
    (hk : P k.settings) (h : k.step path c = .ok k') : P k'.settings := by
  cases c with
  | set key value =>
      obtain ⟨s, hs, h⟩ := exists_of_bind_eq_ok h
      cases h
      exact set rfl hk hs
  | reset =>
      cases h
      exact first
  | save =>
      cases h
      exact hk
  | reload => exact ofFile_gives first read h

theorem run_keeps [Json.Nesting] (first : P {})
    (read : ∀ {bytes s}, Settings.ofFile bytes = .ok s → P s) {k : Keeper} {changes : List Change}
    (set : ∀ {s s' key value}, .set key value ∈ changes → P s → s.set key value = .ok s' → P s')
    (hk : P k.settings) : P (k.run path changes).settings := by
  induction changes generalizing k with
  | nil => exact hk
  | cons c rest ih =>
      have hrest : ∀ {k : Keeper}, P k.settings → P (k.run path rest).settings :=
        ih fun h => set (List.mem_cons_of_mem _ h)
      rw [run]
      split
      · rename_i k' hstep
        exact hrest (step_keeps first read (fun h => set (h ▸ List.mem_cons_self)) hk hstep)
      · exact hrest hk

end Keeper

/-! ## What is promised -/

/-- What holds of all settings that are reached. -/
structure Sound (s : Settings) : Prop where
  url : "http://".toList <+: s.server.baseUrl.toList ∨ "https://".toList <+: s.server.baseUrl.toList
  timeout : s.server.timeout = .real .nan ∨ Number.lt (.whole 0) s.server.timeout = true
  scene : s.importing.defaultScene.truthy = true
  counts : ∃ n, s.importing.Counted n ∧ n.Fit

/-- What the settings are documented to be: moreover the timeout is above zero, and the scene is a
text. -/
structure Valid (s : Settings) : Prop extends s.Sound where
  positive : Number.lt (.whole 0) s.server.timeout = true
  text : ∃ text, s.importing.defaultScene = .str text ∧ text ≠ ""

/-- A binary number that is not zero or below is above zero or no number at all. -/
theorem positive_or_nan {x : Binary64} (h : Number.le (.real x) (.whole 0) = false) :
    x = .nan ∨ Number.lt (.whole 0) (.real x) = true := by
  simp only [Number.le, Number.compare?] at h
  simp only [Number.lt, Number.compare?]
  cases hx : x.compareInt? 0 with
  | none =>
      cases x with
      | nan => exact Or.inl rfl
      | infinite negative => cases hx
      | finite negative m e hcanonical => cases hx
  | some order =>
      rw [hx] at h
      cases order with
      | lt => cases h
      | eq => cases h
      | gt => exact Or.inr rfl

theorem Checked.sound {s : Settings} (h : s.Checked) : s.Sound where
  url := by
    have hscheme := h.server.scheme
    simp only [ServerSettings.hasScheme, ServerSettings.schemes, List.any_cons, List.any_nil,
      Bool.or_false, Bool.or_eq_true, List.isPrefixOf_iff_prefix] at hscheme
    exact hscheme
  timeout := by
    obtain ⟨x, hx, hpositive⟩ := h.server.timeout
    rw [hx] at hpositive ⊢
    rcases positive_or_nan hpositive with rfl | hlt
    · exact Or.inl rfl
    · exact Or.inr hlt
  scene := h.importing.scene
  counts := h.importing.counts

theorem Sound.valid_iff {s : Settings} (h : s.Sound) :
    s.Valid ↔
      s.server.timeout ≠ .real .nan ∧ ∃ text, s.importing.defaultScene = .str text := by
  constructor
  · intro hvalid
    obtain ⟨text, htext, -⟩ := hvalid.text
    refine ⟨fun hnan => ?_, text, htext⟩
    have hlt := hvalid.positive
    rw [hnan] at hlt
    cases hlt
  · rintro ⟨hnan, text, htext⟩
    refine ⟨h, h.timeout.resolve_left hnan, text, htext, fun hempty => ?_⟩
    have hscene := h.scene
    rw [htext, hempty] at hscene
    cases hscene

/-- All settings that are reached from a file are sound, and they are what they are documented to
be unless the timeout is a NaN or the scene is no text. -/
theorem sound_and_valid_iff [Json.Nesting] {path : String} {file : Option ByteArray} {k : Keeper}
    (opened : Keeper.ofFile path file = .ok k) (changes : List Change) :
    (k.run path changes).settings.Sound ∧ ((k.run path changes).settings.Valid ↔
      (k.run path changes).settings.server.timeout ≠ .real .nan ∧
        ∃ text, (k.run path changes).settings.importing.defaultScene = .str text) := by
  have hchecked : (k.run path changes).settings.Checked :=
    Keeper.run_keeps checked_first checked_of_ofFile (fun _ => Checked.set)
      (Keeper.ofFile_gives checked_first checked_of_ofFile opened)
  exact ⟨hchecked.sound, hchecked.sound.valid_iff⟩

def sceneFile : ByteArray :=
  ((Json.obj [("import", .obj [("default_scene", .str "day")])]).write .line).toUTF8

/-- The scene of the file comes back with a reload, and more is changed then. A timeout of zero is
refused. -/
def sceneChanges : List Change := [
  .set "import.default_scene" (.int 12), .reset, .reload,
  .set "server.timeout_seconds" (.str "0"),
  .set "import.max_poll_retries" (.str "7"), .save]

theorem valid_after_changes : ∃ k, Keeper.ofFile "/h" (some sceneFile) = .ok k ∧
    (k.run "/h" sceneChanges).settings.Valid ∧
    (k.run "/h" sceneChanges).settings.importing.defaultScene = .str "day" ∧
    (k.run "/h" sceneChanges).settings.importing.maxRetries = .whole 7 := by
  let facts (k : Keeper) : Bool :=
    (k.run "/h" sceneChanges).settings.importing.defaultScene.alike (.str "day") &&
      decide ((k.run "/h" sceneChanges).settings.importing.maxRetries = .whole 7) &&
      decide ((k.run "/h" sceneChanges).settings.server.timeout ≠ .real .nan)
  have hfacts : (Keeper.ofFile "/h" (some sceneFile)).toOption.any facts = true := by
    decide +kernel
  cases hopened : Keeper.ofFile "/h" (some sceneFile) with
  | error f =>
      rw [hopened] at hfacts
      cases hfacts
  | ok k =>
      rw [hopened] at hfacts
      simp only [facts, Except.toOption, Option.any_some, Bool.and_eq_true, decide_eq_true_eq]
        at hfacts
      obtain ⟨⟨halike, hretries⟩, htimeout⟩ := hfacts
      have hscene := Json.eq_str_of_alike halike
      have hvalid := (sound_and_valid_iff hopened sceneChanges).2.mpr ⟨htimeout, _, hscene⟩
      exact ⟨k, rfl, hvalid, hscene, hretries⟩

/-- A NaN passes for a timeout. -/
theorem not_valid_after_nan :
    ¬ (Keeper.run "" ⟨{}, none⟩ [.set "server.timeout_seconds" (.str "nan")]).settings.Valid := by
  intro h
  have hnan : (Keeper.run "" ⟨{}, none⟩
      [.set "server.timeout_seconds" (.str "nan")]).settings.server.timeout = .real .nan := by
    decide +kernel
  have hlt := h.positive
  rw [hnan] at hlt
  cases hlt

end Settings

end CardImport
