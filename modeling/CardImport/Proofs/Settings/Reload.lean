import CardImport.Proofs.Json.Reread
import CardImport.Proofs.Settings.Valid

/-!
# Settings that are saved and read again

All settings that are reached can be read where they were written: what comes from a file was read
within the limits of nesting and of digits, and what is changed becomes a text or a number. So the
file that they are saved to gives the same settings again, without a note, and saving these writes
the same file.
-/

namespace CardImport

/-! ## Whole numbers within the limit -/

namespace Number

theorem short_of_lt {n : ℤ} (h : n.natAbs < 10 ^ digitLimit) : Short n :=
  (Nat.length_toDigits_le_iff (by decide) (by decide)).mpr h

theorem digitsValue_lt (cs : List Char) : Text.digitsValue cs < 10 ^ cs.length := by
  have hdigit : ∀ c, (Text.digitValue? c).getD 0 < 10 := by
    intro c
    cases h : Text.digitValue? c with
    | none => exact Nat.succ_pos 9
    | some n => exact Text.digitValue?_lt h
  induction cs using List.reverseRecOn with
  | nil => exact Nat.one_pos
  | append_singleton cs c ih =>
      have hc := hdigit c
      rw [Text.digitsValue] at ih ⊢
      rw [List.foldl_append, List.foldl_cons, List.foldl_nil, List.length_append,
        List.length_singleton, Nat.pow_succ]
      omega

theorem short_of_readWhole {text : List Char} {n : ℤ} (h : readWhole text = .ok n) : Short n := by
  unfold readWhole at h
  dsimp only at h
  split at h
  · cases h
  · split at h
    · cases h
    · rename_i hlimit
      split at h
      · cases h
      · cases h
        refine short_of_lt ?_
        have habs : ∀ (negative : Bool) (v : ℕ), (if negative then -(v : ℤ) else v).natAbs = v := by
          intro negative v
          split <;> simp
        rw [habs]
        exact (digitsValue_lt _).trans_le
          (Nat.pow_le_pow_right (by decide) (Nat.not_lt.mp hlimit))

theorem twoTo_mul (a b : ℕ) : twoTo a * twoTo b = twoTo (a + b) := (Nat.pow_add 2 a b).symm

theorem twoTo_le {a b : ℕ} (h : a ≤ b) : twoTo a ≤ twoTo b := Nat.pow_le_pow_right (by decide) h

/-- The whole part of a binary number has far fewer digits than the limit. -/
theorem short_of_truncate? {x : Binary64} {n : ℤ} (h : x.truncate? = some n) : Short n := by
  cases x with
  | nan => cases h
  | infinite negative => cases h
  | finite negative m e canonical =>
      cases h
      have hunits : (Binary64.finite negative m e canonical).units.natAbs =
          m * twoTo (e + 1074).toNat := by
        rw [Binary64.units]
        split
        · rw [Int.natAbs_neg, Int.natAbs_natCast]
        · rw [Int.natAbs_natCast]
      have hlt : m * twoTo (e + 1074).toNat < twoTo 1074 * twoTo 1024 := by
        have hlargest := canonical.2.2.1
        calc m * twoTo (e + 1074).toNat
            < twoTo 53 * twoTo (e + 1074).toNat :=
              Nat.mul_lt_mul_of_pos_right canonical.1 (twoTo_pos _)
          _ = twoTo (53 + (e + 1074).toNat) := twoTo_mul _ _
          _ ≤ twoTo (1074 + 1024) := twoTo_le (by omega)
          _ = twoTo 1074 * twoTo 1024 := (twoTo_mul _ _).symm
      have hsmall : twoTo 1024 ≤ 10 ^ digitLimit := by decide +kernel
      refine short_of_lt ?_
      rw [Int.natAbs_tdiv, hunits, Int.natAbs_natCast, Binary64.unit]
      exact (Nat.div_lt_of_lt_mul hlt).trans_le hsmall

end Number

namespace Json

theorem short_of_toWhole {x : Json} {n : ℤ} (hx : ∀ m, x = .int m → Number.Short m)
    (h : x.toWhole = .ok n) : Number.Short n := by
  cases x with
  | bool b =>
      cases h
      cases b with
      | true => decide
      | false => decide
  | int m =>
      cases h
      exact hx _ rfl
  | float x =>
      change numberResult (Number.wholeOfBinary x) = .ok n at h
      rw [Number.wholeOfBinary] at h
      cases htruncate : x.truncate? with
      | none => rw [htruncate] at h; cases h
      | some m =>
          rw [htruncate] at h
          cases h
          exact Number.short_of_truncate? htruncate
  | str s =>
      change numberResult (Number.readWhole s.toList) = .ok n at h
      cases hread : Number.readWhole s.toList with
      | error e => rw [hread] at h; cases h
      | ok m =>
          rw [hread] at h
          cases h
          exact Number.short_of_readWhole hread
  | _ => cases h

theorem Readable.short {depth : ℕ} {x : Json} (h : Readable depth x) :
    ∀ m, x = .int m → Number.Short m := by
  rintro m rfl
  cases h with
  | int short => exact short

end Json

namespace Settings

/-! ## Settings that can be read where they were written -/

/-- How deep values may be nested in the settings, and in one of their sections. -/
def valueDepth [Json.Nesting] : ℕ := Json.Nesting.limit - 1

def sectionDepth [Json.Nesting] : ℕ := Json.Nesting.limit - 2

/-- What holds of all settings that are reached: they pass their checks, and what they hold can be
read inside a file. -/
structure Storable [Json.Nesting] (s : Settings) : Prop where
  checked : s.Checked
  schema : Json.Readable valueDepth s.schemaVersion
  importing : ∀ f ∈ s.importing.fields, Json.Readable sectionDepth f.2

theorem storable_first [Json.Nesting] : ({} : Settings).Storable where
  checked := checked_first
  schema := .str _
  importing := by
    simp only [ImportSettings.fields, List.forall_mem_cons]
    exact ⟨.str _, .str _, .int (by decide), .int (by decide), .int (by decide),
      fun _ h => absurd h List.not_mem_nil⟩

/-- What a file describes was read from it. -/
theorem storable_of_ofFile [Json.Nesting] {bytes : ByteArray} {s : Settings}
    (h : ofFile bytes = .ok s) : s.Storable := by
  obtain ⟨data, hread, hdata⟩ := exists_of_bind_eq_ok h
  obtain ⟨fields, part, rfl, hdescribed⟩ := described_of_ofJson hdata
  have hfields : Json.Readable (valueDepth + 1) (.obj fields) := Json.readable_of_ofFile hread
  have hpart : Json.Readable (sectionDepth + 1) (.obj part) := by
    have hsection : Json.Readable valueDepth (Fields.getD fields "import" (.obj [])) :=
      hfields.getD "import" (.obj List.nodup_nil fun _ h => absurd h List.not_mem_nil)
    have himporting := hdescribed.importing
    generalize Fields.getD fields "import" (.obj []) = x at hsection himporting
    cases x with
    | obj found =>
        cases himporting
        exact hsection
    | _ => cases himporting
  obtain ⟨n, hcounted, hinterval, hretries, hbackoff⟩ := hdescribed.counts
  have hshort : ∀ {name : String} {default m : ℤ}, Number.Short default →
      (Fields.getD part name (.int default)).toWhole = .ok m → Json.Readable sectionDepth (.int m) :=
    fun hdefault h => .int (Json.short_of_toWhole (hpart.getD _ (.int hdefault)).short h)
  refine ⟨hdescribed.checked, ?_, ?_⟩
  · rw [hdescribed.schemaVersion]
    exact hfields.getD _ (.str _)
  · simp only [ImportSettings.fields, List.forall_mem_cons, hcounted.interval, hcounted.retries,
      hcounted.backoff, hdescribed.scene, hdescribed.subdirectory]
    exact ⟨hpart.getD _ (.str _), hpart.getD _ (.str _), hshort (by decide) hinterval,
      hshort (by decide) hretries, hshort (by decide) hbackoff, fun _ h => absurd h List.not_mem_nil⟩

/-- A changed setting is a text or a number, and a whole number within the limit if the given one
is. -/
theorem Storable.set [Json.Nesting] {s s' : Settings} {key : String} {value : Json}
    (hs : s.Storable)
    (short : ∀ n, value = .int n → Number.Short n) (h : s.set key value = .ok s') :
    s'.Storable := by
  have hchecked := hs.checked.set h
  obtain ⟨k, h⟩ := set_ok h
  rcases setKey_ok h with ⟨server, checked, -, -, rfl⟩ | ⟨importing, checked, hchange, hpassed, rfl⟩
  · exact ⟨hchecked, hs.schema, hs.importing⟩
  · refine ⟨hchecked, hs.schema, ?_⟩
    obtain ⟨n, hn, -⟩ := hs.checked.importing.counts
    obtain ⟨m, hm⟩ := hchange.counted hn
    obtain ⟨rfl, -⟩ := ImportSettings.check_ok hm hpassed
    have hfields := hs.importing
    simp only [ImportSettings.fields, List.forall_mem_cons] at hfields ⊢
    obtain ⟨hscene, hsubdirectory, hinterval, hretries, hbackoff, hnil⟩ := hfields
    have hwhole : ∀ {m : ℤ}, value.toWhole = .ok m → Json.Readable sectionDepth (.int m) :=
      fun h => .int (Json.short_of_toWhole short h)
    cases hchange with
    | scene => exact ⟨.str _, hsubdirectory, hinterval, hretries, hbackoff, hnil⟩
    | subdirectory => exact ⟨hscene, .str _, hinterval, hretries, hbackoff, hnil⟩
    | interval hn => exact ⟨hscene, hsubdirectory, hwhole hn, hretries, hbackoff, hnil⟩
    | retries hn => exact ⟨hscene, hsubdirectory, hinterval, hwhole hn, hbackoff, hnil⟩
    | backoff hn => exact ⟨hscene, hsubdirectory, hinterval, hretries, hwhole hn, hnil⟩

/-! ## Writing and reading -/

theorem nodup_names (s : Settings) : (∀ part, (Fields.names (s.fieldsOf part)).Nodup) ∧
    ["schema_version", "server", "import"].Nodup := by
  refine ⟨fun part => ?_, by decide⟩
  cases part with
  | server =>
      show ["base_url", "timeout_seconds"].Nodup
      decide
  | importing =>
      show ["default_scene", "default_subdirectory", "poll_interval_ms", "max_poll_retries",
        "max_poll_backoff_ms"].Nodup
      decide

theorem Storable.readable [Json.Nesting] {s : Settings} (h : s.Storable) :
    Json.Readable Json.Nesting.limit s.toJson := by
  obtain ⟨hsections, hnames⟩ := nodup_names s
  obtain ⟨x, hx, -⟩ := h.checked.server.timeout
  have hserver : ∀ f ∈ s.server.fields, Json.Readable sectionDepth f.2 := by
    simp only [ServerSettings.fields, List.forall_mem_cons, hx]
    exact ⟨.str _, .float _, fun _ h => absurd h List.not_mem_nil⟩
  have hfields : ∀ f ∈ [("schema_version", s.schemaVersion), ("server", .obj s.server.fields),
      ("import", .obj s.importing.fields)], Json.Readable valueDepth f.2 := by
    simp only [List.forall_mem_cons]
    exact ⟨h.schema, .obj (hsections .server) hserver, .obj (hsections .importing) h.importing,
      fun _ h => absurd h List.not_mem_nil⟩
  exact @Json.Readable.obj valueDepth _ hnames hfields

theorem make_server {url : String} {x : Binary64} (scheme : ServerSettings.hasScheme url = true)
    (positive : Number.le (.real x) (.whole 0) = false) :
    ServerSettings.make (.str url) (.float x) = .ok ⟨url, .real x⟩ := by
  have hurl : ServerSettings.checkUrl url = .ok () := if_pos scheme
  have htimeout : ServerSettings.checkTimeout (.real x) = .ok () :=
    if_neg (by rw [positive]; exact Bool.false_ne_true)
  have hnumber : (Json.float x).toNumber = .ok (.real x) := rfl
  rw [ServerSettings.make, hurl, hnumber]
  show ((ServerSettings.checkTimeout (.real x)).mapError Failure.setting >>= _) = _
  rw [htimeout]
  rfl

theorem make_importing {scene subdirectory : Json} {n : ImportSettings.Counts}
    (hscene : scene.truthy = true) (fit : n.Fit) :
    ImportSettings.make scene subdirectory (.int n.interval) (.int n.retries) (.int n.backoff) =
      .ok ⟨scene, subdirectory, .whole n.interval, .whole n.retries, .whole n.backoff⟩ := by
  have htruthy : ImportSettings.checkScene scene = .ok () := if_pos hscene
  have hinterval : ImportSettings.checkInterval (.whole n.interval) = .ok () :=
    if_neg (by rw [Number.le_whole]; exact Int.not_le.mpr fit.interval)
  have hretries : ImportSettings.checkRetries (.whole n.retries) = .ok () :=
    if_pos (by rw [Bool.and_eq_true, Number.le_whole, Number.le_whole]; exact fit.retries)
  have hbackoff : ImportSettings.checkBackoff (.whole n.backoff) (.whole n.interval) = .ok () :=
    if_neg (by rw [Number.lt_whole]; exact Int.not_lt.mpr fit.backoff)
  have hnumber : ∀ m, (Json.int m).toNumber = .ok (.whole m) := fun _ => rfl
  simp only [ImportSettings.make, hnumber, htruthy]
  dsimp only [bind, Except.bind, Except.mapError]
  simp only [hinterval, hretries, hbackoff]
  rfl

theorem ofJson_toJson {s : Settings} (h : s.Checked) : ofJson s.toJson = .ok s := by
  obtain ⟨⟨url, timeout⟩, ⟨scene, subdirectory, interval, retries, backoff⟩, schema⟩ := s
  obtain ⟨⟨hscheme, x, hx, hpositive⟩, hscene, n, ⟨hinterval, hretries, hbackoff⟩, hfit⟩ := h
  dsimp only at hscheme hx hpositive hscene hinterval hretries hbackoff
  subst hx hinterval hretries hbackoff
  show (ServerSettings.make (.str url) (.float x) >>= fun server =>
    ImportSettings.make scene subdirectory (.int n.interval) (.int n.retries) (.int n.backoff) >>=
      fun importing => Except.ok (Settings.mk server importing schema)) = _
  rw [make_server hscheme hpositive, make_importing hscene hfit]
  rfl

/-- The file that settings are saved to gives them again, and nothing is noted. -/
theorem Storable.load [Json.Nesting] {s : Settings} (h : s.Storable) (path : String) :
    (Settings.load path (some s.fileText.toUTF8)).outcome = (.ok s, []) := by
  have hfile : ofFile s.fileText.toUTF8 = .ok s := by
    rw [ofFile, fileText, Json.ofFile_write h.readable]
    exact ofJson_toJson h.checked
  rw [Settings.load, hfile]
  rfl

/-- What a save comes to: the file gives the same settings again without a note, and saving those
writes the same file. -/
def Keeper.Reloads [Json.Nesting] (path : String) (k : Keeper) : Prop :=
  ∃ saved reopened again, k.step path .save = .ok saved ∧
    Keeper.ofFile path saved.file = .ok reopened ∧ (load path saved.file).outcome.2 = [] ∧
    reopened.settings.toJson = k.settings.toJson ∧
    reopened.step path .save = .ok again ∧ again.file = saved.file

/-- Settings that were reached from a file, by changes with no whole number beyond the limit of
digits, hold no number beyond it either, so that they can be saved, and they are read again as they
were. -/
theorem reloads_of_reached [Json.Nesting] {path : String} {file : Option ByteArray} {k : Keeper}
    {changes : List Change} (opened : Keeper.ofFile path file = .ok k)
    (short : ∀ key n, .set key (.int n) ∈ changes → Number.Short n) :
    Json.Readable Json.Nesting.limit (k.run path changes).settings.toJson ∧
      (k.run path changes).Reloads path := by
  have hstorable : (k.run path changes).settings.Storable := by
    refine Keeper.run_keeps storable_first storable_of_ofFile ?_
      (Keeper.ofFile_gives storable_first storable_of_ofFile opened)
    intro s s' key value hmem hs hset
    exact hs.set (fun n hn => short key n (hn ▸ hmem)) hset
  generalize k.run path changes = reached at hstorable
  have hload := hstorable.load path
  refine ⟨hstorable.readable, ⟨reached.settings, some reached.settings.fileText.toUTF8⟩,
    ⟨reached.settings, some reached.settings.fileText.toUTF8⟩, _, rfl, ?_, ?_, rfl, rfl, rfl⟩
  · rw [Keeper.ofFile, hload]
    rfl
  · rw [hload]

theorem reloads_after_changes :
    (Keeper.run "" ⟨{}, none⟩ [.set "import.default_scene" (.str "Ö\x22\n"), .save,
      .set "server.timeout_seconds" (.str "nan"),
      .set "import.max_poll_backoff_ms" (.int 60000)]).Reloads "" := by
  refine (@reloads_of_reached _ "" none ⟨{}, none⟩ _ rfl ?_).2
  intro key n h
  simp only [List.mem_cons, Change.set.injEq, Json.int.injEq, reduceCtorEq, and_false, false_or,
    List.not_mem_nil, or_false] at h
  obtain ⟨-, rfl⟩ := h
  decide

end Settings

end CardImport
