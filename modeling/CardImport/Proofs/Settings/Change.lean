import CardImport.Proofs.Settings.Valid

/-!
# Setting a value

A value is converted to the type of its setting, and the section is checked with it before it is
taken over. Then its entry is the only one that is another; and if anything fails, all settings are
as they were. The file is left alone until the settings are saved.

A key that names no setting is refused as a wrong key. There is one way around this: the delays in
seconds are read before they are found to be no settings, and a delay that is too large cannot be
read.
-/

namespace CardImport.Settings

/-! ## What a key stands for -/

inductive Kind where
  | text | whole | binary

def Kind.convert (value : Json) : Kind → Except Failure Json
  | .text => .ok (.str value.text)
  | .whole => value.toWhole.map .int
  | .binary => value.toBinary.map .float

namespace Key

def part : Key → Section
  | .baseUrl | .timeout => .server
  | _ => .importing

/-- What a setting is called in its section. -/
def field : Key → String
  | .baseUrl => "base_url"
  | .timeout => "timeout_seconds"
  | .defaultScene => "default_scene"
  | .defaultSubdirectory => "default_subdirectory"
  | .pollInterval => "poll_interval_ms"
  | .maxRetries => "max_poll_retries"
  | .maxBackoff => "max_poll_backoff_ms"

def kind : Key → Kind
  | .baseUrl | .defaultScene | .defaultSubdirectory => .text
  | .timeout => .binary
  | .pollInterval | .maxRetries | .maxBackoff => .whole

theorem named_name (k : Key) : named k.name = .ok (.setting k) := by
  cases k <;> rfl

end Key

/-- A key is wrong, or it names a setting, a delay in seconds or something about a section. -/
theorem named_cases (key : String) :
    (∃ e, named key = .error e ∧ e.isLookup = true) ∨
    (∃ k : Key, key = k.name) ∨ key = "import.poll_interval" ∨ key = "import.max_poll_backoff" ∨
    ∃ part name, named key = .ok (.about part name) := by
  unfold named
  split
  · split
    · exact Or.inl ⟨_, rfl, rfl⟩
    · split
      · rename_i k hk
        have hname := List.find?_some hk
        exact Or.inr (Or.inl ⟨k, (of_decide_eq_true hname).symm⟩)
      · by_cases hinterval : key = "import.poll_interval"
        · exact Or.inr (Or.inr (Or.inl hinterval))
        · by_cases hbackoff : key = "import.max_poll_backoff"
          · exact Or.inr (Or.inr (Or.inr (Or.inl hbackoff)))
          · rw [if_neg hinterval, if_neg hbackoff]
            split
            · exact Or.inr (Or.inr (Or.inr (Or.inr ⟨_, _, rfl⟩)))
            · exact Or.inl ⟨_, rfl, rfl⟩
  · exact Or.inl ⟨_, rfl, rfl⟩

/-! ## What changes -/

/-- Whether a section passes its check. -/
def Passes (s : Settings) : Section → Prop
  | .server => s.server.check = .ok s.server
  | .importing => s.importing.check = .ok s.importing

def shownWith (s : Settings) (k : Key) (v : Json) : Json :=
  .obj (("schema_version", s.schemaVersion) :: Section.all.map fun part =>
    (part.name, .obj (if part = k.part then (s.fieldsOf part).set k.field v else s.fieldsOf part)))

/-- Settings that differ from others in one value, which was checked. -/
structure ChangedTo (s s' : Settings) (k : Key) (v : Json) : Prop where
  read : s'.get k.name = .ok v
  shown : s'.toJson = s.shownWith k v
  passes : s'.Passes k.part

theorem get_name (s : Settings) (k : Key) : s.get k.name = .ok (k.value s) := by
  have hversion : k.name ≠ "schema_version" := by
    cases k <;> decide
  rw [get, if_neg hversion, Key.named_name]
  rfl

theorem set_name (s : Settings) (k : Key) (value : Json) :
    s.set k.name value = s.setKey k value := by
  rw [set, Key.named_name]
  rfl

theorem setServer_taken {s s' : Settings} {server : ServerSettings}
    (h : s.setServer server = .ok s') :
    s' = { s with server } ∧ s'.Passes .server := by
  obtain ⟨checked, hchecked, rfl⟩ := setServer_ok h
  obtain ⟨rfl, -, -⟩ := ServerSettings.check_ok hchecked
  exact ⟨rfl, hchecked⟩

theorem eq_of_check {s s' : ImportSettings} (h : s.check = .ok s') : s' = s := by
  unfold ImportSettings.check at h
  obtain ⟨_, -, h⟩ := exists_of_bind_eq_ok h
  obtain ⟨_, -, h⟩ := exists_of_bind_eq_ok h
  obtain ⟨_, -, h⟩ := exists_of_bind_eq_ok h
  obtain ⟨_, -, h⟩ := exists_of_bind_eq_ok h
  exact (Except.ok.inj h).symm

theorem setImporting_taken {s s' : Settings} {importing : ImportSettings}
    (h : s.setImporting importing = .ok s') :
    s' = { s with importing } ∧ s'.Passes .importing := by
  obtain ⟨checked, hchecked, rfl⟩ := setImporting_ok h
  obtain rfl := eq_of_check hchecked
  exact ⟨rfl, hchecked⟩

theorem convert_whole {value : Json} {n : Int} (h : value.toWhole = .ok n) :
    Kind.whole.convert value = .ok (.int n) := by
  rw [Kind.convert, h]
  rfl

theorem changedTo_of_setKey {s s' : Settings} {k : Key} {value : Json}
    (h : s.setKey k value = .ok s') :
    ∃ v, k.kind.convert value = .ok v ∧ s.ChangedTo s' k v := by
  cases k with
  | baseUrl =>
      obtain ⟨rfl, hpasses⟩ := setServer_taken h
      exact ⟨_, rfl, get_name _ .baseUrl, rfl, hpasses⟩
  | timeout =>
      obtain ⟨x, hx, h⟩ := exists_of_bind_eq_ok h
      obtain ⟨rfl, hpasses⟩ := setServer_taken h
      refine ⟨.float x, ?_, get_name _ .timeout, rfl, hpasses⟩
      rw [Key.kind, Kind.convert, converted_ok hx]
      rfl
  | defaultScene =>
      obtain ⟨rfl, hpasses⟩ := setImporting_taken h
      exact ⟨_, rfl, get_name _ .defaultScene, rfl, hpasses⟩
  | defaultSubdirectory =>
      obtain ⟨rfl, hpasses⟩ := setImporting_taken h
      exact ⟨_, rfl, get_name _ .defaultSubdirectory, rfl, hpasses⟩
  | pollInterval =>
      obtain ⟨n, hn, h⟩ := exists_of_bind_eq_ok h
      obtain ⟨m, hm, rfl⟩ := whole_of_converted hn
      obtain ⟨rfl, hpasses⟩ := setImporting_taken h
      exact ⟨_, convert_whole hm, get_name _ .pollInterval, rfl, hpasses⟩
  | maxRetries =>
      obtain ⟨n, hn, h⟩ := exists_of_bind_eq_ok h
      obtain ⟨m, hm, rfl⟩ := whole_of_converted hn
      obtain ⟨rfl, hpasses⟩ := setImporting_taken h
      exact ⟨_, convert_whole hm, get_name _ .maxRetries, rfl, hpasses⟩
  | maxBackoff =>
      obtain ⟨n, hn, h⟩ := exists_of_bind_eq_ok h
      obtain ⟨m, hm, rfl⟩ := whole_of_converted hn
      obtain ⟨rfl, hpasses⟩ := setImporting_taken h
      exact ⟨_, convert_whole hm, get_name _ .maxBackoff, rfl, hpasses⟩

/-! ## Keys that are refused -/

/-- Whether a key names a delay that is too large to be read in seconds. -/
def TooLarge (s : Settings) (key : String) : Prop :=
  (key = "import.poll_interval" ∧ ∃ f, s.importing.pollSeconds = .error f) ∨
    key = "import.max_poll_backoff" ∧ ∃ f, s.importing.backoffSeconds = .error f

theorem overflow_of_divNat {a : Number} {d : Nat} {f : Failure}
    (h : ((a.divNat d).map Number.real |>.mapError Failure.number) = .error f) :
    f.kind = .overflow := by
  unfold Number.divNat at h
  split at h
  · cases h
  · cases h
  · split at h
    · cases h
    · cases h
      rfl

/-- A delay in seconds cannot be set: it is refused as a key, unless it is too large to be read. -/
theorem set_delay {s : Settings} {key : String} {value : Json} (delay : Except Failure Number)
    (hset : s.set key value = delay >>= fun _ => .error (.setting (.readOnlyKey key)))
    (hlarge : s.TooLarge key ↔ ∃ f, delay = .error f)
    (hoverflow : ∀ f, delay = .error f → f.kind = .overflow) :
    ∃ f, s.set key value = .error f ∧ (f.kind = .lookup ↔ ¬ s.TooLarge key) := by
  rw [hset, hlarge]
  cases delay with
  | error f =>
      refine ⟨f, rfl, ?_⟩
      rw [hoverflow f rfl]
      simp
  | ok seconds =>
      refine ⟨_, rfl, ?_⟩
      simp [Failure.kind, SettingError.isLookup]

/-- A key that names no setting is refused as a wrong key, unless it names a delay that is too
large. -/
theorem set_of_not_setting (s : Settings) (value : Json) {key : String}
    (h : key ∉ Key.all.map Key.name) :
    ∃ f, s.set key value = .error f ∧ (f.kind = .lookup ↔ ¬ s.TooLarge key) := by
  rcases named_cases key with ⟨e, he, hlookup⟩ | ⟨k, rfl⟩ | rfl | rfl | ⟨part, name, habout⟩
  · refine ⟨.setting e, ?_, ?_⟩
    · rw [set, he]
      rfl
    · have hnot : ¬ s.TooLarge key := by
        rintro (⟨rfl, -⟩ | ⟨rfl, -⟩)
        · cases he
        · cases he
      simp [Failure.kind, hlookup, hnot]
  · cases k <;> exact absurd (by decide) h
  · exact set_delay s.importing.pollSeconds rfl (by simp [TooLarge])
      fun f => overflow_of_divNat
  · exact set_delay s.importing.backoffSeconds rfl (by simp [TooLarge])
      fun f => overflow_of_divNat
  · refine ⟨.setting (.readOnlyKey key), ?_, ?_⟩
    · rw [set, habout]
      rfl
    · have hnot : ¬ s.TooLarge key := by
        rintro (⟨rfl, -⟩ | ⟨rfl, -⟩)
        · cases habout
        · cases habout
      simp [Failure.kind, SettingError.isLookup, hnot]

/-! ## The file -/

namespace Keeper

variable {path : String} {k : Keeper}

theorem file_step [Json.Nesting] {k' : Keeper} {c : Change} (hc : c ≠ .save)
    (h : k.step path c = .ok k') : k'.file = k.file := by
  cases c with
  | set key value =>
      obtain ⟨s, -, h⟩ := exists_of_bind_eq_ok h
      cases h
      rfl
  | reset =>
      cases h
      rfl
  | save => exact absurd rfl hc
  | reload =>
      obtain ⟨s, -, h⟩ := exists_of_bind_eq_ok h
      cases h
      rfl

/-- The file changes only when the settings are saved. -/
theorem file_run [Json.Nesting] {changes : List Change} (h : .save ∉ changes) :
    (k.run path changes).file = k.file := by
  induction changes generalizing k with
  | nil => rfl
  | cons c rest ih =>
      have hc : c ≠ .save := fun heq => h (heq ▸ List.mem_cons_self)
      have hrest : .save ∉ rest := fun hmem => h (List.mem_cons_of_mem _ hmem)
      rw [run]
      split
      · rename_i k' hstep
        rw [ih hrest, file_step hc hstep]
      · exact ih hrest

theorem run_set_of_error [Json.Nesting] (path : String) {key : String} {value : Json} {f : Failure}
    (h : k.settings.set key value = .error f) : k.run path [.set key value] = k := by
  rw [run, step, h]
  rfl

theorem run_set_of_ok [Json.Nesting] (path : String) {key : String} {value : Json} {s : Settings}
    (h : k.settings.set key value = .ok s) :
    k.run path [.set key value] = { k with settings := s } := by
  rw [run, step, h]
  rfl

/-- Setting a value changes nothing if it fails, and the entry of its key alone if it does not. The
file is left alone, and a key that names no setting is refused as a wrong key, unless it names a
delay that is too large. -/
theorem set_changes_one [Json.Nesting] (path : String) (k : Keeper) (key : String) (value : Json) :
    ((∃ f, k.settings.set key value = .error f ∧ k.run path [.set key value] = k) ∨
      ∃ (s : Settings) (name : Key) (v : Json), k.settings.set key value = .ok s ∧
        k.run path [.set key value] = { k with settings := s } ∧ name.name = key ∧
        name.kind.convert value = .ok v ∧ k.settings.ChangedTo s name v) ∧
    (∀ later, .save ∉ later → ((k.run path [.set key value]).run path later).file = k.file) ∧
    (key ∉ Key.all.map Key.name → ∃ f, k.settings.set key value = .error f ∧
      (f.kind = .lookup ↔ ¬ k.settings.TooLarge key)) := by
  refine ⟨?_, ?_, set_of_not_setting k.settings value⟩
  · cases hset : k.settings.set key value with
    | error f => exact Or.inl ⟨f, rfl, run_set_of_error path hset⟩
    | ok s =>
        right
        by_cases hname : key ∈ Key.all.map Key.name
        · obtain ⟨name, -, rfl⟩ := List.mem_map.mp hname
          rw [set_name] at hset
          obtain ⟨v, hv, hchanged⟩ := changedTo_of_setKey hset
          have hrun := run_set_of_ok path ((set_name _ name value).trans hset)
          exact ⟨s, name, v, rfl, hrun, rfl, hv, hchanged⟩
        · obtain ⟨f, hf, -⟩ := set_of_not_setting k.settings value hname
          rw [hset] at hf
          cases hf
  · intro later hlater
    rw [file_run hlater, file_run]
    simp

theorem set_changes_one_retries :
    (Keeper.run "" ⟨{}, none⟩ [.set "import.max_poll_retries" (.str " 7 "), .reset]).file = none ∧
      ∃ f, ({} : Settings).set "server.base_url.host" (.str "a") = .error f ∧ f.kind = .lookup := by
  obtain ⟨-, hfile, -⟩ := set_changes_one "" ⟨{}, none⟩ "import.max_poll_retries" (.str " 7 ")
  obtain ⟨-, -, hlookup⟩ := set_changes_one "" ⟨{}, none⟩ "server.base_url.host" (.str "a")
  obtain ⟨f, hf, hkind⟩ := hlookup (by decide)
  have hnot : ¬ ({} : Settings).TooLarge "server.base_url.host" := by
    rintro (⟨hkey, -⟩ | ⟨hkey, -⟩)
    · revert hkey
      decide
    · revert hkey
      decide
  exact ⟨hfile [.reset] (by simp), f, hf, hkind.mpr hnot⟩

def withBackoff (n : Int) : Settings := { importing := { maxBackoff := .whole n } }

theorem set_backoff {n : Int} (h : 500 ≤ n) :
    ({} : Settings).set "import.max_poll_backoff_ms" (.int n) = .ok (withBackoff n) := by
  have hlt : Number.lt (.whole n) (.whole 500) = false := by
    rw [← Bool.not_eq_true, Number.lt_whole]
    omega
  have hchecked : ImportSettings.checkBackoff (.whole n) (.whole 500) = .ok () := by
    rw [ImportSettings.checkBackoff, hlt]
    rfl
  show ({} : Settings).setImporting { maxBackoff := .whole n } = _
  unfold setImporting ImportSettings.check
  rw [hchecked]
  rfl

/-- A delay that is too large is not refused as a wrong key. -/
theorem not_lookup_of_too_large :
    ¬ ∃ f, (Keeper.run "" ⟨{}, none⟩
        [.set "import.max_poll_backoff_ms" (.int (tenTo 400))]).settings.set
      "import.max_poll_backoff" (.int 1) = .error f ∧ f.kind = .lookup := by
  have hleast : (500 : Int) ≤ tenTo 400 := by decide +kernel
  have hunread : (withBackoff (tenTo 400)).importing.backoffSeconds.toOption.isNone = true := by
    decide +kernel
  generalize (tenTo 400 : Int) = n at hleast hunread ⊢
  have hlarge : (withBackoff n).TooLarge "import.max_poll_backoff" := by
    right
    refine ⟨rfl, ?_⟩
    cases hseconds : (withBackoff n).importing.backoffSeconds with
    | error f => exact ⟨f, rfl⟩
    | ok seconds =>
        rw [hseconds] at hunread
        cases hunread
  rintro ⟨f, hf, hkind⟩
  have hrun := run_set_of_ok "" (k := ⟨{}, none⟩) (set_backoff hleast)
  rw [hrun] at hf
  have hname : "import.max_poll_backoff" ∉ Key.all.map Key.name := by decide
  obtain ⟨f', hf', hlookup⟩ := set_of_not_setting (withBackoff n) (.int 1) hname
  obtain rfl : f' = f := Except.error.inj (hf'.symm.trans hf)
  exact hlookup.mp hkind hlarge

end Keeper

end CardImport.Settings
