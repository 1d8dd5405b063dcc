import CardImport.Command.Import
import CardImport.Settings.File
import CardImport.Proofs.Failing

/-!
# Failures that no command reports

A command reports the failures of its calls and those that are raised on purpose. What can be wrong
with a file in the home directory, or with the delays that the settings describe, is of neither
kind: it is noted, or it ends the command.
-/

namespace CardImport

variable {α β ε : Type} {P : Failure → Prop}

/-- Whether a failure ends a command that meets it. -/
def Unreported (f : Failure) : Prop := f.kind.isReported = false

theorem unreported_number (e : NumberError) : Unreported (.number e) := by
  cases e <;> rfl

theorem unreported_setting (e : SettingError) : Unreported (.setting e) := by
  show (if e.isLookup then Failure.Kind.lookup else .value).isReported = false
  split <;> rfl

theorem failsAs_mapError {g : ε → Failure} (hg : ∀ e, P (g e)) (x : Except ε α) :
    FailsAs P (x.mapError g) := by
  cases x with
  | ok a => exact failsAs_ok a
  | error e => exact FailsAs.error (hg e)

theorem failsAs_numberResult (x : Except NumberError α) :
    FailsAs Unreported (numberResult x) := by
  cases x with
  | ok a => exact failsAs_ok a
  | error e => exact FailsAs.error (unreported_number e)

/-! ## Values -/

namespace Json

theorem failsAs_ofFile [Nesting] (bytes : ByteArray) : FailsAs Unreported (ofFile bytes) := by
  unfold ofFile
  split
  · exact FailsAs.error rfl
  · refine failsAs_mapError (fun e => ?_) _
    cases e with
    | malformed => rfl
    | tooManyDigits n => exact unreported_number _
    | tooDeep c => rfl

theorem unreported_toWhole (x : Json) : FailsAs Unreported x.toWhole := by
  cases x with
  | bool b => exact failsAs_ok _
  | int n => exact failsAs_ok _
  | float x => exact failsAs_numberResult _
  | str s => exact failsAs_numberResult _
  | _ => exact FailsAs.error rfl

theorem unreported_toBinary (x : Json) : FailsAs Unreported x.toBinary := by
  cases x with
  | bool b => exact failsAs_ok _
  | int n => exact failsAs_numberResult _
  | float x => exact failsAs_ok _
  | str s => exact failsAs_numberResult _
  | _ => exact FailsAs.error rfl

theorem unreported_toNumber (x : Json) : FailsAs Unreported x.toNumber := by
  unfold toNumber
  split
  · exact failsAs_ok _
  · exact FailsAs.error rfl

end Json

/-! ## The settings -/

theorem ServerSettings.failsAs_make (baseUrl timeout : Json) :
    FailsAs Unreported (make baseUrl timeout) := by
  unfold make
  split
  · refine (failsAs_mapError unreported_setting _).bind fun _ _ => ?_
    refine timeout.unreported_toNumber.bind fun seconds _ => ?_
    exact (failsAs_mapError unreported_setting _).bind fun _ _ => failsAs_ok _
  · exact FailsAs.error rfl

theorem ImportSettings.failsAs_make (scene subdirectory interval retries backoff : Json) :
    FailsAs Unreported (make scene subdirectory interval retries backoff) := by
  unfold make
  refine (failsAs_mapError unreported_setting _).bind fun _ _ => ?_
  refine interval.unreported_toNumber.bind fun pollInterval _ => ?_
  refine (failsAs_mapError unreported_setting _).bind fun _ _ => ?_
  refine retries.unreported_toNumber.bind fun maxRetries _ => ?_
  refine (failsAs_mapError unreported_setting _).bind fun _ _ => ?_
  refine backoff.unreported_toNumber.bind fun maxBackoff _ => ?_
  exact (failsAs_mapError unreported_setting _).bind fun _ _ => failsAs_ok _

namespace Settings

theorem failsAs_section? (name : String) (fields : Fields) :
    FailsAs Unreported (section? name fields) := by
  unfold section?
  split
  · exact failsAs_ok _
  · exact FailsAs.error rfl

theorem failsAs_ofJson (data : Json) : FailsAs Unreported (ofJson data) := by
  unfold ofJson
  cases data with
  | obj fields =>
      refine (failsAs_ok fields).bind fun fields _ => ?_
      refine (failsAs_section? _ _).bind fun serverFields _ => ?_
      refine (Json.unreported_toBinary _).bind fun timeout _ => ?_
      refine (ServerSettings.failsAs_make _ _).bind fun server _ => ?_
      refine (failsAs_section? _ _).bind fun importFields _ => ?_
      refine (Json.unreported_toWhole _).bind fun pollInterval _ => ?_
      refine (Json.unreported_toWhole _).bind fun maxRetries _ => ?_
      refine (Json.unreported_toWhole _).bind fun maxBackoff _ => ?_
      exact (ImportSettings.failsAs_make _ _ _ _ _).bind fun _ _ => failsAs_ok _
  | _ => exact FailsAs.error rfl

/-- What is wrong with a settings file is noted, or ends the command. -/
theorem failsAs_load [Json.Nesting] (path : String) (file : Option ByteArray) :
    Noted.FailsAs Unreported (load path file) := by
  unfold load
  split
  · exact Noted.failsAs_pure _
  · rename_i bytes
    have hread : FailsAs Unreported (ofFile bytes) :=
      (Json.failsAs_ofFile bytes).bind fun data _ => failsAs_ofJson data
    split
    · exact Noted.failsAs_pure _
    · rename_i f hf
      split
      · exact (Noted.failsAs_write _ _ _).bind fun _ => Noted.failsAs_pure _
      · exact Noted.FailsAs.throw (hread f hf)

end Settings

/-- What is wrong with the memory file is noted, or ends the command. -/
theorem Memory.failsAs_load [Json.Nesting] (path : String) (file : Option ByteArray) :
    Noted.FailsAs Unreported (load path file) := by
  unfold load
  split
  · exact Noted.failsAs_pure _
  · rename_i bytes
    split
    · exact Noted.failsAs_pure _
    · exact (Noted.failsAs_write _ _ _).bind fun _ => Noted.failsAs_pure _
    · exact (Noted.failsAs_write _ _ _).bind fun _ => Noted.failsAs_pure _
    · rename_i f _ hf
      exact Noted.FailsAs.throw (Json.failsAs_ofFile bytes f hf)

theorem failsAs_sessionOf (s : ImportSettings) : FailsAs Unreported (Command.sessionOf s) := by
  unfold Command.sessionOf
  refine (failsAs_mapError unreported_number _).bind fun interval _ => ?_
  exact (failsAs_mapError unreported_number _).bind fun backoff _ => failsAs_ok _

end CardImport
