import CardImport.Json.Text

/-!
# What is wrong with a setting

A key may name no setting, and a value may not suit its setting.
-/

namespace CardImport

inductive SettingError where
  | badKeyFormat (key : String)
  | unknownSection (name : String)
  | unknownKey (key : String)
  | readOnlyKey (key : String)
  | badValue (key : String) (value : Json)
  | badUrl (url : String)
  | badTimeout (seconds : Number)
  | emptyScene
  | badInterval (milliseconds : Number)
  | badRetries (count : Number)
  | badBackoff (backoff interval : Number)

namespace SettingError

/-- Whether the key is wrong, and not the value. -/
def isLookup : SettingError → Bool
  | badKeyFormat _ | unknownSection _ | unknownKey _ | readOnlyKey _ => true
  | _ => false

def message : SettingError → String
  | badKeyFormat key => "Invalid configuration key format: " ++ key
  | unknownSection name => "Unknown configuration section: " ++ name
  | unknownKey key => "Unknown configuration key: " ++ key
  | readOnlyKey key => "Configuration key is read-only: " ++ key
  | badValue key value => "Invalid value for " ++ key ++ ": " ++ value.shown
  | badUrl url => "Invalid base_url: " ++ url ++ ". Must start with http:// or https://"
  | badTimeout seconds =>
    "Invalid timeout_seconds: " ++ seconds.text ++ ". Must be positive"
  | emptyScene => "Invalid default_scene: must not be empty"
  | badInterval milliseconds =>
    "Invalid poll_interval_ms: " ++ milliseconds.text ++ ". Must be positive"
  | badRetries count =>
    "Invalid max_poll_retries: " ++ count.text ++ ". Must be between 0 and 20"
  | badBackoff backoff interval =>
    "Invalid max_poll_backoff_ms: " ++ backoff.text ++
      ". Must be at least poll_interval_ms (" ++ interval.text ++ ")"

end SettingError

end CardImport
