import CardImport.Failure

/-!
# The journal

What happens is written down in entries of three levels. A computation that can fail keeps the
entries it made before it failed.
-/

namespace CardImport

inductive Level where
  | info | warning | error
deriving DecidableEq, Repr

/-- The part of the program that makes an entry. -/
inductive Source where
  | decoding | transport | registry | editing | jobs | reconciling | session | memory | settings
deriving DecidableEq, Repr

structure Entry where
  level : Level
  source : Source
  message : String
deriving DecidableEq, Repr

def Level.name : Level → String
  | .info => "INFO"
  | .warning => "WARNING"
  | .error => "ERROR"

def Source.name : Source → String
  | .decoding => "models.converters"
  | .transport => "services.http"
  | .registry => "services.takes"
  | .editing => "services.take_list"
  | .jobs => "services.import_job"
  | .reconciling => "services.reconciler"
  | .session => "services.orchestrator"
  | .memory => "services.session_store"
  | .settings => "config.manager"

/-- A computation that writes entries and may fail. -/
abbrev Noted (α : Type) := ExceptT Failure (StateM (List Entry)) α

namespace Noted

def write (level : Level) (source : Source) (message : String) : Noted Unit :=
  modify (· ++ [⟨level, source, message⟩])

/-- The outcome, and the entries in the order they were made. -/
def outcome {α : Type} (x : Noted α) : Except Failure α × List Entry := x.run.run []

end Noted

end CardImport
