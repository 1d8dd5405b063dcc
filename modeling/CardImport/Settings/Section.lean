import CardImport.Json.Basic

/-!
# Sections

The settings have two sections. Besides its settings a section has reserved names, with two
underlines on both sides, that tell about the section itself: they can be read and never set.
-/

namespace CardImport.Settings

inductive Section where
  | server | importing
deriving DecidableEq, Repr

namespace Section

def all : List Section := [.server, .importing]

def name : Section → String
  | .server => "server"
  | .importing => "import"

def description : Section → String
  | .server => "Import server connection settings.

    Attributes:
        base_url: Root URL of the import server
        timeout_seconds: Per-request timeout
    "
  | .importing => "Import session settings.

    Attributes:
        default_scene: Scene assigned to newly listed clips
        default_subdirectory: Destination subdirectory when none is given
        poll_interval_ms: Milliseconds between status polls
        max_poll_retries: Consecutive failed polls tolerated (0-20)
        max_poll_backoff_ms: Upper bound for the retry delay
    "

def reservedNames : List String :=
  ["__annotations__", "__class__", "__dataclass_fields__", "__dataclass_params__", "__delattr__",
    "__dict__", "__dir__", "__doc__", "__eq__", "__format__", "__ge__", "__getattribute__",
    "__getstate__", "__gt__", "__hash__", "__init__", "__init_subclass__", "__le__", "__lt__",
    "__match_args__", "__module__", "__ne__", "__new__", "__post_init__", "__reduce__",
    "__reduce_ex__", "__repr__", "__setattr__", "__sizeof__", "__str__", "__subclasshook__",
    "__weakref__"]

/-- What is read under a reserved name of a section with the given settings. Names that stand for
no data give null. -/
def about (s : Section) (settings : Fields) : String → Json
  | "__module__" => .str "clipingest.config.manager"
  | "__doc__" => .str s.description
  | "__dict__" => .obj settings
  | "__match_args__" => .arr (settings.map fun (name, _) => .str name)
  | _ => .null

end Section

end CardImport.Settings
