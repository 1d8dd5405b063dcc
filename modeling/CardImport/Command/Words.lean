/-!
# Options and arguments

The words of a command line are options, the values of options and arguments. Two hyphens alone
end the options. A long option takes its value from the same word, behind an equals sign, or from
the next word, whatever that is.
-/

namespace CardImport.Command

inductive OptionKind where
  /-- Sets a flag to this value. -/
  | flag (on : Bool)
  | value
deriving DecidableEq

structure OptionSpec where
  word : String
  name : String
  kind : OptionKind

inductive Given where
  | flag (name : String) (on : Bool)
  | value (name : String) (text : String)

/-- The options in the order in which they were given, and the arguments. -/
structure Words where
  options : List Given
  arguments : List String

namespace Words

def addOption (g : Given) (w : Words) : Words := { w with options := g :: w.options }

def addArgument (a : String) (w : Words) : Words := { w with arguments := a :: w.arguments }

def isOption (word : String) : Bool :=
  match word.toList with
  | '-' :: _ :: _ => true
  | _ => false

/-- The part before an equals sign and, if there is one, the part behind it. -/
def splitValue (word : String) : String × Option String :=
  let cs := word.toList
  let front := String.ofList (cs.takeWhile (· != '='))
  match cs.dropWhile (· != '=') with
  | [] => (front, none)
  | _ :: value => (front, some (String.ofList value))

def shortFlags? (specs : List OptionSpec) (letters : List Char) : Option (List Given) :=
  letters.mapM fun c => do
    let spec ← specs.find? (·.word == String.ofList ['-', c])
    match spec.kind with
    | .flag on => some (.flag spec.name on)
    | .value => none

def otherFlags? (specs : List OptionSpec) (word : String) : Option (List Given) :=
  match word.toList with
  | '-' :: '-' :: _ => none
  | _ :: letters => shortFlags? specs letters
  | [] => none

/-- Takes words apart; none if they do not fit the options. Unless options may follow arguments,
all words from the first argument on are arguments. -/
def parse? (specs : List OptionSpec) (mixed : Bool) : List String → Option Words
  | [] => some ⟨[], []⟩
  | word :: rest =>
    if word = "--" then some ⟨[], rest⟩
    else if !isOption word then
      if mixed then (parse? specs mixed rest).map (addArgument word) else some ⟨[], word :: rest⟩
    else
      let (front, value) := splitValue word
      match specs.find? (·.word == front) with
      | none => do
        let flags ← otherFlags? specs word
        return flags.foldr addOption (← parse? specs mixed rest)
      | some spec =>
        match spec.kind, value with
        | .flag on, none => (parse? specs mixed rest).map (addOption (.flag spec.name on))
        | .flag _, some _ => none
        | .value, some text => (parse? specs mixed rest).map (addOption (.value spec.name text))
        | .value, none =>
          match rest with
          | [] => none
          | text :: rest => (parse? specs mixed rest).map (addOption (.value spec.name text))

/-! ## Looking options up -/

def flag? (w : Words) (name : String) : Option Bool :=
  w.options.reverse.findSome? fun
    | .flag n on => if n = name then some on else none
    | .value _ _ => none

def isSet (w : Words) (name : String) : Bool := (w.flag? name).getD false

def values (w : Words) (name : String) : List String :=
  w.options.filterMap fun
    | .value n text => if n = name then some text else none
    | .flag _ _ => none

/-- The value of an option that was given last. -/
def value? (w : Words) (name : String) : Option String := (w.values name).getLast?

end Words

end CardImport.Command
