/-!
# Command line arguments

The command line names one file and may ask for dumps.  Options may stand before and after the
name, letters of several options may be joined, and a double dash ends the options.  Arguments
are taken from left to right: the first one that asks for the version or for help settles the
matter, and so does the first one that does not fit.
-/

namespace Script.CommandLine

inductive Request
  | run (dumps : Bool) (path : String)
  | version
  | help
  | misuse
deriving DecidableEq

/-- The options and the name among the arguments up to some point. -/
structure Settings where
  dumps : Bool
  path : Option String
deriving DecidableEq

namespace Settings

def initial : Settings := ⟨false, none⟩

/-- Asks for dumps, which can be done once only. -/
def askDumps (settings : Settings) : Except Request Settings :=
  if settings.dumps then .error .misuse else .ok { settings with dumps := true }

/-- Names the file, which can be done once only.  No file has an empty name. -/
def name (settings : Settings) (path : String) : Except Request Settings :=
  if settings.path.isSome ∨ path.isEmpty then .error .misuse
  else .ok { settings with path := some path }

/-- Takes the letters of options that stand behind a single dash. -/
def letters : Settings → List Char → Except Request Settings
  | settings, [] => .ok settings
  | settings, c :: cs =>
    if c = 'd' then do letters (← settings.askDumps) cs
    else if c = 'V' then .error .version
    else if c = 'h' then .error .help
    else .error .misuse

def take (settings : Settings) (argument : String) : Except Request Settings :=
  if argument = "--debug" then settings.askDumps
  else if argument = "--version" then .error .version
  else if argument = "--help" then .error .help
  else
    match argument.toList with
    | '-' :: '-' :: _ => .error .misuse
    | '-' :: c :: cs => settings.letters (c :: cs)
    | _ => settings.name argument

def takeAll : Settings → List String → Except Request Settings
  | settings, [] => .ok settings
  | settings, argument :: others =>
    if argument = "--" then others.foldlM name settings
    else do takeAll (← settings.take argument) others

end Settings

def Request.ofArguments (arguments : List String) : Request :=
  match Settings.initial.takeAll arguments with
  | .error request => request
  | .ok settings =>
    match settings.path with
    | some path => .run settings.dumps path
    | none => .misuse

end Script.CommandLine
