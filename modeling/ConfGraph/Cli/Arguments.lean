import ConfGraph.Config
import ConfGraph.Text.Similar

/-!
# Command line arguments

An option takes its value from the next argument, from the rest of its own argument (`-cfile`), or
after an equals sign (`--config=file`).  After `--` nothing is an option.  Arguments that are no
options are let pass; an unknown option ends the program.

* `Flag`: the options.
* `read`: what arguments come to.
* `suggestion`: the options that an unknown one may have meant.
-/

namespace ConfGraph.Cli

/-- The options that take a value. -/
inductive Flag where
  | config
  | json
deriving DecidableEq, Repr

namespace Flag

/-- All options. -/
def all : List Flag := [config, json]

/-- The short form of an option. -/
def short : Flag → String
  | config => "-c"
  | json => "-j"

/-- The long form of an option. -/
def long : Flag → String
  | config => "--config"
  | json => "--json"

/-- An option with the name of its value. -/
def usage : Flag → String
  | config => "-c, --config <path>"
  | json => "-j, --json <jsonString>"

/-- The option that a text is a form of. -/
def ofForm? (s : String) : Option Flag := all.find? fun f => s == f.short || s == f.long

end Flag

/-- Why a program ends at its arguments. -/
inductive Refusal where
  /-- Help was asked for. -/
  | help
  | missingValue (flag : Flag)
  | unknownOption (text : String)

/-- The values given so far, and the arguments from the first unknown option on that are no known
ones. -/
structure Reading where
  origin : Config.Origin
  unknown : List String

/-- The reading at the start. -/
def Reading.start : Reading := ⟨⟨none, none⟩, []⟩

/-- The value of an option set. -/
def Reading.set (r : Reading) (flag : Flag) (value : String) : Reading :=
  match flag with
  | .config => { r with origin := { r.origin with file := some value } }
  | .json => { r with origin := { r.origin with text := some value } }

/-- An argument passed over; it is remembered from the first unknown option on. -/
def Reading.pass (r : Reading) (arg : String) : Reading :=
  if r.unknown.isEmpty then r else { r with unknown := r.unknown ++ [arg] }

/-- An unknown option. -/
def Reading.stranger (r : Reading) (arg : String) : Reading :=
  { r with unknown := r.unknown ++ [arg] }

/-- Whether an argument looks like an option. -/
def looksLikeOption (arg : String) : Bool :=
  match arg.toList with
  | '-' :: _ :: _ => true
  | _ => false

/-- An option with its value in the same argument. -/
def joined? (arg : String) : Option (Flag × String) :=
  match arg.toList with
  | '-' :: '-' :: c :: rest =>
    if c = '=' then none
    else
      let name := (c :: rest).takeWhile (· != '=')
      match (c :: rest).dropWhile (· != '=') with
      | '=' :: value =>
        (Flag.ofForm? (String.ofList ('-' :: '-' :: name))).map fun f => (f, String.ofList value)
      | _ => none
  | '-' :: c :: d :: rest =>
    (Flag.ofForm? (String.ofList ['-', c])).map fun f => (f, String.ofList (d :: rest))
  | _ => none

/-- Reads arguments one after the other. -/
def readFrom (r : Reading) : List String → Except Refusal Reading
  | [] => .ok r
  | "--" :: rest =>
    .ok (if r.unknown.isEmpty then r else { r with unknown := r.unknown ++ "--" :: rest })
  | [arg] =>
    match Flag.ofForm? arg, joined? arg with
    | some flag, _ => .error (.missingValue flag)
    | none, some (flag, value) => .ok (r.set flag value)
    | none, none => .ok (if looksLikeOption arg then r.stranger arg else r.pass arg)
  | arg :: value :: rest =>
    match Flag.ofForm? arg, joined? arg with
    | some flag, _ => readFrom (r.set flag value) rest
    | none, some (flag, value') => readFrom (r.set flag value') (value :: rest)
    | none, none =>
      readFrom (if looksLikeOption arg then r.stranger arg else r.pass arg) (value :: rest)

/-- Whether an argument asks for help. -/
def asksForHelp (arg : String) : Bool := arg == "-h" || arg == "--help"

/-- **What arguments come to**: where the config is to be taken from, or why the program ends. -/
def read (args : List String) : Except Refusal Config.Origin :=
  match readFrom Reading.start args with
  | .error r => .error r
  | .ok r =>
    if r.unknown.any asksForHelp then .error .help
    else
      match r.unknown with
      | [] => .ok r.origin
      | arg :: _ => .error (.unknownOption arg)

/-! ## Texts -/

/-- The help text. -/
def helpText : String :=
  "Usage: cfgscript [options]\n\n"
  ++ "Build a configuration graph from a list of initializers\n\n"
  ++ "Options:\n"
  ++ "  -c, --config <path>      config file path\n"
  ++ "  -j, --json <jsonString>  config as a JSON string\n"
  ++ "  -h, --help               display help for command\n"

/-- The long options whose names are close to that of an unknown one. -/
def suggestion (arg : String) : String :=
  if "--".toList.isPrefixOf arg.toList then
    let names := Text.closest (arg.drop 2).toString ["config", "json", "help"]
    match (names.mergeSort fun a b => a ≤ b).map ("--" ++ ·) with
    | [] => ""
    | [name] => s!"\n(Did you mean {name}?)"
    | names => "\n(Did you mean one of " ++ Cause.separated ", " names ++ "?)"
  else ""

end ConfGraph.Cli
