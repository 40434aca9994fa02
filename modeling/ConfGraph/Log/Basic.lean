import ConfGraph.Text.Blank
import ConfGraph.Value.Printer

/-!
# Log records

A log record is a level and fields.  It is written in one line as `name=value` pairs; a text that
holds white space, an equals sign or a quote is quoted.

* `FieldValue.text`, `Record.text`: the line of a record.
* `Logger`: the threshold below which records are dropped, and where the others go.
* `Logger.emit`: what becomes of a record.
-/

namespace ConfGraph.Log

/-! ## 1. Levels -/

/-- How important a record is. -/
inductive Level where
  | trace
  | debug
  | info
  | warn
  | error
deriving DecidableEq, Repr

namespace Level

/-- All levels, least important first. -/
def all : List Level := [trace, debug, info, warn, error]

/-- The name of a level. -/
def name : Level → String
  | trace => "trace"
  | debug => "debug"
  | info => "info"
  | warn => "warn"
  | error => "error"

/-- The name of a level as it starts a line. -/
def label : Level → String
  | trace => "TRACE"
  | debug => "DEBUG"
  | info => "INFO"
  | warn => "WARN"
  | error => "ERROR"

/-- The position of a level. -/
def rank : Level → Nat
  | trace => 0
  | debug => 1
  | info => 2
  | warn => 3
  | error => 4

/-- The level of a name. -/
def ofName? (s : String) : Option Level := all.find? fun l => l.name == s

/-- The names of all levels. -/
def names : List String := all.map name

end Level

/-! ## 2. Records -/

/-- What a field holds: a value, or an error, which is told by its message. -/
inductive FieldValue where
  | value (v : Value)
  | error (message : String)

/-- Whether a character forces a text into quotes. -/
def needsQuotes (c : Char) : Bool := Text.isBlank c || c == '=' || c == '"'

/-- A field's value as text. -/
def FieldValue.text : FieldValue → List Char
  | .error message => Text.quote message
  | .value (.str s) => if s.toList.any needsQuotes then Text.quote s else s.toList
  | .value v => v.settled.json?.getD v.display.toList

/-- The pair of a field. -/
def fieldText (f : String × FieldValue) : List Char := f.1.toList ++ '=' :: f.2.text

/-- The fields of a record in one line. -/
def formatFields (fields : List (String × FieldValue)) : String :=
  String.ofList (Value.joinWith [' '] (fields.map fieldText))

/-- A log record. -/
structure Record where
  level : Level
  fields : List (String × FieldValue)

/-- The line of a record on a console. -/
def Record.line (r : Record) : String :=
  s!"[cfgscript] {r.level.label} {formatFields r.fields}"

/-! ## 3. Where records go -/

/-- The console methods. -/
inductive Method where
  | debug
  | info
  | warn
  | error
deriving DecidableEq, Repr

/-- The name of a console method. -/
def Method.name : Method → String
  | debug => "debug"
  | info => "info"
  | warn => "warn"
  | error => "error"

/-- The console method for a level. -/
def Level.method : Level → Method
  | trace | debug => .debug
  | info => .info
  | warn => .warn
  | error => .error

/-- Where records go: to the console, or to a sink of the caller's. -/
inductive Sink where
  | console
  | named (name : String)
deriving DecidableEq, Repr

/-- The name of a sink. -/
def Sink.name : Sink → String
  | console => "console"
  | named name => name

/-- The threshold and the sink. -/
structure Logger where
  threshold : Level
  sink : Sink

/-- The logger at the start: warnings and errors, to the console. -/
def Logger.start : Logger := ⟨.warn, .console⟩

/-- What becomes of a record. -/
inductive Delivery where
  | dropped
  | printed (method : Method) (line : String)
  | handed (sink : String) (level : Level) (fields : String)

/-- Whether a record of a level passes a threshold. -/
def Level.passes (level threshold : Level) : Bool := threshold.rank ≤ level.rank

/-- Sends a record where it goes. -/
def Logger.emit (l : Logger) (r : Record) : Delivery :=
  if !r.level.passes l.threshold then .dropped
  else
    match l.sink with
    | .console => .printed r.level.method r.line
    | .named name => .handed name r.level (formatFields r.fields)

end ConfGraph.Log
