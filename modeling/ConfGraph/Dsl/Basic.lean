import ConfGraph.Scope.Act
import ConfGraph.Text.Identifier

/-!
# DSL functions

A DSL function has a name, a namespace, a shape for its arguments and a body.  A call first checks
the arguments; nothing is touched if they do not fit.  The body runs annotated with the function,
unless it is called by another DSL function: then the outermost one stays in charge.

* `Signature`: the checked names of a DSL function.
* `DslFunction`: signature, arguments and body.
* `Signature.accept`: checks arguments and gives the annotation of a call.
* `DslFunction.invoke`: a call.
-/

namespace ConfGraph

/-! ## 1. Names -/

/-- The names of a DSL function. -/
structure Signature where
  name : String
  qualifier : String
  doc : Option String

namespace Signature

/-- The namespace of functions that give none. -/
def defaultQualifier : String := "user"

/-- The qualified name. -/
def qualifiedName (s : Signature) : String := s!"{s.qualifier}/{s.name}"

/-- Checks a name. -/
def checkName (name : String) : Except Fault Unit :=
  if Text.trim name = "" then .error (.error "DSL function name must be a non-empty string")
  else if Text.isIdentifier name.toList then .ok ()
  else .error (.error s!"DSL function name \"{name}\" must be a valid identifier")

/-- Checks a namespace. -/
def checkQualifier (qualifier : String) : Except Fault Unit :=
  if Text.isDotted qualifier.toList then .ok ()
  else .error (.error s!"DSL namespace \"{qualifier}\" must be dot-separated identifiers")

/-- The names of a new DSL function. -/
def define (name : String) (qualifier doc : Option String) : Except Fault Signature :=
  let qualifier := qualifier.getD defaultQualifier
  match checkName name with
  | .error f => .error f
  | .ok () =>
    match checkQualifier qualifier with
    | .error f => .error f
    | .ok () => .ok ⟨name, qualifier, doc⟩

/-! ## 2. Calls -/

/-- The frames of scripts from which a function is called that itself takes up two calls. -/
def callFrames (site : List (Option Frame)) : List Value :=
  ((Frame.seen (none :: none :: site)).filter Frame.isScript).map Frame.toValue

/-- Checks the arguments of a call.  Gives what they were read as, and the annotation of the
call. -/
def accept {α : Type} (s : Signature) (shape : List Value → Checked α) (args : List Value) :
    Act Session (α × Annotation) := do
  match shape args with
  | .error issues => Act.fail (.ofIssues issues (.badArguments s.qualifiedName args))
  | .ok a =>
    let c ← Act.context
    Session.note (.dslInvoked s.qualifiedName)
    let serial ← Session.newSerial
    return (a, ⟨serial, s.qualifiedName, args, callFrames c.site⟩)

end Signature

/-- A DSL function. -/
structure DslFunction where
  signature : Signature
  /-- Reads the arguments and gives the body for them. -/
  prepare : List Value → Checked (Act Session Value)
  /-- Functions that are registered again under the same identity are the same function; one
  without an identity is like no other. -/
  identity : Option String

namespace DslFunction

/-- The qualified name. -/
def qualifiedName (f : DslFunction) : String := f.signature.qualifiedName

/-- The name under which scripts see the function. -/
def name (f : DslFunction) : String := f.signature.name

/-- Calls the function.  Its body does not see the events before. -/
def invoke (f : DslFunction) (args : List Value) : Act Session Value := do
  let (body, note) ← f.signature.accept f.prepare args
  Session.unaware (Act.inside (·.annotated note) body)

/-- Whether two functions are the same. -/
def sameAs (f g : DslFunction) : Bool :=
  match f.identity, g.identity with
  | some a, some b => a == b
  | _, _ => false

/-- A function of the library. -/
def builtin {α : Type} (qualifier name doc : String) (shape : List Value → Checked α)
    (body : α → Act Session Value) : DslFunction where
  signature := ⟨name, qualifier, if doc.isEmpty then none else some doc⟩
  prepare args := (shape args).map body
  identity := some s!"{qualifier}/{name}"

end DslFunction

end ConfGraph
