import ConfGraph.Shape.Issue
import ConfGraph.Value.Basic

/-!
# Shapes

A shape reads a value as a thing of some type, or lists what is wrong with it.  Larger shapes are
made of smaller ones: issues of a part are reported with the part's name or position in front, in
the order of the parts.

* `Shape`: a reading that may fail.
* `oneOf`: the choice between alternatives.
* `both`, `gather`: parts side by side, whose issues are all reported.
-/

namespace ConfGraph

/-- The outcome of reading a value: the thing read, or what is wrong. -/
abbrev Checked (α : Type) := Except (List Issue) α

/-- A reading of values that may fail. -/
abbrev Shape (α : Type) := Value → Checked α

namespace Shape

variable {α β γ : Type}

/-! ## 1. Outcomes -/

/-- One issue at the place of the value itself. -/
def fail (cause : Cause) : Checked α := .error [⟨[], cause⟩]

/-- A value of another kind than expected. -/
def wrongKind (expected : String) (v : Value) : Checked α := fail (.kind expected v.kind)

/-- The outcome for a part, seen from the whole. -/
def under (name : String) (r : Checked α) : Checked α :=
  match r with
  | .ok a => .ok a
  | .error is => .error (is.map (Issue.under name))

/-- The outcomes of two parts: both things, or the issues of both. -/
def both (r : Checked α) (s : Checked β) : Checked (α × β) :=
  match r, s with
  | .ok a, .ok b => .ok (a, b)
  | .error is, .ok _ => .error is
  | .ok _, .error js => .error js
  | .error is, .error js => .error (is ++ js)

/-- The outcomes of a list of parts: all things, or the issues of all. -/
def gather : List (Checked α) → Checked (List α)
  | [] => .ok []
  | r :: rest =>
    match both r (gather rest) with
    | .ok (a, as) => .ok (a :: as)
    | .error is => .error is

/-- What a part came to, for a part that failed without aborting: its issues. -/
def survives (r : Checked α) : Bool :=
  match r with
  | .ok _ => false
  | .error is => !Issue.anyAborts is

/-- Whether an outcome settles a choice: the value is read, or the whole reading ends. -/
def settles (r : Checked α) : Bool :=
  match r with
  | .ok _ => true
  | .error is => Issue.anyEnds is

/-- **The choice between alternatives.**  The first that reads the value wins.  If none does, and
exactly one fails without aborting, its issues stand for the whole; otherwise nothing is said but
that no alternative fits. -/
def oneOf (rs : List (Checked α)) : Checked α :=
  match rs.find? settles with
  | some r => r
  | none =>
    match rs.filter survives with
    | [r] => r
    | _ => fail .noAlternative

/-! ## 2. Scalars -/

/-- Any text. -/
def text : Shape String
  | .str s => .ok s
  | v => wrongKind "string" v

/-- The issues of a value whose length is less than one; none for a value without a length. -/
def lengthIssues : Value → List Issue
  | .str s => if s.isEmpty then [⟨[], .shortText 1⟩] else []
  | .list items => if items.isEmpty then [⟨[], .fewItems 1⟩] else []
  | v =>
    match v.field? "length" with
    | none => []
    | some length =>
      match length.number? with
      | none => [⟨[], .incomparable⟩]
      | some x => if 1 ≤ x then [] else [⟨[], .shortLength 1⟩]

/-- A text that is not empty.  The length is judged even of a value that is no text. -/
def nonEmptyText (v : Value) : Checked String :=
  match text v, lengthIssues v with
  | .ok s, [] => .ok s
  | .ok _, is => .error is
  | .error is, js => .error (is ++ js)

/-- A truth value. -/
def boolean : Shape Bool
  | .bool b => .ok b
  | v => wrongKind "boolean" v

/-- The value `null`. -/
def null : Shape Unit
  | .null => .ok ()
  | v => wrongKind "null" v

/-- A finite number. -/
def number : Shape Float
  | .num x =>
    if Number.isFinite x then .ok x
    else fail (.kind "number" (String.ofList (Number.display x)))
  | v => wrongKind "number" v

/-- A whole number of any size. -/
def whole (v : Value) : Checked Int :=
  match number v with
  | .error is => .error is
  | .ok x =>
    match Number.toInt? x with
    | none => fail (.kind "int" "number")
    | some i => .ok i

/-- The issues of a whole number beyond those that doubles tell apart. -/
def exactIssues (i : Int) : List Issue :=
  if (Cause.exactBound : Int) < i then [⟨[], .aboveExact⟩]
  else if i < -(Cause.exactBound : Int) then [⟨[], .belowExact⟩]
  else []

/-- The issue of a whole number that is not above zero. -/
def positiveIssues (i : Int) : List Issue := if 0 < i then [] else [⟨[], .notAbove 0⟩]

/-- A whole number among those that doubles tell apart. -/
def int (v : Value) : Checked Int :=
  match whole v with
  | .error is => .error is
  | .ok i =>
    match exactIssues i with
    | [] => .ok i
    | is => .error is

/-- A whole number above zero, among those that doubles tell apart. -/
def positive (v : Value) : Checked Nat :=
  match whole v with
  | .error is => .error is
  | .ok i =>
    match exactIssues i ++ positiveIssues i with
    | [] => .ok i.toNat
    | is => .error is

/-- One of a list of words. -/
def word (words : List String) : Shape String
  | .str s => if words.contains s then .ok s else fail (.unknownWord words)
  | _ => fail (.unknownWord words)

/-- Any value. -/
def any : Shape Value := .ok

/-- A part that may be absent. -/
def optional (s : Shape α) : Shape (Option α)
  | .undefined => .ok none
  | v => (s v).map some

/-! ## 3. Lists and records -/

/-- The outcomes for the items of a list, each seen from the list. -/
def itemOutcomes (s : Shape α) : Nat → List Value → List (Checked α)
  | _, [] => []
  | i, v :: rest => under (toString i) (s v) :: itemOutcomes s (i + 1) rest

/-- A list of things of one shape. -/
def list (s : Shape α) : Shape (List α)
  | .list items => gather (itemOutcomes s 0 items)
  | v => wrongKind "array" v

/-- The outcome for a named field. -/
def field (name : String) (s : Shape α) (v : Value) : Checked α := under name (s (v.field name))

/-- A record of any kind, read by a further shape. -/
def object (s : Shape α) (v : Value) : Checked α :=
  if v.isObject then s v else wrongKind "object" v

/-- The names of a record outside a list. -/
def extraNames (known : List String) (v : Value) : List String :=
  ((v.fields?.getD []).map (·.1)).filter fun n => !known.contains n

/-- A record that has no fields but the known ones. -/
def closed (known : List String) (s : Shape α) (v : Value) : Checked α :=
  object (fun v =>
    match s v, extraNames known v with
    | r, [] => r
    | .ok _, extra => fail (.extraNames extra)
    | .error is, extra => .error (is ++ [⟨[], .extraNames extra⟩])) v

/-- Whether a maker makes plain records; anything but a function counts. -/
def makesPlain : Value → Bool
  | .function face | .constant face _ => face.nature = .recordMaker
  | _ => true

/-- Whether what is at the end of what a record inherits is plain. -/
def isPlainRoot : Value → Bool
  | .heir _ parent => isPlainRoot parent
  | .record .. | .null | .endless => true
  | _ => false

/-- Whether a value is a plain record, whose maker is not a function of its own. -/
def isPlain (v : Value) : Bool :=
  match v with
  | .record .. | .heir .. | .endless => ((v.member? "constructor").map makesPlain).getD (isPlainRoot v)
  | _ => false

/-- The outcomes for the entries of a record with free names.  The name `__proto__` is dropped and
an empty name refused, whatever it holds. -/
def entryOutcomes (s : Shape α) : List (String × Value) → List (Checked (String × α))
  | [] => []
  | (name, v) :: rest =>
    if name = "__proto__" then entryOutcomes s rest
    else if name = "" then .error [⟨[""], .emptyName⟩] :: entryOutcomes s rest
    else (under name (s v)).map (fun a => (name, a)) :: entryOutcomes s rest

/-- A record with free names that all hold things of one shape. -/
def entries (s : Shape α) (v : Value) : Checked (Fields α) :=
  if isPlain v then gather (entryOutcomes s (v.fields?.getD [])) else wrongKind "record" v

/-! ## 4. Argument lists -/

/-- Judges the number of items: too few end the matter, too many are reported before the items. -/
def sized (least most : Nat) (args : List Value) (r : Checked α) : Checked α :=
  if args.length < least then fail (.fewItems least)
  else if most < args.length then
    match r with
    | .ok _ => fail (.manyItems most)
    | .error is => .error (⟨[], .manyItems most⟩ :: is)
  else r

/-- The outcome for the argument at a position, `undefined` where there is none. -/
def argument (i : Nat) (s : Shape α) (args : List Value) : Checked α :=
  under (toString i) (s (args.getD i .undefined))

/-- No arguments. -/
def args0 (args : List Value) : Checked Unit := sized 0 0 args (.ok ())

/-- One argument. -/
def args1 (s : Shape α) (args : List Value) : Checked α := sized 1 1 args (argument 0 s args)

/-- Two arguments. -/
def args2 (s : Shape α) (t : Shape β) (args : List Value) : Checked (α × β) :=
  sized 2 2 args (both (argument 0 s args) (argument 1 t args))

/-- One argument, and a second that may be absent. -/
def args1Opt (s : Shape α) (t : Shape β) (args : List Value) : Checked (α × Option β) :=
  sized 1 2 args (both (argument 0 s args) (argument 1 (optional t) args))

/-- Three arguments. -/
def args3 (s : Shape α) (t : Shape β) (u : Shape γ) (args : List Value) :
    Checked (α × β × γ) :=
  sized 3 3 args
    (both (argument 0 s args) (both (argument 1 t args) (argument 2 u args)))

end Shape

end ConfGraph
