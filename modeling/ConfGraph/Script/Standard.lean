import ConfGraph.Script.Showing

/-!
# The functions of the standard library

What the functions on the shelves of the standard library give.  None of them works on a receiver;
what they make belongs to the realm in which they were found.

* `Standard.make`: what the maker of a family gives.
* `Standard.call`: what a function of a shelf gives.
-/

namespace ConfGraph.Script

variable {σ : Type} [HasSession σ] [HasHeap σ]

/-- An argument; `undefined` where there is none. -/
def argument (args : List Datum) (i : Nat) : Datum := args.getD i .undefined

namespace Standard

/-! ## 1. Arguments -/

/-- A datum as a number. -/
def numberOf (d : Datum) : Act σ Float := do
  match (← valueOf d).number? with
  | some x => return x
  | none => Act.fail .noPrimitive

/-- Several data as numbers. -/
def numbersOf : List Datum → Act σ (List Float)
  | [] => return []
  | d :: rest => do
    let x ← numberOf d
    let xs ← numbersOf rest
    return x :: xs

/-- A datum as a text. -/
def textOf (d : Datum) : Act σ String := do
  match (← valueOf d).text? with
  | some s => return s
  | none => Act.fail .noPrimitive

/-- A list made in a realm. -/
def newList (r : Realm) (items : List Datum) : Act σ Datum := do
  return .cell (← makeCell (Heap.listCell r items))

/-! ## 2. Makers -/

/-- Makes a list from the arguments of its maker: one number is a length. -/
def makeList (r : Realm) (args : List Datum) : Act σ Datum :=
  match args with
  | [.num x] =>
    match Heap.resized (Heap.listCell r []) [] x with
    | some c => return .cell (← makeCell c)
    | none => Act.fail (.plain "RangeError" "Invalid array length")
  | args => newList r args

/-- The message of an error, which `undefined` leaves out. -/
def messageField (message : Datum) : Act σ (Fields Datum) :=
  match message with
  | .undefined => return []
  | d => do return [("message", .str (← textOf d))]

/-- What caused an error, if its options say so. -/
def causeField (r : Realm) (options : Datum) : Act σ (Fields Datum) :=
  match options with
  | .cell _ => do
    match ← readField r options "cause" with
    | .undefined => return []
    | d => return [("cause", d)]
  | _ => return []

/-- Makes an error with fields that do not show, and tells in it where it was made. -/
def newFailure (r : Realm) (k : Failure) (fields : Fields Datum) : Act σ Datum := do
  let id ← makeCell (Heap.failureCell r k fields)
  let h ← getHeap
  let calls := (← Act.context).site
  let head := (h.value (.cell id)).display
  let lines := (calls.take Frame.depth).filterMap (·.map Frame.render)
  let stack := head ++ String.ofList (lines.flatMap ('\n' :: ·))
  onHeap fun h =>
    (.cell id, h.set id (Heap.failureCell r k (("stack", .str stack) :: fields)))

/-- Makes an error with a message, and perhaps with what caused it. -/
def makeFailure (r : Realm) (k : Failure) (message options : Datum) (hidden : Fields Datum) :
    Act σ Datum := do
  let said ← messageField message
  let cause ← causeField r options
  newFailure r k (said ++ cause ++ hidden)

/-- What the maker of a family gives. -/
def make (f : Family) (r : Realm) (args : List Datum) : Act σ Datum := do
  let arg := argument args 0
  let v ← valueOf arg
  match f with
  | .object =>
    match arg with
    | .cell id => return .cell id
    | .undefined | .null => return .cell (← makeCell (Heap.recordCell r []))
    | d =>
      let parent := some (r.root (Heap.primitiveFamily d))
      return .cell (← makeCell ⟨.record, [], parent, none⟩)
  | .list => makeList r args
  | .text =>
    if args.isEmpty then return .str ""
    else
      match v.text? with
      | some s => return .str s
      | none => Act.fail .noPrimitive
  | .number =>
    if args.isEmpty then return .nat 0
    else
      match v.number? with
      | some x => return .num x
      | none => Act.fail .noPrimitive
  | .truth => return .bool !v.isFalsy
  | .function =>
    return .cell (← makeCell (Heap.functionCell r .silent ⟨"anonymous", 0, .ordinary⟩))
  | .table => Act.fail (.typeError "Constructor Map requires 'new'")
  | .failure .several => do
    let h ← getHeap
    match h.body? arg with
    | some (.list _ items) =>
      let errors ← newList r (items.map (·.2))
      makeFailure r .several (argument args 1) (argument args 2) [("errors", errors)]
    | _ => Act.fail (.notIterable v.display)
  | .failure k => makeFailure r k arg (argument args 1) []

/-! ## 3. Records -/

/-- The names of the fields that a cell has itself and that can be gone through. -/
def shownNames (c : Cell) : List String :=
  let own := Fields.names c.fields
  match c.body with
  | .list _ items => items.map (fun i => toString i.1) ++ own
  | _ => own

/-- The names of all fields that a cell has itself. -/
def ownNames (c : Cell) : List String :=
  match c.body with
  | .list _ items => items.map (fun i => toString i.1) ++ "length" :: Fields.names c.fields
  | .function callable _ =>
    let more := match callable with
      | .maker f _ => "prototype" :: (Shelf.maker f).members.map (·.1)
      | c => if Heap.mayHaveHeirs c then ["prototype"] else []
    "length" :: "name" :: (more ++ Fields.names c.fields)
  | .failure hidden => Fields.names hidden ++ Fields.names c.fields
  | .collection s _ => s.members.map (·.1) ++ Fields.names c.fields
  | _ => Fields.names c.fields

/-- The names of the fields of a datum, all of them or those that can be gone through. -/
def namesOf (all : Bool) (d : Datum) : Act σ (List String) := do
  let h ← getHeap
  match d with
  | .undefined | .null => Act.fail .noRecord
  | .str s =>
    let places := (List.range (Text.units s).length).map fun i => toString i
    return if all then places ++ ["length"] else places
  | .cell id =>
    return ((h.get? id).map (if all then ownNames else shownNames)).getD []
  | _ => return []

/-- What a datum holds under several names. -/
def fieldsUnder (r : Realm) (d : Datum) : List String → Act σ (Fields Datum)
  | [] => return []
  | name :: rest => do
    let v ← readField r d name
    let vs ← fieldsUnder r d rest
    return (name, v) :: vs

/-- The fields of a datum that can be gone through. -/
def fieldsIn (r : Realm) (d : Datum) : Act σ (Fields Datum) := do
  fieldsUnder r d (← namesOf false d)

/-- Several pairs as lists. -/
def pairs (r : Realm) : Fields Datum → Act σ (List Datum)
  | [] => return []
  | f :: rest => do
    let d ← newList r [.str f.1, f.2]
    let ds ← pairs r rest
    return d :: ds

/-- Writes fields, which must be possible. -/
def writeAll (d : Datum) : Fields Datum → Act σ Unit
  | [] => return ()
  | f :: rest => do
    writeField true d f.1 f.2
    writeAll d rest

/-- Writes the fields of several data to one. -/
def assignAll (r : Realm) (d : Datum) : List Datum → Act σ Unit
  | [] => return ()
  | .undefined :: rest | .null :: rest => assignAll r d rest
  | source :: rest => do
    writeAll d (← fieldsIn r source)
    assignAll r d rest

/-- The fields that pairs write, each pair being a list or a record with the fields `0` and `1`. -/
def entriesOf (r : Realm) : List Datum → Act σ (Fields Datum)
  | [] => return []
  | .cell id :: rest => do
    let name ← textOf (← readField r (.cell id) "0")
    let d ← readField r (.cell id) "1"
    let fs ← entriesOf r rest
    return (name, d) :: fs
  | d :: _ => do
    let v ← valueOf d
    Act.fail (.notAnEntry v.display)

/-- The items of something that can be gone through. -/
def itemsOf (r : Realm) (d : Datum) : Act σ (List Datum) := do
  let h ← getHeap
  match d, h.body? d with
  | .str s, _ => return s.toList.map fun c => .str (String.singleton c)
  | d, some (.list length _) => do
    let fs ← fieldsUnder r d ((List.range length).map fun i => toString i)
    return fs.map (·.2)
  | d, _ => do
    let v ← valueOf d
    Act.fail (.notIterable v.display)

/-- The items of a list, a text, or anything that has a length. -/
def itemsFrom (r : Realm) (d : Datum) : Act σ (List Datum) := do
  let h ← getHeap
  match d, h.body? d with
  | .undefined, _ | .null, _ => itemsOf r d
  | .str _, _ | _, some (.list ..) => itemsOf r d
  | d, _ => do
    let length ← numberOf (← readField r d "length")
    let count := (Number.toNat? (Number.truncated length)).getD 0
    let fs ← fieldsUnder r d ((List.range count).map fun i => toString i)
    return fs.map (·.2)

/-- What may be the parent of a cell: another cell, or nothing. -/
def parentOf (d : Datum) : Act σ (Option CellId) :=
  match d with
  | .cell id => return some id
  | .null => return none
  | d => do
    let v ← valueOf d
    Act.fail (.typeError s!"Object prototype may only be an Object or null: {v.display}")

/-- How a cell is locked; what is no cell cannot be changed at all. -/
def lockOf (d : Datum) : Act σ Nat := do
  let h ← getHeap
  match d with
  | .cell id =>
    let isBare := (h.get? id).any fun c => (shownNames c).isEmpty
    let rank := ((h.locks.lookup id).map Lock.rank).getD 0
    return if rank ≠ 0 && isBare then Lock.rank .frozen else rank
  | _ => return Lock.rank .frozen

/-- Locks a datum and gives it back. -/
def lockWith (l : Lock) (d : Datum) : Act σ Datum :=
  match d with
  | .cell id => onHeap fun h => (d, h.lock id l)
  | d => return d

/-- Whether two data are the very same; numbers are if they are written alike. -/
def isSame : Datum → Datum → Bool
  | .undefined, .undefined | .null, .null => true
  | .bool a, .bool b => a == b
  | .num x, .num y => (Number.isNaN x && Number.isNaN y) || x.toBits == y.toBits
  | .str s, .str t => s == t
  | .cell a, .cell b => a == b
  | _, _ => false

/-- The functions for records. -/
def callRecords (name : String) (r : Realm) (args : List Datum) : Act σ Datum := do
  let d := argument args 0
  match name with
  | "keys" => newList r ((← namesOf false d).map .str)
  | "getOwnPropertyNames" => newList r ((← namesOf true d).map .str)
  | "getOwnPropertySymbols" => newList r []
  | "values" => newList r ((← fieldsIn r d).map (·.2))
  | "entries" => newList r (← pairs r (← fieldsIn r d))
  | "fromEntries" => do
    let fs ← entriesOf r (← itemsOf r d)
    return .cell (← makeCell (Heap.recordCell r (Fields.ofList fs)))
  | "assign" => do
    match d with
    | .undefined | .null => Act.fail .noRecord
    | d => do
      assignAll r d (args.drop 1)
      return d
  | "create" => do
    let parent ← parentOf d
    return .cell (← makeCell ⟨.record, [], parent, none⟩)
  | "hasOwn" => do
    let key ← textOf (argument args 1)
    let h ← getHeap
    match d with
    | .undefined | .null => Act.fail .noRecord
    | .cell id => return .bool ((h.get? id).any fun c => h.hasOwn id c key)
    | .str s => return .bool (Heap.character? s key).isSome
    | _ => return .bool false
  | "is" => return .bool (isSame d (argument args 1))
  | "getPrototypeOf" => do
    let h ← getHeap
    match d with
    | .undefined | .null => Act.fail .noRecord
    | d => return (h.parentOf r d).elim .null .cell
  | "setPrototypeOf" => do
    let _ ← parentOf (argument args 1)
    match d with
    | .undefined | .null => Act.fail (.noReceiver "Object.setPrototypeOf")
    | d => do
      writeField true d "__proto__" (argument args 1)
      return d
  | "freeze" => lockWith .frozen d
  | "seal" => lockWith .sealed d
  | "preventExtensions" => lockWith .closed d
  | "isFrozen" => return .bool (Lock.rank .frozen ≤ (← lockOf d))
  | "isSealed" => return .bool (Lock.rank .sealed ≤ (← lockOf d))
  | "isExtensible" => return .bool ((← lockOf d) == 0)
  | _ => return .undefined

/-! ## 4. Lists, texts and numbers -/

/-- The functions for lists. -/
def callLists (name : String) (r : Realm) (args : List Datum) : Act σ Datum := do
  match name with
  | "isArray" => do
    let h ← getHeap
    return .bool (match h.body? (argument args 0) with | some (.list ..) => true | _ => false)
  | "of" => newList r args
  | "from" => newList r (← itemsFrom r (argument args 0))
  | _ => return .undefined

/-- The characters of code points. -/
def pointsText : List Float → Except Fault String
  | [] => .ok ""
  | x :: rest =>
    match (Number.toNat? x).filter (· ≤ 0x10FFFF), pointsText rest with
    | some n, .ok s => .ok (String.ofList (Text.ofUnits [n]) ++ s)
    | some _, .error f => .error f
    | none, _ =>
      .error (.plain "RangeError" s!"Invalid code point {String.ofList (Number.display x)}")

/-- Texts with others between them. -/
def woven : List String → List String → String
  | [], _ => ""
  | [s], _ => s
  | s :: rest, [] => s ++ woven rest []
  | s :: rest, t :: more => s ++ t ++ woven rest more

/-- Several data as texts. -/
def textsOf : List Datum → Act σ (List String)
  | [] => return []
  | d :: rest => do
    let s ← textOf d
    let ss ← textsOf rest
    return s :: ss

/-- The functions for texts. -/
def callTexts (name : String) (r : Realm) (args : List Datum) : Act σ Datum := do
  match name with
  | "fromCharCode" => do
    let xs ← numbersOf args
    return .str (String.ofList (Text.ofUnits (xs.map (Number.wrapped 16))))
  | "fromCodePoint" => return .str (← Act.ofExcept (pointsText (← numbersOf args)))
  | "raw" => do
    let parts ← itemsFrom r (← readField r (argument args 0) "raw")
    return .str (woven (← textsOf parts) (← textsOf (args.drop 1)))
  | _ => return .undefined

/-- Whether a number is whole. -/
def isWhole (x : Float) : Bool := (Number.toInt? x).isSome

/-- The functions that read numbers from texts, which are found in two places. -/
def callReading (name : String) (args : List Datum) : Act σ Datum := do
  match name with
  | "parseFloat" => return .num (Number.ofBeginning (← textOf (argument args 0)))
  | _ => do
    let s ← textOf (argument args 0)
    let base := Number.wrapped 32 (← numberOf (argument args 1))
    return .num (if base = 0 || (2 ≤ base && base ≤ 36) then Number.wholeOfBeginning base s
      else Number.nan)

/-- The functions for numbers, which give no answer about anything else. -/
def callNumbers (name : String) (args : List Datum) : Act σ Datum :=
  match name, argument args 0 with
  | "parseFloat", _ | "parseInt", _ => callReading name args
  | "isFinite", .num x => return .bool (Number.isFinite x)
  | "isNaN", .num x => return .bool (Number.isNaN x)
  | "isInteger", .num x => return .bool (isWhole x)
  | "isSafeInteger", .num x => return .bool (isWhole x && x.abs ≤ 9007199254740991)
  | _, _ => return .bool false

/-- The functions of mathematics. -/
def callMathematics (name : String) (args : List Datum) : Act σ Datum := do
  let first ← numbersOf (args.take 2)
  let x := first.getD 0 Number.nan
  let y := first.getD 1 Number.nan
  match Number.unary? name, Number.binary? name with
  | some f, _ => return .num (f x)
  | none, some f => return .num (f x y)
  | none, none => do
    let all ← numbersOf args
    match name with
    | "max" => return .num (Number.largest all)
    | "min" => return .num (Number.smallest all)
    | "hypot" => return .num (Number.length all)
    | _ => return .num 0

/-! ## 5. JSON -/

/-- The indentation that an argument asks for. -/
def indentOf (v : Value) : List Char :=
  match v with
  | .num x => List.replicate (min 10 ((Number.toNat? (Number.truncated x)).getD 0)) ' '
  | .str s => s.toList.take 10
  | _ => []

/-- The functions for JSON. -/
def callJson (name : String) (r : Realm) (args : List Datum) : Act σ Datum := do
  match name with
  | "parse" => do
    match Json.parse? (← textOf (argument args 0)) with
    | some v => adoptIn r v
    | none => Act.fail (.plain "SyntaxError" "not a JSON text")
  | _ => do
    let v ← valueOf (argument args 0)
    let indent := indentOf (← valueOf (argument args 2))
    if v.isEndless then Act.fail (.typeError "Converting circular structure to JSON")
    else
      let text := if indent.isEmpty then v.settled.json? else v.settled.prettyAt indent 0
      return text.elim .undefined fun cs => .str (String.ofList cs)

/-! ## 6. All shelves -/

/-- The functions that every script sees by name. -/
def callEverywhere (name : String) (args : List Datum) : Act σ Datum := do
  match name with
  | "parseFloat" | "parseInt" => callReading name args
  | "isNaN" => return .bool (Number.isNaN (← numberOf (argument args 0)))
  | "isFinite" => return .bool (Number.isFinite (← numberOf (argument args 0)))
  | name =>
    if Shelf.strictMakers.contains name then
      Act.fail (.typeError s!"Constructor {name} requires 'new'")
    else return .undefined

/-- **What a function of a shelf gives.** -/
def call (s : Shelf) (name : String) (r : Realm) (args : List Datum) : Act σ Datum :=
  match s with
  | .maker .object => callRecords name r args
  | .maker .list => callLists name r args
  | .maker .text => callTexts name r args
  | .maker .number => callNumbers name args
  | .maker (.failure .general) => do
    let h ← getHeap
    match name, h.body? (argument args 0) with
    | "isError", some (.failure _) => return .bool true
    | "isError", _ => return .bool false
    | _, _ => return .undefined
  | .maker _ => return .undefined
  | .mathematics => callMathematics name args
  | .json => callJson name r args
  | .everywhere => callEverywhere name args
  | .console => do
    onSession (Session.note (.printed name (← printables args)))
    return .undefined

end Standard

end ConfGraph.Script
