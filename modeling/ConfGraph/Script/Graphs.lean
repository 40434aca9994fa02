import ConfGraph.Script.Field

/-!
# Graphs in the hands of scripts

A script gets hold of graphs, of the values of attributes and of the log as records and lists that
it can write like any others.  What it writes there shows in every graph that has the very same
thing, and what it puts in the place of a graph need not be one.

* `Heap.partDatum`, `Heap.rowDatum`, `Heap.contentDatum`: what stands for a part of a graph, for a
  record of the log, and for what a scope holds.
* `Heap.fresh`, `Heap.freshEntry`, `Heap.freshRow`: parts of a graph with all that scripts have
  written to them.
* `Heap.likeness`: what a datum is in the place of a graph.
* `Heap.renew`: what a scope holds, with all that scripts have written to it.
* `renewScopes`: brings what was written into all scopes.
-/

namespace ConfGraph.Script

namespace Heap

/-! ## 1. From graphs -/

/-- The cell of what comes from somewhere, if a script knows it. -/
def known? (h : Heap) : Tag → Option CellId
  | .cell id => some id
  | t => h.links.lookup t

/-- Lets a cell stand for what comes from somewhere. -/
def link (h : Heap) (t : Option Tag) (d : Datum) : Heap :=
  match t, d with
  | some t, .cell id => { h with links := (t, id) :: h.links }
  | _, _ => h

/-- **What stands for a thing.**  A thing that may be shared always has the same cell. -/
def partDatum (h : Heap) (p : Part) : Datum × Heap :=
  match p.tag.bind h.known? with
  | some id => (.cell id, h)
  | none =>
    let (d, h) := h.adopt hostRealm p.value
    (d, h.link p.tag d)

/-- Lets a record of the log name the frames of its annotation. -/
def shareFrames (h : Heap) (record : Datum) (t : Tag) : Heap :=
  let fieldOf (d : Datum) (name : String) : Option Datum :=
    match d with
    | .cell id => (h.get? id).bind fun c => Fields.get? c.fields name
    | _ => none
  match fieldOf record "provenance" with
  | some (.cell id) =>
    match h.get? id, fieldOf (.cell id) "frames", h.known? t with
    | some c, some _, some shared =>
      h.set id { c with fields := Fields.put c.fields "frames" (.cell shared) }
    | _, some frames, none => h.link (some t) frames
    | _, _, _ => h
  | _ => h

/-- **What stands for a record of the log.** -/
def rowDatum (h : Heap) (row : Row) : Datum × Heap :=
  match row.whole.tag.bind h.known? with
  | some id => (.cell id, h)
  | none =>
    let (d, h) := h.adopt hostRealm row.whole.value
    let h := h.link row.whole.tag d
    (d, row.frames.elim h (h.shareFrames d))

/-- What stands for several records of the log. -/
def rowData (h : Heap) : List Row → List Datum × Heap
  | [] => ([], h)
  | row :: rest =>
    let (d, h) := h.rowDatum row
    let (ds, h) := rowData h rest
    (d :: ds, h)

/-- What stands for a table. -/
def tableDatum (h : Heap) : Table → Datum × Heap
  | .entries entries =>
    let (id, h) := h.make ⟨.table entries, [], some (hostRealm.root .table), none⟩
    (.cell id, h)
  | _ => (.undefined, h)

/-- **What stands for what a scope holds.** -/
def contentDatum (h : Heap) (c : Content) : Datum × Heap :=
  match h.graphs.lookup c.serial with
  | some d => (d, h)
  | none =>
    let l := c.likeness
    let (basisTx, h) := h.adopt hostRealm l.basisTx
    let (nextId, h) := h.adopt hostRealm l.nextId
    let (entities, h) := h.tableDatum l.entities
    let (tempIds, h) := h.tableDatum l.tempIds
    let (rows, h) := h.rowData (l.log.rows.getD [])
    let (log, h) := h.make (listCell hostRealm rows)
    let (id, h) := h.make (recordCell hostRealm [
      ("basisTx", basisTx), ("nextId", nextId), ("entities", entities), ("tempIds", tempIds),
      ("transactions", .cell log)])
    (.cell id, { h with graphs := (c.serial, .cell id) :: h.graphs })

/-! ## 2. To graphs -/

/-- A datum as a thing. -/
def partOf (h : Heap) (d : Datum) : Part :=
  ⟨h.value d, match d with
    | .cell id => some (.cell id)
    | _ => none⟩

/-- What a datum is beside its fields, if it is a cell. -/
def body? (h : Heap) : Datum → Option Body
  | .cell id => (h.get? id).map (·.body)
  | _ => none

/-- What a datum has under a name; `undefined` where there is nothing. -/
def fieldOf (h : Heap) (d : Datum) (name : String) : Datum :=
  match d, h.find hostRealm d name with
  | .undefined, _ | .null, _ => .undefined
  | _, .datum d => d
  | _, _ => .undefined

/-- The fields of a datum that are copied with it. -/
def copiedFields (h : Heap) (d : Datum) : Fields Part :=
  match d with
  | .str s => s.toList.zipIdx.map fun c => (toString c.2, .own (.str (String.singleton c.1)))
  | .cell id =>
    match h.get? id with
    | none => []
    | some c =>
      let items : Fields Datum :=
        match c.body with
        | .list _ items => items.map fun i => (toString i.1, i.2)
        | _ => []
      (items ++ c.fields).map fun f => (f.1, h.partOf f.2)
  | _ => []

/-- An entry of a table. -/
def entryOf (h : Heap) (key : Part) (held : Datum) : Entry :=
  ⟨key, h.partOf held, h.copiedFields held⟩

/-- A thing with all that scripts have written to it. -/
def fresh (h : Heap) (p : Part) : Part :=
  match p.tag.bind h.known? with
  | some id => { p with value := h.value (.cell id) }
  | none => p

/-- An entry whose own fields are as scripts have left them. -/
def freshFields (h : Heap) (e : Entry) : Entry :=
  let fields := e.fields.map fun f => (f.1, h.fresh f.2)
  match e.held.value with
  | .record .host _ => { e with held := { e.held with value := Entry.recordOf fields }, fields }
  | _ => { e with fields }

/-- An entry with all that scripts have written to it. -/
def freshEntry (h : Heap) (e : Entry) : Entry :=
  match e.held.tag.bind h.known? with
  | some id => h.entryOf (h.fresh e.key) (.cell id)
  | none => h.freshFields { e with key := h.fresh e.key }

/-- A record of the log that names other frames. -/
def withFrames (frames : Value) : Value → Value
  | .record o fields =>
    match Fields.get? fields "provenance" with
    | some (.record p more) =>
      .record o (Fields.put fields "provenance" (.record p (Fields.put more "frames" frames)))
    | _ => .record o fields
  | v => v

/-- A record of the log with all that scripts have written to it. -/
def freshRow (h : Heap) (row : Row) : Row :=
  match row.whole.tag.bind h.known?, row.frames.bind h.known? with
  | some _, _ => { row with whole := h.fresh row.whole }
  | none, some frames =>
    { row with whole := { row.whole with
        value := withFrames (h.value (.cell frames)) row.whole.value } }
  | none, none => row

/-- A likeness with all that scripts have written to its parts. -/
def freshLikeness (h : Heap) (l : Likeness) : Likeness :=
  let table (t : Table) : Table :=
    match t with
    | .entries es => .entries (es.map h.freshEntry)
    | t => t
  { l with
    entities := table l.entities, tempIds := table l.tempIds
    log := { l.log with rows := l.log.rows.map fun rows => rows.map h.freshRow } }

/-! ## 3. What stands in the place of a graph -/

/-- So many items of a list from a position on. -/
def laidOut (i : Nat) : Nat → List (Nat × Datum) → List Datum
  | 0, _ => []
  | n + 1, [] => .undefined :: laidOut (i + 1) n []
  | n + 1, (j, d) :: rest =>
    if i = j then d :: laidOut (i + 1) n rest
    else .undefined :: laidOut (i + 1) n ((j, d) :: rest)

/-- The entry that two data are. -/
def pairOf (h : Heap) (ds : List Datum) : Entry :=
  h.entryOf (h.partOf (ds.getD 0 .undefined)) (ds.getD 1 .undefined)

/-- A datum as an item of a list that may be taken for an entry. -/
def itemOf (h : Heap) (d : Datum) : Item where
  whole := h.partOf d
  entry :=
    match d with
    | .cell _ => some (h.pairOf [h.fieldOf d "0", h.fieldOf d "1"])
    | _ => none
  pair :=
    match d, h.body? d with
    | .str s, _ => some (h.pairOf (s.toList.map fun c => .str (String.singleton c)))
    | _, some (.list length items) => some (h.pairOf (laidOut 0 length items))
    | _, _ => none

/-- What stands in the place of a table. -/
def tableOf (h : Heap) (d : Datum) : Table :=
  match d, h.body? d with
  | _, some (.table entries) => .entries (entries.map h.freshEntry)
  | _, some (.list length items) => .list ((laidOut 0 length items).map h.itemOf)
  | .str s, _ => .text s
  | d, _ => .other (h.value d)

/-- What stands in the place of the log. -/
def rowsOf (h : Heap) (d : Datum) : Rows :=
  match d, h.body? d with
  | _, some (.list length items) =>
    ⟨true, some ((laidOut 0 length items).map fun d => ⟨h.partOf d, none⟩)⟩
  | _, some (.table entries) =>
    ⟨false, some (entries.map fun e =>
      ⟨.own (.list [e.key.value, (h.freshEntry e).held.value]), none⟩)⟩
  | .str s, _ => ⟨false, some (s.toList.map fun c => ⟨.own (.str (String.singleton c)), none⟩)⟩
  | _, _ => ⟨false, none⟩

/-- What kind of thing a datum is in the place of a graph. -/
def formOf (h : Heap) (d : Datum) : Form :=
  match d, h.body? d with
  | .undefined, _ => .nothing "undefined"
  | .null, _ => .nothing "null"
  | _, none | _, some (.function ..) => .simple
  | _, some _ => .thing

/-- What can be looked up in a datum in the place of a graph. -/
def lookedUp (h : Heap) (serial : Nat) (d : Datum) : Likeness where
  serial
  form := h.formOf d
  basisTx := h.value (h.fieldOf d "basisTx")
  nextId := h.value (h.fieldOf d "nextId")
  entities := h.tableOf (h.fieldOf d "entities")
  tempIds := h.tableOf (h.fieldOf d "tempIds")
  log := ⟨false, none⟩

/-- **What a datum is in the place of a graph.** -/
def likeness (h : Heap) (serial : Nat) (d : Datum) : Likeness :=
  { h.lookedUp serial d with log := h.rowsOf (h.fieldOf d "transactions") }

/-- Whether scripts may have written to what a revision holds. -/
def mayTouch (h : Heap) (r : Revision) : Bool :=
  h.links.any (fun link => r.holds link.1)
    || r.tags.any fun t => match t.2 with
      | .cell _ => true
      | _ => false

/-- **A content with all that scripts have written to it.** -/
def renew (h : Heap) (c : Content) : Content :=
  match h.graphs.lookup c.serial, c with
  | some d, _ => .ofLikeness (h.likeness c.serial d)
  | none, .graph r => if h.mayTouch r then .ofLikeness (h.freshLikeness r.likeness) else c
  | none, .other l => .ofLikeness (h.freshLikeness l)

/-- The serial number under which a cell stands in the place of a graph. -/
def serialOf? (h : Heap) (d : Datum) : Option Nat :=
  match d with
  | .cell id =>
    (h.graphs.find? fun g => match g.2 with
      | .cell there => there == id
      | _ => false).map (·.1)
  | _ => none

end Heap

/-! ## 4. Graphs in scopes -/

variable {σ : Type} [HasSession σ] [HasHeap σ]

/-- **Brings what scripts have written into all scopes.** -/
def renewScopes : Act σ Unit := do
  let h ← getHeap
  if h.links.isEmpty && h.graphs.isEmpty then return ()
  else onSession (Session.overwriteAll h.renew)

/-- What a scope holds, as a datum. -/
def contentDatum (c : Content) : Act σ Datum := onHeap fun h => h.contentDatum c

/-- The serial number of a datum that stands in the place of a graph. -/
def serialOf (d : Datum) : Act σ Nat := do
  match (← getHeap).serialOf? d with
  | some serial => return serial
  | none => do
    let serial ← onSession Session.newSerial
    onHeap fun h => (serial, { h with graphs := (serial, d) :: h.graphs })

/-- What a scope holds when a datum is put into it. -/
def contentOf (d : Datum) : Act σ Content := do
  let serial ← serialOf d
  return .ofLikeness ((← getHeap).likeness serial d)

end ConfGraph.Script
