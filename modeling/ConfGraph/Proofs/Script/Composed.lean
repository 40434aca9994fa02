import ConfGraph.Proofs.Script.Heap
import ConfGraph.Script.Showing

/-!
# What scripts are made of

Whatever a script does is composed of few things: it reads and changes the heap, it does one of few
things to the session, and it calls DSL functions.  What is true of each of these, and of two acts one
after the other, is therefore true of all that a script does.

A script may do besides what its surroundings give it, as `require`.  The DSL functions that it calls
are those that stand in the heap.

* `Session.Elementary`: what a script does to the session.
* `Composed`: acts composed of what scripts can do, of DSL functions with a property, and of given
  acts.
* `composed_readField`, `composed_writeField`, `composed_renewScopes`, …: fields and graphs.
-/

namespace ConfGraph

/-- **What a script does to the session**, DSL functions apart. -/
inductive Session.Elementary : {α : Type} → Act Session α → Prop where
  | currentContent : Elementary Session.currentContent
  | activeScope : Elementary Session.activeScope
  | readScope (id : ScopeId) : Elementary (Session.readScope id)
  | newSerial : Elementary Session.newSerial
  | printed (name : String) (args : List Printable) :
    Elementary (Session.note (.printed name args))
  | transact (ops tempId : Value) : Elementary (Session.transact ops tempId)
  | resolveId (id : Value) : Elementary (Session.resolveId id)
  | overwrite (id : ScopeId) (next : Content) : Elementary (Session.overwrite id next)
  | overwriteAll (f : Content → Content) : Elementary (Session.overwriteAll f)

namespace Script

variable {σ : Type} [HasSession σ] [HasHeap σ]

/-- **Acts composed** of what scripts can do, of DSL functions with a property, and of given acts. -/
inductive Composed (P : DslFunction → Prop) (G : (α : Type) → Act σ α → Prop) :
    {α : Type} → Act σ α → Prop where
  | given {α : Type} {a : Act σ α} (h : G α a) : Composed P G a
  | pure {α : Type} (x : α) : Composed P G (pure x)
  | fail {α : Type} (f : Fault) : Composed P G (Act.fail f : Act σ α)
  | bind {α β : Type} {a : Act σ α} {f : α → Act σ β} (ha : Composed P G a)
      (hf : ∀ x, Composed P G (f x)) : Composed P G (a >>= f)
  | outcome {α : Type} {a : Act σ α} (ha : Composed P G a) : Composed P G (Act.outcome a)
  | inside {α : Type} (c : Context → Context) {a : Act σ α} (ha : Composed P G a) :
    Composed P G (Act.inside c a)
  | context : Composed P G (Act.context : Act σ Context)
  /-- What is read of the heap holds only DSL functions with the property. -/
  | heap {α : Type} {f : Heap → Act σ α} (hf : ∀ h : Heap, h.Only P → Composed P G (f h)) :
    Composed P G (getHeap >>= f)
  | onHeap {α : Type} {f : Heap → α × Heap} (hf : ∀ h : Heap, h.Only P → (f h).2.Only P) :
    Composed P G (onHeap f)
  | session {α : Type} {a : Act Session α} (ha : Session.Elementary a) : Composed P G (onSession a)
  | invoke {f : DslFunction} (hf : P f) (args : List Value) :
    Composed P G (onSession (f.invoke args))

variable {P : DslFunction → Prop} {G : (α : Type) → Act σ α → Prop}

theorem composed_ofExcept {α : Type} (r : Except Fault α) :
    Composed P G (Act.ofExcept r : Act σ α) := by
  cases r with
  | ok x => exact .pure x
  | error f => exact .fail f

/-! ## 1. Cells and values -/

theorem composed_makeCell {c : Cell} (hc : c.body.Only P) : Composed P G (makeCell c : Act σ CellId) :=
  .onHeap fun _ hh => Heap.only_make hh hc

theorem composed_adoptIn (r : Realm) (v : Value) : Composed P G (adoptIn r v : Act σ Datum) :=
  .onHeap fun h hh => Heap.only_adopt r v h hh

theorem composed_adopt (v : Value) : Composed P G (adopt v : Act σ Datum) :=
  composed_adoptIn hostRealm v

theorem composed_valueOf (d : Datum) : Composed P G (valueOf d : Act σ Value) :=
  .heap fun _ _ => .pure _

/-! ## 2. Fields -/

theorem composed_readField (r : Realm) (d : Datum) (name : String) :
    Composed P G (readField r d name : Act σ Datum) := by
  unfold readField
  split
  · exact .fail _
  · exact .fail _
  · refine .heap fun h _ => ?_
    split
    · exact .fail _
    · exact .onHeap fun _ hh => Heap.only_obtain hh _

theorem composed_writeField (isStrict : Bool) (d : Datum) (name : String) (value : Datum) :
    Composed P G (writeField isStrict d name value : Act σ Unit) := by
  have hsimple : ∀ f : Fault,
      Composed P G (if isStrict then Act.fail f else return () : Act σ Unit) := by
    intro f
    split
    · exact .fail f
    · exact .pure ()
  cases d with
  | undefined => exact .fail _
  | null => exact .fail _
  | cell id =>
    refine .heap fun h hh => ?_
    have hwrite := Heap.only_write hh id name value
    split
    · next next hnext =>
      rw [hnext] at hwrite
      exact .onHeap fun _ _ => hwrite
    · exact hsimple _
    · exact .fail _
  | _ => exact hsimple _

/-! ## 3. Graphs -/

theorem composed_renewScopes : Composed P G (renewScopes : Act σ Unit) := by
  refine .heap fun h _ => ?_
  split
  · exact .pure ()
  · exact .session (.overwriteAll _)

theorem composed_contentDatum (c : Content) : Composed P G (contentDatum c : Act σ Datum) :=
  .onHeap fun _ hh => Heap.only_contentDatum hh c

theorem composed_serialOf (d : Datum) : Composed P G (serialOf d : Act σ Nat) := by
  refine .heap fun h _ => ?_
  split
  · exact .pure _
  · exact .bind (.session .newSerial) fun serial => .onHeap fun _ hh => hh.of_cells rfl

theorem composed_contentOf (d : Datum) : Composed P G (contentOf d : Act σ Content) :=
  .bind (composed_serialOf d) fun _ => .heap fun _ _ => .pure _

/-! ## 4. Showing -/

theorem composed_printable (d : Datum) : Composed P G (printable d : Act σ Printable) :=
  .heap fun _ _ => .pure _

theorem composed_printables : ∀ ds : List Datum,
    Composed P G (printables ds : Act σ (List Printable))
  | [] => .pure _
  | d :: rest => .bind (composed_printable d) fun _ => .bind (composed_printables rest) fun _ => .pure _

end Script

end ConfGraph
