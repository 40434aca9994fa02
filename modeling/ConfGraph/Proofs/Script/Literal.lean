import ConfGraph.Module.State
import ConfGraph.Proofs.Scope.Act
import ConfGraph.Proofs.Script.Standing
import ConfGraph.Proofs.Value.Origin

/-!
# Values written in scripts

A script writes a value down as an expression.  Evaluating the expression makes a cell for every list
and every record in the value, parts before wholes, so that what it gives stands for the value again:
the only difference is who has made its records.

* `Heap.Writes`: heaps in which data come to stand for values.
* `Runtime.writesDown_literal`: what evaluating a literal comes to.
-/

namespace ConfGraph.Script

namespace Heap

variable {h h' h'' : Heap} {r : Realm}

/-! ## 1. Cells made for values -/

/-- **Cells have been added, so that data stand for values.** -/
structure Writes (h h' : Heap) (parts : List (Datum × Value)) : Prop where
  cells : h.Extends h'
  known : h'.known = h.known
  stand : ∀ p ∈ parts, h'.Stands p.1 p.2
  before : ∀ p ∈ parts, Before h'.cells.size p.1

theorem writes_nil (h : Heap) : h.Writes h [] where
  cells _ _ hget := hget
  known := rfl
  stand _ hp := nomatch hp
  before _ hp := nomatch hp

/-- What has no parts stands for itself. -/
theorem writes_scalar {d : Datum} {v : Value} (hstands : h.Stands d v) (hbefore : Before h.cells.size d) :
    h.Writes h [(d, v)] where
  cells _ _ hget := hget
  known := rfl
  stand p hp := by rwa [List.mem_singleton.mp hp]
  before p hp := by rwa [List.mem_singleton.mp hp]

theorem Writes.cons {d : Datum} {v : Value} {parts : List (Datum × Value)}
    (hfirst : h.Writes h' [(d, v)]) (hrest : h'.Writes h'' parts) : h.Writes h'' ((d, v) :: parts) where
  cells := hfirst.cells.trans hrest.cells
  known := hrest.known.trans hfirst.known
  stand p hp := by
    rcases List.mem_cons.mp hp with rfl | hp
    · exact (hfirst.stand _ List.mem_cons_self).extends hrest.cells
    · exact hrest.stand p hp
  before p hp := by
    rcases List.mem_cons.mp hp with rfl | hp
    · exact (hfirst.before _ List.mem_cons_self).mono hrest.cells.size_le
    · exact hrest.before p hp

/-- One more cell, which leads to what has been made. -/
theorem Writes.make {parts : List (Datum × Value)} (hparts : h.Writes h' parts) {cell : Cell} {v : Value}
    (hstands : (h'.make cell).2.Stands (.cell h'.cells.size) v) :
    h.Writes (h'.make cell).2 [(.cell h'.cells.size, v)] where
  cells := hparts.cells.trans (extends_make h' cell)
  known := hparts.known
  stand p hp := by rwa [List.mem_singleton.mp hp]
  before p hp := by
    rw [List.mem_singleton.mp hp]
    exact lt_size_of_get? (get?_make_self h' cell)

/-- **A list of what has been made.** -/
theorem Writes.list {parts : List (Datum × Value)} (hparts : h.Writes h' parts) :
    h.Writes (h'.make (listCell r (parts.map (·.1)))).2
      [(.cell h'.cells.size, .list (parts.map (·.2)))] :=
  hparts.make (.list (get?_make_self h' _) hparts.before fun p hp =>
    (hparts.stand p hp).extends (extends_make h' _))

/-- **A record of what has been made.** -/
theorem Writes.record {parts : List (String × Datum × Value)} (hparts : h.Writes h' (parts.map (·.2)))
    (hroot : h.get? (r.root .object) = some (Heap.ancestor r .object)) :
    h.Writes (h'.make (recordCell r (parts.map fun p => (p.1, p.2.1)))).2
      [(.cell h'.cells.size, .record (originOf (r.root .object)) (parts.map fun p => (p.1, p.2.2)))] := by
  have hroot' := hparts.cells _ _ hroot
  refine hparts.make (.record (get?_make_self h' _) (fun p hp => ?_) (fun p hp => ?_)
    (extends_make h' _ _ _ hroot') (lt_size_of_get? hroot'))
  · exact hparts.before p.2 (List.mem_map_of_mem hp)
  · exact (hparts.stand p.2 (List.mem_map_of_mem hp)).extends (extends_make h' _)

end Heap

/-! ## 2. Evaluating literals -/

namespace Runtime

open ConfGraph.Module (State)

variable (rt : Runtime State) {r : Realm}

/-- The origin of the records that a script makes in a realm. -/
def originIn (r : Realm) : Origin := Heap.originOf (r.root .object)

/-- **Evaluating an expression in a realm gives what stands for a value**, and does nothing but add
cells. -/
def WritesDown (r : Realm) (e : Expr) (v : Value) : Prop :=
  ∀ (p : Place) (c : Context) (s : State), p.header.realm = r →
    s.heap.get? (r.root .object) = some (Heap.ancestor r .object) →
    ∃ d heap, (rt.eval p e).exec c s = (.ok d, { s with heap }) ∧ s.heap.Writes heap [(d, v)]

/-- Several literals, one after the other. -/
theorem exec_literals : ∀ items : List Value,
    (∀ v ∈ items, rt.WritesDown r (.literal v) (v.madeBy (originIn r))) →
    ∀ (p : Place) (c : Context) (s : State), p.header.realm = r →
      s.heap.get? (r.root .object) = some (Heap.ancestor r .object) →
      ∃ (parts : List (Datum × Value)) (heap : Heap),
        (rt.evalAll p (Expr.literals items)).exec c s = (.ok (parts.map (·.1)), { s with heap }) ∧
          s.heap.Writes heap parts ∧ parts.map (·.2) = items.map (Value.madeBy (originIn r))
  | [], _, p, c, s, _, _ => ⟨[], s.heap, rfl, Heap.writes_nil _, rfl⟩
  | v :: rest, hitems, p, c, s, hp, hroot => by
    obtain ⟨d, heap, heval, hfirst⟩ := hitems v List.mem_cons_self p c s hp hroot
    obtain ⟨parts, heap', hrest, hparts, hvalues⟩ := exec_literals rest
      (fun w hw => hitems w (List.mem_cons_of_mem _ hw)) (p.past ((Expr.literal v).written ++ between)) c
      { s with heap } hp (hfirst.cells _ _ hroot)
    refine ⟨(d, v.madeBy (originIn r)) :: parts, heap', ?_, hfirst.cons hparts, by
      rw [List.map_cons, hvalues, List.map_cons]⟩
    rw [Expr.literals, evalAll, Act.exec_bind_of_ok heval, Act.exec_bind_of_ok hrest]
    rfl

theorem functionOf?_literal (p : Place) (name label : String) (v : Value) :
    functionOf? p name label (.literal v) = none := by
  cases v <;> rfl

/-- The entries that write fields down, one after the other. -/
theorem exec_literalEntries : ∀ fields : List (String × Value),
    (∀ f ∈ fields, rt.WritesDown r (.literal f.2) (f.2.madeBy (originIn r))) →
    ∀ (p : Place) (c : Context) (s : State), p.header.realm = r →
      s.heap.get? (r.root .object) = some (Heap.ancestor r .object) →
      ∃ (parts : List (String × Datum × Value)) (heap : Heap),
        (rt.evalEntries p (Expr.literalEntries fields)).exec c s
            = (.ok (parts.map fun q => (q.1, q.2.1)), { s with heap }) ∧
          s.heap.Writes heap (parts.map (·.2)) ∧
          parts.map (fun q => (q.1, q.2.2)) = fields.map fun f => (f.1, f.2.madeBy (originIn r))
  | [], _, p, c, s, _, _ => ⟨[], s.heap, rfl, Heap.writes_nil _, rfl⟩
  | (name, v) :: rest, hfields, p, c, s, hp, hroot => by
    let here : Place := p.past (Expr.entryLead name)
    obtain ⟨d, heap, heval, hfirst⟩ := hfields (name, v) List.mem_cons_self here c s hp hroot
    obtain ⟨parts, heap', hrest, hparts, hvalues⟩ := exec_literalEntries rest
      (fun w hw => hfields w (List.mem_cons_of_mem _ hw))
      (here.past ((Expr.literal v).written ++ between)) c { s with heap } hp (hfirst.cells _ _ hroot)
    refine ⟨(name, d, v.madeBy (originIn r)) :: parts, heap', ?_, hfirst.cons hparts, by
      rw [List.map_cons, hvalues, List.map_cons]⟩
    rw [Expr.literalEntries, evalEntries, functionOf?_literal]
    dsimp only
    rw [Act.exec_bind_of_ok heval, Act.exec_bind_of_ok hrest]
    rfl

/-- **What evaluating a literal comes to**, one case for each kind of value. -/
theorem writesDown_literal {v : Value} (hv : v.Writable) :
    rt.WritesDown r (.literal v) (v.madeBy (originIn r)) := by
  induction hv with
  | undefined => exact fun p c s _ _ => ⟨_, s.heap, rfl, Heap.writes_scalar .undefined trivial⟩
  | null => exact fun p c s _ _ => ⟨_, s.heap, rfl, Heap.writes_scalar .null trivial⟩
  | bool b => exact fun p c s _ _ => ⟨_, s.heap, rfl, Heap.writes_scalar (.bool b) trivial⟩
  | num x => exact fun p c s _ _ => ⟨_, s.heap, rfl, Heap.writes_scalar (.num x) trivial⟩
  | str t => exact fun p c s _ _ => ⟨_, s.heap, rfl, Heap.writes_scalar (.str t) trivial⟩
  | list _ ih =>
    intro p c s hp hroot
    obtain ⟨parts, heap, heval, hparts, hvalues⟩ :=
      rt.exec_literals _ ih (p.past Expr.listLead) c s hp hroot
    refine ⟨.cell heap.cells.size, (heap.make (Heap.listCell r (parts.map (·.1)))).2, ?_, ?_⟩
    · rw [Expr.literal, eval, Act.exec_bind_of_ok heval, hp]
      rfl
    · rw [Value.madeBy_list, ← hvalues]
      exact hparts.list
  | @record origin fields ordered _ _ ih =>
    intro p c s hp hroot
    obtain ⟨parts, heap, heval, hparts, hvalues⟩ :=
      rt.exec_literalEntries _ ih (p.past Expr.recordLead) c s hp hroot
    refine ⟨.cell heap.cells.size,
      (heap.make (Heap.recordCell r (parts.map fun q => (q.1, q.2.1)))).2, ?_, ?_⟩
    · have hfields : Fields.ofList (parts.map fun q => (q.1, q.2.2))
          = parts.map fun q => (q.1, q.2.2) := by
        rw [hvalues, Fields.ofList_map, ordered]
      have hparts : Fields.ofList parts = parts := Fields.ofList_of_map Prod.snd hfields
      have hsame := Fields.ofList_map Prod.fst parts
      rw [hparts] at hsame
      rw [Expr.literal, eval, Act.exec_bind_of_ok heval, hsame, hp]
      rfl
    · rw [Value.madeBy_record, ← hvalues]
      exact hparts.record hroot

end Runtime

end ConfGraph.Script
