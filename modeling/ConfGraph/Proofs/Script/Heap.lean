import ConfGraph.Script.Global
import ConfGraph.Script.Graphs

/-!
# The DSL functions in a heap

A script calls what stands in a cell.  Nothing that scripts do to a heap brings a DSL function into it
that was not there: those that stand in cells have come in as globals.

* `Heap.Only`: all DSL functions in a heap have a property.
* `Heap.only_make`, `Heap.only_set`: the two ways in which cells change.
* `Heap.only_adopt`, `Heap.only_contentDatum`, `Heap.only_write`, …: one lemma for each function on
  heaps.
* `Heap.only_globalData`: what globals bring in.
-/

namespace ConfGraph.Script

variable {P : DslFunction → Prop}

/-- If a callable is a DSL function, that one has a property. -/
def Callable.Only (P : DslFunction → Prop) : Callable → Prop
  | .dsl f => P f
  | _ => True

/-- If a body is a DSL function, that one has a property. -/
def Body.Only (P : DslFunction → Prop) : Body → Prop
  | .function c _ => c.Only P
  | _ => True

/-- If a global is a DSL function, that one has a property. -/
def Global.Only (P : DslFunction → Prop) : Global → Prop
  | .function c _ => c.Only P
  | .dsl f => P f
  | _ => True

/-- **All DSL functions in a heap have a property.** -/
def Heap.Only (P : DslFunction → Prop) (h : Heap) : Prop :=
  ∀ id c, h.get? id = some c → c.body.Only P

/-- If writing has changed the heap, it holds only DSL functions with a property. -/
def Written.Only (P : DslFunction → Prop) : Written → Prop
  | .heap h => h.Only P
  | _ => True

namespace Heap

variable {h : Heap}

/-! ## 1. Cells -/

/-- Whatever is true of all DSL functions is true of those in a heap. -/
theorem only_of_forall (hP : ∀ f, P f) (h : Heap) : h.Only P := by
  intro id c _
  cases c.body with
  | function callable face =>
    cases callable with
    | dsl f => exact hP f
    | _ => exact trivial
  | _ => exact trivial

/-- Only the cells matter. -/
theorem Only.of_cells {h' : Heap} (hh : h.Only P) (hcells : h'.cells = h.cells) : h'.Only P := by
  intro id c hget
  rw [get?, hcells] at hget
  exact hh id c hget

theorem only_make (hh : h.Only P) {c : Cell} (hc : c.body.Only P) : (h.make c).2.Only P := by
  intro id c' hget
  simp only [make, get?, Array.getElem?_push] at hget
  split at hget
  · obtain rfl := Option.some.inj hget
    exact hc
  · exact hh id c' hget

theorem only_set (hh : h.Only P) {c : Cell} (hc : c.body.Only P) (id : CellId) :
    (h.set id c).Only P := by
  intro id' c' hget
  simp only [set, get?, Array.getElem?_setIfInBounds] at hget
  split at hget
  · split at hget
    · obtain rfl := Option.some.inj hget
      exact hc
    · exact nomatch hget
  · exact hh id' c' hget

theorem only_lock (hh : h.Only P) (id : CellId) (l : Lock) : (h.lock id l).Only P := by
  unfold lock
  split
  · exact hh.of_cells rfl
  · exact hh

theorem only_ancestor (r : Realm) (f : Family) : (ancestor r f).body.Only P := by
  cases f <;> exact trivial

theorem only_makeRealm (hh : h.Only P) : h.makeRealm.2.Only P := by
  have hpush : ∀ (r : Realm) (families : List Family) (h : Heap), h.Only P →
      Only P { h with
        cells := families.foldl (fun cells f => cells.push (ancestor r f)) h.cells } := by
    intro r families
    induction families with
    | nil => exact fun _ hh => hh
    | cons f rest ih => exact fun h hh => ih _ (only_make hh (only_ancestor r f))
  exact hpush _ Family.all h hh

theorem only_start : start.Only P := by
  have hempty : Only P ⟨#[], [], [], [], []⟩ := fun id c hget => by simp [get?] at hget
  exact only_makeRealm hempty

theorem only_intern (hh : h.Only P) (key : String) {c : Cell} (hc : c.body.Only P) :
    (h.intern key c).2.Only P := by
  unfold intern
  split
  · exact hh
  · exact (only_make hh hc).of_cells rfl

/-! ## 2. From outside -/

mutual

theorem only_adopt (r : Realm) : ∀ (v : Value) (h : Heap), h.Only P → (h.adopt r v).2.Only P
  | .undefined, _, hh | .hole, _, hh | .null, _, hh | .bool _, _, hh | .num _, _, hh
  | .str _, _, hh => by simpa only [adopt] using hh
  | .list items, h, hh => by
    simp only [adopt]
    exact only_make (only_adoptItems r items h hh) trivial
  | .record _ fields, h, hh => by
    simp only [adopt]
    exact only_make (only_adoptFields r fields h hh) trivial
  | .heir fields parent, h, hh => by
    simp only [adopt]
    exact only_make (only_adopt r parent _ (only_adoptFields r fields h hh)) trivial
  | .function _, h, hh | .constant .., h, hh | .opaqueObject .., h, hh | .endless, h, hh => by
    simp only [adopt]
    exact only_make hh trivial

theorem only_adoptItems (r : Realm) : ∀ (items : List Value) (h : Heap), h.Only P →
    (h.adoptItems r items).2.Only P
  | [], _, hh => by simpa only [adoptItems] using hh
  | v :: rest, h, hh => by
    simp only [adoptItems]
    exact only_adoptItems r rest _ (only_adopt r v h hh)

theorem only_adoptFields (r : Realm) : ∀ (fields : List (String × Value)) (h : Heap), h.Only P →
    (h.adoptFields r fields).2.Only P
  | [], _, hh => by simpa only [adoptFields] using hh
  | (_, v) :: rest, h, hh => by
    simp only [adoptFields]
    exact only_adoptFields r rest _ (only_adopt r v h hh)

end

/-! ## 3. What stands for graphs -/

theorem only_link (hh : h.Only P) (t : Option Tag) (d : Datum) : (h.link t d).Only P := by
  unfold link
  split
  · exact hh.of_cells rfl
  · exact hh

theorem only_partDatum (hh : h.Only P) (p : Part) : (h.partDatum p).2.Only P := by
  unfold partDatum
  split
  · exact hh
  · exact only_link (only_adopt _ _ _ hh) _ _

theorem only_shareFrames (hh : h.Only P) (record : Datum) (t : Tag) :
    (h.shareFrames record t).Only P := by
  unfold shareFrames
  dsimp only
  split
  · split
    · next c _ _ hget _ _ =>
      have hc : c.body.Only P := hh _ c hget
      exact only_set hh (by exact hc) _
    · exact only_link hh _ _
    · exact hh
  · exact hh

theorem only_rowDatum (hh : h.Only P) (row : Row) : (h.rowDatum row).2.Only P := by
  unfold rowDatum
  split
  · exact hh
  · have hrow := only_link (only_adopt hostRealm row.whole.value _ hh) row.whole.tag
      (h.adopt hostRealm row.whole.value).1
    cases hframes : row.frames with
    | none => exact hrow
    | some t => exact only_shareFrames hrow _ t

theorem only_rowData : ∀ (rows : List Row) (h : Heap), h.Only P → (h.rowData rows).2.Only P
  | [], _, hh => hh
  | row :: rest, _, hh => only_rowData rest _ (only_rowDatum hh row)

theorem only_tableDatum (hh : h.Only P) (t : Table) : (h.tableDatum t).2.Only P := by
  cases t with
  | entries _ => exact only_make hh trivial
  | _ => exact hh

theorem only_contentDatum (hh : h.Only P) (c : Content) : (h.contentDatum c).2.Only P := by
  unfold contentDatum
  split
  · exact hh
  · refine Only.of_cells (only_make (only_make (only_rowData _ _ ?_) (by trivial)) (by trivial)) rfl
    exact only_tableDatum (only_tableDatum (only_adopt _ _ _ (only_adopt _ _ _ hh)) _) _

/-! ## 4. Fields -/

theorem only_obtain (hh : h.Only P) (found : Found) : (h.obtain found).2.Only P := by
  cases found with
  | datum d => exact hh
  | nothing => exact hh
  | refused f => exact hh
  | _ => exact only_intern hh _ trivial

theorem only_resized {c c' : Cell} {items : List (Nat × Datum)} {length : Float}
    (h : resized c items length = some c') : c'.body.Only P := by
  unfold resized at h
  split at h
  · split at h
    · obtain rfl := Option.some.inj h
      exact trivial
    · exact nomatch h
  · split at h
    · obtain rfl := Option.some.inj h
      exact trivial
    · exact nomatch h

theorem only_setParent (hh : h.Only P) (id : CellId) {c : Cell} (hc : c.body.Only P) (d : Datum) :
    (h.setParent id c d).Only P := by
  unfold setParent
  split
  · split
    · exact hh
    · exact only_set hh (by exact hc) id
  · split
    · exact hh
    · split
      · exact trivial
      · split
        · exact trivial
        · exact only_set hh (by exact hc) id
  · exact hh

theorem only_writeItem (hh : h.Only P) (id : CellId) {c : Cell} (hc : c.body.Only P) (length : Nat)
    (items : List (Nat × Datum)) (name : String) (d : Datum) :
    (h.writeItem id c length items name d).Only P := by
  unfold writeItem
  split
  · split
    · next hresized =>
      obtain ⟨x, -, hresized⟩ := Option.bind_eq_some_iff.mp hresized
      exact only_set hh (only_resized hresized) id
    · exact trivial
  · split
    · exact only_set hh (by trivial) id
    · exact only_set hh (by exact hc) id

theorem only_write (hh : h.Only P) (id : CellId) (name : String) (d : Datum) :
    (h.write id name d).Only P := by
  unfold write
  split
  · exact trivial
  · next c hget =>
    have hc : c.body.Only P := hh id c hget
    split
    · split
      · exact trivial
      · exact only_setParent hh id hc d
    · split
      · exact trivial
      · split
        · exact trivial
        · split
          · exact only_writeItem hh id hc _ _ name d
          · split
            · exact only_set hh (by trivial) id
            · exact only_set hh (by exact hc) id
          · exact only_set hh (by exact hc) id

/-! ## 5. Globals -/

theorem only_consoleFunctions : ∀ (names : List String) (h : Heap), h.Only P →
    (h.consoleFunctions names).2.Only P
  | [], _, hh => hh
  | name :: rest, h, hh => by
    rw [consoleFunctions]
    exact only_consoleFunctions rest _ (only_intern hh _ (by trivial))

theorem only_consoleCell (hh : h.Only P) : h.consoleCell.2.Only P := by
  have hfunctions := only_consoleFunctions (Shelf.console.members.map (·.1)) h hh
  unfold consoleCell
  generalize h.consoleFunctions (Shelf.console.members.map (·.1)) = p at hfunctions ⊢
  exact only_intern hfunctions _ (by trivial)

theorem only_globalDatum (hh : h.Only P) {g : Global} (hg : g.Only P) :
    (h.globalDatum g).2.Only P := by
  cases g with
  | console =>
    have hcell := only_consoleCell hh
    unfold globalDatum
    generalize h.consoleCell = p at hcell ⊢
    exact hcell
  | function c face => exact only_intern hh _ (by exact hg)
  | dsl f => exact only_intern hh _ (by exact hg)
  | text s => exact hh

/-- **What globals bring in** are the DSL functions among them. -/
theorem only_globalData : ∀ (globals : Fields Global), (∀ g ∈ globals, g.2.Only P) →
    ∀ h : Heap, h.Only P → (h.globalData globals).2.Only P
  | [], _, _, hh => hh
  | g :: rest, hglobals, h, hh => by
    refine only_globalData rest (fun g' hg' => hglobals g' (List.mem_cons_of_mem _ hg')) _ ?_
    exact only_globalDatum hh (hglobals g List.mem_cons_self)

end Heap

end ConfGraph.Script
