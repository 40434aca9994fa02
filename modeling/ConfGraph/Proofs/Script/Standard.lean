import ConfGraph.Proofs.Script.Composed
import ConfGraph.Script.Operation

/-!
# What the standard library is made of

The functions of the standard library and the operators are composed of what scripts can do to the
heap; those of the console also tell the session what they print.

* `Standard.composed_make`: the makers of the families.
* `Standard.composed_call`: the functions of the shelves.
* `composed_removeField`, `composed_operate`: the operators.
-/

namespace ConfGraph.Script

variable {σ : Type} [HasSession σ] [HasHeap σ]
variable {P : DslFunction → Prop} {G : (α : Type) → Act σ α → Prop}

namespace Standard

/-! ## 1. Arguments -/

theorem composed_numberOf (d : Datum) : Composed P G (numberOf d : Act σ Float) := by
  refine .bind (composed_valueOf d) fun v => ?_
  split
  · exact .pure _
  · exact .fail _

theorem composed_numbersOf : ∀ ds : List Datum, Composed P G (numbersOf ds : Act σ (List Float))
  | [] => .pure _
  | d :: rest => .bind (composed_numberOf d) fun _ => .bind (composed_numbersOf rest) fun _ => .pure _

theorem composed_textOf (d : Datum) : Composed P G (textOf d : Act σ String) := by
  refine .bind (composed_valueOf d) fun v => ?_
  split
  · exact .pure _
  · exact .fail _

theorem composed_textsOf : ∀ ds : List Datum, Composed P G (textsOf ds : Act σ (List String))
  | [] => .pure _
  | d :: rest => .bind (composed_textOf d) fun _ => .bind (composed_textsOf rest) fun _ => .pure _

/-- A cell that is no function is made. -/
theorem composed_newCell {c : Cell} (hc : c.body.Only P) :
    Composed P G (do return .cell (← makeCell c) : Act σ Datum) :=
  .bind (composed_makeCell hc) fun _ => .pure _

theorem composed_newList (r : Realm) (items : List Datum) :
    Composed P G (newList r items : Act σ Datum) := composed_newCell trivial

/-! ## 2. Makers -/

theorem composed_makeList (r : Realm) (args : List Datum) :
    Composed P G (makeList r args : Act σ Datum) := by
  unfold makeList
  split
  · split
    · next hresized => exact composed_newCell (Heap.only_resized hresized)
    · exact .fail _
  · exact composed_newList _ _

theorem composed_messageField (message : Datum) :
    Composed P G (messageField message : Act σ (Fields Datum)) := by
  unfold messageField
  split
  · exact .pure _
  · exact .bind (composed_textOf _) fun _ => .pure _

theorem composed_causeField (r : Realm) (options : Datum) :
    Composed P G (causeField r options : Act σ (Fields Datum)) := by
  unfold causeField
  split
  · refine .bind (composed_readField _ _ _) fun _ => ?_
    split
    all_goals exact .pure _
  · exact .pure _

theorem composed_newFailure (r : Realm) (k : Failure) (fields : Fields Datum) :
    Composed P G (newFailure r k fields : Act σ Datum) := by
  refine .bind (composed_makeCell (by trivial)) fun id => .heap fun _ _ => .bind .context fun _ => ?_
  exact .onHeap fun h hh => by exact Heap.only_set hh (by trivial) id

theorem composed_makeFailure (r : Realm) (k : Failure) (message options : Datum)
    (hidden : Fields Datum) : Composed P G (makeFailure r k message options hidden : Act σ Datum) :=
  .bind (composed_messageField _) fun _ => .bind (composed_causeField _ _) fun _ =>
    composed_newFailure _ _ _

theorem composed_make (f : Family) (r : Realm) (args : List Datum) :
    Composed P G (make f r args : Act σ Datum) := by
  refine .bind (composed_valueOf _) fun v => ?_
  cases f with
  | object =>
    dsimp only
    split
    · exact .pure _
    · exact composed_newCell (by trivial)
    · exact composed_newCell (by trivial)
    · exact composed_newCell (by trivial)
  | list => exact composed_makeList _ _
  | text =>
    dsimp only
    split
    · exact .pure _
    · split
      · exact .pure _
      · exact .fail _
  | number =>
    dsimp only
    split
    · exact .pure _
    · split
      · exact .pure _
      · exact .fail _
  | truth => exact .pure _
  | function => exact composed_newCell (by trivial)
  | table => exact .fail _
  | failure k =>
    cases k with
    | several =>
      refine .heap fun h _ => ?_
      split
      · exact .bind (composed_newList _ _) fun _ => composed_makeFailure _ _ _ _ _
      · exact .fail _
    | _ => exact composed_makeFailure _ _ _ _ _

/-! ## 3. Records -/

theorem composed_namesOf (all : Bool) (d : Datum) :
    Composed P G (namesOf all d : Act σ (List String)) := by
  refine .heap fun h _ => ?_
  split
  · exact .fail _
  · exact .fail _
  · exact .pure _
  · exact .pure _
  · exact .pure _

theorem composed_fieldsUnder (r : Realm) (d : Datum) : ∀ names : List String,
    Composed P G (fieldsUnder r d names : Act σ (Fields Datum))
  | [] => .pure _
  | name :: rest =>
    .bind (composed_readField r d name) fun _ => .bind (composed_fieldsUnder r d rest) fun _ => .pure _

theorem composed_fieldsIn (r : Realm) (d : Datum) :
    Composed P G (fieldsIn r d : Act σ (Fields Datum)) :=
  .bind (composed_namesOf false d) fun _ => composed_fieldsUnder r d _

theorem composed_pairs (r : Realm) : ∀ fs : Fields Datum,
    Composed P G (pairs r fs : Act σ (List Datum))
  | [] => .pure _
  | _ :: rest => .bind (composed_newList r _) fun _ => .bind (composed_pairs r rest) fun _ => .pure _

theorem composed_writeAll (d : Datum) : ∀ fs : Fields Datum,
    Composed P G (writeAll d fs : Act σ Unit)
  | [] => .pure _
  | _ :: rest => .bind (composed_writeField _ d _ _) fun _ => composed_writeAll d rest

theorem composed_assignAll (r : Realm) (d : Datum) : ∀ sources : List Datum,
    Composed P G (assignAll r d sources : Act σ Unit)
  | [] => .pure _
  | source :: rest => by
    have hfields : Composed P G (do
        writeAll d (← fieldsIn r source)
        assignAll r d rest : Act σ Unit) :=
      .bind (composed_fieldsIn r source) fun _ => .bind (composed_writeAll d _) fun _ =>
        composed_assignAll r d rest
    cases source with
    | undefined => exact composed_assignAll r d rest
    | null => exact composed_assignAll r d rest
    | _ => exact hfields

theorem composed_entriesOf (r : Realm) : ∀ ds : List Datum,
    Composed P G (entriesOf r ds : Act σ (Fields Datum))
  | [] => .pure _
  | d :: rest => by
    have hrefused : Composed P G (do
        let v ← valueOf d
        Act.fail (.notAnEntry v.display) : Act σ (Fields Datum)) :=
      .bind (composed_valueOf d) fun _ => .fail _
    cases d with
    | cell id =>
      refine .bind (composed_readField _ _ _) fun _ => .bind (composed_textOf _) fun _ => ?_
      exact .bind (composed_readField _ _ _) fun _ => .bind (composed_entriesOf r rest) fun _ => .pure _
    | _ => exact hrefused

theorem composed_itemsOf (r : Realm) (d : Datum) :
    Composed P G (itemsOf r d : Act σ (List Datum)) := by
  refine .heap fun h _ => ?_
  split
  · exact .pure _
  · exact .bind (composed_fieldsUnder _ _ _) fun _ => .pure _
  · exact .bind (composed_valueOf _) fun _ => .fail _

theorem composed_itemsFrom (r : Realm) (d : Datum) :
    Composed P G (itemsFrom r d : Act σ (List Datum)) := by
  refine .heap fun h _ => ?_
  split
  · exact composed_itemsOf r _
  · exact composed_itemsOf r _
  · exact composed_itemsOf r _
  · exact composed_itemsOf r _
  · refine .bind (composed_readField _ _ _) fun _ => .bind (composed_numberOf _) fun _ => ?_
    exact .bind (composed_fieldsUnder _ _ _) fun _ => .pure _

theorem composed_parentOf (d : Datum) : Composed P G (parentOf d : Act σ (Option CellId)) := by
  have hrefused : Composed P G (do
      let v ← valueOf d
      Act.fail (.typeError s!"Object prototype may only be an Object or null: {v.display}") :
        Act σ (Option CellId)) :=
    .bind (composed_valueOf d) fun _ => .fail _
  cases d with
  | cell id => exact .pure _
  | null => exact .pure _
  | _ => exact hrefused

theorem composed_lockOf (d : Datum) : Composed P G (lockOf d : Act σ Nat) := by
  refine .heap fun h _ => ?_
  split
  · exact .pure _
  · exact .pure _

theorem composed_lockWith (l : Lock) (d : Datum) : Composed P G (lockWith l d : Act σ Datum) := by
  unfold lockWith
  split
  · exact .onHeap fun _ hh => Heap.only_lock hh _ l
  · exact .pure _

theorem composed_callRecords (name : String) (r : Realm) (args : List Datum) :
    Composed P G (callRecords name r args : Act σ Datum) := by
  unfold callRecords
  dsimp only
  split
  · exact .bind (composed_namesOf _ _) fun _ => composed_newList _ _
  · exact .bind (composed_namesOf _ _) fun _ => composed_newList _ _
  · exact composed_newList _ _
  · exact .bind (composed_fieldsIn _ _) fun _ => composed_newList _ _
  · exact .bind (composed_fieldsIn _ _) fun _ => .bind (composed_pairs _ _) fun _ =>
      composed_newList _ _
  · exact .bind (composed_itemsOf _ _) fun _ => .bind (composed_entriesOf _ _) fun _ =>
      composed_newCell (by trivial)
  · split
    · exact .fail _
    · exact .fail _
    · exact .bind (composed_assignAll _ _ _) fun _ => .pure _
  · exact .bind (composed_parentOf _) fun _ => composed_newCell (by trivial)
  · refine .bind (composed_textOf _) fun _ => .heap fun _ _ => ?_
    split
    · exact .fail _
    · exact .fail _
    · exact .pure _
    · exact .pure _
    · exact .pure _
  · exact .pure _
  · refine .heap fun _ _ => ?_
    split
    · exact .fail _
    · exact .fail _
    · exact .pure _
  · refine .bind (composed_parentOf _) fun _ => ?_
    split
    · exact .fail _
    · exact .fail _
    · exact .bind (composed_writeField _ _ _ _) fun _ => .pure _
  · exact composed_lockWith _ _
  · exact composed_lockWith _ _
  · exact composed_lockWith _ _
  · exact .bind (composed_lockOf _) fun _ => .pure _
  · exact .bind (composed_lockOf _) fun _ => .pure _
  · exact .bind (composed_lockOf _) fun _ => .pure _
  · exact .pure _

/-! ## 4. Lists, texts and numbers -/

theorem composed_callLists (name : String) (r : Realm) (args : List Datum) :
    Composed P G (callLists name r args : Act σ Datum) := by
  unfold callLists
  split
  · exact .heap fun _ _ => .pure _
  · exact composed_newList _ _
  · exact .bind (composed_itemsFrom _ _) fun _ => composed_newList _ _
  · exact .pure _

theorem composed_callTexts (name : String) (r : Realm) (args : List Datum) :
    Composed P G (callTexts name r args : Act σ Datum) := by
  unfold callTexts
  split
  · exact .bind (composed_numbersOf _) fun _ => .pure _
  · exact .bind (composed_numbersOf _) fun _ => .bind (composed_ofExcept _) fun _ => .pure _
  · refine .bind (composed_readField _ _ _) fun _ => .bind (composed_itemsFrom _ _) fun _ => ?_
    exact .bind (composed_textsOf _) fun _ => .bind (composed_textsOf _) fun _ => .pure _
  · exact .pure _

theorem composed_callReading (name : String) (args : List Datum) :
    Composed P G (callReading name args : Act σ Datum) := by
  unfold callReading
  split
  · exact .bind (composed_textOf _) fun _ => .pure _
  · exact .bind (composed_textOf _) fun _ => .bind (composed_numberOf _) fun _ => .pure _

theorem composed_callNumbers (name : String) (args : List Datum) :
    Composed P G (callNumbers name args : Act σ Datum) := by
  unfold callNumbers
  split
  · exact composed_callReading _ _
  · exact composed_callReading _ _
  all_goals exact .pure _

theorem composed_callMathematics (name : String) (args : List Datum) :
    Composed P G (callMathematics name args : Act σ Datum) := by
  refine .bind (composed_numbersOf _) fun first => ?_
  dsimp only
  split
  · exact .pure _
  · exact .pure _
  · refine .bind (composed_numbersOf _) fun _ => ?_
    split
    all_goals exact .pure _

/-! ## 5. JSON -/

theorem composed_callJson (name : String) (r : Realm) (args : List Datum) :
    Composed P G (callJson name r args : Act σ Datum) := by
  unfold callJson
  split
  · refine .bind (composed_textOf _) fun _ => ?_
    split
    · exact composed_adoptIn _ _
    · exact .fail _
  · refine .bind (composed_valueOf _) fun _ => .bind (composed_valueOf _) fun _ => ?_
    dsimp only
    split
    · exact .fail _
    · exact .pure _

/-! ## 6. All shelves -/

theorem composed_callEverywhere (name : String) (args : List Datum) :
    Composed P G (callEverywhere name args : Act σ Datum) := by
  unfold callEverywhere
  split
  · exact composed_callReading _ _
  · exact composed_callReading _ _
  · exact .bind (composed_numberOf _) fun _ => .pure _
  · exact .bind (composed_numberOf _) fun _ => .pure _
  · split
    · exact .fail _
    · exact .pure _

/-- **What a function of a shelf does** is composed of what scripts can do. -/
theorem composed_call (s : Shelf) (name : String) (r : Realm) (args : List Datum) :
    Composed P G (call s name r args : Act σ Datum) := by
  unfold call
  split
  · exact composed_callRecords _ _ _
  · exact composed_callLists _ _ _
  · exact composed_callTexts _ _ _
  · exact composed_callNumbers _ _
  · refine .heap fun _ _ => ?_
    split
    all_goals exact .pure _
  · exact .pure _
  · exact composed_callMathematics _ _
  · exact composed_callJson _ _ _
  · exact composed_callEverywhere _ _
  · exact .bind (composed_printables _) fun _ => .bind (.session (.printed _ _)) fun _ => .pure _

end Standard

/-! ## 7. Operators -/

theorem only_withoutField {c : Cell} (hc : c.body.Only P) (name : String) :
    (withoutField c name).body.Only P := by
  unfold withoutField
  dsimp only
  split
  · exact trivial
  · exact trivial
  · exact hc

theorem composed_removeField (isStrict : Bool) (d : Datum) (name : String) :
    Composed P G (removeField isStrict d name : Act σ Datum) := by
  unfold removeField
  split
  · exact .fail _
  · exact .fail _
  · refine .heap fun h hh => ?_
    split
    · exact .pure _
    · next id _ c hget =>
      split
      · split
        · exact .fail _
        · exact .pure _
      · exact .bind (.onHeap fun _ hh' => Heap.only_set hh' (only_withoutField (hh _ c hget) name) _)
          fun _ => .pure _
  · exact .pure _

theorem composed_makeThing (word : String) (d : Datum) :
    Composed P G (makeThing word d : Act σ Datum) := by
  refine .heap fun h _ => ?_
  split
  · split
    · exact .fail _
    · exact Standard.composed_make _ _ _
  · exact .fail _

/-- **What an operator does** is composed of what scripts can do. -/
theorem composed_operate (op : Operator) (d : Datum) : Composed P G (operate op d : Act σ Datum) := by
  cases op with
  | kind => exact .heap fun _ _ => .pure _
  | nothing => exact .pure _
  | remove => exact .pure _
  | make => exact composed_makeThing _ d
  | wait => exact .pure _

end ConfGraph.Script
