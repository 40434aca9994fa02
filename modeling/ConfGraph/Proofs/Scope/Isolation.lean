import ConfGraph.Proofs.Scope.Confined
import ConfGraph.Proofs.Scope.Strand

/-!
# Scopes are isolated

Scopes are opened inside each other and beside each other, and the code that runs in them takes turns
in any order.  Every piece of code keeps the scope that it was started under, so each move is made in a
context, and the context names the scope.  What code may do there is read the graph, replace it, apply a
batch and look up a name.  Nothing else is known of the order of moves: a body may end early or late,
succeed or fail, and code that has caught the scope of an ended body may go on using it.

* `Operation`, `Move`: what code does to its scope, and one entry of a schedule.
* `play`, `answersOf`: what a schedule leaves, and what the moves of one scope are answered.
* `Cell`, `Move.meaning`: a scope by itself.
* `Move.step_own`, `Move.step_other`: one move.
* `answersOf_eq`, `cell_play`: the whole schedule, by induction.
* `scopes_are_isolated`: new scopes, ended scopes, and those around them.
-/

namespace ConfGraph

/-! ## 1. Moves -/

/-- What code may do to the scope in its context. -/
inductive Operation where
  /-- Reads the graph. -/
  | read
  /-- Replaces the graph by what a function makes of it, which may fail.  Where the function makes moves
  of its own, the replacement is a read, these moves, and an update by a constant. -/
  | update (f : Option Graph → Except Fault Graph)
  /-- Applies a batch in the name of the running DSL function, and asks for a name it bound. -/
  | transact (ops tempId : Value)
  /-- Looks up the entity with a config id. -/
  | resolve (id : Value)

/-- What a move is answered. -/
inductive Reply where
  | graph (g : Option Graph)
  | value (v : Value)
  /-- A scope has been opened. -/
  | opened
  /-- What a body came to, and the graph of its scope in the end. -/
  | yielded (v : Value) (g : Option Graph)

/-- What an operation does. -/
def Operation.act : Operation → Act Session Reply
  | .read => do
    let content ← Session.currentContent
    return .graph content.graph?
  | .update f => do
    let made ← Session.updateContent fun content => do
      let g ← Act.ofExcept (f content.graph?)
      return (← Session.newGraph g, ())
    return .graph made.1.graph?
  | .transact ops tempId => do
    let v ← Session.transact ops tempId
    return .value v
  | .resolve id => do
    let found ← Session.resolveId id
    return .value found.toValue

/-- The end of a body in its scope: the scope is closed, however the body has ended. -/
def Session.endScope {α : Type} (id : ScopeId) (result : Except Fault α) :
    Act Session (α × Content) := do
  let final ← Act.outcome (readScope id)
  closeScope id
  let a ← Act.ofExcept result
  let content ← Act.ofExcept final
  return (a, content)

/-- One entry of a schedule. -/
inductive Move where
  /-- A scope is opened, from wherever. -/
  | opens (initial : Revision)
  /-- Code in a context does something. -/
  | does (c : Context) (op : Operation)
  /-- The body of a scope has come to something. -/
  | ends (id : ScopeId) (result : Except Fault Value)

namespace Move

/-- The scope that a move is about. -/
def scope? : Move → Option ScopeId
  | opens _ => none
  | does c _ => c.scope
  | ends id _ => some id

/-- What a move does. -/
def act : Move → Act Session Reply
  | opens initial => do
    let _ ← Session.openScope (.graph initial)
    return .opened
  | does c op => Act.inside (fun _ => c) op.act
  | ends id result => do
    let made ← Session.endScope id result
    return .yielded made.1 made.2.graph?

/-- Makes a move. -/
def step (m : Move) (s : Session) : Except Fault Reply × Session := m.act.exec .outside s

/-- The same move for another scope. -/
def relocated (m : Move) (id : ScopeId) : Move :=
  match m with
  | opens initial => opens initial
  | does c op => does { c with scope := some id } op
  | ends _ result => ends id result

end Move

/-- What a schedule leaves. -/
def play (moves : List Move) (s : Session) : Session := moves.foldl (fun s m => (m.step s).2) s

/-- What the moves of one scope are answered in the course of a schedule. -/
def answersOf (id : ScopeId) : List Move → Session → List (Except Fault Reply)
  | [], _ => []
  | m :: rest, s =>
    if m.scope? = some id then (m.step s).1 :: answersOf id rest (m.step s).2
    else answersOf id rest (m.step s).2

/-- The moves of a schedule that are about a scope. -/
def movesAt (id : ScopeId) (moves : List Move) : List Move :=
  moves.filter fun m => m.scope? = some id

/-- The moves of one scope, made for the only scope of a session. -/
def ownMoves (id : ScopeId) (moves : List Move) : List Move :=
  (movesAt id moves).map (·.relocated 0)

/-- A session with one scope only. -/
def Session.sole (r : Revision) (isOpen : Bool) : Session := ⟨⟨[⟨.graph r, isOpen⟩], 0⟩, []⟩

/-! ## 2. Operations -/

namespace Operation

open Act

/-- What an operation comes to where something is shown. -/
def effect (op : Operation) (c : Context) : Option Graph → Effect Reply
  | none => .error .noScope
  | some g =>
    match op with
    | .read => .ok (.graph (some g), some g)
    | .update f => (f (some g)).map fun g' => (.graph (some g'), some g')
    | .transact ops tempId =>
      (Session.transaction ops tempId c.plain (some g)).map fun p => (.value p.1, p.2)
    | .resolve id => (Session.resolution id c.plain (some g)).map fun found => (.value found.toValue, some g)

variable {c : Context} {v : Option Graph}

theorem does_read : (act .read).Does c v (effect .read c v) := by
  cases v with
  | none =>
    intro s hs
    exact ⟨s, by unfold act; rw [exec_bind, Session.exec_currentContent_of_none hs], rfl⟩
  | some g =>
    intro s hs
    obtain ⟨r, rfl, hcontent⟩ := Session.exec_currentContent hs
    exact ⟨s, by unfold act; rw [exec_bind_of_ok hcontent]; rfl, hs⟩

theorem does_update (f : Option Graph → Except Fault Graph) :
    (act (.update f)).Does c v (effect (.update f) c v) := by
  cases v with
  | none =>
    intro s hs
    exact ⟨s, by unfold act; rw [exec_bind, Session.exec_updateContent_of_none hs], rfl⟩
  | some g =>
    unfold effect
    dsimp only
    cases hmade : f (some g) with
    | error fault =>
      intro s hs
      obtain ⟨r, rfl, hfails, -⟩ := Session.exec_updateContent hs fun content => do
        let g ← Act.ofExcept (f content.graph?)
        return (← Session.newGraph g, ())
      have hbody := hfails fault s (by simp only [Content.graph?, hmade]; rfl)
      exact ⟨s, by unfold act; rw [exec_bind, hbody], rfl⟩
    | ok g' =>
      intro s hs
      obtain ⟨r, rfl, -, hgoes⟩ := Session.exec_updateContent hs fun content => do
        let g ← Act.ofExcept (f content.graph?)
        return (← Session.newGraph g, ())
      obtain ⟨s', hbody, hholds⟩ := hgoes (.first s.scopes.nextSerial g') ()
        { s with scopes := s.scopes.issue.2 } (by simp only [Content.graph?, hmade]; rfl) rfl
      exact ⟨s', by unfold act; rw [exec_bind_of_ok hbody]; rfl, hholds⟩

theorem does_resolve (id : Value) : (act (.resolve id)).Does c v (effect (.resolve id) c v) := by
  have hreads := Session.reads_resolveId (c := c) (v := v) id
  cases v with
  | none => exact hreads.bind_error _
  | some g =>
    unfold effect
    dsimp only
    cases hfound : Session.resolution id c.plain (some g) with
    | error fault =>
      rw [hfound] at hreads
      exact hreads.bind_error _
    | ok found =>
      rw [hfound] at hreads
      exact hreads.does_ok.map _

/-- **What an operation does** is told by the caller and by what is shown. -/
theorem does_act (op : Operation) (c : Context) (v : Option Graph) :
    op.act.Does c v (op.effect c v) := by
  cases op with
  | read => exact does_read
  | update f => exact does_update f
  | transact ops tempId =>
    have hdoes := (Session.does_transact (c := c) (v := v) ops tempId).map Reply.value
    cases v with
    | none => exact hdoes
    | some g => exact hdoes
  | resolve id => exact does_resolve id

/-- **Operations keep to their scope.** -/
theorem confined_act (op : Operation) : op.act.Confined := by
  cases op with
  | read => exact Session.confined_currentContent.bind fun _ => confined_pure _
  | update f =>
    refine (Session.confined_updateContent fun content c s => ?_).bind fun _ => confined_pure _
    cases hmade : f content.graph? with
    | error fault => rfl
    | ok g => rfl
  | transact ops tempId => exact (Session.confined_transact ops tempId).bind fun _ => confined_pure _
  | resolve id => exact (Session.confined_resolveId id).bind fun _ => confined_pure _

/-- What is done leaves a graph in the scope, which is open. -/
theorem effect_eq_ok {op : Operation} {c : Context} {v v' : Option Graph} {reply : Reply}
    (h : op.effect c v = .ok (reply, v')) : ∃ g g', v = some g ∧ v' = some g' := by
  cases v with
  | none => exact nomatch h
  | some g =>
    refine ⟨g, ?_⟩
    cases op with
    | read =>
      obtain ⟨-, rfl⟩ := Prod.mk.inj (Except.ok.inj h)
      exact ⟨g, rfl, rfl⟩
    | update f =>
      obtain ⟨g', -, hmade⟩ := Shape.map_eq_ok_iff.mp h
      exact ⟨g', rfl, (Prod.mk.inj hmade).2.symm⟩
    | transact ops tempId =>
      obtain ⟨⟨x, w⟩, htransaction, hmade⟩ := Shape.map_eq_ok_iff.mp h
      obtain ⟨-, rfl⟩ := Prod.mk.inj hmade
      unfold Session.transaction at htransaction
      dsimp only at htransaction
      split at htransaction
      · exact nomatch htransaction
      · obtain ⟨-, rfl⟩ := Prod.mk.inj (Except.ok.inj htransaction)
        exact ⟨g, rfl, rfl⟩
      · next g' _ =>
        obtain ⟨-, rfl⟩ := Prod.mk.inj (Except.ok.inj htransaction)
        exact ⟨g', rfl, rfl⟩
    | resolve id =>
      obtain ⟨found, -, hmade⟩ := Shape.map_eq_ok_iff.mp h
      exact ⟨g, rfl, (Prod.mk.inj hmade).2.symm⟩

/-- Which scope it is does not matter to what is done there. -/
theorem effect_relocated (op : Operation) (c : Context) (id : ScopeId) (v : Option Graph) :
    op.effect { c with scope := some id } v = op.effect c v := by
  cases v with
  | none => rfl
  | some g => cases op <;> rfl

end Operation

/-! ## 3. A scope by itself -/

/-- A scope that holds a graph. -/
structure Cell where
  graph : Graph
  isOpen : Bool

/-- What code sees of a scope. -/
def Cell.shown (cell : Cell) : Option Graph := if cell.isOpen then some cell.graph else none

/-- A scope of a session holds a graph. -/
def Session.HasCell (s : Session) (id : ScopeId) (cell : Cell) : Prop :=
  ∃ r, s.scopes.get? id = some ⟨.graph r, cell.isOpen⟩ ∧ r.graph = cell.graph

/-- **What a move comes to at its scope.** -/
def Move.meaning : Move → Cell → Except Fault Reply × Cell
  | .opens _, cell => (.ok .opened, cell)
  | .does c op, cell =>
    match op.effect c cell.shown with
    | .error fault => (.error fault, cell)
    | .ok (reply, v) => (.ok reply, { cell with graph := v.getD cell.graph })
  | .ends _ result, cell =>
    (result.bind fun v =>
      if cell.isOpen then .ok (.yielded v (some cell.graph)) else .error .noScope,
      { cell with isOpen := false })

theorem Move.meaning_relocated (m : Move) (id : ScopeId) (cell : Cell) :
    (m.relocated id).meaning cell = m.meaning cell := by
  cases m with
  | opens initial => rfl
  | does c op => simp only [relocated, meaning, Operation.effect_relocated]
  | ends _ result => rfl

/-- What moves are answered at their scope. -/
def Cell.answers : List Move → Cell → List (Except Fault Reply)
  | [], _ => []
  | m :: rest, cell => (m.meaning cell).1 :: answers rest (m.meaning cell).2

/-- What moves make of their scope. -/
def Cell.after (moves : List Move) (cell : Cell) : Cell :=
  moves.foldl (fun cell m => (m.meaning cell).2) cell

namespace Session

variable {s s' : Session} {id : ScopeId} {cell : Cell}

theorem HasCell.congr (h : s.HasCell id cell) (hget : s'.scopes.get? id = s.scopes.get? id) :
    s'.HasCell id cell := by
  obtain ⟨r, hscope, hr⟩ := h
  exact ⟨r, hget.trans hscope, hr⟩

theorem HasCell.shows (h : s.HasCell id cell) {c : Context} (hc : c.scope = some id) :
    s.Shows c cell.shown := by
  obtain ⟨r, hscope, hr⟩ := h
  unfold Cell.shown
  cases hopen : cell.isOpen with
  | true =>
    rw [hopen] at hscope
    exact ⟨id, r, hc, hscope, hr⟩
  | false =>
    intro id' scope hid hget
    obtain rfl := Option.some.inj (hc.symm.trans hid)
    obtain rfl := Option.some.inj (hscope.symm.trans hget)
    exact hopen

theorem HasCell.graphAt? (h : s.HasCell id cell) : s.scopes.graphAt? id = some cell.graph := by
  obtain ⟨r, hscope, hr⟩ := h
  rw [Scopes.graphAt?, hscope, ← hr]
  rfl

theorem hasCell_of_graphAt? {g : Graph} (h : s.scopes.graphAt? id = some g) :
    ∃ isOpen, s.HasCell id ⟨g, isOpen⟩ := by
  obtain ⟨⟨content, isOpen⟩, hget, hgraph⟩ := Option.bind_eq_some_iff.mp h
  cases content with
  | graph r => exact ⟨isOpen, r, hget, Option.some.inj hgraph⟩
  | other l => exact nomatch hgraph

end Session

/-! ## 4. One move -/

theorem Scopes.get?_closing (s : Scopes) (id id' : ScopeId) :
    (s.closing id).get? id' = (s.get? id').map fun scope => if id = id' then scope.close else scope := by
  unfold get? closing
  rw [List.getElem?_modify]
  rfl

/-- **What the end of a body comes to.** -/
theorem Session.exec_endScope {α : Type} (id : ScopeId) (result : Except Fault α) (c : Context)
    (s : Session) : (endScope id result).exec c s
      = (result.bind fun a => (s.scopes.read id).map fun content => (a, content),
          { s with scopes := s.scopes.closing id }) := by
  have hread : (Act.outcome (readScope id)).exec c s = (.ok (s.scopes.read id), s) := by
    cases hcontent : s.scopes.read id with
    | error fault => simp [Act.exec, Act.outcome, readScope, onScopes, hcontent, Except.map]
    | ok content => simp [Act.exec, Act.outcome, readScope, onScopes, hcontent, Except.map]
  have hclose : (closeScope id).exec c s = (.ok (), { s with scopes := s.scopes.closing id }) := rfl
  unfold endScope
  rw [Act.exec_bind_of_ok hread, Act.exec_bind_of_ok hclose]
  cases result with
  | error fault => rfl
  | ok a => cases s.scopes.read id <;> rfl

namespace Move

variable {m : Move} {s : Session} {id : ScopeId} {cell : Cell}

theorem step_ends_eq (id : ScopeId) (result : Except Fault Value) (s : Session) :
    (ends id result).step s
      = (result.bind fun v => (s.scopes.read id).map fun content => .yielded v content.graph?,
          { s with scopes := s.scopes.closing id }) := by
  unfold step act
  rw [Act.exec_bind, Session.exec_endScope]
  cases result with
  | error fault => rfl
  | ok v => cases s.scopes.read id <;> rfl

/-- What code in the context of a scope does there. -/
theorem step_does {c : Context} (hc : c.scope = some id) (op : Operation) (h : s.HasCell id cell) :
    ((does c op).step s).1 = ((does c op).meaning cell).1 ∧
      ((does c op).step s).2.HasCell id ((does c op).meaning cell).2 := by
  have hdoes := op.does_act c cell.shown
  have hstep : (does c op).step s = op.act.exec c s := rfl
  rw [hstep]
  unfold meaning
  dsimp only
  cases heffect : op.effect c cell.shown with
  | error fault =>
    rw [heffect] at hdoes
    obtain ⟨s', hexec, htable⟩ := hdoes s (h.shows hc)
    rw [hexec]
    exact ⟨rfl, h.congr (congrArg (·[id]?) htable)⟩
  | ok made =>
    obtain ⟨reply, v⟩ := made
    rw [heffect] at hdoes
    obtain ⟨s', hexec, hshows⟩ := hdoes s (h.shows hc)
    obtain ⟨g, g', hshown, rfl⟩ := Operation.effect_eq_ok heffect
    rw [hexec]
    refine ⟨rfl, ?_⟩
    have hopen : cell.isOpen = true := by
      cases hopen : cell.isOpen with
      | true => rfl
      | false => simp [Cell.shown, hopen] at hshown
    obtain ⟨id', r, hid, hget, hr⟩ := hshows
    obtain rfl := Option.some.inj (hc.symm.trans hid)
    exact ⟨r, by rw [hopen]; exact hget, hr⟩

/-- What the end of a body comes to there. -/
theorem step_ends (result : Except Fault Value) (h : s.HasCell id cell) :
    ((ends id result).step s).1 = ((ends id result).meaning cell).1 ∧
      ((ends id result).step s).2.HasCell id ((ends id result).meaning cell).2 := by
  obtain ⟨graph, isOpen⟩ := cell
  obtain ⟨r, hget, rfl⟩ := h
  have hread : s.scopes.read id = if isOpen then .ok (.graph r) else .error .noScope := by
    rw [Scopes.read, hget]
    rfl
  rw [step_ends_eq, hread]
  refine ⟨?_, r, ?_, rfl⟩
  · cases result with
    | error fault => rfl
    | ok v => cases isOpen <;> rfl
  · simp [Scopes.get?_closing, hget, ContextScope.close, meaning]

/-- What is given out in the end is the graph of the scope. -/
theorem graph_of_yielded {result : Except Fault Value} {v : Value} {g : Option Graph}
    (h : ((ends id result).meaning cell).1 = .ok (.yielded v g)) : some cell.graph = g := by
  obtain ⟨graph, isOpen⟩ := cell
  cases result with
  | error fault => exact nomatch h
  | ok w =>
    cases isOpen with
    | false => exact nomatch h
    | true => exact (Reply.yielded.inj (Except.ok.inj h)).2

/-- **A move at a scope comes to what it means there**, whatever other scopes there are. -/
theorem step_own (hm : m.scope? = some id) (h : s.HasCell id cell) :
    (m.step s).1 = (m.meaning cell).1 ∧ (m.step s).2.HasCell id (m.meaning cell).2 := by
  cases m with
  | opens initial => exact nomatch hm
  | does c op => exact step_does hm op h
  | ends id' result =>
    obtain rfl := Option.some.inj hm
    exact step_ends result h

/-- **A move elsewhere leaves a scope alone.** -/
theorem step_other (hm : m.scope? ≠ some id) {scope : ContextScope}
    (hget : s.scopes.get? id = some scope) : (m.step s).2.scopes.get? id = some scope := by
  cases m with
  | opens initial =>
    have hlt : id < s.scopes.table.length := (List.getElem?_eq_some_iff.mp hget).1
    have hopened : ((opens initial).step s).2.scopes.get? id
        = (s.scopes.table ++ [ContextScope.start (.graph initial)])[id]? := rfl
    rw [hopened, List.getElem?_append_left hlt]
    exact hget
  | does c op => exact (op.confined_act c s id hm).trans hget
  | ends id' result =>
    have hne : id' ≠ id := fun h => hm (congrArg some h)
    rw [step_ends_eq]
    simp [Scopes.get?_closing, hne, hget]

end Move

/-! ## 5. Schedules -/

section Schedules

variable {s : Session} {id : ScopeId} {cell : Cell}

/-- **What the moves of one scope are answered** is told by these moves and by that scope alone. -/
theorem answersOf_eq (moves : List Move) (h : s.HasCell id cell) :
    answersOf id moves s = cell.answers (movesAt id moves) := by
  induction moves generalizing s cell with
  | nil => rfl
  | cons m rest ih =>
    unfold answersOf movesAt
    by_cases hm : m.scope? = some id
    · obtain ⟨hreply, hcell⟩ := Move.step_own hm h
      rw [if_pos hm, List.filter_cons_of_pos (by simpa using hm), Cell.answers, hreply]
      exact congrArg _ (ih hcell)
    · obtain ⟨r, hget, hr⟩ := h
      rw [if_neg hm, List.filter_cons_of_neg (by simpa using hm)]
      exact ih ⟨r, Move.step_other hm hget, hr⟩

/-- **And so is the graph that they leave there**. -/
theorem cell_play (moves : List Move) (h : s.HasCell id cell) :
    (play moves s).HasCell id (cell.after (movesAt id moves)) := by
  induction moves generalizing s cell with
  | nil => exact h
  | cons m rest ih =>
    unfold movesAt
    by_cases hm : m.scope? = some id
    · rw [List.filter_cons_of_pos (by simpa using hm)]
      exact ih (Move.step_own hm h).2
    · obtain ⟨r, hget, hr⟩ := h
      rw [List.filter_cons_of_neg (by simpa using hm)]
      exact ih ⟨r, Move.step_other hm hget, hr⟩

/-- A scope that no move is about stays as it is. -/
theorem get?_play {moves : List Move} {scope : ContextScope}
    (hmoves : ∀ m ∈ moves, m.scope? ≠ some id) (hget : s.scopes.get? id = some scope) :
    (play moves s).scopes.get? id = some scope := by
  induction moves generalizing s with
  | nil => exact hget
  | cons m rest ih =>
    have hstep := Move.step_other (hmoves m List.mem_cons_self) hget
    exact ih (fun m' hm' => hmoves m' (List.mem_cons_of_mem m hm')) hstep

theorem Cell.answers_map_relocated (moves : List Move) (id : ScopeId) (cell : Cell) :
    cell.answers (moves.map (·.relocated id)) = cell.answers moves := by
  induction moves generalizing cell with
  | nil => rfl
  | cons m rest ih => simp only [List.map_cons, Cell.answers, Move.meaning_relocated, ih]

theorem Cell.after_map_relocated (moves : List Move) (id : ScopeId) (cell : Cell) :
    cell.after (moves.map (·.relocated id)) = cell.after moves := by
  induction moves generalizing cell with
  | nil => rfl
  | cons m rest ih =>
    simp only [Cell.after, List.map_cons, List.foldl_cons, Move.meaning_relocated] at ih ⊢
    exact ih _

/-- By itself a scope has its own moves only. -/
theorem movesAt_ownMoves (id : ScopeId) (moves : List Move) :
    movesAt 0 (ownMoves id moves) = ownMoves id moves := by
  refine List.filter_eq_self.mpr fun m hm => ?_
  obtain ⟨m', hm', rfl⟩ := List.mem_map.mp hm
  have hscope : m'.scope? = some id := by simpa using (List.mem_filter.mp hm').2
  cases m' with
  | opens initial => exact nomatch hscope
  | does c op => rfl
  | ends _ result => rfl

/-- **A scope in any schedule is a scope by itself**: the answers to its moves, and its graph. -/
theorem scope_by_itself {r : Revision} {isOpen : Bool} (hget : s.scopes.get? id = some ⟨.graph r, isOpen⟩)
    (moves : List Move) :
    answersOf id moves s = answersOf 0 (ownMoves id moves) (.sole r isOpen) ∧
      (play moves s).scopes.graphAt? id
        = (play (ownMoves id moves) (.sole r isOpen)).scopes.graphAt? 0 := by
  let cell : Cell := ⟨r.graph, isOpen⟩
  have hcell : s.HasCell id cell := ⟨r, hget, rfl⟩
  have hsole : (Session.sole r isOpen).HasCell 0 cell := ⟨r, rfl, rfl⟩
  refine ⟨?_, ?_⟩
  · rw [answersOf_eq moves hcell, answersOf_eq _ hsole, movesAt_ownMoves, ownMoves,
      Cell.answers_map_relocated]
  · rw [(cell_play moves hcell).graphAt?, (cell_play _ hsole).graphAt?, movesAt_ownMoves, ownMoves,
      Cell.after_map_relocated]

/-- A scope that is not open stays as it is. -/
theorem Cell.after_of_shut (moves : List Move) (h : cell.isOpen = false) :
    cell.after moves = cell := by
  have meaning_shut : ∀ m : Move, (m.meaning cell).2 = cell := by
    intro m
    obtain ⟨graph, isOpen⟩ := cell
    obtain rfl : isOpen = false := h
    cases m <;> rfl
  induction moves with
  | nil => rfl
  | cons m rest ih =>
    rw [after, List.foldl_cons, meaning_shut]
    exact ih

end Schedules

/-! ## 6. Scopes of strands -/

/-- **A strand in a scope of its own** opens the scope, runs in it, and ends it in the turn after. -/
theorem withScope_eq {α : Type} (initial : Content) (body : Strand Session α) :
    withScope initial body = (do
      let id ← Strand.ofAct (Session.openScope initial)
      let result ← Strand.outcome (Strand.after (Strand.inside (·.within id) body))
      Strand.ofAct (Session.endScope id result)) := by
  have hend : ∀ (id : ScopeId) (result : Except Fault α), (do
      let final ← Strand.outcome (Strand.onSession (Session.readScope id))
      Strand.onSession (Session.closeScope id)
      let a ← Strand.ofExcept result
      let content ← Strand.ofExcept final
      return (a, content) : Strand Session (α × Content)) = Strand.ofAct (Session.endScope id result) := by
    intro id result
    have hsession : ∀ {β : Type} (a : Act Session β),
        (Strand.onSession a : Strand Session β) = Strand.ofAct a := fun _ => rfl
    have hpure : ∀ made : α × Content,
        (pure made : Strand Session (α × Content)) = Strand.ofAct (pure made) := fun _ => rfl
    simp only [hsession, hpure, Strand.outcome_ofAct, Strand.ofExcept, Strand.ofAct_bind]
    rfl
  unfold withScope
  simp only [hend]
  rfl

/-! ## 7. Isolation -/

/-- A scope is opened behind all others. -/
theorem exec_openScope {initial : Content} {c : Context} {s opened : Session} {id : ScopeId}
    (h : (Session.openScope initial).exec c s = (.ok id, opened)) :
    opened.scopes.get? id = some (.start initial) ∧
      ∀ other scope, s.scopes.get? other = some scope → opened.scopes.get? other = some scope := by
  obtain ⟨hid, rfl⟩ := Prod.mk.inj h
  obtain rfl := Except.ok.inj hid
  refine ⟨List.getElem?_concat_length, fun other scope hget => ?_⟩
  exact (List.getElem?_append_left (List.getElem?_eq_some_iff.mp hget).1).trans hget

/-- **Scopes are isolated.**  Let a scope be opened on a graph, from wherever and among whatever other
scopes, and let any schedule follow: moves in the context of this scope, of others, and of scopes that
are opened on the way, and bodies that end.

* The moves of the scope are answered, and its graph becomes, what they are answered and it becomes when
  they are made by themselves in a session that has no other scope.
* Once the body of the scope has ended, with a result or with an error, everything that is still tried
  through the scope is refused, whatever else happens, and its graph stays the one that was given out.
* The same as of the new scope holds of every scope that was there before, as the one around it: its
  answers and its graph are told by its own moves.
* So a scope without moves of its own stays as it was when the new one was opened.
* Running a strand in a scope of its own is such a schedule: the scope is opened, the strand runs in its
  context, and in the turn after its last the scope is ended. -/
theorem scopes_are_isolated {initial : Revision} {c : Context} {s opened : Session} {id : ScopeId}
    (hopen : (Session.openScope (.graph initial)).exec c s = (.ok id, opened)) (moves : List Move) :
    (answersOf id moves opened = answersOf 0 (ownMoves id moves) (.sole initial true) ∧
      (play moves opened).scopes.graphAt? id
        = (play (ownMoves id moves) (.sole initial true)).scopes.graphAt? 0) ∧
    (∀ result late,
      (play (moves ++ .ends id result :: late) opened).scopes.graphAt? id
        = (play moves opened).scopes.graphAt? id ∧
      (∀ v g, ((Move.ends id result).step (play moves opened)).1 = .ok (.yielded v g) →
        (play moves opened).scopes.graphAt? id = g) ∧
      ∀ (c : Context) (op : Operation), c.scope = some id →
        (op.act.exec c (play (moves ++ .ends id result :: late) opened)).1 = .error .noScope) ∧
    (∀ outer r isOpen, s.scopes.get? outer = some ⟨.graph r, isOpen⟩ →
      answersOf outer moves opened = answersOf 0 (ownMoves outer moves) (.sole r isOpen) ∧
      (play moves opened).scopes.graphAt? outer
        = (play (ownMoves outer moves) (.sole r isOpen)).scopes.graphAt? 0) ∧
    (∀ outer scope, s.scopes.get? outer = some scope → (∀ m ∈ moves, m.scope? ≠ some outer) →
      (play moves opened).scopes.get? outer = some scope) ∧
    ∀ (α : Type) (body : Strand Session α), withScope (.graph initial) body = (do
      let id ← Strand.ofAct (Session.openScope (.graph initial))
      let result ← Strand.outcome (Strand.after (Strand.inside (·.within id) body))
      Strand.ofAct (Session.endScope id result)) := by
  obtain ⟨hnew, hothers⟩ := exec_openScope hopen
  refine ⟨scope_by_itself hnew moves, fun result late => ?_,
    fun outer r isOpen hget => scope_by_itself (hothers outer _ hget) moves,
    fun outer scope hget hmoves => get?_play hmoves (hothers outer scope hget),
    fun α body => withScope_eq _ body⟩
  -- The scope when its body ends, and at the end of the schedule.
  obtain ⟨cell, hcell⟩ : ∃ cell, (play moves opened).HasCell id cell :=
    ⟨_, cell_play moves (⟨initial, hnew, rfl⟩ : opened.HasCell id ⟨initial.graph, true⟩)⟩
  obtain ⟨hyield, hended⟩ := Move.step_ends result hcell
  have hlate : (play (moves ++ .ends id result :: late) opened).HasCell id
      { cell with isOpen := false } := by
    have hplay := cell_play late hended
    rw [Cell.after_of_shut _ rfl] at hplay
    rwa [play, List.foldl_append, List.foldl_cons]
  refine ⟨?_, fun v g hg => ?_, fun c op hc => ?_⟩
  · rw [hlate.graphAt?, hcell.graphAt?]
  · rw [hyield] at hg
    rw [hcell.graphAt?]
    exact Move.graph_of_yielded hg
  · have hdoes := op.does_act c none
    obtain ⟨s', hexec, -⟩ := hdoes _ (hlate.shows hc)
    rw [hexec]

/-- A scope inside another one: it is written to, the other one is written to and read, the body of the
inner one fails, and code that has caught it writes to it once more. -/
def nestedMoves : List Move := [
  .does ⟨some 1, none, []⟩ (.update fun _ => .ok Session.namedGraph),
  .does ⟨some 0, none, []⟩ (.update fun _ => .ok Session.exchangedGraph),
  .does ⟨some 1, none, []⟩ .read,
  .ends 1 (.error (.error "boom")),
  .does ⟨some 1, none, []⟩ (.update fun _ => .ok Session.exchangedGraph),
  .does ⟨some 0, none, []⟩ .read]

/-- The session in which the inner scope is opened. -/
def nestedSession : Session :=
  ((Session.openScope (.graph (.first 0 Graph.empty))).exec ⟨some 0, none, []⟩
    (.sole (.first 0 Graph.empty) true)).2

theorem isolated_nestedMoves :
    (Session.openScope (.graph (.first 0 Graph.empty))).exec ⟨some 0, none, []⟩
      (.sole (.first 0 Graph.empty) true) = (.ok 1, nestedSession) ∧
    answersOf 1 nestedMoves nestedSession = [.ok (.graph (some Session.namedGraph)),
      .ok (.graph (some Session.namedGraph)), .error (.error "boom"), .error .noScope] ∧
    (play nestedMoves nestedSession).scopes.graphAt? 1 = some Session.namedGraph ∧
    (play nestedMoves nestedSession).scopes.graphAt? 0 = some Session.exchangedGraph := by
  have hopen : (Session.openScope (.graph (.first 0 Graph.empty))).exec ⟨some 0, none, []⟩
      (.sole (.first 0 Graph.empty) true) = (.ok 1, nestedSession) := rfl
  obtain ⟨⟨hanswers, hgraph⟩, -, houter, -⟩ := scopes_are_isolated hopen nestedMoves
  obtain ⟨-, hgraph'⟩ := houter 0 (.first 0 Graph.empty) true rfl
  exact ⟨hopen, hanswers.trans rfl, hgraph.trans rfl, hgraph'.trans rfl⟩

end ConfGraph
