import ConfGraph.Proofs.Script.Keeping
import ConfGraph.Proofs.Script.Run

/-!
# Scripts that require in two ways

What a script does depends on what `require` does for it, and on nothing else that could differ.  If two
ways of requiring do the same in all states with a property, and keep it, then so do the two runs of any
script with them.

* `SameOn`: two acts that do the same in all states with a property, which they keep.
* `Robust.sameOn`: what a script does without requiring.
* `Runtime.sameOn_eval`, `Runtime.sameOn_runStmt`: expressions and statements.
* `sameOn_evaluate`: whole programs.
-/

namespace ConfGraph.Script

variable {σ α β : Type} {Q : σ → Prop}

/-! ## 1. Two acts -/

/-- **Two acts that do the same** in all states with a property, and keep it. -/
def SameOn (Q : σ → Prop) (a b : Act σ α) : Prop :=
  ∀ c s, Q s → b.exec c s = a.exec c s ∧ Q (a.exec c s).2

/-- Acts that do the same in one state go on with acts that do the same. -/
theorem same_bind {c : Context} {s : σ} {a b : Act σ α} {f g : α → Act σ β}
    (h : b.exec c s = a.exec c s ∧ Q (a.exec c s).2) (hf : ∀ x, SameOn Q (f x) (g x)) :
    (b >>= g).exec c s = (a >>= f).exec c s ∧ Q ((a >>= f).exec c s).2 := by
  obtain ⟨hsame, hQ⟩ := h
  rw [Act.exec_bind, Act.exec_bind, hsame]
  rcases hexec : a.exec c s with ⟨_ | x, s'⟩
  · rw [hexec] at hQ
    exact ⟨rfl, hQ⟩
  · rw [hexec] at hQ
    exact hf x c s' hQ

theorem SameOn.bind {a b : Act σ α} (h : SameOn Q a b) {f g : α → Act σ β}
    (hf : ∀ x, SameOn Q (f x) (g x)) : SameOn Q (a >>= f) (b >>= g) :=
  fun c s hs => same_bind (h c s hs) hf

theorem SameOn.outcome {a b : Act σ α} (h : SameOn Q a b) : SameOn Q (Act.outcome a) (Act.outcome b) := by
  intro c s hs
  obtain ⟨hsame, hQ⟩ := h c s hs
  have hexec : ∀ a : Act σ α, (Act.outcome a).exec c s = (.ok (a.exec c s).1, (a.exec c s).2) :=
    fun _ => rfl
  rw [hexec, hexec, hsame]
  exact ⟨rfl, hQ⟩

theorem SameOn.inside {a b : Act σ α} (h : SameOn Q a b) (f : Context → Context) :
    SameOn Q (Act.inside f a) (Act.inside f b) := fun c s hs => h (f c) s hs

variable [HasHeap σ]

theorem sameOn_getHeap : SameOn Q (getHeap : Act σ Heap) getHeap := fun _ _ hs => ⟨rfl, hs⟩

variable [HasSession σ]

/-- A property that neither the heap nor the session has a part in, so that scripts cannot break it by
themselves. -/
structure Robust (Q : σ → Prop) : Prop where
  heap : ∀ s h, Q s → Q (HasHeap.withHeap s h)
  session : ∀ s t, Q s → Q (HasSession.withSession s t)

theorem Robust.tolerant (hQ : Robust Q) : Tolerant (fun _ => True) fun s s' : σ => Q s → Q s' where
  refl _ h := h
  trans h h' hs := h' (h hs)
  heap s h := hQ.heap s h
  session _ _ s := hQ.session s _
  invoke _ _ _ s := hQ.session s _

/-- A runtime that can neither require nor force anything. -/
def Runtime.idle : Runtime σ := ⟨fun _ _ => Act.fail .tooDeep, fun _ _ => Act.fail .tooDeep⟩

theorem Runtime.composed_idle {P : DslFunction → Prop} {G : (α : Type) → Act σ α → Prop} :
    (Runtime.idle : Runtime σ).Composed P G := ⟨fun _ _ => .fail _, fun _ _ => .fail _⟩

theorem Callable.only_true (c : Callable) : c.Only fun _ => True := by
  cases c <;> exact trivial

variable [LawfulState σ]

/-- **What a script does without requiring** keeps the property. -/
theorem Robust.sameOn (hQ : Robust Q) {a : Act σ α}
    (ha : Composed (fun _ => True) (fun _ _ => False) a) : SameOn Q a a := by
  have hkeeps : Keeps (fun _ => True) (fun s s' => Q s → Q s') a :=
    ha.keeps hQ.tolerant fun _ _ h => h.elim
  exact fun c s hs => ⟨rfl, (hkeeps c s (Heap.only_of_forall (fun _ => trivial) _)).2 hs⟩

/-! ## 2. Calls -/

namespace Runtime

/-- Two runtimes that do the same. -/
structure Alike (Q : σ → Prop) (rt rt' : Runtime σ) : Prop where
  require : ∀ who d, SameOn Q (rt.require who d) (rt'.require who d)
  force : ∀ p e, SameOn Q (rt.force p e) (rt'.force p e)

variable {rt rt' : Runtime σ}

theorem sameOn_apply (hQ : Robust Q) (hrt : rt.Alike Q rt') (c : Callable) (args : List Datum) :
    SameOn Q (rt.apply c args) (rt'.apply c args) := by
  have hidle : SameOn Q (idle.apply c args) (idle.apply c args) :=
    hQ.sameOn (composed_apply composed_idle c.only_true args)
  cases c with
  | require who => exact hrt.require who _
  | thunk place result => exact hrt.force place result
  | _ => exact hidle

/-- **Calls.** -/
theorem sameOn_call (hQ : Robust Q) (hrt : rt.Alike Q rt') (c : Callable) (args : List Datum) :
    SameOn Q (rt.call c args) (rt'.call c args) := by
  have happly := sameOn_apply hQ hrt
  have hself := happly c args
  cases c with
  | update =>
    refine (hQ.sameOn (.session .activeScope)).bind fun id => ?_
    refine (hQ.sameOn (.session (.readScope id))).bind fun _ => ?_
    refine (hQ.sameOn (composed_contentDatum _)).bind fun d => SameOn.bind ?_ fun next => ?_
    · refine sameOn_getHeap.bind fun h => ?_
      split
      · exact (happly _ _).inside _
      · exact hQ.sameOn (.fail _)
    · refine (hQ.sameOn (composed_contentOf next)).bind fun _ => ?_
      exact (hQ.sameOn (.session (.overwrite _ _))).bind fun _ => hQ.sameOn (.pure _)
  | _ => exact hself

theorem sameOn_callNamed (hQ : Robust Q) (hrt : rt.Alike Q rt') (name : String) (f : Datum)
    (args : List Datum) : SameOn Q (rt.callNamed name f args) (rt'.callNamed name f args) := by
  refine sameOn_getHeap.bind fun h => ?_
  split
  · exact hQ.sameOn (.fail _)
  · exact hQ.sameOn (.fail _)
  · exact sameOn_call hQ hrt _ args

/-! ## 3. Expressions -/

mutual

/-- **Evaluating an expression.** -/
theorem sameOn_eval (hQ : Robust Q) (hrt : rt.Alike Q rt') : ∀ (e : Expr) (p : Place),
    SameOn Q (eval rt p e) (eval rt' p e)
  | .undefined, p | .null, p | .bool _, p | .num _, p | .str _, p => by
    rw [eval, eval]
    exact hQ.sameOn (.pure _)
  | .list items, p => by
    rw [eval, eval]
    exact (sameOn_evalAll hQ hrt items _).bind fun _ =>
      hQ.sameOn (Standard.composed_newCell (by trivial))
  | .record entries, p => by
    rw [eval, eval]
    exact (sameOn_evalEntries hQ hrt entries _).bind fun _ =>
      hQ.sameOn (Standard.composed_newCell (by trivial))
  | .variable name, p => by
    rw [eval, eval]
    exact hQ.sameOn (composed_getVariable p name)
  | .field holder name, p => by
    rw [eval, eval]
    exact (sameOn_eval hQ hrt holder p).bind fun _ => hQ.sameOn (composed_readField _ _ _)
  | .call name args, p => by
    have hargs : ∀ p, SameOn Q (evalAll rt p args) (evalAll rt' p args) := sameOn_evalAll hQ hrt args
    unfold eval
    split
    · next holder _ _ =>
      have hholder : ∀ p, SameOn Q (eval rt p holder) (eval rt' p holder) := fun p =>
        sameOn_eval hQ hrt holder p
      refine (hholder _).bind fun _ => (hQ.sameOn (composed_removeField _ _ _)).bind fun _ => ?_
      exact (hQ.sameOn composed_renewScopes).bind fun _ => hQ.sameOn (.pure _)
    · exact hQ.sameOn (.bind (composed_findVariable p _) fun _ => .pure _)
    · exact hQ.sameOn (.bind (composed_findVariable p _) fun _ => composed_operate _ _)
    · exact (hargs _).bind fun _ => hQ.sameOn (composed_operate _ _)
    · refine (hQ.sameOn (composed_getVariable p name)).bind fun f => (hargs _).bind fun ds => ?_
      exact (sameOn_callNamed hQ hrt name f ds).inside _
  | .identity, p => by
    rw [eval, eval]
    exact hQ.sameOn (composed_anonymous p _)
  | .constantly result, p => by
    rw [eval, eval]
    exact hQ.sameOn (composed_anonymous p _)

theorem sameOn_evalAll (hQ : Robust Q) (hrt : rt.Alike Q rt') : ∀ (es : List Expr) (p : Place),
    SameOn Q (evalAll rt p es) (evalAll rt' p es)
  | [], p => by
    rw [evalAll, evalAll]
    exact hQ.sameOn (.pure _)
  | e :: rest, p => by
    rw [evalAll, evalAll]
    refine (sameOn_eval hQ hrt e p).bind fun _ => ?_
    exact (sameOn_evalAll hQ hrt rest _).bind fun _ => hQ.sameOn (.pure _)

theorem sameOn_evalEntries (hQ : Robust Q) (hrt : rt.Alike Q rt') :
    ∀ (entries : List (String × Expr)) (p : Place),
      SameOn Q (evalEntries rt p entries) (evalEntries rt' p entries)
  | [], p => by
    rw [evalEntries, evalEntries]
    exact hQ.sameOn (.pure _)
  | (name, e) :: rest, p => by
    have hrest : ∀ (d : Datum) (p : Place), SameOn Q
        (do let ds ← evalEntries rt p rest; return (name, d) :: ds)
        (do let ds ← evalEntries rt' p rest; return (name, d) :: ds) := fun d p =>
      (sameOn_evalEntries hQ hrt rest p).bind fun _ => hQ.sameOn (.pure _)
    rw [evalEntries, evalEntries]
    dsimp only
    split
    · next hfunction =>
      refine (hQ.sameOn (composed_makeCell (only_of_functionOf? hfunction))).bind fun _ => ?_
      exact (hQ.sameOn (.pure _)).bind fun d => hrest d _
    · exact (sameOn_eval hQ hrt e _).bind fun d => hrest d _

end

theorem sameOn_evalNamed (hQ : Robust Q) (hrt : rt.Alike Q rt') (p : Place) (name label : String)
    (e : Expr) : SameOn Q (rt.evalNamed p name label e) (rt'.evalNamed p name label e) := by
  unfold evalNamed
  split
  · next hfunction => exact hQ.sameOn (Standard.composed_newCell (only_of_functionOf? hfunction))
  · exact sameOn_eval hQ hrt e p

/-! ## 4. Statements -/

mutual

/-- **Running a statement.** -/
theorem sameOn_runStmt (hQ : Robust Q) (hrt : rt.Alike Q rt') : ∀ (s : Stmt) (p : Place),
    SameOn Q (runStmt rt p s) (runStmt rt' p s)
  | .call name args, p => by
    rw [runStmt, runStmt]
    split
    · exact (sameOn_evalAll hQ hrt args _).bind fun _ => hQ.sameOn (composed_judge _ _)
    · exact (sameOn_eval hQ hrt _ p).bind fun _ => hQ.sameOn (.pure _)
  | .assign name value, p => by
    rw [runStmt, runStmt]
    exact (sameOn_evalNamed hQ hrt _ _ _ _).bind fun _ => hQ.sameOn (composed_setVariable _ _ _)
  | .attempt body result, p => by
    rw [runStmt, runStmt]
    refine (hQ.sameOn (composed_setVariable _ _ _)).bind fun _ => ?_
    refine (sameOn_runStmts hQ hrt body _).outcome.bind fun r => ?_
    split
    · exact hQ.sameOn (.pure _)
    · exact hQ.sameOn (composed_assignCaught _ _ _)
  | .raise message, p => by
    rw [runStmt, runStmt]
    exact hQ.sameOn (.fail _)
  | .raiseValue value, p => by
    rw [runStmt, runStmt]
    exact (sameOn_eval hQ hrt value _).bind fun _ => hQ.sameOn (.bind (composed_faultOf _) fun _ => .fail _)
  | .pause, p | .blank, p => by
    rw [runStmt, runStmt]
    exact hQ.sameOn (.pure _)
  | .provide name value, p => by
    rw [runStmt, runStmt]
    refine (hQ.sameOn (composed_getVariable p _)).bind fun _ => ?_
    exact (sameOn_evalNamed hQ hrt _ _ _ _).bind fun _ => hQ.sameOn (composed_assignField _ _ _ _)
  | .provideAll value, p => by
    rw [runStmt, runStmt]
    refine (hQ.sameOn (composed_getVariable p _)).bind fun _ => ?_
    exact (sameOn_evalNamed hQ hrt _ _ _ _).bind fun _ => hQ.sameOn (composed_assignField _ _ _ _)
  | .increase name key amount, p => by
    rw [runStmt, runStmt]
    refine (hQ.sameOn (composed_getVariable p _)).bind fun _ => ?_
    refine hQ.sameOn (.bind (composed_readField _ _ _) fun _ => ?_)
    refine .bind (composed_valueOf _) fun _ => .bind (composed_ofExcept _) fun _ => ?_
    exact .bind (composed_adopt _) fun _ => composed_assignField _ _ _ _

theorem sameOn_runStmts (hQ : Robust Q) (hrt : rt.Alike Q rt') : ∀ (body : List Stmt) (p : Place),
    SameOn Q (runStmts rt p body) (runStmts rt' p body)
  | [], p => by
    rw [runStmts, runStmts]
    exact hQ.sameOn (.pure _)
  | s :: rest, p => by
    rw [runStmts, runStmts]
    exact (sameOn_runStmt hQ hrt s p).bind fun _ => sameOn_runStmts hQ hrt rest _

end

theorem sameOn_runBody (hQ : Robust Q) (hrt : rt.Alike Q rt') (p : Place) : ∀ body : List (Spot × Stmt),
    SameOn Q (runBody rt p body) (runBody rt' p body)
  | [] => hQ.sameOn (.pure _)
  | (_, s) :: rest => (sameOn_runStmt hQ hrt s _).bind fun _ => sameOn_runBody hQ hrt p rest

end Runtime

/-! ## 5. Programs -/

section Programs

variable (hQ : Robust Q) {require require' : Requirer → Datum → Act σ Datum}
  (hrequire : ∀ who d, SameOn Q (require who d) (require' who d))
include hQ hrequire

theorem alike_runtimeWithin : ∀ depth : Nat,
    (runtimeWithin require depth).Alike Q (runtimeWithin require' depth)
  | 0 => ⟨hrequire, fun _ _ => hQ.sameOn (.fail _)⟩
  | depth + 1 => ⟨hrequire, fun p e => Runtime.sameOn_eval hQ (alike_runtimeWithin depth) e p⟩

/-- **Running a program** that requires in two ways which do the same. -/
theorem sameOn_evaluate (c : Code) : SameOn Q (evaluate require c) (evaluate require' c) :=
  (hQ.sameOn (composed_enter c)).bind fun p =>
    Runtime.sameOn_runBody hQ (alike_runtimeWithin hQ hrequire callDepth) p _

end Programs

end ConfGraph.Script
