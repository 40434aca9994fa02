import ConfGraph.Proofs.Dsl.Builtin
import ConfGraph.Proofs.Script.Composed

/-!
# Nobody sees events

Code notes events and never asks for them.  What it comes to, and what it makes of the scopes, is the
same whatever has been noted before.

* `Act.Blind`: acts that do not see the events so far.
* `Session.Elementary.blind`: what scripts do to a session.
* `DslFunction.blind_invoke`: calls of DSL functions, whatever their bodies do.
-/

namespace ConfGraph

/-- **An act does not see the events so far**: with the same scopes it comes to the same outcome, and
leaves the same scopes. -/
def Act.Blind {α : Type} (a : Act Session α) : Prop :=
  ∀ (c : Context) (s t : Session), s.scopes = t.scopes →
    (a.exec c s).1 = (a.exec c t).1 ∧ (a.exec c s).2.scopes = (a.exec c t).2.scopes

namespace Act

variable {α β : Type}

theorem Blind.bind {a : Act Session α} (ha : a.Blind) {f : α → Act Session β}
    (hf : ∀ x, (f x).Blind) : (a >>= f).Blind := by
  intro c s t hscopes
  obtain ⟨houtcome, hleft⟩ := ha c s t hscopes
  rw [exec_bind, exec_bind]
  rcases hs : a.exec c s with ⟨r, s'⟩
  rcases ht : a.exec c t with ⟨r', t'⟩
  rw [hs, ht] at houtcome hleft
  obtain rfl : r = r' := houtcome
  cases r with
  | error f => exact ⟨rfl, hleft⟩
  | ok x => exact hf x c s' t' hleft

theorem blind_ofExcept (r : Except Fault α) : (ofExcept r : Act Session α).Blind :=
  fun _ _ _ hscopes => ⟨rfl, hscopes⟩

theorem blind_pure (x : α) : (pure x : Act Session α).Blind := blind_ofExcept (.ok x)

theorem blind_context : (context : Act Session Context).Blind := fun _ _ _ hscopes => ⟨rfl, hscopes⟩

end Act

namespace Session

open Act

variable {α : Type}

theorem blind_note (e : Log.Event) : (note e).Blind := fun _ _ _ hscopes => ⟨rfl, hscopes⟩

theorem blind_onScopes (f : Scopes → Except Fault (α × Scopes)) : (onScopes f).Blind := by
  intro c s t hscopes
  unfold Act.exec onScopes
  rw [← hscopes]
  cases f s.scopes with
  | error fault => exact ⟨rfl, hscopes⟩
  | ok made => exact ⟨rfl, rfl⟩

theorem blind_activeScope : activeScope.Blind := by
  intro c s t hscopes
  unfold Act.exec activeScope
  cases c.scope <;> exact ⟨rfl, hscopes⟩

theorem blind_currentContent : currentContent.Blind :=
  blind_activeScope.bind fun _ => blind_onScopes _

theorem blind_applyOps (content : Content) (ops : Value) (who : Option Annotation) :
    (applyOps content ops who).Blind := by
  refine (blind_ofExcept _).bind fun ops => ?_
  unfold applyTo
  split
  · exact blind_pure _
  · exact (blind_onScopes _).bind fun serial => blind_ofExcept _

theorem blind_updateContent {f : Content → Act Session (Content × α)} (hf : ∀ c, (f c).Blind) :
    (updateContent f).Blind :=
  blind_activeScope.bind fun _ => (blind_onScopes _).bind fun content =>
    (hf content).bind fun _ => (blind_onScopes _).bind fun _ => blind_pure _

theorem blind_transact (ops tempId : Value) : (transact ops tempId).Blind := by
  refine blind_context.bind fun c => ?_
  refine (blind_updateContent fun content =>
    (blind_applyOps content ops c.annotation).bind fun _ => blind_pure _).bind fun made => ?_
  cases tempId with
  | undefined => exact blind_pure _
  | _ => exact blind_ofExcept _

theorem blind_resolveId (id : Value) : (resolveId id).Blind := by
  refine blind_currentContent.bind fun content => blind_context.bind fun c => ?_
  refine (blind_ofExcept _).bind fun found => ?_
  have hnobody : (if id.text?.isSome then do
        let basisTx ← Act.ofExcept content.basisTx
        Act.fail (.unresolved basisTx id (c.dslFunction.getD "<unknown>"))
      else Act.fail .noPrimitive : Act Session FoundId).Blind := by
    split
    · exact (blind_ofExcept _).bind fun _ => blind_ofExcept (.error _)
    · exact blind_ofExcept (.error _)
  split
  · exact blind_pure _
  · exact blind_pure _
  · exact hnobody

theorem blind_overwrite (id : ScopeId) (next : Content) : (overwrite id next).Blind :=
  (blind_onScopes _).bind fun _ => (blind_onScopes _).bind fun _ => blind_note _

theorem blind_overwriteAll (f : Content → Content) : (overwriteAll f).Blind :=
  fun _ _ _ hscopes => ⟨rfl, congrArg (·.mapContent f) hscopes⟩

/-- **What scripts do to a session** does not depend on the events so far. -/
theorem Elementary.blind {a : Act Session α} (h : Elementary a) : a.Blind := by
  cases h with
  | currentContent => exact blind_currentContent
  | activeScope => exact blind_activeScope
  | readScope id => exact blind_onScopes _
  | newSerial => exact blind_onScopes _
  | printed name args => exact blind_note _
  | transact ops tempId => exact blind_transact ops tempId
  | resolveId id => exact blind_resolveId id
  | overwrite id next => exact blind_overwrite id next
  | overwriteAll f => exact blind_overwriteAll f

/-- What cannot see the events before is blind to them, whatever it is. -/
theorem blind_unaware (a : Act Session α) : (unaware a).Blind := by
  intro c s t hscopes
  rw [exec_unaware, exec_unaware, hscopes]
  exact ⟨rfl, rfl⟩

end Session

/-- **Calls of DSL functions** do not depend on the events so far, whatever the bodies do. -/
theorem DslFunction.blind_invoke (f : DslFunction) (args : List Value) : (f.invoke args).Blind := by
  intro c s t hscopes
  cases hprepare : f.prepare args with
  | error issues =>
    rw [exec_invoke_of_error c s hprepare, exec_invoke_of_error c t hprepare]
    exact ⟨rfl, hscopes⟩
  | ok body =>
    rw [exec_invoke_of_ok c s hprepare, exec_invoke_of_ok c t hprepare, hscopes]
    exact Session.blind_unaware body _ _ _ rfl

end ConfGraph
