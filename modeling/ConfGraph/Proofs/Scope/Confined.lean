import ConfGraph.Proofs.Scope.Growing

/-!
# Acts that keep to their scope

Code reaches scopes only through its context.  An act that does so leaves every scope but the one in
context as it is, whatever it comes to and whatever it finds.

* `Act.Confined`: acts that leave all scopes alone but the one in context.
* `confined_transact`, `confined_resolveId`, …: the ways to the graph in context.
-/

namespace ConfGraph

namespace Act

variable {α β : Type}

/-- **An act keeps to its scope**: it leaves all others as they are. -/
def Confined (a : Act Session α) : Prop :=
  ∀ (c : Context) (s : Session) (id : ScopeId), c.scope ≠ some id →
    (a.exec c s).2.scopes.get? id = s.scopes.get? id

theorem Confined.bind {a : Act Session α} (ha : a.Confined) {f : α → Act Session β}
    (hf : ∀ x, (f x).Confined) : (a >>= f).Confined := by
  intro c s id hid
  have hfirst := ha c s id hid
  rw [exec_bind]
  rcases hrun : a.exec c s with ⟨fault | x, s'⟩
  · rw [hrun] at hfirst
    exact hfirst
  · rw [hrun] at hfirst
    exact (hf x c s' id hid).trans hfirst

theorem confined_of_table {a : Act Session α}
    (h : ∀ c s, (a.exec c s).2.scopes.table = s.scopes.table) : a.Confined := by
  intro c s id _
  rw [Scopes.get?, h]
  rfl

theorem confined_pure (x : α) : (pure x : Act Session α).Confined := confined_of_table fun _ _ => rfl

theorem confined_ofExcept (r : Except Fault α) : (ofExcept r : Act Session α).Confined :=
  confined_of_table fun _ _ => rfl

theorem confined_context : (context : Act Session Context).Confined := confined_of_table fun _ _ => rfl

end Act

namespace Session

open Act

variable {α : Type}

/-- What only reads the scopes leaves them alone. -/
theorem table_onScopes_read {f : Scopes → Except Fault α} (c : Context) (s : Session) :
    ((onScopes fun s => (f s).map fun a => (a, s)).exec c s).2.scopes.table = s.scopes.table := by
  cases h : f s.scopes with
  | error fault => simp [Act.exec, onScopes, h, Except.map]
  | ok a => simp [Act.exec, onScopes, h, Except.map]

theorem table_currentContent (c : Context) (s : Session) :
    (currentContent.exec c s).2.scopes.table = s.scopes.table := by
  unfold currentContent
  rw [exec_bind]
  rcases hid : c.scope with _ | id
  · rw [exec_activeScope_of_none hid]
  · rw [exec_activeScope hid]
    exact table_onScopes_read c s

theorem confined_currentContent : currentContent.Confined := confined_of_table table_currentContent

theorem confined_resolveId (id : Value) : (resolveId id).Confined := by
  refine confined_currentContent.bind fun content => confined_context.bind fun c => ?_
  refine (confined_ofExcept _).bind fun found => ?_
  have hnobody : (if id.text?.isSome then do
        let basisTx ← Act.ofExcept content.basisTx
        Act.fail (.unresolved basisTx id (c.dslFunction.getD "<unknown>"))
      else Act.fail .noPrimitive : Act Session FoundId).Confined := by
    split
    · exact (confined_ofExcept _).bind fun _ => confined_ofExcept (.error _)
    · exact confined_ofExcept (.error _)
  split
  · exact confined_pure _
  · exact confined_pure _
  · exact hnobody

/-- Replacing what the scope in context holds by what an act makes of it that leaves the scopes
alone. -/
theorem confined_updateContent {f : Content → Act Session (Content × α)}
    (hf : ∀ content c s, ((f content).exec c s).2.scopes.table = s.scopes.table) :
    (updateContent f).Confined := by
  intro c s id hid
  obtain hnone | ⟨own, content, hown, hget⟩ := shows_none_or_open s c
  · rw [exec_updateContent_of_none hnone]
  · have htable := hf content c s
    rw [exec_updateContent_of_open hown hget fun made s₁ hok => by rw [hok] at htable; exact htable]
    rcases hrun : (f content).exec c s with ⟨fault | ⟨next, a⟩, s₁⟩
    · rw [hrun] at htable
      exact congrArg (·[id]?) htable
    · have hne : own ≠ id := fun h => hid (h ▸ hown)
      exact List.getElem?_set_ne hne

/-- **Batches keep to their scope.** -/
theorem confined_transact (ops tempId : Value) : (transact ops tempId).Confined := by
  refine confined_context.bind fun c => Confined.bind ?_ fun made => ?_
  · refine confined_updateContent fun content c' s => ?_
    obtain ⟨-, htable⟩ := exec_applyOps_state content ops c.annotation c' s
    rw [exec_bind]
    rcases hrun : (applyOps content ops c.annotation).exec c' s with ⟨fault | next, s'⟩
    · rw [hrun] at htable
      exact htable
    · rw [hrun] at htable
      exact htable
  · cases tempId with
    | undefined => exact confined_pure _
    | _ => exact confined_ofExcept _

end Session

end ConfGraph
