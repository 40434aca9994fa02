import ConfGraph.Dsl.Samples
import ConfGraph.Proofs.Dsl.Builtin
import ConfGraph.Proofs.Scope.Growing

/-!
# Orderly DSL functions

A DSL function is orderly if its body changes graphs only by transactions and by calls of orderly
functions, whatever it reads, catches and decides on the way.  The built-in functions are orderly, and
an orderly function lets the graphs of all scopes grow.

* `Act.Orderly`: acts that change graphs only by transactions and orderly functions.
* `DslFunction.Orderly`: functions with orderly bodies.
* `DslFunction.Orderly.growing`: their calls let graphs grow.
* `orderly_builtins`, `orderly_catalogue`: the built-in functions are orderly, and so are functions that
  a host makes of them.
-/

namespace ConfGraph

/-- **Acts that change graphs only by transactions** and by calls of orderly functions. -/
inductive Act.Orderly : {α : Type} → Act Session α → Prop where
  | pure {α : Type} (x : α) : Orderly (pure x)
  | fail {α : Type} (f : Fault) : Orderly (Act.fail f : Act Session α)
  | bind {α β : Type} {a : Act Session α} {f : α → Act Session β} (ha : Orderly a)
      (hf : ∀ x, Orderly (f x)) : Orderly (a >>= f)
  | outcome {α : Type} {a : Act Session α} (ha : Orderly a) : Orderly (Act.outcome a)
  | context : Orderly (Act.context : Act Session Context)
  | currentContent : Orderly Session.currentContent
  | transact (ops tempId : Value) : Orderly (Session.transact ops tempId)
  | resolveId (id : Value) : Orderly (Session.resolveId id)
  | invoke {f : DslFunction} (hf : ∀ args body, f.prepare args = .ok body → Orderly body)
      (args : List Value) : Orderly (f.invoke args)

/-- **Functions whose bodies are orderly**, whatever the arguments. -/
def DslFunction.Orderly (f : DslFunction) : Prop :=
  ∀ args body, f.prepare args = .ok body → body.Orderly

/-! ## 1. Growth -/

theorem Session.growing_unaware {α : Type} {a : Act Session α} (ha : a.Growing) :
    (unaware a).Growing := by
  intro c s
  obtain ⟨new, hevents, hgrow⟩ := ha c ⟨s.scopes, []⟩
  rw [exec_unaware]
  refine ⟨new, ?_, hgrow⟩
  dsimp only
  rw [hevents, List.nil_append]

/-- A call lets graphs grow if its body does. -/
theorem DslFunction.growing_invoke {f : DslFunction}
    (hf : ∀ args body, f.prepare args = .ok body → body.Growing) (args : List Value) :
    (f.invoke args).Growing := by
  intro c s
  cases hprepare : f.prepare args with
  | error issues =>
    rw [exec_invoke_of_error c s hprepare]
    exact Session.growth_refl s
  | ok body =>
    let s' : Session := ⟨s.scopes.issue.2, s.events ++ [.dslInvoked f.signature.qualifiedName]⟩
    have hcalled : s.Growth s' :=
      ⟨[.dslInvoked f.signature.qualifiedName], rfl, fun _ => Scopes.grow_of_graphAt? fun _ _ hg => hg⟩
    rw [exec_invoke_of_ok c s hprepare]
    exact hcalled.trans (Session.growing_unaware (hf args body hprepare) _ s')

/-- **Orderly acts let graphs grow.** -/
theorem Act.Orderly.growing {α : Type} {a : Act Session α} (h : a.Orderly) : a.Growing := by
  induction h with
  | pure x => exact growing_pure x
  | fail f => exact growing_ofExcept (.error f)
  | bind _ _ iha ihf => exact iha.bind ihf
  | outcome _ ih => exact fun c s => ih c s
  | context => exact Session.growing_context
  | currentContent => exact Session.growing_currentContent
  | transact ops tempId => exact Session.growing_transact ops tempId
  | resolveId id => exact Session.growing_resolveId id
  | invoke _ args ih => exact DslFunction.growing_invoke ih args

/-- **Calls of orderly functions let graphs grow.** -/
theorem DslFunction.Orderly.growing {f : DslFunction} (hf : f.Orderly) (args : List Value) :
    (f.invoke args).Growing :=
  growing_invoke (fun args body hbody => (hf args body hbody).growing) args

/-! ## 2. Built-in functions -/

theorem DslFunction.orderly_builtin {α : Type} {qualifier name doc : String}
    {shape : List Value → Checked α} {body : α → Act Session Value} (h : ∀ x, (body x).Orderly) :
    (builtin qualifier name doc shape body).Orderly := by
  intro args made hmade
  obtain ⟨x, -, rfl⟩ : ∃ x, shape args = .ok x ∧ body x = made := by
    have hmap : (shape args).map body = .ok made := hmade
    cases hshape : shape args with
    | error issues =>
      rw [hshape] at hmap
      exact nomatch hmap
    | ok x =>
      rw [hshape] at hmap
      exact ⟨x, rfl, Except.ok.inj hmap⟩
  exact h x

/-- **The built-in functions are orderly.** -/
theorem orderly_builtins : ∀ f ∈ Dsl.builtins, f.Orderly := by
  intro f hf
  simp only [Dsl.builtins, List.mem_cons, List.not_mem_nil, or_false] at hf
  rcases hf with rfl | rfl | rfl
  · refine DslFunction.orderly_builtin fun x => ?_
    exact .bind (.bind (.transact _ _) fun _ => .pure _) fun _ =>
      .bind (.resolveId _) fun _ => .pure _
  · exact DslFunction.orderly_builtin fun id => .bind (.resolveId _) fun _ => .pure _
  · refine DslFunction.orderly_builtin fun x => ?_
    exact .bind (.resolveId _) fun _ => .bind (.transact _ _) fun _ => .pure _

/-! ## 3. Functions of hosts -/

theorem Session.orderly_perform (ops : List TxOp) : (perform ops).Orderly :=
  .bind (.transact _ _) fun _ => .pure ()

theorem orderly_server : Dsl.server.Orderly :=
  DslFunction.orderly_builtin fun _ => .bind (Session.orderly_perform _) fun _ =>
    .bind (.resolveId _) fun _ => .pure _

/-- The functions of a host that are made of transactions and calls of each other are orderly. -/
theorem orderly_catalogue : ∀ f ∈ Dsl.catalogue, f.2.Orderly := by
  have hentity : Dsl.entity ∈ Dsl.builtins := List.mem_cons_self
  have href : Dsl.ref ∈ Dsl.builtins := List.mem_cons_of_mem _ List.mem_cons_self
  have hsetAttr : Dsl.setAttr ∈ Dsl.builtins :=
    List.mem_cons_of_mem _ (List.mem_cons_of_mem _ List.mem_cons_self)
  have hinspect : Dsl.inspect.Orderly := by
    refine DslFunction.orderly_builtin fun _ => .bind .context fun c => ?_
    cases c.annotation <;> exact .pure _
  intro f hf
  simp only [Dsl.catalogue, List.mem_cons, List.not_mem_nil, or_false] at hf
  rcases hf with rfl | rfl | rfl | rfl | rfl | rfl | rfl | rfl | rfl | rfl
  · exact orderly_builtins _ hentity
  · exact orderly_builtins _ href
  · exact orderly_builtins _ hsetAttr
  · exact orderly_server
  · exact DslFunction.orderly_builtin fun _ => .invoke orderly_server _
  · exact DslFunction.orderly_builtin fun _ => .invoke (orderly_builtins _ hsetAttr) _
  · exact DslFunction.orderly_builtin fun _ => .bind .context fun _ => .pure _
  · exact hinspect
  · exact DslFunction.orderly_builtin fun _ =>
      .bind (.invoke (orderly_builtins _ hentity) _) fun _ => .fail _
  · exact DslFunction.orderly_builtin fun _ => .pure _

end ConfGraph
