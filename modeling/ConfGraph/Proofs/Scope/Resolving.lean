import ConfGraph.Proofs.Graph.Naming
import ConfGraph.Proofs.Scope.Act

/-!
# Resolving names in a scope

Code that runs in a scope names entities by their config ids.  In a scope that holds a reachable
graph, resolving a name finds exactly the entity that has it, and fails exactly when there is none;
either way nothing changes.

* `Session.Holds`: the scope in context is open and holds a graph.
* `Session.exec_resolveId`: what resolving a name comes to.
* `resolveId_iff_configId`: resolving and reading config ids agree.
-/

namespace ConfGraph

namespace Session

/-- The scope in context is open and holds a graph. -/
def Holds (s : Session) (c : Context) (g : Graph) : Prop :=
  ∃ id r, c.scope = some id ∧ s.scopes.get? id = some ⟨.graph r, true⟩ ∧ r.graph = g

variable {s : Session} {c : Context} {g : Graph}

theorem exec_currentContent (h : s.Holds c g) :
    ∃ r, r.graph = g ∧ currentContent.exec c s = (.ok (.graph r), s) := by
  obtain ⟨id, r, hscope, hget, hr⟩ := h
  refine ⟨r, hr, ?_⟩
  have hread : s.scopes.read id = .ok (.graph r) := by
    simp [Scopes.read, hget, ContextScope.read]
  unfold currentContent
  rw [Act.exec_bind_of_ok (exec_activeScope hscope)]
  exact exec_onScopes (by rw [hread]; rfl)

/-- The error of a name that no entity has. -/
def unresolved (g : Graph) (c : Context) (name : String) : Fault :=
  .unresolved (.nat g.basisTx) (.str name) (c.dslFunction.getD "<unknown>")

/-- **Resolving a name** is a search for its holder; it changes nothing, found or not. -/
theorem exec_resolveId (h : s.Holds c g) (name : String) :
    (resolveId (.str name)).exec c s =
      ((g.find configId (.str name)).elim (.error (unresolved g c name)) (.ok ∘ .entity), s) := by
  obtain ⟨r, rfl, hcontent⟩ := exec_currentContent h
  unfold resolveId
  rw [Act.exec_bind_of_ok hcontent, Act.exec_bind_of_ok (Act.exec_context c s)]
  cases hfind : r.graph.find configId (.str name) with
  | some e =>
    have hcontentFind : (Content.graph r).find (.str name) = .ok (some (.entity e)) := by
      simp [Content.find, hfind]
    rw [hcontentFind]
    rfl
  | none =>
    have hcontentFind : (Content.graph r).find (.str name) = .ok none := by
      simp [Content.find, hfind, Value.isEndless]
    rw [hcontentFind]
    rfl

/-- **Resolving and reading agree.**  In a scope that holds a reachable graph, a name is resolved to
an entity exactly when that entity has it as its config id, and fails exactly when no entity has it.
A config id is a text in any case, and no two entities share one. -/
theorem resolveId_iff_configId (hg : g.Reachable) (hs : s.Holds c g) :
    (∀ name e, (resolveId (.str name)).exec c s = (.ok (.entity e), s) ↔
        g.attr (.id e) configId = some (.str name)) ∧
      (∀ name, (resolveId (.str name)).exec c s = (.error (unresolved g c name), s) ↔
        ∀ e, g.attr (.id e) configId ≠ some (.str name)) ∧
      (∀ e a, g.attr (.id e) configId = some a → ∃ name, a = .str name) ∧
      ∀ e e' a, g.attr (.id e) configId = some a → g.attr (.id e') configId = some a → e = e' := by
  have attr_iff : ∀ e a, g.attr (.id e) configId = some a ↔
      ∃ attrs, (e, attrs) ∈ g.entities ∧ Fields.get? attrs configId = some a :=
    fun e a => Graph.attr_id_eq_some_iff hg (by decide)
  have texts : ∀ e a, g.attr (.id e) configId = some a → ∃ name, a = .str name := by
    intro e a ha
    obtain ⟨attrs, hmem, hget⟩ := (attr_iff e a).mp ha
    exact hg.named.texts _ hmem _ (Fields.mem_of_get? hget) rfl
  have find_iff : ∀ name e, g.find configId (.str name) = some e ↔
      g.attr (.id e) configId = some (.str name) := by
    intro name e
    rw [attr_iff]
    exact hg.named.findIn_eq_some_iff
  refine ⟨fun name e => ?_, fun name => ?_, texts, fun e e' a ha ha' => ?_⟩
  · rw [exec_resolveId hs, ← find_iff]
    cases g.find configId (.str name) with
    | none => simp
    | some holder => simp
  · rw [exec_resolveId hs]
    simp only [ne_eq, ← find_iff]
    cases g.find configId (.str name) with
    | none => simp
    | some holder => simp
  · obtain ⟨name, rfl⟩ := texts e a ha
    obtain ⟨attrs, hmem, hget⟩ := (attr_iff e _).mp ha
    obtain ⟨attrs', hmem', hget'⟩ := (attr_iff e' _).mp ha'
    exact hg.named.unique _ hmem _ hmem' name hget hget'

/-! ## An exchange of names -/

/-- Two entities with a config id each. -/
def namingOps : Value := .list [
  .record .host [("op", .str "create"), ("attrs", .record .host [("config/id", .str "app/a")])],
  .record .host [("op", .str "create"), ("attrs", .record .host [("config/id", .str "app/b")])]]

/-- They exchange their config ids; the create still finds the entity that had its own before. -/
def exchangeOps : Value := .list [
  .record .host [("op", .str "create"), ("tempId", .str "b"), ("attrs", .record .host [
    ("config/id", .str "app/b"), ("port", .nat 80)])],
  .record .host [("op", .str "retract"), ("entity", .nat 1), ("attr", .str "config/id")],
  .record .host [("op", .str "assert"), ("entity", .str "b"), ("attr", .str "config/id"),
    ("value", .str "app/a")],
  .record .host [("op", .str "assert"), ("entity", .nat 1), ("attr", .str "config/id"),
    ("value", .str "app/b")]]

/-- What `namingOps` makes of the empty graph. -/
def namedGraph : Graph where
  basisTx := 1
  nextId := 3
  entities := [(1, [("config/id", .str "app/a")]), (2, [("config/id", .str "app/b")])]
  tempIds := []
  transactions := [⟨1, 2, .null⟩]

/-- What `exchangeOps` makes of that. -/
def exchangedGraph : Graph where
  basisTx := 2
  nextId := 3
  entities := [
    (1, [("config/id", .str "app/b")]),
    (2, [("config/id", .str "app/a"), ("port", .num (Number.ofNat 80))])]
  tempIds := [("b", 2)]
  transactions := [⟨1, 2, .null⟩, ⟨2, 4, .null⟩]

theorem exchangedGraph_reachable : exchangedGraph.Reachable :=
  @Graph.Reachable.step namedGraph exchangedGraph exchangeOps .null
    (@Graph.Reachable.step Graph.empty namedGraph namingOps .null .empty rfl) rfl

/-- A session whose one scope holds the graph after the exchange. -/
def exchangedSession : Session :=
  ⟨⟨[⟨.graph ⟨0, exchangedGraph, []⟩, true⟩], 1⟩, []⟩

theorem resolveId_after_exchange :
    exchangedSession.Holds ⟨some 0, none, []⟩ exchangedGraph ∧
      (resolveId (.str "app/a")).exec ⟨some 0, none, []⟩ exchangedSession
        = (.ok (.entity 2), exchangedSession) := by
  have holds : exchangedSession.Holds ⟨some 0, none, []⟩ exchangedGraph :=
    ⟨0, ⟨0, exchangedGraph, []⟩, rfl, rfl, rfl⟩
  refine ⟨holds, ?_⟩
  exact ((resolveId_iff_configId exchangedGraph_reachable holds).1 "app/a" 2).mpr rfl

end Session

end ConfGraph
