import ConfGraph.Scope.Act

/-!
# Running acts

An act runs in a context on a state and comes to an outcome and a next state.  Each lemma runs one
way of building acts: two acts one after the other, and the acts that only read.

* `Act.exec_bind`: the second act runs on what the first has left, unless that has failed.
* `Act.keeps_bind`: what is kept by each of two acts is kept by both.
* `Session.exec_onScopes`: an act on the scopes leaves the events alone.
-/

namespace ConfGraph

namespace Act

variable {σ α β : Type} (c : Context) (s : σ)

/-- **Two acts one after the other.** -/
theorem exec_bind (a : Act σ α) (f : α → Act σ β) :
    exec (a >>= f) c s =
      match exec a c s with
      | (.ok x, s') => exec (f x) c s'
      | (.error e, s') => (.error e, s') := by
  unfold exec
  simp only [bind, ReaderT.bind, ExceptT.bind, ExceptT.mk, StateT.bind, ExceptT.bindCont]
  cases a c s with
  | mk outcome s' => cases outcome <;> rfl

/-- The second act runs on what a successful first has left. -/
theorem exec_bind_of_ok {a : Act σ α} {f : α → Act σ β} {c : Context} {s s' : σ} {x : α}
    (h : exec a c s = (.ok x, s')) : exec (a >>= f) c s = exec (f x) c s' := by
  rw [exec_bind, h]

/-- Two acts after the same one need do the same only for what it can give. -/
theorem exec_bind_congr {a : Act σ α} {f g : α → Act σ β} {c : Context} {s : σ}
    (h : ∀ x s', exec a c s = (.ok x, s') → exec (f x) c s' = exec (g x) c s') :
    exec (a >>= f) c s = exec (a >>= g) c s := by
  rw [exec_bind, exec_bind]
  rcases hexec : exec a c s with ⟨_ | x, s'⟩
  · rfl
  · exact h x s' hexec

/-- Going on with how an act has ended. -/
theorem exec_outcome_bind (a : Act σ α) (f : Except Fault α → Act σ β) :
    exec (outcome a >>= f) c s = exec (f (exec a c s).1) c (exec a c s).2 :=
  exec_bind_of_ok rfl

section Keeping

variable {I : σ → Prop} {R : σ → σ → Prop} (trans : ∀ {s t u}, R s t → R t u → R s u)
include trans

/-- **What is kept by each of two acts is kept by both**: an invariant, and a relation of before and
after.  The second act need keep them only for what the first can give. -/
theorem keeps_bind_of_ok {a : Act σ α} (ha : ∀ c s, I s → I (exec a c s).2 ∧ R s (exec a c s).2)
    {f : α → Act σ β} (hf : ∀ c s x s', I s → exec a c s = (.ok x, s') →
      ∀ c s, I s → I (exec (f x) c s).2 ∧ R s (exec (f x) c s).2) :
    ∀ c s, I s → I (exec (a >>= f) c s).2 ∧ R s (exec (a >>= f) c s).2 := by
  intro c s hs
  obtain ⟨hI, hR⟩ := ha c s hs
  rw [exec_bind]
  rcases hrun : exec a c s with ⟨r, s'⟩
  rw [hrun] at hI hR
  cases r with
  | error f => exact ⟨hI, hR⟩
  | ok x =>
    obtain ⟨hI', hR'⟩ := hf c s x s' hs hrun c s' hI
    exact ⟨hI', trans hR hR'⟩

/-- The same for a relation alone. -/
theorem keeps_bind {a : Act σ α} (ha : ∀ c s, R s (exec a c s).2) {f : α → Act σ β}
    (hf : ∀ x c s, R s (exec (f x) c s).2) : ∀ c s, R s (exec (a >>= f) c s).2 := by
  have hkeeps := keeps_bind_of_ok (I := fun _ => True) (R := R) trans
    (fun c s _ => ⟨trivial, ha c s⟩) (fun _ _ x _ _ _ c s _ => ⟨trivial, hf x c s⟩)
  exact fun c s => (hkeeps c s trivial).2

end Keeping

theorem exec_context : exec (context : Act σ Context) c s = (.ok c, s) := rfl

/-- An act on the session changes the session only. -/
theorem exec_onSession [HasSession σ] (a : Act Session α) :
    exec (onSession a : Act σ α) c s
      = ((a.exec c (HasSession.session s)).1,
          HasSession.withSession s (a.exec c (HasSession.session s)).2) := rfl

end Act

namespace Session

variable {α : Type} {c : Context} {s : Session}

theorem exec_activeScope {id : ScopeId} (h : c.scope = some id) :
    activeScope.exec c s = (.ok id, s) := by
  simp [Act.exec, activeScope, h]

theorem exec_onScopes {f : Scopes → Except Fault (α × Scopes)} {a : α} {scopes : Scopes}
    (h : f s.scopes = .ok (a, scopes)) :
    (onScopes f).exec c s = (.ok a, { s with scopes }) := by
  simp [Act.exec, onScopes, h]

/-- What an act does that cannot see the events before. -/
theorem exec_unaware (a : Act Session α) (c : Context) (s : Session) :
    (unaware a).exec c s =
      ((a.exec c ⟨s.scopes, []⟩).1,
        ⟨(a.exec c ⟨s.scopes, []⟩).2.scopes, s.events ++ (a.exec c ⟨s.scopes, []⟩).2.events⟩) := rfl

end Session

end ConfGraph
