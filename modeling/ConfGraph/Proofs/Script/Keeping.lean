import ConfGraph.Proofs.Scope.Act
import ConfGraph.Proofs.Script.Composed

/-!
# What scripts keep

A relation between the state before and the state after holds of every run of a script if it holds of
nothing at all and of two runs one after the other, and if neither the heap, nor what a script does to
the session, nor a DSL function, nor what is given can break it.

* `LawfulState`: heap and session are apart.
* `Tolerant`: relations that scripts cannot break by themselves.
* `Keeps`: an act keeps a relation, and brings no DSL functions into the heap.
* `Composed.keeps`: composed acts keep what the given acts keep.
-/

namespace ConfGraph.Script

/-- The heap and the session are parts of the state that do not meet. -/
class LawfulState (σ : Type) [HasSession σ] [HasHeap σ] : Prop where
  heap_withHeap : ∀ (s : σ) (h : Heap), HasHeap.heap (HasHeap.withHeap s h) = h
  heap_withSession : ∀ (s : σ) (t : Session), HasHeap.heap (HasSession.withSession s t) = HasHeap.heap s

variable {σ : Type} [HasSession σ] [HasHeap σ]

/-- **Relations that scripts cannot break** by themselves. -/
structure Tolerant (P : DslFunction → Prop) (R : σ → σ → Prop) : Prop where
  refl : ∀ s, R s s
  trans : ∀ {s t u}, R s t → R t u → R s u
  heap : ∀ s h, R s (HasHeap.withHeap s h)
  session : ∀ {α : Type} {a : Act Session α}, Session.Elementary a → ∀ (c : Context) (s : σ),
    R s (HasSession.withSession s (a.exec c (HasSession.session s)).2)
  invoke : ∀ {f : DslFunction}, P f → ∀ (args : List Value) (c : Context) (s : σ),
    R s (HasSession.withSession s ((f.invoke args).exec c (HasSession.session s)).2)

/-- **An act keeps a relation**, and the DSL functions in the heap keep their property. -/
def Keeps {α : Type} (P : DslFunction → Prop) (R : σ → σ → Prop) (a : Act σ α) : Prop :=
  ∀ c s, (HasHeap.heap s).Only P →
    (HasHeap.heap (a.exec c s).2).Only P ∧ R s (a.exec c s).2

variable {P : DslFunction → Prop} {R : σ → σ → Prop} {α β : Type}

/-- An act that only reads keeps everything. -/
theorem Tolerant.keeps_of_state (hR : Tolerant P R) {a : Act σ α} (ha : ∀ c s, (a.exec c s).2 = s) :
    Keeps P R a := by
  intro c s hs
  rw [ha]
  exact ⟨hs, hR.refl s⟩

/-- The second act need keep the relation only for what the first can give. -/
theorem Keeps.bind_of_ok (hR : Tolerant P R) {a : Act σ α} (ha : Keeps P R a) {f : α → Act σ β}
    (hf : ∀ c s x s', a.exec c s = (.ok x, s') → Keeps P R (f x)) : Keeps P R (a >>= f) :=
  Act.keeps_bind_of_ok (R := R) hR.trans ha fun c s x s' _ => hf c s x s'

theorem Keeps.bind (hR : Tolerant P R) {a : Act σ α} (ha : Keeps P R a) {f : α → Act σ β}
    (hf : ∀ x, Keeps P R (f x)) : Keeps P R (a >>= f) := ha.bind_of_ok hR fun _ _ x _ _ => hf x

variable [LawfulState σ]

theorem Tolerant.keeps_onSession (hR : Tolerant P R) {a : Act Session α}
    (ha : Session.Elementary a) : Keeps P R (onSession a : Act σ α) := by
  intro c s hs
  rw [Act.exec_onSession, LawfulState.heap_withSession]
  exact ⟨hs, hR.session ha c s⟩

/-- **Composed acts** keep what the given acts keep. -/
theorem Composed.keeps (hR : Tolerant P R) {G : (α : Type) → Act σ α → Prop}
    (hG : ∀ (α : Type) (a : Act σ α), G α a → Keeps P R a) {a : Act σ α} (ha : Composed P G a) :
    Keeps P R a := by
  induction ha with
  | given h => exact hG _ _ h
  | pure x => exact hR.keeps_of_state fun _ _ => rfl
  | fail f => exact hR.keeps_of_state fun _ _ => rfl
  | bind _ _ iha ihf => exact iha.bind hR ihf
  | outcome _ ih => exact fun c s hs => ih c s hs
  | inside c _ ih => exact fun ctx s hs => ih (c ctx) s hs
  | context => exact hR.keeps_of_state fun _ _ => rfl
  | heap _ ih => exact fun c s hs => ih (HasHeap.heap s) hs c s hs
  | @onHeap _ f hf =>
    intro c s hs
    have hexec : ((Script.onHeap f : Act σ _).exec c s).2
        = HasHeap.withHeap s (f (HasHeap.heap s)).2 := rfl
    rw [hexec, LawfulState.heap_withHeap]
    exact ⟨hf _ hs, hR.heap s _⟩
  | session ha => exact hR.keeps_onSession ha
  | invoke hf args =>
    intro c s hs
    rw [Act.exec_onSession, LawfulState.heap_withSession]
    exact ⟨hs, hR.invoke hf args c s⟩

end ConfGraph.Script
