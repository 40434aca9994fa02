import ConfGraph.Proofs.Scope.Act
import ConfGraph.Scope.Strand

/-!
# Running strands

Run to its end, a strand is an act.  A strand that never runs anything side by side leaves nothing
running when it ends, and two such strands one after the other are their acts one after the other:
the turns in which they give way to others do not matter when there are no others.

* `Strand.Sequential`: the strand leaves nothing running when it ends.
* `Strand.exec_settle`: going on from how a sequential strand ended.
* `Strand.exec_bind`, `exec_after`, `exec_outcome`, `exec_zoom`: the ways of building strands.
* `Strand.exec_withScope`: a strand in a scope of its own.
-/

namespace ConfGraph

variable {σ τ α β : Type}

/-! ## 1. Courses to their end -/

mutual

theorem Course.finish_andThen (f : α → σ → Stop σ β) : ∀ (p : Course σ α) (s : σ),
    (p.andThen f s).finish = (f (p.finish s).1 (p.finish s).2).finish
  | .done _, _ => rfl
  | .paused _ turn, s => Stop.finish_andThen f (turn s)

theorem Stop.finish_andThen (f : α → σ → Stop σ β) : ∀ stop : Stop σ α,
    (Stop.andThen f stop).finish = (f stop.finish.1 stop.finish.2).finish
  | .mk rest s => Course.finish_andThen f rest s

end

namespace Course

@[simp] theorem both_done_left (q : Course σ Unit) : both (.done ()) q = q := rfl

@[simp] theorem both_done_right (p : Course σ Unit) : both p (.done ()) = p := by
  cases p <;> rfl

@[simp] theorem preceded_done (p : Course σ (Finish σ α)) : p.preceded (.done ()) = p := by
  cases p <;> rfl

@[simp] theorem followed_done (p : Course σ (Finish σ α)) : p.followed (.done ()) = p := by
  cases p <;> rfl

/-- Whoever goes on after an end that leaves nothing is on its own. -/
theorem resumed_clean (r : Except Fault α) (stop : Stop σ (Finish σ β)) :
    resumed (.clean r) stop = stop := by
  obtain ⟨rest, s⟩ := stop
  cases rest with
  | done e => simp [resumed, Finish.clean]
  | paused lull turn => simp [resumed, Finish.clean, now]

mutual

theorem finish_zoomFinish (get : σ → τ) (set : σ → τ → σ) (get_set : ∀ s t, get (set s t) = t)
    (set_set : ∀ s t t', set (set s t) t' = set s t') :
    ∀ (p : Course τ (Finish τ α)) (s : σ) (t : τ),
      ((p.zoomFinish get set).finish (set s t)).2 = set s (p.finish t).2 ∧
        ((p.zoomFinish get set).finish (set s t)).1
          = ⟨(p.finish t).1.outcome, (p.finish t).1.ahead.zoom get set,
              (p.finish t).1.behind.zoom get set⟩
  | .done _, _, _ => ⟨rfl, rfl⟩
  | .paused _ turn, s, t => by
    have hstop := finish_zoomFinishStop get set get_set set_set (turn t) (set s t)
    rw [set_set] at hstop
    simpa only [zoomFinish, Course.finish, get_set] using hstop

theorem finish_zoomFinishStop (get : σ → τ) (set : σ → τ → σ) (get_set : ∀ s t, get (set s t) = t)
    (set_set : ∀ s t t', set (set s t) t' = set s t') :
    ∀ (stop : Stop τ (Finish τ α)) (s : σ),
      (zoomFinishStop get set s stop).finish.2 = set s stop.finish.2 ∧
        (zoomFinishStop get set s stop).finish.1
          = ⟨stop.finish.1.outcome, stop.finish.1.ahead.zoom get set,
              stop.finish.1.behind.zoom get set⟩
  | .mk rest t, s => finish_zoomFinish get set get_set set_set rest s t

end

end Course

/-! ## 2. Strands that leave nothing running -/

namespace Strand

variable {c : Context} {s : σ}

/-- The strand leaves nothing running when it ends. -/
def Sequential (a : Strand σ α) : Prop :=
  ∀ c s, (a c s).finish.1 = .clean (a c s).finish.1.outcome

/-- How a sequential strand ends is told by its outcome and its state. -/
theorem Sequential.finish {a : Strand σ α} (h : a.Sequential) (c : Context) (s : σ) :
    (a c s).finish = (.clean (a.exec c s).1, (a.exec c s).2) :=
  Prod.ext (h c s) rfl

theorem exec_of_finish {a : Strand σ α} {r : Except Fault α} {s' : σ}
    (h : (a c s).finish = (.clean r, s')) : a.exec c s = (r, s') := by
  unfold exec
  rw [h]
  rfl

/-- **Going on from how a sequential strand ended.** -/
theorem finish_settle {a : Strand σ α} (ha : a.Sequential) (f : Except Fault α → Strand σ β)
    (c : Context) (s : σ) :
    (a.settle f c s).finish = (f (a.exec c s).1 c (a.exec c s).2).finish := by
  unfold settle
  rw [Stop.finish_andThen, ha.finish]
  dsimp only
  rw [Course.resumed_clean]
  rfl

theorem exec_settle {a : Strand σ α} (ha : a.Sequential) (f : Except Fault α → Strand σ β)
    (c : Context) (s : σ) :
    (a.settle f).exec c s = (f (a.exec c s).1).exec c (a.exec c s).2 := by
  have hfinish := finish_settle ha f c s
  unfold exec at hfinish ⊢
  rw [hfinish]

theorem Sequential.settle {a : Strand σ α} (ha : a.Sequential) {f : Except Fault α → Strand σ β}
    (hf : ∀ r, (f r).Sequential) : (a.settle f).Sequential := by
  intro c s
  rw [finish_settle ha]
  exact hf _ _ _

/-! ## 3. Parts -/

theorem sequential_ofAct (a : Act σ α) : (ofAct a).Sequential := fun _ _ => rfl

@[simp] theorem exec_ofAct (a : Act σ α) (c : Context) (s : σ) :
    (ofAct a).exec c s = a.exec c s := rfl

theorem sequential_pure (a : α) : (pure a : Strand σ α).Sequential := sequential_ofAct _

@[simp] theorem exec_pure (a : α) (c : Context) (s : σ) :
    (pure a : Strand σ α).exec c s = (.ok a, s) := rfl

theorem sequential_fail (f : Fault) : (fail f : Strand σ α).Sequential := sequential_ofAct _

@[simp] theorem exec_fail (f : Fault) (c : Context) (s : σ) :
    (fail f : Strand σ α).exec c s = (.error f, s) := rfl

theorem sequential_ofExcept (r : Except Fault α) : (ofExcept r : Strand σ α).Sequential :=
  sequential_ofAct _

@[simp] theorem exec_ofExcept (r : Except Fault α) (c : Context) (s : σ) :
    (ofExcept r : Strand σ α).exec c s = (r, s) := rfl

theorem sequential_onSession [HasSession σ] (a : Act Session α) :
    (onSession a : Strand σ α).Sequential := sequential_ofAct _

@[simp] theorem exec_onSession [HasSession σ] (a : Act Session α) (c : Context) (s : σ) :
    (onSession a : Strand σ α).exec c s = (ConfGraph.onSession a : Act σ α).exec c s := rfl

/-! ## 4. Ways of building strands -/

/-- How a strand goes on that goes on with a result only. -/
def onward (f : α → Strand σ β) : Except Fault α → Strand σ β
  | .ok x => f x
  | .error e => fail e

theorem bind_eq_settle (a : Strand σ α) (f : α → Strand σ β) : (a >>= f) = a.settle (onward f) := rfl

theorem Sequential.bind {a : Strand σ α} (ha : a.Sequential) {f : α → Strand σ β}
    (hf : ∀ x, (f x).Sequential) : (a >>= f).Sequential := by
  rw [bind_eq_settle]
  refine ha.settle fun r => ?_
  cases r with
  | ok x => exact hf x
  | error e => exact sequential_fail e

/-- **Two strands one after the other.** -/
theorem exec_bind {a : Strand σ α} (ha : a.Sequential) (f : α → Strand σ β) (c : Context) (s : σ) :
    (a >>= f).exec c s =
      match a.exec c s with
      | (.ok x, s') => (f x).exec c s'
      | (.error e, s') => (.error e, s') := by
  rw [bind_eq_settle, exec_settle ha]
  rcases a.exec c s with ⟨r, s'⟩
  cases r <;> rfl

/-- An act before a strand takes no turn of its own. -/
theorem settle_ofAct (a : Act σ α) (f : Except Fault α → Strand σ β) (c : Context) (s : σ) :
    (ofAct a).settle f c s = f (a.exec c s).1 c (a.exec c s).2 :=
  Course.resumed_clean _ _

theorem bind_ofAct (a : Act σ α) (f : α → Strand σ β) (c : Context) (s : σ) :
    (ofAct a >>= f) c s =
      match a.exec c s with
      | (.ok x, s') => f x c s'
      | (.error e, s') => (fail e : Strand σ β) c s' := by
  rw [bind_eq_settle, settle_ofAct]
  rcases a.exec c s with ⟨r, s'⟩
  cases r <;> rfl

/-- **Acts one after the other** are one act. -/
theorem ofAct_bind (a : Act σ α) (f : α → Act σ β) :
    (ofAct a >>= fun x => ofAct (f x) : Strand σ β) = ofAct (a >>= f) := by
  funext c s
  rw [bind_ofAct]
  unfold ofAct
  rw [Act.exec_bind]
  rcases a.exec c s with ⟨_ | x, s'⟩ <;> rfl

theorem outcome_ofAct (a : Act σ α) : (ofAct a).outcome = ofAct (Act.outcome a) := by
  funext c s
  exact settle_ofAct a _ c s

theorem Sequential.outcome {a : Strand σ α} (ha : a.Sequential) : a.outcome.Sequential :=
  ha.settle fun _ => sequential_ofAct _

theorem exec_outcome {a : Strand σ α} (ha : a.Sequential) (c : Context) (s : σ) :
    a.outcome.exec c s = (.ok (a.exec c s).1, (a.exec c s).2) :=
  exec_settle ha _ c s

theorem Sequential.inside {a : Strand σ α} (ha : a.Sequential) (f : Context → Context) :
    (Strand.inside f a).Sequential := fun c s => ha (f c) s

@[simp] theorem exec_inside (a : Strand σ α) (f : Context → Context) (c : Context) (s : σ) :
    (Strand.inside f a).exec c s = a.exec (f c) s := rfl

theorem finish_map_idle (turns : Nat) (s : σ) :
    ((Course.idle turns).map fun () => Finish.clean (.ok ())).finish s
      = ((.clean (.ok ()), s) : Finish σ Unit × σ) := by
  induction turns with
  | zero => rfl
  | succ turns ih => exact ih

theorem sequential_pause (turns : Nat) : (pause turns : Strand σ Unit).Sequential := by
  intro c s
  have hfinish : (pause turns c s).finish = ((.clean (.ok ()), s) : Finish σ Unit × σ) :=
    finish_map_idle turns s
  rw [hfinish]
  rfl

@[simp] theorem exec_pause (turns : Nat) (c : Context) (s : σ) :
    (pause turns : Strand σ Unit).exec c s = (.ok (), s) :=
  exec_of_finish (finish_map_idle turns s)

theorem sequential_wait (time : Nat) : (wait time : Strand σ Unit).Sequential := fun _ _ => rfl

@[simp] theorem exec_wait (time : Nat) (c : Context) (s : σ) :
    (wait time : Strand σ Unit).exec c s = (.ok (), s) := rfl

theorem Sequential.after {a : Strand σ α} (ha : a.Sequential) : a.after.Sequential :=
  ha.settle fun r => (sequential_pause 1).bind fun _ => sequential_ofExcept r

/-- Going on a turn later changes nothing. -/
theorem exec_after {a : Strand σ α} (ha : a.Sequential) (c : Context) (s : σ) :
    a.after.exec c s = a.exec c s := by
  unfold Strand.after
  rw [exec_settle ha, exec_bind (sequential_pause 1), exec_pause]
  rfl

theorem finish_yielding (a : Strand σ α) (c : Context) (s : σ) :
    (a.yielding c s).finish = (a c s).finish := by
  unfold yielding
  rcases a c s with ⟨rest, s'⟩
  cases rest <;> rfl

theorem Sequential.yielding {a : Strand σ α} (ha : a.Sequential) : a.yielding.Sequential := by
  intro c s
  rw [finish_yielding]
  exact ha c s

/-- Giving way changes nothing. -/
theorem exec_yielding (a : Strand σ α) (c : Context) (s : σ) :
    a.yielding.exec c s = a.exec c s := by
  unfold exec
  rw [finish_yielding]

section Zoom

variable {get : σ → τ} {set : σ → τ → σ} (get_set : ∀ s t, get (set s t) = t)
  (set_set : ∀ s t t', set (set s t) t' = set s t')

include get_set set_set

theorem Sequential.zoom {a : Strand τ α} (ha : a.Sequential) :
    (Strand.zoom get set a).Sequential := by
  intro c s
  have hfinish := (Course.finish_zoomFinishStop get set get_set set_set (a c (get s)) s).2
  unfold Strand.zoom
  rw [hfinish, ha c (get s)]
  rfl

/-- A strand on a part of the state is an act on that part. -/
theorem exec_zoom (a : Strand τ α) (c : Context) (s : σ) :
    (Strand.zoom get set a).exec c s = (Act.zoom get set a.exec).exec c s := by
  obtain ⟨hstate, hfinish⟩ := Course.finish_zoomFinishStop get set get_set set_set (a c (get s)) s
  exact Prod.ext (congrArg Finish.outcome hfinish) hstate

end Zoom

/-! ## 5. Scopes -/

open HasSession

variable [HasSession σ]

theorem sequential_withScope {initial : Content} {body : Strand σ α} (hbody : body.Sequential) :
    (withScope initial body).Sequential := by
  refine (sequential_onSession _).bind fun id => ?_
  refine (hbody.inside _).after.outcome.bind fun r => ?_
  refine (sequential_onSession _).outcome.bind fun final => ?_
  refine (sequential_onSession _).bind fun _ => ?_
  refine (sequential_ofExcept r).bind fun a => ?_
  exact (sequential_ofExcept final).bind fun content => sequential_pure _

/-- **What running a strand in a scope of its own comes to** when nothing runs beside it. -/
theorem exec_withScope {initial : Content} {body : Strand σ α} (hbody : body.Sequential)
    (withSession_session : ∀ s : σ, withSession s (session s) = s) (c : Context) (s : σ)
    {r : Except Fault α} {s' : σ}
    (hrun : body.exec (c.within (session s).scopes.table.length)
      (withSession s { session s with scopes := ((session s).scopes.opening initial).2 }) = (r, s')) :
    (withScope initial body).exec c s
      = (do
          let a ← r
          let content ← (session s').scopes.read (session s).scopes.table.length
          return (a, content),
        withSession s' { session s' with
          scopes := (session s').scopes.closing (session s).scopes.table.length }) := by
  let id := (session s).scopes.table.length
  have hopen : (Strand.onSession (Session.openScope initial) : Strand σ ScopeId).exec c s
      = (.ok id, withSession s { session s with scopes := ((session s).scopes.opening initial).2 }) :=
    rfl
  have hinside : (Strand.outcome (Strand.after (Strand.inside (·.within id) body))).exec c
      (withSession s { session s with scopes := ((session s).scopes.opening initial).2 })
      = (.ok r, s') := by
    rw [exec_outcome (hbody.inside _).after, exec_after (hbody.inside _), exec_inside, hrun]
  have hread : (Strand.outcome (Strand.onSession (Session.readScope id)) :
      Strand σ (Except Fault Content)).exec c s' = (.ok ((session s').scopes.read id), s') := by
    have hsame : (Session.readScope id).exec c (session s')
        = ((session s').scopes.read id, session s') := by
      unfold Session.readScope Session.onScopes Act.exec
      dsimp only
      cases (session s').scopes.read id <;> rfl
    rw [exec_outcome (sequential_onSession _), exec_onSession, Act.exec_onSession, hsame,
      withSession_session]
  have hclose : (Strand.onSession (Session.closeScope id) : Strand σ Unit).exec c s'
      = (.ok (), withSession s' { session s' with scopes := (session s').scopes.closing id }) := rfl
  unfold withScope
  rw [exec_bind (sequential_onSession _), hopen]
  dsimp only
  rw [exec_bind (hbody.inside _).after.outcome, hinside]
  dsimp only
  rw [exec_bind (sequential_onSession _).outcome, hread]
  dsimp only
  rw [exec_bind (sequential_onSession _), hclose]
  dsimp only
  rw [exec_bind (sequential_ofExcept _), exec_ofExcept]
  cases r with
  | error f => rfl
  | ok a =>
    dsimp only
    rw [exec_bind (sequential_ofExcept _), exec_ofExcept]
    cases (session s').scopes.read id <;> rfl

end Strand

end ConfGraph
