import ConfGraph.Host.Run
import ConfGraph.Proofs.Dsl.Builtin
import ConfGraph.Proofs.Scope.Strand

/-!
# Failing steps are invisible

A host goes on after a step that has failed.  As long as its steps are reads, transactions, look-ups
and calls of the built-in functions, a step that fails has left no trace, so the body might as well
have been written without it: every other step answers the same, and the graph ends up the same.
Only serial numbers tell the two runs apart, and no answer shows them.

* `Step.Plain`: the steps that this is about.
* `Answer.Alike`: answers that differ in serial numbers only.
* `succeeding`: a body without the steps that have failed.
* `failing_steps_are_invisible`: running one and the other.
-/

namespace ConfGraph.Host

/-! ## 1. Plain steps and their answers -/

/-- A step that reads the graph in context, applies a batch to it, looks an entity up in it, calls a
built-in function, or asks what is running. -/
inductive Step.Plain : Step → Prop
  | graph : Plain .graph
  | transact (ops tempId : Value) : Plain (.transact ops tempId)
  | resolve (id : Value) : Plain (.resolve id)
  | call {f : DslFunction} (is_builtin : f ∈ Dsl.builtins) (args : List Value) : Plain (.call f args)
  | function : Plain .function
  | provenance : Plain .provenance

namespace Answer

/-- The same value, or the same graph. -/
inductive Alike : Answer → Answer → Prop
  | value (v : Value) : Alike (.value v) (.value v)
  | graph {r r' : Revision} (same : r.graph = r'.graph) : Alike (.graph (.graph r)) (.graph (.graph r'))

theorem Alike.symm {a b : Answer} (h : a.Alike b) : b.Alike a := by
  cases h with
  | value v => exact .value v
  | graph same => exact .graph same.symm

theorem Alike.trans {a b d : Answer} (h : a.Alike b) (h' : b.Alike d) : a.Alike d := by
  cases h with
  | value v => exact h'
  | graph same =>
    cases h' with
    | graph same' => exact .graph (same.trans same')

/-- Whether the step has not failed. -/
def succeeded : Answer → Bool
  | .failed _ => false
  | _ => true

theorem Alike.succeeded {a b : Answer} (h : a.Alike b) : a.succeeded = true := by
  cases h <;> rfl

end Answer

/-- The steps that have not failed, told from the answers of all. -/
def succeeding (steps : List Step) (answers : List Answer) : List Step :=
  ((steps.zip answers).filter (·.2.succeeded)).map (·.1)

section Step

open Act

variable {later : Later} {x : Step} {c : Context} {v : Option Graph}

/-! ## 2. One step -/

/-- What a step comes to in one state: a fault without a trace, or an answer and what is shown. -/
def Step.Comes (later : Later) (x : Step) (c : Context) (s : State) : Effect Answer → Prop
  | .error f => ∃ s', (runStep later x).exec c s = (.error f, s') ∧
      s'.session.scopes.table = s.session.scopes.table
  | .ok (a, v') => ∃ a' s', (runStep later x).exec c s = (.ok a', s') ∧ a'.Alike a ∧
      s'.session.Shows c v'

/-- What a step comes to is the same in all states that show the same reachable graph. -/
def Step.Failsafe (later : Later) (x : Step) : Prop :=
  ∀ c v, AllReachable v → ∃ e : Effect Answer,
    (∀ s : State, s.session.Shows c v → x.Comes later c s e) ∧
      ∀ a v', e = .ok (a, v') → AllReachable v'

theorem failsafe_of_act {α : Type} {a : Act Session α} (ha : a.Failsafe) {f : α → Value}
    (hrun : runStep later x = do return .value (f (← Strand.onSession a))) : x.Failsafe later := by
  obtain ⟨effect, heffect⟩ := ha
  intro c v hv
  obtain ⟨hdoes, hkeeps⟩ := heffect c v hv
  have hstep : ∀ (s : State) r s', a.exec c s.session = (r, s') →
      (runStep later x).exec c s = (r.map fun y => .value (f y), { s with session := s' }) := by
    intro s r s' hexec
    rw [hrun, Strand.exec_bind (Strand.sequential_onSession a), Strand.exec_onSession,
      Act.exec_onSession]
    simp only [HasSession.session, HasSession.withSession, hexec]
    cases r <;> rfl
  cases hresult : effect c.plain v with
  | error fault =>
    rw [hresult] at hdoes
    refine ⟨.error fault, fun s hs => ?_, nofun⟩
    obtain ⟨s', hexec, htable⟩ := hdoes s.session hs
    exact ⟨_, hstep s _ s' hexec, htable⟩
  | ok p =>
    obtain ⟨y, v'⟩ := p
    rw [hresult] at hdoes
    refine ⟨.ok (.value (f y), v'), fun s hs => ?_, fun a w h => ?_⟩
    · obtain ⟨s', hexec, hshows⟩ := hdoes s.session hs
      exact ⟨_, _, hstep s _ s' hexec, .value (f y), hshows⟩
    · obtain ⟨-, rfl⟩ := Prod.mk.inj (Except.ok.inj h)
      exact hkeeps y v' hresult

/-- Reading the graph in context. -/
theorem failsafe_graph : Step.Failsafe later .graph := by
  intro c v hv
  have hstep : ∀ (s : State) r s', Session.currentContent.exec c s.session = (r, s') →
      (runStep later .graph).exec c s = (r.map Answer.graph, { s with session := s' }) := by
    intro s r s' hexec
    rw [runStep, Strand.exec_bind (Strand.sequential_onSession _), Strand.exec_onSession,
      Act.exec_onSession]
    simp only [HasSession.session, HasSession.withSession, hexec]
    cases r <;> rfl
  cases v with
  | none =>
    refine ⟨.error .noScope, fun s hs => ?_, nofun⟩
    exact ⟨_, hstep s _ _ (Session.exec_currentContent_of_none hs), rfl⟩
  | some g =>
    refine ⟨.ok (.graph (.graph (.first 0 g)), some g), fun s hs => ?_, fun a w h => ?_⟩
    · obtain ⟨r, hr, hexec⟩ := Session.exec_currentContent hs
      exact ⟨_, _, hstep s _ _ hexec, .graph hr, hs⟩
    · obtain ⟨-, rfl⟩ := Prod.mk.inj (Except.ok.inj h)
      exact hv

theorem failsafe_provenance : Step.Failsafe later .provenance := by
  intro c v hv
  refine ⟨.ok (.value (annotationValue c), v), fun s hs => ⟨_, s, rfl, .value _, hs⟩, fun a w h => ?_⟩
  obtain ⟨-, rfl⟩ := Prod.mk.inj (Except.ok.inj h)
  exact hv

theorem failsafe_function : Step.Failsafe later .function := by
  intro c v hv
  refine ⟨.ok (.value (c.dslFunction.elim .undefined .str), v),
    fun s hs => ⟨_, s, rfl, .value _, hs⟩, fun a w h => ?_⟩
  obtain ⟨-, rfl⟩ := Prod.mk.inj (Except.ok.inj h)
  exact hv

/-- **A plain step fails without a trace.** -/
theorem Step.Plain.failsafe (h : x.Plain) (later : Later) : x.Failsafe later := by
  cases h with
  | graph => exact failsafe_graph
  | transact ops tempId => exact failsafe_of_act (Session.failsafe_transact ops tempId) rfl
  | resolve id => exact failsafe_of_act (Session.reading_resolveId id).failsafe rfl
  | call is_builtin args => exact failsafe_of_act (Dsl.failsafe_builtin is_builtin args) rfl
  | function => exact failsafe_function
  | provenance => exact failsafe_provenance

theorem Step.Plain.sequential (h : x.Plain) : (runStep later x).Sequential := by
  cases h with
  | function => exact (Strand.sequential_ofAct _).bind fun _ => Strand.sequential_pure _
  | provenance => exact (Strand.sequential_ofAct _).bind fun _ => Strand.sequential_pure _
  | _ => exact (Strand.sequential_onSession _).bind fun _ => Strand.sequential_pure _

end Step

/-! ## 3. Bodies -/

section Body

open Act Shape

variable {later : Later} {steps : List Step} {c : Context} {v : Option Graph} {s : State}

theorem sequential_runBody (hplain : ∀ x ∈ steps, x.Plain) :
    (runBody later steps).Sequential := by
  induction steps with
  | nil => exact Strand.sequential_pure _
  | cons x rest ih =>
    have hx : x.Plain := hplain x List.mem_cons_self
    have hrest := ih fun y hy => hplain y (List.mem_cons_of_mem x hy)
    have hbody : runBody later (x :: rest) = do
        let a ← Strand.outcome (Strand.after (runStep later x))
        let answers ← runBody later rest
        return Answer.ofOutcome a :: answers := by cases hx <;> rfl
    rw [hbody]
    exact hx.sequential.after.outcome.bind fun _ => hrest.bind fun _ => Strand.sequential_pure _

/-- A body goes on after its first step, whatever that has come to. -/
theorem exec_runBody_cons {x : Step} (hx : x.Plain) (rest : List Step)
    (hrest : ∀ y ∈ rest, y.Plain) {r : Except Fault Answer} {s₁ : State}
    (hstep : (runStep later x).exec c s = (r, s₁)) :
    (runBody later (x :: rest)).exec c s
      = (((runBody later rest).exec c s₁).1.map (Answer.ofOutcome r :: ·),
          ((runBody later rest).exec c s₁).2) := by
  have hbody : runBody later (x :: rest) = do
      let a ← Strand.outcome (Strand.after (runStep later x))
      let answers ← runBody later rest
      return Answer.ofOutcome a :: answers := by cases hx <;> rfl
  have hfirst : (Strand.outcome (Strand.after (runStep later x))).exec c s = (.ok r, s₁) := by
    rw [Strand.exec_outcome hx.sequential.after, Strand.exec_after hx.sequential, hstep]
  rw [hbody, Strand.exec_bind hx.sequential.after.outcome, hfirst]
  dsimp only
  rw [Strand.exec_bind (sequential_runBody hrest)]
  rcases (runBody later rest).exec c s₁ with ⟨outcome, s₂⟩
  cases outcome <;> rfl

/-- What is running stays the same throughout a body. -/
theorem provenance_answer (hplain : ∀ x ∈ steps, x.Plain) {answers : List Answer} {s' : State}
    (hrun : (runBody later steps).exec c s = (.ok answers, s')) {i : Nat}
    (hi : steps[i]? = some .provenance) : answers[i]? = some (.value (annotationValue c)) := by
  induction steps generalizing s answers i s' with
  | nil => exact nomatch hi
  | cons x rest ih =>
    have hx : x.Plain := hplain x List.mem_cons_self
    have hrest : ∀ y ∈ rest, y.Plain := fun y hy => hplain y (List.mem_cons_of_mem x hy)
    rcases hstep : (runStep later x).exec c s with ⟨r, s₁⟩
    rw [exec_runBody_cons hx rest hrest hstep] at hrun
    obtain ⟨houtcome, -⟩ := Prod.mk.inj hrun
    obtain ⟨restAnswers, hanswers, rfl⟩ := map_eq_ok_iff.mp houtcome
    cases i with
    | zero =>
      obtain rfl := Option.some.inj hi
      obtain ⟨rfl, -⟩ := Prod.mk.inj hstep
      rfl
    | succ i =>
      have hrun' : (runBody later rest).exec c s₁
          = (.ok restAnswers, ((runBody later rest).exec c s₁).2) := Prod.ext hanswers rfl
      have hnext := ih hrest hrun' (i := i) (by simpa using hi)
      simpa using hnext

/-- Two runs of a body, one of them without the steps that have failed in the other. -/
theorem runs_agree (hplain : ∀ x ∈ steps, x.Plain) (hv : AllReachable v) {t : State}
    (hs : s.session.Shows c v) (ht : t.session.Shows c v) :
    ∃ answers s' v', (runBody later steps).exec c s = (.ok answers, s') ∧
      s'.session.Shows c v' ∧ AllReachable v' ∧ answers.length = steps.length ∧
      ∃ answers' t', (runBody later (succeeding steps answers)).exec c t = (.ok answers', t') ∧
        t'.session.Shows c v' ∧ List.Forall₂ Answer.Alike answers' (answers.filter (·.succeeded)) := by
  induction steps generalizing s t v with
  | nil => exact ⟨[], s, v, rfl, hs, hv, rfl, [], t, rfl, ht, .nil⟩
  | cons x rest ih =>
    have hx : x.Plain := hplain x List.mem_cons_self
    have hrest : ∀ y ∈ rest, y.Plain := fun y hy => hplain y (List.mem_cons_of_mem x hy)
    obtain ⟨e, hcomes, hkeeps⟩ := hx.failsafe later c v hv
    cases e with
    | error fault =>
      -- the other run does not take this step, and both go on showing the same
      obtain ⟨s₁, hexec, htable⟩ := hcomes s hs
      obtain ⟨answers, s', v', hrun, hshows, hreach, hlength, hother⟩ :=
        ih hrest hv (hs.congr htable rfl) ht
      refine ⟨.failed fault :: answers, s', v', ?_, hshows, hreach, congrArg (· + 1) hlength, hother⟩
      rw [exec_runBody_cons hx rest hrest hexec, hrun]
      rfl
    | ok p =>
      obtain ⟨a, w⟩ := p
      obtain ⟨a₁, s₁, hexec, halike, hs₁⟩ := hcomes s hs
      obtain ⟨a₂, t₁, hexec', halike', ht₁⟩ := hcomes t ht
      obtain ⟨answers, s', v', hrun, hshows, hreach, hlength, answers', t', hrun', hshows', hall⟩ :=
        ih hrest (hkeeps a w rfl) hs₁ ht₁
      have hkept : succeeding (x :: rest) (a₁ :: answers) = x :: succeeding rest answers := by
        simp [succeeding, halike.succeeded]
      have hplain' : ∀ y ∈ succeeding rest answers, y.Plain := by
        intro y hy
        obtain ⟨p, hp, rfl⟩ := List.mem_map.mp hy
        exact hrest _ (List.of_mem_zip (List.mem_of_mem_filter hp)).1
      refine ⟨a₁ :: answers, s', v', ?_, hshows, hreach, congrArg (· + 1) hlength,
        a₂ :: answers', t', ?_, hshows', ?_⟩
      · rw [exec_runBody_cons hx rest hrest hexec, hrun]
        rfl
      · rw [hkept, exec_runBody_cons hx _ hplain' hexec', hrun']
        rfl
      · rw [List.filter_cons_of_pos halike.succeeded]
        exact .cons (halike'.trans halike.symm) hall

/-- **Failing steps are invisible.**  Let a body of plain steps run where a reachable graph, or no open
scope at all, is in context.

* A step of it that fails leaves every scope as it was, after whatever steps.
* What is running stays the same throughout.
* The body runs to its end, with an answer to each step; and without the steps that have failed it
  gives the answers of all others, and the same graph is in context in the end. -/
theorem failing_steps_are_invisible (hplain : ∀ x ∈ steps, x.Plain)
    (hv : ∀ g ∈ v, g.Reachable) (hs : s.session.Shows c v) :
    (∀ before x after, steps = before ++ x :: after →
      ∀ answers s₁, (runBody later before).exec c s = (.ok answers, s₁) →
        ∀ f s₂, (runStep later x).exec c s₁ = (.error f, s₂) →
          s₂.session.scopes.table = s₁.session.scopes.table) ∧
    ∃ (answers : List Answer) (s' : State) (v' : Option Graph),
      (runBody later steps).exec c s = (.ok answers, s') ∧
      answers.length = steps.length ∧ s'.session.Shows c v' ∧ (∀ g ∈ v', g.Reachable) ∧
      (∀ i : Nat, steps[i]? = some .provenance → answers[i]? = some (.value (annotationValue c))) ∧
      ∃ answers' t', (runBody later (succeeding steps answers)).exec c s = (.ok answers', t') ∧
        List.Forall₂ Answer.Alike answers' (answers.filter (·.succeeded)) ∧
        t'.session.Shows c v' := by
  constructor
  · rintro before x after rfl answers s₁ hbefore f s₂ hfails
    have hx : x.Plain := hplain x (by simp)
    obtain ⟨_, s₁', v₁, hrun, hshows, hreach, -⟩ := runs_agree
      (fun y hy => hplain y (List.mem_append_left _ hy)) hv hs hs
    obtain ⟨-, rfl⟩ := Prod.mk.inj (hrun.symm.trans hbefore)
    obtain ⟨e, hcomes, -⟩ := hx.failsafe later c v₁ hreach
    cases e with
    | error fault =>
      obtain ⟨s', hexec, htable⟩ := hcomes _ hshows
      obtain ⟨-, rfl⟩ := Prod.mk.inj (hexec.symm.trans hfails)
      exact htable
    | ok p =>
      obtain ⟨a, s', hexec, -⟩ := hcomes _ hshows
      exact nomatch hexec.symm.trans hfails
  · obtain ⟨answers, s', v', hrun, hshows, hreach, hlength, answers', t', hrun', hshows', hall⟩ :=
      runs_agree hplain hv hs hs
    exact ⟨answers, s', v', hrun, hlength, hshows, hreach,
      fun i hi => provenance_answer hplain hrun hi, answers', t', hrun', hall, hshows'⟩

end Body

/-! ## A body that fails twice -/

/-- The second call names no entity, and the third asks for an attribute that cannot be written. -/
def mixedBody : List Step := [
  .call Dsl.entity [.str "app/c", .record .host [("port", .nat 80)]],
  .call Dsl.setAttr [.str "app/d", .str "port", .nat 81],
  .call Dsl.entity [.str "app/a", .record .host [("db/id", .nat 7)]],
  .transact (.list []) .undefined,
  .provenance,
  .call Dsl.ref [.str "app/c"],
  .graph]

theorem mixedBody_plain : ∀ x ∈ mixedBody, x.Plain := by
  have hentity : Dsl.entity ∈ Dsl.builtins := List.mem_cons_self
  have hsetAttr : Dsl.setAttr ∈ Dsl.builtins :=
    List.mem_cons_of_mem _ (List.mem_cons_of_mem _ List.mem_cons_self)
  have href : Dsl.ref ∈ Dsl.builtins := List.mem_cons_of_mem _ List.mem_cons_self
  intro x hx
  simp only [mixedBody, List.mem_cons, List.not_mem_nil, or_false] at hx
  rcases hx with rfl | rfl | rfl | rfl | rfl | rfl | rfl
  · exact .call hentity _
  · exact .call hsetAttr _
  · exact .call hentity _
  · exact .transact _ _
  · exact .provenance
  · exact .call href _
  · exact .graph

theorem failing_steps_of_mixedBody :
    ∃ answers s' v', (run mixedBody).exec ⟨some 0, none, []⟩ ⟨Session.exchangedSession, []⟩
        = (.ok answers, s') ∧ answers.length = 7 ∧ s'.session.Shows ⟨some 0, none, []⟩ v' ∧
      ∃ answers' t', (run (succeeding mixedBody answers)).exec ⟨some 0, none, []⟩
          ⟨Session.exchangedSession, []⟩ = (.ok answers', t') ∧
        List.Forall₂ Answer.Alike answers' (answers.filter (·.succeeded)) ∧
        t'.session.Shows ⟨some 0, none, []⟩ v' := by
  have holds : Session.exchangedSession.Holds ⟨some 0, none, []⟩ Session.exchangedGraph :=
    ⟨0, ⟨0, Session.exchangedGraph, []⟩, rfl, rfl, rfl⟩
  have reachable : ∀ g ∈ some Session.exchangedGraph, g.Reachable := by
    rintro g ⟨⟩
    exact Session.exchangedGraph_reachable
  obtain ⟨-, answers, s', v', hrun, hlength, hshows, -, -, answers', t', hrun', hall, hshows'⟩ :=
    failing_steps_are_invisible mixedBody_plain reachable
      (s := ⟨Session.exchangedSession, []⟩) holds
  exact ⟨answers, s', v', hrun, hlength, hshows, answers', t', hrun', hall, hshows'⟩

end ConfGraph.Host
