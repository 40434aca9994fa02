import ConfGraph.Dsl.Builtin
import ConfGraph.Proofs.Scope.Effect

/-!
# The built-in functions fail without a trace

Each of the three may fail half way: its arguments may not fit, the entity may not be there, the batch
may be refused.  None of them has written anything by then.  `entity` looks its entity up after it
has written it, and the look-up cannot fail: a create leaves an entity with its config id.

* `failsafe_invoke`: a call is failsafe if the body of the function is.
* `Dsl.failsafe_entity`, `failsafe_ref`, `failsafe_setAttr`: the bodies.
* `Dsl.failsafe_builtin`: every call of a built-in function.
-/

namespace ConfGraph

open Shape

/-! ## 1. Arguments -/

namespace Shape

variable {α β γ : Type}

theorem sized_eq_ok {least most : Nat} {args : List Value} {r : Checked α} {a : α}
    (h : sized least most args r = .ok a) : r = .ok a := by
  unfold sized at h
  split at h
  · exact absurd h fail_ne_ok
  · split at h
    · split at h
      · exact absurd h fail_ne_ok
      · exact nomatch h
    · exact h

theorem argument_eq_ok {i : Nat} {s : Shape α} {args : List Value} {a : α}
    (h : argument i s args = .ok a) : s (args.getD i .undefined) = .ok a := under_eq_ok_iff.mp h

/-- What the attributes of a call are when they are left out or read. -/
theorem optional_attrs_valid {v : Value} {attrs : Option (Fields OpValue)}
    (h : optional attrsShape v = .ok attrs) :
    ∀ f ∈ attrs.getD [], f.1 ≠ "__proto__" ∧ f.1 ≠ "" ∧ f.2.Valid := by
  intro f hf
  obtain rfl | ⟨fields, rfl, hread⟩ := optional_eq_ok h
  · exact nomatch hf
  · obtain ⟨hproto, hempty, w, hw⟩ := entries_mem hread hf
    exact ⟨hproto, hempty, opValueShape_valid hw⟩

end Shape

/-! ## 2. Calls -/

namespace DslFunction

variable {f : DslFunction} {args : List Value} (c : Context) (s : Session)

/-- A call whose arguments do not fit does nothing. -/
theorem exec_invoke_of_error {issues : List Issue} (h : f.prepare args = .error issues) :
    (f.invoke args).exec c s
      = (.error (.ofIssues issues (.badArguments f.signature.qualifiedName args)), s) := by
  unfold invoke Signature.accept
  rw [h]
  rfl

/-- A call takes a serial number and notes an event before the body starts. -/
theorem exec_invoke_of_ok {body : Act Session Value} (h : f.prepare args = .ok body) :
    (f.invoke args).exec c s
      = (Session.unaware body).exec
          (c.annotated ⟨s.scopes.nextSerial, f.signature.qualifiedName, args,
            Signature.callFrames c.site⟩)
          ⟨s.scopes.issue.2, s.events ++ [.dslInvoked f.signature.qualifiedName]⟩ := by
  unfold invoke Signature.accept
  rw [h]
  rfl

end DslFunction

open Act in
/-- **A call is failsafe** if the body is.  What is noted of the call before the body starts touches no
scope. -/
theorem DslFunction.failsafe_invoke {f : DslFunction} {args : List Value}
    (hbody : ∀ body, f.prepare args = .ok body → body.Failsafe) : (f.invoke args).Failsafe := by
  cases hprepare : f.prepare args with
  | error issues =>
    refine ⟨fun _ _ => .error (.ofIssues issues (.badArguments f.signature.qualifiedName args)),
      fun c v _ => ⟨fun s _ => ⟨s, ?_, rfl⟩, fun _ _ h => nomatch h⟩⟩
    exact exec_invoke_of_error c s hprepare
  | ok body =>
    obtain ⟨effect, heffect⟩ := hbody body hprepare
    let note (serial : Nat) (c : Context) : Annotation :=
      ⟨serial, f.signature.qualifiedName, args, Signature.callFrames c.site⟩
    refine ⟨fun c v => effect (c.annotated (note 0 c)).plain v, fun c v hv => ?_⟩
    have hplain : ∀ serial, (c.annotated (note serial c)).plain
        = (c.plain.annotated (note 0 c.plain)).plain :=
      fun serial => Context.plain_annotated c serial _ args _
    dsimp only
    -- when the body starts, the call has taken a serial number and noted an event
    have hcall : ∀ s : Session, ∃ (s₁ : Session) (serial : Nat),
        s₁.scopes.table = s.scopes.table ∧
          ∀ r t, body.exec (c.annotated (note serial c)) s₁ = (r, t) →
            ∃ s', (f.invoke args).exec c s = (r, s') ∧ s'.scopes = t.scopes := by
      intro s
      refine ⟨⟨s.scopes.issue.2, []⟩, s.scopes.nextSerial, rfl, fun r t hbody => ?_⟩
      refine ⟨⟨t.scopes, s.events ++ [.dslInvoked f.signature.qualifiedName] ++ t.events⟩, ?_, rfl⟩
      rw [exec_invoke_of_ok c s hprepare, Session.exec_unaware, hbody]
    refine ⟨?_, (heffect (c.annotated (note 0 c)) v hv).2 |> (hplain 0 ▸ ·)⟩
    cases hresult : effect (c.plain.annotated (note 0 c.plain)).plain v with
    | error fault =>
      intro s hs
      obtain ⟨s₁, serial, htable, hrun⟩ := hcall s
      have hdoes := (heffect (c.annotated (note serial c)) v hv).1
      rw [hplain, hresult] at hdoes
      obtain ⟨t, hexec, htable'⟩ := hdoes s₁ (hs.congr htable (Context.scope_annotated c _))
      obtain ⟨s', hinvoke, hscopes⟩ := hrun _ t hexec
      exact ⟨s', hinvoke, by rw [hscopes, htable', htable]⟩
    | ok p =>
      intro s hs
      obtain ⟨s₁, serial, htable, hrun⟩ := hcall s
      have hdoes := (heffect (c.annotated (note serial c)) v hv).1
      rw [hplain, hresult] at hdoes
      obtain ⟨t, hexec, hshows⟩ := hdoes s₁ (hs.congr htable (Context.scope_annotated c _))
      obtain ⟨s', hinvoke, hscopes⟩ := hrun _ t hexec
      exact ⟨s', hinvoke, hshows.congr (by rw [hscopes]) (Context.scope_annotated c _).symm⟩

namespace Dsl

open Session Act

/-! ## 3. Bodies -/

/-- The body of `entity`. -/
def entityBody (id : String) (attrs : Fields OpValue) : Act Session Value := do
  perform [entityOp id attrs]
  let e ← resolveId (.str id)
  return e.toValue

theorem configId_ne_proto : configId ≠ "__proto__" := by decide

/-- A batch of one op is short enough for its length to be told. -/
theorem one_is_few {op : TxOp} : [op].length < Number.smallBound :=
  show 1 < Number.smallBound by decide

theorem entityOp_valid {id : String} {attrs : Fields OpValue}
    (hattrs : ∀ f ∈ attrs, f.1 ≠ "__proto__" ∧ f.1 ≠ "" ∧ f.2.Valid) : (entityOp id attrs).Valid := by
  refine ⟨nofun, fun f hf => ?_⟩
  rcases Fields.mem_put hf with rfl | ⟨hmem, -⟩
  · exact ⟨configId_ne_proto, Draft.configId_named.1, .str id⟩
  · exact hattrs f hmem

/-- What `entity` comes to. -/
def entityEffect (id : String) (attrs : Fields OpValue) (c : Context) : Option Graph → Effect Value
  | none => .error .noScope
  | some g =>
    match g.transact [entityOp id attrs] c.provenance with
    | .error r => .error (.rejected r)
    | .ok g' => .ok ((g'.find configId (.str id)).elim .undefined .nat, some g')

/-- A name that is found is resolved. -/
theorem reads_resolveId_of_find {c : Context} {g : Graph} {id : String} {e : EntityId}
    (hfind : g.find configId (.str id) = some e) :
    (resolveId (.str id)).Reads c (some g) (.ok (.entity e)) := by
  intro s hs
  refine ⟨s, ?_, rfl⟩
  rw [exec_resolveId hs, hfind]
  rfl

/-- **Once `entity` has written it does not fail**: the entity that it looks up is the one of its
create. -/
theorem does_entity {id : String} {attrs : Fields OpValue} (hvalid : (entityOp id attrs).Valid)
    {c : Context} {v : Option Graph} (hv : AllReachable v) :
    (entityBody id attrs).Does c v (entityEffect id attrs c v) := by
  have hwrites := does_perform (c := c) (v := v) (List.forall_mem_singleton.mpr hvalid) one_is_few
  cases v with
  | none => exact hwrites.bind_error _
  | some g =>
    unfold performance at hwrites
    unfold entityEffect
    dsimp only at hwrites ⊢
    cases htransact : g.transact [entityOp id attrs] c.provenance with
    | error r =>
      rw [htransact] at hwrites
      exact hwrites.bind_error _
    | ok g' =>
      rw [htransact] at hwrites
      obtain ⟨e, hfind⟩ := Graph.find_of_create (hv g rfl) hvalid
        (Fields.get?_put_self attrs configId _) htransact
      dsimp only
      rw [hfind]
      refine hwrites.bind_reads ?_
      exact (reads_resolveId_of_find hfind).bind_reads (reads_pure _)

theorem failsafe_entity {id : String} {attrs : Fields OpValue}
    (hattrs : ∀ f ∈ attrs, f.1 ≠ "__proto__" ∧ f.1 ≠ "" ∧ f.2.Valid) :
    (entityBody id attrs).Failsafe := by
  have hvalid : (entityOp id attrs).Valid := entityOp_valid hattrs
  refine ⟨entityEffect id attrs, fun c v hv => ⟨?_, fun x v' heffect => ?_⟩⟩
  · have hplain : entityEffect id attrs c.plain v = entityEffect id attrs c v := by
      unfold entityEffect
      rw [Context.provenance_plain]
    rw [hplain]
    exact does_entity hvalid hv
  · cases v with
    | none => exact nomatch heffect
    | some g =>
      unfold entityEffect at heffect
      dsimp only at heffect
      split at heffect
      · exact nomatch heffect
      · next g' htransact =>
        obtain ⟨-, rfl⟩ := Prod.mk.inj (Except.ok.inj heffect)
        intro g'' hg''
        obtain rfl := Option.some.inj hg''
        exact (hv g rfl).of_transact (List.forall_mem_singleton.mpr hvalid) one_is_few htransact

/-- A reference is only looked up. -/
theorem failsafe_ref (id : String) :
    (do let e ← resolveId (.str id); return .record .host [("ref", e.toValue)] :
      Act Session Value).Failsafe :=
  (reading_resolveId _).failsafe.map _

/-- An attribute is set after its entity has been looked up. -/
theorem failsafe_setAttr (id name : String) (value : OpValue) :
    (do
      let e ← resolveId (.str id)
      let _ ← transact (.list [assertOp e name value]) .undefined
      return e.toValue : Act Session Value).Failsafe :=
  (reading_resolveId _).bind fun e => (failsafe_transact _ _).map fun _ => e.toValue

/-! ## 4. All built-in functions -/

/-- **Every call of a built-in function is failsafe**, whatever its arguments. -/
theorem failsafe_builtin {f : DslFunction} (hf : f ∈ builtins) (args : List Value) :
    (f.invoke args).Failsafe := by
  refine DslFunction.failsafe_invoke fun body hbody => ?_
  simp only [builtins, List.mem_cons, List.not_mem_nil, or_false] at hf
  rcases hf with rfl | rfl | rfl
  · obtain ⟨p, hargs, rfl⟩ := map_eq_ok_iff.mp hbody
    obtain ⟨-, hattrs⟩ := both_eq_ok_iff.mp (sized_eq_ok hargs)
    exact failsafe_entity (optional_attrs_valid (argument_eq_ok hattrs))
  · obtain ⟨id, -, rfl⟩ := map_eq_ok_iff.mp hbody
    exact failsafe_ref id
  · obtain ⟨p, -, rfl⟩ := map_eq_ok_iff.mp hbody
    exact failsafe_setAttr p.1 p.2.1 p.2.2

end Dsl

end ConfGraph
