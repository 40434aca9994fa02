import ConfGraph.Proofs.Disk.Tree
import ConfGraph.Proofs.Module.Loading
import ConfGraph.Proofs.Module.Replay
import ConfGraph.Proofs.Script.Same

/-!
# Loads end

An evaluation begins where nothing is remembered of what it evaluates, and what it evaluates is
remembered until it ends.  So with every evaluation inside another one there is less left that could
begin, and evaluations are never nested as deep as requiring can follow them: what requiring would do at
that depth is never seen.

* `State.left`: how much is not remembered; `Ampler`: states that remember more.
* `plain_of_fileOf?`: the files that specifiers mean are files of the tree, by their resolved paths.
* `sameOn_requireOver`: requiring does not come to the bound of depth.
* `loads_end`: it does not matter what a load does there.
-/

namespace ConfGraph.Module

open Script ConfGraph.Path

/-! ## 1. What is left -/

/-- What can be evaluated: listed modules, and plain files by their paths. -/
abbrev Evaluable := ModuleKey ⊕ String

/-- Whether something is remembered. -/
def State.remembers (s : State) : Evaluable → Bool
  | .inl k => (s.memory k).isSome
  | .inr path => s.plain.has path

/-- All that can be evaluated: the modules of the listings, and the files of the tree. -/
def evaluables (d : Disk) (listings : List (List Listed)) : List Evaluable :=
  listings.flatten.map (fun m => .inl m.key) ++ d.root.filePaths.map fun cs => .inr (ofComponents cs)

/-- How much of something is not remembered. -/
def State.left (s : State) (all : List Evaluable) : Nat := all.countP fun x => !s.remembers x

/-- **A state that remembers more.** -/
structure Ampler (s s' : State) : Prop where
  listings : s'.listings = s.listings
  remembers : ∀ x, s.remembers x = true → s'.remembers x = true

variable {s s' : State} {all : List Evaluable} {d : Disk} {listings : List (List Listed)} {n : Nat}

theorem Ampler.left_le (h : Ampler s s') (all : List Evaluable) : s'.left all ≤ s.left all := by
  refine List.countP_mono_left fun x _ hx => ?_
  cases hs : s.remembers x with
  | false => rfl
  | true => simp [h.remembers x hs] at hx

/-- **Less is left** where something of it is remembered that was not. -/
theorem Ampler.left_lt (h : Ampler s s') {x : Evaluable} (hx : x ∈ all) (hbefore : s.remembers x = false)
    (hafter : s'.remembers x = true) : s'.left all < s.left all := by
  obtain ⟨front, back, rfl⟩ := List.append_of_mem hx
  have hfront := h.left_le front
  have hback := h.left_le back
  have hsplit : ∀ s : State, s.left (front ++ x :: back)
      = s.left front + (s.left back + if s.remembers x = false then 1 else 0) := by
    intro s
    simp [State.left, List.countP_append, List.countP_cons]
  rw [hsplit, hsplit, hbefore, hafter, if_pos rfl, if_neg (by decide)]
  omega

theorem tolerant_ampler : Tolerant AnyFunction Ampler where
  refl _ := ⟨rfl, fun _ h => h⟩
  trans h h' := ⟨h'.listings.trans h.listings, fun x hx => h'.remembers x (h.remembers x hx)⟩
  heap _ _ := ⟨rfl, fun x h => by cases x <;> exact h⟩
  session _ _ _ := ⟨rfl, fun x h => by cases x <;> exact h⟩
  invoke _ _ _ _ := ⟨rfl, fun x h => by cases x <;> exact h⟩

/-- At most so much is left of all that can be evaluated. -/
structure LeftAtMost (d : Disk) (listings : List (List Listed)) (n : Nat) (s : State) : Prop where
  known : s.listings = listings
  left_le : s.left (evaluables d listings) ≤ n

theorem LeftAtMost.ampler (hs : LeftAtMost d listings n s) (h : Ampler s s') : LeftAtMost d listings n s' :=
  ⟨h.listings.trans hs.known, (h.left_le _).trans hs.left_le⟩

/-- One less is left. -/
theorem LeftAtMost.lt (hs : LeftAtMost d listings n s) (h : Ampler s s') {x : Evaluable}
    (hx : x ∈ evaluables d listings) (hbefore : s.remembers x = false) (hafter : s'.remembers x = true) :
    ∃ n', n = n' + 1 ∧ LeftAtMost d listings n' s' := by
  have hlt := h.left_lt hx hbefore hafter
  have hle := hs.left_le
  exact ⟨n - 1, by omega, h.listings.trans hs.known, by omega⟩

theorem robust_leftAtMost (d : Disk) (listings : List (List Listed)) (n : Nat) :
    Robust (LeftAtMost d listings n) where
  heap s h hs := hs.ampler (tolerant_ampler.heap s h)
  session s t hs := hs.ampler ⟨rfl, fun x h => by cases x <;> exact h⟩

theorem leftAtMost_all (d : Disk) (s : State) :
    LeftAtMost d s.listings (evaluables d s.listings).length s :=
  ⟨rfl, List.countP_le_length⟩

/-- The bound of depth is above the number of all that can be evaluated. -/
theorem depth_eq (d : Disk) (s : State) : s.depth d = (evaluables d s.listings).length + 1 := by
  have hfold : ∀ (listings : List (List Listed)) (n : Nat),
      listings.foldl (fun n all => n + all.length) n = n + listings.flatten.length := by
    intro listings
    induction listings with
    | nil => exact fun _ => rfl
    | cons all rest ih =>
      intro n
      rw [List.foldl_cons, ih, List.flatten_cons, List.length_append, Nat.add_assoc]
  rw [State.depth, hfold, evaluables, List.length_append, List.length_map, List.length_map,
    Node.length_filePaths, Disk.fileCount]
  omega

/-! ## 2. Plain files -/

/-- A file of the tree, by its resolved path. -/
def IsPlainOf (d : Disk) (file : String) : Prop := resolve "/" file = file ∧ isFile d file = true

theorem mem_evaluables_of_plain {file : String} (h : IsPlainOf d file) :
    .inr file ∈ evaluables d listings := by
  obtain ⟨hresolved, hfile⟩ := h
  unfold isFile at hfile
  split at hfile
  · next text hat =>
    refine List.mem_append_right _ (List.mem_map.mpr ⟨_, Node.mem_filePaths hat, ?_⟩)
    exact congrArg Sum.inr hresolved
  · cases hfile

theorem isPlainOf_of_extended? {path file : String} {cs : List String} (hcs : ∀ c ∈ cs, IsName c)
    (hpath : path = ofComponents cs) (h : extended? d path = some file) : IsPlainOf d file := by
  subst hpath
  have hfile : isFile d file = true := List.find?_some h
  have hmem := List.mem_of_find?_eq_some h
  simp only [List.map_cons, List.map_nil, List.mem_cons, List.not_mem_nil, or_false] at hmem
  rcases hmem with rfl | rfl
  · exact ⟨resolve_append (by decide) ⟨'j', by decide⟩ hcs, hfile⟩
  · exact ⟨resolve_append (by decide) ⟨'j', by decide⟩ hcs, hfile⟩

theorem isPlainOf_of_fileAt? {base specifier file : String} {mustBeDir : Bool}
    (h : fileAt? d mustBeDir (resolve base specifier) = some file) : IsPlainOf d file := by
  have hnames : ∀ c ∈ resolvedComponents base specifier, IsName c := fun _ hc => isName_of_resolved hc
  have hdirect : ∀ file, (if mustBeDir then none
      else if isFile d (resolve base specifier) then some (resolve base specifier)
      else extended? d (resolve base specifier)) = some file → IsPlainOf d file := by
    intro file hfile
    split at hfile
    · cases hfile
    · split at hfile
      · next hisFile =>
        obtain rfl := Option.some.inj hfile
        exact ⟨resolve_ofComponents "/" hnames, hisFile⟩
      · exact isPlainOf_of_extended? hnames rfl hfile
  unfold fileAt? at h
  dsimp only at h
  split at h
  · next own hown =>
    obtain rfl := Option.some.inj h
    exact hdirect own hown
  · split at h
    · have hindex : ∀ c ∈ resolvedComponents base specifier ++ ["index"], IsName c := by
        intro c hc
        rcases List.mem_append.mp hc with hc | hc
        · exact hnames c hc
        · obtain rfl := List.mem_singleton.mp hc
          decide
      exact isPlainOf_of_extended? hindex (child_ofComponents hnames "index") h
    · cases h

/-- **The file that a specifier means** is a file of the tree, by its resolved path. -/
theorem plain_of_fileOf? {path specifier file : String} (h : fileOf? d path specifier = some file) :
    IsPlainOf d file := by
  unfold fileOf? at h
  dsimp only at h
  split at h
  · exact isPlainOf_of_fileAt? h
  · obtain ⟨dir, -, hdir⟩ := List.exists_of_findSome?_eq_some h
    exact isPlainOf_of_fileAt? hdir

/-! ## 3. Evaluations -/

/-- An evaluation that begins. -/
theorem Begins.ampler {e : Evaluation} (h : Begins s e s') (hplain : s'.plain = s.plain) :
    Ampler s s' ∧ s.remembers (.inl e.key) = false ∧ s'.remembers (.inl e.key) = true := by
  refine ⟨⟨h.listings, fun x hx => ?_⟩, by simp [State.remembers, h.is_new], by
    simp [State.remembers, h.memory]⟩
  cases x with
  | inl k =>
    by_cases hk : k = e.key
    · simp [State.remembers, h.memory, hk]
    · simpa [State.remembers, h.memory, hk] using hx
  | inr path => simpa [State.remembers, hplain] using hx

/-- An evaluation that ends, from when it began: what was remembered before it still is. -/
theorem ampler_ending {e : Evaluation} {t : State} (h : Ampler s s')
    (hnew : s.remembers (.inl e.key) = false) (ht : Ampler s' t) (r : Except Fault Unit) (c : Context) :
    Ampler s ((ending e r).exec c t).2 := by
  have hst : Ampler s t := tolerant_ampler.trans h ht
  cases r with
  | ok _ => exact ⟨hst.listings, fun x hx => by cases x <;> exact hst.remembers _ hx⟩
  | error f =>
    let t' : State := (t.withCache e.isConfig fun c => c.forget e.id).noting (.failed e)
    have hsame : t'.listings = t.listings ∧ t'.plain = t.plain := by
      show ((t.withCache e.isConfig _).noting _).listings = _ ∧
        ((t.withCache e.isConfig _).noting _).plain = _
      cases e.isConfig <;> exact ⟨rfl, rfl⟩
    refine ⟨hsame.1.trans hst.listings, fun x hx => ?_⟩
    have hx' := hst.remembers x hx
    show t'.remembers x = true
    cases x with
    | inl k =>
      have hk : k ≠ e.key := by
        rintro rfl
        rw [hnew] at hx
        cases hx
      simpa [State.remembers, t', memory_failed, hk] using hx'
    | inr path => simpa [State.remembers, hsame.2] using hx'

/-- How the evaluation of a plain file goes on when its text has run. -/
def endingPlain (path : String) (cell : CellId) : Except Fault Unit → Act State Datum
  | .ok () => exportsOf cell
  | .error f => do
    changePlain fun c => c.forget path
    Act.fail f

/-- **What evaluating a plain file comes to** that is not remembered. -/
theorem exec_evaluatePlain_of_new (d : Disk) {path : String} (c : Context)
    (h : s.remembers (.inr path) = false) :
    ∃ exports cell s', Ampler s s' ∧ s'.remembers (.inr path) = true ∧ ∀ require : Require,
      (evaluatePlain require d path).exec c s =
        (endingPlain path cell ((runPlain require d path exports cell).exec c s').1).exec c
          ((runPlain require d path exports cell).exec c s').2 := by
  have hnone : s.plain.lookup path = none := by simpa [State.remembers, Cache.has] using h
  have hremembered : (rememberedPlain? path).exec c s = (.ok none, s) := by
    rw [← hnone]
    rfl
  rcases hmade : makeModule.exec c s with ⟨_ | ⟨exports, cell⟩, s₁⟩
  · exact nomatch hmade
  · obtain ⟨heap, rfl⟩ : ∃ heap, s₁ = { s with heap } := ⟨_, (congrArg Prod.snd hmade).symm⟩
    let s' : State := { s with heap, plain := s.plain ++ [(path, cell)] }
    have hchange : (changePlain fun c => c ++ [(path, cell)]).exec c { s with heap } = (.ok (), s') := rfl
    refine ⟨exports, cell, s', ⟨rfl, fun x hx => ?_⟩, ?_, fun require => ?_⟩
    · cases x with
      | inl k => exact hx
      | inr file =>
        rw [State.remembers, Cache.has_iff] at hx ⊢
        rw [Cache.ids, List.map_append]
        exact List.mem_append_left _ hx
    · rw [State.remembers, Cache.has_iff, Cache.ids, List.map_append]
      exact List.mem_append_right _ (List.mem_singleton.mpr rfl)
    · unfold evaluatePlain
      rw [Act.exec_bind_of_ok hremembered]
      dsimp only
      rw [Act.exec_bind_of_ok hmade]
      dsimp only
      rw [Act.exec_bind_of_ok hchange, Act.exec_outcome_bind]
      rcases ((runPlain require d path exports cell).exec c s').1 with f | _ <;> rfl

theorem exec_evaluatePlain_of_known (require : Require) (d : Disk) {path : String} {cell : CellId}
    (h : s.plain.lookup path = some cell) (c : Context) :
    (evaluatePlain require d path).exec c s = (exportsOf cell).exec c s := by
  have hremembered : (rememberedPlain? path).exec c s = (.ok (some cell), s) := by
    rw [← h]
    rfl
  unfold evaluatePlain
  rw [Act.exec_bind_of_ok hremembered]

/-! ## 4. Requiring remembers -/

/-- An act remembers what was remembered. -/
abbrev KeepsAmpler {α : Type} (a : Act State α) : Prop := Keeps AnyFunction Ampler a

theorem KeepsAmpler.of_composed {α : Type} {a : Act State α}
    (ha : Composed AnyFunction (fun _ a => KeepsAmpler a) a) : KeepsAmpler a :=
  ha.keeps tolerant_ampler fun _ _ h => h

theorem KeepsAmpler.ampler {α : Type} {a : Act State α} (ha : KeepsAmpler a) (c : Context) (s : State) :
    Ampler s (a.exec c s).2 := (ha c s (Heap.only_of_forall (fun _ => trivial) _)).2

theorem keepsAmpler_of_forall {α : Type} {a : Act State α} (ha : ∀ c s, Ampler s (a.exec c s).2) :
    KeepsAmpler a := fun c s _ => ⟨Heap.only_of_forall (fun _ => trivial) _, ha c s⟩

theorem keepsAmpler_of_same {α : Type} {a : Act State α} (ha : ∀ c s, (a.exec c s).2 = s) :
    KeepsAmpler a :=
  keepsAmpler_of_forall fun c s => by
    rw [ha]
    exact tolerant_ampler.refl s

theorem keepsAmpler_serve (x : Serving) : KeepsAmpler (serve x) :=
  keepsAmpler_of_forall fun _ _ => ⟨rfl, fun x h => by cases x <;> exact h⟩

section Require

variable {require : Require} (hrequire : ∀ who d, KeepsAmpler (require who d))
include hrequire

theorem keepsAmpler_moduleObject (d : Disk) (globals : Fields Global) (listing : Nat) (m : Listed) :
    KeepsAmpler (moduleObject require d globals listing m) := by
  refine keepsAmpler_of_forall fun c s => ?_
  cases hknown : (s.cache m.isConfig).lookup m.id with
  | some cell =>
    rw [exec_moduleObject_of_some require d globals listing m c hknown]
    exact tolerant_ampler.refl s
  | none =>
    obtain ⟨exports, e, s', -, hbegins, -, -, hplain, hexec⟩ :=
      exec_moduleObject_of_new d globals listing m c hknown
    have htext : KeepsAmpler (runText require d globals listing m exports e.cell) :=
      .of_composed (composed_runText (fun who d => .given (hrequire who d)) d (onlyGlobals_any globals)
        _ _ _ _)
    obtain ⟨hampler, hnew, -⟩ := hbegins.ampler hplain
    rw [hexec]
    exact ampler_ending hampler hnew (htext.ampler c s') _ c

theorem keepsAmpler_evaluatePlain (d : Disk) (path : String) :
    KeepsAmpler (evaluatePlain require d path) := by
  refine keepsAmpler_of_forall fun c s => ?_
  have hexports : ∀ cell, KeepsAmpler (exportsOf cell) := fun cell => .of_composed (composed_exportsOf cell)
  cases hknown : s.remembers (.inr path) with
  | true =>
    obtain ⟨cell, hcell⟩ := Option.isSome_iff_exists.mp hknown
    rw [exec_evaluatePlain_of_known require d hcell]
    exact (hexports cell).ampler c s
  | false =>
    obtain ⟨exports, cell, s', hampler, -, hexec⟩ := exec_evaluatePlain_of_new d c hknown
    have htext : KeepsAmpler (runPlain require d path exports cell) :=
      .of_composed (composed_runPlain (fun who d => .given (hrequire who d)) d path exports cell)
    have hrun := tolerant_ampler.trans hampler (htext.ampler c s')
    rw [hexec]
    rcases ((runPlain require d path exports cell).exec c s').1 with f | _
    · refine ⟨hrun.listings, fun x hx => ?_⟩
      cases x with
      | inl k => exact hrun.remembers _ hx
      | inr file =>
        have hfile : file ≠ path := by
          rintro rfl
          rw [hknown] at hx
          cases hx
        have hlater := hrun.remembers _ hx
        rw [State.remembers, Cache.has_iff] at hlater ⊢
        obtain ⟨p, hp, rfl⟩ := List.mem_map.mp hlater
        exact List.mem_map_of_mem (Cache.mem_forget.mpr ⟨hp, hfile⟩)
    · exact tolerant_ampler.trans hrun ((hexports cell).ampler c _)

theorem keepsAmpler_requirePlain (d : Disk) (path : String) (specifier : Datum) :
    KeepsAmpler (requirePlain require d path specifier) := by
  unfold requirePlain
  split
  · exact .of_composed (.fail _)
  · split
    · next file _ => exact fun c s hs => keepsAmpler_evaluatePlain hrequire d file _ s hs
    · exact .of_composed (.fail _)
  · exact .of_composed (.fail _)

end Require

/-! ## 5. Requiring to the bound of depth -/

/-- **Requiring remembers what was remembered.** -/
theorem keepsAmpler_requireStep {require : Require} (hrequire : ∀ who d, KeepsAmpler (require who d))
    (d : Disk) (globals : Fields Global) (who : Requirer) (specifier : Datum) :
    KeepsAmpler (requireStep require d globals who specifier) := by
  have hplain := keepsAmpler_requirePlain hrequire d
  unfold requireStep
  split
  · exact hplain _ _
  · refine Keeps.bind tolerant_ampler (keepsAmpler_of_same fun _ _ => rfl) fun all => ?_
    split
    · next m _ =>
      have hmodule := keepsAmpler_moduleObject hrequire d globals
      exact KeepsAmpler.of_composed (composed_throughHost _
        (composed_requireListed (.given (hmodule _ m)) keepsAmpler_serve _ _))
    · exact hplain _ _
  · exact .of_composed (.fail _)
  · exact .of_composed (.fail _)
  · exact .of_composed (.fail _)

theorem keepsAmpler_requireWithin (d : Disk) (globals : Fields Global) :
    ∀ (depth : Nat) (who : Requirer) (specifier : Datum),
      KeepsAmpler (requireWithin d globals depth who specifier)
  | 0, _, _ => .of_composed (.fail _)
  | depth + 1, who, specifier =>
    keepsAmpler_requireStep (keepsAmpler_requireWithin d globals depth) d globals who specifier

section Same

variable {require require' : Require} (hkeeps : ∀ who spec, KeepsAmpler (require who spec))
  (hsame : ∀ n', n = n' + 1 → ∀ who spec,
    SameOn (LeftAtMost d listings n') (require who spec) (require' who spec))
include hkeeps hsame

/-- **Evaluating a module** looks only at requiring where less is left. -/
theorem sameOn_moduleObject (globals : Fields Global) (listing : Nat) {m : Listed}
    (hm : m ∈ listings.flatten) : SameOn (LeftAtMost d listings n)
      (moduleObject require d globals listing m) (moduleObject require' d globals listing m) := by
  intro c s hs
  refine ⟨?_, hs.ampler ((keepsAmpler_moduleObject hkeeps d globals listing m).ampler c s)⟩
  cases hknown : (s.cache m.isConfig).lookup m.id with
  | some cell =>
    rw [exec_moduleObject_of_some require' d globals listing m c hknown,
      exec_moduleObject_of_some require d globals listing m c hknown]
  | none =>
    obtain ⟨exports, e, s', ⟨hid, hkind, -⟩, hbegins, -, -, hplain, hexec⟩ :=
      exec_moduleObject_of_new d globals listing m c hknown
    obtain ⟨hampler, hnew, hheld⟩ := hbegins.ampler hplain
    have hkey : e.key = m.key := by rw [Listed.key, Evaluation.key, hid, hkind]
    have hmem : .inl e.key ∈ evaluables d listings := by
      rw [hkey]
      exact List.mem_append_left _ (List.mem_map_of_mem hm)
    obtain ⟨n', hn, hs'⟩ := hs.lt hampler hmem hnew hheld
    have hQ := robust_leftAtMost d listings n'
    have htext : SameOn (LeftAtMost d listings n') (runText require d globals listing m exports e.cell)
        (runText require' d globals listing m exports e.cell) := by
      refine (hQ.sameOn (composed_ofExcept _)).bind fun text => ?_
      refine (hQ.sameOn (composed_ofExcept _)).bind fun program => ?_
      refine (hQ.sameOn (composed_makeGlobals (onlyGlobals_any globals))).bind fun _ => ?_
      refine (hQ.sameOn (composed_makeRequire _ _)).bind fun _ => ?_
      exact sameOn_evaluate hQ (hsame n' hn) _
    rw [hexec, hexec, (htext c s' hs').1]

/-- **Evaluating a plain file** looks only at requiring where less is left. -/
theorem sameOn_evaluatePlain {file : String} (hfile : IsPlainOf d file) : SameOn (LeftAtMost d listings n)
    (evaluatePlain require d file) (evaluatePlain require' d file) := by
  intro c s hs
  refine ⟨?_, hs.ampler ((keepsAmpler_evaluatePlain hkeeps d file).ampler c s)⟩
  cases hknown : s.remembers (.inr file) with
  | true =>
    obtain ⟨cell, hcell⟩ := Option.isSome_iff_exists.mp hknown
    rw [exec_evaluatePlain_of_known require' d hcell, exec_evaluatePlain_of_known require d hcell]
  | false =>
    obtain ⟨exports, cell, s', hampler, hheld, hexec⟩ := exec_evaluatePlain_of_new d c hknown
    obtain ⟨n', hn, hs'⟩ := hs.lt hampler (mem_evaluables_of_plain hfile) hknown hheld
    have hQ := robust_leftAtMost d listings n'
    have htext : SameOn (LeftAtMost d listings n') (runPlain require d file exports cell)
        (runPlain require' d file exports cell) := by
      refine (hQ.sameOn (composed_ofExcept _)).bind fun text => ?_
      split
      · split
        · exact hQ.sameOn (.fail _)
        · exact hQ.sameOn (.bind (composed_adopt _) fun _ => composed_writeField _ _ _ _)
      · refine (hQ.sameOn (composed_ofExcept _)).bind fun program => ?_
        refine (hQ.sameOn (composed_makeGlobals onlyGlobals_console)).bind fun _ => ?_
        refine (hQ.sameOn (composed_makeRequire _ _)).bind fun _ => ?_
        exact sameOn_evaluate hQ (hsame n' hn) _
    rw [hexec, hexec, (htext c s' hs').1]

theorem sameOn_requirePlain (path : String) (specifier : Datum) : SameOn (LeftAtMost d listings n)
    (requirePlain require d path specifier) (requirePlain require' d path specifier) := by
  have hQ := robust_leftAtMost d listings n
  unfold requirePlain
  split
  · exact hQ.sameOn (.fail _)
  · split
    · next file hfile => exact (sameOn_evaluatePlain hkeeps hsame (plain_of_fileOf? hfile)).inside _
    · exact hQ.sameOn (.fail _)
  · exact hQ.sameOn (.fail _)

/-- **One level of requiring** looks only at the next where less is left. -/
theorem sameOn_requireStep (globals : Fields Global) (who : Requirer) (specifier : Datum) :
    SameOn (LeftAtMost d listings n) (requireStep require d globals who specifier)
      (requireStep require' d globals who specifier) := by
  have hQ := robust_leftAtMost d listings n
  have hplain := sameOn_requirePlain hkeeps hsame
  unfold requireStep
  split
  · exact hplain _ _
  · next number spec _ =>
    intro c s hs
    have hlisted : (listed number).exec c s = (.ok (listings[number]?.getD []), s) := by
      rw [← hs.known]
      rfl
    rw [Act.exec_bind_of_ok hlisted, Act.exec_bind_of_ok hlisted]
    split
    · next m htarget =>
      obtain ⟨all, hall, htarget⟩ := listing_of_target? htarget
      have hm : m ∈ listings.flatten :=
        List.mem_flatten.mpr ⟨all, List.mem_of_getElem? hall, mem_of_target? htarget⟩
      have hserve : ∀ x, SameOn (LeftAtMost d listings n) (serve x) (serve x) := fun x c s hs =>
        ⟨rfl, hs.ampler ((keepsAmpler_serve x).ampler c s)⟩
      have hmodule := sameOn_moduleObject hkeeps hsame globals number hm
      have hrequired : SameOn (LeftAtMost d listings n)
          (requireListed require d globals number who.path spec m)
          (requireListed require' d globals number who.path spec m) :=
        hmodule.bind fun _ => (hserve _).bind fun _ => hQ.sameOn (composed_exportsOf _)
      exact hrequired.inside _ c s hs
    · exact hplain _ _ c s hs
  · exact hQ.sameOn (.fail _)
  · exact hQ.sameOn (.fail _)
  · exact hQ.sameOn (.fail _)

end Same

/-- **The bound of depth is never met** where it is above what is left. -/
theorem sameOn_requireOver (bottom : Require) (globals : Fields Global) :
    ∀ (n : Nat) (who : Requirer) (specifier : Datum), SameOn (LeftAtMost d listings n)
      (requireWithin d globals (n + 1) who specifier) (requireOver bottom d globals (n + 1) who specifier)
  | 0, who, specifier =>
    sameOn_requireStep (keepsAmpler_requireWithin d globals 0) (fun _ hn => absurd hn (by omega)) globals who
      specifier
  | n + 1, who, specifier =>
    sameOn_requireStep (keepsAmpler_requireWithin d globals (n + 1))
      (fun n' hn => by
        obtain rfl : n = n' := Nat.succ.inj hn
        exact sameOn_requireOver bottom globals n)
      globals who specifier

/-! ## 6. Loads -/

/-- Evaluating a module, with the bound of depth as a load sets it. -/
theorem evaluateModule_over (bottom : Require) (globals : Fields Global) (listing : Nat) {m : Listed}
    (hm : m ∈ s.listings.flatten) (c : Context) :
    (evaluateModule (requireWithin d globals (s.depth d)) d globals listing m).exec c s
      = (evaluateModule (requireOver bottom d globals (s.depth d)) d globals listing m).exec c s := by
  rw [depth_eq]
  have hall := leftAtMost_all d s
  have hmodule := sameOn_moduleObject (n := (evaluables d s.listings).length + 1)
    (keepsAmpler_requireWithin d globals _) (fun n' hn => by
      obtain rfl := Nat.succ.inj hn
      exact sameOn_requireOver bottom globals _) globals listing hm
  have hexports := hmodule.bind fun cell =>
    (robust_leftAtMost d s.listings _).sameOn (composed_exportsOf cell)
  exact (hexports c s ⟨hall.known, Nat.le_succ_of_le hall.left_le⟩).1.symm

/-- **Loads end.**  However deep modules and files require each other, in whatever cycles, and whichever
evaluations fail: a load never comes to the bound of depth, so that it does not matter what is done
there. -/
theorem loads_end (bottom : Require) (d : Disk) (globals : Fields Global)
    (listing : Except Fault (List Listed)) (id : String) (c : Context) (s : State) :
    (loadOver bottom d globals listing id).exec c s = (load d globals listing id).exec c s := by
  unfold load loadOver
  refine Act.exec_bind_congr fun all s₁ _ => ?_
  cases hfind : all.find? fun m => m.id == id with
  | none => rfl
  | some m =>
    dsimp only
    split
    · refine Act.exec_bind_congr fun _ s₂ _ => Act.exec_bind_congr fun _ s₃ _ => ?_
      refine Act.exec_bind_congr fun _ s₄ _ => Act.exec_bind_congr fun number s₅ hkept => ?_
      refine Act.exec_bind_congr fun t s₆ ht => ?_
      obtain ⟨⟨⟩, rfl⟩ := Prod.mk.inj ht
      obtain ⟨-, rfl⟩ := Prod.mk.inj hkept
      exact (evaluateModule_over bottom globals number
        (List.mem_flatten.mpr ⟨all, by simp, List.mem_of_find?_eq_some hfind⟩) c).symm
    · rfl

end ConfGraph.Module
