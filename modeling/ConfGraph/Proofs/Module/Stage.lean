import ConfGraph.Proofs.Module.Ledger
import Mathlib.Logic.Function.Basic

/-!
# Evaluations on stage

The journal can be replayed on what is remembered of modules and on a stack of the evaluations in
progress: a module enters when nothing is remembered of it, and is remembered from then on; when its
evaluation completes it leaves the stack and stays remembered; when it fails it leaves both; and what
is given to those who require it is what is remembered.  So what the journal can hold is settled by
this small machine alone.

* `Stage`, `Move`, `Moves`: the machine, and runs of it.
* `Stage.Sound`: what is in progress is remembered, and no module is in progress twice.
* `Moves.settled`: a module that is remembered and not in progress never enters again.
* `Moves.after_completed`, `Moves.completions_le_one`: nor does one that has completed.
* `Moves.completions_le_length`: so several modules complete no more often than there are modules.
* `Moves.began_or_remembered`, `Moves.kept_or_failed`: where memory comes from, and where it goes.
-/

namespace ConfGraph.Module

open Script

/-! ## 1. The machine -/

/-- What tells a module from others: its kind and its identifier. -/
abbrev ModuleKey := Bool × String

def Evaluation.key (e : Evaluation) : ModuleKey := (e.isConfig, e.id)

def Serving.key (x : Serving) : ModuleKey := (x.isConfig, x.id)

def Listed.key (m : Listed) : ModuleKey := (m.isConfig, m.id)

/-- **Where evaluations stand**: the module objects that are remembered, and the evaluations in
progress, innermost first. -/
structure Stage where
  memory : ModuleKey → Option CellId
  going : List Evaluation

/-- **What a moment does** on stage. -/
inductive Move (g : Stage) : Moment → Stage → Prop
  | began (e : Evaluation) (is_new : g.memory e.key = none) :
    Move g (.began e) ⟨Function.update g.memory e.key (some e.cell), e :: g.going⟩
  | completed (e : Evaluation) (rest : List Evaluation) (is_innermost : g.going = e :: rest) :
    Move g (.completed e) ⟨g.memory, rest⟩
  | failed (e : Evaluation) (rest : List Evaluation) (is_innermost : g.going = e :: rest) :
    Move g (.failed e) ⟨Function.update g.memory e.key none, rest⟩
  | served (x : Serving) (is_remembered : g.memory x.key = some x.cell) : Move g (.served x) g

/-- Any number of moments. -/
inductive Moves : Stage → List Moment → Stage → Prop
  | nil (g : Stage) : Moves g [] g
  | cons {g g₁ g' : Stage} {x : Moment} {xs : List Moment} (first : Move g x g₁)
    (rest : Moves g₁ xs g') : Moves g (x :: xs) g'

variable {g g' : Stage} {x : Moment} {xs ys : List Moment} {k : ModuleKey} {cell : CellId}

theorem Move.moves (h : Move g x g') : Moves g [x] g' := .cons h (.nil g')

/-- Runs can be cut anywhere. -/
theorem moves_append_iff : Moves g (xs ++ ys) g' ↔ ∃ g₁, Moves g xs g₁ ∧ Moves g₁ ys g' := by
  induction xs generalizing g with
  | nil =>
    constructor
    · intro h
      exact ⟨g, .nil g, h⟩
    · rintro ⟨g₁, ⟨⟩, h⟩
      exact h
  | cons x xs ih =>
    constructor
    · rintro (_ | ⟨hfirst, hrest⟩)
      obtain ⟨g₁, hxs, hys⟩ := ih.mp hrest
      exact ⟨g₁, .cons hfirst hxs, hys⟩
    · rintro ⟨g₁, _ | ⟨hfirst, hrest⟩, hys⟩
      exact .cons hfirst (ih.mpr ⟨g₁, hrest, hys⟩)

/-! ## 2. Soundness -/

/-- **What is in progress is remembered**, and no module is in progress twice. -/
structure Stage.Sound (g : Stage) : Prop where
  held : ∀ e ∈ g.going, g.memory e.key = some e.cell
  apart : (g.going.map Evaluation.key).Nodup

theorem Move.sound (h : Move g x g') (hg : g.Sound) : g'.Sound := by
  obtain ⟨hheld, hapart⟩ := hg
  cases h with
  | began e is_new =>
    -- what is in progress is remembered, so it is another module than the one that enters
    have hother : ∀ e' ∈ g.going, e'.key ≠ e.key := by
      intro e' he' hkey
      have hmemory := hheld e' he'
      rw [hkey, is_new] at hmemory
      cases hmemory
    constructor
    · intro e' he'
      rcases List.mem_cons.mp he' with rfl | he'
      · simp
      · simp [hother e' he', hheld e' he']
    · refine List.nodup_cons.mpr ⟨?_, hapart⟩
      intro hmem
      obtain ⟨e', he', hkey⟩ := List.mem_map.mp hmem
      exact hother e' he' hkey
  | completed e rest is_innermost =>
    rw [is_innermost] at hheld hapart
    exact ⟨fun e' he' => hheld e' (List.mem_cons_of_mem _ he'), (List.nodup_cons.mp hapart).2⟩
  | failed e rest is_innermost =>
    rw [is_innermost] at hheld hapart
    obtain ⟨hnot, hapart⟩ := List.nodup_cons.mp hapart
    refine ⟨fun e' he' => ?_, hapart⟩
    have hother : e'.key ≠ e.key := by
      intro hkey
      exact hnot (hkey ▸ List.mem_map_of_mem he')
    simp [hother, hheld e' (List.mem_cons_of_mem _ he')]
  | served => exact ⟨hheld, hapart⟩

theorem Moves.sound (h : Moves g xs g') (hg : g.Sound) : g'.Sound := by
  induction h with
  | nil => exact hg
  | cons hfirst _ ih => exact ih (hfirst.sound hg)

/-! ## 3. Modules that are settled -/

/-- A module is remembered and not in progress. -/
structure Stage.Settled (g : Stage) (k : ModuleKey) (cell : CellId) : Prop where
  memory : g.memory k = some cell
  not_going : k ∉ g.going.map Evaluation.key

/-- A moment evaluates no module of a key, and gives nobody another module object for it. -/
def Moment.Leaves (k : ModuleKey) (cell : CellId) : Moment → Prop
  | .began e | .completed e | .failed e => e.key ≠ k
  | .served x => x.key = k → x.cell = cell

theorem Move.settled (h : Move g x g') (hg : g.Settled k cell) :
    g'.Settled k cell ∧ x.Leaves k cell := by
  obtain ⟨hmemory, hnot⟩ := hg
  cases h with
  | began e is_new =>
    have hother : e.key ≠ k := by
      rintro rfl
      rw [is_new] at hmemory
      cases hmemory
    refine ⟨⟨?_, ?_⟩, hother⟩
    · simp [Ne.symm hother, hmemory]
    · rw [List.map_cons, List.mem_cons]
      rintro (rfl | hmem)
      · exact hother rfl
      · exact hnot hmem
  | completed e rest is_innermost =>
    rw [is_innermost, List.map_cons, List.mem_cons, not_or] at hnot
    exact ⟨⟨hmemory, hnot.2⟩, Ne.symm hnot.1⟩
  | failed e rest is_innermost =>
    rw [is_innermost, List.map_cons, List.mem_cons, not_or] at hnot
    refine ⟨⟨?_, hnot.2⟩, Ne.symm hnot.1⟩
    simp [hnot.1, hmemory]
  | served x is_remembered =>
    refine ⟨⟨hmemory, hnot⟩, ?_⟩
    rintro rfl
    rw [hmemory] at is_remembered
    exact (Option.some.inj is_remembered).symm

/-- **A module that is settled stays so**: it never enters again, and all who require it are given the
module object that is remembered. -/
theorem Moves.settled (h : Moves g xs g') (hg : g.Settled k cell) :
    g'.Settled k cell ∧ ∀ x ∈ xs, x.Leaves k cell := by
  induction h with
  | nil => exact ⟨hg, nofun⟩
  | cons hfirst _ ih =>
    obtain ⟨hg₁, hx⟩ := hfirst.settled hg
    obtain ⟨hg', hxs⟩ := ih hg₁
    exact ⟨hg', List.forall_mem_cons.mpr ⟨hx, hxs⟩⟩

/-- What completes is settled from then on. -/
theorem Move.settled_of_completed {e : Evaluation} (h : Move g (.completed e) g') (hg : g.Sound) :
    g'.Settled e.key e.cell := by
  obtain ⟨hheld, hapart⟩ := hg
  cases h with
  | completed e rest is_innermost =>
    rw [is_innermost] at hheld hapart
    exact ⟨hheld e List.mem_cons_self, (List.nodup_cons.mp hapart).1⟩

/-- **After an evaluation has completed** its module is settled. -/
theorem Moves.after_completed {before after : List Moment} {e : Evaluation}
    (h : Moves g (before ++ .completed e :: after) g') (hg : g.Sound) :
    g'.Settled e.key e.cell ∧ ∀ x ∈ after, x.Leaves e.key e.cell := by
  obtain ⟨g₁, hbefore, hrest⟩ := moves_append_iff.mp h
  rcases hrest with _ | ⟨hcompleted, hafter⟩
  exact hafter.settled (hcompleted.settled_of_completed (hbefore.sound hg))

/-! ## 4. Completions -/

/-- Whether a moment is the completion of an evaluation that has a property. -/
def Moment.completes (p : Evaluation → Bool) : Moment → Bool
  | .completed e => p e
  | _ => false

/-- How many evaluations that have a property have completed. -/
def completions (p : Evaluation → Bool) (moments : List Moment) : Nat :=
  moments.countP (Moment.completes p)

theorem completions_append (p : Evaluation → Bool) (xs ys : List Moment) :
    completions p (xs ++ ys) = completions p xs + completions p ys := List.countP_append

theorem completions_eq_zero_iff {p : Evaluation → Bool} :
    completions p xs = 0 ↔ ∀ e, .completed e ∈ xs → p e = false := by
  unfold completions
  rw [List.countP_eq_zero]
  constructor
  · intro h e he
    simpa [Moment.completes] using h _ he
  · intro h x hx
    cases x with
    | completed e => simp [Moment.completes, h e hx]
    | _ => simp [Moment.completes]

/-- Where no completion follows another one there is one at most. -/
theorem completions_le_one {p : Evaluation → Bool}
    (h : ∀ before e after, xs = before ++ .completed e :: after → p e = true →
      ∀ e', .completed e' ∈ after → p e' = false) : completions p xs ≤ 1 := by
  induction xs with
  | nil => exact Nat.zero_le 1
  | cons x xs ih =>
    have hrest : completions p xs ≤ 1 :=
      ih fun before e after hxs => h (x :: before) e after (by rw [hxs]; rfl)
    have hcons : completions p (x :: xs) = completions p [x] + completions p xs :=
      completions_append p [x] xs
    cases hx : x.completes p with
    | false =>
      have hzero : completions p [x] = 0 := by simp [completions, hx]
      omega
    | true =>
      obtain ⟨e, rfl, he⟩ : ∃ e, x = .completed e ∧ p e = true := by
        cases x with
        | completed e => exact ⟨e, rfl, hx⟩
        | _ => cases hx
      have hnone : completions p xs = 0 := completions_eq_zero_iff.mpr (h [] e xs rfl he)
      have hone : completions p [Moment.completed e] = 1 := by simp [completions, hx]
      omega

/-- **A module completes once at most** in a run. -/
theorem Moves.completions_le_one (h : Moves g xs g') (hg : g.Sound) {p : Evaluation → Bool}
    (hp : ∀ e e', .completed e ∈ xs → .completed e' ∈ xs → p e = true → p e' = true →
      e.key = e'.key) : completions p xs ≤ 1 := by
  refine Module.completions_le_one fun before e after hxs he e' he' => ?_
  subst hxs
  have hleaves := (h.after_completed hg).2 _ he'
  by_contra hpe'
  refine hleaves (hp e' e ?_ ?_ (by simpa using hpe') he)
  · exact List.mem_append_right _ (List.mem_cons_of_mem _ he')
  · exact List.mem_append_right _ List.mem_cons_self

theorem completions_le_add {p q r : Evaluation → Bool}
    (h : ∀ e, p e = true → q e = true ∨ r e = true) :
    completions p xs ≤ completions q xs + completions r xs := by
  induction xs with
  | nil => exact Nat.zero_le _
  | cons x xs ih =>
    simp only [completions, List.countP_cons] at ih ⊢
    by_cases hp : x.completes p = true
    · have hqr : x.completes q = true ∨ x.completes r = true := by
        cases x with
        | completed e => exact h e hp
        | _ => cases hp
      rcases hqr with hq | hr
      · simp only [hp, hq, if_true]
        omega
      · simp only [hp, hr, if_true]
        omega
    · rw [if_neg hp]
      omega

/-- **Evaluations of several modules** complete as often as there are modules, at most. -/
theorem Moves.completions_le_length (h : Moves g xs g') (hg : g.Sound) {p : Evaluation → Bool}
    {keys : List ModuleKey} (hp : ∀ e, .completed e ∈ xs → p e = true → e.key ∈ keys) :
    completions p xs ≤ keys.length := by
  induction keys generalizing p with
  | nil =>
    refine Nat.le_of_eq (completions_eq_zero_iff.mpr fun e he => ?_)
    by_contra hpe
    exact List.not_mem_nil (hp e he (by simpa using hpe))
  | cons k keys ih =>
    have hk : completions (fun e => e.key == k) xs ≤ 1 :=
      h.completions_le_one hg fun e e' _ _ he he' => (eq_of_beq he).trans (eq_of_beq he').symm
    have hrest : completions (fun e => p e && e.key != k) xs ≤ keys.length := by
      refine ih fun e he hpe => ?_
      obtain ⟨hpe, hne⟩ := Bool.and_eq_true_iff.mp hpe
      exact (List.mem_cons.mp (hp e he hpe)).resolve_left (ne_of_beq_false (by simpa using hne))
    have hadd : completions p xs ≤
        completions (fun e => e.key == k) xs + completions (fun e => p e && e.key != k) xs := by
      refine completions_le_add fun e hpe => ?_
      by_cases hkey : e.key = k
      · exact .inl (beq_iff_eq.mpr hkey)
      · exact .inr (by simp [hpe, hkey])
    rw [List.length_cons]
    omega

/-! ## 5. Where memory comes from, and where it goes -/

theorem Move.began_or_remembered (h : Move g x g') (hmemory : g'.memory k = some cell) :
    g.memory k = some cell ∨ ∃ e, x = .began e ∧ e.key = k ∧ e.cell = cell := by
  cases h with
  | began e is_new =>
    by_cases hk : k = e.key
    · subst hk
      exact .inr ⟨e, rfl, rfl, by simpa using hmemory⟩
    · exact .inl (by simpa [hk] using hmemory)
  | completed => exact .inl hmemory
  | failed e =>
    by_cases hk : k = e.key
    · simp [hk] at hmemory
    · exact .inl (by simpa [hk] using hmemory)
  | served => exact .inl hmemory

/-- **What is remembered** was so before, or its evaluation has begun since. -/
theorem Moves.began_or_remembered (h : Moves g xs g') (hmemory : g'.memory k = some cell) :
    g.memory k = some cell ∨ ∃ e, .began e ∈ xs ∧ e.key = k ∧ e.cell = cell := by
  induction h with
  | nil => exact .inl hmemory
  | cons hfirst _ ih =>
    rcases ih hmemory with hmemory | ⟨e, he, hkey⟩
    · rcases hfirst.began_or_remembered hmemory with hmemory | ⟨e, rfl, hkey⟩
      · exact .inl hmemory
      · exact .inr ⟨e, List.mem_cons_self, hkey⟩
    · exact .inr ⟨e, List.mem_cons_of_mem _ he, hkey⟩

theorem Move.kept_or_failed (h : Move g x g') (hg : g.Sound) (hmemory : g.memory k = some cell) :
    g'.memory k = some cell ∨ ∃ e, x = .failed e ∧ e.key = k ∧ e.cell = cell := by
  cases h with
  | began e is_new =>
    have hk : k ≠ e.key := by
      rintro rfl
      rw [is_new] at hmemory
      cases hmemory
    exact .inl (by simp [hk, hmemory])
  | completed => exact .inl hmemory
  | failed e rest is_innermost =>
    by_cases hk : k = e.key
    · subst hk
      have hheld := hg.held e (by simp [is_innermost])
      rw [hmemory] at hheld
      exact .inr ⟨e, rfl, rfl, (Option.some.inj hheld).symm⟩
    · exact .inl (by simp [hk, hmemory])
  | served => exact .inl hmemory

/-- **What was remembered** still is, or its evaluation has failed since. -/
theorem Moves.kept_or_failed (h : Moves g xs g') (hg : g.Sound) (hmemory : g.memory k = some cell) :
    g'.memory k = some cell ∨ ∃ e, .failed e ∈ xs ∧ e.key = k ∧ e.cell = cell := by
  induction h with
  | nil => exact .inl hmemory
  | cons hfirst _ ih =>
    rcases hfirst.kept_or_failed hg hmemory with hmemory | ⟨e, rfl, hkey⟩
    · rcases ih (hfirst.sound hg) hmemory with hmemory | ⟨e, he, hkey⟩
      · exact .inl hmemory
      · exact .inr ⟨e, List.mem_cons_of_mem _ he, hkey⟩
    · exact .inr ⟨e, List.mem_cons_self, hkey⟩

/-- What is given to somebody is remembered then. -/
theorem Moves.memory_of_served {before after : List Moment} {x : Serving}
    (h : Moves g (before ++ .served x :: after) g') :
    ∃ g₁, Moves g before g₁ ∧ g₁.memory x.key = some x.cell ∧ Moves g₁ after g' := by
  obtain ⟨g₁, hbefore, hrest⟩ := moves_append_iff.mp h
  rcases hrest with _ | ⟨hserved, hafter⟩
  cases hserved with
  | served x is_remembered => exact ⟨g₁, hbefore, is_remembered, hafter⟩

end ConfGraph.Module
