import ConfGraph.Proofs.Module.Counting
import ConfGraph.Proofs.Module.Ending

/-!
# Evaluations inside one another

While a load runs, evaluations of modules are in progress inside one another.  What is in progress is
remembered, so no module of one kind is entered again; and an identifier stands for one module as long as
no module has changed its kind between the listings by which modules are asked for.  A library that is kept
asks by the listing of its own load, and may so enter a config module anew, as the library that it was.

* `inProgress`: the evaluations in progress after some moments.
* `OneKind`: listings in which an identifier has one kind.
* `recursion_is_bounded`: what is in progress at any moment of a load, and that the load ends.
* `entered_inside_itself`: a module that has changed its kind, inside its own evaluation.
-/

namespace ConfGraph.Module

open Script

variable {g g' : Stage} {x : Moment} {xs : List Moment} {s : State} {all : List Listed}

/-! ## 1. The evaluations in progress -/

/-- What a moment does to the evaluations in progress, innermost first. -/
def Moment.onGoing (going : List Evaluation) : Moment → List Evaluation
  | .began e => e :: going
  | .completed _ | .failed _ => going.tail
  | .served _ => going

/-- **The evaluations in progress** after some moments, innermost first. -/
def inProgress (told : List Moment) : List Evaluation := told.foldl Moment.onGoing []

theorem Move.going_eq (h : Move g x g') : g'.going = x.onGoing g.going := by
  cases h with
  | began e is_new => rfl
  | completed e rest is_innermost => rw [Moment.onGoing, is_innermost, List.tail_cons]
  | failed e rest is_innermost => rw [Moment.onGoing, is_innermost, List.tail_cons]
  | served => rfl

theorem Moves.going_eq (h : Moves g xs g') : g'.going = xs.foldl Moment.onGoing g.going := by
  induction h with
  | nil => rfl
  | cons hfirst _ ih => rw [ih, hfirst.going_eq, List.foldl_cons]

/-- What is in progress has begun. -/
theorem began_of_mem_inProgress {told : List Moment} {e : Evaluation} (h : e ∈ inProgress told) :
    .began e ∈ told := by
  have hfold : ∀ (told : List Moment) (going : List Evaluation),
      e ∈ told.foldl Moment.onGoing going → e ∈ going ∨ .began e ∈ told := by
    intro told
    induction told with
    | nil => exact fun going h => .inl h
    | cons x rest ih =>
      intro going h
      rcases ih _ h with h | h
      · cases x with
        | began e' =>
          rcases List.mem_cons.mp h with rfl | h
          · exact .inr List.mem_cons_self
          · exact .inl h
        | completed e' => exact .inl (List.mem_of_mem_tail h)
        | failed e' => exact .inl (List.mem_of_mem_tail h)
        | served => exact .inl h
      · exact .inr (List.mem_cons_of_mem _ h)
  exact (hfold told [] h).resolve_left List.not_mem_nil

/-- **No module of one kind is in progress twice**, at any moment of what can be replayed. -/
theorem Follows.apart {s₀ s' : State} {told rest : List Moment} (h : Follows s₀ (told ++ rest) s') :
    ((inProgress told).map Evaluation.key).Nodup := by
  obtain ⟨g₁, htold, -⟩ := moves_append_iff.mp (h.moves [])
  have hsound := htold.sound ⟨nofun, List.nodup_nil⟩
  rw [inProgress, ← htold.going_eq]
  exact hsound.apart

/-! ## 2. Identifiers of one kind -/

/-- An identifier is that of a config module in all of the listings, or in none of them. -/
def OneKind (listings : List (List Listed)) : Prop :=
  ∀ l ∈ listings, ∀ l' ∈ listings, ∀ m ∈ l, ∀ m' ∈ l', m.id = m'.id → m.isConfig = m'.isConfig

/-- Listings that are all the same have one kind for each identifier, if none has a module twice. -/
theorem oneKind_of_same {listings : List (List Listed)} (hsame : ∀ l ∈ listings, l = all)
    (hall : (all.map (·.id)).Nodup) : OneKind listings := by
  intro l hl l' hl' m hm m' hm' hid
  rw [hsame l hl] at hm
  rw [hsame l' hl'] at hm'
  rw [List.inj_on_of_nodup_map hall hm hm' hid]

/-- Where each identifier has one kind, identifiers tell evaluations apart. -/
theorem OneKind.nodup_ids {listings : List (List Listed)} (h : OneKind listings) {es : List Evaluation}
    (hes : ∀ e ∈ es, ∃ l ∈ listings, ∃ m ∈ l, e.IsOf m) (hapart : (es.map Evaluation.key).Nodup) :
    (es.map (·.id)).Nodup := by
  have hkind : ∀ e ∈ es, ∀ e' ∈ es, e.id = e'.id → e.key = e'.key := by
    intro e he e' he' hid
    obtain ⟨l, hl, m, hm, hkey, -⟩ := hes e he
    obtain ⟨l', hl', m', hm', hkey', -⟩ := hes e' he'
    have hids : m.id = m'.id := by
      have hm : e.id = m.id := congrArg Prod.snd hkey
      have hm' : e'.id = m'.id := congrArg Prod.snd hkey'
      rw [← hm, ← hm', hid]
    rw [hkey, hkey', Listed.key, Listed.key, h l hl l' hl' m hm m' hm' hids, hids]
  refine List.Nodup.map_on ?_ hapart.of_map
  intro e he e' he' hid
  exact List.inj_on_of_nodup_map hapart he he' (hkind e he e' he' hid)

/-- Evaluations that are told apart by what modules tell are no more than the modules. -/
theorem length_le_of_nodup_map {β : Type} {f : Evaluation → β} (g : Listed → β) {es : List Evaluation}
    (hapart : (es.map f).Nodup) (hes : ∀ e ∈ es, ∃ m ∈ all, f e = g m) : es.length ≤ all.length := by
  have hsubset : es.map f ⊆ all.map g := by
    intro x hx
    obtain ⟨e, he, rfl⟩ := List.mem_map.mp hx
    obtain ⟨m, hm, hem⟩ := hes e he
    exact List.mem_map.mpr ⟨m, hm, hem.symm⟩
  have hle := hapart.length_le_of_subset hsubset
  rwa [List.length_map, List.length_map] at hle

/-! ## 3. Loads -/

/-- What a load tells can be replayed from some state with its listing, if it tells anything. -/
theorem since_load (d : Disk) (globals : Fields Global) (all : List Listed) (id : String) (c : Context)
    (s : State) :
    since s ((load d globals (.ok all) id).exec c s).2 = [] ∨
      ∃ s₀, s₀.listings = s.listings ++ [all] ∧
        Follows s₀ (since s ((load d globals (.ok all) id).exec c s).2)
          ((load d globals (.ok all) id).exec c s).2 := by
  by_cases hrefused : Refused (.ok all) id
  · rw [load_of_refused hrefused, since_self]
    exact .inl rfl
  · obtain ⟨all', m, hlist, hfind, hm⟩ := passed_of_not_refused hrefused
    obtain rfl := Except.ok.inj hlist
    obtain ⟨s₀, new, hjournal, hlistings, -, -, hfollows, -⟩ := load_follows d globals hfind hm c s
    rw [hfollows.since_eq hjournal]
    exact .inr ⟨s₀, hlistings, hfollows⟩

/-- **What is in progress during a load**: modules of the listings, and none of one kind twice. -/
theorem inProgress_of_load {d : Disk} {globals : Fields Global} {id : String} {c : Context}
    {told rest : List Moment}
    (hsplit : since s ((load d globals (.ok all) id).exec c s).2 = told ++ rest) :
    ((inProgress told).map Evaluation.key).Nodup ∧
      ∀ e ∈ inProgress told, ∃ l ∈ s.listings ++ [all], ∃ m ∈ l, e.IsOf m := by
  rcases since_load d globals all id c s with hnone | ⟨s₀, hlistings, hfollows⟩
  · rw [hnone] at hsplit
    obtain rfl := (List.append_eq_nil_iff.mp hsplit.symm).1
    exact ⟨List.nodup_nil, nofun⟩
  · rw [hsplit] at hfollows
    refine ⟨hfollows.apart, fun e he => ?_⟩
    rw [← hlistings]
    exact hfollows.genuine _ (List.mem_append_left _ (began_of_mem_inProgress he))

/-- **The recursion of modules is bounded**, whatever modules require each other, in whatever cycles, and
whichever evaluations fail or are caught when they do.  At any moment of a load:

* no module of one kind is in progress twice, so that no more evaluations are in progress than modules
  have been listed;
* if each identifier has had one kind in all listings so far, no identifier is in progress twice; and if
  all that has been listed still is, no more evaluations are in progress than there are modules.

And the load ends: it never comes to the bound of depth, so that it does not matter what is done there. -/
theorem recursion_is_bounded (d : Disk) (globals : Fields Global) (all : List Listed) (id : String)
    (c : Context) (s : State) :
    (∀ told rest, since s ((load d globals (.ok all) id).exec c s).2 = told ++ rest →
      ((inProgress told).map Evaluation.key).Nodup ∧
      (inProgress told).length ≤ (s.listings ++ [all]).flatten.length ∧
      (OneKind (s.listings ++ [all]) →
        ((inProgress told).map (·.id)).Nodup ∧
        ((∀ l ∈ s.listings, ∀ m ∈ l, m.id ∈ all.map (·.id)) → (inProgress told).length ≤ all.length))) ∧
    ∀ bottom : Require,
      (loadOver bottom d globals (.ok all) id).exec c s = (load d globals (.ok all) id).exec c s := by
  refine ⟨fun told rest hsplit => ?_, fun bottom => loads_end bottom d globals (.ok all) id c s⟩
  obtain ⟨hapart, hlisted⟩ := inProgress_of_load hsplit
  refine ⟨hapart, ?_, fun hkind => ?_⟩
  · refine length_le_of_nodup_map Listed.key hapart fun e he => ?_
    obtain ⟨l, hl, m, hm, hkey, -⟩ := hlisted e he
    exact ⟨m, List.mem_flatten.mpr ⟨l, hl, hm⟩, hkey⟩
  · have hids := hkind.nodup_ids hlisted hapart
    refine ⟨hids, fun hstill => length_le_of_nodup_map (·.id) hids fun e he => ?_⟩
    obtain ⟨l, hl, m, hm, hkey, -⟩ := hlisted e he
    have hid : e.id = m.id := congrArg Prod.snd hkey
    have hmem : m.id ∈ all.map (·.id) := by
      rcases List.mem_append.mp hl with hl | hl
      · exact hstill l hl m hm
      · obtain rfl := List.mem_singleton.mp hl
        exact List.mem_map_of_mem hm
    obtain ⟨m', hm', hsame⟩ := List.mem_map.mp hmem
    exact ⟨m', hm', hid.trans hsame.symm⟩

/-- A config module `a` that requires `m` and then fails, and `m`, which tries `a` twice. -/
def cycleFiles : List (String × String) := [
  ("a", "'use config';\n@\x7b\"call\":\"require\",\"args\":[\"m\"]\x7d\n@\x7b\"throw\":\"no\"\x7d\n"),
  ("m", "'use config';\n@\x7b\"try\":[\x7b\"call\":\"require\",\"args\":[\"a\"]\x7d],\"as\":\"r\"\x7d\n"
    ++ "@\x7b\"try\":[\x7b\"call\":\"require\",\"args\":[\"a\"]\x7d],\"as\":\"r\"\x7d\n")]

theorem inOrder_cycleFiles : InOrder (cycleFiles.map (·.1)) := by decide +kernel

/-- `a` has failed and is evaluated again, inside `m`, where it asks for `m` once more. -/
theorem cycle_is_bounded :
    OneKind [flatListing cycleFiles] ∧
    (∃ told rest, since .start (afterLoad cycleFiles .start) = told ++ rest ∧
      (begun told).map (·.id) = ["m", "a", "a"] ∧ (inProgress told).map (·.id) = ["a", "m"] ∧
      ((inProgress told).map (·.id)).Nodup ∧ (inProgress told).length ≤ 2) ∧
    ((loadOver (fun _ _ => pure .null) (flatDisk cycleFiles) [] (.ok (flatListing cycleFiles)) "m").exec
      .outside .start).2.loaded.ids = ["m"] := by
  have hkind : OneKind (State.start.listings ++ [flatListing cycleFiles]) :=
    oneKind_of_same (fun l hl => List.mem_singleton.mp hl) (by decide)
  have hrun : (begun ((since .start (afterLoad cycleFiles .start)).take 6)).map (·.id) = ["m", "a", "a"] ∧
      (inProgress ((since .start (afterLoad cycleFiles .start)).take 6)).map (·.id) = ["a", "m"] ∧
      (afterLoad cycleFiles .start).loaded.ids = ["m"] := by
    rw [afterLoad_eq inOrder_cycleFiles]
    decide +kernel
  obtain ⟨hbegun, hgoing, hloaded⟩ := hrun
  have hsplit := (List.take_append_drop 6 (since .start (afterLoad cycleFiles .start))).symm
  rw [afterLoad_eq inOrder_cycleFiles] at hsplit hbegun hgoing hloaded ⊢
  obtain ⟨hbounded, hends⟩ :=
    recursion_is_bounded (flatDisk cycleFiles) [] (flatListing cycleFiles) "m" .outside .start
  obtain ⟨hids, hdepth⟩ := (hbounded _ _ hsplit).2.2 hkind
  refine ⟨hkind, ⟨_, _, hsplit, hbegun, hgoing, hids, hdepth nofun⟩, ?_⟩
  rw [hends]
  exact hloaded

/-- `x` counts how often it is evaluated, on the exports of the library, and calls its function, which
requires `x`. -/
def countingText : String :=
  "'use config';\n@\x7b\"let\":\"l\",\"be\":\x7b\"$call\":\"require\",\"args\":[\"lib\"]\x7d\x7d\n"
    ++ "@\x7b\"inc\":[\"l\",\"n\",1]\x7d\n"
    ++ "@\x7b\"let\":\"f\",\"be\":\x7b\"$get\":[\x7b\"$var\":\"l\"\x7d,\"get\"]\x7d\x7d\n"
    ++ "@\x7b\"call\":\"f\",\"args\":[]\x7d\n"

/-- `m` requires `x` and exports what it has counted. -/
def readingText : String :=
  "@\x7b\"let\":\"l\",\"be\":\x7b\"$call\":\"require\",\"args\":[\"lib\"]\x7d\x7d\n"
    ++ "@\x7b\"call\":\"require\",\"args\":[\"x\"]\x7d\n"
    ++ "@\x7b\"export\":\"n\",\"be\":\x7b\"$get\":[\x7b\"$var\":\"l\"\x7d,\"n\"]\x7d\x7d\n"

/-- **A module that has changed its kind is entered inside itself**: by the listing of the library that is
kept, `x` is a library. -/
theorem entered_inside_itself :
    ((flatListing (trioFiles readingText countingText)).map (·.id)).Nodup ∧
    ∃ told rest, since (afterLoad (trioFiles firstText "") .start)
        (afterLoad (trioFiles readingText countingText) (afterLoad (trioFiles firstText "") .start))
        = told ++ rest ∧
      (inProgress told).map (·.id) = ["x", "x", "m"] ∧ ¬ ((inProgress told).map (·.id)).Nodup := by
  have hgoing : (inProgress ((since (afterLoad (trioFiles firstText "") .start)
      (afterLoad (trioFiles readingText countingText) (afterLoad (trioFiles firstText "") .start))).take
        5)).map (·.id) = ["x", "x", "m"] := by
    rw [afterLoad_eq (inOrder_trioFiles _ _), afterLoad_eq (inOrder_trioFiles _ _)]
    decide +kernel
  refine ⟨by decide +kernel, _, _, (List.take_append_drop 5 _).symm, hgoing, ?_⟩
  rw [hgoing]
  decide

end ConfGraph.Module
