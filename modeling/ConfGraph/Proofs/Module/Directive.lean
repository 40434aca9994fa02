import ConfGraph.Module.Directive

/-!
# What stands before the directive

A source is meant to be a config module if the directive comes first once white space and comments are
skipped.  Skipping leaves no choice but one: where a block comment ends.  It ends at the first `*/`; but
the recognizer takes any, so it may pass over code that stands between a comment and a later `*/`.

* `skip?`: skips white space and comments, each block comment up to the first `*/`.
* `Skips`: what may be skipped, for a notion of where block comments end.
* `isConfig_iff_skips`: the recognizer finds the directive behind anything that can be skipped, if a
  block comment may end at any `*/`.
* `directive_is_found_after_comments`: hence it finds the directive where skipping stops, and else
  only behind a block comment that it lets go on too far.
-/

namespace ConfGraph.Module

/-! ## 1. Skipping -/

/-- A text after the end of its first line. -/
def afterLine : List Char → List Char
  | [] => []
  | c :: rest => if c = '\n' then rest else afterLine rest

/-- A text after the first `*/` in it. -/
def afterBlock? : List Char → Option (List Char)
  | [] => none
  | c :: rest => if c = '*' ∧ rest.head? = some '/' then some rest.tail else afterBlock? rest

theorem length_afterLine_le : ∀ cs : List Char, (afterLine cs).length ≤ cs.length
  | [] => Nat.le_refl _
  | c :: rest => by
    unfold afterLine
    split
    · exact Nat.le_succ _
    · exact Nat.le_succ_of_le (length_afterLine_le rest)

theorem length_afterBlock?_le {cs after : List Char} (h : afterBlock? cs = some after) :
    after.length ≤ cs.length := by
  induction cs with
  | nil => cases h
  | cons c rest ih =>
    unfold afterBlock? at h
    split at h
    · obtain rfl := Option.some.inj h
      rw [List.length_tail, List.length_cons]
      omega
    · exact Nat.le_succ_of_le (ih h)

/-- **Skips white space and comments** as long as one of them is next; `none` if a block comment does
not end. -/
def skip? : List Char → Option (List Char)
  | [] => some []
  | c :: rest =>
    if Text.isBlank c then skip? rest
    else if c = '/' ∧ rest.head? = some '/' then skip? (afterLine rest.tail)
    else if c = '/' ∧ rest.head? = some '*' then
      match _h : afterBlock? rest.tail with
      | none => none
      | some after => skip? after
    else some (c :: rest)
termination_by cs => cs.length
decreasing_by
  · exact Nat.lt_succ_self _
  · have := length_afterLine_le rest.tail
    rw [List.length_tail] at this
    simp only [List.length_cons]
    omega
  · have := length_afterBlock?_le _h
    rw [List.length_tail] at this
    simp only [List.length_cons]
    omega

/-- Where a block comment may end: the text inside and after it, and the text after it. -/
abbrev Ending := List Char → List Char → Prop

/-- It ends at the first `*/`. -/
def FirstEnd : Ending := fun rest after => afterBlock? rest = some after

/-- It ends at any `*/`. -/
def SomeEnd : Ending := fun rest after => '*' :: '/' :: after <:+ rest

/-- **What may be skipped** in front of a text: white space and comments. -/
inductive Skips (Ends : Ending) : List Char → List Char → Prop
  | nothing (cs : List Char) : Skips Ends cs cs
  | blank {c : Char} {rest out : List Char} (is_blank : Text.isBlank c = true)
    (later : Skips Ends rest out) : Skips Ends (c :: rest) out
  | line {rest out : List Char} (later : Skips Ends (afterLine rest) out) :
    Skips Ends ('/' :: '/' :: rest) out
  | block {rest after out : List Char} (ends : Ends rest after) (later : Skips Ends after out) :
    Skips Ends ('/' :: '*' :: rest) out

section Skips

variable {Ends Ends' : Ending} {cs mid out rest after : List Char}

theorem Skips.trans (h : Skips Ends cs mid) (h' : Skips Ends mid out) : Skips Ends cs out := by
  induction h with
  | nothing => exact h'
  | blank hc _ ih => exact .blank hc (ih h')
  | line _ ih => exact .line (ih h')
  | block hends _ ih => exact .block hends (ih h')

theorem Skips.mono (hends : ∀ rest after, Ends rest after → Ends' rest after)
    (h : Skips Ends cs out) : Skips Ends' cs out := by
  induction h with
  | nothing => exact .nothing _
  | blank hc _ ih => exact .blank hc ih
  | line _ ih => exact .line ih
  | block hend _ ih => exact .block (hends _ _ hend) ih

theorem SomeEnd.length_lt (h : SomeEnd rest after) : after.length < rest.length := by
  have := h.length_le
  simp only [List.length_cons] at this
  omega

/-- The first end is one of them. -/
theorem someEnd_of_firstEnd (h : FirstEnd rest after) : SomeEnd rest after := by
  unfold FirstEnd at h
  induction rest with
  | nil => cases h
  | cons c rest ih =>
    unfold afterBlock? at h
    split at h
    · next hend =>
      obtain ⟨rfl, hslash⟩ := hend
      obtain ⟨tail, rfl⟩ := List.head?_eq_some_iff.mp hslash
      obtain rfl := Option.some.inj h
      exact List.suffix_refl _
    · exact (ih h).trans (List.suffix_cons c rest)

end Skips

/-! ## 2. What the recognizer skips -/

/-- What the recognizer knows of a text from its start on. -/
def outlook (cs : List Char) : Outlook := (outlooks cs).1

theorem outlook_cons (c : Char) (rest : List Char) :
    outlook (c :: rest) = .extend c rest (outlook rest) (outlook rest.tail) := by
  cases rest with
  | nil => rfl
  | cons d rest => rfl

/-- The end of a line is looked for as `afterLine` does. -/
theorem afterLine_outlook (cs : List Char) :
    (outlook cs).afterLine = (outlook (afterLine cs)).here := by
  induction cs with
  | nil => rfl
  | cons c rest ih =>
    rw [outlook_cons, afterLine]
    by_cases hc : c = '\n'
    · simp [Outlook.extend, hc]
    · simp [Outlook.extend, hc, ih]

/-- The end of a block comment is any `*/` from where the directive is reached. -/
theorem afterBlock_outlook_iff {cs : List Char} : (outlook cs).afterBlock = true ↔
    ∃ after, SomeEnd cs after ∧ (outlook after).here = true := by
  induction cs with
  | nil => simp [outlook, outlooks, Outlook.atEnd, SomeEnd]
  | cons c rest ih =>
    have hextend : (outlook (c :: rest)).afterBlock
        = ((c == '*' && rest.head? == some '/' && (outlook rest.tail).here)
          || (outlook rest).afterBlock) := by
      rw [outlook_cons]
      rfl
    rw [hextend, Bool.or_eq_true, ih]
    simp only [Bool.and_eq_true, beq_iff_eq]
    constructor
    · rintro (⟨⟨rfl, hslash⟩, hhere⟩ | ⟨after, hend, hhere⟩)
      · obtain ⟨tail, rfl⟩ := List.head?_eq_some_iff.mp hslash
        exact ⟨tail, List.suffix_refl _, hhere⟩
      · exact ⟨after, hend.trans (List.suffix_cons c rest), hhere⟩
    · rintro ⟨after, hend, hhere⟩
      rcases List.suffix_cons_iff.mp hend with heq | hend
      · obtain ⟨rfl, rfl⟩ := List.cons.inj heq
        exact .inl ⟨⟨rfl, rfl⟩, hhere⟩
      · exact .inr ⟨after, hend, hhere⟩

/-- **One step of the recognizer**: the directive is here, or behind something that can be skipped. -/
theorem here_cons_iff {c : Char} {rest : List Char} : (outlook (c :: rest)).here = true ↔
    startsWithDirective (c :: rest) = true ∨
      (Text.isBlank c = true ∧ (outlook rest).here = true) ∨
      (∃ tail, c :: rest = '/' :: '/' :: tail ∧ (outlook (afterLine tail)).here = true) ∨
      ∃ tail after, c :: rest = '/' :: '*' :: tail ∧ SomeEnd tail after ∧
        (outlook after).here = true := by
  have hextend : (outlook (c :: rest)).here
      = (startsWithDirective (c :: rest) || (Text.isBlank c && (outlook rest).here)
        || (c == '/' && rest.head? == some '/' && (outlook rest.tail).afterLine)
        || (c == '/' && rest.head? == some '*' && (outlook rest.tail).afterBlock)) := by
    rw [outlook_cons]
    rfl
  rw [hextend]
  simp only [Bool.or_eq_true, Bool.and_eq_true, beq_iff_eq, afterLine_outlook, afterBlock_outlook_iff,
    or_assoc, and_assoc]
  refine or_congr_right (or_congr_right (or_congr ?_ ?_))
  · constructor
    · rintro ⟨rfl, hslash, hhere⟩
      obtain ⟨tail, rfl⟩ := List.head?_eq_some_iff.mp hslash
      exact ⟨tail, rfl, hhere⟩
    · rintro ⟨tail, heq, hhere⟩
      obtain ⟨rfl, rfl⟩ := List.cons.inj heq
      exact ⟨rfl, rfl, hhere⟩
  · constructor
    · rintro ⟨rfl, hstar, after, hend, hhere⟩
      obtain ⟨tail, rfl⟩ := List.head?_eq_some_iff.mp hstar
      exact ⟨tail, after, rfl, hend, hhere⟩
    · rintro ⟨tail, after, heq, hend, hhere⟩
      obtain ⟨rfl, rfl⟩ := List.cons.inj heq
      exact ⟨rfl, rfl, after, hend, hhere⟩

/-- What the recognizer reaches can be skipped to.  The induction is on how long the text may be, since
what is skipped at once may be long. -/
theorem skips_of_here {bound : Nat} {cs : List Char} (hlength : cs.length ≤ bound)
    (h : (outlook cs).here = true) :
    ∃ rest, Skips SomeEnd cs rest ∧ startsWithDirective rest = true := by
  induction bound generalizing cs with
  | zero =>
    obtain rfl := List.length_eq_zero_iff.mp (Nat.le_zero.mp hlength)
    exact absurd h Bool.false_ne_true
  | succ bound ih =>
    cases cs with
    | nil => exact absurd h Bool.false_ne_true
    | cons c rest =>
      rcases here_cons_iff.mp h with hdirective | ⟨hblank, hhere⟩ | ⟨tail, heq, hhere⟩ |
        ⟨tail, after, heq, hend, hhere⟩
      · exact ⟨c :: rest, .nothing _, hdirective⟩
      · obtain ⟨out, hskips, hdirective⟩ := ih (Nat.le_of_succ_le_succ hlength) hhere
        exact ⟨out, .blank hblank hskips, hdirective⟩
      · rw [heq] at hlength ⊢
        have hshorter := length_afterLine_le tail
        obtain ⟨out, hskips, hdirective⟩ := ih (by simp at hlength; omega) hhere
        exact ⟨out, .line hskips, hdirective⟩
      · rw [heq] at hlength ⊢
        have hshorter := hend.length_lt
        obtain ⟨out, hskips, hdirective⟩ := ih (by simp at hlength; omega) hhere
        exact ⟨out, .block hend hskips, hdirective⟩

/-- What can be skipped to is reached by the recognizer. -/
theorem here_of_skips {cs rest : List Char} (h : Skips SomeEnd cs rest)
    (hdirective : startsWithDirective rest = true) : (outlook cs).here = true := by
  induction h with
  | nothing cs =>
    cases cs with
    | nil => exact absurd hdirective Bool.false_ne_true
    | cons c rest => exact here_cons_iff.mpr (.inl hdirective)
  | blank hblank _ ih => exact here_cons_iff.mpr (.inr (.inl ⟨hblank, ih hdirective⟩))
  | line _ ih => exact here_cons_iff.mpr (.inr (.inr (.inl ⟨_, rfl, ih hdirective⟩)))
  | block hend _ ih => exact here_cons_iff.mpr (.inr (.inr (.inr ⟨_, _, rfl, hend, ih hdirective⟩)))

/-- **The recognizer finds the directive behind anything that can be skipped**, if a block comment may
end at any `*/`. -/
theorem isConfig_iff_skips {source : String} : isConfig source = true ↔
    ∃ rest, Skips SomeEnd source.toList rest ∧ startsWithDirective rest = true :=
  ⟨skips_of_here (Nat.le_refl _), fun ⟨_, hskips, hdirective⟩ => here_of_skips hskips hdirective⟩

/-! ## 3. Skipping leaves no choice -/

theorem skip?_nil : skip? [] = some [] := by
  unfold skip?
  rfl

theorem skip?_cons (c : Char) (rest : List Char) : skip? (c :: rest) =
    if Text.isBlank c then skip? rest
    else if c = '/' ∧ rest.head? = some '/' then skip? (afterLine rest.tail)
    else if c = '/' ∧ rest.head? = some '*' then (afterBlock? rest.tail).bind skip?
    else some (c :: rest) := by
  conv => lhs; unfold skip?
  split
  · rfl
  · split
    · rfl
    · split
      · split
        · next hnone => rw [hnone, Option.bind_none]
        · next after hafter => rw [hafter, Option.bind_some]
      · rfl

theorem skip?_blank {c : Char} (hblank : Text.isBlank c = true) (rest : List Char) :
    skip? (c :: rest) = skip? rest := by
  rw [skip?_cons, if_pos hblank]

theorem skip?_line (rest : List Char) : skip? ('/' :: '/' :: rest) = skip? (afterLine rest) := by
  rw [skip?_cons, if_neg (by decide), if_pos ⟨rfl, rfl⟩, List.tail_cons]

theorem skip?_block (rest : List Char) :
    skip? ('/' :: '*' :: rest) = (afterBlock? rest).bind skip? := by
  rw [skip?_cons, if_neg (by decide), if_neg (by simp), if_pos ⟨rfl, rfl⟩, List.tail_cons]

theorem skip?_stop {c : Char} {rest : List Char} (hblank : Text.isBlank c ≠ true)
    (hline : ¬ (c = '/' ∧ rest.head? = some '/')) (hblock : ¬ (c = '/' ∧ rest.head? = some '*')) :
    skip? (c :: rest) = some (c :: rest) := by
  rw [skip?_cons, if_neg hblank, if_neg hline, if_neg hblock]

/-- The directive starts with a quote, which is not skipped. -/
theorem skip?_of_startsWithDirective {cs : List Char} (h : startsWithDirective cs = true) :
    skip? cs = some cs := by
  cases cs with
  | nil => exact absurd h Bool.false_ne_true
  | cons c rest =>
    have hquote : c = '\'' ∨ c = '"' := by
      rcases Bool.or_eq_true_iff.mp h with h | h
      · exact .inl (List.cons_prefix_cons.mp (List.isPrefixOf_iff_prefix.mp h)).1.symm
      · exact .inr (List.cons_prefix_cons.mp (List.isPrefixOf_iff_prefix.mp h)).1.symm
    have hstop : Text.isBlank c ≠ true ∧ c ≠ '/' := by
      rcases hquote with rfl | rfl
      · decide
      · decide
    exact skip?_stop hstop.1 (fun h => hstop.2 h.1) fun h => hstop.2 h.1

/-- **What is skipped by the first end of every block comment** does not matter to skipping. -/
theorem Skips.skip?_eq {cs out : List Char} (h : Skips FirstEnd cs out) : skip? cs = skip? out := by
  induction h with
  | nothing => rfl
  | blank hblank _ ih => rw [skip?_blank hblank, ih]
  | line _ ih => rw [skip?_line, ih]
  | block hend _ ih => rw [skip?_block, hend, Option.bind_some, ih]

theorem skips_of_skip? {cs out : List Char} (h : skip? cs = some out) : Skips FirstEnd cs out := by
  induction cs using skip?.induct with
  | case1 =>
    rw [skip?_nil] at h
    obtain rfl := Option.some.inj h
    exact .nothing _
  | case2 c rest hblank ih => exact .blank hblank (ih (skip?_blank hblank rest ▸ h))
  | case3 c rest hblank hline ih =>
    obtain ⟨rfl, hslash⟩ := hline
    obtain ⟨tail, rfl⟩ := List.head?_eq_some_iff.mp hslash
    exact .line (ih (skip?_line tail ▸ h))
  | case4 c rest hblank hline hblock hnone =>
    obtain ⟨rfl, hstar⟩ := hblock
    obtain ⟨tail, rfl⟩ := List.head?_eq_some_iff.mp hstar
    have hnone : afterBlock? tail = none := hnone
    rw [skip?_block, hnone] at h
    cases h
  | case5 c rest hblank hline hblock after hafter ih =>
    obtain ⟨rfl, hstar⟩ := hblock
    obtain ⟨tail, rfl⟩ := List.head?_eq_some_iff.mp hstar
    have hafter : afterBlock? tail = some after := hafter
    rw [skip?_block, hafter] at h
    exact .block hafter (ih h)
  | case6 c rest hblank hline hblock =>
    rw [skip?_stop hblank hline hblock] at h
    obtain rfl := Option.some.inj h
    exact .nothing _

/-! ## 4. Where the recognizer finds the directive -/

/-- What is skipped from a text to which the first ends lead is skipped by first ends as well, or they
are left for good at a block comment that goes on too far. -/
theorem Skips.keeps_or_leaves {cs mid out : List Char} (hcome : Skips FirstEnd cs mid)
    (h : Skips SomeEnd mid out) : Skips FirstEnd cs out ∨
      ∃ rest after, Skips FirstEnd cs ('/' :: '*' :: rest) ∧ SomeEnd rest after ∧
        ¬ Skips FirstEnd cs after ∧ Skips SomeEnd after out := by
  induction h with
  | nothing => exact .inl hcome
  | blank hblank _ ih => exact ih (hcome.trans (.blank hblank (.nothing _)))
  | line _ ih => exact ih (hcome.trans (.line (.nothing _)))
  | @block rest after out hend hlater ih =>
    by_cases hafter : Skips FirstEnd cs after
    · exact ih hafter
    · exact .inr ⟨rest, after, hcome, hend, hafter, hlater⟩

/-- **The directive is found where skipping stops**, and else only behind a block comment that the
recognizer lets go on too far: beyond the first `*/`, up to one to which skipping does not lead. -/
theorem directive_is_found_after_comments (source : String) : isConfig source = true ↔
    (∃ rest, skip? source.toList = some rest ∧ startsWithDirective rest = true) ∨
      ∃ rest after, Skips FirstEnd source.toList ('/' :: '*' :: rest) ∧ SomeEnd rest after ∧
        ¬ Skips FirstEnd source.toList after ∧ isConfig (String.ofList after) = true := by
  constructor
  · intro h
    obtain ⟨out, hskips, hdirective⟩ := isConfig_iff_skips.mp h
    rcases Skips.keeps_or_leaves (.nothing _) hskips with hfirst |
      ⟨rest, after, hcome, hend, hleft, hlater⟩
    · exact .inl ⟨out, hfirst.skip?_eq.trans (skip?_of_startsWithDirective hdirective), hdirective⟩
    · refine .inr ⟨rest, after, hcome, hend, hleft, isConfig_iff_skips.mpr ⟨out, ?_, hdirective⟩⟩
      rw [String.toList_ofList]
      exact hlater
  · rintro (⟨rest, hskip, hdirective⟩ | ⟨rest, after, hcome, hend, -, hafter⟩)
    · have hskips := (skips_of_skip? hskip).mono fun _ _ => someEnd_of_firstEnd
      exact isConfig_iff_skips.mpr ⟨rest, hskips, hdirective⟩
    · obtain ⟨out, hlater, hdirective⟩ := isConfig_iff_skips.mp hafter
      rw [String.toList_ofList] at hlater
      have hskips := (hcome.mono fun _ _ => someEnd_of_firstEnd).trans (.block hend hlater)
      exact isConfig_iff_skips.mpr ⟨out, hskips, hdirective⟩

/-- A text with a statement between two comments, in front of what looks like the directive. -/
def lateDirective : String := "/* a */ f(); /* b */ 'use config';"

/-- **Code before the directive is skipped** if it stands between two block comments. -/
theorem code_between_comments_is_skipped : isConfig lateDirective = true ∧
    skip? lateDirective.toList = some "f(); /* b */ 'use config';".toList ∧
    ¬ ∃ rest, skip? lateDirective.toList = some rest ∧ startsWithDirective rest = true := by
  have hskip : skip? lateDirective.toList = some "f(); /* b */ 'use config';".toList := by
    have htext : lateDirective.toList
        = '/' :: '*' :: " a */ f(); /* b */ 'use config';".toList := by decide
    have hend : afterBlock? " a */ f(); /* b */ 'use config';".toList
        = some " f(); /* b */ 'use config';".toList := by decide
    rw [htext, skip?_block, hend, Option.bind_some]
    exact (skip?_blank (by decide) _).trans (skip?_stop (by decide) (by decide) (by decide))
  refine ⟨by decide, hskip, ?_⟩
  rintro ⟨rest, hrest, hdirective⟩
  obtain rfl := Option.some.inj (hskip.symm.trans hrest)
  exact absurd hdirective (by decide)

end ConfGraph.Module
