import ConfGraph.Proofs.Script.Single
import ConfGraph.Proofs.Text.Quoted
import ConfGraph.Proofs.Value.Number

/-!
# Calls are read back

A call with literals for arguments is read back from the text that is written for it, whatever values
the literals are: names of fields have no meaning here, and every double has a text of its own.  So
there is a script, and a config module, for every call of a function with values that can be written
down.

* `Expr.literal_madeBy`: who has made the records of a value does not show in its text.
* `atom?_literal`: a double is read back.
* `readsBack_of_writable`: a value is read back.
* `call?_written`: a call is read back.
* `ofText_callText`, `ofText_callModuleText`: the programs of texts that only call a function.
-/

namespace ConfGraph.Script

open Json (Marked)

variable {cs rest : List Char} {v : Value} {fuel : Nat}

/-! ## 1. What is written -/

namespace Expr

theorem literals_eq_map (items : List Value) : literals items = items.map literal := by
  induction items with
  | nil => rfl
  | cons v rest ih => rw [literals, ih, List.map_cons]

theorem literalEntries_eq_map (fields : List (String × Value)) :
    literalEntries fields = fields.map fun f => (f.1, literal f.2) := by
  induction fields with
  | nil => rfl
  | cons f rest ih => rw [literalEntries, ih, List.map_cons]

/-- **Who has made the records of a value does not show** where it is written down. -/
theorem literal_madeBy (hv : v.Writable) (o : Origin) : literal (v.madeBy o) = literal v := by
  induction hv with
  | list _ ih =>
    rw [Value.madeBy_list, literal, literal, literals_eq_map, literals_eq_map, List.map_map]
    exact congrArg Expr.list (List.map_congr_left ih)
  | record _ _ _ _ ih =>
    rw [Value.madeBy_record, literal, literal, literalEntries_eq_map, literalEntries_eq_map,
      List.map_map]
    refine congrArg Expr.record (List.map_congr_left fun f hf => ?_)
    exact congrArg (Prod.mk f.1) (ih f hf)
  | _ => rfl

theorem areSound_of_forall {m : Manner} : ∀ {es : List Expr}, (∀ e ∈ es, e.isSound m = true) →
    areSound m es = true
  | [], _ => rfl
  | e :: rest, h => by
    rw [areSound, h e List.mem_cons_self,
      areSound_of_forall fun e' he' => h e' (List.mem_cons_of_mem _ he')]
    rfl

theorem areEntriesSound_of_forall {m : Manner} : ∀ {entries : List (String × Expr)},
    (∀ e ∈ entries, e.2.isSound m = true) → areEntriesSound m entries = true
  | [], _ => rfl
  | (name, e) :: rest, h => by
    rw [areEntriesSound, h (name, e) List.mem_cons_self,
      areEntriesSound_of_forall fun e' he' => h e' (List.mem_cons_of_mem _ he')]
    rfl

/-- A literal uses no words but as texts. -/
theorem isSound_literal (hv : v.Writable) (m : Manner) : (literal v).isSound m = true := by
  induction hv with
  | list _ ih =>
    rw [literal, isSound, literals_eq_map]
    refine areSound_of_forall fun e he => ?_
    obtain ⟨v, hv, rfl⟩ := List.mem_map.mp he
    exact ih v hv
  | record _ _ _ _ ih =>
    rw [literal, isSound, literalEntries_eq_map]
    refine areEntriesSound_of_forall fun e he => ?_
    obtain ⟨f, hf, rfl⟩ := List.mem_map.mp he
    exact ih f hf
  | _ => rfl

end Expr

/-! ## 2. Literals of one word -/

/-- A number without its sign starts with a digit. -/
theorem exists_digit_of_unsigned? {negative : Bool} {r : Float × List Char}
    (h : Json.unsigned? negative cs = some r) : ∃ c more, cs = c :: more ∧ c.isDigit = true := by
  obtain ⟨whole, hwhole, -⟩ := Option.bind_eq_some_iff.mp h
  unfold Json.whole? at hwhole
  split at hwhole
  · next more => exact ⟨'0', more, rfl, by decide⟩
  · cases cs with
    | nil => cases hwhole
    | cons c more =>
      refine ⟨c, more, rfl, ?_⟩
      by_contra hc
      rw [Json.digits, List.takeWhile_cons_of_neg hc] at hwhole
      cases hwhole

/-- What is a number in JSON is a number in a script. -/
theorem atom?_of_number? {x : Float} (h : Json.number? cs = some (x, rest)) :
    atom? cs = some (.num x, rest) := by
  have hstarts : ∃ c more, (cs = c :: more ∨ cs = '-' :: c :: more) ∧ c.isDigit = true := by
    unfold Json.number? at h
    split at h
    · obtain ⟨c, more, rfl, hc⟩ := exists_digit_of_unsigned? h
      exact ⟨c, more, .inr rfl, hc⟩
    · obtain ⟨c, more, rfl, hc⟩ := exists_digit_of_unsigned? h
      exact ⟨c, more, .inl rfl, hc⟩
  have hatom : Json.atom? cs = some (.num x, rest) := by
    unfold Json.atom?
    split
    case h_4 => rw [h]; rfl
    all_goals
      obtain ⟨c, more, heq | heq, hc⟩ := hstarts
      · cases heq
        exact absurd hc (by decide)
      · exact nomatch heq
  unfold atom?
  split
  case h_5 => exact hatom
  all_goals
    obtain ⟨c, more, heq | heq, hc⟩ := hstarts
    · cases heq
      exact absurd hc (by decide)
    · cases heq <;> exact absurd hc (by decide)

/-- **A double is read back.** -/
theorem atom?_literal (x : Float) (hrest : Marked rest) :
    atom? (Number.literal x ++ rest) = some (.num x, rest) := by
  cases hfinite : Number.isFinite x with
  | true => exact atom?_of_number? (Json.number?_literal hfinite hrest)
  | false =>
    cases hnan : Number.isNaN x with
    | true =>
      have hliteral : Number.literal Number.nan = "NaN".toList := by decide +kernel
      rw [Number.eq_nan_of_isNaN hnan, hliteral]
      rfl
    | false =>
      have hliteral : ∀ negative, Number.literal (Number.infinityOf negative)
          = (if negative then "-Infinity" else "Infinity").toList := by decide +kernel
      rw [← Number.infinityOf_of_not_isFinite hfinite hnan, hliteral]
      cases Number.isNegative x <;> rfl

/-! ## 3. Values -/

/-- What is one word is read as a value. -/
theorem read?_of_atom? {r : Value × List Char} (h : atom? cs = some r) :
    Json.read? atom? (fuel + 1) cs = some r := by
  unfold Json.read?
  split
  · exact nomatch h
  · exact nomatch h
  · split
    · next hbrace =>
      subst hbrace
      exact nomatch h
    · exact h
  · exact nomatch h

/-- What no value starts with: a space, or a mark that closes a list of values. -/
def noStarts : List Char := [' ', '\t', '\n', '\r', ']', ')']

theorem exists_head_of_read? {r : Value × List Char} (h : Json.read? atom? fuel cs = some r) :
    ∃ c more, cs = c :: more ∧ c ∉ noStarts := by
  cases fuel with
  | zero => cases h
  | succ fuel =>
    cases cs with
    | nil => cases h
    | cons c more =>
      refine ⟨c, more, rfl, fun hc => ?_⟩
      simp only [noStarts, List.mem_cons, List.not_mem_nil, or_false] at hc
      rcases hc with rfl | rfl | rfl | rfl | rfl | rfl
      · cases h
      · cases h
      · cases h
      · cases h
      · cases h
      · cases h

theorem exists_head_of_readItems? {close : Char} {r : List Value × List Char}
    (h : Json.readItems? atom? fuel close cs = some r) : ∃ c more, cs = c :: more ∧ c ∉ noStarts := by
  cases fuel with
  | zero => cases h
  | succ fuel =>
    cases hread : Json.read? atom? fuel cs with
    | none => simp [Json.readItems?, hread] at h
    | some r' => exact exists_head_of_read? hread

/-- What starts as a value does is not passed over with the spaces before it. -/
theorem skip_of_not_mem {c : Char} (hc : c ∉ noStarts) (more : List Char) :
    Json.skip (c :: more) = c :: more := by
  refine List.dropWhile_cons_of_neg fun hspace => hc ?_
  simp only [Json.isSpace, decide_eq_true_eq, Bool.or_eq_true] at hspace
  simp only [noStarts, List.mem_cons]
  tauto

/-- **A value is read back** in front of a mark, with a budget that exceeds its length. -/
def ReadsBack (v : Value) : Prop :=
  ∀ (fuel : Nat) (rest : List Char), (Expr.literal v).written.length < fuel → Marked rest →
    Json.read? atom? fuel ((Expr.literal v).written ++ rest) = some (v.madeBy .host, rest)

theorem readsBack_of_atom? (h : ∀ rest, Marked rest →
    atom? ((Expr.literal v).written ++ rest) = some (v.madeBy .host, rest)) : ReadsBack v := by
  intro fuel rest hfuel hrest
  cases fuel with
  | zero => exact absurd hfuel (Nat.not_lt_zero _)
  | succ fuel => exact read?_of_atom? (h rest hrest)

theorem length_quote (s : String) : s.toList.length + 2 ≤ (Text.quote s).length := by
  have h := Text.length_le_flatMap_escape s.toList
  rw [Text.quote_eq, List.length_cons, List.length_append]
  simpa using h

/-- Items are read back up to the mark that closes them. -/
theorem readItems?_written (close : Char) (hclose : close ∈ [']', ')']) : ∀ {items : List Value},
    items ≠ [] → (∀ v ∈ items, ReadsBack v) → ∀ (fuel : Nat) (rest : List Char),
      (Expr.writtenItems (Expr.literals items)).length + 1 < fuel →
      Json.readItems? atom? fuel close (Expr.writtenItems (Expr.literals items) ++ close :: rest)
        = some (items.map (Value.madeBy .host), rest)
  | [], hne, _, _, _, _ => absurd rfl hne
  | _ :: _, _, _, 0, _, hfuel => absurd hfuel (Nat.not_lt_zero _)
  | [v], _, hitems, fuel + 1, rest, hfuel => by
    have hmark : close ∈ [',', ']', '\x7d', ')'] := by
      simp only [List.mem_cons] at hclose ⊢
      tauto
    have hwritten : Expr.writtenItems (Expr.literals [v]) = (Expr.literal v).written := by
      simp [Expr.literals, Expr.writtenItems]
    rw [hwritten] at hfuel ⊢
    have hread := hitems v List.mem_cons_self fuel (close :: rest) (by omega) (.of_mem hmark rest)
    rw [Json.readItems?, hread]
    simp only [List.mem_cons, List.not_mem_nil, or_false] at hclose
    rcases hclose with rfl | rfl
    · rfl
    · rfl
  | v :: w :: more, _, hitems, fuel + 1, rest, hfuel => by
    have hwritten : Expr.writtenItems (Expr.literals (v :: w :: more))
        = (Expr.literal v).written ++ ',' :: ' ' :: Expr.writtenItems (Expr.literals (w :: more)) := by
      simp [Expr.literals, Expr.writtenItems, between]
    rw [hwritten, List.length_append, List.length_cons, List.length_cons] at hfuel
    have hread := hitems v List.mem_cons_self fuel
      (',' :: ' ' :: Expr.writtenItems (Expr.literals (w :: more)) ++ close :: rest) (by omega)
      (.of_mem (by decide) _)
    have hmore := readItems?_written close hclose (List.cons_ne_nil w more)
      (fun v' hv' => hitems v' (List.mem_cons_of_mem _ hv')) fuel rest (by omega)
    obtain ⟨c, after, heq, hc⟩ := exists_head_of_readItems? hmore
    have hspace : Json.skip (' ' :: c :: after) = c :: after := skip_of_not_mem hc after
    rw [heq] at hmore
    rw [hwritten, List.append_assoc, List.cons_append, List.cons_append, heq, Json.readItems?]
    rw [List.cons_append, List.cons_append, heq] at hread
    rw [hread]
    show (Json.readItems? atom? fuel close (Json.skip (' ' :: c :: after))).map _ = _
    rw [hspace, hmore]
    rfl

/-- A name and the value behind it are read back. -/
theorem exists_entry {name : String} {v : Value} (hv : ReadsBack v) {fuel : Nat}
    (hfuel : (Expr.entryLead name).length + (Expr.literal v).written.length ≤ fuel)
    {rest : List Char} (hrest : Marked rest) : ∃ behind after,
      Expr.entryLead name ++ ((Expr.literal v).written ++ rest) = '"' :: behind ∧
      Json.quoted? fuel [] behind = some (name, ':' :: after) ∧
      Json.read? atom? fuel (Json.skip after) = some (v.madeBy .host, rest) := by
  have hlength := length_quote name
  have hlead : Expr.entryLead name = Text.quote name ++ [':', ' '] := rfl
  rw [hlead, List.length_append] at hfuel
  have hread := hv fuel rest (by omega) hrest
  obtain ⟨c, more, heq, hc⟩ := exists_head_of_read? hread
  refine ⟨_, ' ' :: c :: more, ?_, Text.quoted?_quote name _ fuel (by omega), ?_⟩
  · rw [hlead, List.append_assoc, heq]
    rfl
  · rw [heq] at hread
    exact (congrArg (Json.read? atom? fuel) (skip_of_not_mem hc more)).trans hread

/-- Fields are read back up to the brace that closes them. -/
theorem readFields?_written : ∀ {fields : List (String × Value)}, fields ≠ [] →
    (∀ f ∈ fields, ReadsBack f.2) → ∀ (fuel : Nat) (rest : List Char),
      (Expr.writtenEntries (Expr.literalEntries fields)).length < fuel →
      Json.readFields? atom? fuel (Expr.writtenEntries (Expr.literalEntries fields) ++ '\x7d' :: rest)
        = some (fields.map fun f => (f.1, f.2.madeBy .host), rest)
  | [], hne, _, _, _, _ => absurd rfl hne
  | _ :: _, _, _, 0, _, hfuel => absurd hfuel (Nat.not_lt_zero _)
  | [(name, v)], _, hfields, fuel + 1, rest, hfuel => by
    have hwritten : Expr.writtenEntries (Expr.literalEntries [(name, v)])
        = Expr.entryLead name ++ (Expr.literal v).written := by
      simp [Expr.literalEntries, Expr.writtenEntries]
    rw [hwritten, List.length_append] at hfuel
    obtain ⟨behind, after, heq, hname, hread⟩ := exists_entry (hfields _ List.mem_cons_self)
      (Nat.le_of_lt_succ hfuel) (.of_mem (c := '\x7d') (by decide) rest)
    have hcolon : Json.skip (':' :: after) = ':' :: after := rfl
    rw [hwritten, List.append_assoc, heq, Json.readFields?]
    simp only [hname, hcolon, hread]
    rfl
  | (name, v) :: f :: more, _, hfields, fuel + 1, rest, hfuel => by
    have hwritten : Expr.writtenEntries (Expr.literalEntries ((name, v) :: f :: more))
        = Expr.entryLead name ++ ((Expr.literal v).written
          ++ ',' :: ' ' :: Expr.writtenEntries (Expr.literalEntries (f :: more))) := by
      simp [Expr.literalEntries, Expr.writtenEntries, between]
    rw [hwritten, List.length_append, List.length_append, List.length_cons, List.length_cons] at hfuel
    have hmore := readFields?_written (List.cons_ne_nil f more)
      (fun f' hf' => hfields f' (List.mem_cons_of_mem _ hf')) fuel rest (by omega)
    have hlength : (Expr.entryLead name).length + (Expr.literal v).written.length ≤ fuel := by omega
    obtain ⟨behind, after, heq, hname, hread⟩ :=
      exists_entry (hfields (name, v) List.mem_cons_self) hlength (.of_mem (c := ',') (by decide) _)
    have hcolon : Json.skip (':' :: after) = ':' :: after := rfl
    rw [hwritten, List.append_assoc, List.append_assoc, List.cons_append, heq, Json.readFields?]
    simp only [hname, hcolon, hread]
    show (Json.readFields? atom? fuel
      (Expr.writtenEntries (Expr.literalEntries (f :: more)) ++ '\x7d' :: rest)).map _ = _
    rw [hmore]
    rfl

theorem readsBack_str (s : String) : ReadsBack (.str s) := by
  intro fuel rest hfuel _
  have hwritten : (Expr.literal (.str s)).written = Text.quote s := rfl
  rw [hwritten] at hfuel ⊢
  cases fuel with
  | zero => exact absurd hfuel (Nat.not_lt_zero _)
  | succ fuel =>
    have hlength := length_quote s
    have hquoted := Text.quoted?_quote s rest fuel (by omega)
    rw [Text.quote_eq, List.cons_append, List.tail_cons] at hquoted
    rw [Text.quote_eq, List.cons_append, Json.read?]
    simp only [hquoted]
    rfl

theorem readsBack_list {items : List Value} (hitems : ∀ v ∈ items, ReadsBack v) :
    ReadsBack (.list items) := by
  intro fuel rest hfuel _
  have hwritten : (Expr.literal (.list items)).written
      = '[' :: (Expr.writtenItems (Expr.literals items) ++ [']']) := rfl
  rw [hwritten, List.length_cons, List.length_append, List.length_singleton] at hfuel
  rw [hwritten, List.cons_append, List.append_assoc, List.singleton_append, Value.madeBy_list]
  cases fuel with
  | zero => exact absurd hfuel (Nat.not_lt_zero _)
  | succ fuel =>
    cases items with
    | nil => rfl
    | cons v more =>
      have hread := readItems?_written ']' (by decide) (List.cons_ne_nil v more) hitems fuel rest (by omega)
      obtain ⟨c, after, heq, hc⟩ := exists_head_of_readItems? hread
      rw [heq] at hread ⊢
      rw [Json.read?, skip_of_not_mem hc after]
      split
      · next hclose =>
        obtain ⟨rfl, -⟩ := List.cons.inj hclose
        exact absurd (by decide) hc
      · rw [hread]
        rfl

theorem readsBack_record (origin : Origin) {fields : List (String × Value)}
    (ordered : Fields.ofList fields = fields) (hfields : ∀ f ∈ fields, ReadsBack f.2) :
    ReadsBack (.record origin fields) := by
  intro fuel rest hfuel _
  have hwritten : (Expr.literal (.record origin fields)).written
      = '\x7b' :: (Expr.writtenEntries (Expr.literalEntries fields) ++ ['\x7d']) := rfl
  rw [hwritten, List.length_cons, List.length_append, List.length_singleton] at hfuel
  rw [hwritten, List.cons_append, List.append_assoc, List.singleton_append, Value.madeBy_record]
  cases fuel with
  | zero => exact absurd hfuel (Nat.not_lt_zero _)
  | succ fuel =>
    cases fields with
    | nil => rfl
    | cons f more =>
      have hread := readFields?_written (List.cons_ne_nil f more) hfields fuel rest (by omega)
      have hsame : Fields.ofList ((f :: more).map fun f => (f.1, f.2.madeBy .host))
          = (f :: more).map fun f => (f.1, f.2.madeBy .host) := by
        rw [Fields.ofList_map, ordered]
      rw [← hsame]
      show (Json.readFields? atom? fuel (Expr.writtenEntries (Expr.literalEntries (f :: more))
        ++ '\x7d' :: rest)).map _ = _
      rw [hread]
      rfl

/-- **Every value that can be written down is read back**, one case for each kind of value. -/
theorem readsBack_of_writable (hv : v.Writable) : ReadsBack v := by
  induction hv with
  | undefined => exact readsBack_of_atom? fun _ _ => rfl
  | null => exact readsBack_of_atom? fun _ _ => rfl
  | bool b => exact readsBack_of_atom? fun _ _ => by cases b <;> rfl
  | num x => exact readsBack_of_atom? fun _ hrest => atom?_literal x hrest
  | str s => exact readsBack_str s
  | list _ ih => exact readsBack_list ih
  | record origin ordered _ _ ih => exact readsBack_record origin ordered ih

/-! ## 4. Calls -/

/-- Arguments are read back. -/
theorem literals?_written {args : List Value} (hargs : ∀ v ∈ args, v.Writable) (rest : List Char) :
    literals? (Expr.writtenItems (Expr.literals args) ++ ')' :: rest)
      = some (args.map (Value.madeBy .host), rest) := by
  cases args with
  | nil => rfl
  | cons v more =>
    have hread := readItems?_written ')' (by decide) (List.cons_ne_nil v more)
      (fun v hv => readsBack_of_writable (hargs v hv))
      ((Expr.writtenItems (Expr.literals (v :: more)) ++ ')' :: rest).length + 1) rest (by
        rw [List.length_append, List.length_cons]
        omega)
    obtain ⟨c, after, heq, hc⟩ := exists_head_of_readItems? hread
    rw [heq] at hread ⊢
    unfold literals?
    rw [skip_of_not_mem hc after]
    split
    · next hclose =>
      obtain ⟨rfl, -⟩ := List.cons.inj hclose
      exact absurd (by decide) hc
    · exact hread

theorem span_identifier {name : List Char} (h : Text.isIdentifier name = true) (rest : List Char) :
    (name ++ '(' :: rest).span Text.continuesName = (name, '(' :: rest) := by
  have hname : ∀ c ∈ name, Text.continuesName c = true := by
    cases name with
    | nil => exact List.forall_mem_nil _
    | cons c more =>
      obtain ⟨hc, hmore⟩ := Bool.and_eq_true_iff.mp h
      refine List.forall_mem_cons.mpr ⟨?_, List.all_eq_true.mp hmore⟩
      rw [Text.continuesName, hc]
      rfl
  have hparen : ¬ Text.continuesName '(' = true := by decide
  rw [List.span_eq_takeWhile_dropWhile, List.takeWhile_append_of_pos hname,
    List.dropWhile_append_of_pos hname, List.takeWhile_cons_of_neg hparen,
    List.dropWhile_cons_of_neg hparen, List.append_nil]

/-- **A call is read back**, and what stands behind it is left over. -/
theorem call?_written {f : String} (hf : Text.isIdentifier f.toList = true) {args : List Value}
    (hargs : ∀ v ∈ args, v.Writable) (rest : List Char) :
    call? ((Stmt.call f (Expr.literals args)).written ++ rest)
      = some (.call f (Expr.literals args), rest) := by
  have hcall : (Stmt.call f (Expr.literals args)).written
      = f.toList ++ ['('] ++ Expr.writtenItems (Expr.literals args) ++ [')'] ++ [';'] := rfl
  have hwritten : (Stmt.call f (Expr.literals args)).written ++ rest
      = f.toList ++ '(' :: (Expr.writtenItems (Expr.literals args) ++ ')' :: ';' :: rest) := by
    simp [hcall]
  have hsame : Expr.literals (args.map (Value.madeBy .host)) = Expr.literals args := by
    rw [Expr.literals_eq_map, Expr.literals_eq_map, List.map_map]
    exact List.map_congr_left fun v hv => Expr.literal_madeBy (hargs v hv) .host
  rw [hwritten]
  unfold call?
  simp only [span_identifier hf, hf, literals?_written hargs, hsame, String.ofList_toList]

/-! ## 5. Texts -/

/-- The text that calls a function with given values, and does nothing else. -/
def callText (f : String) (args : List Value) : String :=
  String.ofList (Stmt.call f (Expr.literals args)).written

/-- The line that makes a module a config module. -/
def directiveLine : List Char := "'use config';\n".toList

/-- The text of a config module that does the same. -/
def callModuleText (f : String) (args : List Value) : String :=
  String.ofList (directiveLine ++ (Stmt.call f (Expr.literals args)).written)

section

variable {f : String} {args : List Value}

/-- A call starts with neither a mark nor the end of a line. -/
theorem exists_head_of_call? {r : Stmt × List Char} (h : call? cs = some r) :
    ∃ c more, cs = c :: more ∧ c ≠ '@' ∧ c ≠ '\n' ∧ c ≠ '#' := by
  cases cs with
  | nil => exact nomatch h
  | cons c more =>
    refine ⟨c, more, rfl, ?_, ?_, ?_⟩
    · rintro rfl
      exact nomatch h
    · rintro rfl
      exact nomatch h
    · rintro rfl
      exact nomatch h

/-- The call that a text starts with is not passed over. -/
theorem skip?_of_call? {r : Stmt × List Char} (h : call? cs = some r) {o : Outlook}
    (ho : o.mayStart = true) (size : Nat) : skip? (size + 1) o cs = some (o, cs) := by
  obtain ⟨c, more, rfl, -⟩ := exists_head_of_call? h
  rw [skip?, h, ho]
  · simp
  · simp

/-- The directive is passed over. -/
theorem skip?_directive (cs : List Char) (size : Nat) :
    skip? (size + 3) (.start false) (directiveLine ++ cs) = skip? size (.start true) cs := rfl

theorem statements?_of_call? {s : Stmt} (h : call? cs = some (s, [])) (size : Nat) (spot : Spot) :
    statements? (size + 1) spot cs = some ([(spot, s)], spot.past cs) := by
  have hbefore : before cs [] = cs := by simp [before]
  obtain ⟨c, more, rfl, hat, hline, -⟩ := exists_head_of_call? h
  rw [statements?, h]
  · simp [statements?_nil, hbefore]
  · simp
  · exact fun _ heq => hat (List.cons.inj heq).1
  · exact fun _ heq => hline (List.cons.inj heq).1

/-- A text that goes over to a call is the program of this call, if its function can be called so. -/
theorem ofText_of_skip? {mayRun : Bool} {text : String}
    (hargs : ∀ v ∈ args, v.Writable) (hf : Manner.isValue ⟨false, false, !mayRun⟩ f = true)
    (hcall : call? cs = some (.call f (Expr.literals args), []))
    (hskip : skip? ((afterHashbang mayRun text.toList).length + 1) (.start mayRun)
      (afterHashbang mayRun text.toList) = some (.start true, cs)) :
    ∃ spot ending, Program.ofText mayRun text
      = .ok ⟨false, false, [(spot, .call f (Expr.literals args))], ending⟩ := by
  obtain ⟨c, more, rfl, hat, -⟩ := exists_head_of_call? hcall
  have hsync : asyncMark.isPrefixOf (c :: more) = false := by
    show ('@' == c && _) = false
    rw [beq_eq_false_iff_ne.mpr hat.symm, Bool.false_and]
  have hsound : Stmt.areSound ⟨false, false, !mayRun⟩ [.call f (Expr.literals args)] = true := by
    have hliterals : Expr.areSound ⟨false, false, !mayRun⟩ (Expr.literals args) = true := by
      rw [Expr.literals_eq_map]
      refine Expr.areSound_of_forall fun e he => ?_
      obtain ⟨v, hv, rfl⟩ := List.mem_map.mp he
      exact Expr.isSound_literal (hargs v hv) _
    rw [Stmt.areSound, Stmt.isSound, Expr.isSound, hf, hliterals]
    rfl
  have hleaving : ∀ spot, upToLeaving [(spot, Stmt.call f (Expr.literals args))]
      = [(spot, .call f (Expr.literals args))] := by
    intro spot
    rw [upToLeaving]
    split <;> rfl
  have hfollowing : (Outlook.start true).following? = some (.start true) := rfl
  have hstrict : (Outlook.start true).isStrict = false := rfl
  have hadmits : (Outlook.start true).admits (.call f (Expr.literals args)) = true := rfl
  have hblank : (Stmt.call f (Expr.literals args)).isBlank = false := rfl
  unfold Program.ofText Program.ofText?
  simp only [hskip, Option.bind_eq_bind, Option.bind_some, hsync, statements?_of_call? hcall,
    Bool.false_and, Bool.false_or, Bool.false_eq_true, if_false, List.isEmpty_cons, hfollowing, hstrict,
    List.map_cons, List.map_nil, hsound, Bool.true_and, List.find?_cons, hblank, Bool.not_false,
    Option.elim_some, hadmits, if_true, hleaving]
  exact ⟨_, _, rfl⟩

/-- **There is a script for every call** of a function with values that can be written down. -/
theorem ofText_callText (hf : Text.isIdentifier f.toList = true)
    (hvalue : Manner.isValue ⟨false, false, false⟩ f = true) (hargs : ∀ v ∈ args, v.Writable) :
    ∃ spot ending, Program.ofText true (callText f args)
      = .ok ⟨false, false, [(spot, .call f (Expr.literals args))], ending⟩ := by
  have hcall := call?_written hf hargs []
  rw [List.append_nil] at hcall
  have hcode : afterHashbang true (callText f args).toList
      = (Stmt.call f (Expr.literals args)).written := by
    rw [callText, String.toList_ofList]
    obtain ⟨c, more, heq, -, -, hhash⟩ := exists_head_of_call? hcall
    rw [heq]
    unfold afterHashbang
    split
    · next hrun => exact absurd (List.cons.inj hrun).1 hhash
    · rfl
  refine ofText_of_skip? hargs hvalue hcall ?_
  rw [hcode]
  exact skip?_of_call? hcall rfl _

/-- **There is a config module for every such call.** -/
theorem ofText_callModuleText (hf : Text.isIdentifier f.toList = true)
    (hvalue : Manner.isValue ⟨false, false, true⟩ f = true) (hargs : ∀ v ∈ args, v.Writable) :
    ∃ spot ending, Program.ofText false (callModuleText f args)
      = .ok ⟨false, false, [(spot, .call f (Expr.literals args))], ending⟩ := by
  have hcall := call?_written hf hargs []
  rw [List.append_nil] at hcall
  have hcode : afterHashbang false (callModuleText f args).toList
      = directiveLine ++ (Stmt.call f (Expr.literals args)).written := by
    rw [callModuleText, String.toList_ofList]
    rfl
  refine ofText_of_skip? hargs hvalue hcall ?_
  have hlength : (directiveLine ++ (Stmt.call f (Expr.literals args)).written).length + 1
      = (Stmt.call f (Expr.literals args)).written.length + 11 + 1 + 3 := by
    have hline : directiveLine.length = 14 := rfl
    rw [List.length_append, hline]
    omega
  rw [hcode, hlength, skip?_directive]
  exact skip?_of_call? hcall rfl _

theorem isConfig_callModuleText (f : String) (args : List Value) :
    Module.isConfig (callModuleText f args) = true := by
  unfold Module.isConfig
  rw [callModuleText, String.toList_ofList]
  rfl

end

end ConfGraph.Script
