import ConfGraph.Proofs.Decimal.Text
import ConfGraph.Proofs.Value.Canonical
import ConfGraph.Value.Printer

/-!
# What JSON text is made of

The JSON text of a value is one line: numbers are written in the characters of numerals, texts between
quotes with their control characters escaped, and all else is brackets, commas, colons and words.  A JSON
value always has such a text, in which it is written as it is.

* `Text.Plain`: texts without control characters.
* `Value.plain_json?`: the JSON text of any value that has one is plain.
* `Value.settled_of_isJson`, `Value.exists_json?`: JSON values are written as they are.
-/

namespace ConfGraph

/-! ## 1. Texts without control characters -/

namespace Text

/-- A text without control characters. -/
def Plain (cs : List Char) : Prop := ∀ c ∈ cs, 32 ≤ c.toNat

instance (cs : List Char) : Decidable (Plain cs) := List.decidableBAll _ cs

variable {c : Char} {as bs : List Char}

theorem plain_cons_iff : Plain (c :: as) ↔ 32 ≤ c.toNat ∧ Plain as := List.forall_mem_cons

theorem plain_append_iff : Plain (as ++ bs) ↔ Plain as ∧ Plain bs := List.forall_mem_append

/-- A plain text is one line. -/
theorem Plain.not_mem (h : Plain as) (hc : c.toNat < 32) : c ∉ as := fun hmem =>
  absurd (h c hmem) (Nat.not_le.mpr hc)

/-- **A quoted text is plain.** -/
theorem plain_quote (s : String) : Plain (quote s) := by
  refine plain_cons_iff.mpr ⟨by decide, plain_append_iff.mpr ⟨fun d hd => ?_, by decide⟩⟩
  obtain ⟨c, -, hd⟩ := List.mem_flatMap.mp hd
  exact not_mem_escape hd

theorem plain_joinWith {sep : List Char} (hsep : Plain sep) {parts : List (List Char)}
    (h : ∀ part ∈ parts, Plain part) : Plain (Value.joinWith sep parts) := by
  cases parts with
  | nil => exact nofun
  | cons part rest =>
    obtain ⟨hpart, hrest⟩ := List.forall_mem_cons.mp h
    rw [Value.joinWith_cons]
    refine plain_append_iff.mpr ⟨hpart, fun c hc => ?_⟩
    obtain ⟨other, hother, hc⟩ := List.mem_flatMap.mp hc
    exact plain_append_iff.mpr ⟨hsep, hrest other hother⟩ c hc

end Text

open Text (Plain plain_cons_iff plain_append_iff plain_quote plain_joinWith)

/-! ## 2. Numbers and values -/

/-- The characters of numerals are no control characters. -/
theorem Decimal.le_toNat_of_isNumeral {c : Char} (h : Decimal.isNumeral c = true) : 32 ≤ c.toNat := by
  simp only [Decimal.isNumeral, Bool.or_eq_true, decide_eq_true_eq] at h
  rcases h with (((h | rfl) | rfl) | rfl) | rfl
  · simp only [Char.isDigit, Bool.and_eq_true, decide_eq_true_eq] at h
    exact Nat.le_trans (by decide) (UInt32.le_iff_toNat_le.mp h.1)
  · decide
  · decide
  · decide
  · decide

namespace Value

theorem plain_numberJson (x : Float) : Plain (numberJson x) := by
  unfold numberJson
  split
  · exact fun c hc => Decimal.le_toNat_of_isNumeral (Number.isNumeral_text x c hc)
  · decide

theorem plain_getD {text : Option (List Char)} (h : ∀ cs, text = some cs → Plain cs) :
    Plain (text.getD "null".toList) := by
  cases text with
  | none => decide
  | some cs => exact h cs rfl

mutual

/-- **The JSON text of a value is one line.** -/
theorem plain_json? : ∀ {v : Value} {text : List Char}, v.json? = some text → Plain text
  | .null, text, h => by
    obtain rfl := Option.some.inj h
    decide
  | .bool b, text, h => by
    obtain rfl := Option.some.inj h
    cases b <;> decide
  | .num x, text, h => by
    obtain rfl := Option.some.inj h
    exact plain_numberJson x
  | .str s, text, h => by
    obtain rfl := Option.some.inj h
    exact plain_quote s
  | .list items, text, h => by
    obtain rfl := Option.some.inj h
    refine plain_cons_iff.mpr ⟨by decide, plain_append_iff.mpr ⟨?_, by decide⟩⟩
    exact plain_joinWith (by decide) (plain_jsonItems items)
  | .record _ fields, text, h => by
    obtain rfl := Option.some.inj h
    refine plain_cons_iff.mpr ⟨by decide, plain_append_iff.mpr ⟨?_, by decide⟩⟩
    exact plain_joinWith (by decide) (plain_jsonFields fields)
  | .heir fields _, text, h => by
    obtain rfl := Option.some.inj h
    refine plain_cons_iff.mpr ⟨by decide, plain_append_iff.mpr ⟨?_, by decide⟩⟩
    exact plain_joinWith (by decide) (plain_jsonFields fields)
  | .opaqueObject .., text, h | .endless, text, h => by
    obtain rfl := Option.some.inj h
    decide
  | .undefined, _, h | .hole, _, h | .function _, _, h | .constant .., _, h => nomatch h

theorem plain_jsonItems : ∀ (items : List Value), ∀ part ∈ jsonItems items, Plain part
  | [] => nofun
  | v :: rest => by
    rw [jsonItems]
    exact List.forall_mem_cons.mpr
      ⟨plain_getD fun _ hv => plain_json? hv, plain_jsonItems rest⟩

theorem plain_jsonFields : ∀ (fields : List (String × Value)), ∀ part ∈ jsonFields fields, Plain part
  | [] => nofun
  | (name, v) :: rest => by
    have hrest := plain_jsonFields rest
    rw [jsonFields]
    split
    · exact hrest
    · next text hv =>
      refine List.forall_mem_cons.mpr ⟨plain_append_iff.mpr ⟨plain_quote name, ?_⟩, hrest⟩
      exact plain_cons_iff.mpr ⟨by decide, plain_json? hv⟩

end

/-! ## 3. JSON values -/

theorem isJson_of_get? : ∀ {fields : List (String × Value)} {name : String} {v : Value},
    FieldsJson fields → Fields.get? fields name = some v → v.IsJson
  | (key, w) :: rest, name, v, h, hget => by
    rw [Fields.get?_cons] at hget
    split at hget
    · obtain rfl := Option.some.inj hget
      exact h.1
    · exact isJson_of_get? h.2 hget

/-- A JSON value says no form of its own: none of its fields can be called. -/
theorem statedForm?_of_isJson (name : String) {v : Value} (h : v.IsJson) : v.statedForm? name = none := by
  unfold statedForm?
  cases hmember : v.member? "toJSON" with
  | none => rfl
  | some w =>
    have hw : w.IsJson := by
      cases v with
      | record origin fields => exact isJson_of_get? h hmember
      | list items => simp [member?] at hmember
      | heir fields parent => exact h.elim
      | function face => exact h.elim
      | constant face result => exact h.elim
      | _ => exact nomatch hmember
    cases w with
    | function face => exact hw.elim
    | constant face result => exact hw.elim
    | _ => rfl

mutual

theorem withStated_of_isJson : ∀ {v : Value}, v.IsJson → v.withStated = v
  | .null, _ | .bool _, _ | .num _, _ | .str _, _ => rfl
  | .list items, h => by rw [withStated, statedItems_of_allJson h 0]
  | .record origin fields, h => by rw [withStated, statedFields_of_fieldsJson h]

theorem statedItems_of_allJson : ∀ {items : List Value}, AllJson items → ∀ i, statedItems i items = items
  | [], _, _ => rfl
  | v :: rest, h, i => by
    rw [statedItems, withStated_of_isJson h.1, statedForm?_of_isJson _ h.1, statedItems_of_allJson h.2]
    rfl

theorem statedFields_of_fieldsJson : ∀ {fields : List (String × Value)}, FieldsJson fields →
    statedFields fields = fields
  | [], _ => rfl
  | (name, v) :: rest, h => by
    rw [statedFields, withStated_of_isJson h.1, statedForm?_of_isJson _ h.1,
      statedFields_of_fieldsJson h.2]
    rfl

end

/-- **A JSON value is written as it is.** -/
theorem settled_of_isJson {v : Value} (h : v.IsJson) : v.settled = v := by
  unfold settled
  dsimp only
  rw [withStated_of_isJson h, statedForm?_of_isJson _ h]
  rfl

/-- **A JSON value can be written.** -/
theorem exists_json? {v : Value} (h : v.IsJson) : ∃ text, v.json? = some text := by
  cases v with
  | undefined => exact h.elim
  | hole => exact h.elim
  | function face => exact h.elim
  | constant face result => exact h.elim
  | _ => exact ⟨_, rfl⟩

end Value

end ConfGraph
