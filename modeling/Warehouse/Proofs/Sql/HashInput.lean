/-
Module: Warehouse.Proofs.Sql.HashInput
Purpose: Which rows are hashed from one text. The texts of the components are joined as they are: a
  separator inside one of them looks like one between two, and a text that is spelled like the token
  for `NULL` looks like `NULL`. Rows without either are told apart by the text that is hashed.
Trusted boundary: none
Main exports: Separates, separates_singleton, eq_of_intercalate_eq, Engine.OnTexts, eval_hashInput,
  TellsApart, PlainRow, plain_rows_told_apart, not_tellsApart_of_same
-/
import Mathlib.Data.List.Basic
import Warehouse.Proofs.Sql.KeyHash

namespace Warehouse.Sql

/-! ### Texts with a separator between them -/

/-- Whether the separator behind a text can be told from the text: it stands at the end of the two
and nowhere before. -/
def Separates (separator text : List Char) : Prop :=
  ∀ before after, text ++ separator = before ++ separator ++ after → after = []

section

variable {separator text text' rest rest' : List Char}

/-- A separator of one character is told from every text without that character. -/
theorem separates_singleton {c : Char} : Separates [c] text ↔ c ∉ text := by
  constructor
  · intro separates inside
    obtain ⟨before, after, rfl⟩ := List.append_of_mem inside
    have nothing : after ++ [c] = [] := separates before (after ++ [c]) (by simp)
    exact List.append_ne_nil_of_right_ne_nil after (List.cons_ne_nil c []) nothing
  · intro free before after same
    rcases List.eq_nil_or_concat after with nothing | ⟨after', last, rfl⟩
    · exact nothing
    · have longer : text ++ [c] = (before ++ [c] ++ after') ++ [last] := by
        rw [same, List.concat_eq_append]
        simp only [List.append_assoc]
      have split : text = before ++ [c] ++ after' := List.append_inj_left' longer rfl
      apply absurd _ free
      rw [split]
      simp

/-- Two separators overlap only if they are one. -/
theorem Separates.eq_nil {overlap : List Char} (separates : Separates separator (text ++ overlap))
    (same : separator ++ rest = overlap ++ (separator ++ rest')) : overlap = [] := by
  have front : separator <+: overlap ++ separator := by
    have whole : overlap ++ separator <+: separator ++ rest :=
      ⟨rest', by rw [same, List.append_assoc]⟩
    apply List.prefix_of_prefix_length_le (List.prefix_append separator rest) whole
    simp
  obtain ⟨behind, shifted⟩ := front
  have nothing : behind = [] := by
    apply separates text
    rw [List.append_assoc, List.append_assoc, shifted]
  have lengths := congrArg List.length shifted
  rw [nothing, List.length_append, List.length_append, List.length_nil] at lengths
  exact List.eq_nil_of_length_eq_zero (by omega)

/-- The first separator shows where the first text ends. -/
theorem Separates.append_inj (separates : Separates separator text)
    (separates' : Separates separator text') (same : text ++ (separator ++ rest) =
      text' ++ (separator ++ rest')) : text = text' ∧ rest = rest' := by
  rcases List.append_eq_append_iff.mp same with
    ⟨overlap, longer, behind⟩ | ⟨overlap, longer, behind⟩
  · subst longer
    obtain rfl := separates'.eq_nil behind
    exact ⟨(List.append_nil text).symm, List.append_cancel_left behind⟩
  · subst longer
    obtain rfl := separates.eq_nil behind
    exact ⟨List.append_nil text', (List.append_cancel_left behind).symm⟩

/-- Texts that are told from the separator are told from one another. Behind the last there is no
separator. -/
theorem eq_of_intercalate_eq {texts texts' : List (List Char)}
    (length : texts.length = texts'.length) (separate : ∀ t ∈ texts.dropLast, Separates separator t)
    (separate' : ∀ t ∈ texts'.dropLast, Separates separator t)
    (same : separator.intercalate texts = separator.intercalate texts') : texts = texts' := by
  induction texts generalizing texts' with
  | nil => exact (List.eq_nil_of_length_eq_zero length.symm).symm
  | cons first rest ih =>
    cases texts' with
    | nil => cases length
    | cons first' rest' =>
      have length' : rest.length = rest'.length := Nat.succ.inj length
      match rest, rest' with
      | [], [] => simpa using same
      | [], _ :: _ => cases length'
      | _ :: _, [] => cases length'
      | second :: others, second' :: others' =>
        rw [List.intercalate_cons_cons, List.intercalate_cons_cons, List.append_assoc,
          List.append_assoc] at same
        rw [List.dropLast_cons_cons, List.forall_mem_cons] at separate separate'
        obtain ⟨rfl, tail⟩ := separate.1.append_inj separate'.1 same
        rw [ih length' separate.2 separate'.2 tail]

end

private theorem join_intersperse (separator : String) (texts : List String) :
    String.join (texts.intersperse separator) = separator.intercalate texts := by
  induction texts with
  | nil => rfl
  | cons first rest ih =>
    cases rest with
    | nil => simp
    | cons second others =>
      rw [List.intersperse_cons_cons, String.join_cons, String.join_cons, ih,
        String.intercalate_cons_cons, String.append_assoc]

/-! ### The text that is hashed

What a database hashes is the text of the values of a row, with a mark for what is missing and
separators between. The hash itself is not looked into: if two rows have the same text, they have
the same hash, and nothing is said of the converse. -/

/-- Whether an engine computes with texts: it leaves a text as it is where a text is wanted, and
joins texts by putting them one behind the other. -/
structure Engine.OnTexts (E : Engine String) : Prop where
  text : ∀ s, E.text s = s
  constant : ∀ s, E.constant (.string s) = some s
  cast : ∀ s, E.cast .string s = some s
  join : E.join = String.join

private theorem Engine.texts_onTexts : Engine.texts.OnTexts where
  text _ := rfl
  constant _ := rfl
  cast _ := rfl
  join := rfl

/-- What is joined for a value. -/
def hashedText (value : Option String) : String := value.getD nullToken

/-- The values of the components, in the order of their names. -/
def componentValues (w : World String) (sc : Scope String) (components : List HashComponent) :
    List (Option String) :=
  (sortByName components).map fun c => (c.expr.eval w sc).value w.engine

/-- What is hashed is the texts of the values, in the order of the names, with the separator between
them. -/
theorem eval_hashInput {components : List HashComponent} {separator : String} {input : Expr}
    (built : hashComponents components separator = .ok (.hash256 input)) {w : World String}
    (onTexts : w.engine.OnTexts) (sc : Scope String) :
    (input.eval w sc).value w.engine =
      some (separator.intercalate ((componentValues w sc components).map hashedText)) := by
  have text (value : Option String) : w.engine.hashed value = hashedText value := by
    cases value with
    | none => exact onTexts.text nullToken
    | some s =>
      rw [Engine.hashed, Option.bind_some, onTexts.cast]
      rfl
  unfold hashComponents at built
  split at built
  · cases built
  · cases built
    have visible : w.engine.constant (.string separator) = some (w.engine.text separator) := by
      rw [onTexts.constant, onTexts.text]
    have parts := evalAll_separated w visible ((sortByName components).map HashComponent.expr) sc
    rw [List.map_map, List.map_map] at parts
    simp only [Function.comp_def, text, onTexts.text] at parts
    simp only [Expr.eval, Datum.value_scalar, parts, mapM_id_map_some, Option.map_some,
      onTexts.join, join_intersperse, componentValues, List.map_map, Function.comp_def]

/-- Whether two rows that are admitted agree in every component if they are hashed from one text. -/
def TellsApart (input : Expr) (components : List HashComponent)
    (admitted : List (Option String) → Prop) : Prop :=
  ∀ (w w' : World String), w.engine.OnTexts → w'.engine.OnTexts → ∀ sc sc',
    admitted (componentValues w sc components) → admitted (componentValues w' sc' components) →
    (input.eval w sc).value w.engine = (input.eval w' sc').value w'.engine →
    ∀ c ∈ components, (c.expr.eval w sc).value w.engine = (c.expr.eval w' sc').value w'.engine

/-- The values of a row in which the separator and the token for `NULL` are what they seem: no text
is the token, and the separator behind each text but the last can be told from the text. -/
structure PlainRow (separator : String) (values : List (Option String)) : Prop where
  noToken : some nullToken ∉ values
  separate : ∀ v ∈ values.dropLast, Separates separator.toList (hashedText v).toList

/-- Values that are not the token are told apart by their texts. -/
theorem hashedText_inj {value value' : Option String} (plain : value ≠ some nullToken)
    (plain' : value' ≠ some nullToken) (same : hashedText value = hashedText value') :
    value = value' := by
  cases value with
  | none =>
    cases value' with
    | none => rfl
    | some s => exact absurd (congrArg some same.symm) plain'
  | some s =>
    cases value' with
    | none => exact absurd (congrArg some same) plain
    | some s' => exact congrArg some same

/-- Values are told from their texts if none of them is the mark for what is missing. -/
theorem map_hashedText_inj {values values' : List (Option String)} (plain : some nullToken ∉ values)
    (plain' : some nullToken ∉ values') (same : values.map hashedText = values'.map hashedText) :
    values = values' := by
  induction values generalizing values' with
  | nil => exact (List.map_eq_nil_iff.mp same.symm).symm
  | cons v rest ih =>
    cases values' with
    | nil => cases same
    | cons v' rest' =>
      rw [List.mem_cons, not_or] at plain plain'
      obtain ⟨head, tail⟩ := List.cons.inj same
      rw [hashedText_inj (Ne.symm plain.1) (Ne.symm plain'.1) head, ih plain.2 plain'.2 tail]

/-- Plain rows are told apart by the text that is hashed: if it is the same for both, they agree in
every component. -/
theorem plain_rows_told_apart {components : List HashComponent} (some : components ≠ [])
    (separator : String) : ∃ input, hashComponents components separator = .ok (.hash256 input) ∧
      TellsApart input components (PlainRow separator) := by
  obtain ⟨input, built⟩ := exists_hashInput some separator
  refine ⟨input, built, ?_⟩
  intro w w' onTexts onTexts' sc sc' plain plain' same
  rw [eval_hashInput built onTexts, eval_hashInput built onTexts'] at same
  have texts : (componentValues w sc components).map hashedText =
      (componentValues w' sc' components).map hashedText := by
    have joined := congrArg String.toList (Option.some.inj same)
    rw [String.toList_intercalate, String.toList_intercalate] at joined
    apply List.map_injective_iff.mpr fun _ _ => String.toList_injective
    apply eq_of_intercalate_eq _ _ _ joined
    · simp [componentValues]
    · simpa [← List.map_dropLast] using plain.separate
    · simpa [← List.map_dropLast] using plain'.separate
  have values := map_hashedText_inj plain.noToken plain'.noToken texts
  intro c member
  exact List.map_inj_left.mp values c ((List.mergeSort_perm components _).mem_iff.mpr member)

/-! ### Orders by number and region -/

/-- The natural keys of an order. -/
def orderKeys : List HashComponent := [⟨"number", .col "number"⟩, ⟨"region", .col "region"⟩]

/-- Texts, and no tables. -/
def textWorld : World String := ⟨Engine.texts, fun _ => none, fun _ => []⟩

/-- An order in view. -/
def orderInView (number region : Option String) : Scope String :=
  [(⟨none, "s"⟩, fun column => if column = "number" then number else if column = "region" then
    region else none)]

private theorem value_orderInView (number region : Option String) :
    ((Expr.col "number").eval textWorld (orderInView number region)).value
      textWorld.engine = number ∧
      ((Expr.col "region").eval textWorld (orderInView number region)).value textWorld.engine =
        region := by
  have lower : Text.asciiLower "number" = "number" ∧
    Text.asciiLower "region" = "region" := by decide
  simp [Expr.col, Expr.eval, Scope.find, orderInView, Row.get, lower]

private theorem componentValues_orderKeys (number region : Option String) :
    componentValues textWorld (orderInView number region) orderKeys = [number, region] := by
  have sorted : sortByName orderKeys = orderKeys := List.mergeSort_of_pairwise (by decide)
  rw [componentValues, sorted, orderKeys, List.map_cons, List.map_singleton,
    (value_orderInView _ _).1, (value_orderInView _ _).2]

/-- An order without a region is told from one of region `north`. -/
theorem plain_rows_told_apart_for_orders :
    orderKeys ≠ [] ∧ ∃ input, hashComponents orderKeys "|" = .ok (.hash256 input) ∧
      TellsApart input orderKeys (PlainRow "|") ∧
      PlainRow "|" (componentValues textWorld (orderInView (some "7") none) orderKeys) ∧
      PlainRow "|"
        (componentValues textWorld (orderInView (some "7") (some "north")) orderKeys) := by
  have some : orderKeys ≠ [] := List.cons_ne_nil _ _
  have plain (region : Option String) (other : region ≠ Option.some nullToken) :
      PlainRow "|"
        (componentValues textWorld (orderInView (Option.some "7") region) orderKeys) := by
    rw [componentValues_orderKeys]
    refine ⟨?_, ?_⟩
    · rw [List.mem_cons, List.mem_singleton, not_or]
      exact ⟨by decide, other.symm⟩
    · intro v member
      obtain rfl := List.mem_singleton.mp member
      exact separates_singleton.mpr (by decide)
  obtain ⟨input, built, apart⟩ := plain_rows_told_apart some "|"
  exact ⟨some, input, built, apart, plain _ (by decide), plain _ (by decide)⟩

/-- Orders that are hashed from one text but differ are not told apart. -/
theorem not_tellsApart_of_same {input : Expr}
    (built : hashComponents orderKeys "|" = .ok (.hash256 input))
    {admitted : List (Option String) → Prop} (number region number' region' : Option String)
    (admits : admitted [number, region]) (admits' : admitted [number', region'])
    (same : "|".intercalate [hashedText number, hashedText region] =
      "|".intercalate [hashedText number', hashedText region'])
    (differ : region ≠ region') : ¬ TellsApart input orderKeys admitted := by
  intro apart
  have agree :=
    apart textWorld textWorld Engine.texts_onTexts Engine.texts_onTexts (orderInView number region)
      (orderInView number' region')
  rw [eval_hashInput built Engine.texts_onTexts, eval_hashInput built Engine.texts_onTexts,
    componentValues_orderKeys, componentValues_orderKeys] at agree
  have values :=
    agree admits admits' (congrArg some same) ⟨"region", .col "region"⟩ (by simp [orderKeys])
  rw [(value_orderInView _ _).2, (value_orderInView _ _).2] at values
  exact differ values

/-- Not all rows are told apart. Where the separator is part of a text, orders of two regions are
hashed from one text; and where it is not, an order without a region and one whose region is spelled
like the token for `NULL`. -/
theorem not_all_rows_told_apart :
    (¬ ∃ input, hashComponents orderKeys "|" = .ok (.hash256 input) ∧
      TellsApart input orderKeys fun _ => True) ∧
    ¬ ∃ input, hashComponents orderKeys "|" = .ok (.hash256 input) ∧
      TellsApart input orderKeys fun values => ∀ v ∈ values, '|' ∉ (hashedText v).toList := by
  constructor
  · rintro ⟨input, built, apart⟩
    refine not_tellsApart_of_same built (some "7|north") (some "west") (some "7")
      (some "north|west") ?_ ?_ ?_ ?_ apart
    · exact trivial
    · exact trivial
    · decide
    · decide
  · rintro ⟨input, built, apart⟩
    refine not_tellsApart_of_same built (some "7") none (some "7")
      (some nullToken) ?_ ?_ ?_ ?_ apart
    · decide
    · decide
    · rfl
    · decide

end Warehouse.Sql
