/-
Module: Warehouse.Proofs.Settings.Variables
Purpose: What becomes of a text that is written segment by segment, some of them references to
  variables: the runs between them stay, every reference gives way to the value of its variable as
  that stands, and the first variable that is not set is the error. The scanner meets the segments
  one after the other, with whatever is written behind them.
Trusted boundary: none
Main exports: Segment, WrittenAs, fragments_written, Segment.StandsFor, filled, filled_append,
  expandVariables_written
-/
import Warehouse.Proofs.Lists
import Warehouse.Proofs.Results
import Warehouse.Settings.Variables

namespace Warehouse

/-- A run of characters that stand for themselves, or a variable that is referred to. -/
inductive Segment where
  | run (s : List Char)
  | reference (name : List Char)
deriving DecidableEq

/-- The texts in which segments are written. A name between braces is any but the empty one that
does not close them; one without braces goes on as far as it can. -/
inductive WrittenAs : List Segment → List Char → Prop where
  | nil : WrittenAs [] []
  | run {s text : List Char} {segments : List Segment} (free : '$' ∉ s)
    (rest : WrittenAs segments text) :
      WrittenAs (.run s :: segments) (s ++ text)
  | braced {name text : List Char} {segments : List Segment} (named : name ≠ [])
    (unclosed : '}' ∉ name)
      (rest : WrittenAs segments text) :
      WrittenAs (.reference name :: segments) ('$' :: '{' :: (name ++ '}' :: text))
  | bare {name text : List Char} {segments : List Segment} (named : name ≠ [])
      (chars : ∀ c ∈ name, isNameChar c = true)
      (ends : ∀ c ∈ text.head?, isNameChar c = false) (rest : WrittenAs segments text) :
      WrittenAs (.reference name :: segments) ('$' :: (name ++ text))

/-- The parts of a segment. -/
def Segment.fragments : Segment → List Fragment
  | .run s => s.map .plain
  | .reference name => [.variable name]

/-- The variable that a segment refers to, if it is not set. -/
def Segment.unset? (env : Environment) : Segment → Option String
  | .run _ => none
  | .reference name => if (env (String.ofList name)).isNone then some (String.ofList name) else none

/-- What a segment is replaced by: a run by itself, a reference by the value of its variable. -/
inductive Segment.StandsFor (env : Environment) : Segment → List Char → Prop where
  | run (s : List Char) : StandsFor env (.run s) s
  | reference {name : List Char} {value : String} (set : env (String.ofList name) = some value) :
      StandsFor env (.reference name) value.toList

/-! ### What the scanner finds

A text that is written of segments is cut into these segments again, provided that no segment runs
on into the next one. For a name without braces that means that no name character follows. -/

/-- A text without a dollar sign stands for itself. -/
theorem fragments_run {s : List Char} (free : '$' ∉ s) (rest : List Char) :
    fragments (s ++ rest) = s.map .plain ++ fragments rest := by
  induction s with
  | nil => rfl
  | cons c s ih =>
    rw [List.mem_cons, not_or] at free
    obtain ⟨other, free⟩ := free
    rw [List.cons_append, fragments, ih free, List.map_cons, List.cons_append]
    · exact fun _ same _ => other same.symm
    · exact fun same => other same.symm

/-- A name in braces is a reference, up to the closing one. -/
theorem fragments_braced {name : List Char} (named : name ≠ []) (unclosed : '}' ∉ name)
    (rest : List Char) :
    fragments ('$' :: '{' :: (name ++ '}' :: rest)) = .variable name :: fragments rest := by
  have inside : ∀ c ∈ name, decide (c ≠ '}') = true :=
    fun c member => decide_eq_true fun same => unclosed (same ▸ member)
  have ends : ∀ c ∈ ('}' :: rest).head?, decide (c ≠ '}') = false := by simp
  rw [fragments, takeWhile_append_of_ends inside ends, dropWhile_append_of_ends inside ends,
    Fragment.ofName, if_neg (by simpa using named), List.drop_one, List.tail_cons]

/-- A name without braces is a reference, up to the first character that is none of a name. -/
theorem fragments_bare {name rest : List Char} (named : name ≠ [])
    (chars : ∀ c ∈ name, isNameChar c = true) (ends : ∀ c ∈ rest.head?, isNameChar c = false) :
    fragments ('$' :: (name ++ rest)) = .variable name :: fragments rest := by
  rw [fragments, takeWhile_append_of_ends chars ends, dropWhile_append_of_ends chars ends,
    Fragment.ofName, if_neg (by simpa using named)]
  -- The name does not begin with a brace.
  rintro behind same
  cases name with
  | nil => exact named rfl
  | cons c name =>
    obtain ⟨rfl, -⟩ := List.cons.inj same
    cases chars '{' List.mem_cons_self

/-- The scanner finds the segments that a text is written in. -/
theorem fragments_written {segments : List Segment} {text : List Char}
    (written : WrittenAs segments text) : fragments text = segments.flatMap Segment.fragments := by
  induction written with
  | nil => rw [fragments, List.flatMap_nil]
  | run free _ ih => rw [fragments_run free, ih, List.flatMap_cons, Segment.fragments]
  | braced named unclosed _ ih =>
    rw [fragments_braced named unclosed, ih, List.flatMap_cons, Segment.fragments,
      List.singleton_append]
  | bare named chars ends _ ih =>
    rw [fragments_bare named chars ends, ih, List.flatMap_cons, Segment.fragments,
      List.singleton_append]

/-! ### What takes the place of the segments

A reference is replaced by the value of its variable, and values are not looked at again. The first
variable without a value is what is wrong with the text. -/

/-- The parts of a text with every reference replaced, or the first variable that is not set. -/
def filled (env : Environment) (parts : List Fragment) : Except MissingVariable (List Char) :=
  (parts.mapM (Fragment.value env)).map List.flatten

private theorem expandVariables_eq (env : Environment) (text : String) :
    expandVariables env text = (filled env (fragments text.toList)).map String.ofList := by
  rw [expandVariables, filled]
  cases (fragments text.toList).mapM (Fragment.value env) <;> rfl

section

variable {env : Environment} {parts more : List Fragment} {segment : Segment}
    {segments : List Segment}
  {out : List Char} {e : MissingVariable}

/-- Parts are filled one after the other, and what the first ones give is not looked at again. -/
theorem filled_append (env : Environment) (parts more : List Fragment) :
    filled env (parts ++ more) = do return (← filled env parts) ++ (← filled env more) := by
  rw [filled, filled, filled, List.mapM_append]
  cases parts.mapM (Fragment.value env) with
  | error e => rfl
  | ok values =>
    cases more.mapM (Fragment.value env) with
    | error e => rfl
    | ok values' => exact congrArg Except.ok List.flatten_append

/-- Two parts are filled in just if each of them is. -/
theorem filled_append_eq_ok_iff : filled env (parts ++ more) = .ok out ↔
    ∃ front back, filled env parts = .ok front ∧ filled env more = .ok back ∧
      out = front ++ back := by
  rw [filled_append]
  cases filled env parts <;> cases filled env more <;> simp [bind, Except.bind, pure,
    Except.pure, eq_comm]

/-- What is wrong with two parts is what is wrong with the first, or else with the second. -/
theorem filled_append_eq_error_iff : filled env (parts ++ more) = .error e ↔
    filled env parts = .error e ∨ (∃ front, filled env parts = .ok front) ∧
    filled env more = .error e := by
  rw [filled_append]
  cases filled env parts <;> cases filled env more <;> simp [bind, Except.bind, pure, Except.pure]

private theorem filled_run (env : Environment) (s : List Char) :
    filled env (s.map .plain) = .ok s := by
  induction s with
  | nil => rfl
  | cons c s ih =>
    have first : filled env [.plain c] = .ok [c] := rfl
    exact filled_append_eq_ok_iff.mpr ⟨[c], s, first, ih, rfl⟩

private theorem filled_reference (env : Environment) (name : List Char) :
    filled env [.variable name] = match env (String.ofList name) with
      | some value => .ok value.toList
      | none => .error ⟨String.ofList name⟩ := by
  rw [filled, List.mapM_cons, List.mapM_nil, Fragment.value]
  cases env (String.ofList name) with
  | none => rfl
  | some value => exact congrArg Except.ok (List.append_nil _)

/-- A segment is filled in by what it stands for. -/
theorem filled_segment_eq_ok_iff : filled env segment.fragments = .ok out ↔
    segment.StandsFor env out := by
  cases segment with
  | run s =>
    rw [Segment.fragments, filled_run]
    constructor
    · rintro ⟨⟩
      exact .run out
    · rintro ⟨⟩
      rfl
  | reference name =>
    rw [Segment.fragments, filled_reference]
    constructor
    · intro filled
      cases set : env (String.ofList name) with
      | none => simp [set] at filled
      | some value =>
        obtain rfl : value.toList = out := by simpa [set] using filled
        exact .reference set
    · rintro (_ | set)
      rw [set]

/-- A segment is wrong just if its variable has no value. -/
theorem filled_segment_eq_error_iff : filled env segment.fragments = .error e ↔
    segment.unset? env = some e.name := by
  cases segment with
  | run s => simp [Segment.fragments, filled_run, Segment.unset?]
  | reference name =>
    obtain ⟨missing⟩ := e
    rw [Segment.fragments, filled_reference, Segment.unset?]
    cases env (String.ofList name) <;> simp

/-- Segments are filled just if each of them stands for something. -/
theorem filled_segments_eq_ok_iff : filled env (segments.flatMap Segment.fragments) = .ok out ↔
    ∃ values, List.Forall₂ (Segment.StandsFor env) segments values ∧ out = values.flatten := by
  induction segments generalizing out with
  | nil =>
    simp only [List.forall₂_nil_left_iff, exists_eq_left]
    exact ⟨fun done => (Except.ok.inj done).symm, fun none => congrArg Except.ok none.symm⟩
  | cons segment segments ih =>
    rw [List.flatMap_cons, filled_append_eq_ok_iff]
    simp only [filled_segment_eq_ok_iff, ih]
    constructor
    · rintro ⟨value, _, here, ⟨values, later, rfl⟩, rfl⟩
      exact ⟨value :: values, .cons here later, rfl⟩
    · rintro ⟨_, related, rfl⟩
      cases related with
      | cons here later => exact ⟨_, _, here, ⟨_, later, rfl⟩, rfl⟩

/-- They are not filled just if one of them refers to a variable that is not set, and the first such
is the error. -/
theorem filled_segments_eq_error_iff : filled env (segments.flatMap Segment.fragments) = .error e ↔
    segments.findSome? (Segment.unset? env) = some e.name := by
  induction segments with
  | nil => exact iff_of_false (fun failed => by cases failed) (fun found => by cases found)
  | cons segment segments ih =>
    rw [List.flatMap_cons, filled_append_eq_error_iff, List.findSome?_cons, ih,
      filled_segment_eq_error_iff]
    cases unset : segment.unset? env with
    | some name =>
      have failed : filled env segment.fragments = .error ⟨name⟩ :=
        filled_segment_eq_error_iff.mpr unset
      simp [failed]
    | none =>
      cases here : filled env segment.fragments with
      | ok value => simp
      | error e' =>
        rw [filled_segment_eq_error_iff, unset] at here
        cases here

end

/-- A text that is written in segments, whichever, becomes what they stand for, one after the other;
or, if one of them refers to a variable that is not set, the first such variable is the error. -/
theorem expandVariables_written (env : Environment) {segments : List Segment} {text : String}
    (written : WrittenAs segments text.toList) :
    (∀ out, expandVariables env text = .ok out ↔
      ∃ values, List.Forall₂ (Segment.StandsFor env) segments values ∧
        out = String.ofList values.flatten) ∧
    ∀ name, expandVariables env text = .error ⟨name⟩ ↔
      segments.findSome? (Segment.unset? env) = some name := by
  rw [expandVariables_eq, fragments_written written]
  constructor
  · intro out
    rw [map_eq_ok_iff]
    constructor
    · rintro ⟨_, done, rfl⟩
      obtain ⟨values, related, rfl⟩ := filled_segments_eq_ok_iff.mp done
      exact ⟨values, related, rfl⟩
    · rintro ⟨values, related, rfl⟩
      exact ⟨_, filled_segments_eq_ok_iff.mpr ⟨values, related, rfl⟩, rfl⟩
  · intro name
    rw [map_eq_error_iff, filled_segments_eq_error_iff]

/-- A path below a root, for a user. -/
def pathSegments : List Segment :=
  [.reference "ROOT".toList, .run "/".toList, .reference "my data".toList, .run "_".toList,
    .reference "USER".toList, .run ".json".toList]

/-- A dollar sign in a value is not one of the text. -/
theorem expandVariables_path : WrittenAs pathSegments "$ROOT/$\x7bmy data\x7d_$USER.json".toList ∧
    expandVariables (.ofPairs [("ROOT", "/srv/$USER"), ("my data", "$ROOT"), ("USER", "anna")])
      "$ROOT/$\x7bmy data\x7d_$USER.json" = .ok "/srv/$USER/$ROOT_anna.json" ∧
    expandVariables (.ofPairs [("ROOT", "/srv")]) "$ROOT/$\x7bmy data\x7d_$USER.json" =
      .error ⟨"my data"⟩ := by
  have chars {name : List Char} (all : name.all isNameChar = true) :
      ∀ c ∈ name, isNameChar c = true :=
    List.all_eq_true.mp all
  have ends {c : Char} {text : List Char} (other : isNameChar c = false) :
      ∀ x ∈ (c :: text).head?, isNameChar x = false := by
    rintro _ ⟨⟩
    exact other
  have written : WrittenAs pathSegments "$ROOT/$\x7bmy data\x7d_$USER.json".toList :=
    .bare (by decide) (chars (by decide)) (ends (by decide)) <| .run (by decide) <|
      .braced (by decide) (by decide) <| .run (by decide) <|
      .bare (by decide) (chars (by decide)) (ends (by decide)) <| .run (by decide) .nil
  refine ⟨written, ((expandVariables_written _ written).1 _).mpr ?_,
    ((expandVariables_written _ written).2 _).mpr ?_⟩
  · refine ⟨["/srv/$USER".toList, "/".toList, "$ROOT".toList, "_".toList, "anna".toList,
      ".json".toList], ?_, by decide⟩
    exact .cons (.reference (by decide +kernel)) <| .cons (.run _) <|
      .cons (.reference (by decide +kernel)) <| .cons (.run _) <|
      .cons (.reference (by decide +kernel)) <| .cons (.run _) .nil
  · decide

end Warehouse
