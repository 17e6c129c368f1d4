/-
Module: Warehouse.Proofs.Json.Compact
Purpose: The compact form of a value says which value it is. Its first character tells the kind; a
  string ends at the first quote that is not escaped, a number where no digit follows, an array and
  an object at their brackets. So of two texts that begin with the forms of two values, one text has
  one value and one rest.
Trusted boundary: none
Main exports: Json.Lexical, Json.UniquelyRead, Json.Lexical.uniquelyRead, Json.compact_inj,
  Json.Lexical.sorted
-/
import Warehouse.Json.Basic
import Warehouse.Proofs.Lists

namespace Warehouse.Json

/-- A value whose numbers are written in decimal digits. -/
inductive Lexical : Json → Prop where
  | null : Lexical null
  | bool (value : Bool) : Lexical (bool value)
  | number {lexeme : String} (some : lexeme.toList ≠ [])
    (digits : ∀ c ∈ lexeme.toList, c.isDigit = true) :
      Lexical (number lexeme)
  | string (value : String) : Lexical (string value)
  | array {items : List Json} (each : ∀ item ∈ items, Lexical item) : Lexical (array items)
  | object {members : List (String × Json)} (each : ∀ m ∈ members, Lexical m.2) :
    Lexical (object members)

/-- Inside an array all numbers can be read again if they can in the array. -/
theorem Lexical.of_mem_array {items : List Json} (lexical : (Json.array items).Lexical) :
    ∀ item ∈ items, item.Lexical := by
  cases lexical with
  | array each => exact each

/-- Inside an object all numbers can be read again if they can in the object. -/
theorem Lexical.of_mem_object {members : List (String × Json)}
    (lexical : (Json.object members).Lexical) : ∀ m ∈ members, m.2.Lexical := by
  cases lexical with
  | object each => exact each

/-- A rest of a text that does not go on with a digit. -/
def NoDigitNext (rest : List Char) : Prop := ∀ c ∈ rest.head?, c.isDigit = false

/-- No other value has a form with which a text can begin that begins with the form of this one. -/
def UniquelyRead (a : Json) : Prop :=
  ∀ {b : Json} {rest rest' : List Char}, b.Lexical → NoDigitNext rest → NoDigitNext rest' →
    a.compact.toList ++ rest = b.compact.toList ++ rest' → a = b ∧ rest = rest'

/-! ### Strings

A string is written between quotes, and inside of it a quote, a backslash and control characters are
written with a backslash. So the first quote without one in front is the end, and each character can
be told from how it is written. -/

/-- The characters that are escaped. -/
def escapedChars : List Char := '"' :: '\\' :: (List.range 32).map Char.ofNat

private theorem mem_escapedChars {c : Char} : c ∈ escapedChars ↔
    c = '"' ∨ c = '\\' ∨ c.toNat < 32 := by
  rw [escapedChars, List.mem_cons, List.mem_cons, List.mem_map]
  refine or_congr_right (or_congr_right ?_)
  constructor
  · rintro ⟨n, below, rfl⟩
    have below := List.mem_range.mp below
    have all : ∀ n ∈ List.range 32, (Char.ofNat n).toNat < 32 := by decide
    exact all n (List.mem_range.mpr below)
  · intro below
    exact ⟨c.toNat, List.mem_range.mpr below, Char.ofNat_toNat c⟩

private theorem escapeChar_of_notMem {c : Char} (plain : c ∉ escapedChars) :
    escapeChar c = [c] := by
  rw [mem_escapedChars, not_or, not_or] at plain
  obtain ⟨quote, backslash, control⟩ := plain
  have other {d : Char} (low : d.toNat < 32) : c ≠ d := by
    rintro rfl
    exact control low
  have number {n : Nat} (low : n < 32) : c.toNat ≠ n := by
    rintro rfl
    exact control low
  rw [escapeChar, if_neg quote, if_neg backslash, if_neg (number (by decide)),
    if_neg (other (by decide)),
    if_neg (other (by decide)), if_neg (number (by decide)), if_neg (other (by decide)),
    if_neg control]

private theorem escapeChar_of_mem {c : Char} (escaped : c ∈ escapedChars) :
    ∃ rest, escapeChar c = '\\' :: rest := by
  have all : (escapedChars.all fun c => (escapeChar c).head? = some '\\') = true := by
    decide +kernel
  have first := of_decide_eq_true (List.all_eq_true.mp all c escaped)
  cases form : escapeChar c with
  | nil =>
    rw [form] at first
    cases first
  | cons x rest =>
    rw [form] at first
    exact ⟨rest, congrArg (· :: rest) (Option.some.inj first)⟩

/-- No character is written like the beginning of another. -/
theorem escapeChar_append_inj {c d : Char} {xs ys : List Char}
    (same : escapeChar c ++ xs = escapeChar d ++ ys) : c = d ∧ xs = ys := by
  -- A character that stands for itself is no backslash, with which the others begin.
  have apart {c d : Char} {xs ys : List Char} (escaped : c ∈ escapedChars)
    (plain : d ∉ escapedChars) :
      escapeChar c ++ xs ≠ escapeChar d ++ ys := by
    intro same
    obtain ⟨rest, form⟩ := escapeChar_of_mem escaped
    rw [form, escapeChar_of_notMem plain] at same
    obtain ⟨rfl, _⟩ := List.cons.inj same
    exact plain (mem_escapedChars.mpr (.inr (.inl rfl)))
  have equal : c = d := by
    by_cases first : c ∈ escapedChars <;> by_cases second : d ∈ escapedChars
    · have all : (escapedChars.all fun c => escapedChars.all fun d =>
          (escapeChar c).isPrefixOf (escapeChar d) → c = d) = true := by decide +kernel
      have free (c : Char) (first : c ∈ escapedChars) (d : Char) (second : d ∈ escapedChars) :
          (escapeChar c).isPrefixOf (escapeChar d) = true → c = d :=
        of_decide_eq_true (List.all_eq_true.mp (List.all_eq_true.mp all c first) d second)
      have here : escapeChar c <+: escapeChar c ++ xs := List.prefix_append _ _
      have there : escapeChar d <+: escapeChar c ++ xs := same ▸ List.prefix_append _ _
      rcases List.prefix_or_prefix_of_prefix here there with before | before
      · exact free c first d second (List.isPrefixOf_iff_prefix.mpr before)
      · exact (free d second c first (List.isPrefixOf_iff_prefix.mpr before)).symm
    · exact absurd same (apart first second)
    · exact absurd same.symm (apart second first)
    · rw [escapeChar_of_notMem first, escapeChar_of_notMem second] at same
      exact (List.cons.inj same).1
  subst equal
  exact ⟨rfl, List.append_cancel_left same⟩

/-- No character is written in a way that begins with a quote. -/
theorem escapeChar_append_ne_quote {c : Char} {xs ys : List Char} :
    escapeChar c ++ xs ≠ '"' :: ys := by
  intro same
  by_cases escaped : c ∈ escapedChars
  · obtain ⟨rest, form⟩ := escapeChar_of_mem escaped
    rw [form] at same
    exact absurd (List.cons.inj same).1 (by decide)
  · rw [escapeChar_of_notMem escaped] at same
    obtain ⟨rfl, _⟩ := List.cons.inj same
    exact escaped List.mem_cons_self

/-- What is escaped ends at the first quote that is not. -/
theorem escaped_append_inj {cs ds rest rest' : List Char}
    (same : cs.flatMap escapeChar ++ '"' :: rest = ds.flatMap escapeChar ++ '"' :: rest') :
    cs = ds ∧ rest = rest' := by
  induction cs generalizing ds with
  | nil =>
    cases ds with
    | nil => exact ⟨rfl, (List.cons.inj same).2⟩
    | cons d ds =>
      rw [List.flatMap_cons, List.append_assoc] at same
      exact absurd same.symm escapeChar_append_ne_quote
  | cons c cs ih =>
    cases ds with
    | nil =>
      rw [List.flatMap_cons, List.append_assoc] at same
      exact absurd same escapeChar_append_ne_quote
    | cons d ds =>
      rw [List.flatMap_cons, List.flatMap_cons, List.append_assoc, List.append_assoc] at same
      obtain ⟨rfl, later⟩ := escapeChar_append_inj same
      obtain ⟨rfl, after⟩ := ih later
      exact ⟨rfl, after⟩

private theorem quoted_append (s : String) (rest : List Char) :
    (quoted s).toList ++ rest = '"' :: (s.toList.flatMap escapeChar ++ '"' :: rest) := by
  simp [quoted]

/-- A quoted text tells where it ends, and what it says. -/
theorem quoted_append_inj {s t : String} {rest rest' : List Char}
    (same : (quoted s).toList ++ rest = (quoted t).toList ++ rest') : s = t ∧ rest = rest' := by
  rw [quoted_append, quoted_append] at same
  obtain ⟨chars, after⟩ := escaped_append_inj (List.cons.inj same).2
  exact ⟨String.toList_inj.mp chars, after⟩

/-! ### Numbers -/

/-- Digits go on up to the first character that is none. -/
theorem takeWhile_digits {digits rest : List Char} (all : ∀ c ∈ digits, c.isDigit = true)
    (ends : NoDigitNext rest) : (digits ++ rest).takeWhile Char.isDigit = digits := by
  rw [List.takeWhile_append_of_pos all]
  have none : rest.takeWhile Char.isDigit = [] := by
    cases rest with
    | nil => rfl
    | cons c rest => rw [List.takeWhile_cons_of_neg (by rw [ends c rfl]; exact Bool.false_ne_true)]
  rw [none, List.append_nil]

/-! ### Kinds

The first character of a value tells its kind. Numbers begin with a digit or a sign, which no other
kind does. -/

/-- The first character of the form of a value, up to the digits, which count as one. -/
def firstOf : Json → Char
  | null => 'n'
  | bool value => if value then 't' else 'f'
  | number _ => '0'
  | string _ => '"'
  | array _ => '['
  | object _ => '\x7b'

/-- A character, up to the digits. -/
def digitAsZero (c : Char) : Char := if c.isDigit then '0' else c

private theorem Lexical.compact_eq_cons {a : Json} (lexical : a.Lexical) :
    ∃ c rest, a.compact.toList = c :: rest ∧ digitAsZero c = a.firstOf := by
  cases lexical with
  | null => exact ⟨'n', "ull".toList, by rw [compact]; rfl, rfl⟩
  | bool value =>
    cases value with
    | false => exact ⟨'f', "alse".toList, by rw [compact]; rfl, rfl⟩
    | true => exact ⟨'t', "rue".toList, by rw [compact]; rfl, rfl⟩
  | @number lexeme some digits =>
    obtain ⟨c, rest, form⟩ := List.exists_cons_of_ne_nil some
    refine ⟨c, rest, by rw [compact, form], ?_⟩
    rw [digitAsZero, if_pos (digits c (form ▸ List.mem_cons_self))]
    rfl
  | string value =>
    exact ⟨'"', _, by rw [compact, ← List.append_nil (quoted value).toList, quoted_append], rfl⟩
  | array => exact ⟨'[', _, by simp only [compact, String.toList_append]; rfl, rfl⟩
  | object => exact ⟨'\x7b', _, by simp only [compact, String.toList_append]; rfl, rfl⟩

/-- Two values of one kind, where each truth value is a kind. -/
inductive SameKind : Json → Json → Prop where
  | null : SameKind null null
  | bool (value : Bool) : SameKind (bool value) (bool value)
  | number (lexeme lexeme' : String) : SameKind (number lexeme) (number lexeme')
  | string (s t : String) : SameKind (string s) (string t)
  | array (items items' : List Json) : SameKind (array items) (array items')
  | object (members members' : List (String × Json)) : SameKind (object members) (object members')

private theorem sameKind_of_firstOf {a b : Json} (same : a.firstOf = b.firstOf) : SameKind a b := by
  cases a with
  | bool value =>
    cases b with
    | bool value' =>
      obtain rfl : value = value' := by
        cases value <;> cases value' <;> first | rfl | exact absurd same (by decide)
      exact .bool value
    | _ => cases value <;> simp [firstOf] at same
  | _ =>
    cases b with
    | bool value => cases value <;> simp [firstOf] at same
    | _ => first | simp [firstOf] at same; done | constructor

/-- Texts that begin alike begin with forms of values of one kind. -/
theorem sameKind_of_append {a b : Json} (lexical : a.Lexical) (lexical' : b.Lexical)
    {rest rest' : List Char} (same : a.compact.toList ++ rest = b.compact.toList ++ rest') :
    SameKind a b := by
  obtain ⟨c, _, form, first⟩ := lexical.compact_eq_cons
  obtain ⟨d, _, form', first'⟩ := lexical'.compact_eq_cons
  rw [form, form'] at same
  apply sameKind_of_firstOf
  rw [← first, ← first', (List.cons.inj same).1]

/-! ### Lists and members -/

/-- The further items of an array, each behind a comma. -/
def furtherItems (items : List Json) : List Char :=
  items.flatMap fun item => ',' :: item.compact.toList

/-- The further members of an object, each behind a comma. -/
def furtherMembers (members : List (String × Json)) : List Char :=
  members.flatMap fun m => ',' :: ((quoted m.1).toList ++ ':' :: m.2.compact.toList)

private theorem compactItems_eq_map (items : List Json) :
    compactItems items = items.map compact := by
  induction items with
  | nil => rfl
  | cons item rest ih => rw [compactItems, ih, List.map_cons]

private theorem compactMembers_eq_map (members : List (String × Json)) :
    compactMembers members = members.map fun m => quoted m.1 ++ ":" ++ m.2.compact := by
  induction members with
  | nil => rfl
  | cons m rest ih => rw [compactMembers, ih, List.map_cons]

/-- Texts joined by commas are the first and the further ones, each behind a comma. -/
theorem intercalate_comma_cons (text : List Char) (texts : List (List Char)) :
    [','].intercalate (text :: texts) = text ++ texts.flatMap fun t => ',' :: t := by
  induction texts generalizing text with
  | nil => simp
  | cons t rest ih =>
    rw [List.intercalate_cons_cons, ih, List.flatMap_cons]
    simp

private theorem compact_array_nil (rest : List Char) :
    (array []).compact.toList ++ rest = '[' :: ']' :: rest := by
  simp [compact, compactItems]

private theorem compact_array_cons (item : Json) (items : List Json) (rest : List Char) :
    (array (item :: items)).compact.toList ++ rest =
      '[' :: (item.compact.toList ++ (furtherItems items ++ ']' :: rest)) := by
  simp [compact, compactItems_eq_map, intercalate_comma_cons, furtherItems, List.flatMap_map]

private theorem compact_object_nil (rest : List Char) :
    (object []).compact.toList ++ rest = '\x7b' :: '\x7d' :: rest := by
  simp [compact, compactMembers]

private theorem compact_object_cons (m : String × Json) (ms : List (String × Json))
    (rest : List Char) : (object (m :: ms)).compact.toList ++ rest =
      '\x7b' :: ((quoted m.1).toList ++
        ':' :: (m.2.compact.toList ++ (furtherMembers ms ++ '\x7d' :: rest))) := by
  simp [compact, compactMembers_eq_map, intercalate_comma_cons, furtherMembers, List.flatMap_map]

private theorem noDigitNext_furtherItems (items : List Json) (rest : List Char) :
    NoDigitNext (furtherItems items ++ ']' :: rest) := by
  intro c first
  cases items with
  | nil => cases first; rfl
  | cons item items => cases first; rfl

private theorem noDigitNext_furtherMembers (members : List (String × Json)) (rest : List Char) :
    NoDigitNext (furtherMembers members ++ '\x7d' :: rest) := by
  intro c first
  cases members with
  | nil => cases first; rfl
  | cons m ms => cases first; rfl

/-- No value begins with a bracket that closes. -/
theorem Lexical.compact_ne_closing {a : Json} (lexical : a.Lexical) {rest rest' : List Char}
    {c : Char} (closing : c = ']' ∨ c = '\x7d') : a.compact.toList ++ rest ≠ c :: rest' := by
  intro same
  obtain ⟨d, _, form, first⟩ := lexical.compact_eq_cons
  rw [form] at same
  obtain ⟨rfl, _⟩ := List.cons.inj same
  have opening : a.firstOf ∈ ['n', 't', 'f', '0', '"', '[', '\x7b'] := by
    cases a with
    | bool value => cases value <;> decide
    | _ => simp [firstOf]
  rw [← first] at opening
  rcases closing with rfl | rfl
  · exact absurd opening (by decide)
  · exact absurd opening (by decide)

/-- The items behind the first can be told from how they are written, up to the closing bracket. -/
theorem furtherItems_append_inj {items items' : List Json}
    (each : ∀ item ∈ items, item.UniquelyRead) (lexical : ∀ item ∈ items', item.Lexical)
    {rest rest' : List Char}
    (same : furtherItems items ++ ']' :: rest = furtherItems items' ++ ']' :: rest') :
    items = items' ∧ rest = rest' := by
  induction items generalizing items' with
  | nil =>
    cases items' with
    | nil => exact ⟨rfl, (List.cons.inj same).2⟩
    | cons _ _ => exact absurd (List.cons.inj same).1 (by decide)
  | cons item items ih =>
    cases items' with
    | nil => exact absurd (List.cons.inj same).1 (by decide)
    | cons item' items' =>
      obtain ⟨here, later⟩ := List.forall_mem_cons.mp each
      obtain ⟨here', later'⟩ := List.forall_mem_cons.mp lexical
      rw [furtherItems, furtherItems, List.flatMap_cons, List.flatMap_cons, List.append_assoc,
        List.append_assoc] at same
      obtain ⟨rfl, after⟩ :=
        here here' (noDigitNext_furtherItems items rest) (noDigitNext_furtherItems items' rest')
          (List.cons.inj same).2
      obtain ⟨rfl, rfl⟩ := ih later later' after
      exact ⟨rfl, rfl⟩

/-- So can the members behind the first, up to the closing brace. -/
theorem furtherMembers_append_inj {members members' : List (String × Json)}
    (each : ∀ m ∈ members, m.2.UniquelyRead) (lexical : ∀ m ∈ members', m.2.Lexical)
    {rest rest' : List Char}
    (same : furtherMembers members ++ '\x7d' :: rest = furtherMembers members' ++ '\x7d' :: rest') :
    members = members' ∧ rest = rest' := by
  induction members generalizing members' with
  | nil =>
    cases members' with
    | nil => exact ⟨rfl, (List.cons.inj same).2⟩
    | cons _ _ => exact absurd (List.cons.inj same).1 (by decide)
  | cons m members ih =>
    cases members' with
    | nil => exact absurd (List.cons.inj same).1 (by decide)
    | cons m' members' =>
      obtain ⟨here, later⟩ := List.forall_mem_cons.mp each
      obtain ⟨here', later'⟩ := List.forall_mem_cons.mp lexical
      rw [furtherMembers, furtherMembers, List.flatMap_cons, List.flatMap_cons, List.append_assoc,
        List.append_assoc,
        List.cons_append, List.cons_append, List.append_assoc, List.append_assoc] at same
      obtain ⟨name, value⟩ := quoted_append_inj (List.cons.inj same).2
      obtain ⟨json, after⟩ := here here' (noDigitNext_furtherMembers members rest)
        (noDigitNext_furtherMembers members' rest') (List.cons.inj value).2
      obtain ⟨rfl, rfl⟩ := ih later later' after
      exact ⟨congrArg (· :: members) (Prod.ext name json), rfl⟩

/-! ### Values

A value is written in a way that tells where it ends, whatever stands behind, except that a number
ends where no digit follows. So two values that are written alike are the same. -/

private theorem uniquelyRead_number {lexeme : String} (lexical : (number lexeme).Lexical) :
    (number lexeme).UniquelyRead := by
  intro b rest rest' lexical' ends ends' same
  cases sameKind_of_append lexical lexical' same with
  | number _ lexeme' =>
    cases lexical with
    | number _ digits =>
      cases lexical' with
      | number _ digits' =>
        rw [compact, compact] at same
        have equal : lexeme.toList = lexeme'.toList := by
          rw [← takeWhile_digits digits ends, same, takeWhile_digits digits' ends']
        obtain rfl : lexeme = lexeme' := String.toList_inj.mp equal
        exact ⟨rfl, List.append_cancel_left same⟩

private theorem uniquelyRead_array {items : List Json} (lexical : (array items).Lexical)
    (each : ∀ item ∈ items, item.UniquelyRead) : (array items).UniquelyRead := by
  intro b rest rest' lexical' _ _ same
  cases sameKind_of_append lexical lexical' same with
  | array _ items' =>
    have first := lexical.of_mem_array
    have first' := lexical'.of_mem_array
    cases items with
    | nil =>
      cases items' with
      | nil => exact ⟨rfl, List.append_cancel_left same⟩
      | cons item' items' =>
        rw [compact_array_nil, compact_array_cons] at same
        exact absurd (List.cons.inj same).2.symm
          ((first' _ List.mem_cons_self).compact_ne_closing (.inl rfl))
    | cons item items =>
      cases items' with
      | nil =>
        rw [compact_array_nil, compact_array_cons] at same
        exact absurd (List.cons.inj same).2
          ((first _ List.mem_cons_self).compact_ne_closing (.inl rfl))
      | cons item' items' =>
        obtain ⟨here, later⟩ := List.forall_mem_cons.mp each
        obtain ⟨here', later'⟩ := List.forall_mem_cons.mp first'
        rw [compact_array_cons, compact_array_cons] at same
        obtain ⟨rfl, after⟩ := here here' (noDigitNext_furtherItems items rest)
          (noDigitNext_furtherItems items' rest') (List.cons.inj same).2
        obtain ⟨rfl, rfl⟩ := furtherItems_append_inj later later' after
        exact ⟨rfl, rfl⟩

private theorem uniquelyRead_object {members : List (String × Json)}
    (lexical : (object members).Lexical) (each : ∀ m ∈ members, m.2.UniquelyRead) :
    (object members).UniquelyRead := by
  intro b rest rest' lexical' _ _ same
  cases sameKind_of_append lexical lexical' same with
  | object _ members' =>
    cases members with
    | nil =>
      cases members' with
      | nil => exact ⟨rfl, List.append_cancel_left same⟩
      | cons m' members' =>
        rw [compact_object_nil, compact_object_cons, quoted_append] at same
        exact absurd (List.cons.inj (List.cons.inj same).2).1 (by decide)
    | cons m members =>
      cases members' with
      | nil =>
        rw [compact_object_nil, compact_object_cons, quoted_append] at same
        exact absurd (List.cons.inj (List.cons.inj same).2).1 (by decide)
      | cons m' members' =>
        obtain ⟨here, later⟩ := List.forall_mem_cons.mp each
        obtain ⟨here', later'⟩ := List.forall_mem_cons.mp lexical'.of_mem_object
        rw [compact_object_cons, compact_object_cons] at same
        obtain ⟨name, value⟩ := quoted_append_inj (List.cons.inj same).2
        obtain ⟨json, after⟩ := here here' (noDigitNext_furtherMembers members rest)
          (noDigitNext_furtherMembers members' rest') (List.cons.inj value).2
        obtain ⟨rfl, rfl⟩ := furtherMembers_append_inj later later' after
        have equal : m = m' := Prod.ext name json
        exact ⟨equal ▸ rfl, rfl⟩

/-- Two texts that begin with the forms of values and are the same begin with the same value. -/
theorem Lexical.uniquelyRead {a : Json} (lexical : a.Lexical) : a.UniquelyRead := by
  induction lexical with
  | null =>
    intro b rest rest' lexical' _ _ same
    cases sameKind_of_append .null lexical' same
    exact ⟨rfl, List.append_cancel_left same⟩
  | bool value =>
    intro b rest rest' lexical' _ _ same
    cases sameKind_of_append (.bool value) lexical' same
    exact ⟨rfl, List.append_cancel_left same⟩
  | number some digits => exact uniquelyRead_number (.number some digits)
  | string s =>
    intro b rest rest' lexical' _ _ same
    cases sameKind_of_append (.string s) lexical' same
    rw [compact, compact] at same
    obtain ⟨rfl, after⟩ := quoted_append_inj same
    exact ⟨rfl, after⟩
  | array each ih => exact uniquelyRead_array (.array each) ih
  | object each ih => exact uniquelyRead_object (.object each) ih

/-- The compact form of a value is that of no other. -/
theorem compact_inj {a b : Json} (lexical : a.Lexical) (lexical' : b.Lexical)
    (same : a.compact = b.compact) : a = b := by
  have ends : NoDigitNext [] := by
    intro c none
    cases none
  have same' : a.compact.toList ++ [] = b.compact.toList ++ [] := by rw [same]
  exact (lexical.uniquelyRead lexical' ends ends same').1

/-! ### Members in order -/

private theorem sortedItems_eq_map (items : List Json) : sortedItems items = items.map sorted := by
  induction items with
  | nil => rfl
  | cons item rest ih => rw [sortedItems, ih, List.map_cons]

private theorem sortedMembers_eq_map (members : List (String × Json)) :
    sortedMembers members = members.map fun m => (m.1, m.2.sorted) := by
  induction members with
  | nil => rfl
  | cons m rest ih => rw [sortedMembers, ih, List.map_cons]

/-- Inside an array each item has its members sorted. -/
theorem sorted_array (items : List Json) : (array items).sorted = array (items.map sorted) := by
  rw [sorted, sortedItems_eq_map]

/-- The members of a value in order are those of the value, each with its own members in order. -/
theorem mem_sorted_object {members : List (String × Json)} {m : String × Json} :
    m ∈ (object members).sorted.members ↔ ∃ m' ∈ members, (m'.1, m'.2.sorted) = m := by
  rw [sorted, Json.members, (List.mergeSort_perm _ _).mem_iff, sortedMembers_eq_map, List.mem_map]

/-- To sort members touches no number. -/
theorem Lexical.sorted {a : Json} (lexical : a.Lexical) : a.sorted.Lexical := by
  induction lexical with
  | null => exact .null
  | bool value => exact .bool value
  | number some digits => exact .number some digits
  | string s => exact .string s
  | array _ ih =>
    rw [sorted_array]
    exact .array (List.forall_mem_map.mpr ih)
  | @object members _ ih =>
    rw [Json.sorted]
    refine .object fun m there => ?_
    obtain ⟨m', member, rfl⟩ := (@mem_sorted_object members m).mp there
    exact ih m' member

/-- Where members have distinct names, the member of a name is found in order as it stands. -/
theorem lookup_sorted {members : List (String × Json)} (distinct : (members.map Prod.fst).Nodup)
    (name : String) :
    (object members).sorted.members.lookup name = (members.lookup name).map Json.sorted := by
  have perm : (object members).sorted.members.Perm (members.map fun m => (m.1, m.2.sorted)) := by
    rw [Json.sorted, Json.members, sortedMembers_eq_map]
    exact List.mergeSort_perm _ _
  have names : (members.map fun m => (m.1, m.2.sorted)).map Prod.fst = members.map Prod.fst := by
    rw [List.map_map]
    rfl
  have distinct' : ((object members).sorted.members.map Prod.fst).Nodup := by
    rw [(perm.map Prod.fst).nodup_iff, names]
    exact distinct
  ext value
  rw [lookup_eq_some_iff_mem distinct', mem_sorted_object, Option.map_eq_some_iff]
  constructor
  · rintro ⟨m, member, named⟩
    obtain ⟨rfl, rfl⟩ := Prod.mk.inj named
    exact ⟨m.2, (lookup_eq_some_iff_mem distinct).mpr member, rfl⟩
  · rintro ⟨value', found, rfl⟩
    exact ⟨(name, value'), (lookup_eq_some_iff_mem distinct).mp found, rfl⟩

end Warehouse.Json
