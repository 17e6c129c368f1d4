/-
Module: Warehouse.Proofs.Sql.Faults
Purpose: What makes a query impossible to write. Every form is written from the forms in it, left to
  right, so a query fails exactly where one of its parts is at fault by itself, however deep it
  stands, and it fails with what is wrong with that part. Nothing else fails, and nothing that is at
  fault is left out or written in another way.
Trusted boundary: none
Main exports: errorOf?, IsDecimal, isDecimalText_iff, Part, Part.children, Part.Contains,
  Part.fault?, Part.errorOf?_tokens, sql_fails_iff
-/
import Mathlib.Data.List.TakeWhile
import Warehouse.Proofs.Lists
import Warehouse.Proofs.Results
import Warehouse.Sql.Expr.Tokens

namespace Warehouse

/-! ### What a computation fails with

A computation over parts fails with the first fault that it meets. These lemmas turn a computation
into the search for that fault. -/

section

variable {ε α β : Type}

/-- The error of a computation that fails. -/
def errorOf? : Except ε α → Option ε
  | .ok _ => none
  | .error e => some e

private theorem errorOf?_eq_some_iff {x : Except ε α} {e : ε} : errorOf? x = some e ↔
    x = .error e := by
  cases x <;> simp [errorOf?]

/-- What goes on behind a computation is reached only if that one succeeds. -/
theorem errorOf?_bind {x : Except ε α} {f : α → Except ε β} {next : Option ε}
    (rest : ∀ a, errorOf? (f a) = next) : errorOf? (x >>= f) = (errorOf? x).or next := by
  cases x with
  | ok a => exact rest a
  | error e => rfl

/-- What is made of a result does not fail. -/
theorem errorOf?_bind_pure (x : Except ε α) (f : α → β) :
    errorOf? (x >>= fun a => pure (f a)) = errorOf? x := by
  cases x <;> rfl

/-- A computation over a list fails with the first failure of a member. -/
theorem errorOf?_mapM (f : α → Except ε β) (xs : List α) :
    errorOf? (xs.mapM f) = xs.findSome? fun x => errorOf? (f x) := by
  ext e
  rw [errorOf?_eq_some_iff, mapM_eq_error_iff fun _ _ => errorOf?_eq_some_iff.symm]

end

namespace Sql

/-! ### Decimal numbers

A text is a decimal number if it has digits, at most one point among them, and perhaps a sign in
front. The check goes through the text once; the relation says what it looks for. -/

/-- ASCII digits with at most one point among or around them, and at least one digit. -/
def IsPointed (s : List Char) : Prop :=
  ∃ whole point fraction, s = whole ++ (point ++ fraction) ∧ (point = [] ∨ point = ['.']) ∧
    whole ++ fraction ≠ [] ∧ ∀ c ∈ whole ++ fraction, c.isDigit = true

/-- A decimal number: blanks at its ends apart, a text is an optional sign followed by such
digits. -/
def IsDecimal (s : List Char) : Prop :=
  ∃ signed unsigned, Text.trim s = signed ++ unsigned ∧
    (signed = [] ∨ signed = ['-'] ∨ signed = ['+']) ∧ IsPointed unsigned

/-- The text behind the sign, if it has one. -/
def withoutSign : List Char → List Char
  | '-' :: rest | '+' :: rest => rest
  | s => s

/-- The test for `IsPointed`. -/
def isPointed (s : List Char) : Bool :=
  let whole := s.takeWhile (· ≠ '.')
  let fraction := (s.drop whole.length).drop 1
  (! whole.isEmpty || ! fraction.isEmpty) && whole.all Char.isDigit && fraction.all Char.isDigit

private theorem isDecimalText_eq (s : List Char) :
    isDecimalText s = isPointed (withoutSign (Text.trim s)) := rfl

private theorem isPointed_append {whole rest : List Char} (free : ∀ c ∈ whole, c ≠ '.')
    (point : ∀ c ∈ rest.head?, c = '.') : isPointed (whole ++ rest) = true ↔
      whole ++ rest.drop 1 ≠ [] ∧ ∀ c ∈ whole ++ rest.drop 1, c.isDigit = true := by
  have run : (whole ++ rest).takeWhile (· ≠ '.') = whole :=
    takeWhile_append_of_ends (by simpa using free) (by simpa using point)
  rw [isPointed, run, List.drop_left, ← List.all_eq_true, List.all_append, Bool.and_assoc,
    Bool.and_eq_true, ne_eq, List.append_eq_nil_iff, not_and_or]
  simp

private theorem isPointed_iff (s : List Char) : isPointed s = true ↔ IsPointed s := by
  constructor
  · intro holds
    have parts := List.takeWhile_append_dropWhile (p := (· ≠ '.')) (l := s)
    have free : ∀ c ∈ s.takeWhile (· ≠ '.'), c ≠ '.' := fun c inside => by
      simpa using List.mem_takeWhile_imp inside
    have point : ∀ c ∈ (s.dropWhile (· ≠ '.')).head?, c = '.' := fun c front => by
      have stops := List.head?_dropWhile_not (· ≠ '.') s
      rw [front] at stops
      simpa using stops
    rw [← parts, isPointed_append free point] at holds
    cases behind : s.dropWhile (· ≠ '.') with
    | nil =>
      rw [behind] at holds parts
      exact ⟨_, [], [], parts.symm, .inl rfl, holds⟩
    | cons c fraction =>
      rw [behind] at holds parts point
      obtain rfl := point c rfl
      exact ⟨_, ['.'], fraction, parts.symm, .inr rfl, holds⟩
  · rintro ⟨whole, point, fraction, rfl, dot, digits⟩
    have free : ∀ c ∈ whole ++ fraction, c ≠ '.' := by
      rintro c inside rfl
      exact absurd (digits.2 _ inside) (by decide)
    rcases dot with rfl | rfl
    · have all := isPointed_append free fun c (front : c ∈ [].head?) => by cases front
      rw [List.drop_nil, List.append_nil] at all
      exact all.mpr digits
    · exact (isPointed_append (fun c inside => free c (List.mem_append_left _ inside))
        (by simp)).mpr digits

/-- A sign is neither a digit nor a point. -/
theorem IsPointed.withoutSign {s : List Char} (pointed : IsPointed s) : withoutSign s = s := by
  obtain ⟨whole, point, fraction, rfl, dot, -, digits⟩ := pointed
  have plain : ∀ c ∈ whole ++ (point ++ fraction), c.isDigit = true ∨ c = '.' := by
    rcases dot with rfl | rfl <;> simp at digits ⊢ <;> grind
  generalize whole ++ (point ++ fraction) = s at plain
  unfold Sql.withoutSign
  split
  · exact absurd (plain '-' (by simp)) (by decide)
  · exact absurd (plain '+' (by simp)) (by decide)
  · rfl

/-- The check finds just the decimal numbers. -/
theorem isDecimalText_iff (s : List Char) : isDecimalText s = true ↔ IsDecimal s := by
  rw [isDecimalText_eq, isPointed_iff]
  constructor
  · intro pointed
    unfold withoutSign at pointed
    split at pointed
    · next rest same => exact ⟨['-'], rest, same, by simp, pointed⟩
    · next rest same => exact ⟨['+'], rest, same, by simp, pointed⟩
    · exact ⟨[], _, rfl, by simp, pointed⟩
  · rintro ⟨signed, unsigned, same, rfl | rfl | rfl, pointed⟩ <;> rw [same]
    · rwa [List.nil_append, pointed.withoutSign]
    · exact pointed
    · exact pointed

instance : DecidablePred IsDecimal := fun s => decidable_of_iff _ (isDecimalText_iff s)

/-! ### The parts of a query -/

/-- A query, or anything that may stand in one. -/
inductive Part where
  | expr (e : Expr)
  | key (k : SortKey)
  | item (i : SelectItem)
  | source (s : Source)
  | select (s : Select)
  | plan (p : Plan)

namespace Part

/-- The parts that a part is put together from, in the order in which they are written. -/
def children : Part → List Part
  | expr (.cast operand _) | expr (.hash256 operand) | expr (.not operand)
    | expr (.isNull operand _) =>
    [expr operand]
  | expr (.concat es) | expr (.coalesce es) | expr (.call _ es) => es.map expr
  | expr (.rowNumber partition order) => partition.map expr ++ order.map key
  | expr (.binary left _ right) => [expr left, expr right]
  | expr (.exists query _) => [plan query]
  | expr (.column ..) | expr (.literal _) | expr (.star _) | expr (.placeholder _)
    | expr (.raw _) => []
  | key k => [expr k.expr]
  | item i => [expr i.expr]
  | source (.table _) => []
  | source (.subquery query _) => [plan query]
  | select s =>
    s.items.map item ++
      (s.source.toList.map source ++ (s.filter.toList.map expr ++ s.groupBy.map expr))
  | plan (.select body) => [select body]
  | plan (.union branches _) => branches.map select

/-- A part stands in another, at any depth. -/
def Contains : Part → Part → Prop := Relation.ReflTransGen fun p q => q ∈ p.children

/-- The tokens of a part. -/
def tokens (d : Dialect) : Part → Except SqlError (List Token)
  | expr e => e.tokens d
  | key k => k.tokens d
  | item i => i.tokens d
  | source s => s.tokens d
  | select s => s.tokens d
  | plan p => p.tokens d

/-- What is wrong with a part whatever stands in it: a list that must not be empty, a number that is
not finite, a decimal number that is not one, or rows numbered in no order where the dialect
requires one. -/
def fault? (d : Dialect) : Part → Option SqlError
  | expr (.coalesce []) => some (.empty .coalesce)
  | expr (.literal (.float x)) =>
    if x.isFinite then none else some (.unsupported d (.nonFiniteFloat x))
  | expr (.literal (.decimal s)) => if IsDecimal s.toList then none else some (.invalidLiteral s)
  | expr (.rowNumber _ []) =>
    if d.rowNumberNeedsOrder then some (.unsupported d .rowNumberWithoutOrder) else none
  | select ⟨_, [], _, _, _⟩ => some (.empty .selectList)
  | plan (.union [] _) => some (.empty .union)
  | _ => none

/-- A part of a part is smaller, so a search for faults comes to an end. -/
theorem sizeOf_lt_of_mem_children {p c : Part} (member : c ∈ p.children) : sizeOf c < sizeOf p := by
  have inList {α : Type} [SizeOf α] {x : α} {xs : List α} (inside : x ∈ xs) :=
    List.sizeOf_lt_of_mem inside
  cases p with
  | expr e =>
    cases e <;>
      simp only [children, List.mem_append, List.mem_map, List.mem_cons, List.not_mem_nil, or_false]
        at member
    case rowNumber =>
      obtain ⟨x, inside, rfl⟩ | ⟨x, inside, rfl⟩ := member
      all_goals
        have := inList inside
        simp only [expr.sizeOf_spec, key.sizeOf_spec, Expr.rowNumber.sizeOf_spec]
        omega
    case concat | coalesce | call =>
      obtain ⟨x, inside, rfl⟩ := member
      have := inList inside
      simp
      omega
    case binary =>
      rcases member with rfl | rfl
      all_goals
        simp only [expr.sizeOf_spec, Expr.binary.sizeOf_spec]
        omega
    all_goals subst member; simp <;> omega
  | key k | item k =>
    cases k
    obtain rfl := List.mem_singleton.mp member
    simp only [key.sizeOf_spec, item.sizeOf_spec, expr.sizeOf_spec, SortKey.mk.sizeOf_spec,
      SelectItem.mk.sizeOf_spec]
    omega
  | source s =>
    cases s with
    | table t => cases member
    | subquery query name =>
      obtain rfl := List.mem_singleton.mp member
      simp
      omega
  | select s =>
    obtain ⟨distinct, items, source, filter, groupBy⟩ := s
    simp only [children, List.mem_append, List.mem_map, Option.mem_toList] at member
    obtain ⟨x, inside, rfl⟩ | ⟨x, rfl, rfl⟩ | ⟨x, rfl, rfl⟩ | ⟨x, inside, rfl⟩ := member
    case inl | inr.inr.inr =>
      have := inList inside
      simp
      omega
    all_goals simp; omega
  | plan p =>
    cases p with
    | select body =>
      obtain rfl := List.mem_singleton.mp member
      simp
    | union branches mode =>
      obtain ⟨x, inside, rfl⟩ := List.mem_map.mp member
      have := inList inside
      simp
      omega

end Part

/-! ### Every part is written from its own parts

For each kind of part: it fails with its own fault, if it has one, and else with the first failure
of the parts that it is written from, in the order in which they are written. -/

section

variable {d : Dialect}

/-- Expressions are written one by one. -/
theorem Expr.tokensOfAll_eq (es : List Expr) : Expr.tokensOfAll d es = es.mapM (Expr.tokens d) := by
  induction es with
  | nil => rfl
  | cons e es ih => rw [Expr.tokensOfAll, ih, List.mapM_cons]

/-- So are the keys that rows are sorted by. -/
theorem SortKey.tokensOfAll_eq (ks : List SortKey) :
    SortKey.tokensOfAll d ks = ks.mapM (SortKey.tokens d) := by
  induction ks with
  | nil => rfl
  | cons k ks ih => rw [SortKey.tokensOfAll, ih, List.mapM_cons]

/-- So are the columns of a query. -/
theorem SelectItem.tokensOfAll_eq (is : List SelectItem) :
    SelectItem.tokensOfAll d is = is.mapM (SelectItem.tokens d) := by
  induction is with
  | nil => rfl
  | cons i is ih => rw [SelectItem.tokensOfAll, ih, List.mapM_cons]

/-- And so are the branches of a union. -/
theorem Select.tokensOfAll_eq (ss : List Select) :
    Select.tokensOfAll d ss = ss.mapM (Select.tokens d) := by
  induction ss with
  | nil => rfl
  | cons s ss ih => rw [Select.tokensOfAll, ih, List.mapM_cons]

private theorem Literal.errorOf?_token (v : Literal) :
    errorOf? (v.token d) = (Part.expr (.literal v)).fault? d := by
  cases v with
  | float x =>
    rw [Literal.token, Part.fault?]
    split <;> rfl
  | decimal s =>
    simp only [Literal.token, Part.fault?, isDecimalText_iff]
    split <;> rfl
  | _ => rfl

namespace Part

/-- What the first of several parts that cannot be written fails with. -/
def firstError (d : Dialect) (ps : List Part) : Option SqlError :=
  ps.findSome? fun p => errorOf? (p.tokens d)

@[simp] private theorem firstError_nil : firstError d [] = none := rfl

private theorem firstError_cons (p : Part) (ps : List Part) :
    firstError d (p :: ps) = (errorOf? (p.tokens d)).or (firstError d ps) := by
  rw [firstError, List.findSome?_cons]
  cases errorOf? (p.tokens d) <;> rfl

@[simp] private theorem firstError_singleton (p : Part) :
    firstError d [p] = errorOf? (p.tokens d) := by
  rw [firstError_cons, firstError_nil, Option.or_none]

private theorem firstError_append (ps qs : List Part) :
    firstError d (ps ++ qs) = (firstError d ps).or (firstError d qs) := List.findSome?_append

private theorem firstError_map {α : Type} (f : α → Part) (xs : List α) :
    firstError d (xs.map f) = errorOf? (xs.mapM fun x => (f x).tokens d) := by
  rw [firstError, List.findSome?_map, errorOf?_mapM]
  rfl

private theorem firstError_exprs (es : List Expr) :
    firstError d (es.map expr) = errorOf? (Expr.tokensOfAll d es) := by
  rw [firstError_map, Expr.tokensOfAll_eq]
  rfl

private theorem firstError_keys (ks : List SortKey) :
    firstError d (ks.map key) = errorOf? (SortKey.tokensOfAll d ks) := by
  rw [firstError_map, SortKey.tokensOfAll_eq]
  rfl

private theorem firstError_items (is : List SelectItem) :
    firstError d (is.map item) = errorOf? (SelectItem.tokensOfAll d is) := by
  rw [firstError_map, SelectItem.tokensOfAll_eq]
  rfl

private theorem firstError_selects (ss : List Select) :
    firstError d (ss.map select) = errorOf? (Select.tokensOfAll d ss) := by
  rw [firstError_map, Select.tokensOfAll_eq]
  rfl

private theorem firstError_source (source? : Option Source) :
    firstError d (source?.toList.map source) = errorOf? (Source.tokensOfOption d source?) := by
  cases source? with
  | none => rfl
  | some s => exact (firstError_singleton _).trans (errorOf?_bind_pure _ _).symm

private theorem firstError_filter (filter : Option Expr) :
    firstError d (filter.toList.map expr) = errorOf? (Expr.tokensOfOption d filter) := by
  cases filter with
  | none => rfl
  | some e => exact (firstError_singleton _).trans (errorOf?_bind_pure _ _).symm

/-- An expression fails with its own fault, or with that of a part of it. -/
theorem errorOf?_expr (e : Expr) :
    errorOf? (e.tokens d) = ((expr e).fault? d).or (firstError d (expr e).children) := by
  cases e with
  | literal v =>
    rw [children, firstError_nil, Option.or_none, ← Literal.errorOf?_token]
    exact errorOf?_bind_pure _ _
  | coalesce es =>
    rw [children, firstError_exprs]
    cases es with
    | nil => rfl
    | cons e es => exact errorOf?_bind_pure _ _
  | concat es | call _ es =>
    rw [children, firstError_exprs]
    exact errorOf?_bind_pure _ _
  | rowNumber partition order =>
    rw [children, firstError_append, firstError_exprs, firstError_keys, Expr.tokens]
    have numbered {f : List (List Token) → List (List Token) → List Token} :
        errorOf? (do return f (← Expr.tokensOfAll d partition) (← SortKey.tokensOfAll d order)) =
          (errorOf? (Expr.tokensOfAll d partition)).or (errorOf? (SortKey.tokensOfAll d order)) :=
      errorOf?_bind fun _ => errorOf?_bind_pure _ _
    cases order with
    | nil =>
      rw [List.isEmpty_nil, Bool.true_and, fault?]
      split
      · rfl
      · exact numbered
    | cons k ks => exact numbered
  | binary left op right =>
    rw [children, firstError_cons, firstError_singleton]
    exact errorOf?_bind fun _ => errorOf?_bind_pure _ _
  | cast operand | hash256 operand | not operand | isNull operand | «exists» query =>
    rw [children, firstError_singleton]
    exact errorOf?_bind_pure _ _
  | column | star | placeholder | raw => rfl

/-- So does a query. -/
theorem errorOf?_select (s : Select) :
    errorOf? (s.tokens d) = ((select s).fault? d).or (firstError d (select s).children) := by
  obtain ⟨distinct, items, source?, filter, groupBy⟩ := s
  cases items with
  | nil => rfl
  | cons i is =>
    rw [children, firstError_append, firstError_append, firstError_append, firstError_items,
      firstError_source, firstError_filter, firstError_exprs]
    exact errorOf?_bind fun _ => errorOf?_bind fun _ => errorOf?_bind fun _ =>
      errorOf?_bind_pure _ _

/-- A part fails with what is wrong with itself, or else with what the first of its parts fails
with. -/
theorem errorOf?_tokens (p : Part) :
    errorOf? (p.tokens d) = (p.fault? d).or (firstError d p.children) := by
  cases p with
  | expr e => exact errorOf?_expr e
  | select s => exact errorOf?_select s
  | key k | item k =>
    cases k
    rw [children, firstError_singleton]
    exact errorOf?_bind_pure _ _
  | source s =>
    cases s with
    | table t => rfl
    | subquery query name =>
      rw [children, firstError_singleton]
      exact errorOf?_bind_pure _ _
  | plan p =>
    cases p with
    | select body =>
      rw [children, firstError_singleton]
      rfl
    | union branches mode =>
      rw [children, firstError_selects]
      cases branches with
      | nil => rfl
      | cons s ss => exact errorOf?_bind_pure _ _

/-- What a part fails with is wrong with a part that stands in it. -/
theorem exists_fault_of_error {p : Part} {error : SqlError} (failed : p.tokens d = .error error) :
    ∃ part, p.Contains part ∧ part.fault? d = some error := by
  induction size : sizeOf p using Nat.strong_induction_on generalizing p with
  | _ n ih =>
    rw [← errorOf?_eq_some_iff, errorOf?_tokens, Option.or_eq_some_iff] at failed
    rcases failed with here | ⟨-, below⟩
    · exact ⟨p, .refl, here⟩
    · obtain ⟨c, member, failed⟩ := List.exists_of_findSome?_eq_some below
      have smaller := sizeOf_lt_of_mem_children member
      obtain ⟨part, inside, fault⟩ := ih _ (size ▸ smaller) (errorOf?_eq_some_iff.mp failed) rfl
      exact ⟨part, inside.head member, fault⟩

/-- What is wrong with a part makes everything fail in which it stands. -/
theorem exists_error_of_fault {p part : Part} (inside : p.Contains part)
    (fault : part.fault? d ≠ none) : ∃ error, p.tokens d = .error error := by
  -- from the part outwards
  induction inside using Relation.ReflTransGen.head_induction_on with
  | refl =>
    obtain ⟨error, found⟩ := Option.ne_none_iff_exists'.mp fault
    exact ⟨error, errorOf?_eq_some_iff.mp (by rw [errorOf?_tokens, found, Option.some_or])⟩
  | @head p c member _ ih =>
    obtain ⟨error, failed⟩ := ih
    have below : firstError d p.children ≠ none := by
      rw [firstError, ne_eq, List.findSome?_eq_none_iff]
      intro all
      rw [← errorOf?_eq_some_iff, all c member] at failed
      cases failed
    have fails : errorOf? (p.tokens d) ≠ none := by
      rw [errorOf?_tokens, ne_eq, Option.or_eq_none_iff]
      exact fun none => below none.2
    obtain ⟨error, found⟩ := Option.ne_none_iff_exists'.mp fails
    exact ⟨error, errorOf?_eq_some_iff.mp found⟩

/-- A part cannot be written just if there is a fault in it, at any depth. -/
theorem exists_error_iff (p : Part) :
    (∃ error, p.tokens d = .error error) ↔ ∃ part, p.Contains part ∧ part.fault? d ≠ none := by
  constructor
  · rintro ⟨error, failed⟩
    obtain ⟨part, inside, fault⟩ := exists_fault_of_error failed
    exact ⟨part, inside, by simp [fault]⟩
  · rintro ⟨part, inside, fault⟩
    exact exists_error_of_fault inside fault

end Part

private theorem Expr.sql_eq_error_iff {e : Expr} {error : SqlError} :
    e.sql d = .error error ↔ (Part.expr e).tokens d = .error error := by
  rw [← errorOf?_eq_some_iff, ← errorOf?_eq_some_iff]
  exact Eq.congr_left (errorOf?_bind_pure _ _)

private theorem Plan.sql_eq_error_iff {p : Plan} {error : SqlError} :
    p.sql d = .error error ↔ (Part.plan p).tokens d = .error error := by
  rw [← errorOf?_eq_some_iff, ← errorOf?_eq_some_iff]
  exact Eq.congr_left (errorOf?_bind_pure _ _)

end

/-- An expression or a query cannot be written exactly if something in it is at fault by itself, at
whatever depth; and what is reported is what is wrong with such a part. -/
theorem sql_fails_iff (d : Dialect) :
    (∀ e : Expr,
      ((∃ error, e.sql d = .error error) ↔ ∃ part, (Part.expr e).Contains part ∧
        part.fault? d ≠ none) ∧
      ∀ error, e.sql d = .error error → ∃ part, (Part.expr e).Contains part ∧
        part.fault? d = some error) ∧
    ∀ p : Plan,
      ((∃ error, p.sql d = .error error) ↔ ∃ part, (Part.plan p).Contains part ∧
        part.fault? d ≠ none) ∧
      ∀ error, p.sql d = .error error → ∃ part, (Part.plan p).Contains part ∧
        part.fault? d = some error := by
  simp only [Expr.sql_eq_error_iff, Plan.sql_eq_error_iff]
  exact ⟨fun e => ⟨Part.exists_error_iff _, fun _ => Part.exists_fault_of_error⟩,
    fun p => ⟨Part.exists_error_iff _, fun _ => Part.exists_fault_of_error⟩⟩

end Sql

end Warehouse
