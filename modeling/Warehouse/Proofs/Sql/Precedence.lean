/-
Module: Warehouse.Proofs.Sql.Precedence
Purpose: Rendered predicates are read back. A reader that knows nothing of trees takes a list of
  tokens apart by the precedence of SQL, the loosest connective first: OR, AND, NOT, comparisons,
  concatenation. It gives the tree that was rendered, in which the operands of a connective that is
  nested in itself stand in one list.
Trusted boundary: human-reviewed spec (how tightly connectives bind)
Main exports: Connective, Predicate, operandOf, comparison?, unit, level, readAt, read,
  Expr.isPredicate, Expr.form, read_tokens, not_exists_reader
-/
import Warehouse.Proofs.Sql.Nesting

namespace Warehouse.Sql

/-! ### Predicates without parentheses

What a condition says does not depend on how it is written. A conjunction of conjunctions is one
conjunction, so a predicate holds all its parts at one level. -/

/-- The two connectives. -/
inductive Connective where
  | and
  | or
deriving DecidableEq, Repr

namespace Connective

def token : Connective → Token
  | and => word .and
  | or => word .or

def op : Connective → BinaryOp
  | and => .and
  | or => .or

end Connective

/-- A predicate in which it cannot be seen how a connective is nested in itself. Operands are the
tokens of the texts that are concatenated; a query in `EXISTS` is its tokens. -/
inductive Predicate where
  | comparison (left : List (List Token)) (op : BinaryOp) (right : List (List Token))
  | isNull (operand : List (List Token)) (negated : Bool)
  | exists (query : List Token) (negated : Bool)
  | not (operand : Predicate)
  | joined (connective : Connective) (parts : List Predicate)
deriving Repr

namespace Predicate

/-- The predicates that a connective joins at the root; any other predicate is one part. -/
def parts (c : Connective) : Predicate → List Predicate
  | joined c' ps => if c' = c then ps else [joined c' ps]
  | p => [p]

/-- Several predicates under one connective. -/
def join (c : Connective) : List Predicate → Predicate
  | [p] => p
  | ps => joined c (ps.flatMap (parts c))

private theorem parts_join_pair (c : Connective) (p q : Predicate) :
    (join c [p, q]).parts c = p.parts c ++ q.parts c := by
  simp [join, parts]

/-- Two lists of parts that are joined are the list of all their parts. -/
theorem join_append {c : Connective} {ps qs : List Predicate} (left : ps ≠ []) (right : qs ≠ []) :
    join c (ps ++ qs) = joined c ((ps ++ qs).flatMap (parts c)) := by
  match ps, qs, left, right with
  | [p], q :: qs, _, _ => rfl
  | p :: p' :: ps, qs, _, _ => rfl

end Predicate

/-! ### Reading by precedence

The reader follows the rules of SQL: OR binds weaker than AND, AND weaker than NOT, and a comparison
stronger than these. It knows nothing of the tree that was rendered. -/

/-- What stands between the first and the last token, if they are parentheses. -/
def enclosed? : List Token → Option (List Token)
  | .symbol .open :: rest =>
    if rest.getLast? = some (.symbol .close) then some rest.dropLast else none
  | _ => none

/-- The texts that a call joins, in a dialect where no operator does. -/
def joinedByCall? (d : Dialect) : List Token → Option (List (List Token))
  | .function name :: args =>
    if name = "CONCAT" ∧ d.hasConcatOperator = false then
      ((enclosed? args).map (cut none (· = sign .comma) .top)).filter (1 < ·.length)
    else none
  | _ => none

/-- The texts that an operand concatenates; the whole may stand in parentheses. -/
def operandOf (d : Dialect) (ts : List Token) : List (List Token) :=
  let inner := (enclosed? ts).getD ts
  (joinedByCall? d inner).getD (cut (some d.brackets) (· = sign .concat) .top inner)

/-- Comparisons and `IS`. -/
def isRelation : Token → Bool
  | .keyword .is | .symbol .eq | .symbol .ne | .symbol .lt | .symbol .gt | .symbol .lte
    | .symbol .gte => true
  | _ => false

/-- The comparison that a token stands for. -/
def comparisonOf? (t : Token) : Option BinaryOp :=
  [.eq, .ne, .lt, .gt, .lte, .gte].find? (·.token = t)

/-- What a relation makes of the tokens on its two sides. -/
def related (d : Dialect) (left right : List Token) : Token → Option Predicate
  | .keyword .is =>
    if right = [word .null] then some (.isNull (operandOf d left) false)
    else if right = [word .not, word .null] then some (.isNull (operandOf d left) true)
    else none
  | t => (comparisonOf? t).map fun op => .comparison (operandOf d left) op (operandOf d right)

/-- A comparison or a test for `NULL`, cut at the one relation that nothing encloses. -/
def comparison? (d : Dialect) (ts : List Token) : Option Predicate :=
  match cut (some d.brackets) isRelation .top ts with
  | [left, right] => ts[left.length]?.bind (related d left right)
  | _ => none

/-- A predicate without connectives but in parentheses, where `inner` reads on. -/
def unit (d : Dialect) (inner : List Token → Option Predicate) : List Token → Option Predicate
  | .keyword .not :: .keyword .exists :: query => (enclosed? query).map (.exists · true)
  | .keyword .exists :: query => (enclosed? query).map (.exists · false)
  | .keyword .not :: operand => (unit d inner operand).map .not
  | ts => (comparison? d ts).or ((enclosed? ts).bind inner)

/-- Predicates under a connective, each read by `inner`. -/
def level (d : Dialect) (c : Connective) (inner : List Token → Option Predicate) (ts : List Token) :
    Option Predicate :=
  ((cut (some d.brackets) (· = c.token) .top ts).mapM inner).map (.join c)

/-- Reads tokens in which parentheses are nested less deep than `fuel`. -/
def readAt (d : Dialect) : Nat → List Token → Option Predicate
  | 0, _ => none
  | fuel + 1, ts => level d .or (level d .and (unit d (readAt d fuel))) ts

/-- Reads a predicate from its tokens. -/
def read (d : Dialect) (tokens : List Token) : Option Predicate :=
  let ts := significant tokens
  readAt d (ts.length + 1) ts

/-! ### The predicates of expressions

The tree of an expression is put in the same form, with the parentheses of the tree and not those of
the text. -/

namespace Expr

/-- Expressions that are operands as they stand. -/
def isAtom : Expr → Bool
  | column .. | literal _ | placeholder _ | cast .. | coalesce _ | call .. | hash256 _ => true
  | _ => false

/-- Atoms and concatenations of two or more of them. -/
def isOperand : Expr → Bool
  | concat parts => 1 < parts.length && parts.all isAtom
  | e => e.isAtom

/-- Comparisons and tests of operands, `EXISTS`, and what negation and the connectives make of
them. -/
def isPredicate : Expr → Bool
  | binary left .and right | binary left .or right => left.isPredicate && right.isPredicate
  | binary left _ right => left.isOperand && right.isOperand
  | isNull operand _ => operand.isOperand
  | .exists .. => true
  | .not operand => operand.isPredicate
  | _ => false

/-- The tokens of the texts that an operand concatenates. -/
def operand (d : Dialect) (e : Expr) : Option (List (List Token)) :=
  let texts : List Expr := match e with
    | concat parts => parts
    | call name args =>
      if name = "CONCAT" ∧ d.hasConcatOperator = false ∧ 1 < args.length then args else [e]
    | e => [e]
  (tokensOfAll d texts).toOption.map (·.map significant)

/-- The predicate that an expression is. -/
def form (d : Dialect) : Expr → Option Predicate
  | binary left .and right => do return .join .and [← left.form d, ← right.form d]
  | binary left .or right => do return .join .or [← left.form d, ← right.form d]
  | binary left op right => do return .comparison (← left.operand d) op (← right.operand d)
  | isNull operand negated => do return .isNull (← operand.operand d) negated
  | .exists query negated => do return .exists (significant (← (query.tokens d).toOption)) negated
  | .not operand => do return .not (← operand.form d)
  | _ => none

end Expr

/-! ### Operands

An operand is read as one thing up to the next relation. What stands in it is enclosed, or put
together by the concatenation of the dialect. -/

/-- Spaces are dropped from each part. -/
theorem significant_append (s ts : List Token) :
    significant (s ++ ts) = significant s ++ significant ts :=
  List.filter_append ..

private theorem significant_parenthesised (ts : List Token) :
    significant (parenthesised ts) = parenthesised (significant ts) := by
  simp [parenthesised, significant, Token.isBlank]

private theorem significant_parenthesisedIf (needed : Bool) (ts : List Token) :
    significant (parenthesisedIf needed ts) = parenthesisedIf needed (significant ts) := by
  cases needed
  · rfl
  · exact significant_parenthesised ts

private theorem significant_intersperse (separator : List Token) (tss : List (List Token)) :
    significant (tss.intersperse separator).flatten =
      ((tss.map significant).intersperse (significant separator)).flatten := by
  induction tss with
  | nil => rfl
  | cons ts tss ih =>
    cases tss with
    | nil => simp
    | cons next tss =>
      rw [List.map_cons, List.map_cons, List.intersperse_cons_cons, List.intersperse_cons_cons,
        List.flatten_cons, List.flatten_cons, List.flatten_cons, List.flatten_cons,
        significant_append, significant_append, ih]
      rfl

/-- What has parentheses around it is enclosed by them. -/
@[simp] theorem enclosed?_parenthesised (ts : List Token) :
    enclosed? (parenthesised ts) = some ts := by
  simp [enclosed?, parenthesised]

/-- Tokens that show in an atom. -/
def Token.inAtom : Token → Bool
  | .keyword .cast | .symbol .open | .symbol .dot => true
  | t => t.isValue

/-- Tokens that show in an operand. -/
def Token.inOperand : Token → Bool
  | .symbol .concat => true
  | t => t.inAtom

/-- Tokens that an atom starts with. -/
def Token.startsAtom : Token → Bool
  | .keyword .cast => true
  | t => t.isValue

section

variable {d : Dialect} {e : Expr} {ts : List Token}

/-- No raw fragment of an expression that stands outside of calls, casts and queries opens or closes
a hash. -/
def Expr.KeepsHashes (d : Dialect) (e : Expr) : Prop :=
  ∀ s ∈ e.bareRaws, s ≠ d.brackets.opening ∧ s ≠ d.brackets.closing

/-- Raw texts of such an expression are taken for no bracket. -/
theorem Expr.KeepsHashes.mute (keeps : e.KeepsHashes d) {n : Nesting} :
    Mute d (some d.brackets) n e.bareRaws :=
  .inr ⟨.inr rfl, fun s member => by simp [Token.moves, keeps s member]⟩

/-- Such an expression leaves the nesting as it is. -/
theorem Expr.stays (keeps : e.KeepsHashes d) (rendered : e.tokens d = .ok ts) {n : Nesting} :
    Stays (some d.brackets) n (Shown n) ts :=
  e.settled rendered _ n keeps.mute

private theorem Token.inAtom_of_isValue {t : Token} (value : t.isValue = true) :
    t.inAtom = true := by
  unfold Token.inAtom
  split <;> first | rfl | exact value

private theorem Stays.cons_inAtom {t : Token} (plain : t.isPlain = true) (shown : t.inAtom = true)
    (rest : Stays (some d.brackets) .top (fun t => t.inAtom = true) ts) :
    Stays (some d.brackets) .top (fun t => t.inAtom = true) (t :: ts) :=
  .cons (Nesting.after_of_still (t.still_of_isPlain plain _)) (fun _ => shown) rest

/-- An atom shows its own first tokens only; and what looks like a call of `CONCAT` is one. -/
theorem Expr.atom_spec (atom : e.isAtom = true) (keeps : e.KeepsHashes d)
    (rendered : e.tokens d = .ok ts) : Stays (some d.brackets) .top (fun t => t.inAtom = true) ts ∧
      ∃ t rest, ts = t :: rest ∧ t.startsAtom = true ∧
        (t = .function "CONCAT" → ∃ args, e = .call "CONCAT" args) := by
  have enclosed {inner : List Token} (hidden : Hidden inner) :
      Stays (some d.brackets) .top (fun t => t.inAtom = true) (parenthesised inner) :=
    .parenthesised (fun _ => rfl) hidden
  cases e with
  | column table name =>
    cases rendered
    cases table with
    | none => exact ⟨.cons_inAtom rfl rfl .nil, _, _, rfl, rfl, by rintro ⟨⟩⟩
    | some table =>
      exact ⟨.cons_inAtom rfl rfl (.cons_inAtom rfl rfl (.cons_inAtom rfl rfl .nil)), _, _, rfl,
        rfl, by rintro ⟨⟩⟩
  | literal value =>
    obtain ⟨t, written, ⟨⟩⟩ := bind_eq_ok_iff.mp rendered
    have constant := Literal.isConstant written
    have still := Nesting.after_of_still (n := .top) (Literal.still written (.inr rfl))
    have shown := t.inAtom_of_isValue (t.isValue_of_isConstant constant)
    refine ⟨.cons still (fun _ => shown) .nil, t, [], rfl, ?_, ?_⟩
    · cases t <;> first | rfl | cases constant
    · rintro rfl
      cases constant
  | placeholder which =>
    cases rendered
    exact ⟨.cons_inAtom rfl rfl .nil, _, _, rfl, rfl, by rintro ⟨⟩⟩
  | cast operand type =>
    obtain ⟨inner, inside, ⟨⟩⟩ := bind_eq_ok_iff.mp rendered
    have target : Hidden [.space, word .as, .space, .raw (d.castType type)] :=
      .of_still (by simp [Token.moves])
    have hidden := (operand.settled inside).hidden.append target
    exact ⟨.cons_inAtom rfl rfl (enclosed hidden), _, _, rfl, rfl, by rintro ⟨⟩⟩
  | coalesce args =>
    cases args with
    | nil => cases rendered
    | cons first others =>
      obtain ⟨tss, each, ⟨⟩⟩ := bind_eq_ok_iff.mp rendered
      have hidden := Hidden.commaSeparated fun ts member =>
        (Expr.settledAll _ each ts member).hidden
      exact ⟨.cons_inAtom rfl rfl (enclosed hidden), _, _, rfl, rfl, by simp⟩
  | call function args =>
    obtain ⟨tss, each, ⟨⟩⟩ := bind_eq_ok_iff.mp rendered
    have hidden := Hidden.commaSeparated fun ts member => (Expr.settledAll _ each ts member).hidden
    refine ⟨.cons_inAtom rfl rfl (enclosed hidden), _, _, rfl, rfl, ?_⟩
    rintro ⟨⟩
    exact ⟨args, rfl⟩
  | hash256 input =>
    obtain ⟨inner, inside, ⟨⟩⟩ := bind_eq_ok_iff.mp rendered
    have hidden : Stays (some d.brackets) ⟨0, 1⟩ (fun _ => False) inner := by
      refine (Expr.stays (e := input) keeps inside).imp fun t shown => ?_
      cases shown.1
    refine ⟨.hash256 (fun _ => rfl) hidden, ?_⟩
    rw [d.hash256Tokens_eq]
    exact ⟨_, _, rfl, rfl, by rintro ⟨⟩⟩
  | _ => cases atom

/-- The texts of a call that joins them are found between the commas. -/
theorem joinedByCall?_call (apart : d.hasConcatOperator = false) {tss : List (List Token)}
    (each : ∀ ts ∈ tss, Stays none .top (fun t => t ≠ sign .comma) ts) :
    joinedByCall? d (.function "CONCAT" :: parenthesised (tss.intersperse [sign .comma]).flatten) =
      if 1 < tss.length then some tss else none := by
  have pieces :
    (some (cut none (· = sign .comma) .top (tss.intersperse [sign .comma]).flatten)).filter
      (1 < ·.length) = if 1 < tss.length then some tss else none := by
    cases tss with
    | nil => rfl
    | cons first others =>
      rw [cut_intersperse (by simp) (by simp) rfl fun ts member => (each ts member).imp (by simp)]
      simp [Option.filter]
  rw [joinedByCall?, if_pos ⟨rfl, apart⟩, enclosed?_parenthesised]
  exact pieces

private theorem joinedByCall?_eq_none
    (other : d.hasConcatOperator = true ∨ ∀ rest, ts ≠ .function "CONCAT" :: rest) :
    joinedByCall? d ts = none := by
  unfold joinedByCall?
  split
  · next name rest =>
    rw [if_neg]
    rintro ⟨rfl, apart⟩
    rcases other with operator | other
    · rw [operator] at apart
      cases apart
    · exact other rest rfl
  · rfl

/-- In a call, the arguments of which the tokens are known. -/
theorem argument_stays {es : List Expr} {tss : List (List Token)}
    (rendered : Expr.tokensOfAll d es = .ok tss) :
    ∀ ts ∈ tss.map significant, Stays none .top (fun t => t ≠ sign .comma) ts := by
  rw [List.forall_mem_map]
  intro ts member
  have settled := Expr.settledAll es rendered ts member none .top (.inr ⟨.inl rfl, fun _ _ => rfl⟩)
  exact (settled.imp fun t shown => shown.2).significant

private theorem length_of_tokensOfAll {es : List Expr} {tss : List (List Token)}
    (rendered : Expr.tokensOfAll d es = .ok tss) : tss.length = es.length := by
  induction es generalizing tss with
  | nil =>
    cases rendered
    rfl
  | cons e es ih =>
    obtain ⟨ts, first, rest⟩ := bind_eq_ok_iff.mp rendered
    obtain ⟨others, later, ⟨⟩⟩ := bind_eq_ok_iff.mp rest
    rw [List.length_cons, List.length_cons, ih later]

/-- An operand as it is written without parentheses. -/
structure Written (d : Dialect) (ts : List Token) (texts : List (List Token)) : Prop where
  stays : Stays (some d.brackets) .top (fun t => t.inOperand = true) ts
  starts : ∃ t rest, ts = t :: rest ∧ t.startsAtom = true
  found : (joinedByCall? d ts).getD (cut (some d.brackets) (· = sign .concat) .top ts) = texts

private theorem Token.inOperand_of_inAtom {t : Token} (inAtom : t.inAtom = true) :
    t.inOperand = true := by
  unfold Token.inOperand
  split
  · rfl
  · exact inAtom

/-- The first token of an atom is not blank. -/
theorem significant_cons {t : Token} (starts : t.startsAtom = true) (rest : List Token) :
    significant (t :: rest) = t :: significant rest := by
  refine List.filter_cons_of_pos ?_
  cases t <;> first | rfl | cases starts

private theorem significant_call (name : String) (tss : List (List Token)) :
    significant (.function name :: parenthesised (commaSeparated tss)) =
      .function name :: parenthesised
        ((tss.map significant).intersperse [sign .comma]).flatten := by
  rw [significant_cons rfl, significant_parenthesised, commaSeparated, significant_intersperse]
  rfl

/-- An atom is one text unless it is a call that joins several. -/
theorem Expr.operand_of_isAtom (atom : e.isAtom = true) (rendered : e.tokens d = .ok ts)
    (single : ∀ args, e = .call "CONCAT" args → d.hasConcatOperator = false → ¬ 1 < args.length) :
    e.operand d = some [significant ts] := by
  have alone : (Expr.tokensOfAll d [e]).toOption.map (·.map significant) =
      some [significant ts] := by
    rw [Expr.tokensOfAll, rendered]
    rfl
  rw [← alone]
  cases e with
  | call name args =>
    have apart : ¬ (name = "CONCAT" ∧ d.hasConcatOperator = false ∧ 1 < args.length) := by
      rintro ⟨rfl, operator, several⟩
      exact single args rfl operator several
    simp only [operand, if_neg apart]
  | column _ _ | literal _ | placeholder _ | cast _ _ | coalesce _ | hash256 _ => rfl
  | _ => cases atom

/-- An atom is written so that it is read back as the operand that it is. -/
theorem Expr.written_of_isAtom (atom : e.isAtom = true) (keeps : e.KeepsHashes d)
    (rendered : e.tokens d = .ok ts) :
    ∃ texts, e.operand d = some texts ∧ Written d (significant ts) texts := by
  obtain ⟨stays, t, rest, same, starts, isCall⟩ := Expr.atom_spec atom keeps rendered
  have first : significant ts = t :: significant rest := by rw [same, significant_cons starts]
  have shown := stays.significant
  have whole : cut (some d.brackets) (· = sign .concat) .top (significant ts) =
      [significant ts] := by
    refine cut_eq_singleton fun x member => ?_
    have here := shown.shows x member
    rw [decide_eq_false_iff_not]
    rintro rfl
    cases here
  have written {texts : List (List Token)} (found : (joinedByCall? d (significant ts)).getD
      (cut (some d.brackets) (· = sign .concat) .top (significant ts)) = texts) :
      Written d (significant ts) texts :=
    ⟨shown.imp fun x => x.inOperand_of_inAtom, ⟨t, _, first, starts⟩, found⟩
  by_cases joins : d.hasConcatOperator = false ∧ t = .function "CONCAT"
  · obtain ⟨apart, rfl⟩ := joins
    obtain ⟨args, rfl⟩ := isCall rfl
    obtain ⟨tss, each, call⟩ := bind_eq_ok_iff.mp rendered
    have found := joinedByCall?_call apart (argument_stays each)
    rw [← significant_call, Except.ok.inj call, List.length_map,
      length_of_tokensOfAll each] at found
    by_cases several : 1 < args.length
    · refine ⟨tss.map significant, ?_, written (by rw [found, if_pos several]; rfl)⟩
      rw [operand, if_pos ⟨rfl, apart, several⟩, each]
      rfl
    · refine ⟨[significant ts], Expr.operand_of_isAtom atom rendered ?_, written ?_⟩
      · rintro _ ⟨⟩ _
        exact several
      · rw [found, if_neg several, whole]
        rfl
  · have none : joinedByCall? d (significant ts) = none := by
      refine joinedByCall?_eq_none ?_
      rw [first]
      cases operator : d.hasConcatOperator with
      | true => exact .inl rfl
      | false =>
        refine .inr fun rest same => joins ⟨operator, ?_⟩
        exact (List.cons.inj same).1
    refine ⟨[significant ts], Expr.operand_of_isAtom atom rendered ?_,
      written (by rw [none, whole]; rfl)⟩
    rintro args rfl operator
    obtain ⟨tss, each, call⟩ := bind_eq_ok_iff.mp rendered
    rw [← Except.ok.inj call] at same
    exact absurd ⟨operator, (List.cons.inj same).1.symm⟩ joins

private theorem significant_concatTokens {tss : List (List Token)}
    (several : 1 < (tss.map significant).length) : significant (d.concatTokens tss) =
      if d.hasConcatOperator then ((tss.map significant).intersperse [sign .concat]).flatten
      else .function "CONCAT" :: parenthesised
        ((tss.map significant).intersperse [sign .comma]).flatten := by
  rw [List.length_map] at several
  rw [Dialect.concatTokens]
  · split
    · exact significant_intersperse _ tss
    · exact significant_call _ tss
  · rintro rfl
    simp at several
  · rintro ts rfl
    simp at several

/-- The parts of a concatenation show nothing but what atoms show. -/
theorem parts_written {parts : List Expr} {tss : List (List Token)}
    (atoms : parts.all Expr.isAtom = true) (keeps : (Expr.concat parts).KeepsHashes d)
    (rendered : Expr.tokensOfAll d parts = .ok tss) :
    ∀ ts ∈ tss.map significant, Stays (some d.brackets) .top (fun t => t.inAtom = true) ts ∧
      ∃ t rest, ts = t :: rest ∧ t.startsAtom = true := by
  induction parts generalizing tss with
  | nil =>
    cases rendered
    exact fun _ member => nomatch member
  | cons part parts ih =>
    obtain ⟨ts, first, rest⟩ := bind_eq_ok_iff.mp rendered
    obtain ⟨others, later, ⟨⟩⟩ := bind_eq_ok_iff.mp rest
    obtain ⟨atom, atoms⟩ := Bool.and_eq_true_iff.mp atoms
    have head : part.KeepsHashes d := fun s member => keeps s (List.mem_append_left _ member)
    have tail : (Expr.concat parts).KeepsHashes d :=
      fun s member => keeps s (List.mem_append_right _ member)
    rw [List.map_cons, List.forall_mem_cons]
    refine ⟨?_, ih atoms tail later⟩
    obtain ⟨stays, t, rest, rfl, starts, -⟩ := Expr.atom_spec atom head first
    exact ⟨stays.significant, t, _, significant_cons starts _, starts⟩

private theorem written_concat (operator : d.hasConcatOperator = true) {tss : List (List Token)}
    (several : 1 < tss.length)
    (each : ∀ ts ∈ tss,
      Stays (some d.brackets) .top (fun t => t.inAtom = true) ts ∧
      ∃ t rest, ts = t :: rest ∧ t.startsAtom = true) :
    Written d (tss.intersperse [sign .concat]).flatten tss where
  stays := by
    refine .intersperse ?_ fun ts member => (each ts member).1.imp fun t => t.inOperand_of_inAtom
    exact .of_still (by simp [Token.moves]) fun _ t member => by
      rw [List.mem_singleton.mp member]; rfl
  starts := by
    cases tss with
    | nil => cases several
    | cons first others =>
      cases others with
      | nil => simp at several
      | cons second others =>
        obtain ⟨t, rest, same, starts⟩ := (each first List.mem_cons_self).2
        exact ⟨t, _, by rw [List.intersperse_cons_cons, List.flatten_cons, same]; rfl, starts⟩
  found := by
    rw [joinedByCall?_eq_none (.inl operator)]
    refine cut_intersperse (List.ne_nil_of_length_pos (Nat.lt_of_succ_lt several)) (by simp) rfl ?_
    refine fun ts member => (each ts member).1.imp fun t shown => ?_
    rw [decide_eq_false_iff_not]
    rintro rfl
    cases shown

/-- The texts of a concatenation are written with the operator between them, or as the arguments of
a call. -/
theorem Expr.written_of_isOperand (operand : e.isOperand = true) (keeps : e.KeepsHashes d)
    (rendered : e.tokens d = .ok ts) : ∃ texts, e.operand d = some texts ∧
    Written d (significant ts) texts := by
  by_cases concat : ∃ parts, e = .concat parts
  · obtain ⟨parts, rfl⟩ := concat
    obtain ⟨several, atoms⟩ := Bool.and_eq_true_iff.mp operand
    obtain ⟨tss, each, ⟨⟩⟩ := bind_eq_ok_iff.mp rendered
    have lengths : (tss.map significant).length = parts.length := by
      rw [List.length_map, length_of_tokensOfAll each]
    have more : 1 < (tss.map significant).length := by
      rw [lengths]
      exact of_decide_eq_true several
    refine ⟨tss.map significant, by simp only [Expr.operand, each]; rfl, ?_⟩
    rw [significant_concatTokens more]
    split
    · next operator => exact written_concat operator more (parts_written atoms keeps each)
    · next apart =>
      rw [Bool.not_eq_true] at apart
      have hidden := Hidden.commaSeparated fun ts member =>
        (Expr.settledAll _ each ts member).hidden
      have call : Stays (some d.brackets) .top (fun t => t.inAtom = true)
          (.function "CONCAT" :: parenthesised (commaSeparated tss)) :=
        .cons_inAtom rfl rfl (.parenthesised (fun _ => rfl) hidden)
      have shown := call.significant.imp fun t => t.inOperand_of_inAtom
      rw [significant_call] at shown
      refine ⟨shown, ⟨_, _, rfl, rfl⟩, ?_⟩
      rw [joinedByCall?_call apart (argument_stays each), if_pos more]
      rfl
  · refine Expr.written_of_isAtom ?_ keeps rendered
    cases e with
    | concat parts => exact absurd ⟨parts, rfl⟩ concat
    | _ => exact operand

/-- Parentheses around an operand do no harm. -/
theorem Written.operandOf {texts : List (List Token)} (written : Written d ts texts)
    (needed : Bool) : operandOf d (parenthesisedIf needed ts) = texts := by
  have inside : (enclosed? (parenthesisedIf needed ts)).getD (parenthesisedIf needed ts) = ts := by
    cases needed with
    | true => rw [parenthesisedIf, if_pos rfl, enclosed?_parenthesised, Option.getD_some]
    | false =>
      obtain ⟨t, rest, rfl, starts⟩ := written.starts
      have plain : enclosed? (t :: rest) = none := by
        unfold enclosed?
        split
        · next same => cases same; cases starts
        · rfl
      exact congrArg (·.getD (t :: rest)) plain
  rw [Sql.operandOf]
  simp only [inside]
  exact written.found

end

/-! ### Relations

A comparison has an operand on each side of the one relation that is seen. No relation is seen
inside an operand, so the cut is at the right place. -/

section

variable {d : Dialect} {l r ts : List Token} {inner : List Token → Option Predicate}

private theorem isRelation_of_inOperand {t : Token} (shown : t.inOperand = true) :
    isRelation t = false := by
  unfold isRelation
  split <;> first | rfl | cases shown

/-- Behind an operand, the first relation that nothing encloses is the next token. -/
theorem cut_relation {t : Token} (relation : isRelation t = true)
    (left : Stays (some d.brackets) .top (fun t => t.inOperand = true) l)
    (right : ∀ t ∈ surface (some d.brackets) .top r, isRelation t = false) :
    cut (some d.brackets) isRelation .top (l ++ t :: r) = [l, r] := by
  have still : t.moves (some d.brackets) = false := by
    unfold isRelation at relation
    split at relation <;> first | rfl | cases relation
  rw [cut_append left.back relation still,
    cut_eq_singleton fun t member => isRelation_of_inOperand (left.shows t member),
    cut_eq_singleton right]
  rfl

/-- Two operands around a relation are read as what the relation makes of them. -/
theorem comparison?_eq {t : Token} (relation : isRelation t = true)
    (left : Stays (some d.brackets) .top (fun t => t.inOperand = true) l)
    (right : ∀ t ∈ surface (some d.brackets) .top r, isRelation t = false) :
    comparison? d (l ++ t :: r) = related d l r t := by
  have here : (l ++ t :: r)[l.length]? = some t := by simp
  rw [comparison?, cut_relation relation left right]
  simp only [here, Option.bind_some]

private theorem comparison?_comparison {op : BinaryOp} (apart : op.isLogical = false)
    (left : Stays (some d.brackets) .top (fun t => t.inOperand = true) l)
    (right : Stays (some d.brackets) .top (fun t => t.inOperand = true) r) :
    comparison? d (l ++ op.token :: r) = some (.comparison (operandOf d l) op (operandOf d r)) := by
  have relation : isRelation op.token = true := by cases op <;> first | rfl | cases apart
  rw [comparison?_eq relation left fun t member => isRelation_of_inOperand (right.shows t member)]
  cases op <;> first | rfl | cases apart

/-- What stands behind `IS`. -/
def nullTokens (negated : Bool) : List Token :=
  (if negated then [word .not] else []) ++ [word .null]

private theorem comparison?_isNull (negated : Bool)
    (left : Stays (some d.brackets) .top (fun t => t.inOperand = true) l) :
    comparison? d (l ++ word .is :: nullTokens negated) =
      some (.isNull (operandOf d l) negated) := by
  rw [comparison?_eq rfl left (by cases d <;> cases negated <;> decide)]
  cases negated <;> rfl

private theorem unit_eq (starts : ∀ t ∈ ts.head?, t ≠ word .not ∧ t ≠ word .exists) :
    unit d inner ts = (comparison? d ts).or ((enclosed? ts).bind inner) := by
  unfold unit
  split
  · exact absurd rfl (starts _ rfl).1
  · exact absurd rfl (starts _ rfl).2
  · exact absurd rfl (starts _ rfl).1
  · rfl

private theorem starts_of_inOperand {t : Token} (shown : t.inOperand = true) :
    t ≠ word .not ∧ t ≠ word .exists := by
  constructor <;> rintro rfl <;> cases shown

end

/-! ### Levels of precedence

There are three levels, one above the other: a unit, a conjunction of units, and a disjunction of
conjunctions. Each can stand where the next one is asked for, and parentheses make a unit of any. -/

section

variable {d : Dialect} {c : Connective} {inner : List Token → Option Predicate}
    {l r ts : List Token}
  {p q : Predicate}

/-- The parts of tokens between one connective are read as the parts of a predicate. -/
def Level (d : Dialect) (c : Connective) (inner : List Token → Option Predicate) (ts : List Token)
    (p : Predicate) : Prop :=
  ∃ ps, (cut (some d.brackets) (· = c.token) .top ts).mapM inner = some ps ∧
    ps.flatMap (Predicate.parts c) = p.parts c ∧ .join c ps = p

theorem Level.reads (reads : Level d c inner ts p) : level d c inner ts = some p := by
  obtain ⟨ps, pieces, -, same⟩ := reads
  rw [level, pieces, Option.map_some, same]

/-- What is not cut at a level is passed on to the level below. -/
theorem Level.single (whole : ∀ t ∈ surface (some d.brackets) .top ts, t ≠ c.token)
    (reads : inner ts = some p) :
    Level d c inner ts p := by
  refine ⟨[p], ?_, by simp, rfl⟩
  rw [cut_eq_singleton (by simpa using whole)]
  simp [reads]

private theorem ne_nil_of_cut {b : Option Brackets} {n : Nesting} {separates : Token → Bool}
    {ps : List Predicate} (reads : (cut b separates n ts).mapM inner = some ps) : ps ≠ [] := by
  have nonempty : cut b separates n ts ≠ [] := cut_ne_nil
  obtain ⟨first, others, pieces⟩ := List.exists_cons_of_ne_nil nonempty
  rw [pieces] at reads
  rintro rfl
  simp [Option.bind_eq_some_iff] at reads

/-- Under a connective the parts of both sides stand in one list. -/
theorem Level.join (back : l.foldl (Nesting.after (some d.brackets)) .top = .top)
    (left : Level d c inner l p) (right : Level d c inner r q) :
    Level d c inner (l ++ c.token :: r) (.join c [p, q]) := by
  obtain ⟨ps, onLeft, parts, -⟩ := left
  obtain ⟨qs, onRight, parts', -⟩ := right
  refine ⟨ps ++ qs, ?_, ?_, ?_⟩
  · rw [cut_append back (by simp) (by cases c <;> rfl), List.mapM_append, onLeft, onRight]
    rfl
  · rw [List.flatMap_append, parts, parts', Predicate.parts_join_pair]
  · rw [Predicate.join_append (ne_nil_of_cut onLeft) (ne_nil_of_cut onRight), List.flatMap_append,
      parts, parts']
    simp [Predicate.join]

/-- Tokens that are read as a predicate without looking at connectives. -/
structure Unit (d : Dialect) (ts : List Token) (p : Predicate) : Prop where
  stays : Stays (some d.brackets) .top (fun t => ∀ c : Connective, t ≠ c.token) ts
  reads : ∀ n, ts.length ≤ n → unit d (readAt d n) ts = some p

/-- Tokens that are read as a conjunction. -/
structure Conjunction (d : Dialect) (ts : List Token) (p : Predicate) : Prop where
  stays : Stays (some d.brackets) .top (fun t => t ≠ Connective.or.token) ts
  reads : ∀ n, ts.length ≤ n → Level d .and (unit d (readAt d n)) ts p

/-- Tokens that are read as a disjunction. -/
structure Disjunction (d : Dialect) (ts : List Token) (p : Predicate) : Prop where
  back : ts.foldl (Nesting.after (some d.brackets)) .top = .top
  reads : ∀ n, ts.length ≤ n → Level d .or (level d .and (unit d (readAt d n))) ts p

/-- A unit is a conjunction with one part. -/
theorem Unit.conjunction (reads : Unit d ts p) : Conjunction d ts p where
  stays := reads.stays.imp fun _ other => other .or
  reads n enough := .single (fun t member => reads.stays.shows t member .and) (reads.reads n enough)

/-- A conjunction is a disjunction with one part. -/
theorem Conjunction.disjunction (reads : Conjunction d ts p) : Disjunction d ts p where
  back := reads.stays.back
  reads n enough := .single reads.stays.shows (reads.reads n enough).reads

/-- A disjunction is read as the predicate that it is, with enough steps to go inside its
parentheses. -/
theorem Disjunction.readAt (reads : Disjunction d ts p) {n : Nat} (enough : ts.length < n) :
    readAt d n ts = some p := by
  cases n with
  | zero => cases enough
  | succ n => exact (reads.reads n (Nat.le_of_lt_succ enough)).reads

/-- Conjunctions with AND between them are one. -/
theorem Conjunction.join (left : Conjunction d l p) (right : Conjunction d r q) :
    Conjunction d (l ++ Connective.and.token :: r) (.join .and [p, q]) where
  stays := left.stays.append (.cons rfl (fun _ => by decide) right.stays)
  reads n enough := by
    rw [List.length_append, List.length_cons] at enough
    exact .join left.stays.back (left.reads n (by omega)) (right.reads n (by omega))

/-- Disjunctions with OR between them are one. -/
theorem Disjunction.join (left : Disjunction d l p) (right : Disjunction d r q) :
    Disjunction d (l ++ Connective.or.token :: r) (.join .or [p, q]) where
  back := by
    rw [List.foldl_append, left.back, List.foldl_cons]
    exact right.back
  reads n enough := by
    rw [List.length_append, List.length_cons] at enough
    exact .join left.back (left.reads n (by omega)) (right.reads n (by omega))

/-- Between parentheses reading starts over. -/
theorem Disjunction.parenthesised (reads : Disjunction d ts p) (hidden : Hidden ts) :
    Unit d (parenthesised ts) p := by
  have stays {q : Token → Prop} (shown : q (sign .open)) :
      Stays (some d.brackets) .top q (Sql.parenthesised ts) :=
    .parenthesised (fun _ => shown) hidden
  have whole : comparison? d (Sql.parenthesised ts) = none := by
    have apart := (stays (q := fun t => isRelation t = false) rfl).shows
    rw [comparison?, cut_eq_singleton apart]
  refine ⟨stays fun c => by cases c <;> simp [Connective.token], fun n enough => ?_⟩
  have inside : ts.length < n := by
    simp [Sql.parenthesised] at enough
    omega
  have starts : ∀ t ∈ (Sql.parenthesised ts).head?, t ≠ word .not ∧ t ≠ word .exists := by
    simp [Sql.parenthesised]
  rw [unit_eq starts, whole, enclosed?_parenthesised]
  exact reads.readAt inside

end

/-! ### Rendered predicates

Every predicate is written at the level that its outermost connective asks for, and parentheses
stand where a connective binds weaker than the one around it. -/

section

variable {d : Dialect}

/-- The connective at the root of an expression. -/
def Expr.connective? : Expr → Option Connective
  | .binary _ .and _ => some .and
  | .binary _ .or _ => some .or
  | _ => none

/-- How far tokens can be read as a predicate with that connective at its root. -/
def Reads (d : Dialect) : Option Connective → List Token → Predicate → Prop
  | none => Unit d
  | some .and => Conjunction d
  | some .or => Disjunction d

section

variable {e : Expr} {root : Option Connective} {ts : List Token} {p : Predicate}

/-- At any level it can be read as a disjunction. -/
theorem Reads.disjunction (reads : Reads d root ts p) : Disjunction d ts p :=
  match root with
  | none => (Unit.conjunction reads).disjunction
  | some .and => Conjunction.disjunction reads
  | some .or => reads

private theorem needsParens_eq (predicate : e.isPredicate = true) (c : Connective) :
    needsParens c.op e = (e.connective?.any (· ≠ c)) := by
  cases e with
  | binary left op right => cases op <;> cases c <;> rfl
  | isNull | «exists» | not => cases c <;> rfl
  | _ => cases predicate

/-- Below a conjunction a disjunction stands in parentheses. -/
theorem Reads.below_and (predicate : e.isPredicate = true) (reads : Reads d e.connective? ts p)
    (hidden : Hidden ts) :
    Conjunction d (parenthesisedIf (needsParens Connective.and.op e) ts) p := by
  rw [needsParens_eq predicate]
  cases root : e.connective? with
  | none =>
    rw [root] at reads
    exact Unit.conjunction reads
  | some c =>
    rw [root] at reads
    cases c with
    | and => exact reads
    | or => exact (reads.disjunction.parenthesised hidden).conjunction

/-- Below a disjunction a conjunction stands in parentheses, although it binds tighter. -/
theorem Reads.below_or (predicate : e.isPredicate = true) (reads : Reads d e.connective? ts p)
    (hidden : Hidden ts) :
    Disjunction d (parenthesisedIf (needsParens Connective.or.op e) ts) p := by
  rw [needsParens_eq predicate]
  cases root : e.connective? with
  | none =>
    rw [root] at reads
    exact (Unit.conjunction reads).disjunction
  | some c =>
    rw [root] at reads
    cases c with
    | and => exact (reads.disjunction.parenthesised hidden).conjunction.disjunction
    | or => exact reads

end

/-- An expression on one side of a relation, with the parentheses that it has there. -/
theorem Expr.exists_side {e : Expr} {ts : List Token} (operand : e.isOperand = true)
    (keeps : e.KeepsHashes d) (rendered : e.tokens d = .ok ts) (needed : Bool) :
    ∃ texts, e.operand d = some texts ∧
      operandOf d (parenthesisedIf needed (significant ts)) = texts ∧
      Stays (some d.brackets) .top (fun t => t.inOperand = true)
        (parenthesisedIf needed (significant ts)) ∧
      parenthesisedIf needed (significant ts) ≠ [] := by
  obtain ⟨texts, found, written⟩ := Expr.written_of_isOperand operand keeps rendered
  refine ⟨texts, found, written.operandOf needed, ?_⟩
  cases needed with
  | false =>
    obtain ⟨t, rest, same, -⟩ := written.starts
    refine ⟨written.stays, ?_⟩
    rw [parenthesisedIf, same]
    exact List.cons_ne_nil t rest
  | true =>
    exact ⟨.parenthesised (fun _ => rfl) (e.settled rendered).hidden.significant,
      List.cons_ne_nil _ _⟩

private theorem ne_connective {t : Token} (other : t ≠ word .and ∧ t ≠ word .or) (c : Connective) :
    t ≠ c.token :=
  match c with
  | .and => other.1
  | .or => other.2

private theorem ne_connective_of_inOperand {t : Token} (shown : t.inOperand = true)
    (c : Connective) : t ≠ c.token := by
  rintro rfl
  cases c <;> cases shown

/-- What starts with an operand is read as a relation. -/
theorem Unit.of_relation {l rest : List Token} {p : Predicate} (nonempty : l ≠ [])
    (left : Stays (some d.brackets) .top (fun t => t.inOperand = true) l)
    (right : Stays (some d.brackets) .top (fun t => ∀ c : Connective, t ≠ c.token) rest)
    (found : comparison? d (l ++ rest) = some p) : Unit d (l ++ rest) p where
  stays := (left.imp fun _ => ne_connective_of_inOperand).append right
  reads n _ := by
    have starts : ∀ t ∈ (l ++ rest).head?, t ≠ word .not ∧ t ≠ word .exists := by
      obtain ⟨t, l, rfl⟩ := List.exists_cons_of_ne_nil nonempty
      rintro _ ⟨⟩
      exact starts_of_inOperand (left.shows t (by simp [surface]))
    rw [unit_eq starts, found]
    rfl

/-- A negation is a unit. -/
theorem Unit.not {ts : List Token} {p : Predicate} (reads : Unit d (parenthesised ts) p) :
    Unit d (word .not :: parenthesised ts) (.not p) where
  stays := .cons rfl (fun _ => ne_connective (by decide)) reads.stays
  reads n enough := by
    have inside := reads.reads n (Nat.le_of_succ_le enough)
    have here : unit d (readAt d n) (word .not :: parenthesised ts) =
        (unit d (readAt d n) (parenthesised ts)).map .not := rfl
    rw [here, inside]
    rfl

/-- So is a test whether a query has rows. -/
theorem Unit.exists (negated : Bool) {query : List Token} (hidden : Hidden query) :
    Unit d ((if negated then [word .not] else []) ++ word .exists :: parenthesised query)
      (.exists query negated) where
  stays := by
    have exists_query : Stays (some d.brackets) .top (fun t => ∀ c : Connective, t ≠ c.token)
        (word .exists :: parenthesised query) :=
      .cons rfl (fun _ => ne_connective (by decide))
        (.parenthesised (fun _ => ne_connective (by decide)) hidden)
    cases negated with
    | true => exact .cons rfl (fun _ => ne_connective (by decide)) exists_query
    | false => exact exists_query
  reads n _ := by
    have here : unit d (readAt d n)
      ((if negated then [word .not] else []) ++ word .exists :: parenthesised query) =
        (enclosed? (parenthesised query)).map (.exists · negated) := by
      cases negated <;> rfl
    rw [here, enclosed?_parenthesised]
    rfl

section

variable {left right : Expr} {op : BinaryOp}

private theorem Expr.isPredicate_comparison (apart : op.isLogical = false) :
    (Expr.binary left op right).isPredicate = (left.isOperand && right.isOperand) := by
  cases op <;> first | rfl | cases apart

private theorem Expr.form_comparison (apart : op.isLogical = false) :
    (Expr.binary left op right).form d = do
      return .comparison (← left.operand d) op (← right.operand d) := by
  cases op <;> first | rfl | cases apart

private theorem Expr.connective?_comparison (apart : op.isLogical = false) :
    (Expr.binary left op right).connective? = none := by
  cases op <;> first | rfl | cases apart

end

/-- A comparison of operands. -/
theorem Expr.reads_comparison {left right : Expr} {op : BinaryOp} {l r : List Token}
    (apart : op.isLogical = false) (operands : left.isOperand = true ∧ right.isOperand = true)
    (keeps : left.KeepsHashes d) (keeps' : right.KeepsHashes d) (onLeft : left.tokens d = .ok l)
    (onRight : right.tokens d = .ok r) (needed needed' : Bool) :
    ∃ texts texts', left.operand d = some texts ∧ right.operand d = some texts' ∧
      Unit d (parenthesisedIf needed (significant l) ++
        op.token :: parenthesisedIf needed' (significant r)) (.comparison texts op texts') := by
  obtain ⟨texts, found, same, stays, nonempty⟩ := Expr.exists_side operands.1 keeps onLeft needed
  obtain ⟨texts', found', same', stays', -⟩ := Expr.exists_side operands.2 keeps' onRight needed'
  have compares := comparison?_comparison apart stays stays'
  rw [same, same'] at compares
  have sign : op.token.isPlain = true ∧ ∀ c : Connective, op.token ≠ c.token := by
    cases op <;> first | exact ⟨rfl, ne_connective (by decide)⟩ | cases apart
  refine ⟨texts, texts', found, found', .of_relation nonempty stays ?_ compares⟩
  exact .cons (Nesting.after_of_still (op.token.still_of_isPlain sign.1 _)) (fun _ => sign.2)
    (stays'.imp fun _ => ne_connective_of_inOperand)

/-- Every predicate is written at the level of its outermost connective. -/
theorem Expr.reads : ∀ (e : Expr) {ts : List Token}, e.isPredicate = true → e.KeepsHashes d →
    e.tokens d = .ok ts → ∃ p, e.form d = some p ∧ Reads d e.connective? (significant ts) p
  | .binary left op right, ts, predicate, keeps, rendered => by
    obtain ⟨l, onLeft, rest⟩ := bind_eq_ok_iff.mp rendered
    obtain ⟨r, onRight, ⟨⟩⟩ := bind_eq_ok_iff.mp rest
    have first : left.KeepsHashes d := fun s member => keeps s (List.mem_append_left _ member)
    have second : right.KeepsHashes d := fun s member => keeps s (List.mem_append_right _ member)
    have written : significant
      (parenthesisedIf (needsParens op left) l ++ [Token.space, op.token, Token.space] ++
        parenthesisedIf (needsParens op right) r) =
        parenthesisedIf (needsParens op left) (significant l) ++
          op.token :: parenthesisedIf (needsParens op right) (significant r) := by
      rw [significant_append, significant_append, significant_parenthesisedIf,
        significant_parenthesisedIf, List.append_assoc]
      cases op <;> rfl
    rw [written]
    have hidden := (left.settled onLeft).hidden.significant
    have hidden' := (right.settled onRight).hidden.significant
    cases apart : op.isLogical with
    | false =>
      rw [Expr.isPredicate_comparison apart, Bool.and_eq_true_iff] at predicate
      rw [Expr.form_comparison apart, Expr.connective?_comparison apart]
      obtain ⟨texts, texts', found, found', reads⟩ :=
        Expr.reads_comparison apart predicate first second
        onLeft onRight (needsParens op left) (needsParens op right)
      exact ⟨.comparison texts op texts', by rw [found, found']; rfl, reads⟩
    | true =>
      cases op with
      | and =>
        obtain ⟨isLeft, isRight⟩ := Bool.and_eq_true_iff.mp predicate
        obtain ⟨p, form, reads⟩ := left.reads isLeft first onLeft
        obtain ⟨q, form', reads'⟩ := right.reads isRight second onRight
        refine ⟨.join .and [p, q], by rw [Expr.form, form, form']; rfl, ?_⟩
        exact (reads.below_and isLeft hidden).join (reads'.below_and isRight hidden')
      | or =>
        obtain ⟨isLeft, isRight⟩ := Bool.and_eq_true_iff.mp predicate
        obtain ⟨p, form, reads⟩ := left.reads isLeft first onLeft
        obtain ⟨q, form', reads'⟩ := right.reads isRight second onRight
        refine ⟨.join .or [p, q], by rw [Expr.form, form, form']; rfl, ?_⟩
        exact (reads.below_or isLeft hidden).join (reads'.below_or isRight hidden')
      | _ => cases apart
  | .not operand, ts, predicate, keeps, rendered => by
    obtain ⟨inner, inside, ⟨⟩⟩ := bind_eq_ok_iff.mp rendered
    obtain ⟨p, form, reads⟩ := operand.reads predicate keeps inside
    have unit := reads.disjunction.parenthesised (operand.settled inside).hidden.significant
    refine ⟨.not p, by rw [Expr.form, form]; rfl, ?_⟩
    have written : significant (word .not :: Token.space :: parenthesised inner) =
        word .not :: parenthesised (significant inner) := by
      rw [← significant_parenthesised]
      rfl
    rw [written]
    exact unit.not
  | .isNull operand negated, ts, predicate, keeps, rendered => by
    obtain ⟨inner, inside, ⟨⟩⟩ := bind_eq_ok_iff.mp rendered
    obtain ⟨texts, found, same, stays, nonempty⟩ := Expr.exists_side predicate keeps inside false
    have tests := comparison?_isNull negated stays
    rw [same] at tests
    have written : significant (inner ++ [Token.space, word .is, Token.space] ++
        (if negated then [word .not, Token.space] else []) ++ [word .null]) =
        parenthesisedIf false (significant inner) ++ word .is :: nullTokens negated := by
      rw [significant_append, significant_append, significant_append, List.append_assoc,
        List.append_assoc]
      cases negated <;> rfl
    refine ⟨.isNull texts negated, by rw [Expr.form, found]; rfl, ?_⟩
    rw [written]
    have still : ∀ t ∈ word .is :: nullTokens negated, t.moves (some d.brackets) = false := by
      cases negated <;> simp [nullTokens, Token.moves]
    have other : ∀ t ∈ word .is :: nullTokens negated, t ≠ word .and ∧ t ≠ word .or := by
      cases negated <;> decide
    exact Unit.of_relation nonempty stays
      (.of_still still fun _ t member => ne_connective (other t member)) tests
  | .exists query negated, ts, predicate, keeps, rendered => by
    obtain ⟨inner, inside, ⟨⟩⟩ := bind_eq_ok_iff.mp rendered
    have hidden := (query.hidden inside).significant
    have written : significant ((if negated then [word .not, Token.space] else []) ++
        word .exists :: Token.space :: parenthesised inner) =
          (if negated then [word .not] else []) ++
            word .exists :: parenthesised (significant inner) := by
      rw [significant_append, ← significant_parenthesised]
      cases negated <;> rfl
    refine ⟨.exists (significant inner) negated, by rw [Expr.form, inside]; rfl, ?_⟩
    rw [written]
    exact .exists negated hidden
  | .column .., _, predicate, _, _ | .literal _, _, predicate, _, _ | .cast .., _, predicate, _, _
  | .concat _, _, predicate, _, _ | .coalesce _, _, predicate, _, _ | .call .., _, predicate, _, _
  | .hash256 _, _, predicate, _, _ | .rowNumber .., _, predicate, _, _ | .star _, _, predicate, _, _
  | .placeholder _, _, predicate, _, _ | .raw _, _, predicate, _, _ => by cases predicate

/-- A rendered predicate is read back by the precedence of SQL. -/
theorem read_tokens {e : Expr} {ts : List Token} (predicate : e.isPredicate = true)
    (keeps : e.KeepsHashes d) (rendered : e.tokens d = .ok ts) :
    ∃ p, e.form d = some p ∧ read d ts = some p := by
  obtain ⟨p, form, reads⟩ := e.reads predicate keeps rendered
  exact ⟨p, form, reads.disjunction.readAt (Nat.lt_succ_self _)⟩

end

/-- Every connective below another, a concatenation that is tested, and a raw fragment that is
hashed. -/
def mixedLogic : Expr :=
  .and (.binary (.eq (.col "region") (.str "EU")) .or
    (.isNull (.concat [.col "first", .col "last"]) true))
    (.and (.not (.binary (.col "rank") .lt (.literal (.int 3))))
      (.ne (.hash256 (.raw "payload")) (.concat [.col "hash", .str "0"])))

/-- A disjunction, a negation and a hash under one conjunction are read as what they are. -/
theorem read_tokens_mixedLogic :
    mixedLogic.isPredicate = true ∧ mixedLogic.KeepsHashes .mysql ∧ ∃ ts,
    mixedLogic.tokens .mysql = .ok ts ∧
      read .mysql ts = some (.joined .and [
        .joined .or [.comparison [[.name "region"]] .eq [[.string "EU"]],
          .isNull [[.name "first"], [.name "last"]] true],
        .not (.comparison [[.name "rank"]] .lt [[.int 3]]),
        .comparison [[.raw "SHA2(", .raw "payload", .raw ", 256)"]] .ne
          [[.name "hash"], [.string "0"]]]) := by
  have predicate : mixedLogic.isPredicate = true := rfl
  have keeps : mixedLogic.KeepsHashes .mysql := by
    intro s member
    rw [show mixedLogic.bareRaws = ["payload"] from rfl, List.mem_singleton] at member
    rw [member]
    decide
  obtain ⟨p, form, reads⟩ := read_tokens (d := .mysql) predicate keeps rfl
  refine ⟨predicate, keeps, _, rfl, ?_⟩
  rw [reads, ← form]
  rfl

/-- Two hashes, of fragments that are written as the texts around a hash are. -/
def hashedBrackets : Expr :=
  .and (.isNull (.hash256 (.raw "SHA256(")) false) (.isNull (.hash256 (.raw ")")) false)

/-- One hash, which holds another. -/
def nestedHashes : Expr :=
  .isNull (.hash256 (.hash256 (.and (.isNull (.raw ")") false) (.raw "SHA256(")))) false

/-- A raw fragment is written as it is, so that both are written alike: no reader tells them
apart. -/
theorem not_exists_reader :
    hashedBrackets.isPredicate = true ∧ nestedHashes.isPredicate = true ∧
      ¬ ∃ reader : List Token → Option Predicate, ∀ (e : Expr) (ts : List Token),
      e.isPredicate = true →
        e.tokens .duckdb = .ok ts → reader ts = e.form .duckdb := by
  refine ⟨rfl, rfl, ?_⟩
  rintro ⟨reader, reads⟩
  have two := reads hashedBrackets _ rfl rfl
  have one := reads nestedHashes _ rfl rfl
  have alike := two.symm.trans one
  cases alike

end Warehouse.Sql
