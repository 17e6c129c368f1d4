/-
Module: Warehouse.Proofs.Sql.Nesting
Purpose: What encloses a token of a rendered expression. Parentheses do, and outside of them the two
  raw texts that a dialect writes around the input of its hash. Whatever is rendered leaves the
  nesting as it found it, so that inside parentheses nothing of it can be seen from outside; and
  outside of them the same holds of the input of a hash unless a raw fragment in it is one of those
  two texts.
Trusted boundary: none
Main exports: Brackets, Dialect.brackets, Nesting, surface, Stays, Hidden, Expr.bareRaws, Settled,
  Expr.settled, Plan.hidden, cut, cut_append, cut_intersperse, significant
-/
import Mathlib.Data.List.Basic
import Warehouse.Proofs.Lists
import Warehouse.Proofs.Results
import Warehouse.Sql.Expr.Tokens

namespace Warehouse.Sql

/-! ### Brackets and nesting

A reader of tokens keeps track of how deep it is in parentheses, and whether it is inside a hash.
Only what it sees at the top can separate clauses and operands. A hash is written with raw brackets,
so these are tracked apart from the parentheses. -/

/-- The raw texts before and behind the input of a hash. -/
structure Brackets where
  opening : String
  closing : String
deriving DecidableEq, Repr

/-- The texts that a dialect writes around the input of its hash. -/
def Dialect.brackets (d : Dialect) : Brackets :=
  match d.hash256Tokens [] with
  | [.raw opening, .raw closing] => ⟨opening, closing⟩
  | _ => ⟨"", ""⟩

/-- A hash is its input between the brackets of the dialect. -/
theorem Dialect.hash256Tokens_eq (d : Dialect) (input : List Token) :
    d.hash256Tokens input = .raw d.brackets.opening :: (input ++ [.raw d.brackets.closing]) := by
  cases d <;> rfl

private theorem Dialect.closing_ne_opening (d : Dialect) :
    d.brackets.closing ≠ d.brackets.opening := by
  cases d <;> decide

/-- What is open at a place: so many parentheses and, outside of them, so many hashes. -/
structure Nesting where
  parens : Nat
  hashes : Nat
deriving DecidableEq, Repr

/-- The place that nothing encloses. -/
def Nesting.top : Nesting := ⟨0, 0⟩

/-- What is open behind a token. Without brackets only parentheses count, and between parentheses
only they do. -/
def Nesting.after (brackets : Option Brackets) (n : Nesting) : Token → Nesting
  | .symbol .open => { n with parens := n.parens + 1 }
  | .symbol .close => { n with parens := n.parens - 1 }
  | .raw s =>
    match brackets with
    | some b =>
      if n.parens ≠ 0 then n
      else if s = b.opening then { n with hashes := n.hashes + 1 }
      else if s = b.closing then { n with hashes := n.hashes - 1 }
      else n
    | none => n
  | _ => n

/-- The tokens that nothing encloses. -/
def surface (brackets : Option Brackets) : Nesting → List Token → List Token
  | _, [] => []
  | n, t :: ts => (if n = .top then [t] else []) ++ surface brackets (n.after brackets t) ts

/-- Whether a token may open or close something. -/
def Token.moves (brackets : Option Brackets) : Token → Bool
  | .symbol .open | .symbol .close => true
  | .raw s => brackets.any fun b => s = b.opening || s = b.closing
  | _ => false

section

variable {b : Option Brackets} {n : Nesting} {t : Token}

/-- A token that moves nothing leaves the reader where it is. -/
theorem Nesting.after_of_still (still : t.moves b = false) : n.after b t = n := by
  unfold Token.moves at still
  unfold Nesting.after
  split at still
  · cases still
  · cases still
  · cases b with
    | none => rfl
    | some b =>
      simp only [Option.any_some, Bool.or_eq_false_iff, decide_eq_false_iff_not] at still
      simp [still]
  · rfl

/-- Between parentheses raw texts open and close nothing. -/
theorem Nesting.after_of_enclosed (inside : n.parens ≠ 0) (still : t.moves none = false) :
    n.after b t = n := by
  unfold Token.moves at still
  unfold Nesting.after
  split at still
  · cases still
  · cases still
  · cases b with
    | none => rfl
    | some b => exact if_pos inside
  · rfl

end

/-! ### Lists of tokens that close what they open

Such a list can stand anywhere: a reader that has gone through it is as deep as before. Lists of
this kind can be put one after another, and parentheses around them hide all that they have. -/

section

variable {b : Option Brackets} {n : Nesting} {q q' : Token → Prop} {s ts : List Token} {t : Token}

/-- Behind the tokens as much is open as before them, and the tokens that nothing encloses are of
the given kind. -/
structure Stays (b : Option Brackets) (n : Nesting) (q : Token → Prop) (ts : List Token) :
    Prop where
  back : ts.foldl (Nesting.after b) n = n
  shows : ∀ t ∈ surface b n ts, q t

/-- What is seen of two lists in a row is what is seen of each, the second from where the first has
led. -/
theorem surface_append (b : Option Brackets) (n : Nesting) (s ts : List Token) :
    surface b n (s ++ ts) = surface b n s ++ surface b (s.foldl (Nesting.after b) n) ts := by
  induction s generalizing n with
  | nil => rfl
  | cons t s ih => rw [List.cons_append, surface, surface, ih, List.append_assoc, List.foldl_cons]

namespace Stays

theorem nil : Stays b n q [] := ⟨rfl, fun _ member => nomatch member⟩

/-- Two such lists in a row are one. -/
theorem append (first : Stays b n q s) (second : Stays b n q ts) : Stays b n q (s ++ ts) where
  back := by rw [List.foldl_append, first.back, second.back]
  shows := by
    rw [surface_append, first.back, List.forall_mem_append]
    exact ⟨first.shows, second.shows⟩

/-- A token that moves nothing can be put in front. -/
theorem cons (still : n.after b t = n) (shown : n = .top → q t) (rest : Stays b n q ts) :
    Stays b n q (t :: ts) where
  back := by rw [List.foldl_cons, still, rest.back]
  shows := by
    rw [surface, still, List.forall_mem_append]
    refine ⟨?_, rest.shows⟩
    split
    · next outside => simpa using shown outside
    · simp

/-- What is seen has every weaker property as well. -/
theorem imp (weaker : ∀ t, q t → q' t) (stays : Stays b n q ts) : Stays b n q' ts :=
  ⟨stays.back, fun t member => weaker t (stays.shows t member)⟩

/-- Tokens that neither open nor close anything. -/
theorem of_still (still : ∀ t ∈ ts, t.moves b = false) (shown : n = .top → ∀ t ∈ ts, q t) :
    Stays b n q ts := by
  induction ts with
  | nil => exact nil
  | cons t ts ih =>
    obtain ⟨first, later⟩ := List.forall_mem_cons.mp still
    exact cons (Nesting.after_of_still first) (fun outside => shown outside t List.mem_cons_self)
      (ih later fun outside x member => shown outside x (List.mem_cons_of_mem _ member))

/-- Any number of such lists in a row are one. -/
theorem flatten {tss : List (List Token)} (each : ∀ ts ∈ tss, Stays b n q ts) :
    Stays b n q tss.flatten := by
  induction tss with
  | nil => exact nil
  | cons ts tss ih =>
    obtain ⟨first, later⟩ := List.forall_mem_cons.mp each
    exact first.append (ih later)

/-- So they are with such a list between them. -/
theorem intersperse {tss : List (List Token)} {separator : List Token}
    (between : Stays b n q separator) (each : ∀ ts ∈ tss, Stays b n q ts) :
    Stays b n q (tss.intersperse separator).flatten := by
  refine flatten fun ts member => ?_
  rcases mem_of_mem_intersperse member with rfl | part
  · exact between
  · exact each ts part

end Stays

/-- Tokens of which nothing can be seen when they stand between parentheses. -/
def Hidden (ts : List Token) : Prop := ∀ b n, n.parens ≠ 0 → Stays b n (fun _ => False) ts

/-- Of what stands in parentheses only the parentheses are seen. -/
theorem Stays.parenthesised (shown : n = .top → q (.symbol .open)) (inside : Hidden ts) :
    Stays b n q (parenthesised ts) := by
  have within := inside b ⟨n.parens + 1, n.hashes⟩ (Nat.succ_ne_zero _)
  have closed : (ts ++ [Token.symbol .close]).foldl (Nesting.after b)
      ⟨n.parens + 1, n.hashes⟩ = n := by
    rw [List.foldl_append, within.back]
    rfl
  refine ⟨closed, ?_⟩
  rw [Sql.parenthesised, surface, List.forall_mem_append]
  constructor
  · split
    · next outside => simpa using shown outside
    · simp
  · rw [Nesting.after, surface_append, List.forall_mem_append, within.back]
    refine ⟨fun t member => (within.shows t member).elim, ?_⟩
    simp [surface, Nesting.top]

/-- The texts around a hash hide its input as parentheses do. -/
theorem Stays.hash256 {d : Dialect} {hashes : Nat}
    (shown : hashes = 0 → q (.raw d.brackets.opening))
    (input : Stays (some d.brackets) ⟨0, hashes + 1⟩ (fun _ => False) ts) :
    Stays (some d.brackets) ⟨0, hashes⟩ q (d.hash256Tokens ts) := by
  have opened : Nesting.after (some d.brackets) ⟨0, hashes⟩ (.raw d.brackets.opening) =
      ⟨0, hashes + 1⟩ := by
    simp [Nesting.after]
  have closed : Nesting.after (some d.brackets) ⟨0, hashes + 1⟩ (.raw d.brackets.closing) =
      ⟨0, hashes⟩ := by
    simp [Nesting.after, d.closing_ne_opening]
  rw [d.hash256Tokens_eq]
  constructor
  · rw [List.foldl_cons, opened, List.foldl_append, input.back, List.foldl_cons, closed]
    rfl
  · rw [surface, opened, surface_append, input.back, List.forall_mem_append, List.forall_mem_append]
    refine ⟨?_, fun t member => (input.shows t member).elim, by simp [surface, Nesting.top]⟩
    split
    · next outside => simpa using shown (congrArg Nesting.hashes outside)
    · simp

namespace Hidden

theorem nil : Hidden [] := fun _ _ _ => .nil

/-- Lists that are hidden inside parentheses are so together. -/
theorem append (first : Hidden s) (second : Hidden ts) : Hidden (s ++ ts) :=
  fun b n inside => (first b n inside).append (second b n inside)

theorem cons (still : t.moves none = false) (rest : Hidden ts) : Hidden (t :: ts) := by
  intro b n inside
  refine .cons (Nesting.after_of_enclosed inside still) (fun outside => ?_) (rest b n inside)
  rw [outside] at inside
  exact inside rfl

/-- Tokens that move nothing are hidden inside parentheses. -/
theorem of_still (still : ∀ t ∈ ts, t.moves none = false) : Hidden ts := by
  induction ts with
  | nil => exact nil
  | cons t ts ih =>
    obtain ⟨first, later⟩ := List.forall_mem_cons.mp still
    exact cons first (ih later)

/-- So is what already has parentheses around it. -/
theorem parenthesised (inside : Hidden ts) : Hidden (parenthesised ts) := by
  intro b n enclosed
  refine .parenthesised (fun outside => ?_) inside
  rw [outside] at enclosed
  exact enclosed rfl

theorem intersperse {tss : List (List Token)} {separator : List Token} (between : Hidden separator)
    (each : ∀ ts ∈ tss, Hidden ts) : Hidden (tss.intersperse separator).flatten :=
  fun b n inside => .intersperse (between b n inside) fun ts member => each ts member b n inside

/-- A list with commas is hidden if its members are. -/
theorem commaSeparated {tss : List (List Token)} (each : ∀ ts ∈ tss, Hidden ts) :
    Hidden (commaSeparated tss) :=
  intersperse (of_still (by decide)) each

end Hidden

end

/-! ### Raw fragments

Raw text is written as it is given. It is taken for a bracket if it is the same text as one, so what
is said about rendered tokens is said for raw texts that are apart from the brackets. -/

mutual

/-- The raw fragments of an expression that stand outside of calls, casts and queries. -/
def Expr.bareRaws : Expr → List String
  | .raw sql => [sql]
  | .concat parts => Expr.bareRawsOfAll parts
  | .binary left _ right => left.bareRaws ++ right.bareRaws
  | .not operand | .isNull operand _ | .hash256 operand => operand.bareRaws
  | _ => []

/-- `bareRaws` for several expressions. -/
def Expr.bareRawsOfAll : List Expr → List String
  | [] => []
  | e :: es => e.bareRaws ++ Expr.bareRawsOfAll es

end

section

variable {d : Dialect} {b : Option Brackets} {n : Nesting} {raws : List String} {q : Token → Prop}
  {ts : List Token} {tss : List (List Token)}

/-- Fragments that open and close nothing at a place: between parentheses nothing does, and outside
of them only the texts around a hash do. -/
def Mute (d : Dialect) (b : Option Brackets) (n : Nesting) (raws : List String) : Prop :=
  n.parens ≠ 0 ∨ (b = none ∨ b = some d.brackets) ∧ ∀ s ∈ raws, (Token.raw s).moves b = false

theorem Mute.mono {raws' : List String} (fewer : raws ⊆ raws') : Mute d b n raws' → Mute d b n raws
  | .inl inside => .inl inside
  | .inr ⟨known, still⟩ => .inr ⟨known, fun s member => still s (fewer member)⟩

private theorem Mute.after_raw {s : String} (mute : Mute d b n raws) (member : s ∈ raws) :
    n.after b (.raw s) = n := by
  rcases mute with inside | ⟨_, still⟩
  · exact Nesting.after_of_enclosed inside rfl
  · exact Nesting.after_of_still (still s member)

/-- The text begins otherwise than both texts around a hash. -/
def StartsApart (d : Dialect) (s : String) : Prop :=
  ∃ c, s.toList.head? = some c ∧ d.brackets.opening.toList.head? ≠ some c ∧
    d.brackets.closing.toList.head? ≠ some c

/-- A text that begins otherwise than a bracket is no bracket. -/
theorem StartsApart.still {s : String} (apart : StartsApart d s)
    (known : b = none ∨ b = some d.brackets) : (Token.raw s).moves b = false := by
  obtain ⟨c, starts, opening, closing⟩ := apart
  rcases known with rfl | rfl
  · rfl
  · rw [Token.moves, Option.any_some, Bool.or_eq_false_iff, decide_eq_false_iff_not,
      decide_eq_false_iff_not]
    constructor
    · rintro rfl
      exact opening starts
    · rintro rfl
      exact closing starts

/-- Whether a number may begin with that character. -/
def startsNumber (c : Char) : Bool := c.isDigit || c ∈ ['-', '+', '.']

private theorem startsNumber_of_isDecimalText {cs : List Char} (decimal : isDecimalText cs = true) :
    ∃ c, (Text.trim cs).head? = some c ∧ startsNumber c = true := by
  unfold isDecimalText at decimal
  cases trimmed : Text.trim cs with
  | nil => simp [trimmed] at decimal
  | cons c rest =>
    refine ⟨c, rfl, ?_⟩
    by_cases sign : c ∈ ['-', '+', '.']
    · simp [startsNumber, sign]
    · simp only [List.mem_cons, List.not_mem_nil, or_false, not_or] at sign
      simp [trimmed, sign] at decimal
      simp [startsNumber, decimal.1.1]

/-- No text around a hash begins as a number does. -/
theorem Dialect.startsNumber_brackets (d : Dialect) :
    (∀ c ∈ d.brackets.opening.toList.head?, startsNumber c = false) ∧
      ∀ c ∈ d.brackets.closing.toList.head?, startsNumber c = false := by
  refine ⟨?_, ?_⟩ <;> cases d <;> rintro c ⟨⟩ <;> rfl

private theorem startsApart_decimal {s : String} (decimal : isDecimalText s.toList = true) :
    StartsApart d (Text.strip s) := by
  obtain ⟨c, starts, number⟩ := startsNumber_of_isDecimalText decimal
  obtain ⟨opening, closing⟩ := d.startsNumber_brackets
  refine ⟨c, ?_, fun same => ?_, fun same => ?_⟩
  · rw [Text.strip, String.toList_ofList, starts]
  · cases number.symm.trans (opening c same)
  · cases number.symm.trans (closing c same)

private theorem startsApart_date (d : Dialect) (text : String) :
    StartsApart d (d.dateLiteral text) := by
  cases d
  case oracle => exact ⟨'D', by simp [Dialect.dateLiteral], by decide, by decide⟩
  all_goals exact ⟨'C', by simp [Dialect.dateLiteral], by decide, by decide⟩

private theorem startsApart_timestamp (d : Dialect) (text : String) :
    StartsApart d (d.timestampLiteral text) := by
  cases d
  case oracle => exact ⟨'T', by simp [Dialect.timestampLiteral], by decide, by decide⟩
  all_goals exact ⟨'C', by simp [Dialect.timestampLiteral], by decide, by decide⟩

/-- Whether a token is more than a keyword, a symbol or a blank. -/
def Token.isValue : Token → Bool
  | .keyword _ | .symbol _ | .space | .newline | .indent _ => false
  | _ => true

/-- Whether a token is a constant or raw text. -/
def Token.isConstant : Token → Bool
  | .int _ | .float _ | .string _ | .bool _ | .null | .raw _ => true
  | _ => false

theorem Token.isValue_of_isConstant {t : Token} (constant : t.isConstant = true) :
    t.isValue = true := by
  cases t <;> first | rfl | cases constant

/-- A literal is written as one constant. -/
theorem Literal.isConstant {value : Literal} {t : Token} (written : value.token d = .ok t) :
    t.isConstant = true := by
  cases value with
  | null | bool _ | int _ | string _ | date _ | timestamp _ =>
    cases written
    rfl
  | float _ | decimal _ =>
    rw [token] at written
    split at written <;> cases written
    rfl

/-- The token of a constant opens and closes nothing. -/
theorem Literal.still {value : Literal} {t : Token} (written : value.token d = .ok t)
    (known : b = none ∨ b = some d.brackets) : t.moves b = false := by
  cases value with
  | null | bool _ | int _ | string _ =>
    cases written
    rfl
  | float x =>
    rw [token] at written
    split at written <;> cases written
    rfl
  | decimal s =>
    rw [token] at written
    split at written <;> cases written
    next decimal => exact (startsApart_decimal decimal).still known
  | date v =>
    cases written
    exact (startsApart_date d _).still known
  | timestamp v =>
    cases written
    exact (startsApart_timestamp d _).still known

end

/-! ### What is rendered leaves the nesting as it is

Rendering goes down the tree, and so does the proof: each kind of node puts together what its parts
render to, with parentheses around whatever could be seen from outside. -/

/-- A token that shows at a place: nothing encloses it, and it separates no arguments. -/
def Shown (n : Nesting) (t : Token) : Prop := n = .top ∧ t ≠ .symbol .comma

/-- Tokens that leave the nesting as it is wherever no raw fragment outside of parentheses opens or
closes a hash. -/
def Settled (d : Dialect) (raws : List String) (ts : List Token) : Prop :=
  ∀ b n, Mute d b n raws → Stays b n (Shown n) ts

/-- Whether a token neither encloses nor separates anything. -/
def Token.isPlain : Token → Bool
  | .symbol .open | .symbol .close | .symbol .comma | .raw _ => false
  | _ => true

/-- A plain token moves nothing. -/
theorem Token.still_of_isPlain {t : Token} (plain : t.isPlain = true) (b : Option Brackets) :
    t.moves b = false := by
  unfold Token.isPlain at plain
  unfold Token.moves
  split <;> simp_all

namespace Settled

variable {d : Dialect} {raws raws' : List String} {s ts : List Token} {t : Token}
    {tss : List (List Token)}

/-- What is settled can be hidden inside parentheses. -/
theorem hidden (settled : Settled d raws ts) : Hidden ts := by
  intro b n inside
  refine (settled b n (.inl inside)).imp ?_
  rintro t ⟨rfl, -⟩
  exact inside rfl

/-- It is settled for more raw texts as well. -/
theorem mono (settled : Settled d raws ts) (fewer : raws ⊆ raws') : Settled d raws' ts :=
  fun b n mute => settled b n (mute.mono fewer)

theorem append (first : Settled d raws s) (second : Settled d raws ts) : Settled d raws (s ++ ts) :=
  fun b n mute => (first b n mute).append (second b n mute)

theorem cons (plain : t.isPlain = true) (rest : Settled d raws ts) : Settled d raws (t :: ts) := by
  intro b n mute
  refine .cons (Nesting.after_of_still (t.still_of_isPlain plain b)) (fun outside => ⟨outside, ?_⟩)
    (rest b n mute)
  rintro rfl
  cases plain

private theorem of_plain (plain : ts.all Token.isPlain = true) : Settled d raws ts := by
  induction ts with
  | nil => exact fun _ _ _ => .nil
  | cons t ts ih =>
    obtain ⟨first, later⟩ := Bool.and_eq_true_iff.mp plain
    exact cons first (ih later)

theorem parenthesised (inside : Hidden ts) : Settled d raws (parenthesised ts) :=
  fun _ _ _ => .parenthesised (fun outside => ⟨outside, by decide⟩) inside

/-- Parentheses may be put around it or not. -/
theorem parenthesisedIf {needed : Bool} (inside : Settled d raws ts) :
    Settled d raws (parenthesisedIf needed ts) := by
  cases needed
  · exact inside
  · exact parenthesised inside.hidden

/-- Operands put together by the concatenation of the dialect are settled if each of them is. -/
theorem concatTokens (each : ∀ ts ∈ tss, Settled d raws ts) :
    Settled d raws (d.concatTokens tss) := by
  unfold Dialect.concatTokens
  split
  · exact of_plain rfl
  · exact each _ (List.mem_singleton.mpr rfl)
  · split
    · intro b n mute
      exact .intersperse (of_plain rfl b n mute) fun ts member => each ts member b n mute
    · exact cons rfl (parenthesised (.commaSeparated fun ts member => (each ts member).hidden))

theorem raw {text : String} : Settled d [text] [.raw text] := by
  intro b n mute
  exact .cons (mute.after_raw (List.mem_singleton.mpr rfl)) (fun outside => ⟨outside, by simp⟩) .nil

theorem literal {value : Literal} (written : value.token d = .ok t) : Settled d raws [t] := by
  intro b n mute
  have still : n.after b t = n := by
    rcases mute with inside | ⟨known, _⟩
    · exact Nesting.after_of_enclosed inside (Literal.still written (.inl rfl))
    · exact Nesting.after_of_still (Literal.still written known)
  refine .cons still (fun outside => ⟨outside, ?_⟩) .nil
  rintro rfl
  cases Literal.isConstant written

/-- A hash of what is settled is settled. -/
theorem hash256 (input : Settled d raws ts) : Settled d raws (d.hash256Tokens ts) := by
  intro b n mute
  by_cases idle : n.parens ≠ 0 ∨ b = none
  · have still (s : String) : n.after b (.raw s) = n := by
      rcases idle with inside | rfl
      · exact Nesting.after_of_enclosed inside rfl
      · exact Nesting.after_of_still rfl
    have shown (s : String) (outside : n = .top) : Shown n (.raw s) := ⟨outside, by simp⟩
    rw [d.hash256Tokens_eq]
    exact .cons (still _) (shown _) ((input b n mute).append (.cons (still _) (shown _) .nil))
  · obtain ⟨outside, counted⟩ := not_or.mp idle
    obtain ⟨known, quiet⟩ := mute.resolve_left outside
    obtain rfl := known.resolve_left counted
    obtain ⟨parens, hashes⟩ := n
    obtain rfl : parens = 0 := not_not.mp outside
    refine .hash256 (fun zero => ⟨by rw [zero]; rfl, by simp⟩) ?_
    refine (input (some d.brackets) ⟨0, hashes + 1⟩ (.inr ⟨.inr rfl, quiet⟩)).imp fun t shown => ?_
    exact absurd shown.1 (by simp [Nesting.top])

end Settled

private theorem hidden_aliasTokens (d : Dialect) (name : String) : Hidden (d.aliasTokens name) := by
  unfold Dialect.aliasTokens
  split <;> exact .of_still (by simp [Token.moves])

/-- A clause that may be missing is hidden if its content is. -/
theorem Hidden.clause {key : Keyword} {empty : Bool} {ts : List Token} (inside : Hidden ts) :
    Hidden (if empty then [] else word key :: Token.space :: ts) := by
  split
  · exact .nil
  · exact .cons rfl (.cons rfl inside)

section

variable {d : Dialect}

mutual

/-- Every expression that is rendered leaves the nesting as it is. -/
theorem Expr.settled : ∀ (e : Expr) {ts : List Token}, e.tokens d = .ok ts → Settled d e.bareRaws ts
  | .column table name, ts, rendered => by
    cases rendered
    cases table <;> exact .of_plain rfl
  | .literal value, ts, rendered => by
    obtain ⟨t, written, ⟨⟩⟩ := bind_eq_ok_iff.mp rendered
    exact .literal written
  | .cast operand type, ts, rendered => by
    obtain ⟨inner, inside, ⟨⟩⟩ := bind_eq_ok_iff.mp rendered
    exact .cons rfl
      (.parenthesised ((operand.settled inside).hidden.append (.of_still (by simp [Token.moves]))))
  | .concat parts, ts, rendered => by
    obtain ⟨tss, each, ⟨⟩⟩ := bind_eq_ok_iff.mp rendered
    exact .concatTokens (Expr.settledAll parts each)
  | .coalesce [], ts, rendered => by cases rendered
  | .coalesce (arg :: args), ts, rendered => by
    obtain ⟨tss, each, ⟨⟩⟩ := bind_eq_ok_iff.mp rendered
    exact .cons rfl (.parenthesised (.commaSeparated fun ts member =>
      (Expr.settledAll (arg :: args) each ts member).hidden))
  | .call function args, ts, rendered => by
    obtain ⟨tss, each, ⟨⟩⟩ := bind_eq_ok_iff.mp rendered
    exact .cons rfl (.parenthesised
      (.commaSeparated fun ts member => (Expr.settledAll args each ts member).hidden))
  | .hash256 input, ts, rendered => by
    obtain ⟨inner, inside, ⟨⟩⟩ := bind_eq_ok_iff.mp rendered
    exact .hash256 (input.settled inside)
  | .rowNumber partition order, ts, rendered => by
    rw [Expr.tokens] at rendered
    split at rendered
    · cases rendered
    · obtain ⟨groups, partitioned, rest⟩ := bind_eq_ok_iff.mp rendered
      obtain ⟨keys, ordered, ⟨⟩⟩ := bind_eq_ok_iff.mp rest
      have partitionClause := Hidden.commaSeparated fun ts member =>
        (Expr.settledAll partition partitioned ts member).hidden
      have orderClause := Hidden.commaSeparated (SortKey.hiddenAll order ordered)
      have between : Hidden (if partition.isEmpty || order.isEmpty then [] else [Token.space]) := by
        split <;> exact .of_still (by decide)
      refine .cons rfl
        ((Settled.append (.parenthesised .nil) (.of_plain rfl)).append (.parenthesised ?_))
      refine ((Hidden.clause partitionClause).append between).append (Hidden.clause orderClause)
  | .binary left op right, ts, rendered => by
    obtain ⟨l, onLeft, rest⟩ := bind_eq_ok_iff.mp rendered
    obtain ⟨r, onRight, ⟨⟩⟩ := bind_eq_ok_iff.mp rest
    have first := (left.settled onLeft).mono (List.subset_append_left _ right.bareRaws)
    have second := (right.settled onRight).mono (List.subset_append_right left.bareRaws _)
    exact (first.parenthesisedIf.append (.of_plain (by cases op <;> rfl))).append
      second.parenthesisedIf
  | .not operand, ts, rendered => by
    obtain ⟨inner, inside, ⟨⟩⟩ := bind_eq_ok_iff.mp rendered
    exact .cons rfl (.cons rfl (.parenthesised (operand.settled inside).hidden))
  | .isNull operand negated, ts, rendered => by
    obtain ⟨inner, inside, ⟨⟩⟩ := bind_eq_ok_iff.mp rendered
    cases negated <;>
      exact (((operand.settled inside).append (.of_plain rfl)).append (.of_plain rfl)).append
        (.of_plain rfl)
  | .exists query negated, ts, rendered => by
    obtain ⟨inner, inside, ⟨⟩⟩ := bind_eq_ok_iff.mp rendered
    exact .append (by cases negated <;> exact .of_plain rfl)
      (.cons rfl (.cons rfl (.parenthesised (query.hidden inside))))
  | .star table, ts, rendered => by
    cases rendered
    cases table <;> exact .of_plain rfl
  | .placeholder which, ts, rendered => by
    cases rendered
    exact .of_plain rfl
  | .raw sql, ts, rendered => by
    cases rendered
    exact .raw

/-- So does every expression of a list. -/
theorem Expr.settledAll : ∀ (es : List Expr) {tss : List (List Token)},
    Expr.tokensOfAll d es = .ok tss → ∀ ts ∈ tss, Settled d (Expr.bareRawsOfAll es) ts
  | [], tss, rendered => by
    cases rendered
    simp
  | e :: es, tss, rendered => by
    obtain ⟨ts, first, rest⟩ := bind_eq_ok_iff.mp rendered
    obtain ⟨others, later, ⟨⟩⟩ := bind_eq_ok_iff.mp rest
    exact List.forall_mem_cons.mpr ⟨(e.settled first).mono (List.subset_append_left _ _),
      fun ts member => (Expr.settledAll es later ts member).mono (List.subset_append_right _ _)⟩

private theorem Expr.hiddenOption : ∀ (e : Option Expr) {ts : Option (List Token)},
    Expr.tokensOfOption d e = .ok ts → ∀ inner ∈ ts, Hidden inner
  | none, ts, rendered => by
    cases rendered
    simp
  | some e, ts, rendered => by
    obtain ⟨inner, inside, ⟨⟩⟩ := bind_eq_ok_iff.mp rendered
    simpa using (e.settled inside).hidden

theorem SortKey.hidden : ∀ (k : SortKey) {ts : List Token}, k.tokens d = .ok ts → Hidden ts
  | ⟨expr, descending⟩, ts, rendered => by
    obtain ⟨inner, inside, ⟨⟩⟩ := bind_eq_ok_iff.mp rendered
    exact (expr.settled inside).hidden.append (.of_still (by cases descending <;> decide))

private theorem SortKey.hiddenAll : ∀ (ks : List SortKey) {tss : List (List Token)},
    SortKey.tokensOfAll d ks = .ok tss → ∀ ts ∈ tss, Hidden ts
  | [], tss, rendered => by
    cases rendered
    simp
  | k :: ks, tss, rendered => by
    obtain ⟨ts, first, rest⟩ := bind_eq_ok_iff.mp rendered
    obtain ⟨others, later, ⟨⟩⟩ := bind_eq_ok_iff.mp rest
    exact List.forall_mem_cons.mpr ⟨k.hidden first, SortKey.hiddenAll ks later⟩

theorem SelectItem.hidden : ∀ (i : SelectItem) {ts : List Token}, i.tokens d = .ok ts → Hidden ts
  | ⟨expr, name⟩, ts, rendered => by
    obtain ⟨inner, inside, ⟨⟩⟩ := bind_eq_ok_iff.mp rendered
    exact (expr.settled inside).hidden.append (.of_still (by cases name <;> simp [Token.moves]))

private theorem SelectItem.hiddenAll : ∀ (is : List SelectItem) {tss : List (List Token)},
    SelectItem.tokensOfAll d is = .ok tss → ∀ ts ∈ tss, Hidden ts
  | [], tss, rendered => by
    cases rendered
    simp
  | i :: is, tss, rendered => by
    obtain ⟨ts, first, rest⟩ := bind_eq_ok_iff.mp rendered
    obtain ⟨others, later, ⟨⟩⟩ := bind_eq_ok_iff.mp rest
    exact List.forall_mem_cons.mpr ⟨i.hidden first, SelectItem.hiddenAll is later⟩

theorem Source.hidden : ∀ (s : Source) {ts : List Token}, s.tokens d = .ok ts → Hidden ts
  | .table t, ts, rendered => by
    cases rendered
    exact .cons rfl (by cases t.alias? <;> first | exact .nil | exact hidden_aliasTokens d _)
  | .subquery query name, ts, rendered => by
    obtain ⟨inner, inside, ⟨⟩⟩ := bind_eq_ok_iff.mp rendered
    have body : Hidden (Token.newline :: (inner ++ [Token.newline])) :=
      .cons rfl ((query.hidden inside).append (.of_still (by decide)))
    exact body.parenthesised.append (hidden_aliasTokens d name)

private theorem Source.hiddenOption : ∀ (s : Option Source) {ts : Option (List Token)},
    Source.tokensOfOption d s = .ok ts → ∀ inner ∈ ts, Hidden inner
  | none, ts, rendered => by
    cases rendered
    simp
  | some s, ts, rendered => by
    obtain ⟨inner, inside, ⟨⟩⟩ := bind_eq_ok_iff.mp rendered
    simpa using s.hidden inside

/-- A query that is rendered can be hidden inside parentheses. -/
theorem Select.hidden : ∀ (s : Select) {ts : List Token}, s.tokens d = .ok ts → Hidden ts
  | ⟨distinct, items, source, filter, groupBy⟩, ts, rendered => by
    rw [Select.tokens] at rendered
    split at rendered
    · cases rendered
    · obtain ⟨columns, listed, rest⟩ := bind_eq_ok_iff.mp rendered
      obtain ⟨from?, reads, rest⟩ := bind_eq_ok_iff.mp rest
      obtain ⟨where?, filtered, rest⟩ := bind_eq_ok_iff.mp rest
      obtain ⟨keys, grouped, ⟨⟩⟩ := bind_eq_ok_iff.mp rest
      have head : Hidden (if distinct then [word .distinct, Token.space] else []) := by
        split <;> exact .of_still (by decide)
      have clauseOption (key : Keyword) {body : Option (List Token)}
        (each : ∀ inner ∈ body, Hidden inner) :
          Hidden ((body.map fun body => Token.newline :: word key :: Token.space :: body).getD
            []) := by
        cases body with
        | none => exact .nil
        | some inner => exact .cons rfl (.cons rfl (.cons rfl (each inner rfl)))
      have groups := Hidden.commaSeparated fun ts member =>
        (Expr.settledAll groupBy grouped ts member).hidden
      refine .cons rfl
        (.cons rfl ((((head.append (.commaSeparated (SelectItem.hiddenAll items listed))).append
          (clauseOption _ (Source.hiddenOption source reads))).append
          (clauseOption _ (Expr.hiddenOption filter filtered))).append ?_))
      split
      · exact .nil
      · exact .cons rfl (.cons rfl (.cons rfl groups))

private theorem Select.hiddenAll : ∀ (ss : List Select) {tss : List (List Token)},
    Select.tokensOfAll d ss = .ok tss → ∀ ts ∈ tss, Hidden ts
  | [], tss, rendered => by
    cases rendered
    simp
  | s :: ss, tss, rendered => by
    obtain ⟨ts, first, rest⟩ := bind_eq_ok_iff.mp rendered
    obtain ⟨others, later, ⟨⟩⟩ := bind_eq_ok_iff.mp rest
    exact List.forall_mem_cons.mpr ⟨s.hidden first, Select.hiddenAll ss later⟩

/-- So can a query with a prologue. -/
theorem Plan.hidden : ∀ (p : Plan) {ts : List Token}, p.tokens d = .ok ts → Hidden ts
  | .select body, ts, rendered => body.hidden rendered
  | .union branches mode, ts, rendered => by
    cases mode <;> rw [Plan.tokens] at rendered <;> split at rendered
    case all.isFalse =>
      obtain ⟨parts, each, ⟨⟩⟩ := bind_eq_ok_iff.mp rendered
      exact .intersperse (.of_still (by decide)) (Select.hiddenAll branches each)
    case distinct.isFalse =>
      obtain ⟨parts, each, ⟨⟩⟩ := bind_eq_ok_iff.mp rendered
      exact .intersperse (.of_still (by simp [Token.moves])) (Select.hiddenAll branches each)
    all_goals cases rendered

end

end

/-! ### Cutting at tokens that nothing encloses

A reader cuts a list at the separators that it sees. Separators inside parentheses or a hash are not
seen, so the pieces are just the parts that were joined. -/

section

variable {b : Option Brackets} {n : Nesting} {separates : Token → Bool}
    {s ts : List Token} {t : Token}

/-- Cuts tokens at each separator that nothing encloses. There is one piece more than there are
cuts. -/
def cut (b : Option Brackets) (separates : Token → Bool) : Nesting → List Token → List (List Token)
  | _, [] => [[]]
  | n, t :: ts =>
    let pieces := cut b separates (n.after b t) ts
    if n = .top ∧ separates t then [] :: pieces else pieces.modifyHead (t :: ·)

/-- Where no separator is seen, the list is one piece. -/
theorem cut_eq_singleton (whole : ∀ t ∈ surface b n ts, separates t = false) :
    cut b separates n ts = [ts] := by
  induction ts generalizing n with
  | nil => rfl
  | cons t ts ih =>
    rw [surface, List.forall_mem_append] at whole
    have apart : ¬ (n = .top ∧ separates t = true) := by
      rintro ⟨top, cuts⟩
      rw [whole.1 t (by simp [top])] at cuts
      cases cuts
    rw [cut, ih whole.2]
    exact if_neg apart

/-- There is always a piece. -/
theorem cut_ne_nil : cut b separates n ts ≠ [] := by
  induction ts generalizing n with
  | nil => simp [cut]
  | cons t ts ih =>
    rw [cut]
    split
    · simp
    · simpa using ih

/-- The pieces on both sides of a separator. -/
theorem cut_append (back : s.foldl (Nesting.after b) n = .top) (cuts : separates t = true)
    (still : t.moves b = false) :
    cut b separates n (s ++ t :: ts) = cut b separates n s ++ cut b separates .top ts := by
  induction s generalizing n with
  | nil =>
    obtain rfl : n = .top := back
    have here : cut b separates .top (t :: ts) =
        [] :: cut b separates (Nesting.after b .top t) ts :=
      if_pos ⟨rfl, cuts⟩
    rw [List.nil_append, here, Nesting.after_of_still still]
    rfl
  | cons x s ih =>
    rw [List.cons_append, cut, cut]
    simp only [ih back]
    split
    · rfl
    · have nonempty : cut b separates (n.after b x) s ≠ [] := cut_ne_nil
      obtain ⟨piece, pieces, split⟩ := List.exists_cons_of_ne_nil nonempty
      rw [split]
      rfl

/-- Pieces are found again between the separators. -/
theorem cut_intersperse {parts : List (List Token)} (nonempty : parts ≠ [])
    (cuts : separates t = true) (still : t.moves b = false)
    (each : ∀ ts ∈ parts, Stays b .top (fun t => separates t = false) ts) :
    cut b separates .top (parts.intersperse [t]).flatten = parts := by
  induction parts with
  | nil => exact absurd rfl nonempty
  | cons part parts ih =>
    obtain ⟨first, later⟩ := List.forall_mem_cons.mp each
    cases parts with
    | nil => simpa using cut_eq_singleton first.shows
    | cons next parts =>
      rw [List.intersperse_cons_cons, List.flatten_cons, List.flatten_cons, List.singleton_append,
        cut_append first.back cuts still, cut_eq_singleton first.shows,
        ih (List.cons_ne_nil _ _) later]
      rfl

end

/-! ### Blanks

Spaces between tokens mean nothing. A reader drops them first, and what is said about nesting stays
as it is. -/

/-- Whether a token only keeps others apart. -/
def Token.isBlank : Token → Bool
  | .space | .newline | .indent _ => true
  | _ => false

/-- The tokens that are not blank. -/
def significant (ts : List Token) : List Token := ts.filter (! ·.isBlank)

theorem Stays.significant {b : Option Brackets} {n : Nesting} {q : Token → Prop} {ts : List Token}
    (stays : Stays b n q ts) : Stays b n q (significant ts) := by
  have same (n : Nesting) : (Sql.significant ts).foldl (Nesting.after b) n =
    ts.foldl (Nesting.after b) n ∧
      ∀ t ∈ surface b n (Sql.significant ts), t ∈ surface b n ts := by
    clear stays
    induction ts generalizing n with
    | nil => exact ⟨rfl, fun _ member => member⟩
    | cons t ts ih =>
      by_cases blank : t.isBlank = true
      · have still : n.after b t = n :=
          Nesting.after_of_still (by cases t <;> first | rfl | cases blank)
        rw [Sql.significant, List.filter_cons_of_neg (by simp [blank]), List.foldl_cons,
          surface, still]
        exact ⟨(ih n).1, fun t member => List.mem_append_right _ ((ih n).2 t member)⟩
      · rw [Sql.significant, List.filter_cons_of_pos (by simp [blank])]
        simp only [List.foldl_cons, surface, List.mem_append]
        exact ⟨(ih _).1, fun t member => member.imp_right ((ih _).2 t)⟩
  exact ⟨(same n).1.trans stays.back, fun t member => stays.shows t ((same n).2 t member)⟩

theorem Hidden.significant {ts : List Token} (hidden : Hidden ts) : Hidden (significant ts) :=
  fun b n inside => (hidden b n inside).significant

end Warehouse.Sql
