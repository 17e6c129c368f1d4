/-
Module: Warehouse.Proofs.Sql.Conjoined
Purpose: Conditions that are added to a statement one after another. They are joined by AND, and
  each of them stays whole, unless one that is written without parentheses shows an OR: read by the
  precedence of SQL, the clause then is a disjunction and lets more rows through than any of the
  conditions does. A raw fragment is written without parentheses whatever stands in it. What joins
  and encloses is looked at only, so that the reader of what stands between connectives and the way
  in which raw fragments are taken apart are left open.
Trusted boundary: none
Main exports: seen, Complete, Expr.IsComplete, Expr.ShowsOr, exists_conjunction, filters_conjoin_iff
-/
import Warehouse.Proofs.Sql.Precedence
import Warehouse.Sql.RowChange

namespace Warehouse.Sql

/-! ### Complete predicates

A condition is seen as the tokens that a reader of SQL sees, with raw fragments opened. It is
complete if it can be read as one predicate by itself; then it is an operand of AND, in parentheses
where it needs them. -/

/-- The tokens that a reader sees: raw texts are taken apart, and blanks do not count. -/
def seen (fragment : String → List Token) (ts : List Token) : List Token :=
  significant (ts.flatMap fun t =>
    match t with
    | .raw s => fragment s
    | t => [t])

/-- An OR that nothing encloses. -/
def ShowsOr (d : Dialect) (ts : List Token) : Prop := word .or ∈ surface (some d.brackets) .top ts

/-- Tokens that are a predicate from the first to the last: they close what they open, and they are
read as the same by themselves and between parentheses. -/
structure Complete (d : Dialect) (piece : List Token → Option Predicate) (ts : List Token)
    (p : Predicate) : Prop where
  hidden : Hidden ts
  back : ts.foldl (Nesting.after (some d.brackets)) .top = .top
  reads : level d .or (level d .and piece) ts = some p
  enclosed : piece (parenthesised ts) = some p

/-- An operand of AND. It is read as a conjunction unless it shows an OR. -/
structure Operand (d : Dialect) (piece : List Token → Option Predicate) (ts : List Token)
    (p : Predicate) : Prop where
  back : ts.foldl (Nesting.after (some d.brackets)) .top = .top
  reads : ¬ ShowsOr d ts → Level d .and piece ts p

section

variable {d : Dialect} {fragment : String → List Token}
    {piece inner : List Token → Option Predicate}
  {c : Connective} {s ts l r : List Token} {p q : Predicate}

private theorem seen_append (s ts : List Token) :
    seen fragment (s ++ ts) = seen fragment s ++ seen fragment ts := by
  rw [seen, List.flatMap_append, significant_append]
  rfl

private theorem seen_parenthesised (ts : List Token) :
    seen fragment (parenthesised ts) = parenthesised (seen fragment ts) := by
  rw [parenthesised, ← List.singleton_append, seen_append, seen_append]
  rfl

private theorem seen_parenthesisedIf (needed : Bool) (ts : List Token) :
    seen fragment (parenthesisedIf needed ts) = parenthesisedIf needed (seen fragment ts) := by
  cases needed
  · rfl
  · exact seen_parenthesised ts

private theorem level_eq_some_iff : level d c inner ts = some p ↔ Level d c inner ts p := by
  refine ⟨fun reads => ?_, Level.reads⟩
  obtain ⟨ps, pieces, rfl⟩ := Option.map_eq_some_iff.mp reads
  refine ⟨ps, pieces, ?_, rfl⟩
  match ps with
  | [] | [p] | p :: q :: ps => simp [Predicate.join, Predicate.parts]

/-- A separator that nothing encloses cuts. -/
theorem one_lt_length_cut {separates : Token → Bool} {b : Option Brackets} {n : Nesting} {t : Token}
    (cuts : separates t = true) (shown : t ∈ surface b n ts) :
    1 < (cut b separates n ts).length := by
  induction ts generalizing n with
  | nil => cases shown
  | cons x ts ih =>
    rw [surface, List.mem_append] at shown
    rw [cut]
    rcases shown with here | later
    · obtain ⟨top, rfl⟩ : n = .top ∧ t = x := by
        split at here
        · next top => exact ⟨top, List.mem_singleton.mp here⟩
        · cases here
      rw [if_pos ⟨top, cuts⟩, List.length_cons, Nat.lt_add_left_iff_pos, List.length_pos_iff]
      exact cut_ne_nil
    · have several := ih later
      split
      · exact Nat.lt_succ_of_lt several
      · rwa [List.length_modifyHead]

/-- What shows an OR is read as a disjunction, if at all. -/
theorem ShowsOr.exists_joined (shows : ShowsOr d ts) (reads : level d .or inner ts = some p) :
    ∃ ps, p = .joined .or ps := by
  obtain ⟨ps, pieces, rfl⟩ := Option.map_eq_some_iff.mp reads
  have several : 1 < (cut (some d.brackets) (· = Connective.or.token) .top ts).length :=
    one_lt_length_cut (decide_eq_true rfl) shows
  generalize cut (some d.brackets) (· = Connective.or.token) .top ts = parts at several pieces
  match parts, several with
  | first :: second :: rest, _ =>
    simp only [List.mapM_cons, Option.bind_eq_bind, Option.bind_eq_some_iff] at pieces
    obtain ⟨p, -, _, ⟨q, -, qs, -, ⟨⟩⟩, ⟨⟩⟩ := pieces
    exact ⟨_, rfl⟩

/-- In parentheses no OR shows. -/
theorem showsOr_parenthesisedIf (hidden : Hidden ts) (needed : Bool) :
    ShowsOr d (parenthesisedIf needed ts) ↔ needed = false ∧ ShowsOr d ts := by
  cases needed with
  | false => simp [parenthesisedIf]
  | true =>
    have stays : Stays (some d.brackets) .top (fun t => t ≠ word .or) (parenthesised ts) :=
      .parenthesised (fun _ => by decide) hidden
    exact iff_of_false (fun shows => stays.shows _ shows rfl) (by simp)

/-- A complete predicate is an operand, with parentheses if they are needed. -/
theorem Complete.operand (complete : Complete d piece ts p) (needed : Bool) :
    Operand d piece (parenthesisedIf needed ts) p := by
  cases needed with
  | false =>
    refine ⟨complete.back, fun free => ?_⟩
    have reads := complete.reads
    have whole : ∀ t ∈ surface (some d.brackets) .top ts,
        decide (t = Connective.or.token) = false := by
      intro t shown
      rw [decide_eq_false_iff_not]
      rintro rfl
      exact free shown
    rw [level, cut_eq_singleton whole] at reads
    obtain ⟨ps, pieces, joined⟩ := Option.map_eq_some_iff.mp reads
    obtain ⟨q, single, rfl⟩ : ∃ q, level d .and piece ts = some q ∧ [q] = ps := by
      simpa [Option.bind_eq_some_iff] using pieces
    exact level_eq_some_iff.mp (single.trans (congrArg some joined))
  | true =>
    have stays : Stays (some d.brackets) .top (fun t => t ≠ word .and) (parenthesised ts) :=
      .parenthesised (fun _ => by decide) complete.hidden
    exact ⟨stays.back, fun _ => .single stays.shows complete.enclosed⟩

/-- An OR shows in a conjunction if it shows in one of the two operands. -/
theorem Operand.showsOr_and (left : Operand d piece l p) :
    ShowsOr d (l ++ word .and :: r) ↔ ShowsOr d l ∨ ShowsOr d r := by
  have still : Nesting.after (some d.brackets) .top (word .and) = .top := rfl
  rw [ShowsOr, surface_append, left.back, surface, still, List.mem_append,
    List.mem_append, if_pos rfl]
  simp [ShowsOr]

/-- Two operands make another. -/
theorem Operand.and (left : Operand d piece l p) (right : Operand d piece r q) :
    Operand d piece (l ++ word .and :: r) (.join .and [p, q]) where
  back := by
    rw [List.foldl_append, left.back, List.foldl_cons]
    exact right.back
  reads free := by
    rw [left.showsOr_and, not_or] at free
    exact .join left.back (left.reads free.1) (right.reads free.2)

private theorem Predicate.join_join (p q : Predicate) (ps : List Predicate) :
    join c (join c [p, q] :: ps) = join c (p :: q :: ps) := by
  cases ps <;> simp [join, parts]

end

/-! ### One condition after another

Each further condition is joined to those before it by AND. What can go wrong is that an OR shows
that no parentheses hide, for then the conjunction is read as a disjunction. -/

section

variable {d : Dialect} {fragment : String → List Token} {piece : List Token → Option Predicate}

/-- An expression is written as a predicate from the first token to the last. -/
def Expr.IsComplete (d : Dialect) (fragment : String → List Token)
    (piece : List Token → Option Predicate) (e : Expr) (p : Predicate) : Prop :=
  ∃ ts, e.tokens d = .ok ts ∧ Complete d piece (seen fragment ts) p

/-- Beside AND an expression stands without parentheses although it shows an OR. -/
def Expr.ShowsOr (d : Dialect) (fragment : String → List Token) (e : Expr) : Prop :=
  needsParens .and e = false ∧ ∃ ts, e.tokens d = .ok ts ∧ Sql.ShowsOr d (seen fragment ts)

/-- A condition shows an OR just if its tokens do, after parentheses are put around it where the
tree asks for them. -/
theorem Expr.showsOr_iff {e : Expr} {ts : List Token} {p : Predicate}
    (written : e.tokens d = .ok ts) (complete : Complete d piece (seen fragment ts) p) :
    e.ShowsOr d fragment ↔
      Sql.ShowsOr d (parenthesisedIf (needsParens .and e) (seen fragment ts)) := by
  rw [showsOr_parenthesisedIf complete.hidden, Expr.ShowsOr]
  simp [written]

/-- A filter to which further predicates are added, from the left. -/
theorem exists_conjunction {e : Expr} {es : List Expr} {a : List Token} {p : Predicate}
    {ps : List Predicate} (written : e.tokens d = .ok a) (nonempty : es ≠ [])
    (operand : Operand d piece (parenthesisedIf (needsParens .and e) (seen fragment a)) p)
    (complete : List.Forall₂ (Expr.IsComplete d fragment piece) es ps) :
    ∃ w, (es.foldl Expr.and e).tokens d = .ok w ∧
      Operand d piece (seen fragment w) (.join .and (p :: ps)) ∧ (ShowsOr d (seen fragment w) ↔
        ShowsOr d (parenthesisedIf (needsParens .and e) (seen fragment a)) ∨ ∃ e' ∈ es,
        e'.ShowsOr d fragment) := by
  induction complete generalizing e a p with
  | nil => exact absurd rfl nonempty
  | @cons e' q es ps first later ih =>
    obtain ⟨b, written', complete⟩ := first
    have shows := e'.showsOr_iff written' complete
    have both : (e.and e').tokens d = .ok (parenthesisedIf (needsParens .and e) a ++
        [Token.space, word .and, Token.space] ++ parenthesisedIf (needsParens .and e') b) :=
      bind_eq_ok_iff.mpr ⟨a, written, bind_eq_ok_iff.mpr ⟨b, written', rfl⟩⟩
    have sees : seen fragment (parenthesisedIf (needsParens .and e) a ++
        [Token.space, word .and, Token.space] ++ parenthesisedIf (needsParens .and e') b) =
        parenthesisedIf (needsParens .and e) (seen fragment a) ++
          word .and :: parenthesisedIf (needsParens .and e') (seen fragment b) := by
      rw [seen_append, seen_append, seen_parenthesisedIf, seen_parenthesisedIf, List.append_assoc]
      rfl
    have next := operand.and (complete.operand (needsParens .and e'))
    cases later with
    | nil =>
      refine ⟨_, both, sees ▸ next, ?_⟩
      rw [sees, operand.showsOr_and, ← shows]
      simp
    | @cons e'' _ es _ second later =>
      obtain ⟨w, run, reads, shows'⟩ := ih both (List.cons_ne_nil e'' es) (sees ▸ next)
      refine ⟨w, run, Predicate.join_join p q _ ▸ reads, ?_⟩
      have here : parenthesisedIf (needsParens .and (e.and e')) (seen fragment
          (parenthesisedIf (needsParens .and e) a ++ [Token.space, word .and, Token.space] ++
            parenthesisedIf (needsParens .and e') b)) =
              parenthesisedIf (needsParens .and e) (seen fragment a) ++
          word .and :: parenthesisedIf (needsParens .and e') (seen fragment b) := sees
      rw [shows', here, operand.showsOr_and, ← shows]
      simp [or_assoc]

/-! ### The clause of a statement -/

/-- Added one after another to a statement without a condition, the expressions make a `WHERE`
clause of the tokens `w`, and nothing else of the statement changes. -/
structure MakeWhere (d : Dialect) (es : List Expr) (w : List Token) : Prop where
  select : ∀ s : Select, s.filter = none → ∀ ts, s.tokens d = .ok ts →
    ∃ front back, ts = front ++ back ∧
    (es.foldl Select.andWhere s).tokens d =
      .ok (front ++ ([Token.newline, word .where, Token.space] ++ w) ++ back)
  update : ∀ s : Update, s.filter = none → ∀ ts, s.tokens d = .ok ts →
    (es.foldl Update.andWhere s).tokens d =
      .ok (ts ++ ([Token.newline, word .where, Token.space] ++ w))
  delete : ∀ s : Delete, s.filter = none → ∀ ts, s.tokens d = .ok ts →
    (es.foldl Delete.andWhere s).tokens d =
      .ok (ts ++ ([Token.newline, word .where, Token.space] ++ w))

/-- Conditions that are added to a statement without one are its one condition. -/
theorem foldl_addFilter {S : Type} (filtered : Option Expr → S) (add : S → Expr → S)
    (adds : ∀ filter e, add (filtered filter) e = filtered (some (Expr.addFilter filter e)))
    (e : Expr) (es : List Expr) : (e :: es).foldl add (filtered none) =
      filtered (some (es.foldl Expr.and e)) := by
  rw [List.foldl_cons, adds, Expr.addFilter]
  induction es generalizing e with
  | nil => rfl
  | cons e' es ih =>
    rw [List.foldl_cons, adds, List.foldl_cons]
    exact ih (e.and e')

/-- The conditions of a statement are written as its one clause. -/
theorem makeWhere {e : Expr} {es : List Expr} {w : List Token}
    (written : (es.foldl Expr.and e).tokens d = .ok w) : MakeWhere d (e :: es) w where
  select s free ts rendered := by
    obtain ⟨distinct, items, source?, filter, groupBy⟩ := s
    obtain rfl : filter = none := free
    rw [foldl_addFilter (fun f => ⟨distinct, items, source?, f, groupBy⟩) Select.andWhere
      fun _ _ => rfl]
    cases items with
    | nil => cases rendered
    | cons i is =>
      obtain ⟨columns, listed, rest⟩ := bind_eq_ok_iff.mp rendered
      obtain ⟨source, sourced, rest⟩ := bind_eq_ok_iff.mp rest
      obtain ⟨_, ⟨⟩, rest⟩ := bind_eq_ok_iff.mp rest
      obtain ⟨keys, grouped, ⟨⟩⟩ := bind_eq_ok_iff.mp rest
      refine ⟨word .select :: Token.space ::
        ((if distinct then [word .distinct, Token.space] else []) ++
          commaSeparated columns ++
          (source.map fun body => Token.newline :: word .from :: Token.space :: body).getD []),
        if groupBy.isEmpty then []
          else Token.newline :: word .groupBy :: Token.space :: commaSeparated keys, ?_, ?_⟩
      · simp
      · have filtered : Expr.tokensOfOption d (some (es.foldl Expr.and e)) = .ok (some w) :=
          bind_eq_ok_iff.mpr ⟨w, written, rfl⟩
        refine bind_eq_ok_iff.mpr ⟨columns, listed, bind_eq_ok_iff.mpr ⟨source, sourced,
          bind_eq_ok_iff.mpr ⟨some w, filtered,
            bind_eq_ok_iff.mpr ⟨keys, grouped, congrArg Except.ok ?_⟩⟩⟩⟩
        simp
  update s free ts rendered := by
    obtain ⟨target, assignments, filter⟩ := s
    obtain rfl : filter = none := free
    rw [foldl_addFilter (fun f => ⟨target, assignments, f⟩) Update.andWhere fun _ _ => rfl]
    cases assignments with
    | nil => cases rendered
    | cons a as =>
      obtain ⟨sets, assigned, ⟨⟩⟩ := bind_eq_ok_iff.mp rendered
      have clause : whereTokens d (some (es.foldl Expr.and e)) =
          .ok ([Token.newline, word .where, Token.space] ++ w) :=
        bind_eq_ok_iff.mpr ⟨w, written, rfl⟩
      refine bind_eq_ok_iff.mpr ⟨sets, assigned,
        bind_eq_ok_iff.mpr ⟨_, clause, congrArg Except.ok ?_⟩⟩
      simp
  delete s free ts rendered := by
    obtain ⟨target, filter⟩ := s
    obtain rfl : filter = none := free
    rw [foldl_addFilter (fun f => ⟨target, f⟩) Delete.andWhere fun _ _ => rfl]
    cases rendered
    have clause : whereTokens d (some (es.foldl Expr.and e)) =
        .ok ([Token.newline, word .where, Token.space] ++ w) := bind_eq_ok_iff.mpr ⟨w, written, rfl⟩
    exact bind_eq_ok_iff.mpr ⟨_, clause, rfl⟩

/-- The clause is read as the conjunction of the conditions, each as a whole, exactly if there is
one condition only or none of them shows an OR without parentheses. -/
theorem filters_conjoin_iff {es : List Expr} {ps : List Predicate} (nonempty : es ≠ [])
    (complete : List.Forall₂ (Expr.IsComplete d fragment piece) es ps) :
    ∃ w, MakeWhere d es w ∧
      (level d .or (level d .and piece) (seen fragment w) = some (.join .and ps) ↔
        es.length = 1 ∨ ∀ e ∈ es, ¬ e.ShowsOr d fragment) := by
  cases complete with
  | nil => exact absurd rfl nonempty
  | @cons e p es ps first later =>
    obtain ⟨a, written, complete⟩ := first
    cases later with
    | nil => exact ⟨a, makeWhere written, iff_of_true complete.reads (.inl rfl)⟩
    | @cons e' _ es _ second later =>
      obtain ⟨w, run, operand, shows⟩ := exists_conjunction written (List.cons_ne_nil e' es)
        (complete.operand (needsParens .and e)) (.cons second later)
      have shows' : ShowsOr d (seen fragment w) ↔ ∃ f ∈ e :: e' :: es, f.ShowsOr d fragment := by
        rw [shows, ← e.showsOr_iff written complete]
        simp
      refine ⟨w, makeWhere run, ?_⟩
      constructor
      · intro reads
        refine .inr fun f member showsOr => ?_
        obtain ⟨qs, disjunction⟩ := (shows'.mpr ⟨f, member, showsOr⟩).exists_joined reads
        cases disjunction
      · rintro (single | none)
        · cases single
        · have free : ¬ ShowsOr d (seen fragment w) := by
            rw [shows']
            rintro ⟨f, member, showsOr⟩
            exact none f member showsOr
          exact level_eq_some_iff.mpr (.single (fun t member => by
            rintro rfl
            exact free member) (level_eq_some_iff.mpr (operand.reads free)))

end

/-! ### Raw fragments beside other conditions -/

/-- The token of a word of a fragment that has blanks between all of its words. -/
def wordToken (w : List Char) : Token :=
  if w = "OR".toList then word .or
  else if w = "AND".toList then word .and
  else if w = "=".toList then sign .eq
  else if w = "(".toList then sign .open
  else if w = ")".toList then sign .close
  else .raw (String.ofList w)

def wordTokens (s : String) : List Token := (Text.words s.toList).map wordToken

/-- A reader for few parentheses. -/
def readPiece : List Token → Option Predicate := unit .duckdb (readAt .duckdb 9)

/-- A raw condition and another one. -/
def rawAndThird (sql : String) : List Expr := [.raw sql, .eq (.col "id") (.literal (.int 3))]

/-- A row is of one of two regions. -/
def eitherRegion : Predicate :=
  .joined .or [.comparison [[.raw "region"]] .eq [[.raw "1"]],
    .comparison [[.raw "region"]] .eq [[.raw "2"]]]

def third : Predicate := .comparison [[.name "id"]] .eq [[.int 3]]

private theorem third_complete :
    (Expr.eq (.col "id") (.literal (.int 3))).IsComplete .duckdb wordTokens readPiece third :=
  ⟨_, rfl, .of_still (by decide), rfl, rfl, rfl⟩

/-- The region in parentheses is joined to the number as it should be. -/
theorem filters_conjoin_for_parenthesised :
    rawAndThird "( region = 1 OR region = 2 )" ≠ [] ∧
      List.Forall₂ (Expr.IsComplete .duckdb wordTokens readPiece)
        (rawAndThird "( region = 1 OR region = 2 )") [eitherRegion, third] ∧
      ∃ w, MakeWhere .duckdb (rawAndThird "( region = 1 OR region = 2 )") w ∧
        level .duckdb .or (level .duckdb .and readPiece) (seen wordTokens w) =
          some (.joined .and [eitherRegion, third]) := by
  have sees : seen wordTokens [.raw "( region = 1 OR region = 2 )"] =
    parenthesised [.raw "region", sign .eq, .raw "1",
      word .or, .raw "region", sign .eq, .raw "2"] := by
    decide +kernel
  have fragment : (Expr.raw "( region = 1 OR region = 2 )").IsComplete .duckdb wordTokens readPiece
      eitherRegion := by
    refine ⟨_, rfl, ?_⟩
    rw [sees]
    exact ⟨.parenthesised (.of_still (by decide)), rfl, rfl, rfl⟩
  have complete := List.Forall₂.cons fragment (.cons third_complete .nil)
  refine ⟨by decide, complete, ?_⟩
  obtain ⟨w, clause, reads⟩ := filters_conjoin_iff (List.cons_ne_nil _ _) complete
  refine ⟨w, clause, reads.mpr (.inr ?_)⟩
  simp only [List.forall_mem_cons, List.not_mem_nil, false_imp_iff, implies_true, and_true]
  constructor
  · rintro ⟨-, ts, ⟨⟩, shows⟩
    rw [sees] at shows
    revert shows
    unfold ShowsOr
    decide
  · rintro ⟨-, ts, ⟨⟩, shows⟩
    revert shows
    unfold ShowsOr
    decide

/-- Without parentheses the second region is joined with the other condition before the first region
is. -/
theorem not_always_conjoined :
    ¬ ∀ (es : List Expr) (ps : List Predicate), es ≠ [] →
      List.Forall₂ (Expr.IsComplete .duckdb wordTokens readPiece) es ps →
      ∃ w, MakeWhere .duckdb es w ∧
        level .duckdb .or (level .duckdb .and readPiece) (seen wordTokens w) =
          some (.join .and ps) := by
  intro always
  have sees : seen wordTokens [.raw "region = 1 OR region = 2"] =
    [.raw "region", sign .eq, .raw "1", word .or,
      .raw "region", sign .eq, .raw "2"] := by
    decide +kernel
  have fragment : (Expr.raw "region = 1 OR region = 2").IsComplete .duckdb wordTokens readPiece
      eitherRegion := by
    refine ⟨_, rfl, ?_⟩
    rw [sees]
    exact ⟨.of_still (by decide), rfl, rfl, rfl⟩
  obtain ⟨w, clause, reads⟩ :=
    always (rawAndThird "region = 1 OR region = 2") [eitherRegion, third] (by decide)
      (.cons fragment (.cons third_complete .nil))
  -- a `DELETE` with both conditions shows what the clause is
  have written := clause.delete ⟨⟨none, "orders"⟩, none⟩ rfl _ rfl
  obtain rfl : [.raw "region = 1 OR region = 2", .space, word .and, .space, .name "id", .space,
    sign .eq, .space,
      .int 3] = w := List.append_cancel_left (List.append_cancel_left (Except.ok.inj written))
  have shows :
    seen wordTokens [.raw "region = 1 OR region = 2", .space, word .and, .space, .name "id", .space,
      sign .eq, .space, .int 3] =
        [.raw "region", sign .eq, .raw "1", word .or, .raw "region", sign .eq, .raw "2",
      word .and, .name "id", sign .eq, .int 3] := by
    decide +kernel
  have widened : level .duckdb .or (level .duckdb .and readPiece)
    [.raw "region", sign .eq, .raw "1", word .or,
      .raw "region", sign .eq, .raw "2", word .and, .name "id", sign .eq, .int 3] =
      some (.joined .or [.comparison [[.raw "region"]] .eq [[.raw "1"]],
        .joined .and [.comparison [[.raw "region"]] .eq [[.raw "2"]], third]]) := rfl
  rw [shows, widened] at reads
  cases reads

end Warehouse.Sql
