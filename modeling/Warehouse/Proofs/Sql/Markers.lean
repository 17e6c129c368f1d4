/-
Module: Warehouse.Proofs.Sql.Markers
Purpose: Where the scanner of finished SQL finds markers: wherever one is written. A marker has two
  braces at either end and none between them, so a text can be cut behind two closing braces, behind
  a character that no marker has, and in front of blanks at its end, without cutting a marker apart.
Trusted boundary: none
Main exports: marker?_eq_some_iff, Marks.exists_body, pieces_append_of_uncut,
  pieces_append_of_foreign, pieces_append_of_closed, pieces_append_of_blank, source_pieces,
  markersIn, markersIn_trim
-/
import Mathlib.Data.List.TakeWhile
import Mathlib.Tactic.Conv
import Warehouse.Proofs.Sql.Substitution

namespace Warehouse.Sql

/-! ### What markers are made of -/

/-- A character that can stand between the braces of a marker. -/
def isMarkerChar (c : Char) : Bool := Text.isBlank c || isMarkerNameChar c

section

variable {s source name rest : List Char} {n : Nat}

/-- Between the braces of a marker there are blanks and its name. -/
theorem Marks.exists_body (marks : Marks source name) :
    ∃ body, source = '{' :: '{' :: (body ++ ['}', '}']) ∧ ∀ c ∈ body, isMarkerChar c = true := by
  obtain ⟨left, right, rfl, blank, blank'⟩ := marks.written
  refine ⟨left ++ (name ++ right), by simp, ?_⟩
  intro c member
  rw [isMarkerChar, Bool.or_eq_true]
  rcases List.mem_append.mp member with inLeft | member
  · exact .inl (blank c inLeft)
  · rcases List.mem_append.mp member with inName | inRight
    · exact .inr (marks.named c inName)
    · exact .inl (blank' c inRight)

/-- What the scanner finds at the front of a text is a marker. -/
theorem exists_marks_of_marker? (found : marker? s = some (name, n)) :
    ∃ source rest, s = source ++ rest ∧ Marks source name ∧ n = source.length := by
  unfold marker? at found
  split at found
  swap
  · cases found
  next inside =>
  simp only at found
  split at found
  swap
  · cases found
  next c behind first closed =>
  split at found
  · cases found
  next noDigit =>
  obtain ⟨rfl, rfl⟩ := Prod.mk.inj (Option.some.inj found)
  generalize taken : (Text.trimStart inside).takeWhile isMarkerNameChar = name at first closed
  generalize right : ((Text.trimStart inside).drop name.length).takeWhile Text.isBlank = blanks
  have behindName : (Text.trimStart inside).drop name.length = blanks ++ '}' :: '}' :: behind := by
    rw [← right, ← closed]
    exact List.takeWhile_append_dropWhile.symm
  have cut : inside = inside.takeWhile Text.isBlank ++
      (name ++ (blanks ++ '}' :: '}' :: behind)) := by
    have prefixed : name ++ (Text.trimStart inside).drop name.length = Text.trimStart inside := by
      rw [← taken]
      exact List.prefix_iff_eq_append.mp (List.takeWhile_prefix _)
    rw [← behindName, prefixed]
    exact List.takeWhile_append_dropWhile.symm
  refine ⟨'{' :: '{' :: (inside.takeWhile Text.isBlank ++ (name ++ (blanks ++ ['}', '}']))),
    behind, ?_, ?_, ?_⟩
  · conv_lhs => rw [cut]
    simp
  · refine ⟨⟨_, blanks, rfl, fun c member => List.mem_takeWhile_imp member, fun c member => ?_⟩,
      ?_, ?_, ?_⟩
    · exact List.mem_takeWhile_imp (right ▸ member)
    · rintro rfl
      cases first
    · intro d head
      rw [first] at head
      cases head
      simpa using noDigit
    · exact fun c member => List.mem_takeWhile_imp (taken ▸ member)
  · have length := congrArg List.length cut
    simp only [List.length_append, List.length_cons, List.length_nil] at length ⊢
    omega

/-- The scanner finds a marker at the front of a text wherever one is written there. -/
theorem marker?_eq_some_iff : marker? s = some (name, n) ↔
    ∃ source rest, s = source ++ rest ∧ Marks source name ∧ n = source.length := by
  refine ⟨exists_marks_of_marker?, ?_⟩
  rintro ⟨source, rest, rfl, marks, rfl⟩
  exact marker?_append marks rest

/-! ### Cutting a text -/

/-- Where no marker begins, a character stands for itself. -/
theorem pieces_cons_of_none {c : Char} (none : marker? (c :: s) = none) :
    pieces (c :: s) = .char c :: pieces s := by
  rw [pieces, piecesFrom, none]
  rfl

/-- A text can be cut where no marker lies across the cut. -/
theorem pieces_append_of_uncut {s rest : List Char} (uncut : ∀ begun ended name, begun ≠ [] →
    begun <:+ s → ended <+: rest → Marks (begun ++ ended) name → ended = []) :
    pieces (s ++ rest) = pieces s ++ pieces rest := by
  induction length : s.length using Nat.strong_induction_on generalizing s with
  | _ n ih =>
    cases s with
    | nil => rfl
    | cons c s =>
      have shorter {s' : List Char} (part : s' <:+ c :: s) (less : s'.length < n) :
          pieces (s' ++ rest) = pieces s' ++ pieces rest :=
        ih _ less (fun begun ended name filled suffix =>
          uncut begun ended name filled (suffix.trans part)) rfl
      cases found : marker? (c :: s ++ rest) with
      | none =>
        have none : marker? (c :: s) = none := by
          cases before : marker? (c :: s) with
          | none => rfl
          | some found' =>
            obtain ⟨source, behind, whole, marks, -⟩ := marker?_eq_some_iff.mp before
            rw [whole, List.append_assoc, marker?_append marks] at found
            cases found
        rw [List.cons_append] at found ⊢
        rw [pieces_cons_of_none found, pieces_cons_of_none none, List.cons_append,
          shorter (List.suffix_cons c s) (by simp [← length])]
      | some found' =>
        obtain ⟨source, behind, whole, marks, -⟩ := marker?_eq_some_iff.mp found
        have inside : ∃ after, c :: s = source ++ after := by
          rcases List.append_eq_append_iff.mp whole with ⟨ended, longer, front⟩ | ⟨after, same, -⟩
          · obtain rfl :=
              uncut (c :: s) ended _ (by simp) List.suffix_rfl ⟨behind, front.symm⟩ (longer ▸ marks)
            exact ⟨[], by rw [longer]; simp⟩
          · exact ⟨after, same⟩
        obtain ⟨after, same⟩ := inside
        rw [same, List.append_assoc, pieces_marker marks, pieces_marker marks, List.cons_append]
        have less : after.length < n := by
          have filled := marks.exists_body
          obtain ⟨body, rfl, -⟩ := filled
          rw [← length, same]
          simp
          omega
        rw [shorter ⟨source, same.symm⟩ less]

/-- A text can be cut behind a character that no marker has. -/
theorem pieces_append_of_foreign {c : Char} (foreign : isMarkerChar c = false) (noOpening : c ≠ '{')
    (noClosing : c ≠ '}') (s rest : List Char) :
    pieces ((s ++ [c]) ++ rest) = pieces (s ++ [c]) ++ pieces rest := by
  refine pieces_append_of_uncut fun begun ended name filled suffix _ marks => ?_
  have has : c ∈ begun ++ ended := by
    rcases List.suffix_concat_iff.mp suffix with rfl | ⟨front, rfl, -⟩
    · exact absurd rfl filled
    · simp
  obtain ⟨body, same, chars⟩ := marks.exists_body
  rw [same] at has
  simp only [List.mem_cons, List.mem_append, noOpening, noClosing, false_or, List.not_mem_nil,
    or_false] at has
  rw [chars c has] at foreign
  cases foreign

/-- A marker ends at the first two closing braces. -/
theorem Marks.eq_of_closed {front ended : List Char}
    (marks : Marks (front ++ '}' :: '}' :: ended) name) : ended = [] := by
  obtain ⟨body, same, chars⟩ := marks.exists_body
  have noClosing : '}' ∉ '{' :: '{' :: body := by
    simp only [List.mem_cons, not_or]
    refine ⟨by decide, by decide, fun inside => ?_⟩
    exact absurd (chars _ inside) (by decide)
  have cut : front ++ ('}' :: '}' :: ended) = ('{' :: '{' :: body) ++ ['}', '}'] := by
    rw [same]; simp
  rcases List.append_eq_append_iff.mp cut with ⟨overlap, longer, behind⟩ | ⟨overlap, -, behind⟩
  · cases overlap with
    | nil => simpa using behind
    | cons c overlap =>
      obtain ⟨rfl, -⟩ := List.cons.inj behind
      exact absurd (by rw [longer]; simp) noClosing
  · have length := congrArg List.length behind
    simp only [List.length_append, List.length_cons, List.length_nil] at length
    exact List.eq_nil_of_length_eq_zero (by omega)

/-- A marker does not reach over two closing braces. -/
theorem Marks.isPrefix_of_closed {source rest text inside : List Char} (marks : Marks source name)
    (same : inside ++ '}' :: '}' :: text = source ++ rest) : source <+: inside ++ ['}', '}'] := by
  have shape : inside ++ '}' :: '}' :: text = (inside ++ ['}', '}']) ++ text := by simp
  rcases List.append_eq_append_iff.mp (shape.symm.trans same) with
    ⟨more, longer, -⟩ | ⟨more, longer, -⟩
  · have closed : source = inside ++ '}' :: '}' :: more := by
      rw [longer]
      simp
    rw [closed] at marks
    obtain rfl := marks.eq_of_closed
    exact ⟨[], by rw [List.append_nil, closed]⟩
  · exact ⟨more, longer.symm⟩

/-- A text can be cut behind two closing braces. -/
theorem pieces_append_of_closed (s rest : List Char) :
    pieces ((s ++ ['}', '}']) ++ rest) = pieces (s ++ ['}', '}']) ++ pieces rest := by
  refine pieces_append_of_uncut fun begun ended name filled suffix _ marks => ?_
  have split : s ++ ['}', '}'] = (s ++ ['}']) ++ ['}'] := by simp
  rw [split] at suffix
  rcases List.suffix_concat_iff.mp suffix with rfl | ⟨front, rfl, suffix'⟩
  · exact absurd rfl filled
  rcases List.suffix_concat_iff.mp suffix' with rfl | ⟨front, rfl, -⟩
  · obtain ⟨body, same, -⟩ := marks.exists_body
    cases same
  · have joined : front ++ ['}'] ++ ['}'] ++ ended = front ++ '}' :: '}' :: ended := by simp
    rw [joined] at marks
    exact marks.eq_of_closed

/-- A text can be cut in front of blanks at its end. -/
theorem pieces_append_of_blank (s : List Char) {rest : List Char}
    (blank : ∀ c ∈ rest, Text.isBlank c = true) :
    pieces (s ++ rest) = pieces s ++ rest.map Piece.char := by
  have closed : '{' ∉ rest := fun member => absurd (blank _ member) (by decide)
  have plain : pieces rest = rest.map Piece.char := by
    have cut := pieces_append closed []
    rw [List.append_nil] at cut
    rw [cut, pieces, piecesFrom, List.append_nil]
  rw [← plain]
  refine pieces_append_of_uncut fun begun ended name _ _ front marks => ?_
  by_contra filled
  have last : ended.getLast? = some '}' := by
    obtain ⟨body, same, -⟩ := marks.exists_body
    rw [← List.getLast?_append_of_ne_nil begun filled, same]
    simp [List.getLast?_cons, List.getLast?_append]
  exact absurd (blank _ (front.subset (List.mem_of_getLast? last))) (by decide)

/-- No character of a text is lost. -/
theorem source_pieces (s : List Char) : (pieces s).flatMap Piece.source = s := by
  induction length : s.length using Nat.strong_induction_on generalizing s with
  | _ n ih =>
    cases s with
    | nil => rfl
    | cons c s =>
      cases found : marker? (c :: s) with
      | none =>
        rw [pieces_cons_of_none found, List.flatMap_cons, ih _ (by simp [← length]) s rfl]
        rfl
      | some found' =>
        obtain ⟨source, rest, whole, marks, -⟩ := marker?_eq_some_iff.mp found
        have less : rest.length < n := by
          obtain ⟨body, rfl, -⟩ := marks.exists_body
          rw [← length, whole]
          simp
          omega
        rw [whole, pieces_marker marks, List.flatMap_cons, ih _ less rest rfl]
        rfl

end

/-! ### Markers -/

/-- A marker with its name, if a part of a text is one. -/
def Piece.marker? : Piece → Option (List Char × List Char)
  | .marker source name => some (source, name)
  | .char _ => none

/-- The markers of a text, each with its name, in order. -/
def markersIn (s : List Char) : List (List Char × List Char) := (pieces s).filterMap Piece.marker?

theorem filterMap_marker?_char (s : List Char) :
    (s.map Piece.char).filterMap Piece.marker? = [] := by
  simp [List.filterMap_map, Function.comp_def, Piece.marker?]

/-- A marker at the front of a text is the first that is found. -/
theorem markersIn_marker {source name : List Char} (marks : Marks source name) (rest : List Char) :
    markersIn (source ++ rest) = (source, name) :: markersIn rest := by
  rw [markersIn, pieces_marker marks]
  rfl

/-- Characters that stand for themselves are no markers. -/
theorem markersIn_append_of_plain {s : List Char} (closed : '{' ∉ s) (rest : List Char) :
    markersIn (s ++ rest) = markersIn rest := by
  rw [markersIn, pieces_append closed, List.filterMap_append, filterMap_marker?_char,
    List.nil_append]
  rfl

/-- Blanks at the ends of a text belong to no marker. -/
theorem markersIn_trim (s : List Char) : markersIn (Text.trim s) = markersIn s := by
  obtain ⟨left, start, blank⟩ : ∃ left, s = left ++ Text.trimStart s ∧ ∀ c ∈ left,
      Text.isBlank c = true :=
    ⟨s.takeWhile Text.isBlank, List.takeWhile_append_dropWhile.symm,
      fun c member => List.mem_takeWhile_imp member⟩
  obtain ⟨right, ends, blank'⟩ : ∃ right, Text.trimStart s = Text.trim s ++ right ∧
      ∀ c ∈ right, Text.isBlank c = true := by
    refine ⟨((Text.trimStart s).reverse.takeWhile Text.isBlank).reverse, ?_, fun c member => ?_⟩
    · rw [Text.trim, Text.trimEnd, ← List.reverse_append, List.takeWhile_append_dropWhile,
        List.reverse_reverse]
    · exact List.mem_takeWhile_imp (List.mem_reverse.mp member)
  conv_rhs => rw [start, ends]
  rw [markersIn_append_of_plain fun member => absurd (blank _ member) (by decide)]
  rw [markersIn, markersIn, pieces_append_of_blank _ blank', List.filterMap_append,
    filterMap_marker?_char, List.append_nil]

end Warehouse.Sql
