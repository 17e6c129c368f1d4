/-
Module: Warehouse.Proofs.Sql.Scanning
Purpose: The two passes over finished SQL against each other. The one collects the placeholders of a
  text, the other puts values in their place. Both see the markers that one finds from the left,
  each as early as it begins and none inside another, so that they agree on every text: on the
  markers, on whether they succeed, and, with the cutoff as the one value that may be missing, on
  what they fail at.
Trusted boundary: none
Main exports: Found, Scanned, gathered, scanned_iff, Found.fault?, refilled,
  scan_and_substitute_agree
-/
import Warehouse.Proofs.Results
import Warehouse.Proofs.Sql.Markers

namespace Warehouse.Sql

/-! ### Markers from the left

A scan looks for a marker at every place, from the left. Where one begins it goes on behind it, so
markers do not overlap, and what was found is determined by the text. -/

/-- A marker stands at the front of a text. -/
def MarkerAt (s : List Char) : Prop := ∃ source name, Marks source name ∧ source <+: s

/-- A marker of a text, with the characters between it and the marker before. -/
structure Found where
  before : List Char
  source : List Char
  name : List Char
deriving DecidableEq, Repr

/-- The markers that are found in a text from the left, and what is behind the last. No marker
begins before the first one, and behind that the search begins anew. -/
inductive Scanned : List Char → List Found → List Char → Prop where
  | free {tail : List Char} (none : ∀ t, t <:+ tail → ¬ MarkerAt t) : Scanned tail [] tail
  | marker {before source name rest tail : List Char} {found : List Found}
      (first : ∀ t, t <:+ before → t ≠ [] → ¬ MarkerAt (t ++ (source ++ rest)))
      (marks : Marks source name) (later : Scanned rest found tail) :
      Scanned (before ++ (source ++ rest)) (⟨before, source, name⟩ :: found) tail

section

variable {s rest tail : List Char} {found : List Found}

/-- The search finds no marker just where none begins. -/
theorem marker?_eq_none_iff : marker? s = none ↔ ¬ MarkerAt s := by
  rw [Option.eq_none_iff_forall_ne_some]
  constructor
  · rintro none ⟨source, name, marks, rest, rfl⟩
    exact none (name, source.length) (marker?_append marks rest)
  · rintro none ⟨name, n⟩ found
    obtain ⟨source, rest, rfl, marks, -⟩ := marker?_eq_some_iff.mp found
    exact none ⟨source, name, marks, List.prefix_append source rest⟩

/-- The pieces of a marker and of what stands before it. -/
def Found.pieces (m : Found) : List Piece := m.before.map Piece.char ++ [.marker m.source m.name]

/-- Characters at which no marker begins stand for themselves. -/
theorem pieces_append_of_free (none : ∀ t, t <:+ s → t ≠ [] → ¬ MarkerAt (t ++ rest)) :
    pieces (s ++ rest) = s.map Piece.char ++ pieces rest := by
  induction s with
  | nil => rfl
  | cons c s ih =>
    have plain : marker? (c :: (s ++ rest)) = Option.none :=
      marker?_eq_none_iff.mpr (none (c :: s) List.suffix_rfl (List.cons_ne_nil c s))
    rw [List.cons_append, pieces_cons_of_none plain,
      ih fun t inside => none t (inside.trans (List.suffix_cons c s))]
    rfl

/-- The scanner cuts a text at the markers that are found in it. -/
theorem Scanned.pieces (scanned : Scanned s found tail) :
    Sql.pieces s = found.flatMap Found.pieces ++ tail.map Piece.char := by
  induction scanned with
  | @free tail none =>
    have cut : Sql.pieces (tail ++ []) = tail.map Piece.char ++ Sql.pieces [] :=
      pieces_append_of_free fun t inside _ => by
        rw [List.append_nil]
        exact none t inside
    rw [List.append_nil] at cut
    rw [cut]
    exact List.append_nil _
  | @marker before source name rest tail found first marks _ ih =>
    rw [pieces_append_of_free first, pieces_marker marks, ih]
    simp [Found.pieces]

/-- Every text has its markers. -/
theorem exists_scanned (s : List Char) : ∃ found tail, Scanned s found tail := by
  -- by the length, since behind a marker the search begins anew
  induction length : s.length using Nat.strong_induction_on generalizing s with
  | _ n ih =>
    cases s with
    | nil =>
      refine ⟨[], [], .free fun t inside => ?_⟩
      obtain rfl : t = [] := List.suffix_nil.mp inside
      exact marker?_eq_none_iff.mp rfl
    | cons c s =>
      by_cases front : MarkerAt (c :: s)
      · obtain ⟨source, name, marks, rest, whole⟩ := front
        have less : rest.length < n := by
          obtain ⟨body, rfl, -⟩ := marks.exists_body
          rw [← length, ← whole]
          simp
          omega
        obtain ⟨found, tail, scanned⟩ := ih _ less rest rfl
        have first : ∀ t, t <:+ [] → t ≠ [] → ¬ MarkerAt (t ++ (source ++ rest)) :=
          fun t inside filled => absurd (List.suffix_nil.mp inside) filled
        exact ⟨⟨[], source, name⟩ :: found, tail, whole ▸ .marker first marks scanned⟩
      · obtain ⟨found, tail, scanned⟩ := ih s.length (by simp [← length]) s rfl
        cases scanned with
        | free none =>
          refine ⟨[], c :: s, .free fun t inside => ?_⟩
          rcases List.suffix_cons_iff.mp inside with rfl | inside
          · exact front
          · exact none t inside
        | @marker before source name rest _ found first marks later =>
          have first' : ∀ t, t <:+ c :: before → t ≠ [] → ¬ MarkerAt (t ++ (source ++ rest)) := by
            intro t inside filled
            rcases List.suffix_cons_iff.mp inside with rfl | inside
            · exact front
            · exact first t inside filled
          exact ⟨⟨c :: before, source, name⟩ :: found, tail, .marker first' marks later⟩

/-- Puts single characters together, up to the next marker and behind the last one. -/
def gathered : List Piece → List Found × List Char
  | [] => ([], [])
  | .marker source name :: rest => (⟨[], source, name⟩ :: (gathered rest).1, (gathered rest).2)
  | .char c :: rest =>
    match gathered rest with
    | ([], tail) => ([], c :: tail)
    | (m :: found, tail) => ({ m with before := c :: m.before } :: found, tail)

private theorem gathered_chars (s : List Char) : gathered (s.map Piece.char) = ([], s) := by
  induction s with
  | nil => rfl
  | cons c s ih => rw [List.map_cons, gathered, ih]

private theorem gathered_found (m : Found) (rest : List Piece) :
    gathered (m.pieces ++ rest) = (m :: (gathered rest).1, (gathered rest).2) := by
  obtain ⟨before, source, name⟩ := m
  rw [Found.pieces]
  induction before with
  | nil => rfl
  | cons c before ih =>
    rw [List.map_cons, List.cons_append, List.cons_append, gathered, ih]

/-- A text has its markers in one way only, which is how the scanner cuts it. -/
theorem scanned_iff : Scanned s found tail ↔ gathered (Sql.pieces s) = (found, tail) := by
  have regained {found : List Found} {tail : List Char} (scanned : Scanned s found tail) :
      gathered (Sql.pieces s) = (found, tail) := by
    rw [scanned.pieces]
    clear scanned
    induction found with
    | nil => exact gathered_chars tail
    | cons m found ih => rw [List.flatMap_cons, List.append_assoc, gathered_found, ih]
  refine ⟨regained, fun same => ?_⟩
  obtain ⟨found', tail', scanned⟩ := exists_scanned s
  obtain ⟨rfl, rfl⟩ := Prod.mk.inj ((regained scanned).symm.trans same)
  exact scanned

end

/-- Of three braces the last two begin the marker. -/
example : gathered (pieces "\x7b\x7b\x7b load_run_id\x7d\x7d\x7d".toList) =
    ([⟨['{'], "\x7b\x7b load_run_id\x7d\x7d".toList, "load_run_id".toList⟩], ['}']) := by
  decide +kernel

/-! ### Both passes by the markers

One pass names the placeholders, the other puts their values in. Both go by the same markers, so
each is told by the markers alone. -/

section

variable {d : Dialect} {values : RuntimeValues} {found : List Found} {tail : List Char}

/-- What is wrong with a marker: it names nothing, or the cutoff where there is none. -/
def Found.fault? (values : RuntimeValues) (m : Found) : Option TemplateError :=
  match Placeholder.ofName? (String.ofList m.name) with
  | none => some (.unknown (String.ofList m.name))
  | some p => if p = .deltaCutoff ∧ values.deltaCutoff = none then some .missingCutoff else none

/-- A text with other texts in the place of its markers. -/
def refilled : List Found → List String → List Char → List Char
  | m :: found, text :: texts, tail => m.before ++ (text.toList ++ refilled found texts tail)
  | _, _, tail => tail

/-- The text for a marker. -/
def Found.resolve (d : Dialect) (values : RuntimeValues) (m : Found) :
    Except TemplateError String := do
  values.resolve d (← placeholderNamed m.name)

private theorem RuntimeValues.resolve_eq_error_iff {p : Placeholder} {e : TemplateError} :
    values.resolve d p = .error e ↔ (p = .deltaCutoff ∧ values.deltaCutoff = none) ∧
    e = .missingCutoff := by
  rw [resolve_eq, ← literal?_eq_none_iff (d := d)]
  cases values.literal? d p <;> simp [eq_comm]

/-- A marker has no value just if it is at fault. -/
theorem Found.resolve_eq_error_iff {m : Found} {e : TemplateError} :
    m.resolve d values = .error e ↔ m.fault? values = some e := by
  rw [Found.resolve, Found.fault?, placeholderNamed, bind_eq_error_iff]
  cases Placeholder.ofName? (String.ofList m.name) with
  | none => simp
  | some p =>
    simp only [reduceCtorEq, false_or, Except.ok.injEq, exists_eq_left',
      RuntimeValues.resolve_eq_error_iff]
    split
    · next missing => simp [missing, eq_comm]
    · next known => simp [known]

private theorem RuntimeValues.exists_resolve_iff {p : Placeholder} :
    (∃ text, values.resolve d p = .ok text) ↔ (p = .deltaCutoff → values.deltaCutoff ≠ none) := by
  rw [resolve_eq]
  cases value : values.literal? d p with
  | none =>
    obtain ⟨rfl, missing⟩ := literal?_eq_none_iff.mp value
    simp [missing]
  | some text =>
    have known : ¬ (p = .deltaCutoff ∧ values.deltaCutoff = none) := fun missing => by
      rw [literal?_eq_none_iff.mpr missing] at value
      cases value
    simpa using known

private theorem placeholdersOf_chars (s : List Char) (rest : List Piece) :
    placeholdersOf (s.map Piece.char ++ rest) = placeholdersOf rest := by
  induction s with
  | nil => rfl
  | cons c s ih => exact ih

/-- The placeholders are those that the markers name, if each names one. -/
theorem placeholdersOf_found :
    placeholdersOf (found.flatMap Found.pieces ++ tail.map Piece.char) =
      found.mapM fun m => placeholderNamed m.name := by
  induction found with
  | nil =>
    have plain := placeholdersOf_chars tail []
    rw [List.append_nil] at plain
    exact plain
  | cons m found ih =>
    rw [List.flatMap_cons, Found.pieces, List.append_assoc, List.append_assoc, placeholdersOf_chars,
      List.mapM_cons, ← ih]
    rfl

/-- What comes out is the text between the markers with the values in their place. -/
theorem substitutePieces_found :
    substitutePieces d values (found.flatMap Found.pieces ++ tail.map Piece.char) =
      (found.mapM (Found.resolve d values)).map fun texts => refilled found texts tail := by
  induction found with
  | nil =>
    have plain := substitutePieces_append d values tail []
    rw [List.append_nil] at plain
    rw [List.flatMap_nil, List.nil_append, plain]
    simp [substitutePieces, Except.map, refilled, pure, Except.pure]
  | cons m found ih =>
    rw [List.flatMap_cons, Found.pieces, List.append_assoc, List.append_assoc,
      substitutePieces_append,
      List.singleton_append, substitutePieces, ih, List.mapM_cons, Found.resolve]
    cases placeholderNamed m.name with
    | error e => rfl
    | ok p =>
      simp only [bind, Except.bind]
      cases values.resolve d p with
      | error e => rfl
      | ok text => cases found.mapM (Found.resolve d values) <;> rfl

/-- The placeholders are told in their own order and each once. -/
theorem placeholdersIn_eq_ok_iff {sql : String} {ps : List Placeholder} :
    placeholdersIn sql = .ok ps ↔
      ∃ matched, placeholdersOf (pieces sql.toList) = .ok matched ∧
        Placeholder.all.filter matched.contains = ps := by
  rw [placeholdersIn, bind_eq_ok_iff]
  simp [pure, Except.pure]

private theorem mem_of_placeholdersIn {sql : String} {ps matched : List Placeholder}
    {p : Placeholder} (scan : placeholdersIn sql = .ok ps)
    (found : placeholdersOf (pieces sql.toList) = .ok matched) :
    p ∈ ps ↔ p ∈ matched := by
  obtain ⟨matched', found', rfl⟩ := placeholdersIn_eq_ok_iff.mp scan
  obtain rfl := Except.ok.inj (found.symm.trans found')
  have known : p ∈ Placeholder.all := by cases p <;> decide
  simp [known]

/-- Values are put in just if every marker has one. -/
theorem substitute_eq_ok_iff {sql out : String} (scanned : Scanned sql.toList found tail) :
    substitute sql d values = .ok out ↔
      ∃ texts, found.mapM (Found.resolve d values) = .ok texts ∧
        out.toList = refilled found texts tail := by
  rw [substitute, scanned.pieces, substitutePieces_found, bind_eq_ok_iff]
  constructor
  · rintro ⟨s, refill, ⟨⟩⟩
    obtain ⟨texts, each, rfl⟩ := map_eq_ok_iff.mp refill
    exact ⟨texts, each, String.toList_ofList⟩
  · rintro ⟨texts, each, same⟩
    refine ⟨_, map_eq_ok_iff.mpr ⟨texts, each, rfl⟩, ?_⟩
    rw [← same, String.ofList_toList]
    rfl

/-- Otherwise the fault is that of the first marker that has none. -/
theorem substitute_eq_error_iff {sql : String} {e : TemplateError}
    (scanned : Scanned sql.toList found tail) :
    substitute sql d values = .error e ↔ found.findSome? (Found.fault? values) = some e := by
  rw [substitute, scanned.pieces, substitutePieces_found, bind_eq_error_iff, map_eq_error_iff,
    mapM_eq_error_iff fun _ _ => Found.resolve_eq_error_iff]
  simp [pure, Except.pure]

/-- The texts for the markers are those for their placeholders. -/
theorem exists_matched {texts : List String}
    (each : found.mapM (Found.resolve d values) = .ok texts) :
    ∃ matched, List.Forall₂ (fun m p => placeholderNamed m.name = .ok p) found matched ∧
      List.Forall₂ (fun p text => values.resolve d p = .ok text) matched texts := by
  have both := mapM_eq_ok_iff.mp each
  clear each
  induction both with
  | nil => exact ⟨[], .nil, .nil⟩
  | cons first _ ih =>
    obtain ⟨p, named, resolved⟩ := bind_eq_ok_iff.mp first
    obtain ⟨matched, names, values⟩ := ih
    exact ⟨p :: matched, .cons named names, .cons resolved values⟩

end

/-- The scan for placeholders and the substitution agree on every text. There is one way to find the
markers of a text from the left. A text can be completed exactly if the scan succeeds and, where it
finds the cutoff, there is one. If it cannot, the error is that of the first marker from the left
with which something is wrong. If it can, each marker that the scan matched is replaced by the text
for its placeholder, and nothing else is changed. -/
theorem scan_and_substitute_agree (sql : String) (d : Dialect) (values : RuntimeValues) :
    ∃ found tail,
      (∀ found' tail', Scanned sql.toList found' tail' ↔ found' = found ∧ tail' = tail) ∧
      ((∃ out, substitute sql d values = .ok out) ↔
        ∃ ps, placeholdersIn sql = .ok ps ∧ (.deltaCutoff ∉ ps ∨ values.deltaCutoff ≠ none)) ∧
      (∀ e, substitute sql d values = .error e ↔ found.findSome? (Found.fault? values) = some e) ∧
      ∀ out, substitute sql d values = .ok out →
        ∃ matched texts, placeholdersOf (pieces sql.toList) = .ok matched ∧
          List.Forall₂ (fun m p => placeholderNamed m.name = .ok p) found matched ∧
          List.Forall₂ (fun p text => values.resolve d p = .ok text) matched texts ∧
          out.toList = refilled found texts tail := by
  obtain ⟨found, tail, scanned⟩ := exists_scanned sql.toList
  have same := scanned_iff.mp scanned
  have scan : placeholdersOf (pieces sql.toList) = found.mapM fun m => placeholderNamed m.name := by
    rw [scanned.pieces, placeholdersOf_found]
  have completed {out : String} (done : substitute sql d values = .ok out) :
      ∃ matched texts, placeholdersOf (pieces sql.toList) = .ok matched ∧
        List.Forall₂ (fun m p => placeholderNamed m.name = .ok p) found matched ∧
        List.Forall₂ (fun p text => values.resolve d p = .ok text) matched texts ∧
        out.toList = refilled found texts tail := by
    obtain ⟨texts, each, refill⟩ := (substitute_eq_ok_iff scanned).mp done
    obtain ⟨matched, named, resolved⟩ := exists_matched each
    exact ⟨matched, texts, scan.trans (mapM_eq_ok_iff.mpr named), named, resolved, refill⟩
  refine ⟨found, tail, fun found' tail' => ?_, ⟨?_, ?_⟩, fun e => substitute_eq_error_iff scanned,
    fun out => completed⟩
  · rw [scanned_iff, same, Prod.mk.injEq, eq_comm, @eq_comm _ tail]
  · rintro ⟨out, done⟩
    obtain ⟨matched, texts, placeholders, -, resolved, -⟩ := completed done
    refine ⟨_, placeholdersIn_eq_ok_iff.mpr ⟨matched, placeholders, rfl⟩, ?_⟩
    rw [or_iff_not_imp_left, not_not, List.mem_filter]
    rintro ⟨-, holds⟩
    obtain ⟨text, -, resolves⟩ := exists_of_mem_right resolved.flip (by simpa using holds)
    exact RuntimeValues.exists_resolve_iff.mp ⟨text, resolves⟩ rfl
  · rintro ⟨ps, placeholders, cutoff⟩
    obtain ⟨matched, names, -⟩ := placeholdersIn_eq_ok_iff.mp placeholders
    have named := mapM_eq_ok_iff.mp (scan.symm.trans names)
    obtain ⟨texts, each⟩ := exists_mapM_eq_ok (Found.resolve d values) found fun m member => by
      obtain ⟨p, holds, name⟩ := exists_of_mem_right named.flip member
      have known : p = .deltaCutoff → values.deltaCutoff ≠ none := by
        rintro rfl
        exact cutoff.resolve_left
          (not_not.mpr ((mem_of_placeholdersIn placeholders names).mpr holds))
      obtain ⟨text, resolves⟩ := (RuntimeValues.exists_resolve_iff (d := d)).mpr known
      exact ⟨text, bind_eq_ok_iff.mpr ⟨p, name, resolves⟩⟩
    refine ⟨String.ofList (refilled found texts tail),
      (substitute_eq_ok_iff scanned).mpr ⟨texts, each, ?_⟩⟩
    exact String.toList_ofList

end Warehouse.Sql
