/-
Module: Warehouse.Proofs.Sql.CanonicalTypes
Purpose: How a type is spelled. A type is read off the words of its spelling in small letters, so
  that neither the case of letters nor the blanks around and between words matter; and the spelling
  that is written for a type is read as that type.
Trusted boundary: none
Main exports: Respelled, DataType.normalise_eq, DataType.normalise_respelled,
  DataType.parse?_display, DataType.spelling_canonical
-/
import Warehouse.Proofs.Sql.TypeSpelling
import Warehouse.Proofs.Text.Words

namespace Warehouse.Sql

/-- Texts that come from another by changing the case of ASCII letters, by blanks at either end, and
by making runs of blanks longer or exchanging them for others. -/
inductive Respelled : List Char → List Char → Prop where
  | letters {s t : List Char} (same : s.map Char.toLower = t.map Char.toLower) : Respelled s t
  | ends {left right : List Char} (blank : ∀ c ∈ left, Text.isBlank c = true)
      (blank' : ∀ c ∈ right, Text.isBlank c = true) (s : List Char) :
      Respelled s (left ++ (s ++ right))
  | between {run run' : List Char} (filled : run ≠ []) (blank : ∀ c ∈ run, Text.isBlank c = true)
      (filled' : run' ≠ []) (blank' : ∀ c ∈ run', Text.isBlank c = true) (front back : List Char) :
      Respelled (front ++ (run ++ back)) (front ++ (run' ++ back))
  | trans {s t u : List Char} (first : Respelled s t) (second : Respelled t u) : Respelled s u

namespace DataType

open Text (spaced)

/-- Normalising puts the words of a spelling, in small letters, one space apart. -/
theorem normalise_eq (s : List Char) :
    normalise s = spaced ((Text.words s).map Text.lowerChars) := by
  rw [normalise, Text.words_lowerChars, Text.words_trim]
  rfl

/-- The canonical text of a type does not depend on the case of its letters. -/
theorem normalise_map_toLower (s : List Char) : normalise (s.map Char.toLower) = normalise s := by
  rw [normalise_eq, normalise_eq, Text.words_map_toLower, List.map_map]
  exact congrArg spaced (List.map_congr_left fun w _ => Text.lowerChars_map_toLower w)

/-- Spellings of which one comes from the other are normalised alike. -/
theorem normalise_respelled {s t : List Char} (respelled : Respelled s t) :
    normalise t = normalise s := by
  induction respelled with
  | letters same => rw [← normalise_map_toLower, ← same, normalise_map_toLower]
  | ends blank blank' s =>
    rw [normalise_eq, normalise_eq, Text.words_blank_append blank, Text.words_append_blank blank']
  | between filled blank filled' blank' front back =>
    rw [normalise_eq, normalise_eq, Text.words_between filled blank,
      Text.words_between filled' blank']
  | trans _ _ first second => rw [second, first]

/-- What is written for a type is read as that type. -/
theorem parse?_display (t : DataType) : parse? t.display = some t := by
  cases t with
  | decimal p s =>
    have written : (decimal p s).display = Dialect.withScale "DECIMAL" p s := rfl
    rw [written]
    exact parse?_withScale (by decide) p s
  | char n =>
    have written : (char n).display = Dialect.withLength "CHAR" n := rfl
    rw [written]
    exact parse?_char (by decide) (by decide) (toList_withLength _ n)
  | varchar n =>
    have written : (varchar n).display = Dialect.withLength "VARCHAR" n := rfl
    rw [written]
    exact parse?_varchar (by decide) (by decide) (toList_withLength _ n)
  | _ => decide +kernel

/-- Spellings are canonical: what is written for a type is read as that type, whatever spelling the
type was read from; and of spellings that differ in the case of ASCII letters and in blanks at the
ends and between words, all are read alike. -/
theorem spelling_canonical : (∀ t : DataType, parse? t.display = some t) ∧
    ∀ s s' : String, Respelled s.toList s'.toList → parse? s' = parse? s := by
  refine ⟨parse?_display, fun s s' respelled => ?_⟩
  rw [parse?, parse?, normalise_respelled respelled]

/-- A type of texts, read from a spelling of some other database. -/
theorem spelling_canonical_varchar :
    Respelled "VARCHAR2(40 CHAR)".toList "\tvarchar2(40  Char) ".toList ∧
    parse? "\tvarchar2(40  Char) " = some (varchar 40) ∧
    parse? (varchar 40).display = some (varchar 40) := by
  have blanks {run : List Char} (all : run.all Text.isBlank = true) :
      ∀ c ∈ run, Text.isBlank c = true :=
    List.all_eq_true.mp all
  have small : Respelled "VARCHAR2(40 CHAR)".toList "varchar2(40 Char)".toList :=
    .letters (by decide)
  have longer : Respelled ("varchar2(40".toList ++ ([' '] ++ "Char)".toList))
      ("varchar2(40".toList ++ ([' ', ' '] ++ "Char)".toList)) :=
    .between (by decide) (blanks (by decide)) (by decide) (blanks (by decide)) _ _
  have framed : Respelled "varchar2(40  Char)".toList
      (['\t'] ++ ("varchar2(40  Char)".toList ++ [' '])) :=
    .ends (blanks (by decide)) (blanks (by decide)) _
  have respelled : Respelled "VARCHAR2(40 CHAR)".toList "\tvarchar2(40  Char) ".toList :=
    .trans small (.trans longer framed)
  have plain : parse? "VARCHAR2(40 CHAR)" = some (varchar 40) := by decide +kernel
  exact ⟨respelled, (spelling_canonical.2 _ _ respelled).trans plain, spelling_canonical.1 _⟩

end DataType

end Warehouse.Sql
