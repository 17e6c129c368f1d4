/-
Module: Warehouse.Proofs.Load.WholeWords
Purpose: The words of a filter against the names that its scanner finds. A word is made of letters
  and digits of any script, a name of ASCII letters and digits only, and a name is found wherever
  the scanner comes upon one of its first letters. So a part of a word, or of a number with an
  exponent, may be taken for a column.
Trusted boundary: none
Main exports: isAnyWordChar, IsWholeWord, exists_isWholeWord, ChangesWholeWords,
  changesWholeWords_iff, not_changesWholeWords_prenom
-/
import Warehouse.Proofs.Load.RetargetedFilter
import Warehouse.Text.CharClass

namespace Warehouse

/-! ### Letters and digits of any script -/

/-- Whether a character can stand in a word: a letter or digit of any script, or an underscore. -/
def isAnyWordChar (c : Char) : Bool := Text.isAlphanumeric c || c = '_'

private theorem Text.isAlphanumeric_of_isAlphanum {c : Char} (ascii : c.isAlphanum = true) :
    isAlphanumeric c = true := by
  rw [isAlphanumeric, if_pos (Text.toNat_lt_of_isAlphanum ascii), ascii]

/-- No blank is a letter or a digit. -/
theorem Text.isAlphanumeric_eq_false_of_isBlank {c : Char} (blank : isBlank c = true) :
    isAlphanumeric c = false := by
  have listed : c.toNat ∈ List.range' 9 5 ++ [0x20, 0x85, 0xA0, 0x1680] ++ List.range' 0x2000 11 ++
      [0x2028, 0x2029, 0x202F, 0x205F, 0x3000] := by
    simp [isBlank] at blank
    simp
    omega
  have none : ∀ n ∈ List.range' 9 5 ++ [0x20, 0x85, 0xA0, 0x1680] ++ List.range' 0x2000 11 ++
      [0x2028, 0x2029, 0x202F, 0x205F, 0x3000], isAlphanumeric (Char.ofNat n) = false := by
    decide +kernel
  have here := none _ listed
  rwa [Char.ofNat_toNat] at here

/-- A character of names is one of words in any script. -/
theorem isAnyWordChar_of_isWordChar {c : Char} (named : isWordChar c = true) :
    isAnyWordChar c = true := by
  rw [isWordChar, Bool.or_eq_true] at named
  rw [isAnyWordChar, Bool.or_eq_true]
  exact named.imp_left Text.isAlphanumeric_of_isAlphanum

/-- No blank stands in a word of any script. -/
theorem isAnyWordChar_eq_false_of_isBlank {c : Char} (blank : Text.isBlank c = true) :
    isAnyWordChar c = false := by
  rw [isAnyWordChar, Text.isAlphanumeric_eq_false_of_isBlank blank, Bool.false_or,
    decide_eq_false_iff_not]
  rintro rfl
  cases blank

/-! ### Words -/

/-- Whether tokens that stand between others make up a word: a longest run of letters, digits and
underscores. Strings and placeholders have other characters in them. -/
structure IsWholeWord (before word after : List FilterToken) : Prop where
  nonempty : word ≠ []
  chars : ∀ c ∈ sourceOf word, isAnyWordChar c = true
  starts : ∀ c ∈ (sourceOf before).getLast?, isAnyWordChar c = false
  ends : ∀ c ∈ (sourceOf after).head?, isAnyWordChar c = false

namespace FilterToken

/-- Whether a token belongs to a word. -/
def isInWord (t : FilterToken) : Bool := t.source.all isAnyWordChar

variable {t : FilterToken} {rest : List Char}

private theorem isInWord_iff : t.isInWord = true ↔ ∀ c ∈ t.source, isAnyWordChar c = true :=
  List.all_eq_true

private theorem Stands.isInWord_of_word {s : List Char} (stands : Stands (.word s) rest) :
    isInWord (.word s) = true := by
  cases stands with
  | word start chars ends =>
    refine isInWord_iff.mpr (List.forall_mem_cons.mpr ⟨?_, fun c member => ?_⟩)
    · exact isAnyWordChar_of_isWordChar (isWordChar_of_isWordStart start)
    · exact isAnyWordChar_of_isWordChar (chars c member)

/-- A token that belongs to no word neither begins nor ends with a character of one. -/
theorem Stands.outer_ends (stands : t.Stands rest) (outside : t.isInWord = false) :
    (∃ x ∈ t.source.head?, isAnyWordChar x = false) ∧ ∃ x ∈ t.source.getLast?,
    isAnyWordChar x = false := by
  cases stands with
  | placeholder _ _ =>
    refine ⟨⟨'{', rfl, by decide +kernel⟩, '}', ?_, by decide +kernel⟩
    simp [source, List.getLast?_cons, List.getLast?_append]
  | string _ _ =>
    refine ⟨⟨'\'', rfl, by decide +kernel⟩, '\'', ?_, by decide +kernel⟩
    simp [source, List.getLast?_cons, List.getLast?_append]
  | word start chars ends =>
    rw [isInWord_of_word (.word start chars ends)] at outside
    cases outside
  | @blank c others _ start chars _ =>
    have blank : ∀ x ∈ c :: others, Text.isBlank x = true := List.forall_mem_cons.mpr ⟨start, chars⟩
    refine ⟨⟨c, rfl, isAnyWordChar_eq_false_of_isBlank start⟩, (c :: others).getLast (by simp),
      List.getLast?_eq_some_getLast _, ?_⟩
    exact isAnyWordChar_eq_false_of_isBlank (blank _ (List.getLast_mem _))
  | @other c _ _ _ _ _ =>
    have here : isAnyWordChar c = false := by simpa [isInWord, source] using outside
    exact ⟨⟨c, rfl, here⟩, c, rfl, here⟩

end FilterToken

section

variable {before after : List FilterToken}

private theorem getLast?_sourceOf_concat {t : FilterToken} (filled : t.source ≠ []) :
    (sourceOf (before ++ [t])).getLast? = t.source.getLast? := by
  rw [sourceOf_append, sourceOf_cons, sourceOf_nil, List.append_nil,
    List.getLast?_append_of_ne_nil _ filled]

/-- A text begins with its first token. -/
theorem head?_sourceOf_cons {t : FilterToken} (filled : t.source ≠ []) :
    (sourceOf (t :: after)).head? = t.source.head? := by
  rw [sourceOf_cons, List.head?_append_of_ne_nil _ filled]

/-- What stands outside of words has characters that no word has at both ends. -/
theorem StandInLine.outer_ends {ts : List FilterToken} (line : StandInLine ts) {t : FilterToken}
    (member : t ∈ ts) (outside : t.isInWord = false) :
    t.source ≠ [] ∧ (∀ x ∈ t.source.head?, isAnyWordChar x = false) ∧
      ∀ x ∈ t.source.getLast?, isAnyWordChar x = false := by
  obtain ⟨rest, stands⟩ := line.exists_stands member
  obtain ⟨⟨x, first, apart⟩, y, last, apart'⟩ := stands.outer_ends outside
  refine ⟨stands.source_ne_nil, fun x' first' => ?_, fun y' last' => ?_⟩
  · rwa [Option.mem_unique first' first]
  · rwa [Option.mem_unique last' last]

/-- Behind the tokens of a word no character of a word follows. -/
theorem head?_sourceOf_dropWhile {ts after : List FilterToken} (line : StandInLine ts)
    (part : after ⊆ ts) :
    ∀ x ∈ (sourceOf (after.dropWhile FilterToken.isInWord)).head?, isAnyWordChar x = false := by
  have first := List.head?_dropWhile_not FilterToken.isInWord after
  cases dropped : after.dropWhile FilterToken.isInWord with
  | nil => simp
  | cons t back =>
    rw [dropped] at first
    have member : t ∈ after := (List.dropWhile_sublist _).subset (dropped ▸ List.mem_cons_self)
    obtain ⟨filled, head, _⟩ := line.outer_ends (part member) (by simpa using first)
    rwa [head?_sourceOf_cons filled]

/-- In front of the tokens of a word there is no character of a word. -/
theorem getLast?_sourceOf_dropWhile {ts before : List FilterToken} (line : StandInLine ts)
    (part : before ⊆ ts) :
    ∀ x ∈ (sourceOf (before.reverse.dropWhile FilterToken.isInWord).reverse).getLast?,
    isAnyWordChar x = false := by
  have first := List.head?_dropWhile_not FilterToken.isInWord before.reverse
  cases dropped : before.reverse.dropWhile FilterToken.isInWord with
  | nil => simp
  | cons t front =>
    rw [dropped] at first
    have member : t ∈ before := by
      rw [← List.mem_reverse]
      exact (List.dropWhile_sublist _).subset (dropped ▸ List.mem_cons_self)
    obtain ⟨filled, _, last⟩ := line.outer_ends (part member) (by simpa using first)
    rwa [List.reverse_cons, getLast?_sourceOf_concat filled]

/-- Every name belongs to a word: the one that reaches as far as tokens of words do on either
side. -/
theorem exists_isWholeWord {name : List Char} (line : StandInLine (before ++ .word name :: after)) :
    ∃ front left right back, before = front ++ left ∧ after = right ++ back ∧
      IsWholeWord front (left ++ .word name :: right) back := by
  have cutBefore : before = (before.reverse.dropWhile FilterToken.isInWord).reverse ++
      (before.reverse.takeWhile FilterToken.isInWord).reverse := by
    rw [← List.reverse_append, List.takeWhile_append_dropWhile, List.reverse_reverse]
  have cutAfter := (List.takeWhile_append_dropWhile (p := FilterToken.isInWord) (l := after)).symm
  have inWord : ∀ t ∈ (before.reverse.takeWhile FilterToken.isInWord).reverse ++
      .word name :: after.takeWhile FilterToken.isInWord, t.isInWord = true := by
    intro t member
    rcases List.mem_append.mp member with left | here
    · exact List.mem_takeWhile_imp (List.mem_reverse.mp left)
    · rcases List.mem_cons.mp here with rfl | right
      · obtain ⟨rest, stands⟩ := line.exists_stands (t := .word name) (by simp)
        exact stands.isInWord_of_word
      · exact List.mem_takeWhile_imp right
  refine ⟨_, _, _, _, cutBefore, cutAfter, by simp, fun c member => ?_, ?_, ?_⟩
  · obtain ⟨t, among, here⟩ := List.mem_flatMap.mp member
    exact FilterToken.isInWord_iff.mp (inWord t among) c here
  · exact getLast?_sourceOf_dropWhile line (by simp)
  · exact head?_sourceOf_dropWhile line fun t member => by simp [member]

end

/-! ### What becomes of words -/

variable {lineage : List (String × String)} {inputColumns : List String}

/-- Whether a filter changes in whole words only. In a filter that carries over, each word is kept
as it is or is, as a whole, a column with lineage, for which its target stands then; no part of a
longer word becomes anything else. A filter that does not carry over is refused for a whole word,
before which it has nothing to be refused for. -/
structure ChangesWholeWords (lineage : List (String × String)) (inputColumns : List String)
    (filter : String) : Prop where
  kept : ∀ out, retargetFilter filter lineage inputColumns = .ok out →
    ∀ before word after, filterTokens filter.toList = before ++ (word ++ after) →
      IsWholeWord before word after →
      ∃ front image back, out.toList = Text.trim (front ++ (image ++ back)) ∧
        retargetTokens lineage inputColumns before = .ok front ∧
        retargetTokens lineage inputColumns word = .ok image ∧
        retargetTokens lineage inputColumns after = .ok back ∧
        (image = sourceOf word ∨ ∃ name target, word = [.word name] ∧
          lookupLast lineage (FilterToken.lookupName name) = some target ∧ image = target.toList) ∧
        ∀ t ∈ word, word ≠ [t] → t.retargeted lineage = t
  refused : ∀ name, retargetFilter filter lineage inputColumns = .error name →
    ∃ before after, filterTokens filter.toList = before ++ .word name.toList :: after ∧
      (∀ t ∈ before, t.isUnfed lineage inputColumns = false) ∧
      IsWholeWord before [.word name.toList] after

/-- A token is a whole word only if the word that it belongs to has no other token. -/
theorem IsWholeWord.eq_singleton {before left right after : List FilterToken} {t : FilterToken}
    (whole : IsWholeWord before (left ++ t :: right) after)
    (filled : ∀ u ∈ left ++ t :: right, u.source ≠ [])
    (alone : IsWholeWord (before ++ left) [t] (right ++ after)) : left ++ t :: right = [t] := by
  have inside (u : FilterToken) (member : u ∈ left ++ t :: right) {c : Char} (here : c ∈ u.source)
      (outside : isAnyWordChar c = false) : False := by
    rw [whole.chars c (List.mem_flatMap.mpr ⟨u, member, here⟩)] at outside
    cases outside
  have leftEmpty : left = [] := by
    rcases List.eq_nil_or_concat left with nothing | ⟨front, u, rfl⟩
    · exact nothing
    · have member : u ∈ front.concat u ++ t :: right := by simp
      have starts := alone.starts
      rw [List.concat_eq_append, ← List.append_assoc, getLast?_sourceOf_concat (filled u member)]
        at starts
      exact (inside u member (List.getLast_mem (filled u member))
        (starts _ (List.getLast?_eq_some_getLast _))).elim
  have rightEmpty : right = [] := by
    cases right with
    | nil => rfl
    | cons u back =>
      have member : u ∈ left ++ t :: u :: back := by simp
      have ends := alone.ends
      rw [List.cons_append, head?_sourceOf_cons (filled u member)] at ends
      exact (inside u member (List.head_mem (filled u member))
        (ends _ (List.head?_eq_some_head _))).elim
  rw [leftEmpty, rightEmpty]
  rfl

/-- What belongs to a word and is no name stays as it is. -/
theorem FilterToken.Stands.retargeted_eq_self {t : FilterToken} {rest : List Char}
    (stands : t.Stands rest) (inWord : t.isInWord = true) (other : ∀ name, t ≠ .word name) :
    t.retargeted lineage = t := by
  cases stands with
  | word _ _ _ => exact absurd rfl (other _)
  | blank start _ _ =>
    have first := FilterToken.isInWord_iff.mp inWord _ List.mem_cons_self
    rw [isAnyWordChar_eq_false_of_isBlank start] at first
    cases first
  | _ => rfl

/-- Where no part of a longer word changes, a word that changes is a column with lineage. -/
theorem IsWholeWord.image {before word after : List FilterToken}
    (whole : IsWholeWord before word after) (stands : ∀ t ∈ word, ∃ rest, t.Stands rest)
    (parts : ∀ t ∈ word, word ≠ [t] → t.retargeted lineage = t) :
    sourceOf (word.map (·.retargeted lineage)) = sourceOf word ∨ ∃ name target,
    word = [.word name] ∧
      lookupLast lineage (FilterToken.lookupName name) = some target ∧
      sourceOf (word.map (·.retargeted lineage)) = target.toList := by
  by_cases single : ∃ t, word = [t]
  · obtain ⟨t, rfl⟩ := single
    obtain ⟨rest, standing⟩ := stands t (by simp)
    by_cases named : ∃ name, t = .word name
    · obtain ⟨name, rfl⟩ := named
      cases fed : lookupLast lineage (FilterToken.lookupName name) with
      | none =>
        left
        simp [FilterToken.retargeted, fed]
      | some target =>
        right
        exact ⟨name, target, rfl, fed, by simp [FilterToken.retargeted, fed, FilterToken.source]⟩
    · have inWord : t.isInWord = true := FilterToken.isInWord_iff.mpr (by simpa using whole.chars)
      left
      rw [List.map_singleton, standing.retargeted_eq_self inWord fun name same =>
        named ⟨name, same⟩]
  · left
    have kept : ∀ t ∈ word, t.retargeted lineage = t :=
      fun t member => parts t member fun same => single ⟨t, same⟩
    rw [List.map_congr_left kept, List.map_id']

/-- The first element of a kind is one only, and so is where it stands. -/
theorem append_cons_inj_of_first {α : Type} {p : α → Bool} {front front' back back' : List α}
    {a a' : α} (same : front ++ a :: back = front' ++ a' :: back')
    (others : ∀ x ∈ front, p x = false) (others' : ∀ x ∈ front', p x = false) (here : p a = true)
    (here' : p a' = true) :
    front = front' ∧ a = a' ∧ back = back' := by
  have clear (xs : List α) (before : ∀ x ∈ xs, p x = false) : ∀ x ∈ xs, (! p x) = true := by
    simpa using before
  have closed (x : α) (xs : List α) (first : p x = true) :
      ∀ y ∈ (x :: xs).head?, (! p y) = false := by
    simpa using first
  obtain ⟨rfl, behind⟩ :=
    append_inj_of_ends same (clear front others) (closed a' back' here') (clear front' others')
      (closed a back here)
  obtain ⟨rfl, rfl⟩ := List.cons.inj behind
  exact ⟨rfl, rfl, rfl⟩

section

variable {filter : String} {before after : List FilterToken}

/-- Where a filter is refused for whole words only, a part of a word is not what it is first refused
for. -/
theorem ChangesWholeWords.isUnfed_eq_false {name : List Char}
    (changes : ChangesWholeWords lineage inputColumns filter)
    (cut : filterTokens filter.toList = before ++ .word name :: after)
    (fed : ∀ t ∈ before, t.isUnfed lineage inputColumns = false)
    (part : ¬ IsWholeWord before [.word name] after) :
    (FilterToken.word name).isUnfed lineage inputColumns = false := by
  by_contra unfed
  rw [Bool.not_eq_false, ← String.toList_ofList (l := name)] at unfed
  rw [← String.toList_ofList (l := name)] at cut part
  obtain ⟨before', after', cut', fed', whole⟩ := changes.refused _
    (retargetFilter_eq_error_iff_split.mpr ⟨before, after, cut, fed, unfed⟩)
  obtain ⟨rfl, _, rfl⟩ := append_cons_inj_of_first (cut.symm.trans cut') fed fed' unfed unfed
  exact part whole

/-- Where a filter carries over in whole words only, a part of a word stays as it is. -/
theorem ChangesWholeWords.retargeted_eq_self {name : List Char}
    (changes : ChangesWholeWords lineage inputColumns filter)
    (cut : filterTokens filter.toList = before ++ .word name :: after)
    (fed : ∀ t ∈ filterTokens filter.toList, t.isUnfed lineage inputColumns = false)
    (part : ¬ IsWholeWord before [.word name] after) :
    (FilterToken.word name).retargeted lineage = .word name := by
  obtain ⟨front, left, right, back, rfl, rfl, whole⟩ :=
    exists_isWholeWord (cut ▸ (filterTokens_spec filter.toList).2)
  obtain ⟨_, _, _, _, _, _, _, _, parts⟩ :=
    changes.kept _ (retargetFilter_eq_ok.mpr ⟨fed, String.toList_ofList⟩) front
      (left ++ .word name :: right) back (by rw [cut]; simp) whole
  refine parts _ (by simp) fun single => part ?_
  obtain ⟨rfl, rfl⟩ : left = [] ∧ right = [] := by
    have length := congrArg List.length single
    simp only [List.length_append, List.length_cons, List.length_nil] at length
    exact ⟨List.eq_nil_of_length_eq_zero (by omega), List.eq_nil_of_length_eq_zero (by omega)⟩
  simpa using whole

/-- If names that are parts of words stay as they are, so does every token that is a part of a
word. -/
theorem IsWholeWord.retargeted_eq_self {word : List FilterToken}
    (whole : IsWholeWord before word after) (line : StandInLine (before ++ (word ++ after)))
    (parts : ∀ left name right, word = left ++ .word name :: right →
      ¬ IsWholeWord (before ++ left) [.word name] (right ++ after) →
      (FilterToken.word name).retargeted lineage = .word name)
    {t : FilterToken} (member : t ∈ word) (longer : word ≠ [t]) : t.retargeted lineage = t := by
  have stands (u : FilterToken) (member : u ∈ word) : ∃ rest, u.Stands rest :=
    line.exists_stands (by simp [member])
  by_cases named : ∃ name, t = .word name
  · obtain ⟨name, rfl⟩ := named
    obtain ⟨left, right, rfl⟩ := List.append_of_mem member
    refine parts left name right rfl fun alone =>
      longer (whole.eq_singleton (fun u member => ?_) alone)
    obtain ⟨rest, standing⟩ := stands u member
    exact standing.source_ne_nil
  · obtain ⟨rest, standing⟩ := stands t member
    refine standing.retargeted_eq_self ?_ fun name same => named ⟨name, same⟩
    exact FilterToken.isInWord_iff.mpr fun c here =>
      whole.chars c (List.mem_flatMap.mpr ⟨t, member, here⟩)

end

/-- A filter changes in whole words only, and is refused for whole words only, exactly if of the
names that are no whole words none is the first to be refused and, where nothing is refused, none
has another target than itself. -/
theorem changesWholeWords_iff {filter : String} : ChangesWholeWords lineage inputColumns filter ↔
    ∀ before name after, filterTokens filter.toList = before ++ .word name :: after →
      (∀ t ∈ before, t.isUnfed lineage inputColumns = false) →
      ¬ IsWholeWord before [.word name] after →
      (FilterToken.word name).isUnfed lineage inputColumns = false ∧
        ((∀ t ∈ after, t.isUnfed lineage inputColumns = false) →
          (FilterToken.word name).retargeted lineage = .word name) := by
  have line := (filterTokens_spec filter.toList).2
  constructor
  · intro changes before name after cut fed part
    have unrefused := changes.isUnfed_eq_false cut fed part
    refine ⟨unrefused, fun fed' => changes.retargeted_eq_self cut ?_ part⟩
    rw [cut]
    exact List.forall_mem_append.mpr ⟨fed, List.forall_mem_cons.mpr ⟨unrefused, fed'⟩⟩
  · intro parts
    refine ⟨fun out made before word after cut whole => ?_, fun name failed => ?_⟩
    · obtain ⟨fed, same⟩ := retargetFilter_eq_ok.mp made
      rw [cut] at fed same line
      have unchanged (t : FilterToken) (member : t ∈ word) (longer : word ≠ [t]) :
          t.retargeted lineage = t := by
        refine whole.retargeted_eq_self line (fun left name right split part => ?_) member longer
        subst split
        refine (parts (before ++ left) name (right ++ after) (by rw [cut]; simp) ?_ part).2 ?_
        · exact fun t member => fed t (by simp only [List.mem_append] at member ⊢; tauto)
        · exact fun t member =>
            fed t (by simp only [List.mem_append, List.mem_cons] at member ⊢; tauto)
      refine ⟨_, _, _, ?_, retargetTokens_of_fed ?_, retargetTokens_of_fed ?_,
        retargetTokens_of_fed ?_,
        whole.image (fun t member => line.exists_stands (by simp [member])) unchanged, unchanged⟩
      · rw [same, List.map_append, List.map_append, sourceOf_append, sourceOf_append]
      all_goals
        intro t member
        exact fed t (by simp [member])
    · obtain ⟨before, after, cut, fed, unfed⟩ := retargetFilter_eq_error_iff_split.mp failed
      refine ⟨before, after, cut, fed, ?_⟩
      by_contra part
      rw [(parts before _ after cut fed part).1] at unfed
      cases unfed

/-- A filter on first names. The word is cut into two names and the letter between them. -/
def firstNameFilter : String := "Prénom = 'Anne'"

/-- The last letters of a word are taken for a column that is called like them: if it has a target
they are exchanged for it, and otherwise the filter is refused. -/
theorem not_changesWholeWords_prenom :
    ¬ ChangesWholeWords [("nom", "last_name")] ["nom"] firstNameFilter ∧
    ¬ ChangesWholeWords [] ["nom"] firstNameFilter := by
  have cut : filterTokens firstNameFilter.toList =
    [.word "Pr".toList, .other 'é'] ++ .word "nom".toList ::
      [.blank [' '], .other '=', .blank [' '], .string "'Anne'".toList] := by decide +kernel
  constructor
  · intro whole
    have made : retargetFilter firstNameFilter [("nom", "last_name")] ["nom"] =
        .ok "Prélast_name = 'Anne'" := by
      decide +kernel
    have word : IsWholeWord [] [.word "Pr".toList, .other 'é', .word "nom".toList]
        [.blank [' '], .other '=', .blank [' '], .string "'Anne'".toList] := by
      refine ⟨by simp, List.all_eq_true.mp (by decide +kernel), by simp, ?_⟩
      rintro c ⟨⟩
      decide +kernel
    obtain ⟨_, _, _, _, _, _, _, _, parts⟩ := whole.kept _ made _ _ _ cut word
    exact absurd (parts (.word "nom".toList) (by simp) (by simp)) (by decide +kernel)
  · intro whole
    have failed : retargetFilter firstNameFilter [] ["nom"] = .error "nom" := by decide +kernel
    obtain ⟨before, after, cut', fed, word⟩ := whole.refused _ failed
    obtain ⟨rfl, -, -⟩ := append_cons_inj_of_first (cut.symm.trans cut')
      (p := (·.isUnfed [] ["nom"])) (by decide +kernel) fed (by decide +kernel) (by decide +kernel)
    have beside := word.starts 'é' (by decide +kernel)
    exact absurd beside (by decide +kernel)

end Warehouse
