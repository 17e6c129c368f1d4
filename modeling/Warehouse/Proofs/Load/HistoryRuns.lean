/-
Module: Warehouse.Proofs.Load.HistoryRuns
Purpose: A history stays well-formed over any number of loads. Between loads it is sound: its
  versions are keyed, hashed and bounded in time, and those of one key follow one another. One load
  keeps it sound and makes it mirror the base that was read: each row has one open version, with the
  row's hash, and nothing else is open.
Trusted boundary: none
Main exports: Sound, Mirrors, Upkeep.sound_next, Upkeep.mirrors_next, Kept, history_mirrors_base
-/
import Mathlib.Data.List.Induction
import Warehouse.Proofs.Lists
import Warehouse.Proofs.Load.HistoryStep

namespace Warehouse

open Sql

variable {V : Type} [LinearOrder V]

/-! ### Well-formed histories -/

/-- One version has ended no later than the other started. -/
def Before (v v' : Row V) : Prop :=
  ∃ e s, v.get "version_ended_at" = some e ∧ v'.get "version_started_at" = some s ∧ e ≤ s

/-- What holds of a history between loads; `past` are the times that lie behind. -/
structure Sound (keys : List String) (past : V → Prop) (history : Table V) : Prop where
  keyed : ∀ v ∈ history, ∀ k ∈ keys, v.get k ≠ none
  hashed : ∀ v ∈ history, v.get "row_hash" ≠ none
  bounded : ∀ v ∈ history, ∃ s, v.get "version_started_at" = some s ∧ past s ∧
    ∀ e, v.get "version_ended_at" = some e → s < e ∧ past e
  disjoint : history.Pairwise fun v v' => v.agree keys v' = true → Before v v'

/-- Each row of the base has one open version, with the row's hash, and nothing else is open. -/
structure Mirrors (keys : List String) (digest : Row V → V) (base history : Table V) : Prop where
  current : ∀ b ∈ base, ∃ v, history.filter (fun v => v.agree keys b && isOpen v) = [v] ∧
    v.get "row_hash" = some (digest b)
  gone : ∀ v ∈ history, isOpen v = true → ∃ b ∈ base, v.agree keys b = true

/-- A history that is sound up to some time is sound up to a later one. -/
theorem Sound.mono {keys : List String} {past past' : V → Prop} {history : Table V}
    (sound : Sound keys past history) (longer : ∀ t, past t → past' t) :
    Sound keys past' history where
  keyed := sound.keyed
  hashed := sound.hashed
  bounded v member := by
    obtain ⟨s, started, behind, ended⟩ := sound.bounded v member
    exact ⟨s, started, longer s behind, fun e h => (ended e h).imp_right (longer e)⟩
  disjoint := sound.disjoint

/-- There is nothing wrong with an empty history. -/
private theorem sound_nil (keys : List String) (past : V → Prop) : Sound keys past ([] : Table V) :=
  ⟨by simp, by simp, by simp, .nil⟩

/-- Of the versions of one key at most one is open. -/
theorem Sound.single {keys : List String} {past : V → Prop} {history : Table V}
    (sound : Sound keys past history) (b : Row V) :
    history.Pairwise fun v v' => ¬ ((v.agree keys b && isOpen v) = true ∧
      (v'.agree keys b && isOpen v') = true) := by
  refine sound.disjoint.imp fun {v v'} before both => ?_
  simp only [Bool.and_eq_true] at both
  obtain ⟨⟨agrees, opened⟩, agrees', _⟩ := both
  obtain ⟨e, _, ended, _⟩ := before (Row.agree_trans agrees (by rwa [Row.agree_comm]))
  simp [isOpen, ended] at opened

/-! ### One load

A load closes the versions whose rows have changed or gone, and opens versions for rows that are new
or have changed. From the history before and the rows of the base it can be told which versions
there are afterwards, and that at most one is open for each key. -/

namespace Upkeep

variable {u : Upkeep V} {base history : Table V}

/-- The keys are none of the columns that a load writes in a version that was there. -/
def KeysApart (u : Upkeep V) : Prop := ∀ k ∈ u.keys,
  Text.sameIgnoringAsciiCase "version_ended_at" k = false ∧
    Text.sameIgnoringAsciiCase "version_state" k = false

/-- What a load does to a version that was there: it ends an open one whose row has changed, it ends
an open one whose row has gone as deleted, and it leaves any other as it is. -/
theorem close_inversion (u : Upkeep V) (base : Table V) (v : Row V) :
    (isOpen v = true ∧ (∃ b ∈ base, u.changes b v = true) ∧
        u.close base v = v.assign [("version_ended_at", some u.now)]) ∨
      (isOpen v = true ∧ (∀ b ∈ base, b.agree u.keys v = false) ∧
        u.close base v =
          v.assign [("version_ended_at", some u.now), ("version_state", u.deleted)]) ∨
      (u.close base v = v ∧ (isOpen v = true →
        (∃ b ∈ base, b.agree u.keys v = true) ∧ ∀ b ∈ base, u.changes b v = false)) := by
  by_cases changed : (isOpen v && base.any (u.changes · v)) = true
  · have ended : (v.assign [("version_ended_at", some u.now)]).get "version_ended_at" =
        some u.now :=
      Row.get_assign_of_mem v ⟨_, List.mem_singleton_self _, by simp [Text.sameIgnoringAsciiCase]⟩
        (by simp)
    have closed : isOpen (v.assign [("version_ended_at", some u.now)]) = false :=
      isOpen_eq_false_iff.mpr ⟨_, ended⟩
    have left : u.close base v = v.assign [("version_ended_at", some u.now)] := by
      rw [close, endChanged, if_pos changed, endDeleted, closed]
      simp
    rw [Bool.and_eq_true, List.any_eq_true] at changed
    exact .inl ⟨changed.1, changed.2, left⟩
  · have same : u.endChanged base v = v := by rw [endChanged, if_neg changed]
    by_cases gone : (isOpen v && ! base.any (·.agree u.keys v)) = true
    · rw [Bool.and_eq_true, Bool.not_eq_true', List.any_eq_false] at gone
      refine .inr (.inl ⟨gone.1, fun b member => Bool.eq_false_iff.mpr (gone.2 b member), ?_⟩)
      rw [close, same, endDeleted, if_pos (by simpa using gone)]
    · refine .inr (.inr ⟨by rw [close, same, endDeleted, if_neg gone], fun opened => ?_⟩)
      simpa [opened] using And.intro gone changed

/-- A version is ended by the load, or it is left as it is and, if open, still that of a base
row. -/
theorem close_cases (u : Upkeep V) (base : Table V) (v : Row V) :
    (isOpen v = true ∧ (u.close base v).get "version_ended_at" = some u.now) ∨
      (u.close base v = v ∧ (isOpen v = true →
        (∃ b ∈ base, b.agree u.keys v = true) ∧ ∀ b ∈ base, u.changes b v = false)) := by
  have differ : Text.sameIgnoringAsciiCase "version_state" "version_ended_at" = false := by decide
  rcases u.close_inversion base v with ⟨opened, _, closed⟩ | ⟨opened, _, closed⟩ | left
  · refine .inl ⟨opened, ?_⟩
    rw [closed]
    exact Row.get_assign_of_mem v ⟨_, List.mem_cons_self, by simp [Text.sameIgnoringAsciiCase]⟩
      (by simp)
  · refine .inl ⟨opened, ?_⟩
    rw [closed]
    exact Row.get_assign_of_mem v ⟨_, List.mem_cons_self, by simp [Text.sameIgnoringAsciiCase]⟩
      (by simp [differ])
  · exact .inr left

/-- What a load may write in a version that was there. -/
theorem get_close {column : String} (v : Row V)
    (other : Text.sameIgnoringAsciiCase "version_ended_at" column = false ∧
      Text.sameIgnoringAsciiCase "version_state" column = false) :
    (u.close base v).get column = v.get column := by
  rcases u.close_inversion base v with ⟨_, _, closed⟩ | ⟨_, _, closed⟩ | ⟨closed, _⟩
  · rw [closed, Row.get_assign_of_notMem v (by simp [other])]
  · rw [closed, Row.get_assign_of_notMem v (by simp [other])]
  · rw [closed]

/-- A version that the load opens for a row. -/
structure Opens (u : Upkeep V) (b v : Row V) : Prop where
  keys : ∀ k ∈ u.keys, v.get k = b.get k
  hash : v.get "row_hash" = some (u.digest b)
  started : v.get "version_started_at" = some u.now
  ended : v.get "version_ended_at" = none

/-- What is assumed of a load: it opens versions, reads rows with keys, and runs later than those
before. -/
structure Loadable (u : Upkeep V) (base history : Table V) : Prop where
  apart : u.KeysApart
  reopens : ∀ b, u.Opens b (u.reopened b)
  begins : ∀ b, u.Opens b (u.first b)
  rows : Keyed u.keys base
  sound : Sound u.keys (· < u.now) history

private theorem Opens.agree_left {b v : Row V} (opened : u.Opens b v) (r : Row V) :
    v.agree u.keys r = b.agree u.keys r := Row.agree_congr opened.keys fun _ _ => rfl

private theorem Opens.agree_right {b v : Row V} (opened : u.Opens b v) (r : Row V) :
    r.agree u.keys v = r.agree u.keys b := Row.agree_congr (fun _ _ => rfl) opened.keys

/-- A version that is opened for a row has its key. -/
theorem Opens.agree_self {b v : Row V} (opened : u.Opens b v) (rows : Keyed u.keys base)
    (member : b ∈ base) : v.agree u.keys b = true := by
  rw [opened.agree_left]
  exact Row.agree_self (rows.there b member)

private theorem agree_close (apart : u.KeysApart) (v r : Row V) :
    (u.close base v).agree u.keys r = v.agree u.keys r :=
  Row.agree_congr (fun k member => get_close v (apart k member)) fun _ _ => rfl

/-- A version is opened again for a row that has versions, but none that is open. -/
theorem mem_reopening {r : Row V} : r ∈ u.reopening base history ↔
    ∃ b ∈ base, u.hasOpenVersion history b = false ∧ u.hasVersion history b = true ∧
      u.reopened b = r := by
  simp [reopening, and_assoc]

/-- A first version is opened for a row that has none. -/
theorem mem_beginning {r : Row V} : r ∈ u.beginning base history ↔
    ∃ b ∈ base, u.hasVersion history b = false ∧ u.first b = r := by
  simp [beginning, and_assoc]

/-- Rows that are opened for different rows of the base differ in their keys. -/
theorem pairwise_opened {opens : Row V → Row V} (opened : ∀ b, u.Opens b (opens b))
    (rows : Keyed u.keys base) (p : Row V → Bool) :
    ((base.filter p).map opens).Pairwise fun r r' => r.agree u.keys r' = false := by
  rw [List.pairwise_map]
  refine (rows.unique.filter p).imp fun {b b'} differ => ?_
  rw [(opened b).agree_left, (opened b').agree_right, differ]

/-- The versions that were there stay sound. -/
theorem Loadable.sound_kept (load : u.Loadable base history) :
    Sound u.keys (· ≤ u.now) (u.kept base history) where
  keyed := by
    intro r member k key
    obtain ⟨v, hv, rfl⟩ := List.mem_map.mp member
    rw [get_close v (load.apart k key)]
    exact load.sound.keyed v hv k key
  hashed := by
    intro r member
    obtain ⟨v, hv, rfl⟩ := List.mem_map.mp member
    rw [get_close v (by decide)]
    exact load.sound.hashed v hv
  bounded := by
    intro r member
    obtain ⟨v, hv, rfl⟩ := List.mem_map.mp member
    obtain ⟨s, started, behind, ended⟩ := load.sound.bounded v hv
    refine ⟨s, by rw [get_close v (by decide), started], behind.le, fun e closed => ?_⟩
    rcases close_cases u base v with ⟨_, now⟩ | ⟨same, _⟩
    · rw [now, Option.some.injEq] at closed
      exact ⟨closed ▸ behind, closed ▸ le_rfl⟩
    · rw [same] at closed
      exact (ended e closed).imp_right le_of_lt
  disjoint := by
    rw [kept, List.pairwise_map]
    refine load.sound.disjoint.imp fun {v v'} before agrees => ?_
    rw [agree_close load.apart, Row.agree_comm, agree_close load.apart, Row.agree_comm] at agrees
    obtain ⟨e, s, ended, started, le⟩ := before agrees
    refine ⟨e, s, ?_, by rw [get_close v' (by decide), started], le⟩
    rcases close_cases u base v with ⟨opened, _⟩ | ⟨same, _⟩
    · simp [isOpen, ended] at opened
    · rw [same, ended]

/-- Versions that are opened for rows without an open version keep a history sound. -/
theorem Loadable.sound_append (load : u.Loadable base history) {old new : Table V}
    (sound : Sound u.keys (· ≤ u.now) old) (opened : ∀ r ∈ new, ∃ b ∈ base, u.Opens b r)
    (distinct : new.Pairwise fun r r' => r.agree u.keys r' = false)
    (closed : ∀ v ∈ old, ∀ r ∈ new, v.agree u.keys r = true → isOpen v = false) :
    Sound u.keys (· ≤ u.now) (old ++ new) where
  keyed v member k key := by
    rcases List.mem_append.mp member with before | after
    · exact sound.keyed v before k key
    · obtain ⟨b, hb, opens⟩ := opened v after
      rw [opens.keys k key]
      exact load.rows.there b hb k key
  hashed v member := by
    rcases List.mem_append.mp member with before | after
    · exact sound.hashed v before
    · obtain ⟨b, _, opens⟩ := opened v after
      simp [opens.hash]
  bounded v member := by
    rcases List.mem_append.mp member with before | after
    · exact sound.bounded v before
    · obtain ⟨b, _, opens⟩ := opened v after
      exact ⟨u.now, opens.started, le_rfl, by simp [opens.ended]⟩
  disjoint := by
    rw [List.pairwise_append]
    refine ⟨sound.disjoint, distinct.imp fun {r r'} differ agrees => ?_, ?_⟩
    · rw [differ] at agrees
      cases agrees
    · intro v before r after agrees
      obtain ⟨e, ended⟩ := isOpen_eq_false_iff.mp (closed v before r after agrees)
      obtain ⟨b, _, opens⟩ := opened r after
      obtain ⟨_, _, _, bounds⟩ := sound.bounded v before
      exact ⟨e, u.now, ended, opens.started, (bounds e ended).2⟩

/-- A load keeps a history sound. -/
theorem Loadable.sound_next (load : u.Loadable base history) :
    Sound u.keys (· ≤ u.now) (u.next base history) := by
  unfold next
  refine load.sound_append (load.sound_append load.sound_kept ?_ ?_ ?_) ?_ ?_ ?_
  · intro r member
    obtain ⟨b, hb, _, _, rfl⟩ := mem_reopening.mp member
    exact ⟨b, hb, load.reopens b⟩
  · exact pairwise_opened load.reopens load.rows _
  · intro v member r after agrees
    obtain ⟨b, _, unopened, _, rfl⟩ := mem_reopening.mp after
    rw [(load.reopens b).agree_right] at agrees
    simpa [agrees] using List.any_eq_false.mp unopened v member
  · intro r member
    obtain ⟨b, hb, _, rfl⟩ := mem_beginning.mp member
    exact ⟨b, hb, load.begins b⟩
  · exact pairwise_opened load.begins load.rows _
  · intro v member r after agrees
    obtain ⟨b, _, none, rfl⟩ := mem_beginning.mp after
    rw [(load.begins b).agree_right] at agrees
    exact absurd agrees (by simpa using List.any_eq_false.mp none v member)

/-- A version that a load leaves open was open before, and is that of a base row that has not
changed. -/
theorem open_of_kept {v : Row V} (member : v ∈ u.kept base history) (opened : isOpen v = true) :
    v ∈ history ∧ (∃ b ∈ base, v.agree u.keys b = true) ∧ ∀ b ∈ base, u.changes b v = false := by
  obtain ⟨v, before, rfl⟩ := List.mem_map.mp member
  rcases close_cases u base v with ⟨_, now⟩ | ⟨same, still⟩
  · simp [isOpen, now] at opened
  · rw [same] at opened ⊢
    obtain ⟨⟨b, hb, agrees⟩, unchanged⟩ := still opened
    exact ⟨before, ⟨b, hb, by rwa [Row.agree_comm]⟩, unchanged⟩

/-- A row that is opened anew, or has a version that was there, has a version that was there. -/
theorem Loadable.hasVersion_kept (load : u.Loadable base history) {b : Row V}
    (versioned : u.hasVersion
      (u.kept base history ++ u.reopening base (u.kept base history)) b = true) :
    u.hasVersion (u.kept base history) b = true := by
  obtain ⟨v, member, agrees⟩ := List.any_eq_true.mp versioned
  rcases List.mem_append.mp member with kept | reopened
  · exact List.any_eq_true.mpr ⟨v, kept, agrees⟩
  · obtain ⟨b', _, _, earlier, rfl⟩ := mem_reopening.mp reopened
    obtain ⟨v', kept, agrees'⟩ := List.any_eq_true.mp earlier
    rw [(load.reopens b').agree_left] at agrees
    exact List.any_eq_true.mpr ⟨v', kept, Row.agree_trans agrees' agrees⟩

/-- After a load each row of the base has an open version with its hash. -/
theorem Loadable.exists_current (load : u.Loadable base history) {b : Row V} (hb : b ∈ base) :
    ∃ v ∈ u.next base history, v.agree u.keys b = true ∧ isOpen v = true ∧
      v.get "row_hash" = some (u.digest b) := by
  unfold next
  by_cases opened : u.hasOpenVersion (u.kept base history) b = true
  · -- The version was there and has not ended.
    obtain ⟨v, member, agrees⟩ := List.any_eq_true.mp opened
    rw [Bool.and_eq_true] at agrees
    obtain ⟨before, _, unchanged⟩ := open_of_kept member agrees.2
    obtain ⟨x, hash⟩ := Option.ne_none_iff_exists'.mp (load.sound.hashed v before)
    have same : u.digest b = x := by
      have unchanged := unchanged b hb
      rw [changes, Row.agree_comm, agrees.1, hash] at unchanged
      simpa using unchanged
    exact ⟨v, by simp [member], agrees.1, agrees.2, same ▸ hash⟩
  by_cases versioned :
    u.hasVersion (u.kept base history ++ u.reopening base (u.kept base history)) b = true
  · -- There are versions, so one is opened anew.
    have opens := load.reopens b
    have earlier := load.hasVersion_kept versioned
    refine ⟨u.reopened b, ?_, opens.agree_self load.rows hb,
      by simp [isOpen, opens.ended], opens.hash⟩
    have added := mem_reopening.mpr ⟨b, hb, by simpa using opened, earlier, rfl⟩
    simp [added]
  · have opens := load.begins b
    refine ⟨u.first b, ?_, opens.agree_self load.rows hb, by simp [isOpen, opens.ended], opens.hash⟩
    exact List.mem_append_right _ (mem_beginning.mpr ⟨b, hb, by simpa using versioned, rfl⟩)

/-- After a load the history mirrors the base that was read. -/
theorem Loadable.mirrors_next (load : u.Loadable base history) :
    Mirrors u.keys u.digest base (u.next base history) where
  current b hb := by
    obtain ⟨v, member, agrees, opened, hash⟩ := load.exists_current hb
    exact ⟨v, filter_eq_singleton (load.sound_next.single b) member
      (by simp [agrees, opened]), hash⟩
  gone v member opened := by
    rcases List.mem_append.mp member with old | begun
    · rcases List.mem_append.mp old with kept | reopened
      · exact (open_of_kept kept opened).2.1
      · obtain ⟨b, hb, _, _, rfl⟩ := mem_reopening.mp reopened
        exact ⟨b, hb, (load.reopens b).agree_self load.rows hb⟩
    · obtain ⟨b, hb, _, rfl⟩ := mem_beginning.mp begun
      exact ⟨b, hb, (load.begins b).agree_self load.rows hb⟩

end Upkeep

/-! ### Any number of loads -/

/-- What a load finds: the rows of the base, at a time. -/
structure Reading (V : Type) where
  rows : Table V
  now : V

/-- The histories that loads may leave, which start from an empty one and find those readings one
after another. The other tables and the other placeholders may hold anything at each load. -/
inductive Kept (E : Engine V) (d : Dialect) (statements : List Statement)
    (base shadow : ObjectName) : List (Reading V) → Table V → Prop where
  | empty : Kept E d statements base shadow [] []
  | load {earlier : List (Reading V)} {r : Reading V} {w w' : World V}
      (before : Kept E d statements base shadow earlier (w.tables shadow)) (engine : w.engine = E)
      (rows : w.tables base = r.rows) (now : w.placeholder .loadTimestamp = some r.now)
      (ran : RunsAll d w statements w') :
      Kept E d statements base shadow (earlier ++ [r]) (w'.tables shadow)

/-- The times increase, and in each reading no key is missing and none is repeated. -/
structure Admissible (keys : List String) (readings : List (Reading V)) : Prop where
  increasing : readings.Pairwise fun r r' => r.now < r'.now
  keyed : ∀ r ∈ readings, Keyed keys r.rows

/-- Readings that come one after the other do so up to any of them. -/
theorem Admissible.of_append {keys : List String} {earlier later : List (Reading V)}
    (admissible : Admissible keys (earlier ++ later)) : Admissible keys earlier where
  increasing := (List.pairwise_append.mp admissible.increasing).1
  keyed r member := admissible.keyed r (List.mem_append_left _ member)

/-- What a history is kept for: its base, with natural keys that are business columns. -/
structure Historized (d base : Dataset) : Prop where
  shadow : d.IsShadowOf base
  keyed : base.naturalKeys ≠ []
  business : ∀ k ∈ base.naturalKeys, ∃ c ∈ base.businessColumns,
    Text.sameIgnoringAsciiCase c.name k = true
  avoids : base.AvoidsAddedNames

namespace Historized

variable {d base : Dataset} (historized : Historized d base)

include historized

/-- The keys are none of the columns that describe a version. -/
theorem apart {k : String} (key : k ∈ base.naturalKeys) {p : String × SystemRole}
    (version : p ∈ versionColumns) : Text.sameIgnoringAsciiCase p.1 k = false := by
  obtain ⟨c, business, same⟩ := historized.business k key
  have differs := historized.avoids c business p (List.mem_cons_of_mem _ version)
  by_contra called
  rw [same_trans same (by rw [same_comm]; simpa using called)] at differs
  cases differs

omit [LinearOrder V] in
/-- A version has the keys of its row. -/
theorem opens {E : Engine V} {u : Upkeep V} {b v : Row V} (keys : u.keys = base.naturalKeys)
    (digest : u.digest = rowDigest E base) (version : IsVersionOf E base u.now b v) :
    u.Opens b v where
  keys k key := by
    rw [keys] at key
    obtain ⟨c, business, same⟩ := historized.business k key
    rw [← v.get_congr same, ← b.get_congr same, version.business c business]
  hash := by rw [version.hash, digest]
  started := version.started
  ended := version.ended

/-- One load, in a world in which the history is sound. -/
theorem load_spec {parts : Update × Update × Insert × Insert} {w : World V} {t : V}
    (built : (⟨d, base⟩ : History).statements = .ok parts)
    (now : w.placeholder .loadTimestamp = some t)
    (rows : Keyed base.naturalKeys (w.tables base.objectName))
    (sound : Sound base.naturalKeys (· < t) (w.tables d.objectName)) :
    ∃ history, Sound base.naturalKeys (· ≤ t) history ∧
      Mirrors base.naturalKeys (rowDigest w.engine base) (w.tables base.objectName) history ∧
      ∀ (dialect : Dialect) (w' : World V), RunsAll dialect w
        [.update parts.1, .update parts.2.1, .insert parts.2.2.1, .insert parts.2.2.2] w' ↔
          w' = w.set d.objectName history := by
  obtain ⟨u, suits, runs⟩ := History.runs_iff built historized.shadow historized.avoids now
  have keys : u.keys = base.naturalKeys := suits.keys.trans historized.shadow.naturalKeys
  have time : u.now = t := suits.now
  subst time
  have load : u.Loadable (w.tables base.objectName) (w.tables d.objectName) := {
    apart k key := by
      rw [keys] at key
      exact ⟨historized.apart key (p := ("version_ended_at", .versionEndedAt)) (by decide),
        historized.apart key (p := ("version_state", .versionState)) (by decide)⟩
    reopens b := historized.opens keys suits.digest (suits.reopened b)
    begins b := historized.opens keys suits.digest (suits.first b)
    rows := by rwa [keys]
    sound := by rwa [keys] }
  have sound_next := load.sound_next
  have mirrors_next := load.mirrors_next
  rw [keys] at sound_next mirrors_next
  rw [suits.digest] at mirrors_next
  exact ⟨_, sound_next, mirrors_next, runs⟩

/-- A history that loads have left is sound. -/
theorem sound_of_kept {E : Engine V} {dialect : Dialect} {parts : Update × Update × Insert × Insert}
    {readings : List (Reading V)} {history : Table V}
    (built : (⟨d, base⟩ : History).statements = .ok parts)
    (kept : Kept E dialect
      [.update parts.1, .update parts.2.1, .insert parts.2.2.1, .insert parts.2.2.2]
      base.objectName d.objectName readings history)
    (admissible : Admissible base.naturalKeys readings) :
    Sound base.naturalKeys (fun t => ∃ r ∈ readings, t ≤ r.now) history ∧
      ∀ r ∈ readings.getLast?, Mirrors base.naturalKeys (rowDigest E base) r.rows history ∧
        Sound base.naturalKeys (· ≤ r.now) history := by
  induction kept with
  | empty => exact ⟨sound_nil _ _, by simp⟩
  | @load earlier r w w' before engine rows now ran ih =>
    have past : ∀ r' ∈ earlier, r'.now < r.now := fun r' member =>
      (List.pairwise_append.mp admissible.increasing).2.2 r' member r (List.mem_singleton_self r)
    have sound : Sound base.naturalKeys (· < r.now) (w.tables d.objectName) :=
      (ih admissible.of_append).1.mono fun t ⟨r', member, le⟩ => lt_of_le_of_lt le (past r' member)
    obtain ⟨history, sound, mirrors, runs⟩ := historized.load_spec built now
      (rows ▸ admissible.keyed r (by simp)) sound
    rw [(runs dialect w').mp ran, World.tables_set_self]
    rw [engine, rows] at mirrors
    refine ⟨sound.mono fun t le => ⟨r, by simp, le⟩, fun r' last => ?_⟩
    rw [List.getLast?_append, List.getLast?_singleton] at last
    cases last
    exact ⟨mirrors, sound⟩

/-- There is a history for any readings. -/
theorem exists_kept (E : Engine V) (dialect : Dialect) {parts : Update × Update × Insert × Insert}
    (built : (⟨d, base⟩ : History).statements = .ok parts) {readings : List (Reading V)}
    (admissible : Admissible base.naturalKeys readings) :
    ∃ history, Kept E dialect
      [.update parts.1, .update parts.2.1, .insert parts.2.2.1, .insert parts.2.2.2]
      base.objectName d.objectName readings history := by
  induction readings using List.reverseRecOn with
  | nil => exact ⟨[], .empty⟩
  | append_singleton earlier r ih =>
    obtain ⟨history, kept⟩ := ih admissible.of_append
    have apart : base.objectName ≠ d.objectName := fun same =>
      historized.shadow.name_ne (ObjectName.mk.inj same).2
    let w : World V :=
      ⟨E, fun _ => some r.now, fun n => if n = d.objectName then history else r.rows⟩
    have rows : w.tables base.objectName = r.rows := if_neg apart
    have found : w.tables d.objectName = history := if_pos rfl
    have past : ∀ r' ∈ earlier, r'.now < r.now := fun r' member =>
      (List.pairwise_append.mp admissible.increasing).2.2 r' member r (List.mem_singleton_self r)
    have sound := (historized.sound_of_kept built kept admissible.of_append).1.mono
      fun t ⟨r', member, le⟩ => lt_of_le_of_lt le (past r' member)
    obtain ⟨after, _, _, runs⟩ := historized.load_spec (w := w) built rfl
      (rows ▸ admissible.keyed r (by simp)) (found ▸ sound)
    exact ⟨_, .load (found ▸ kept) rfl rows rfl ((runs dialect _).mpr rfl)⟩

end Historized

/-- The statements that keep a history can be built. -/
theorem exists_historyStatements {c : Catalog} {d base : Dataset} (historized : Historized d base)
    (known : c.get? base.key = some base) :
    ∃ parts, (⟨d, base⟩ : History).statements = .ok parts ∧ historyStatements c d = .ok
      [.update parts.1, .update parts.2.1, .insert parts.2.2.1, .insert parts.2.2.2] := by
  obtain ⟨parts, built⟩ := History.exists_statements (h := ⟨d, base⟩) historized.shadow
    historized.avoids historized.keyed historized.business
  refine ⟨parts, built, ?_⟩
  have keyed : d.naturalKeys.isEmpty = false := by
    rw [historized.shadow.naturalKeys]
    simpa using historized.keyed
  simp [historyStatements, historized.shadow.histOf, Catalog.get, known, liftCatalog,
    Except.mapError, keyed, built, bind, Except.bind, pure, Except.pure]

/-- A history mirrors its base after every load. Whatever rows with unique keys the loads find, at
increasing times, each row of the last reading has exactly one open version, with the hash of the
row; no other version is open; and the versions of one key follow one another in time. -/
theorem history_mirrors_base {c : Catalog} {d base : Dataset} (historized : Historized d base)
    (known : c.get? base.key = some base) :
    ∃ statements, historyStatements c d = .ok statements ∧
      ∀ (E : Engine V) (dialect : Dialect) (earlier : List (Reading V)) (last : Reading V),
        Admissible base.naturalKeys (earlier ++ [last]) →
        (∃ history, Kept E dialect statements base.objectName d.objectName
          (earlier ++ [last]) history) ∧
        ∀ history, Kept E dialect statements base.objectName d.objectName
          (earlier ++ [last]) history →
          Mirrors base.naturalKeys (rowDigest E base) last.rows history ∧
            Sound base.naturalKeys (· ≤ last.now) history := by
  obtain ⟨parts, built, statements⟩ := exists_historyStatements historized known
  refine ⟨_, statements, fun E dialect earlier last admissible => ⟨?_, fun history kept => ?_⟩⟩
  · exact historized.exists_kept E dialect built admissible
  · exact (historized.sound_of_kept built kept admissible).2 last (by simp)

/-- The customers are historized by their shadow. -/
theorem historized_customers : Historized (deriveShadow customers 3) customers where
  shadow := deriveShadow_isShadowOf customers 3
  keyed := by decide
  business := by
    rw [Dataset.businessColumns, orderedColumns_customers]
    decide
  avoids := by
    unfold Dataset.AvoidsAddedNames
    rw [Dataset.businessColumns, orderedColumns_customers]
    decide

/-- Two loads of customers, between which one has gone, one has come and one has another name. -/
def customerReadings : List (Reading String) :=
  [⟨[.ofPairs [("id", some "1"), ("name", some "Ada")],
    .ofPairs [("id", some "2"), ("name", some "Bo")]], "2024-05-01"⟩,
   ⟨[.ofPairs [("id", some "2"), ("name", some "Bob")],
     .ofPairs [("id", some "3"), ("name", some "Cy")]],
    "2024-05-02"⟩]

theorem admissible_customerReadings : Admissible ["id"] customerReadings where
  increasing := by decide
  keyed r member := by
    simp only [customerReadings, List.mem_cons, List.not_mem_nil, or_false] at member
    rcases member with rfl | rfl
    · exact ⟨by decide, by decide⟩
    · exact ⟨by decide, by decide⟩

/-- After its loads the history of the customers mirrors what they were last. -/
theorem history_mirrors_customers :
    ∃ statements history,
      historyStatements ⟨[], [customers, deriveShadow customers 3], []⟩ (deriveShadow customers 3) =
        .ok statements ∧
      Kept Engine.texts .duckdb statements customers.objectName
        (deriveShadow customers 3).objectName customerReadings history ∧
      Mirrors ["id"] (rowDigest Engine.texts customers) (customerReadings[1].rows) history ∧
      Sound ["id"] (· ≤ "2024-05-02") history := by
  obtain ⟨statements, built, runs⟩ := history_mirrors_base (V := String)
    (c := ⟨[], [customers, deriveShadow customers 3], []⟩) historized_customers rfl
  obtain ⟨⟨history, kept⟩, mirrors⟩ :=
    runs Engine.texts .duckdb [customerReadings[0]] customerReadings[1] admissible_customerReadings
  exact ⟨statements, history, built, kept, mirrors history kept⟩

end Warehouse
