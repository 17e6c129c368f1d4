/-
Module: Warehouse.Proofs.Load.HistoryFrame
Purpose: What a load leaves as it is in a history. Whatever the history and the base hold, keys that
  repeat or are missing too, no version is lost, one that has ended is never touched, and an open
  one is at most ended. In a history that mirrors its base, a load of the same rows finds nothing to
  do.
Trusted boundary: none
Main exports: LeftByLoad, Extends, Upkeep.extends_next, history_only_grows, Upkeep.next_eq_self,
  reload_leaves_history
-/
import Warehouse.Proofs.Catalog.Document
import Warehouse.Proofs.Load.HistoryRuns

namespace Warehouse

open Sql

variable {V : Type} [LinearOrder V]

/-! ### Any history -/

/-- What a load at the time `now` may have made of a version `v`. One that had ended is the same in
every column. An open one may have been ended now, as `deleted` only if no row of the base is that
of its keys. -/
structure LeftByLoad (keys : List String) (base : Table V) (now deleted : V) (v v' : Row V) :
    Prop where
  ended : isOpen v = false → v' = v
  others : ∀ column, Text.sameIgnoringAsciiCase "version_ended_at" column = false →
    Text.sameIgnoringAsciiCase "version_state" column = false → v'.get column = v.get column
  ends : v'.get "version_ended_at" = v.get "version_ended_at" ∨
    v.get "version_ended_at" = none ∧ v'.get "version_ended_at" = some now
  state : v'.get "version_state" = v.get "version_state" ∨
    v'.get "version_state" = some deleted ∧ ∀ b ∈ base, b.agree keys v = false

/-- What a load at the time `now` may make of a history: each version is still there, as the load
leaves it, and the versions that are added are open and start now. -/
structure Extends (keys : List String) (base : Table V) (now deleted : V) (before after : Table V) :
    Prop where
  parts : ∃ old new, after = old ++ new ∧
    List.Forall₂ (LeftByLoad keys base now deleted) before old ∧
    ∀ v ∈ new, v.get "version_ended_at" = none ∧ v.get "version_started_at" = some now

namespace Upkeep

variable {u : Upkeep V} {base history : Table V}

/-- The cases of `close_inversion`, as far as they show in a version. -/
theorem leftByLoad_close {deleted : V} (called : u.deleted = some deleted) (v : Row V) :
    LeftByLoad u.keys base u.now deleted v (u.close base v) := by
  have differ : Text.sameIgnoringAsciiCase "version_ended_at" "version_state" = false := by decide
  have differ' : Text.sameIgnoringAsciiCase "version_state" "version_ended_at" = false := by decide
  have others (column : String)
    (notEnd : Text.sameIgnoringAsciiCase "version_ended_at" column = false)
      (notState : Text.sameIgnoringAsciiCase "version_state" column = false) :
      (u.close base v).get column = v.get column := get_close v ⟨notEnd, notState⟩
  have wasOpen (opened : isOpen v = true) : v.get "version_ended_at" = none := by
    simpa [isOpen] using opened
  rcases u.close_inversion base v with ⟨opened, _, closed⟩ | ⟨opened, gone, closed⟩ | ⟨same, _⟩
  · have ended : (u.close base v).get "version_ended_at" = some u.now := by
      rw [closed]
      exact Row.get_assign_of_mem v
        ⟨_, List.mem_singleton_self _, by simp [Text.sameIgnoringAsciiCase]⟩ (by simp)
    have state : (u.close base v).get "version_state" = v.get "version_state" := by
      rw [closed, Row.get_assign_of_notMem v (by simp [differ])]
    exact ⟨by simp [opened], others, .inr ⟨wasOpen opened, ended⟩, .inl state⟩
  · have ended : (u.close base v).get "version_ended_at" = some u.now := by
      rw [closed]
      exact Row.get_assign_of_mem v ⟨_, List.mem_cons_self, by simp [Text.sameIgnoringAsciiCase]⟩
        (by simp [differ'])
    have state : (u.close base v).get "version_state" = some deleted := by
      rw [closed, ← called]
      exact Row.get_assign_of_mem v ⟨_, List.mem_cons_of_mem _ List.mem_cons_self,
        by simp [Text.sameIgnoringAsciiCase]⟩ (by simp [differ])
    exact ⟨by simp [opened], others, .inr ⟨wasOpen opened, ended⟩, .inr ⟨state, gone⟩⟩
  · exact ⟨fun _ => same, others, .inl (by rw [same]), .inl (by rw [same])⟩

/-- What a load opens comes after all that was there, and nothing of that is lost. -/
theorem extends_next {deleted : V} (called : u.deleted = some deleted)
    (reopens : ∀ b, (u.reopened b).get "version_ended_at" = none ∧
      (u.reopened b).get "version_started_at" = some u.now)
    (begins : ∀ b, (u.first b).get "version_ended_at" = none ∧
      (u.first b).get "version_started_at" = some u.now) :
    Extends u.keys base u.now deleted history (u.next base history) := by
  let old := u.kept base history ++ u.reopening base (u.kept base history)
  refine ⟨u.kept base history, u.reopening base (u.kept base history) ++ u.beginning base old,
    ?_, ?_, ?_⟩
  · rw [next, List.append_assoc]
  · rw [kept, List.forall₂_map_right_iff, List.forall₂_same]
    exact fun v _ => leftByLoad_close called v
  · intro v added
    rcases List.mem_append.mp added with reopened | begun
    · obtain ⟨b, _, _, _, rfl⟩ := mem_reopening.mp reopened
      exact reopens b
    · obtain ⟨b, _, _, rfl⟩ := mem_beginning.mp begun
      exact begins b

end Upkeep

/-- The statements of a load are those of the history. -/
theorem exists_parts_of_historyStatements {c : Catalog} {d base : Dataset}
    (shadow : d.IsShadowOf base) (known : c.get? base.key = some base) {statements : List Statement}
    (built : historyStatements c d = .ok statements) :
    ∃ parts, (⟨d, base⟩ : History).statements = .ok parts ∧
      statements = [.update parts.1, .update parts.2.1, .insert parts.2.2.1,
        .insert parts.2.2.2] := by
  rw [historyStatements, shadow.histOf] at built
  obtain ⟨base', found, built⟩ := bind_eq_ok_iff.mp built
  have same := Catalog.get_eq_ok_iff.mp (mapError_eq_ok_iff.mp found)
  rw [known] at same
  cases same
  dsimp only at built
  split at built
  · cases built
  · obtain ⟨parts, made, listed⟩ := bind_eq_ok_iff.mp built
    cases listed
    exact ⟨parts, made, rfl⟩

/-- A history only grows. Whatever a shadow and its base hold, the statements of a load have one
result, in which every version that was there is still there: unchanged if it had ended, else
changed at most in that it has ended now. What is added is open and starts now, and no other table
is touched. -/
theorem history_only_grows {c : Catalog} {d base : Dataset} (shadow : d.IsShadowOf base)
    (avoids : base.AvoidsAddedNames) (known : c.get? base.key = some base)
    {statements : List Statement} (built : historyStatements c d = .ok statements)
    (dialect : Dialect) (w : World V) {now : V} (time : w.placeholder .loadTimestamp = some now) :
    ∃ history, Extends base.naturalKeys (w.tables base.objectName) now (w.engine.text "deleted")
        (w.tables d.objectName) history ∧
      ∀ w', RunsAll dialect w statements w' ↔ w' = w.set d.objectName history := by
  obtain ⟨parts, made, rfl⟩ := exists_parts_of_historyStatements shadow known built
  obtain ⟨u, suits, runs⟩ := History.runs_iff made shadow avoids time
  have keys : u.keys = base.naturalKeys := suits.keys.trans shadow.naturalKeys
  have called : u.deleted = some (w.engine.text "deleted") := by
    rw [suits.deleted, w.engine.constant_string "deleted" (by decide)]
  have grown : Extends u.keys (w.tables base.objectName) u.now (w.engine.text "deleted")
      (w.tables d.objectName) (u.next (w.tables base.objectName) (w.tables d.objectName)) := by
    refine Upkeep.extends_next called (fun b => ?_) fun b => ?_
    · exact ⟨(suits.reopened b).ended, by rw [(suits.reopened b).started, suits.now]⟩
    · exact ⟨(suits.first b).ended, by rw [(suits.first b).started, suits.now]⟩
  rw [keys, suits.now] at grown
  exact ⟨_, grown, runs dialect⟩

/-- The catalog of the customers and their history. -/
def customersWithHistory : Catalog := ⟨[], [customers, deriveShadow customers 3], []⟩

/-- Customers of which one is listed twice with different names and one has no number, beside a
history in which one version has ended and that of a customer who has gone has not. -/
def disorderlyCustomers : World String where
  engine := Engine.texts
  placeholder _ := some "2024-05-03"
  tables name :=
    if name = customers.objectName then
      [.ofPairs [("id", some "1"), ("name", some "Ada")],
        .ofPairs [("id", some "1"), ("name", some "Eve")],
       .ofPairs [("id", none), ("name", some "Flo")]]
    else
      [.ofPairs [("id", some "1"), ("version_started_at", some "2024-05-01"),
         ("version_ended_at", some "2024-05-02"), ("version_state", some "new")],
       .ofPairs [("id", some "2"), ("version_started_at", some "2024-05-01"),
         ("version_state", some "new")]]

/-- Even the disorderly customers have a history that only grows. -/
theorem history_only_grows_for_customers :
    ∃ statements history, historyStatements customersWithHistory (deriveShadow customers 3) =
      .ok statements ∧
      Extends ["id"] (disorderlyCustomers.tables customers.objectName) "2024-05-03" "deleted"
        (disorderlyCustomers.tables (deriveShadow customers 3).objectName) history ∧
      ∀ w', RunsAll .duckdb disorderlyCustomers statements w' ↔
        w' = disorderlyCustomers.set (deriveShadow customers 3).objectName history := by
  obtain ⟨parts, _, built⟩ :=
    exists_historyStatements (c := customersWithHistory) historized_customers rfl
  obtain ⟨history, grown, runs⟩ :=
    history_only_grows historized_customers.shadow historized_customers.avoids
      (c := customersWithHistory) rfl built .duckdb disorderlyCustomers rfl
  exact ⟨_, history, built, grown, runs⟩

/-! ### A history that mirrors its base -/

/-- The order of the base's rows has no meaning. -/
theorem Mirrors.perm {keys : List String} {digest : Row V → V} {base base' history : Table V}
    (mirrors : Mirrors keys digest base history) (same : base'.Perm base) :
    Mirrors keys digest base' history where
  current b hb := mirrors.current b (same.mem_iff.mp hb)
  gone v member opened := by
    obtain ⟨b, hb, agrees⟩ := mirrors.gone v member opened
    exact ⟨b, same.mem_iff.mpr hb, agrees⟩

namespace Upkeep

variable {u : Upkeep V} {base history : Table V}

/-- A row of the base has an open version that a load would not end. -/
theorem hasOpenVersion_of_mirrors (mirrors : Mirrors u.keys u.digest base history) {b : Row V}
    (hb : b ∈ base) : u.hasOpenVersion history b = true := by
  obtain ⟨v, only, _⟩ := mirrors.current b hb
  have chosen : v ∈ history.filter fun v => v.agree u.keys b && isOpen v := by
    rw [only]
    exact List.mem_singleton_self v
  obtain ⟨member, holds⟩ := List.mem_filter.mp chosen
  exact List.any_eq_true.mpr ⟨v, member, holds⟩

/-- An open version has the hash of each row of the base that is its own. -/
theorem changes_eq_false_of_mirrors (mirrors : Mirrors u.keys u.digest base history) {b v : Row V}
    (hb : b ∈ base) (hv : v ∈ history) (opened : isOpen v = true) : u.changes b v = false := by
  by_contra changed
  rw [Bool.not_eq_false, changes, Bool.and_eq_true, Row.agree_comm] at changed
  obtain ⟨v', only, hash⟩ := mirrors.current b hb
  have chosen : v ∈ history.filter fun v => v.agree u.keys b && isOpen v :=
    List.mem_filter.mpr ⟨hv, by rw [changed.1, opened]; rfl⟩
  rw [only, List.mem_singleton] at chosen
  rw [← chosen] at hash
  simp [hash] at changed

/-- A load of the base that a history mirrors leaves the history as it is: nothing has changed or
gone, and every row has an open version. -/
theorem next_eq_self (mirrors : Mirrors u.keys u.digest base history) :
    u.next base history = history := by
  have kept_eq : u.kept base history = history := by
    rw [kept]
    refine (List.map_congr_left fun v hv => ?_).trans (List.map_id history)
    rcases u.close_inversion base v with
      ⟨opened, ⟨b, hb, changed⟩, _⟩ | ⟨opened, gone, _⟩ | ⟨same, _⟩
    · rw [changes_eq_false_of_mirrors mirrors hb hv opened] at changed
      cases changed
    · obtain ⟨b, hb, agrees⟩ := mirrors.gone v hv opened
      rw [Row.agree_comm, gone b hb] at agrees
      cases agrees
    · exact same
  have reopening_eq : u.reopening base history = [] := by
    rw [reopening, List.map_eq_nil_iff, List.filter_eq_nil_iff]
    intro b hb
    simp [hasOpenVersion_of_mirrors mirrors hb]
  have beginning_eq : u.beginning base history = [] := by
    rw [beginning, List.map_eq_nil_iff, List.filter_eq_nil_iff]
    intro b hb
    obtain ⟨v, hv, holds⟩ := List.any_eq_true.mp (hasOpenVersion_of_mirrors mirrors hb)
    have versioned : u.hasVersion history b = true :=
      List.any_eq_true.mpr ⟨v, hv, (Bool.and_eq_true _ _ ▸ holds).1⟩
    simp [versioned]
  rw [next, kept_eq, reopening_eq, List.append_nil, beginning_eq, List.append_nil]

end Upkeep

/-- A load of what the last load has found does nothing. However the history came about, if it is
loaded once more from the same rows of its base, at whatever time, every table stays as it is. -/
theorem reload_leaves_history {c : Catalog} {d base : Dataset} (historized : Historized d base)
    (known : c.get? base.key = some base) :
    ∃ statements, historyStatements c d = .ok statements ∧
      ∀ (dialect : Dialect) (earlier : List (Reading V)) (last : Reading V) (w : World V),
        Admissible base.naturalKeys (earlier ++ [last]) →
        Kept w.engine dialect statements base.objectName d.objectName (earlier ++ [last])
          (w.tables d.objectName) →
        (w.tables base.objectName).Perm last.rows → w.placeholder .loadTimestamp ≠ none →
        ∀ w', RunsAll dialect w statements w' ↔ w' = w := by
  obtain ⟨parts, built, statements⟩ := exists_historyStatements historized known
  refine ⟨_, statements, fun dialect earlier last w admissible kept same time w' => ?_⟩
  obtain ⟨now, time⟩ := Option.ne_none_iff_exists'.mp time
  obtain ⟨u, suits, runs⟩ := History.runs_iff built historized.shadow historized.avoids time
  have keys : u.keys = base.naturalKeys := suits.keys.trans historized.shadow.naturalKeys
  have mirrors : Mirrors u.keys u.digest (w.tables base.objectName) (w.tables d.objectName) := by
    rw [keys, suits.digest]
    exact ((historized.sound_of_kept built kept admissible).2 last (by simp)).1.perm same
  rw [runs dialect w', Upkeep.next_eq_self mirrors, World.set_tables]

/-- After two loads of the customers, a third finds those that the second has found, in another
order. -/
theorem reload_leaves_customers :
    ∃ (statements : List Statement) (w : World String),
      historyStatements customersWithHistory (deriveShadow customers 3) = .ok statements ∧
      Kept Engine.texts .duckdb statements customers.objectName
        (deriveShadow customers 3).objectName
        customerReadings (w.tables (deriveShadow customers 3).objectName) ∧
      w.tables customers.objectName = customerReadings[1].rows.reverse ∧
      ∀ w', RunsAll .duckdb w statements w' ↔ w' = w := by
  obtain ⟨statements, built, runs⟩ :=
    reload_leaves_history (V := String) (c := customersWithHistory) historized_customers rfl
  obtain ⟨parts, made, same⟩ :=
    exists_historyStatements (c := customersWithHistory) historized_customers rfl
  cases built.symm.trans same
  obtain ⟨history, kept⟩ :=
    historized_customers.exists_kept Engine.texts .duckdb made admissible_customerReadings
  let w : World String := ⟨Engine.texts, fun _ => some "2024-05-03",
    fun name => if name = customers.objectName then customerReadings[1].rows.reverse else history⟩
  refine ⟨_, w, built, kept, rfl, ?_⟩
  exact runs .duckdb [customerReadings[0]] customerReadings[1] w admissible_customerReadings kept
    (List.reverse_perm _) (by simp [w])

end Warehouse
