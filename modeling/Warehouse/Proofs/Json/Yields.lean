/-
Module: Warehouse.Proofs.Json.Yields
Purpose: What holds of all that a reader of JSON can give. The combinators keep such properties: a
  list has the items that its decoder gives, and a record is made of what its fields give, in
  whatever order they are written.
Trusted boundary: none
Main exports: Reader.Yields, Decoder.Yields, Fields.Yields, Decoder.Yields.list,
  Decoder.Yields.record, Decoder.Yields.of_decode
-/
import Warehouse.Json.Record
import Warehouse.Proofs.Results

namespace Warehouse.Json

variable {α β σ : Type} {P : α → Prop} {Q : β → Prop}

/-! ### Readers

What holds of the results of a reader, whatever it reads. The lemmas follow the ways in which
readers are put together, so that a property of a record can be shown field by field. -/

/-- Whether all that a reader can give has a property. -/
def Reader.Yields (P : α → Prop) (r : Reader α) : Prop := ∀ s a rest, r s = .ok (a, rest) → P a

namespace Reader.Yields

theorem throw {e : Failure} : Reader.Yields P (throw e : Reader α) :=
  fun _ _ _ given => nomatch given

/-- A reader that reads nothing yields what it is given. -/
theorem pure {a : α} (holds : P a) : Reader.Yields P (pure a : Reader α) := by
  intro s a' rest given
  cases given
  exact holds

/-- What a reader yields is passed on to the next one. -/
theorem bind {r : Reader α} {f : α → Reader β} (first : r.Yields P)
    (then' : ∀ a, P a → (f a).Yields Q) : (r >>= f).Yields Q := by
  intro s b rest given
  obtain ⟨⟨a, between⟩, here, later⟩ := bind_eq_ok_iff.mp given
  exact then' a (first s a between here) between b rest later

/-- What is read first may be anything, if what comes then has the property all the same. -/
theorem after {r : Reader α} {f : α → Reader β} (then' : ∀ a, (f a).Yields Q) :
    (r >>= f).Yields Q :=
  bind (P := fun _ => True) (fun _ _ _ _ => trivial) fun a _ => then' a

theorem unexpected : Reader.Yields P (Reader.unexpected : Reader α) := by
  refine after fun c => ?_
  split
  · exact throw
  · exact throw
  · exact after fun _ => throw

/-- What every item keeps true is true behind the last item. -/
theorem foldItems {I : σ → Prop} {step : σ → Reader σ} (each : ∀ acc, I acc → (step acc).Yields I)
    {size : Nat} {acc : σ} (start : I acc) : (Reader.foldItems size step acc).Yields I := by
  have more (size : Nat) : ∀ acc, I acc → (Reader.foldMoreItems step size acc).Yields I := by
    induction size with
    | zero => exact fun _ _ => throw
    | succ size ih =>
      intro acc kept
      refine bind (each acc kept) fun acc' kept' => after fun c => ?_
      split
      · exact pure kept'
      · exact ih acc' kept'
      · exact throw
  refine after fun c => ?_
  split
  · exact after fun _ => pure start
  · exact more size acc start

/-- What every member keeps true is true behind the last member. -/
theorem foldMembers {I : σ → Prop} {key : Reader String} {step : String → σ → Reader σ}
    (each : ∀ name acc, I acc → (step name acc).Yields I) {size : Nat} {acc : σ} (start : I acc) :
    (Reader.foldMembers size key step acc).Yields I := by
  have more (size : Nat) : ∀ acc, I acc → (Reader.foldMoreMembers key step size acc).Yields I := by
    induction size with
    | zero => exact fun _ _ => throw
    | succ size ih =>
      intro acc kept
      refine after fun name => bind (each name acc kept) fun acc' kept' => after fun c => ?_
      split
      · exact pure kept'
      · exact ih acc' kept'
      · exact throw
  refine after fun c => ?_
  split
  · exact after fun _ => pure start
  · exact more size acc start

end Reader.Yields

/-! ### Decoders -/

/-- Whether all that a decoder can give has a property. -/
def Decoder.Yields (P : α → Prop) (d : Decoder α) : Prop := ∀ b, (d b).Yields P

namespace Decoder.Yields

theorem any (d : Decoder α) : d.Yields fun _ => True := fun _ _ _ _ _ => trivial

theorem throw {e : Failure} : Decoder.Yields P (throw e : Decoder α) := fun _ => Reader.Yields.throw

theorem pure {a : α} (holds : P a) : Decoder.Yields P (pure a : Decoder α) :=
  fun _ => Reader.Yields.pure holds

theorem bind {d : Decoder α} {f : α → Decoder β} (first : d.Yields P)
    (then' : ∀ a, P a → (f a).Yields Q) :
    (d >>= f).Yields Q := fun b => (first b).bind fun a holds => then' a holds b

theorem after {d : Decoder α} {f : α → Decoder β} (then' : ∀ a, (f a).Yields Q) :
    (d >>= f).Yields Q :=
  bind (any d) fun a _ => then' a

theorem map {d : Decoder α} {f : α → β} (first : d.Yields P) (image : ∀ a, P a → Q (f a)) :
    (f <$> d).Yields Q := by
  rw [← bind_pure_comp]
  exact bind first fun a holds => pure (image a holds)

/-- A level deeper the same is yielded. -/
theorem nested {d : Decoder α} (inside : d.Yields P) : (Decoder.nested d).Yields P := by
  intro b
  rw [Decoder.nested]
  split
  · exact Reader.Yields.throw
  · exact inside _

/-- What is yielded is so unless nothing is. -/
theorem nullable {d : Decoder α} (some : d.Yields P) :
    (Decoder.nullable d).Yields fun o => ∀ a, o = .some a → P a := by
  refine after fun c => ?_
  split
  · exact after fun _ => pure fun _ none => absurd none.symm (Option.some_ne_none _)
  · exact map some fun a holds a' same => Option.some.inj same ▸ holds

/-- What is given where something has been found, a failure being the alternative. -/
theorem ofOption {chosen : Option α} : (∀ a, chosen = some a → P a) →
    Decoder.Yields P (match chosen with
    | some a => Pure.pure a
    | none => MonadExcept.throw Failure.shape) := by
  intro holds
  cases chosen with
  | none => exact throw
  | some a => exact pure (holds a rfl)

theorem stringWith {read : String → Option α} (each : ∀ text a, read text = some a → P a) :
    (Decoder.stringWith read).Yields P := by
  exact after fun text => ofOption (each text)

/-- One of the alternatives is yielded. -/
theorem choice {alternatives : List (String × α)} (each : ∀ a ∈ alternatives, P a.2) :
    (Decoder.choice alternatives).Yields P := by
  refine after fun c => ?_
  dsimp only
  split
  · refine bind (map (any _) fun text _ a found => ?_) fun _ => ofOption
    obtain ⟨front, back, rfl, _⟩ := List.lookup_eq_some_iff.mp found
    exact each (text, a) (List.mem_append_right _ List.mem_cons_self)
  · refine bind (map (any _) fun i _ a found => ?_) fun _ => ofOption
    obtain ⟨alternative, there, rfl⟩ := Option.map_eq_some_iff.mp found
    exact each alternative (List.mem_of_getElem? there)

/-- Each item of a list is yielded by the reader of items. -/
theorem list {d : Decoder α} (items : d.Yields P) :
    (Decoder.list d).Yields fun as => ∀ a ∈ as, P a := by
  refine after fun c => ?_
  split
  · refine nested
      (after fun _ => bind (P := fun as => ∀ a ∈ as, P a) (fun b => ?_) fun as all => pure ?_)
    · refine .foldItems (fun acc all => (items b).bind fun a holds => .pure ?_)
        (List.forall_mem_nil _)
      exact List.forall_mem_cons.mpr ⟨holds, all⟩
    · exact fun a there => all a (List.mem_reverse.mp there)
  · exact fun _ => .unexpected

theorem lookahead {d : Decoder α} (there : d.Yields P) : (Decoder.lookahead d).Yields P := by
  intro b s a rest given
  obtain ⟨⟨a', between⟩, here, same⟩ := map_eq_ok_iff.mp given
  cases same
  exact there b s _ between here

theorem again {d : Decoder α} (there : d.Yields P) : (Decoder.again d).Yields P :=
  fun b s a rest given => there b s a rest (mapError_eq_ok_iff.mp given)

/-- What a decoder gives has the property for whole texts too. -/
theorem of_decode {d : Decoder α} (yields : d.Yields P) {text : String} {a : α}
    (decoded : decode d text = .ok a) :
    P a := by
  obtain ⟨⟨a', between⟩, whole, same⟩ := bind_eq_ok_iff.mp decoded
  cases same
  have finished : Reader.Yields P (do
      let a ← d ⟨text.toList.length + 1, nestingLimit⟩
      Reader.finish
      return a) := (yields _).bind fun a holds => .after fun _ => .pure holds
  exact finished _ _ _ whole

end Decoder.Yields

/-! ### Records

A record is read member by member, in any order. Its state holds what was read so far; what each
member yields is kept there until the record is complete. -/

/-- Whether the fields of a record keep something true of what has been read, which leads to a
property of what they give in the end. -/
structure Fields.Keeps (x : Fields α) (I : x.State → Prop) (P : α → Prop) : Prop where
  start : I x.start
  read : ∀ name state, I state → (x.read name state).Yields I
  finish : ∀ named state a, I state → x.finish named state = .ok a → P a

/-- Whether all that the fields of a record can give has a property. -/
def Fields.Yields (P : α → Prop) (x : Fields α) : Prop := ∃ I, x.Keeps I P

namespace Fields.Yields

theorem any (x : Fields α) : x.Yields fun _ => True :=
  ⟨fun _ => True, trivial, fun _ _ _ => .any _, fun _ _ _ _ _ => trivial⟩

theorem map {x : Fields α} {f : α → β} (given : x.Yields P) (image : ∀ a, P a → Q (f a)) :
    (f <$> x).Yields Q := by
  obtain ⟨I, start, read, finish⟩ := given
  refine ⟨I, start, read, fun named state b kept last => ?_⟩
  obtain ⟨a, before, rfl⟩ := map_eq_ok_iff.mp last
  exact image a (finish named state a kept before)

theorem seq {f : Fields (α → β)} {x : Fields α} (first : f.Yields fun g => ∀ a, P a → Q (g a))
    (second : x.Yields P) : (f <*> x).Yields Q := by
  obtain ⟨I, start, read, finish⟩ := first
  obtain ⟨J, start', read', finish'⟩ := second
  refine ⟨fun both => I both.1 ∧ J both.2, ⟨start, start'⟩, fun name both kept => ?_,
    fun named both b kept last => ?_⟩
  · change Decoder.Yields _ (if f.names.contains name then
      (do return (← f.read name both.1, both.2) : Decoder (f.State × x.State))
      else do return (both.1, ← x.read name both.2))
    split
    · exact .bind (read name both.1 kept.1) fun state kept' => .pure ⟨kept', kept.2⟩
    · exact .bind (read' name both.2 kept.2) fun state kept' => .pure ⟨kept.1, kept'⟩
  · obtain ⟨g, before, rest⟩ := bind_eq_ok_iff.mp last
    obtain ⟨a, before', same⟩ := bind_eq_ok_iff.mp rest
    cases same
    exact finish named both.1 g kept.1 before a (finish' named both.2 a kept.2 before')

/-- What a field gives may be anything, if the property does not rest on it. -/
theorem other {f : Fields (α → β)} {x : Fields α} (first : f.Yields fun g => ∀ a, Q (g a)) :
    (f <*> x).Yields Q := by
  refine seq (P := fun _ => True) ?_ (any x)
  obtain ⟨I, start, read, finish⟩ := first
  exact ⟨I, start, read, fun named state g kept last a _ => finish named state g kept last a⟩

/-- A field is there, or what stands for it when it is missing. -/
theorem field {name : String} {d : Decoder α} {missing : Bool → Except Failure α}
    (there : d.Yields P) (absent : ∀ named a, missing named = .ok a → P a) :
    (Fields.field name d missing).Yields P := by
  refine ⟨fun o => ∀ a, o = some a → P a, fun a none => ?_,
    fun _ _ _ => .map there fun a holds a' same => ?_, ?_⟩
  · exact absurd none.symm (Option.some_ne_none a)
  · exact Option.some.inj same ▸ holds
  · rintro named (_ | a') a kept last
    · exact absent named a last
    · cases last
      exact kept _ rfl

theorem required {name : String} {d : Decoder α} (there : d.Yields P) :
    (Fields.required name d).Yields P :=
  field there fun _ _ absent => nomatch absent

theorem optional {name : String} {value : α} {d : Decoder α} (there : d.Yields P)
    (absent : P value) : (Fields.optional name value d).Yields P :=
  field there fun _ _ same => Except.ok.inj same ▸ absent

theorem optionalList {name : String} {d : Decoder α} (items : d.Yields P) :
    (Fields.optional name [] (Decoder.list d)).Yields fun as => ∀ a ∈ as, P a :=
  optional (.list items) (List.forall_mem_nil _)

theorem optionalNullable {name : String} {d : Decoder α} (there : d.Yields P) :
    (Fields.optional name none (Decoder.nullable d)).Yields fun o => ∀ a, o = some a → P a :=
  optional (.nullable there) fun a none => absurd none.symm (Option.some_ne_none a)

end Fields.Yields

namespace Decoder.Yields

/-- What a computation gives that reads nothing. -/
theorem lift {x : Except Failure α} (result : ∀ a, x = .ok a → P a) :
    Decoder.Yields P (liftM x : Decoder α) := by
  intro b s a rest given
  obtain ⟨a', computed, same⟩ := bind_eq_ok_iff.mp given
  cases same
  exact result a computed

/-- A member that is read keeps what holds of the state. -/
theorem member {other : Decoder Unit} {fields : Fields α} {I : fields.State → Prop}
    (read : ∀ name state, I state → (fields.read name state).Yields I) {name : String}
    {seen : List String} {state : fields.State} (kept : I state) :
    (fields.member other name seen state).Yields fun p => I p.2 := by
  rw [Fields.member]
  dsimp only
  split
  · split
    · exact after fun _ => after fun _ => bind (read name state kept) fun _ kept' => pure kept'
    · exact after fun _ => bind (read name state kept) fun _ kept' => pure kept'
  · exact after fun _ => after fun _ => pure kept

/-- So do the values of a record that is written as a list. -/
theorem values {fields : Fields α} {I : fields.State → Prop}
    (read : ∀ name state, I state → (fields.read name state).Yields I) {names : List String} :
    ∀ (first : Bool) {state : fields.State}, I state →
      (fields.values names first state).Yields I := by
  induction names with
  | nil => exact fun _ _ kept => pure kept
  | cons name rest ih =>
    intro first state kept
    refine after fun c => ?_
    split
    · exact pure kept
    · exact throw
    · exact bind (read name state kept) fun _ kept' => ih false kept'
    · exact after fun _ => bind (read name state kept) fun _ kept' => ih false kept'
    · exact throw

/-- What is yielded for the fields is yielded for an object of them. -/
theorem object {other : Decoder Unit} {fields : Fields α} (given : fields.Yields P) :
    (Decoder.object other fields).Yields P := by
  obtain ⟨I, start, read, finish⟩ := given
  refine after fun c => ?_
  split
  · refine nested (after fun _ => bind (P := fun p => I p.2) (fun b => ?_) fun p kept => ?_)
    · exact .foldMembers (fun name acc kept => member read kept b) start
    · exact lift fun a last => finish true p.2 a kept last
  · exact fun _ => .unexpected

/-- It is yielded for a list of them too. -/
theorem tuple {fields : Fields α} (given : fields.Yields P) : (Decoder.tuple fields).Yields P := by
  obtain ⟨I, start, read, finish⟩ := given
  refine nested (after fun _ => bind (values read true start) fun state kept => ?_)
  exact bind (lift fun a last => finish false state a kept last) fun a holds =>
    after fun _ => pure holds

/-- A record is an object or a list. -/
theorem record {fields : Fields α} (given : fields.Yields P) :
    (Decoder.record fields).Yields P := by
  refine after fun c => ?_
  split
  · exact tuple given
  · exact object given

end Decoder.Yields

end Warehouse.Json
