import Tariff.Proofs.Store.Atomic
import Tariff.Proofs.Store.Clocks

/-!
The index of a store is made once. Whatever is done to the store, no code is changed, added,
dropped or moved, so the index stays right; and the batches that the store counts are those that it
took.
-/

namespace Tariff

/-! ### The entry that a code names -/

/-- The last place of a code is where a search from the end finds it. -/
lemma Store.find?_reverse (code : String) (es : List Entry) :
    es.reverse.find? (·.code = code) = (lastPlace? code es).bind (es[·]?) := by
  induction es with
  | nil => rfl
  | cons e es ih =>
    rw [List.reverse_cons, List.find?_append, ih, lastPlace?]
    cases h : lastPlace? code es with
    | some i =>
      obtain ⟨⟨e', he', -⟩, -⟩ := lastPlace?_eq_some_iff.mp h
      simp [he']
    | none =>
      by_cases hc : e.code = code
      · simp [hc]
      · simp [hc]

/-! ### Records of a sink -/

namespace Sink

variable {σ ε : Type} (sink : Sink σ ε)

lemma outcome_recorded_batch (b : List EntryUpdate) (s : σ) (record : List (Except ε Unit)) :
    outcome (sink.recorded b) (s, record) =
      ((outcome (sink b) s).1, (outcome (sink b) s).2, record ++ [(outcome (sink b) s).1]) := rfl

lemma outcome_recorded (bs : List (List EntryUpdate)) (s : σ) (record : List (Except ε Unit)) :
    (outcome (forM bs sink.recorded) (s, record)).1 = (outcome (forM bs sink) s).1 ∧
      (outcome (forM bs sink.recorded) (s, record)).2.1 = (outcome (forM bs sink) s).2 := by
  induction bs generalizing s record with
  | nil => exact ⟨rfl, rfl⟩
  | cons b bs ih =>
    rw [List.forM_cons, List.forM_cons, outcome_bind, outcome_bind, outcome_recorded_batch]
    rcases outcome (sink b) s with ⟨_ | _, t⟩
    · exact ⟨rfl, rfl⟩
    · exact ih t _

/-- What goes up by one with each batch that is taken counts, over several batches, those that were
taken. -/
lemma count_recorded (size : σ → Nat)
    (h : ∀ b s, size (outcome (sink b) s).2 = size s + [(outcome (sink b) s).1].countP (·.isOk))
    (bs : List (List EntryUpdate)) (s : σ) (record : List (Except ε Unit)) :
    size (outcome (forM bs sink.recorded) (s, record)).2.1 + record.countP (·.isOk) =
      size s + (outcome (forM bs sink.recorded) (s, record)).2.2.countP (·.isOk) := by
  induction bs generalizing s record with
  | nil => rfl
  | cons b bs ih =>
    have hcount := h b s
    rw [List.forM_cons, outcome_bind, outcome_recorded_batch]
    rcases hs : outcome (sink b) s with ⟨r, t⟩
    rw [hs] at hcount
    cases r with
    | error e =>
      dsimp only at hcount ⊢
      rw [hcount, List.countP_append]
      omega
    | ok a =>
      have hrest := ih t (record ++ [.ok a])
      dsimp only at hcount ⊢
      rw [List.countP_append] at hrest
      omega

end Sink

namespace LiveStore

variable {α β υ : Type} {P : LiveStore → Prop}

/-! ### What writes keep -/

/-- The write keeps a property of the store, however it ends. -/
def Write.Keeps (P : LiveStore → Prop) (w : Write α) : Prop := ∀ s, P s → P (s.perform w).2

namespace Write.Keeps

lemma pure (a : α) : Write.Keeps P (pure a) := fun _ hs => hs

lemma bind {w : Write α} {f : α → Write β} (hw : w.Keeps P) (hf : ∀ a, (f a).Keeps P) :
    Write.Keeps P (w >>= f) := by
  intro s hs
  have hkept := hw s hs
  rcases h : s.perform w with ⟨r, t⟩
  rw [h] at hkept
  cases r with
  | ok a =>
    rw [perform_bind_ok h]
    exact hf a t hkept
  | error e =>
    rw [perform_bind_error h]
    exact hkept

lemma forM {f : β → Write PUnit} {bs : List β} (hf : ∀ b ∈ bs, (f b).Keeps P) :
    Write.Keeps P (forM bs f) := by
  induction bs with
  | nil => exact pure _
  | cons b bs ih =>
    rw [List.forall_mem_cons] at hf
    rw [List.forM_cons]
    exact hf.1.bind fun _ => ih hf.2

end Write.Keeps

/-- A synthesis keeps what each of its batches keeps. -/
lemma keeps_synthesizeBy {z : Synthesizer} {clock : Clock} {s : LiveStore} (hs : P s)
    (h : ∀ b ∈ chunks z.batchSize (Synthesis.changes (z.plan clock s.entries)),
      (writeBatch b).Keeps P) :
    P (s.perform (synthesizeBy z clock)).2 := by
  rw [perform_synthesizeBy, z.run_eq]
  exact (Write.Keeps.forM h).bind (fun _ => .pure _) s hs

/-! ### Codes and places -/

structure HasCodes (es : List Entry) (s : LiveStore) : Prop where
  codes : s.entries.map (·.code) = es.map (·.code)
  places : s.places = (ofEntries es).places

variable (es : List Entry)

lemma hasCodes_ofEntries : HasCodes es (ofEntries es) := ⟨rfl, rfl⟩

lemma keeps_writeAll (k : Kind υ) (us : List υ) : (writeAll k us).Keeps (HasCodes es) := by
  intro s hs
  rcases s.writeAll_spec k us with ⟨e, hw, -⟩ | ⟨-, hw⟩
  · rw [hw]
    exact hs
  · rw [hw]
    exact ⟨(s.map_code_written k us).trans hs.codes, (s.written_eq k _).2.1.trans hs.places⟩

lemma keeps_writeBatch (us : List EntryUpdate) : (writeBatch us).Keeps (HasCodes es) :=
  (keeps_writeAll es syntheses us).bind fun _ _ hs => ⟨hs.codes, hs.places⟩

lemma hasCodes_act {s : LiveStore} (hs : HasCodes es s) (a : Action) : HasCodes es (s.act a) := by
  cases a with
  | applyFormulas us =>
    exact (keeps_writeAll es formulas us).bind (fun _ => .pure _) s hs
  | writeBatch us => exact keeps_writeBatch es us s hs
  | synthesize z clock => exact keeps_synthesizeBy hs fun b _ => keeps_writeBatch es b

lemma hasCodes_acts {s : LiveStore} (hs : HasCodes es s) (as : List Action) :
    HasCodes es (s.acts as) := by
  induction as generalizing s with
  | nil => exact hs
  | cons a as ih => exact ih (hasCodes_act es hs a)

/-! ### Batches -/

variable (s : LiveStore)

lemma batches_writeBatch (us : List EntryUpdate) : (s.perform (writeBatch us)).2.batches =
    s.batches + [(s.perform (writeBatch us)).1].countP (·.isOk) := by
  rcases s.writeAll_spec syntheses us with ⟨e, hw, -⟩ | ⟨-, hw⟩
  · have hp : s.perform (writeBatch us) = (.error e, s) := perform_bind_error hw
    rw [hp]
    rfl
  · have hp : s.perform (writeBatch us) = (.ok ⟨⟩, countBatch _) := perform_bind_ok hw
    rw [hp]
    exact congrArg (· + 1) (s.written_eq syntheses _).2.2

lemma batches_applyFormulas (us : List FormulaUpdate) :
    (s.perform (applyFormulas us)).2.batches = s.batches := by
  rcases s.writeAll_spec formulas us with ⟨e, hw, -⟩ | ⟨-, hw⟩
  · have hp : s.perform (applyFormulas us) = (.error e, s) := perform_bind_error hw
    rw [hp]
  · have hp : s.perform (applyFormulas us) = (.ok us.length, _) := perform_bind_ok hw
    rw [hp]
    exact (s.written_eq formulas _).2.2

lemma batches_synthesizeBy (z : Synthesizer) (clock : Clock) :
    (s.perform (synthesizeBy z clock)).2.batches =
      s.batches + (s.record (.synthesize z clock)).countP (·.isOk) := by
  set bs := chunks z.batchSize (Synthesis.changes (z.plan clock s.entries)) with hbs
  have hrun {σ : Type} (sink : Sink σ StoreError) (t : σ) :
      (Sink.outcome (z.run clock s.entries sink) t).2 = (Sink.outcome (forM bs sink) t).2 := by
    rw [z.run_eq, Sink.outcome_bind, ← hbs]
    rcases Sink.outcome (forM bs sink) t with ⟨_ | _, u⟩ <;> rfl
  have hleft : (s.perform (synthesizeBy z clock)).2 = (Sink.outcome (forM bs writeBatch) s).2 := by
    rw [perform_synthesizeBy]
    exact hrun writeBatch s
  have hrecord : s.record (.synthesize z clock) =
      (Sink.outcome (forM bs (Sink.recorded writeBatch)) (s, [])).2.2 :=
    congrArg Prod.snd (hrun (Sink.recorded writeBatch) (s, []))
  have hcount := Sink.count_recorded writeBatch LiveStore.batches
    (fun b t => t.batches_writeBatch b) bs s []
  rw [hleft, hrecord, ← hcount, (Sink.outcome_recorded writeBatch bs s []).2,
    List.countP_nil, Nat.add_zero]

lemma batches_act (a : Action) :
    (s.act a).batches = s.batches + (s.record a).countP (·.isOk) := by
  cases a with
  | applyFormulas us => exact s.batches_applyFormulas us
  | writeBatch us => exact s.batches_writeBatch us
  | synthesize z clock => exact s.batches_synthesizeBy z clock

lemma batches_acts (as : List Action) :
    (s.acts as).batches = s.batches + (s.records as).countP (·.isOk) := by
  induction as generalizing s with
  | nil => rfl
  | cons a as ih =>
    have hfirst := s.batches_act a
    have hrest : (s.acts (a :: as)).batches = _ := ih (s.act a)
    rw [hrest, records, List.countP_append]
    omega

/-! ### The index -/

/-- What holds of a store whose entries were the ones of the list: they have not changed in number,
order or code; the index tells the last place of each code that occurs, and of no other; and it
never tells a place beyond the entries. -/
structure Indexes (s : LiveStore) (es : List Entry) : Prop where
  codes : s.entries.map (·.code) = es.map (·.code)
  known : ∀ code, (s.places.lookup code).isSome = true ↔ ∃ e ∈ es, e.code = code
  last : ∀ code i, s.places.lookup code = some i →
    (∃ e, es[i]? = some e ∧ e.code = code) ∧ ∀ j e, i < j → es[j]? = some e → e.code ≠ code
  find : ∀ code, s.find code = .ok (s.entries.reverse.find? (·.code = code))

lemma indexes_of_hasCodes {s : LiveStore} {es : List Entry} (hs : HasCodes es s) :
    s.Indexes es where
  codes := hs.codes
  known code := by
    rw [hs.places, (ofEntries es).exact, ← not_iff_not, Bool.not_eq_true,
      Option.isSome_eq_false_iff, Option.isNone_iff_eq_none, Store.lastPlace?_eq_none_iff]
    simp only [not_exists, not_and]
    rfl
  last code i hi := by
    rw [hs.places, (ofEntries es).exact] at hi
    exact Store.lastPlace?_eq_some_iff.mp hi
  find code := by
    rw [Store.find?_reverse, find, s.exact]
    cases h : Store.lastPlace? code s.entries with
    | none => rfl
    | some i =>
      obtain ⟨⟨e, he, -⟩, -⟩ := Store.lastPlace?_eq_some_iff.mp h
      simp only [he, Option.bind_some]

/-- **The index stays right**: whatever is done to a store, and whether it succeeds or not, the
entries keep their number, order and codes, the index tells the last place of each code, and the
batches that are counted are those that were taken. -/
theorem index_kept (es : List Entry) (as : List Action) :
    ((ofEntries es).acts as).Indexes es ∧
      ((ofEntries es).acts as).batches = ((ofEntries es).records as).countP (·.isOk) := by
  refine ⟨indexes_of_hasCodes (hasCodes_acts es (hasCodes_ofEntries es) as), ?_⟩
  rw [batches_acts]
  exact Nat.zero_add _

/-- Of two entries with one code the second is named. The first batch is refused and does not count,
though there is an entry for one of its updates. -/
example :
    let of (code : String) : EntryUpdate :=
      ⟨code, [], none, [], none, [], ⟨.noLinks, none, none, false, none, false, none⟩⟩
    let s := (ofEntries [{ code := "0101" }, { code := "0101" }]).acts
      [.writeBatch [of "0101", of "0202"], .writeBatch [of "0101"]]
    s.places.lookup "0101" = some 1 ∧ s.batches = 1 := by
  decide

end LiveStore

end Tariff
