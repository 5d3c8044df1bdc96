import Tariff.Proofs.Store.Steps
import Tariff.Proofs.Synthesis.Settled

/-!
Entries with one code. The last of them is the one that the code names and the only one that is
ever written to, but updates are made for all of them, so it may end up with what was found for
an entry that it shadows. A pass puts what the generator brings behind what the grammar knows; a
synthesis makes no update for an entry that has settled, while a shadowed entry never settles.
-/

namespace Tariff

open Compilation (Compiler cells known? inColumn updatesBy)
open Synthesis (ordinary)
open Adjustment (Headings)

def EntryUpdate.Agrees (u v : EntryUpdate) : Prop :=
  u.links = v.links ∧ u.countries = v.countries ∧ u.nonNtr = v.nonNtr ∧ u.adjusted = v.adjusted ∧
    u.provenance.sameOutcome v.provenance = true

namespace Synthesis

variable (now : Instant) (h : Headings)

/-- An entry onto which a synthesis was written holds what another synthesis finds, if the two
agree. -/
lemma differs_applySynthesis (e a : Entry) (v : EntryUpdate) :
    differs (e.applySynthesis (ofEntry now h a).update) v = false ↔
      (ofEntry now h a).update.Agrees v := by
  have hlinks : normalizeLinks (ofEntry now h a).update.links = (ofEntry now h a).update.links :=
    normalizeLinks_resolveLinks a
  have hcountries : (ofEntry now h a).update.countries.map Adjustment.normalizeCountries =
      (ofEntry now h a).update.countries :=
    Adjustment.normalizeCountries_countries a a.resolveLinks h
  have hnonNtr : Adjustment.normalizeCountries (ofEntry now h a).update.nonNtr =
      (ofEntry now h a).update.nonNtr := by
    have hn : (ofEntry now h a).update.nonNtr = Adjustment.nonNtrCountries a :=
      Adjustment.nonNtr_ofEntry a a.resolveLinks h
    rw [hn, (Adjustment.normal_nonNtrCountries a).normalizeCountries_eq]
  set u := (ofEntry now h a).update
  unfold differs EntryUpdate.Agrees Entry.applySynthesis
  simp [hlinks, hcountries, hnonNtr, and_assoc]

lemma agrees_self (e : Entry) : (ofEntry now h e).update.Agrees (ofEntry now h e).update := by
  have hrate := Adjustment.beq_rate e e.resolveLinks h
  refine ⟨rfl, rfl, rfl, rfl, ?_⟩
  unfold Provenance.sameOutcome
  simp only [ofEntry, updateOf, hrate, beq_self_eq_true, Bool.and_self]

end Synthesis

namespace Store

/-! ### Formulas -/

/-- The entries with a code that are shadowed: all but the last. -/
def shadowed (es : List Entry) (code : String) : List Entry :=
  (es.filter (·.code = code)).dropLast

lemma filter_code_of_get? {s : Store} {code : String} {e : Entry} (h : s.get? code = some e) :
    s.entries.filter (·.code = code) = shadowed s.entries code ++ [e] := by
  obtain ⟨i, hp, he⟩ := get?_eq_some_iff.mp h
  obtain ⟨-, hlast⟩ := lastPlace?_eq_some_iff.mp hp
  have hc := code_of_get? h
  have hsplit : s.entries = s.entries.take i ++ e :: s.entries.drop (i + 1) := by
    obtain ⟨hi, rfl⟩ := List.getElem?_eq_some_iff.mp he
    rw [List.getElem_cons_drop, List.take_append_drop]
  have hrest : (s.entries.drop (i + 1)).filter (·.code = code) = [] := by
    refine List.filter_eq_nil_iff.mpr fun a ha hcode => ?_
    obtain ⟨j, ha⟩ := List.mem_iff_getElem?.mp ha
    rw [List.getElem?_drop] at ha
    exact hlast _ a (by omega) ha (of_decide_eq_true hcode)
  have hfilter : s.entries.filter (·.code = code) =
      (s.entries.take i).filter (·.code = code) ++ [e] := by
    conv_lhs => rw [hsplit]
    rw [List.filter_append, List.filter_cons_of_pos (by simpa using hc), hrest]
  unfold shadowed
  rw [hfilter, List.dropLast_concat]

/-- The update that stays of those made for a column of a code. -/
def left? (us : List FormulaUpdate) (code : String) (col : Column) : Option FormulaUpdate :=
  (us.filter fun u => u.code = code ∧ u.column = col).getLast?

lemma rate_foldl_left? (us : List FormulaUpdate) (e : Entry) (code : String) (col : Column) :
    ((us.filter (·.code = code)).foldl Entry.applyFormula e).rate col =
      ((left? us code col).map (e.rate col).holding).getD (e.rate col) := by
  rw [Entry.rate_foldl_applyFormula, List.filter_filter]
  unfold left?
  simp only [← Bool.decide_and, and_comm]

/-- Each rate column of an entry holds, after a pass, what it held or what the pass finds for the
text and the unit of that entry; nothing else of it changes. -/
def OwnRates (c : Compiler) (now : Option Instant) (es : List Entry) (e e' : Entry) : Prop :=
  (∃ general other, e' = { e with general := general, other := other }) ∧
    ∀ col, match left? (c.answer now es).2.updates e.code col with
      | none => e'.rate col = e.rate col
      | some u => e'.rate col = (e.rate col).holding u ∧
          inColumn (c.outcome? es) col e = some u.compiled

/-- No shadowed entry gets in the way of an entry in a pass: where the generator brings nothing
for the entry it brings nothing for any that it shadows, and where the grammar has nothing either
it has nothing for any of them. -/
def SparesRates (c : Compiler) (es : List Entry) (e : Entry) : Prop :=
  ∀ col, (inColumn (c.generated? es) col e).isSome ∨
    (∀ a ∈ shadowed es e.code, inColumn (c.generated? es) col a = none) ∧
      ((inColumn known? col e).isSome ∨ ∀ a ∈ shadowed es e.code, inColumn known? col a = none)

lemma left?_answer (c : Compiler) (now : Option Instant) (es : List Entry) (code : String)
    (col : Column) :
    left? (c.answer now es).2.updates code col =
      ((((es.filter (·.code = code)).filterMap (inColumn (c.generated? es) col)).getLast?.or
        ((es.filter (·.code = code)).filterMap (inColumn known? col)).getLast?).map
          fun f => ⟨code, col, f, now⟩) := by
  unfold left?
  rw [Compilation.updates_answer, List.filter_append, Compilation.filter_updatesBy,
    Compilation.filter_updatesBy, List.getLast?_append, List.getLast?_map, List.getLast?_map,
    ← Option.map_or]

lemma getLast?_filterMap_concat {α β : Type} (f : α → Option β) (xs : List α) (x : α) :
    ((xs ++ [x]).filterMap f).getLast? = (f x).or (xs.filterMap f).getLast? := by
  rw [List.filterMap_append, List.getLast?_append]
  cases hx : f x <;> simp [hx]

lemma getLast?_filterMap_eq_none {α β : Type} {f : α → Option β} {xs : List α} :
    (xs.filterMap f).getLast? = none ↔ ∀ x ∈ xs, f x = none := by
  rw [List.getLast?_eq_none_iff, List.filterMap_eq_nil_iff]

/-- A pass leaves an entry with its own formulas exactly if no shadowed entry gets in the way. -/
lemma ownRates_iff {s : Store} {code : String} {e : Entry} (h : s.get? code = some e)
    (c : Compiler) (now : Option Instant) :
    OwnRates c now s.entries e
        (((c.answer now s.entries).2.updates.filter (·.code = code)).foldl Entry.applyFormula e) ↔
      SparesRates c s.entries e := by
  have hcode := code_of_get? h
  refine (and_iff_right (Entry.exists_foldl_applyFormula e _)).trans (forall_congr' fun col => ?_)
  rw [rate_foldl_left?, hcode, left?_answer, filter_code_of_get? h, getLast?_filterMap_concat,
    getLast?_filterMap_concat, Compilation.inColumn_outcome?]
  cases hg : inColumn (c.generated? s.entries) col e with
  | some g => simp [Compilation.inColumn_known?_of_generated? hg]
  | none =>
    rw [Option.none_or, Option.or_none, ← getLast?_filterMap_eq_none]
    cases hs : ((shadowed s.entries code).filterMap
        (inColumn (c.generated? s.entries) col)).getLast? with
    | some g =>
      obtain ⟨a, -, ha⟩ := List.mem_filterMap.mp (List.mem_of_getLast? hs)
      refine iff_of_false (fun hown => ?_) (by simp)
      exact Compilation.ne_of_inColumn hown.2 ha rfl
    | none =>
      rw [Option.none_or, ← getLast?_filterMap_eq_none]
      cases inColumn known? col e with
      | some f => simp
      | none =>
        cases ((shadowed s.entries code).filterMap (inColumn known? col)).getLast? <;> simp

/-! ### Adjustments -/

/-- An entry holds, after a synthesis, what that synthesis finds for it; a heading of additional
duties, for which there is none, is left as it is. Formulas and their texts stay. -/
def OwnSynthesis (now : Instant) (es : List Entry) (e e' : Entry) : Prop :=
  (e'.general = e.general ∧ e'.other = e.other) ∧
    if e.isAdditionalDuty then e' = e ∧ ∀ u ∈ Synthesis.updates now es, u.code ≠ e.code
    else Synthesis.differs e' (Synthesis.ofEntry now (Headings.ofEntries es) e).update = false

/-- The syntheses that are written for shadowed entries with a code. -/
def intrusions (now : Instant) (es : List Entry) (code : String) : List Synthesis :=
  ((ordinary (shadowed es code)).map (Synthesis.ofEntry now (Headings.ofEntries es))).filter
    (·.changed)

/-- No shadowed entry gets in the way of an entry in a synthesis: the entry is written itself, and
so comes last, or the last that is written for a shadowed one agrees with what is found for it. -/
def SparesSynthesis (now : Instant) (es : List Entry) (e : Entry) : Prop :=
  if e.isAdditionalDuty then intrusions now es e.code = []
  else
    (Synthesis.ofEntry now (Headings.ofEntries es) e).changed = true ∨
      ∀ x, (intrusions now es e.code).getLast? = some x →
        x.update.Agrees (Synthesis.ofEntry now (Headings.ofEntries es) e).update

lemma filter_updates_eq {s : Store} {code : String} {e : Entry} (h : s.get? code = some e)
    (now : Instant) :
    (Synthesis.updates now s.entries).filter (·.code = code) =
      (intrusions now s.entries code).map (·.update) ++
        (((ordinary [e]).map (Synthesis.ofEntry now (Headings.ofEntries s.entries))).filter
          (·.changed)).map (·.update) := by
  have hord : (ordinary s.entries).filter (·.code = code) =
      ordinary (shadowed s.entries code) ++ ordinary [e] := by
    unfold ordinary
    rw [List.filter_comm, filter_code_of_get? h, List.filter_append]
  rw [Synthesis.filter_updates, hord, List.map_append, List.filter_append, List.map_append]
  rfl

/-- A synthesis leaves an entry with its own adjustment exactly if no shadowed entry gets in the
way. -/
lemma ownSynthesis_iff {s : Store} {code : String} {e : Entry} (h : s.get? code = some e)
    (now : Instant) :
    OwnSynthesis now s.entries e
        ((((Synthesis.updates now s.entries).filter (·.code = code)).getLast?.map
          e.applySynthesis).getD e) ↔
      SparesSynthesis now s.entries e := by
  have hcode := code_of_get? h
  have hrates (o : Option EntryUpdate) : ((o.map e.applySynthesis).getD e).general = e.general ∧
      ((o.map e.applySynthesis).getD e).other = e.other := by
    cases o <;> exact ⟨rfl, rfl⟩
  refine (and_iff_right (hrates _)).trans ?_
  have hupdates := filter_updates_eq h now
  unfold SparesSynthesis
  rw [hcode]
  cases ha : e.isAdditionalDuty with
  | true =>
    have hord : ordinary [e] = [] := List.filter_cons_of_neg (by simp [ha])
    rw [hord, List.map_nil, List.filter_nil, List.map_nil, List.append_nil] at hupdates
    have hnone : (∀ u ∈ Synthesis.updates now s.entries, u.code ≠ code) ↔
        intrusions now s.entries code = [] := by
      rw [← List.map_eq_nil_iff, ← hupdates, List.filter_eq_nil_iff]
      simp
    rw [if_pos rfl, if_pos rfl, hnone, hupdates]
    exact and_iff_right_of_imp fun hi => by rw [hi]; rfl
  | false =>
    have hord : ordinary [e] = [e] := List.filter_cons_of_pos (by simp [ha])
    rw [hord, List.map_singleton] at hupdates
    rw [if_neg Bool.false_ne_true, if_neg Bool.false_ne_true, hupdates]
    set find := Synthesis.ofEntry now (Headings.ofEntries s.entries)
    cases hc : (find e).changed with
    | true =>
      rw [List.filter_cons_of_pos hc, List.filter_nil, List.map_singleton, List.getLast?_concat]
      refine iff_of_true ?_ (.inl rfl)
      exact (Synthesis.differs_applySynthesis now _ e e _).mpr (Synthesis.agrees_self now _ e)
    | false =>
      rw [List.filter_cons_of_neg (by simp [hc]), List.filter_nil, List.map_nil, List.append_nil,
        List.getLast?_map, or_iff_right Bool.false_ne_true]
      cases hi : (intrusions now s.entries code).getLast? with
      | none => exact iff_of_true hc (by simp)
      | some x =>
        obtain ⟨a, -, rfl⟩ := List.mem_map.mp
          (List.mem_filter.mp (List.mem_of_getLast? hi)).1
        simp only [Option.map_some, Option.getD_some, Option.some.injEq, forall_eq']
        exact Synthesis.differs_applySynthesis now _ e a _

/-! ### Runs -/

def Step.Own (s : Store) (e e' : Entry) : Step → Prop
  | .compile c now => OwnRates c now s.entries e e'
  | .synthesize now _ _ => OwnSynthesis now s.entries e e'

/-- No shadowed entry gets in the way of an entry in a step. -/
def Step.Spares (s : Store) (e : Entry) : Step → Prop
  | .compile c _ => SparesRates c s.entries e
  | .synthesize now _ _ => SparesSynthesis now s.entries e

lemma step_own_iff {s t : Store} {a : Step} (ht : s.step a = .ok t) :
    (∀ code e, s.get? code = some e → ∃ e', t.get? code = some e' ∧ a.Own s e e') ↔
      ∀ code e, s.get? code = some e → a.Spares s e := by
  refine forall₂_congr fun code e => imp_congr_right fun h => ?_
  cases a with
  | compile c now =>
    rw [step_compile_ok ht, get?_compiled h]
    simp only [Option.some.injEq, exists_eq_left']
    exact ownRates_iff h c now
  | synthesize now batchSize workers =>
    cases (s.step_synthesize now batchSize workers).symm.trans ht
    rw [get?_synthesized h]
    simp only [Option.some.injEq, exists_eq_left']
    exact ownSynthesis_iff h now

/-- **Of entries with one code the last keeps to itself**, all along a run of passes and syntheses,
exactly if no shadowed entry gets in its way at any step. -/
theorem own_iff_spared (entries : List Entry) (steps : List Step) :
    (ofEntries entries).EachStep (fun s a t => ∀ code e, s.get? code = some e →
        ∃ e', t.get? code = some e' ∧ a.Own s e e') steps ↔
      (ofEntries entries).EachStep (fun s a _ => ∀ code e, s.get? code = some e →
        a.Spares s e) steps :=
  eachStep_congr (fun _ _ _ ht => step_own_iff ht) _ _

lemma shadowed_of_nodup {es : List Entry} (hd : (es.map (·.code)).Nodup) {e : Entry}
    (he : e ∈ es) : shadowed es e.code = [] := by
  unfold shadowed
  rw [filter_code_of_nodup hd he]
  rfl

/-- With distinct codes nothing is shadowed, and every entry keeps to itself. -/
theorem own_of_nodup {entries : List Entry} (hd : (entries.map (·.code)).Nodup)
    (steps : List Step) :
    (ofEntries entries).EachStep (fun s a t => ∀ code e, s.get? code = some e →
      ∃ e', t.get? code = some e' ∧ a.Own s e e') steps := by
  refine eachStep_of_invariant (I := fun s => (s.entries.map (·.code)).Nodup)
    (fun s a t hs ht => ⟨(step_own_iff ht).mpr fun code e h => ?_, ?_⟩) hd steps
  · obtain ⟨i, -, he⟩ := get?_eq_some_iff.mp h
    have hnone := shadowed_of_nodup hs (List.mem_of_getElem? he)
    cases a with
    | compile c now =>
      exact fun col => .inr ⟨by simp [hnone], .inr (by simp [hnone])⟩
    | synthesize now batchSize workers =>
      have hi : intrusions now s.entries e.code = [] := by
        unfold intrusions
        rw [hnone]
        rfl
      unfold Step.Spares SparesSynthesis
      simp [hi]
  · rwa [map_code_step ht]

/-- An entry without a rate text gets the formula of one that it shadows. -/
theorem compile_shadowed_free :
    let s := ofEntries [{ code := "0101", chapter := "01", general := { text := some "Free" } },
      { code := "0101", chapter := "01" }]
    let a := Step.compile ⟨none⟩ none
    (∃ t e, s.step a = .ok t ∧ t.get? "0101" = some e ∧ e.general.text = none ∧
      e.general.formula = some "0") ∧
    ¬ s.EachStep (fun s a t => ∀ code e, s.get? code = some e →
      ∃ e', t.get? code = some e' ∧ a.Own s e e') [a] := by
  intro s a
  have hlast : s.get? "0101" = some { code := "0101", chapter := "01" } := rfl
  have hfree : (known? "Free" none).isSome = true := by decide +kernel
  have hwritable : Compilation.Writable s.entries :=
    List.findSome?_eq_none_iff.mp (by decide +kernel)
  have ht : s.step a = .ok ⟨s.compiled ⟨none⟩ none, s.batches⟩ := by
    rw [step_compile, Compilation.pass_eq_ok_iff.mpr ⟨hwritable, rfl⟩]
  constructor
  · exact ⟨_, _, ht, get?_compiled hlast _ _ _, by decide +kernel⟩
  · intro heach
    unfold EachStep at heach
    rw [ht] at heach
    obtain ⟨hown, -⟩ := heach
    rcases (step_own_iff ht).mp hown "0101" _ hlast .general with hg | ⟨-, hk | hshadowed⟩
    · cases hg
    · cases hk
    · have hnone : known? "Free" none = none := hshadowed _ List.mem_cons_self
      rw [hnone] at hfree
      cases hfree

end Store

end Tariff
