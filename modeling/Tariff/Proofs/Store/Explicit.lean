import Tariff.Proofs.Store.Convergence
import Tariff.Proofs.Store.UpToDate

/-!
Lists of countries without normal trade relations that name a country. A synthesis finds such a
list as it will find it again, and once the default list is written it looks like any other; so it
is the provenance that says which of the two it is. No synthesis changes its mind about that.
-/

namespace Tariff

open Synthesis (ofEntry ordinary outcomes settle written nonNtrDefaulted stats)
open Adjustment (Headings nonNtrCountries normalizeCountries defaultNonNtr stored?)

def Entry.saysDefaulted (e : Entry) : Bool := e.provenance.any (·.nonNtrDefaulted)

/-! ### One entry -/

namespace Synthesis

variable (now : Instant) (h : Headings) {e : Entry} {L : List String}

structure Lists (e : Entry) (L : List String) : Prop where
  normalForm : e.nonNtr.map normalizeCountries = some L
  ne_nil : L ≠ []

lemma Lists.exists_stored (hl : Lists e L) :
    ∃ list, stored? e.nonNtr = some list ∧ normalizeCountries list = L := by
  obtain ⟨list, hlist, hL⟩ := Option.map_eq_some_iff.mp hl.normalForm
  refine ⟨list, Adjustment.stored?_eq_some_iff.mpr ⟨hlist, ?_⟩, hL⟩
  rintro rfl
  exact hl.ne_nil hL.symm

lemma Lists.nonNtrCountries_eq (hl : Lists e L) : nonNtrCountries e = L := by
  obtain ⟨list, hstored, hL⟩ := hl.exists_stored
  unfold nonNtrCountries
  rw [hstored, ← hL]
  rfl

/-- The default countries are told from a list that equals them by the provenance. -/
lemma Lists.nonNtrDefaulted_iff (hl : Lists e L) :
    nonNtrDefaulted e = true ↔ L = defaultNonNtr ∧ e.saysDefaulted = true := by
  obtain ⟨list, hstored, hL⟩ := hl.exists_stored
  unfold nonNtrDefaulted
  rw [hstored, ← hL, Bool.and_eq_true, beq_iff_eq]
  exact and_comm

lemma Lists.settle (hl : Lists e L) : Lists (settle now h e) L where
  normalForm := by
    unfold Synthesis.settle
    split_ifs
    · have hnormal := (Adjustment.normal_nonNtrCountries e).normalizeCountries_eq
      change (written now h e).nonNtr.map normalizeCountries = some L
      rw [nonNtr_written, Option.map_some, hnormal, hl.nonNtrCountries_eq]
    · exact hl.normalForm
  ne_nil := hl.ne_nil

/-- What a synthesis leaves says of the countries what the synthesis found. -/
lemma saysDefaulted_settle (e : Entry) : (settle now h e).saysDefaulted = nonNtrDefaulted e := by
  obtain ⟨p, hp, hsame⟩ := (heldBy_settle now h e).provenance
  have hfound : (ofEntry now h e).update.provenance.nonNtrDefaulted = nonNtrDefaulted e := rfl
  unfold Provenance.sameOutcome at hsame
  simp only [Bool.and_eq_true, beq_iff_eq] at hsame
  unfold Entry.saysDefaulted
  rw [hp, Option.any_some, hsame.2, hfound]

lemma Lists.nonNtrDefaulted_settle (hl : Lists e L) :
    nonNtrDefaulted (Synthesis.settle now h e) = nonNtrDefaulted e := by
  rw [Bool.eq_iff_iff, (hl.settle now h).nonNtrDefaulted_iff, saysDefaulted_settle,
    and_iff_right_iff_imp]
  exact fun hd => (hl.nonNtrDefaulted_iff.mp hd).1

end Synthesis

/-! ### A store -/

namespace Store

variable {s : Store} (calls : Nat → Settings)

/-- No synthesis moves an entry or touches a heading. -/
lemma afterSyntheses_frame (hd : (s.entries.map (·.code)).Nodup) (n : Nat) :
    ((s.afterSyntheses calls n).entries.map (·.code)) = s.entries.map (·.code) ∧
      Headings.ofEntries (s.afterSyntheses calls n).entries = Headings.ofEntries s.entries := by
  induction n with
  | zero => exact ⟨rfl, rfl⟩
  | succ n ih =>
    obtain ⟨hcodes, hheadings⟩ := ih
    have hd' : ((s.afterSyntheses calls n).entries.map (·.code)).Nodup := hcodes ▸ hd
    unfold afterSyntheses
    rw [synthesize_eq]
    exact ⟨(map_code_synthesized _ _).trans hcodes, (ofEntries_synthesized hd' _).trans hheadings⟩

lemma entries_afterSyntheses_succ (hd : (s.entries.map (·.code)).Nodup) (n : Nat) :
    (s.afterSyntheses calls (n + 1)).entries = (s.afterSyntheses calls n).entries.map
      (settled (calls n).now (Headings.ofEntries s.entries)) := by
  obtain ⟨hcodes, hheadings⟩ := afterSyntheses_frame calls hd n
  have hd' : ((s.afterSyntheses calls n).entries.map (·.code)).Nodup := hcodes ▸ hd
  rw [← hheadings, ← synthesized_eq_map hd', afterSyntheses, synthesize_eq]

/-- The counter of a synthesis counts the entries that say so behind it. -/
lemma nonNtrDefaults_stats (now : Instant) (hd : (s.entries.map (·.code)).Nodup) :
    (stats (outcomes now s.entries)).nonNtrDefaults =
      (ordinary (s.synthesized now)).countP Entry.saysDefaulted := by
  rw [ordinary_synthesized hd, List.countP_map]
  unfold outcomes stats
  dsimp only
  rw [List.countP_map]
  exact List.countP_congr fun e _ => by
    rw [Function.comp_apply, Function.comp_apply, Synthesis.saysDefaulted_settle]
    exact Iff.rfl

structure KeepsList (e e' : Entry) (L : List String) : Prop where
  code : e'.code = e.code
  ordinary : e'.isAdditionalDuty = false
  lists : Synthesis.Lists e' L
  defaulted : nonNtrDefaulted e' = nonNtrDefaulted e

/-- One more synthesis keeps the list, and then the provenance says what was found at first. -/
lemma KeepsList.settled {e e' : Entry} {L : List String} (hk : KeepsList e e' L) (now : Instant)
    (h : Headings) : KeepsList e (settled now h e') L ∧
      (settled now h e').saysDefaulted = nonNtrDefaulted e := by
  have hsettled : Store.settled now h e' = settle now h e' := if_neg (by simp [hk.ordinary])
  have hcode : (settle now h e').code = e'.code := by
    unfold settle
    split_ifs <;> rfl
  refine ⟨⟨?_, ?_, ?_, ?_⟩, ?_⟩
  · rw [hsettled, hcode, hk.code]
  · rw [isAdditionalDuty_settled, hk.ordinary]
  · rw [hsettled]
    exact hk.lists.settle now h
  · rw [hsettled, hk.lists.nonNtrDefaulted_settle, hk.defaulted]
  · rw [hsettled, Synthesis.saysDefaulted_settle, hk.defaulted]

lemma keepsList_afterSyntheses (hd : (s.entries.map (·.code)).Nodup) {i : Nat} {e : Entry}
    {L : List String} (he : s.entries[i]? = some e) (ha : e.isAdditionalDuty = false)
    (hl : Synthesis.Lists e L) (n : Nat) :
    ∃ e', (s.afterSyntheses calls n).entries[i]? = some e' ∧ KeepsList e e' L ∧
      (0 < n → e'.saysDefaulted = nonNtrDefaulted e) := by
  induction n with
  | zero => exact ⟨e, he, ⟨rfl, ha, hl, rfl⟩, fun h => absurd h (Nat.lt_irrefl 0)⟩
  | succ n ih =>
    obtain ⟨e', he', hk, -⟩ := ih
    obtain ⟨hk', htells⟩ := hk.settled (calls n).now (Headings.ofEntries s.entries)
    refine ⟨_, ?_, hk', fun _ => htells⟩
    rw [entries_afterSyntheses_succ calls hd, List.getElem?_map, he', Option.map_some]

/-- **A list of countries that an entry states is never replaced, nor taken for the default one.**
However many syntheses are made, the list keeps its normal form; behind each of them the provenance
says that the default countries were taken exactly if the list equals them and the provenance said
so before; and each synthesis counts the entries that say so behind it. -/
theorem explicit_list_kept (hd : (s.entries.map (·.code)).Nodup) (n : Nat) :
    (∀ (i : Nat) (e : Entry) (L : List String), s.entries[i]? = some e →
      e.isAdditionalDuty = false → e.nonNtr.map normalizeCountries = some L → L ≠ [] →
      ∃ e', (s.afterSyntheses calls n).entries[i]? = some e' ∧ e'.code = e.code ∧
        e'.nonNtr.map normalizeCountries = some L ∧
        (0 < n → (e'.saysDefaulted = true ↔ L = defaultNonNtr ∧ e.saysDefaulted = true))) ∧
    ∃ r, (s.afterSyntheses calls n).synthesize
        (calls n).now (calls n).batchSize (calls n).workers =
          (s.afterSyntheses calls (n + 1), .ok r) ∧
      r.nonNtrDefaults =
        (ordinary (s.afterSyntheses calls (n + 1)).entries).countP Entry.saysDefaulted := by
  refine ⟨fun i e L he ha hlist hne => ?_, ?_⟩
  · have hl : Synthesis.Lists e L := ⟨hlist, hne⟩
    obtain ⟨e', he', hk, htells⟩ := keepsList_afterSyntheses calls hd he ha hl n
    refine ⟨e', he', hk.code, hk.lists.normalForm, fun hn => ?_⟩
    rw [htells hn, hl.nonNtrDefaulted_iff]
  · have hd' : ((s.afterSyntheses calls n).entries.map (·.code)).Nodup :=
      (afterSyntheses_frame calls hd n).1 ▸ hd
    have hrun := synthesize_eq (s.afterSyntheses calls n)
      (calls n).now (calls n).batchSize (calls n).workers
    refine ⟨_, ?_, nonNtrDefaults_stats (calls n).now hd' |>.trans ?_⟩
    · rw [afterSyntheses, hrun]
    · rw [afterSyntheses, hrun]

/-- The default countries, stated by hand: three syntheses take them for what they are. -/
theorem explicit_list_kept_default_countries :
    let e : Entry := { code := "0101", chapter := "01", nonNtr := some ["ru", "BY", "cu ", "KP"] }
    let s := ofEntries [e]
    let calls : Nat → Settings := fun n => ⟨⟨n, 0⟩, n, 4⟩
    (s.entries.map (·.code)).Nodup ∧ e.nonNtr.map normalizeCountries = some defaultNonNtr ∧
      ∃ e', (s.afterSyntheses calls 3).entries[0]? = some e' ∧
        e'.nonNtr.map normalizeCountries = some defaultNonNtr ∧ e'.saysDefaulted = false := by
  intro e s calls
  have hlist : e.nonNtr.map normalizeCountries = some defaultNonNtr := by decide +kernel
  obtain ⟨e', he', -, hkept, htells⟩ := (explicit_list_kept (s := s) calls (by decide) 3).1 0 e
    defaultNonNtr rfl (by decide) hlist (by decide)
  refine ⟨by decide, hlist, e', he', hkept, ?_⟩
  rw [← Bool.not_eq_true, htells (by decide)]
  exact fun h => absurd h.2 (by decide)

end Store

end Tariff
