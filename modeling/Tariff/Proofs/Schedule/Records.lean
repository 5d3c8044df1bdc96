import Tariff.Proofs.Schedule.Fragments
import Tariff.Proofs.Time.Rfc3339

/-!
Entries that are written and read back. Texts, lists, variables and points in time survive always,
so an entry is read back as it was exactly if the floating-point numbers in its origins and its
provenance and the pieces of its footnotes are.
-/

namespace Tariff

open Json (Document printed)
open Json.Document (missing?)

/-! ### Small data -/

lemma Variable.ofDocument?_printed (v : Variable) : ofDocument? (printed v.toJson) = some v :=
  ofName?_name v

lemma Json.variables?_printed (vs : List Variable) :
    (printed (ofVariables vs)).variables? = some vs :=
  (list?_printed _ _ vs).mpr fun v _ => v.ofDocument?_printed

lemma Json.strings?_printed (xs : List String) : (printed (ofStrings xs)).strings? = some xs :=
  (list?_printed _ _ xs).mpr fun s _ => string?_printed s

lemma Json.missing?_variables (o : Option (List Variable)) :
    missing? Document.variables? (some (printed (ofOption ofVariables o))) = some o :=
  (missing?_printed rfl _ o).mpr fun vs _ => variables?_printed vs

lemma Json.missing?_strings (o : Option (List String)) :
    missing? Document.strings? (some (printed (ofOption ofStrings o))) = some o :=
  (missing?_printed rfl _ o).mpr fun xs _ => strings?_printed xs

lemma Method.ofDocument?_printed (m : Method) :
    ofDocument? (printed (.string m.name)) = some m := by
  cases m <;> rfl

lemma Status.ofDocument?_printed (s : Status) :
    ofDocument? (printed (.string s.name)) = some s := by
  cases s <;> rfl

lemma Instant.ofDocument?_printed {t : Instant} (h : t.Valid) :
    ofDocument? (printed t.toJson) = some t := by
  rw [ofDocument?, toJson, Json.string?_printed, Option.bind_some, read?_render h]

lemma Json.missing?_instant {o : Option Instant} (h : ∀ t ∈ o, t.Valid) :
    missing? Instant.ofDocument? (some (printed (ofOption Instant.toJson o))) = some o :=
  (missing?_printed rfl _ o).mpr fun t ht => Instant.ofDocument?_printed (h t ht)

/-- A floating-point number is read back as it is written, or as another one, or not at all. -/
lemma Json.float?_printed (x : Float) : (printed (ofFloat x)).float? = some x ↔ Persists x := by
  have hread : (printed (ofFloat x)).float? = (Number.float x).reread?.map Number.toFloat := by
    rw [ofFloat, printed, Number.printed]
    cases hw : (Number.float x).isWritten with
    | true => rfl
    | false =>
      have hnone : (Number.float x).reread? = none := by
        rw [Option.eq_none_iff_forall_not_mem]
        intro n hn
        rw [isWritten_of_reread? hn] at hw
        cases hw
      rw [hnone]
      rfl
  rw [hread, persists_iff]

/-! ### Origins and provenances -/

def Origin.Dated (o : Origin) : Prop := ∀ t ∈ o.generatedAt, t.Valid

def Origin.Persists (o : Origin) : Prop := Json.Persists o.confidence

/-- **An origin is read back** as it is written exactly if its confidence is. -/
theorem Origin.ofDocument?_printed {o : Origin} (h : o.Dated) :
    ofDocument? (printed o.toJson) = some o ↔ o.Persists := by
  obtain ⟨method, confidence, generatedAt⟩ := o
  rw [Persists, ← Json.float?_printed, ofDocument?, toJson, Json.allFields?_printed]
  · simp only [List.map_cons, List.map_nil, Option.bind_eq_bind, Option.bind_some,
      Document.required?, Method.ofDocument?_printed, Json.missing?_instant h]
    simp [Option.bind_eq_some_iff]
  · decide
  · rfl

def Provenance.Dated (p : Provenance) : Prop := ∀ t ∈ p.synthesizedAt, t.Valid

def Provenance.Persists (p : Provenance) : Prop := ∀ x ∈ p.adjustmentRate, Json.Persists x

/-- **A provenance is read back** as it is written exactly if its adjustment rate is. -/
theorem Provenance.ofDocument?_printed {p : Provenance} (h : p.Dated) :
    ofDocument? (printed p.toJson) = some p ↔ p.Persists := by
  obtain ⟨status, code, rate, passThrough, reason, nonNtrDefaulted, synthesizedAt⟩ := p
  have hrate : missing? Document.float? (some (printed (.ofOption .ofFloat rate))) = some rate ↔
      ∀ x ∈ rate, Json.Persists x := by
    rw [Json.missing?_printed rfl]
    exact forall₂_congr fun x _ => Json.float?_printed x
  rw [Persists, ← hrate, ofDocument?, toJson, Json.allFields?_printed]
  · simp only [List.map_cons, List.map_nil, Option.bind_eq_bind, Option.bind_some,
      Document.required?, Status.ofDocument?_printed, Json.missing?_string, Json.bool?_printed,
      Json.missing?_instant h]
    simp [Option.bind_eq_some_iff]
  · decide
  · rfl

/-! ### Entries -/

namespace Entry

variable {room : Nat} {e : Entry}

/-- An entry as entries are read where `room` arrays and objects may lie within one another: its
times can be told, and its footnotes do not go too deep. -/
structure Tidy (room : Nat) (e : Entry) : Prop where
  origins : ∀ c, ∀ o ∈ (e.rate c).origin, o.Dated
  provenance : ∀ p ∈ e.provenance, p.Dated
  footnotes : ∀ f ∈ e.footnotes, f.Tidy room
  sourceFootnotes : ∀ fs ∈ e.sourceFootnotes, (Footnotes.fragments fs).Tidy (room - 1)

structure Persists (e : Entry) : Prop where
  origins : ∀ c, ∀ o ∈ (e.rate c).origin, o.Persists
  provenance : ∀ p ∈ e.provenance, p.Persists
  footnotes : ∀ f ∈ e.footnotes, f.Persists
  sourceFootnotes : ∀ fs ∈ e.sourceFootnotes, ∀ f ∈ fs, f.Persists

lemma missing?_origin {o : Option Origin} (h : ∀ a ∈ o, a.Dated) :
    missing? Origin.ofDocument? (some (printed (.ofOption Origin.toJson o))) = some o ↔
      ∀ a ∈ o, a.Persists := by
  rw [Json.missing?_printed rfl]
  exact forall₂_congr fun a ha => Origin.ofDocument?_printed (h a ha)

lemma missing?_provenance {p : Option Provenance} (h : ∀ a ∈ p, a.Dated) :
    missing? Provenance.ofDocument? (some (printed (.ofOption Provenance.toJson p))) = some p ↔
      ∀ a ∈ p, a.Persists := by
  rw [Json.missing?_printed rfl]
  exact forall₂_congr fun a ha => Provenance.ofDocument?_printed (h a ha)

lemma missing?_footnotes {f : Option Footnotes} (h : ∀ a ∈ f, a.Tidy room) :
    missing? (Footnotes.ofDocument? room) (some (printed (.ofOption Footnotes.toJson f))) = some f ↔
      ∀ a ∈ f, a.Persists := by
  rw [Json.missing?_printed rfl]
  exact forall₂_congr fun a ha => Footnotes.ofDocument?_printed (h a ha)

lemma missing?_fragments {fs : Option (List Fragment)}
    (h : ∀ a ∈ fs, (Footnotes.fragments a).Tidy room) :
    missing? (Fragment.listOfDocument? room)
        (some (printed (.ofOption (fun a => .array (a.map Fragment.toJson)) fs))) = some fs ↔
      ∀ a ∈ fs, ∀ f ∈ a, f.Persists := by
  rw [Json.missing?_printed rfl]
  exact forall₂_congr fun a ha => Fragment.listOfDocument?_printed (h a ha)

def metadata (e : Entry) : Json := .object [
  ("sourceFootnotes", .ofOption (fun fs => .array (fs.map Fragment.toJson)) e.sourceFootnotes),
  ("synthesis", .ofOption Provenance.toJson e.provenance)]

lemma readMetadata_printed (h : e.Tidy room) :
    readMetadata (room - 1) (printed e.metadata) = some (e.sourceFootnotes, e.provenance) ↔
      (∀ fs ∈ e.sourceFootnotes, ∀ f ∈ fs, f.Persists) ∧ ∀ p ∈ e.provenance, p.Persists := by
  rw [← missing?_fragments h.sourceFootnotes, ← missing?_provenance h.provenance, readMetadata,
    metadata, Json.someFields?_printed]
  · simp [Option.bind_eq_some_iff]
  · decide
  · rfl

/-- **An entry is read back** as it is written exactly if all that it holds is. -/
theorem ofDocument?_printed (h : e.Tidy room) :
    ofDocument? room (printed e.toJson) = some e ↔ e.Persists := by
  have hgeneral := missing?_origin (h.origins .general)
  have hother := missing?_origin (h.origins .other)
  have hfootnotes := missing?_footnotes h.footnotes
  have hmetadata := readMetadata_printed h
  rw [ofDocument?, toJson, Json.someFields?_printed]
  · simp only [List.map_cons, List.map_nil]
    rw [Option.bind_eq_bind, Option.bind_some]
    dsimp only
    simp only [Document.optional?, Json.string?_printed, Json.missing?_string,
      Json.missing?_strings, Json.missing?_variables, Option.bind_eq_bind, Option.bind_some,
      Option.bind_eq_some_iff]
    change (∃ m, readMetadata (room - 1) (printed e.metadata) = some m ∧ _) ↔ _
    constructor
    · rintro ⟨⟨fs, p⟩, hm, general, hg, other, ho, f, hf, heq⟩
      -- what was read is the entry, so each part that was read is its own
      have heq := Option.some.inj heq
      obtain rfl : fs = e.sourceFootnotes := congrArg Entry.sourceFootnotes heq
      obtain rfl : p = e.provenance := congrArg Entry.provenance heq
      obtain rfl : general = e.general.origin := congrArg (·.general.origin) heq
      obtain rfl : other = e.other.origin := congrArg (·.other.origin) heq
      obtain rfl : f = e.footnotes := congrArg Entry.footnotes heq
      obtain ⟨hsource, hprovenance⟩ := hmetadata.mp hm
      refine ⟨fun c => ?_, hprovenance, hfootnotes.mp hf, hsource⟩
      cases c with
      | general => exact hgeneral.mp hg
      | other => exact hother.mp ho
    · intro hp
      exact ⟨_, hmetadata.mpr ⟨hp.sourceFootnotes, hp.provenance⟩, _,
        hgeneral.mpr (hp.origins .general), _, hother.mpr (hp.origins .other), _,
        hfootnotes.mpr hp.footnotes, rfl⟩
  · decide
  · rfl

end Entry

/-! ### What is read -/

lemma Instant.valid_of_ofDocument? {d : Document} {t : Instant} (h : ofDocument? d = some t) :
    t.Valid := by
  obtain ⟨s, -, ht⟩ := Option.bind_eq_some_iff.mp h
  exact valid_of_read? ht

lemma Json.valid_of_missing? {d : Option Document} {o : Option Instant}
    (h : missing? Instant.ofDocument? d = some o) : ∀ t ∈ o, t.Valid := by
  intro t ht
  obtain ⟨d', -, hread⟩ := exists_of_missing? h ht
  exact Instant.valid_of_ofDocument? hread

lemma Origin.dated_of_ofDocument? {d : Document} {o : Origin} (h : ofDocument? d = some o) :
    o.Dated := by
  obtain ⟨ds, -, h⟩ := Option.bind_eq_some_iff.mp h
  split at h
  · simp only [Option.bind_eq_bind, Option.bind_eq_some_iff] at h
    obtain ⟨m, -, c, -, at', hat, heq⟩ := h
    cases heq
    exact Json.valid_of_missing? hat
  · cases h

lemma Provenance.dated_of_ofDocument? {d : Document} {p : Provenance}
    (h : ofDocument? d = some p) : p.Dated := by
  obtain ⟨ds, -, h⟩ := Option.bind_eq_some_iff.mp h
  split at h
  · simp only [Option.bind_eq_bind, Option.bind_eq_some_iff] at h
    obtain ⟨_, -, _, -, _, -, _, -, _, -, _, -, at', hat, heq⟩ := h
    cases heq
    exact Json.valid_of_missing? hat
  · cases h

namespace Entry

variable {room : Nat} {e : Entry}

lemma tidy_of_readMetadata {d : Option Document} (hd : ∀ d' ∈ d, d'.Ranged)
    {fs : Option (List Fragment)} {p : Option Provenance}
    (h : Document.optional? (none, none) (readMetadata room) d = some (fs, p)) :
    (∀ a ∈ fs, (Footnotes.fragments a).Tidy room) ∧ ∀ a ∈ p, a.Dated := by
  cases d with
  | none => cases h; simp
  | some d =>
    obtain ⟨ds, hds, h⟩ := Option.bind_eq_some_iff.mp h
    have hranged := Document.ranged_of_someFields? (hd d rfl) hds
    split at h
    · simp only [Option.bind_eq_bind, Option.bind_eq_some_iff] at h
      obtain ⟨fs', hfs, p', hp, heq⟩ := h
      cases heq
      constructor
      · intro a ha
        obtain ⟨d', hd', hread⟩ := Json.exists_of_missing? hfs ha
        exact Fragment.tidy_of_listOfDocument? (hranged _ (by simp) d' hd') hread
      · intro a ha
        obtain ⟨d', -, hread⟩ := Json.exists_of_missing? hp ha
        exact Provenance.dated_of_ofDocument? hread
    · cases h

/-- **An entry that is read is tidy.** -/
theorem tidy_of_ofDocument? {d : Document} (hd : d.Ranged) (h : ofDocument? room d = some e) :
    e.Tidy room := by
  obtain ⟨ds, hds, h⟩ := Option.bind_eq_some_iff.mp h
  have hranged := Document.ranged_of_someFields? hd hds
  split at h
  · obtain ⟨⟨fs, p⟩, hm, h⟩ := Option.bind_eq_some_iff.mp h
    iterate 6 obtain ⟨_, -, h⟩ := Option.bind_eq_some_iff.mp h
    obtain ⟨general, hg, h⟩ := Option.bind_eq_some_iff.mp h
    iterate 3 obtain ⟨_, -, h⟩ := Option.bind_eq_some_iff.mp h
    obtain ⟨other, ho, h⟩ := Option.bind_eq_some_iff.mp h
    iterate 2 obtain ⟨_, -, h⟩ := Option.bind_eq_some_iff.mp h
    obtain ⟨f, hf, h⟩ := Option.bind_eq_some_iff.mp h
    iterate 4 obtain ⟨_, -, h⟩ := Option.bind_eq_some_iff.mp h
    cases h
    have hmetadata := tidy_of_readMetadata (hranged _ (by simp)) hm
    refine ⟨fun c o hc => ?_, hmetadata.2, fun a ha => ?_, hmetadata.1⟩
    · cases c with
      | general =>
        obtain ⟨d', -, hread⟩ := Json.exists_of_missing? hg hc
        exact Origin.dated_of_ofDocument? hread
      | other =>
        obtain ⟨d', -, hread⟩ := Json.exists_of_missing? ho hc
        exact Origin.dated_of_ofDocument? hread
    · obtain ⟨d', hd', hread⟩ := Json.exists_of_missing? hf ha
      exact Footnotes.tidy_of_ofDocument? (hranged _ (by simp) d' hd') hread
  · cases h

end Entry

end Tariff
