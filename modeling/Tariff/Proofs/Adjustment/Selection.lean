import Mathlib.Data.List.Nodup
import Tariff.Adjustment.Heading
import Tariff.Proofs.Lists

/-!
Which heading is selected for an entry: the first candidate that lets the duty pass through, and
only where there is none the first that adds a positive rate. From this follows what the selection
does not depend on: candidates that qualify for neither, the order of the codes where one candidate
alone lets the duty pass through, and the order of a schedule whose headings have distinct codes.
-/

namespace Tariff.Adjustment

open Tariff.Text

/-! ### The headings of a schedule -/

def headingCode (e : Entry) : String := String.ofList (trim e.code.toList)

def isHeading (code : String) (e : Entry) : Bool := e.isAdditionalDuty && headingCode e == code

lemma insert_eq (h : Headings) (e : Entry) :
    h.insert e = if e.isAdditionalDuty && (h.get? (headingCode e)).isNone then
      ⟨h.list ++ [(headingCode e, e)]⟩ else h := rfl

lemma get?_insert (h : Headings) (e : Entry) (code : String) :
    (h.insert e).get? code = (h.get? code).or (if isHeading code e then some e else none) := by
  by_cases hnew : e.isAdditionalDuty = true ∧ h.get? (headingCode e) = none
  · have hinsert : h.insert e = ⟨h.list ++ [(headingCode e, e)]⟩ :=
      (insert_eq h e).trans (if_pos (by simp [hnew.1, hnew.2]))
    have heq : (code == headingCode e) = (headingCode e == code) := Bool.beq_comm
    rw [hinsert]
    cases hc : headingCode e == code <;>
      simp [Headings.get?, List.lookup_append, List.lookup_cons, isHeading, hnew.1, heq, hc]
  · have hinsert : h.insert e = h := (insert_eq h e).trans (if_neg (by simpa using hnew))
    rw [hinsert]
    cases hc : isHeading code e with
    | false => simp
    | true =>
      obtain ⟨ha, rfl⟩ : e.isAdditionalDuty = true ∧ headingCode e = code := by
        simpa [isHeading] using hc
      obtain ⟨e', he'⟩ := Option.ne_none_iff_exists'.mp fun hn => hnew ⟨ha, hn⟩
      simp [he']

/-- A code finds the first heading that has it. -/
lemma get?_ofEntries (es : List Entry) (code : String) :
    (Headings.ofEntries es).get? code = es.find? (isHeading code) := by
  have hfold : ∀ (es : List Entry) (h : Headings),
      (es.foldl Headings.insert h).get? code = (h.get? code).or (es.find? (isHeading code)) := by
    intro es
    induction es with
    | nil => simp
    | cons e es ih =>
      intro h
      rw [List.foldl_cons, ih, get?_insert, Option.or_assoc, List.find?_cons]
      cases isHeading code e <;> simp
  exact hfold es ⟨[]⟩

/-! ### Candidates -/

/-- The candidate that a code stands for: the first heading that has it, if that has a rate text. -/
def candidate? (es : List Entry) (code : String) : Option Candidate := do
  let heading ← es.find? (isHeading code)
  some ⟨code, heading, ← heading.general.text⟩

def Candidate.passes (c : Candidate) : Bool := isPassThrough c.text

def Candidate.adds (c : Candidate) : Bool := (adjustmentRate? c.text).any (0 < ·)

def Candidate.qualifies (c : Candidate) : Bool := c.passes || c.adds

def qualifies (es : List Entry) (code : String) : Bool :=
  (candidate? es code).any Candidate.qualifies

def IsFirst (p : Candidate → Bool) (cs : List Candidate) (c : Candidate) : Prop :=
  p c = true ∧ ∃ before after, cs = before ++ c :: after ∧ ∀ d ∈ before, p d = false

/-- The heading chosen among candidates. -/
inductive Chosen (cs : List Candidate) : Reference → Entry → Prop where
  | passes {c : Candidate} (first : IsFirst Candidate.passes cs c) :
      Chosen cs ⟨c.code, c.text, (adjustmentRate? c.text).getD 0, true⟩ c.heading
  | adds {c : Candidate} {rate : Float} (none : ∀ d ∈ cs, d.passes = false)
      (first : IsFirst Candidate.adds cs c) (hrate : adjustmentRate? c.text = some rate)
      (positive : 0 < rate) :
      Chosen cs ⟨c.code, c.text, rate, false⟩ c.heading

lemma candidates_ofEntries (es : List Entry) (codes : List String) :
    candidates codes (.ofEntries es) = codes.filterMap (candidate? es) := by
  unfold candidates candidate?
  simp only [get?_ofEntries]

lemma isFirst_iff {p : Candidate → Bool} {cs : List Candidate} {c : Candidate} :
    IsFirst p cs c ↔ cs.find? p = some c := by
  simp [IsFirst, List.find?_eq_some_iff_append]

lemma filter_adjustmentRate?_eq_none_iff {c : Candidate} :
    (adjustmentRate? c.text).filter (0 < ·) = none ↔ c.adds = false := by
  unfold Candidate.adds
  cases adjustmentRate? c.text <;> simp [Option.filter]

lemma adds_of_adjustmentRate? {c : Candidate} {rate : Float}
    (hrate : adjustmentRate? c.text = some rate) (positive : 0 < rate) : c.adds = true := by
  simp [Candidate.adds, hrate, positive]

/-! ### The two passes -/

lemma select?_eq_some_iff {codes : List String} {h : Headings} {ref : Reference} {heading : Entry} :
    select? codes h = some (ref, heading) ↔ Chosen (candidates codes h) ref heading := by
  unfold select?
  dsimp only
  generalize candidates codes h = cs
  cases hfind : cs.find? (isPassThrough ·.text) with
  | some c =>
    have hfirst : IsFirst Candidate.passes cs c := isFirst_iff.mpr hfind
    constructor
    · rintro ⟨⟩
      exact .passes hfirst
    · rintro (⟨hfirst'⟩ | ⟨hnone, -, -, -⟩)
      · cases hfind.symm.trans (isFirst_iff.mp hfirst')
        rfl
      · have hpasses := hnone c (List.mem_of_find?_eq_some hfind)
        exact absurd (hfirst.1.symm.trans hpasses) (by simp)
  | none =>
    have hnone : ∀ d ∈ cs, d.passes = false := by
      simpa [Candidate.passes] using List.find?_eq_none.mp hfind
    rw [List.findSome?_eq_some_iff]
    constructor
    · rintro ⟨before, c, after, rfl, hc, hbefore⟩
      obtain ⟨rate, hrate, ⟨⟩⟩ := Option.bind_eq_some_iff.mp hc
      obtain ⟨hrate, hpos⟩ := Option.filter_eq_some_iff.mp hrate
      have hpos : 0 < rate := of_decide_eq_true hpos
      refine .adds hnone ⟨adds_of_adjustmentRate? hrate hpos, before, after, rfl, ?_⟩ hrate hpos
      intro d hd
      exact filter_adjustmentRate?_eq_none_iff.mp (by simpa using hbefore d hd)
    · rintro (⟨hfirst⟩ | ⟨-, ⟨-, before, after, rfl, hbefore⟩, hrate, hpos⟩)
      · cases hfind.symm.trans (isFirst_iff.mp hfirst)
      · refine ⟨before, _, after, rfl, by simp [hrate, hpos, Option.filter], fun d hd => ?_⟩
        rw [filter_adjustmentRate?_eq_none_iff.mpr (hbefore d hd)]
        rfl

lemma select?_eq_none_iff {codes : List String} {h : Headings} :
    select? codes h = none ↔ ∀ c ∈ candidates codes h, c.qualifies = false := by
  unfold select? Candidate.qualifies
  dsimp only
  generalize candidates codes h = cs
  cases hfind : cs.find? (isPassThrough ·.text) with
  | some c =>
    have hpasses : c.passes = true := List.find?_some hfind
    have hmem := List.mem_of_find?_eq_some hfind
    simp only [reduceCtorEq, false_iff, not_forall]
    exact ⟨c, hmem, by simp [hpasses]⟩
  | none =>
    have hnone : ∀ d ∈ cs, d.passes = false := by
      simpa [Candidate.passes] using List.find?_eq_none.mp hfind
    dsimp only
    rw [List.findSome?_eq_none_iff]
    refine forall₂_congr fun c hc => ?_
    rw [hnone c hc, Bool.false_or, ← filter_adjustmentRate?_eq_none_iff]
    cases (adjustmentRate? c.text).filter (0 < ·) <;> simp

/-! ### What the selection does not depend on -/

lemma isFirst_filter {p q : Candidate → Bool} (h : ∀ c, p c = true → q c = true)
    {cs : List Candidate} {c : Candidate} : IsFirst p (cs.filter q) c ↔ IsFirst p cs c := by
  have hp : (fun c => q c && p c) = p := by
    funext c
    cases hc : p c <;> simp_all
  rw [isFirst_iff, isFirst_iff, List.find?_filter]
  simp only [Bool.decide_and, Bool.decide_eq_true, hp]

/-- Only candidates that qualify matter to the choice. -/
lemma chosen_filter {cs : List Candidate} {ref : Reference} {heading : Entry} :
    Chosen (cs.filter Candidate.qualifies) ref heading ↔ Chosen cs ref heading := by
  have hpasses : ∀ c : Candidate, c.passes = true → c.qualifies = true := by
    simp +contextual [Candidate.qualifies]
  have hadds : ∀ c : Candidate, c.adds = true → c.qualifies = true := by
    simp +contextual [Candidate.qualifies]
  constructor
  · rintro (⟨hfirst⟩ | ⟨hnone, hfirst, hrate, hpos⟩)
    · exact .passes ((isFirst_filter hpasses).mp hfirst)
    · refine .adds (fun d hd => ?_) ((isFirst_filter hadds).mp hfirst) hrate hpos
      cases hq : d.qualifies with
      | true => exact hnone d (List.mem_filter.mpr ⟨hd, hq⟩)
      | false => exact (Bool.or_eq_false_iff.mp hq).1
  · rintro (⟨hfirst⟩ | ⟨hnone, hfirst, hrate, hpos⟩)
    · exact .passes ((isFirst_filter hpasses).mpr hfirst)
    · exact .adds (fun d hd => hnone d (List.mem_filter.mp hd).1)
        ((isFirst_filter hadds).mpr hfirst) hrate hpos

lemma select?_congr {codes codes' : List String} {h h' : Headings}
    (heq : ∀ ref heading, Chosen (candidates codes' h') ref heading ↔
      Chosen (candidates codes h) ref heading) : select? codes' h' = select? codes h := by
  refine Option.ext fun ⟨ref, heading⟩ => ?_
  rw [select?_eq_some_iff, select?_eq_some_iff, heq]

lemma filter_candidates (es : List Entry) (codes : List String) :
    (codes.filterMap (candidate? es)).filter Candidate.qualifies =
      (codes.filter (qualifies es)).filterMap (candidate? es) := by
  induction codes with
  | nil => rfl
  | cons code codes ih =>
    cases hc : candidate? es code with
    | none => simp [qualifies, hc, ih]
    | some c => cases hq : c.qualifies <;> simp [qualifies, hc, hq, ih]

lemma find?_isHeading_of_perm {es es' : List Entry} (hperm : es'.Perm es)
    (hd : ((es.filter (·.isAdditionalDuty)).map headingCode).Nodup) (code : String) :
    es'.find? (isHeading code) = es.find? (isHeading code) := by
  refine find?_eq_of_perm hperm fun a ha b hb hpa hpb => ?_
  obtain ⟨haa, hca⟩ : a.isAdditionalDuty = true ∧ headingCode a = code := by
    simpa [isHeading] using hpa
  obtain ⟨hab, hcb⟩ : b.isAdditionalDuty = true ∧ headingCode b = code := by
    simpa [isHeading] using hpb
  exact List.inj_on_of_nodup_map hd (List.mem_filter.mpr ⟨ha, haa⟩) (List.mem_filter.mpr ⟨hb, hab⟩)
    (hca.trans hcb.symm)

/-! ### The selection -/

/-- What the selection among the headings of a schedule does with the codes of an entry. -/
structure TwoPasses (es : List Entry) (codes : List String) : Prop where
  /-- The heading selected is the one chosen among the candidates. -/
  selected : ∀ ref heading, select? codes (.ofEntries es) = some (ref, heading) ↔
    Chosen (codes.filterMap (candidate? es)) ref heading
  /-- Nothing is selected exactly where no candidate qualifies. -/
  none_iff : select? codes (.ofEntries es) = none ↔
    ∀ c ∈ codes.filterMap (candidate? es), c.passes = false ∧ c.adds = false
  /-- Codes that stand for no candidate that qualifies may come, go and move. -/
  unqualified : ∀ codes', codes'.filter (qualifies es) = codes.filter (qualifies es) →
    select? codes' (.ofEntries es) = select? codes (.ofEntries es)
  /-- The one candidate that lets the duty pass through is selected wherever it stands. -/
  only : ∀ c, (codes.filterMap (candidate? es)).filter Candidate.passes = [c] →
    ∀ codes', codes'.Perm codes → select? codes' (.ofEntries es) =
      some (⟨c.code, c.text, (adjustmentRate? c.text).getD 0, true⟩, c.heading)
  /-- Headings of distinct codes may stand in any order. -/
  reordered : ((es.filter (·.isAdditionalDuty)).map headingCode).Nodup →
    ∀ es', es'.Perm es → select? codes (.ofEntries es') = select? codes (.ofEntries es)

/-- **A heading is selected in two passes**: the first candidate that lets the duty pass through,
else the first that adds a positive rate. -/
theorem select_in_two_passes (es : List Entry) (codes : List String) : TwoPasses es codes where
  selected ref heading := by rw [select?_eq_some_iff, candidates_ofEntries]
  none_iff := by
    rw [select?_eq_none_iff, candidates_ofEntries]
    simp only [Candidate.qualifies, Bool.or_eq_false_iff]
  unqualified codes' heq := by
    refine select?_congr fun ref heading => ?_
    rw [candidates_ofEntries, candidates_ofEntries, ← chosen_filter, filter_candidates, heq,
      ← filter_candidates, chosen_filter]
  only c hone codes' hperm := by
    have hfilter : (codes'.filterMap (candidate? es)).filter Candidate.passes = [c] := by
      rw [← List.perm_singleton, ← hone]
      exact (hperm.filterMap _).filter _
    rw [select?_eq_some_iff, candidates_ofEntries]
    refine .passes (isFirst_iff.mpr ?_)
    rw [← List.head?_filter, hfilter]
    rfl
  reordered hd es' hperm := by
    refine select?_congr fun ref heading => ?_
    have heq : candidate? es' = candidate? es := by
      funext code
      rw [candidate?, find?_isHeading_of_perm hperm hd]
      rfl
    rw [candidates_ofEntries, candidates_ofEntries, heq]

end Tariff.Adjustment
