import Mathlib.Data.Option.Basic
import Mathlib.Tactic.Common
import Tariff.Override

/-!
Which override is used: of those whose formulas pass the gate and that apply, the most specific by
country and then by version, and of equals the earliest. Overrides that cannot be used play no part,
and the order of the list matters only among equals.
-/

namespace Tariff

namespace Override

open Tariff.Text

variable {o p r : Override} {q : Query}

def NamesCountry (o : Override) (q : Query) : Prop :=
  sameIgnoringAsciiCase o.country q.country = true

/-- The override is for the goods, the formula, the country and the version that are asked for; it
may be for all countries and for all versions. -/
structure Applies (o : Override) (q : Query) : Prop where
  code : o.code = q.code
  kind : o.kind = q.kind
  country : o.NamesCountry q ∨ sameIgnoringAsciiCase o.country allCountries = true
  version : o.version = none ∨ o.version = q.version

/-- The override applies, and its formula passes the gate. -/
def Usable (o : Override) (q : Query) : Prop := Formula.Accepted o.formula ∧ o.Applies q

/-- One override is more specific than another: by its country, or else by its version. -/
inductive MoreSpecific (q : Query) (o p : Override) : Prop where
  | country (named : o.NamesCountry q) (all : ¬p.NamesCountry q)
  | version (same : o.NamesCountry q ↔ p.NamesCountry q) (one : o.version ≠ none)
    (all : p.version = none)

def AsSpecific (q : Query) (o p : Override) : Prop :=
  (o.NamesCountry q ↔ p.NamesCountry q) ∧ (o.version = none ↔ p.version = none)

instance (o : Override) (q : Query) : Decidable (o.NamesCountry q) :=
  inferInstanceAs (Decidable (_ = _))

lemma applies_iff : o.Applies q ↔ o.code = q.code ∧ o.kind = q.kind ∧
    (o.NamesCountry q ∨ sameIgnoringAsciiCase o.country allCountries = true) ∧
    (o.version = none ∨ o.version = q.version) :=
  ⟨fun ⟨hcode, hkind, hcountry, hversion⟩ => ⟨hcode, hkind, hcountry, hversion⟩,
    fun ⟨hcode, hkind, hcountry, hversion⟩ => ⟨hcode, hkind, hcountry, hversion⟩⟩

instance (o : Override) (q : Query) : Decidable (o.Applies q) := decidable_of_iff' _ applies_iff

instance (o : Override) (q : Query) : Decidable (o.Usable q) := inferInstanceAs (Decidable (_ ∧ _))

/-! ### Ranks -/

def place (o : Override) (q : Query) : Nat × Nat :=
  (if o.NamesCountry q then 2 else 1, if o.version = none then 1 else 2)

/-- An override that applies has its rank, and the others have none. -/
lemma rank?_eq (o : Override) (q : Query) :
    o.rank? q = if o.Applies q then some (o.place q) else none := by
  by_cases hgoods : o.code = q.code ∧ o.kind = q.kind
  · unfold rank? place
    simp only [applies_iff, hgoods.1, hgoods.2, true_and, NamesCountry, eq_comm (b := q.version)]
    -- what is left are the ranks by country and by version
    cases hv : o.version <;> split_ifs <;> simp_all
  · rw [if_neg fun h => hgoods ⟨h.code, h.kind⟩]
    unfold rank?
    rw [not_and_or] at hgoods
    simp [hgoods]

lemma above_place : above (o.place q) (p.place q) = true ↔ MoreSpecific q o p := by
  have hcases : MoreSpecific q o p ↔ (o.NamesCountry q ∧ ¬p.NamesCountry q) ∨
      ((o.NamesCountry q ↔ p.NamesCountry q) ∧ o.version ≠ none ∧ p.version = none) :=
    ⟨fun | .country named all => .inl ⟨named, all⟩
         | .version same one all => .inr ⟨same, one, all⟩,
      fun | .inl ⟨named, all⟩ => .country named all
          | .inr ⟨same, one, all⟩ => .version same one all⟩
  rw [hcases]
  unfold above place
  split_ifs <;> simp_all

lemma place_eq : o.place q = p.place q ↔ AsSpecific q o p := by
  unfold place AsSpecific
  rw [Prod.mk.injEq]
  split_ifs <;> simp_all

lemma above_iff {s t : Nat × Nat} :
    above s t = true ↔ t.1 < s.1 ∨ s.1 = t.1 ∧ t.2 < s.2 := by
  simp [above]

lemma MoreSpecific.asymm (h : MoreSpecific q o p) : ¬MoreSpecific q p o := by
  rw [← above_place, above_iff] at *
  omega

lemma MoreSpecific.not_asSpecific (h : MoreSpecific q o p) : ¬AsSpecific q p o := by
  rw [← above_place, above_iff] at h
  rw [← place_eq, Prod.ext_iff]
  omega

lemma MoreSpecific.of_not (h : MoreSpecific q o p) (h' : ¬MoreSpecific q r p) :
    MoreSpecific q o r := by
  rw [← above_place, above_iff] at *
  omega

lemma asSpecific_of_not (h : ¬MoreSpecific q o p) (h' : ¬MoreSpecific q p o) :
    AsSpecific q o p := by
  rw [← above_place, above_iff] at h h'
  rw [← place_eq, Prod.ext_iff]
  omega

/-! ### The closest of a list -/

/-- The override for a query among those of a list: none that can be used is more specific, and
none before it is as specific. -/
structure Closest (os : List Override) (q : Query) (o : Override) : Prop where
  usable : o.Usable q
  best : ∀ p ∈ os, p.Usable q → ¬MoreSpecific q p o
  first : ∃ before after, os = before ++ o :: after ∧
    ∀ p ∈ before, p.Usable q → ¬AsSpecific q p o

variable {os os' : List Override}

lemma Closest.mem (h : Closest os q o) : o ∈ os := by
  obtain ⟨before, after, rfl, -⟩ := h.first
  exact List.mem_append_right _ List.mem_cons_self

/-- A list has one closest override at most. -/
lemma Closest.unique (h : Closest os q o) (h' : Closest os q p) : o = p := by
  have hsame := asSpecific_of_not (h'.best o h.mem h.usable) (h.best p h'.mem h'.usable)
  obtain ⟨before, after, rfl, hbefore⟩ := h.first
  obtain ⟨before', after', heq, hbefore'⟩ := h'.first
  rcases List.append_eq_append_iff.mp heq with ⟨x, rfl, hx⟩ | ⟨x, rfl, hx⟩
  · cases x with
    | nil => exact (List.cons.inj hx).1
    | cons y x =>
      obtain ⟨rfl, -⟩ := List.cons.inj hx
      exact absurd hsame (hbefore' o (by simp) h.usable)
  · cases x with
    | nil => exact (List.cons.inj hx).1.symm
    | cons y x =>
      obtain ⟨rfl, -⟩ := List.cons.inj hx
      exact absurd ⟨hsame.1.symm, hsame.2.symm⟩ (hbefore p (by simp) h'.usable)

/-- An override that is added last and beats the closest is the closest. -/
lemma Closest.concat_of_moreSpecific (h : Closest os q p) (ho : o.Usable q)
    (hop : MoreSpecific q o p) : Closest (os ++ [o]) q o where
  usable := ho
  best r hr hru := by
    rcases List.mem_append.mp hr with hr | hr
    · exact (hop.of_not (h.best r hr hru)).asymm
    · rw [List.mem_singleton.mp hr]
      exact fun hself => hself.asymm hself
  first := ⟨os, [], rfl, fun r hr hru => (hop.of_not (h.best r hr hru)).not_asSpecific⟩

/-- Others that are added last change nothing. -/
lemma Closest.concat (h : Closest os q p) (ho : o.Usable q → ¬MoreSpecific q o p) :
    Closest (os ++ [o]) q p where
  usable := h.usable
  best r hr hru := by
    rcases List.mem_append.mp hr with hr | hr
    · exact h.best r hr hru
    · obtain rfl := List.mem_singleton.mp hr
      exact ho hru
  first := by
    obtain ⟨before, after, rfl, hbefore⟩ := h.first
    exact ⟨before, after ++ [o], by simp, hbefore⟩

lemma closest_concat_of_forall (h : ∀ p ∈ os, ¬p.Usable q) (ho : o.Usable q) :
    Closest (os ++ [o]) q o where
  usable := ho
  best r hr hru := by
    rcases List.mem_append.mp hr with hr | hr
    · exact absurd hru (h r hr)
    · rw [List.mem_singleton.mp hr]
      exact fun hself => hself.asymm hself
  first := ⟨os, [], rfl, fun r hr hru => absurd hru (h r hr)⟩

end Override

/-! ### One pass over the list -/

namespace Overrides

open Override (Query Usable Closest MoreSpecific AsSpecific)

variable {os os' : List Override} {q : Query} {o p : Override}

/-- The best of those found so far and one more, whose formula the gate has yet to judge. -/
def consider (q : Query) (best : Option ((Nat × Nat) × Override)) (o : Override) :
    Option ((Nat × Nat) × Override) :=
  if Formula.Accepted o.formula then better q best o else best

/-- What is known of the best found among the overrides seen so far. -/
inductive Best (q : Query) (seen : List Override) : Option ((Nat × Nat) × Override) → Prop where
  | none (h : ∀ o ∈ seen, ¬o.Usable q) : Best q seen none
  | some {o : Override} (h : Closest seen q o) : Best q seen (some (o.place q, o))

lemma resolve?_ofList (os : List Override) (q : Query) :
    (ofList os).resolve? q = (os.foldl (consider q) none).map (·.2) := by
  unfold resolve? ofList consider Formula.Accepted
  simp only [List.foldl_filter, Option.isNone_iff_eq_none]
  rfl

lemma consider_of_not_usable (h : ¬o.Usable q) (best : Option ((Nat × Nat) × Override)) :
    consider q best o = best := by
  unfold consider better
  split_ifs with ha
  · rw [Override.rank?_eq, if_neg fun hap => h ⟨ha, hap⟩]
  · rfl

lemma Best.step {seen : List Override} {best : Option ((Nat × Nat) × Override)}
    (h : Best q seen best) (o : Override) : Best q (seen ++ [o]) (consider q best o) := by
  by_cases ho : o.Usable q
  · unfold consider better
    rw [if_pos ho.1, Override.rank?_eq, if_pos ho.2]
    cases h with
    | none h => exact .some (Override.closest_concat_of_forall h ho)
    | @some p h =>
      dsimp only
      split_ifs with habove
      · exact .some (h.concat_of_moreSpecific ho (Override.above_place.mp habove))
      · exact .some (h.concat fun _ => mt Override.above_place.mpr habove)
  · rw [consider_of_not_usable ho]
    cases h with
    | none h =>
      refine .none fun p hp => ?_
      rcases List.mem_append.mp hp with hp | hp
      · exact h p hp
      · rwa [List.mem_singleton.mp hp]
    | some h => exact .some (h.concat fun hu => absurd hu ho)

lemma Best.run {seen : List Override} {best : Option ((Nat × Nat) × Override)}
    (h : Best q seen best) (os : List Override) :
    Best q (seen ++ os) (os.foldl (consider q) best) := by
  induction os generalizing seen best with
  | nil => rwa [List.append_nil]
  | cons o os ih => simpa using ih (h.step o)

lemma resolve?_cases (os : List Override) (q : Query) :
    ((ofList os).resolve? q = none ∧ ∀ o ∈ os, ¬o.Usable q) ∨
      ∃ o, (ofList os).resolve? q = some o ∧ Closest os q o := by
  have hrun := (Best.none (q := q) fun o ho => absurd ho List.not_mem_nil).run os
  rw [List.nil_append] at hrun
  rw [resolve?_ofList]
  generalize os.foldl (consider q) none = best at hrun
  cases hrun with
  | none h => exact .inl ⟨rfl, h⟩
  | some h => exact .inr ⟨_, rfl, h⟩

lemma resolve?_eq_some_iff : (ofList os).resolve? q = some o ↔ Closest os q o := by
  rcases resolve?_cases os q with ⟨hnone, hall⟩ | ⟨p, hp, hclosest⟩
  · rw [hnone]
    exact iff_of_false (by simp) fun h => hall o h.mem h.usable
  · rw [hp, Option.some.injEq]
    exact ⟨fun h => h ▸ hclosest, fun h => hclosest.unique h⟩

lemma resolve?_eq_none_iff : (ofList os).resolve? q = none ↔ ∀ o ∈ os, ¬o.Usable q := by
  rcases resolve?_cases os q with ⟨hnone, hall⟩ | ⟨p, hp, hclosest⟩
  · exact iff_of_true hnone hall
  · rw [hp]
    exact iff_of_false (by simp) fun h => h p hclosest.mem hclosest.usable

/-- Only overrides that can be used matter. -/
lemma resolve?_filter (os : List Override) (q : Query) :
    (ofList (os.filter (·.Usable q))).resolve? q = (ofList os).resolve? q := by
  have hstep (best : Option ((Nat × Nat) × Override)) (o : Override) :
      (if decide (o.Usable q) = true then consider q best o else best) = consider q best o := by
    split_ifs with h
    · rfl
    · exact (consider_of_not_usable (by simpa using h) best).symm
  rw [resolve?_ofList, resolve?_ofList, List.foldl_filter]
  simp only [hstep]

/-! ### Main statement -/

structure Used (os : List Override) : Prop where
  /-- The override for a query is the closest that can be used. -/
  closest : ∀ q o, (ofList os).resolve? q = some o ↔ Closest os q o
  /-- There is none exactly where none can be used. -/
  none_iff : ∀ q, (ofList os).resolve? q = none ↔ ∀ o ∈ os, ¬o.Usable q
  /-- Overrides that cannot be used may come, go and move. -/
  unusable : ∀ q os', os'.filter (·.Usable q) = os.filter (·.Usable q) →
    (ofList os').resolve? q = (ofList os).resolve? q
  /-- In another order there is an override as specific, or again none. -/
  reordered : ∀ q os', os'.Perm os →
    Option.Rel (AsSpecific q) ((ofList os').resolve? q) ((ofList os).resolve? q)
  /-- Where an override can be used, the formula to use is that of the closest, -/
  overridden : ∀ (e : Entry) kind country version,
    (∃ o ∈ os, o.Usable ⟨e.code, country, kind, version⟩) →
    ∃ o, Closest os ⟨e.code, country, kind, version⟩ o ∧
      (ofList os).effective? e kind country version = some o.formula
  /-- and the compiled one only where none can. -/
  computed : ∀ (e : Entry) kind country version,
    (∀ o ∈ os, ¬o.Usable ⟨e.code, country, kind, version⟩) →
    (ofList os).effective? e kind country version = computed? e kind

/-- **The closest override is used**, whatever else is in the list and however it is ordered. -/
theorem closest_used (os : List Override) : Used os where
  closest _ _ := resolve?_eq_some_iff
  none_iff _ := resolve?_eq_none_iff
  unusable q os' h := by rw [← resolve?_filter os', h, resolve?_filter]
  reordered q os' hperm := by
    rcases resolve?_cases os q with ⟨hnone, hall⟩ | ⟨o, ho, hclosest⟩
    · rw [hnone, resolve?_eq_none_iff.mpr fun o ho => hall o (hperm.mem_iff.mp ho)]
      exact .none
    rcases resolve?_cases os' q with ⟨-, hall⟩ | ⟨o', ho', hclosest'⟩
    · exact absurd hclosest.usable (hall o (hperm.mem_iff.mpr hclosest.mem))
    · rw [ho, ho']
      exact .some (Override.asSpecific_of_not
        (hclosest.best o' (hperm.mem_iff.mp hclosest'.mem) hclosest'.usable)
        (hclosest'.best o (hperm.mem_iff.mpr hclosest.mem) hclosest.usable))
  overridden e kind country version h := by
    rcases resolve?_cases os ⟨e.code, country, kind, version⟩ with ⟨-, hall⟩ | ⟨o, ho, hclosest⟩
    · obtain ⟨o, ho, hu⟩ := h
      exact absurd hu (hall o ho)
    · refine ⟨o, hclosest, ?_⟩
      unfold effective?
      rw [ho]
  computed e kind country version h := by
    unfold effective?
    rw [resolve?_eq_none_iff.mpr h]

end Overrides

end Tariff
