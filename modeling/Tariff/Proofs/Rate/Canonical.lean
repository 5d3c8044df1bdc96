import Tariff.Proofs.Rate.Finite
import Tariff.Proofs.Rate.Spelling
import Tariff.Proofs.Text.Lower
import Tariff.Rate.Compile

/-!
When the normal form of a rate text is its own normal form. Stops at the end go last and only once,
after the abbreviations: a stop may hide the end that `ad val` looks for, and the one that goes with
`kg` may have hidden a plural or another stop. Where none of these is left, a second pass changes
nothing, and where one is, it does.
-/

namespace Tariff.Rate

open Tariff.Text

/-! ### The passes over a text -/

/-- The first steps: lower case, one kind of dash and single spaces. -/
def even (s : List Char) : List Char := squeeze (unifyDashes (lower s))

/-- The last steps: no blanks at the ends and no stops at the end. -/
def tidyEnd (s : List Char) : List Char := trimEnd (dropTail isStop (trim s))

lemma normalize_eq (raw : String) :
    normalize raw = String.ofList (tidyEnd (spellOut (even raw.toList))) := rfl

/-- What the first steps bring about and no later step undoes. -/
structure Even (s : List Char) : Prop where
  low : ∀ c ∈ s, Low c ∧ isDash c = false
  spaced : Spaced s

lemma Even.left {s t : List Char} (h : Even (s ++ t)) : Even s where
  low c hc := h.low c (List.mem_append_left t hc)
  spaced := h.spaced.left

lemma Even.spell {s : List Char} (h : Even s) (x : Abbreviation) : Even (x.spell s) where
  low c hc := by
    rcases Abbreviation.mem_spell hc with hc | hc
    · exact h.low c hc
    · have himage : ∀ c ∈ x.image.toList, (lowerChar c = [c] ∧ c ≠ 'Σ') ∧ isDash c = false :=
        forall_mem_of_all (by cases x <;> decide +kernel)
      obtain ⟨⟨h1, h2⟩, h3⟩ := himage c hc
      exact ⟨⟨h1, h2⟩, h3⟩
  spaced := x.spaced_spell h.spaced

lemma unifyDashes_eq_self {s : List Char} (h : ∀ c ∈ s, isDash c = false) :
    unifyDashes s = s := by
  have hself : ∀ c ∈ s, (if isDash c then '-' else c) = id c := fun c hc => by
    rw [h c hc]
    rfl
  unfold unifyDashes
  rw [List.map_congr_left hself, List.map_id]

lemma Even.even_eq {s : List Char} (h : Even s) (ht : Trimmed s) : even s = s := by
  have hlower : lower s = s := lower_of_low fun c hc => (h.low c hc).1
  unfold even
  rw [hlower, unifyDashes_eq_self fun c hc => (h.low c hc).2, squeeze_of_spaced h.spaced ht]

lemma even_even (s : List Char) : Even (even s) ∧ Trimmed (even s) := by
  obtain ⟨hs, ht⟩ := spaced_squeeze (unifyDashes (lower s))
  refine ⟨⟨fun c hc => ?_, hs⟩, ht⟩
  have hfew : ∀ c ∈ ['-', ' '], (lowerChar c = [c] ∧ c ≠ 'Σ') ∧ isDash c = false :=
    forall_mem_of_all (by decide +kernel)
  have hlow (c : Char) (hc : c ∈ ['-', ' ']) : Low c ∧ isDash c = false :=
    ⟨⟨(hfew c hc).1.1, (hfew c hc).1.2⟩, (hfew c hc).2⟩
  rcases mem_of_mem_squeeze hc with hc | rfl
  · obtain ⟨d, hd, rfl⟩ := List.mem_map.mp hc
    cases hdash : isDash d with
    | true => exact hlow '-' (by decide)
    | false => exact ⟨low_of_mem_lower hd, hdash⟩
  · exact hlow ' ' (by decide)

lemma exists_dropTail (p : Char → Bool) (s : List Char) :
    ∃ tail, s = dropTail p s ++ tail ∧ ∀ c ∈ tail, p c = true := by
  rw [dropTail_eq_rdropWhile]
  refine ⟨s.rtakeWhile p, List.rdropWhile_append_rtakeWhile.symm, fun c hc => ?_⟩
  exact List.mem_rtakeWhile_imp hc

lemma trimmed_tidyEnd (s : List Char) : Trimmed (tidyEnd s) where
  head c hc := (trimmed_trim s).head c (head?_dropTail (head?_dropTail hc))
  last := getLast?_dropTail isBlank _

/-- Where no blank stands in front, the last steps take blanks and stops off the end, and blanks
only if no stop goes. -/
lemma exists_tidyEnd {s : List Char} (hs : s.head?.any isBlank = false) :
    (∃ tail, s = tidyEnd s ++ tail ∧ ∀ c ∈ tail, isBlank c = true ∨ isStop c = true) ∧
      ∃ tail, s = trim s ++ tail ∧ ∀ c ∈ tail, isBlank c = true := by
  have hstart : trimStart s = s := dropWhile_of_head? hs
  obtain ⟨t₁, h₁, hblank₁⟩ := exists_dropTail isBlank (trimStart s)
  obtain ⟨t₂, h₂, hstop⟩ := exists_dropTail isStop (trim s)
  obtain ⟨t₃, h₃, hblank₃⟩ := exists_dropTail isBlank (dropTail isStop (trim s))
  have htrim : s = trim s ++ t₁ := by
    rw [hstart] at h₁
    unfold trim trimEnd
    rw [hstart, ← h₁]
  refine ⟨⟨t₃ ++ (t₂ ++ t₁), ?_, fun c hc => ?_⟩, t₁, htrim, hblank₁⟩
  · have hend : tidyEnd s ++ t₃ = dropTail isStop (trim s) := h₃.symm
    rw [← List.append_assoc, hend, ← List.append_assoc, ← h₂, ← htrim]
  · rcases List.mem_append.mp hc with hc | hc
    · exact .inl (hblank₃ c hc)
    · exact (List.mem_append.mp hc).symm.imp (hblank₁ c) (hstop c)

/-- The normal form is even, and none of the abbreviations is left in it but for those that a
second pass may find: kilograms, and a rate on the value at the end. -/
structure Spelled (t : List Char) : Prop where
  even : Even t
  trimmed : Trimmed t
  perCent : ¬Somewhere (Found perCentText) none t
  number : ¬Somewhere (Found numberText) none t
  adValorem :
    ¬Somewhere (Found fun l behind => adValoremText l behind ∧ behind.isSome = true) none t

lemma even_spellOut {s : List Char} (h : Even s) : Even (spellOut s) := by
  rw [Abbreviation.spellOut_eq]
  exact (((h.spell .adValorem).spell .perCent).spell .kilograms).spell .number

lemma head?_spellOut (s : List Char) : (spellOut s).head? = s.head? := by
  rw [Abbreviation.spellOut_eq]
  simp only [Abbreviation.head?_spell]

lemma isWord_of_isStop {c : Char} (h : isStop c = true) : isWord c = false := by
  unfold isStop at h
  simp only [Bool.or_eq_true, beq_iff_eq] at h
  rcases h with (rfl | rfl) | rfl <;> decide

lemma not_any_isBlank {s : List Char} (h : Trimmed s) : s.head?.any isBlank = false := by
  cases hs : s.head? with
  | none => rfl
  | some c => exact h.head c hs

lemma spelled_normal (s : List Char) : Spelled (tidyEnd (spellOut (Rate.even s))) := by
  obtain ⟨he, ht⟩ := even_even s
  have hhead : (spellOut (Rate.even s)).head?.any isBlank = false := by
    rw [head?_spellOut]
    exact not_any_isBlank ht
  obtain ⟨⟨tail, htail, hends⟩, -⟩ := exists_tidyEnd hhead
  have hword : tail.head?.any isWord = false := by
    cases h : tail.head? with
    | none => rfl
    | some c =>
      rcases hends c (List.mem_of_mem_head? h) with hc | hc
      · exact Formula.isWord_of_isBlank hc
      · exact isWord_of_isStop hc
  have hleft {x : Abbreviation} (hx : x ≠ .kilograms) :
      ¬Somewhere (Found x.text) none (tidyEnd (spellOut (Rate.even s)) ++ tail) := by
    rw [← htail]
    exact Abbreviation.not_somewhere_spellOut hx _
  constructor
  case even =>
    have := even_spellOut he
    rw [htail] at this
    exact this.left
  case trimmed => exact trimmed_tidyEnd _
  case perCent =>
    refine fun h => hleft (x := .perCent) (by decide) (h.found_append_right ?_)
    rintro l (- | c) ⟨hl, hbehind⟩
    · exact ⟨hl, hword⟩
    · exact ⟨hl, hbehind⟩
  case number =>
    exact fun h => hleft (x := .number) (by decide) (h.found_append_right fun _ _ hl => hl)
  case adValorem =>
    refine fun h => hleft (x := .adValorem) (by decide) (h.found_append_right ?_)
    rintro l (- | c) ⟨hl, hbehind⟩
    · cases hbehind
    · exact hl

/-! ### A second pass -/

/-- A short spelling of ad valorem that ends the text. -/
def shortEnd (l : List Char) (behind : Option Char) : Prop :=
  l ∈ ["ad val".toList, "adval".toList, "advalorem".toList] ∧ behind = none

/-- A text in which a second pass finds nothing: it ends in no stop and no short spelling of ad
valorem, and no kilogram in it has a plural or a stop. -/
structure Settled (t : List Char) : Prop where
  stop : t.getLast?.any isStop = false
  value : ¬Somewhere (Found shortEnd) none t
  kilogram : ¬Somewhere (Found kilogramText) none t

lemma IsAdValorem.cases_spaced {l : List Char} (h : IsAdValorem l) (hs : Spaced l) :
    l.getLast? = some '.' ∨ l ∈ ["ad val".toList, "adval".toList, "advalorem".toList] ∨
      l = "ad valorem".toList := by
  obtain ⟨b, e, hblanks, he, rfl⟩ := h
  have hb : Spaced b := hs.left.left.right
  have hb : b = [] ∨ b = [' '] := by
    rcases b with - | ⟨c, - | ⟨d, ds⟩⟩
    · exact .inl rfl
    · exact .inr (by rw [hb.space c (by simp) (hblanks c (by simp))])
    · have hd := (List.isChain_cons.mp hb.single).1 d rfl (hblanks c (by simp))
      rw [hblanks d (by simp)] at hd
      cases hd
  simp only [List.mem_cons, List.not_mem_nil, or_false] at he
  rcases he with rfl | rfl | rfl <;> rcases hb with rfl | rfl <;> decide

/-- Where only the full spelling is found, and that without a space at the end at most, a space at
the end is all that the first step brings. -/
lemma adValorem_eq_or {before : Option Char} {text out : List Char}
    (hr : adValorem.Rewritten "ad valorem ".toList before text out)
    (h : ¬Somewhere (Found fun l behind => adValoremText l behind ∧
      ¬(l = "ad valorem".toList ∧ behind = none)) before text) :
    out = text ∨ out = text ++ [' '] := by
  induction hr with
  | nil => exact .inl rfl
  | @keep before c cs out hn hr ih =>
    exact (ih fun hs => h (.inr hs)).imp (congrArg (c :: ·)) (congrArg (c :: ·))
  | @hit before m rest out u hf hm hr ih =>
    obtain ⟨hb, l, hl, ⟨heq, rfl⟩ | ⟨c, hc, heq⟩⟩ := adValorem_eq_some_iff.mp hf
    · have hfull : l = "ad valorem".toList := by
        by_contra hne
        refine h (.here ⟨hb, l, [], by rw [heq, List.append_nil], ⟨hl, rfl, ?_⟩, ?_⟩)
        · exact fun hfull => hne hfull.1
        · exact fun hfull => hne hfull.1
      have hnil : out = [] := List.head?_eq_none_iff.mp (hr.head?_eq headed_adValorem rfl)
      rw [hnil, heq, hfull]
      exact .inr rfl
    · have hm : m = l ++ [c] := by
        have heq : m ++ rest = (l ++ [c]) ++ rest := by rw [heq]; simp
        exact List.append_cancel_right heq
      have himage : m = "ad valorem ".toList := by
        by_contra hne
        refine h (.here ⟨hb, l, c :: rest, heq, ⟨hl, hc, ?_⟩, fun hfull => by cases hfull.2⟩)
        rintro ⟨rfl, hspace⟩
        cases hspace
        exact hne hm
      rw [himage, List.append_assoc]
      rw [himage] at ih h
      exact (ih fun hs => h (.append_left hs)).imp (congrArg _) (congrArg _)

/-- What is left of ad valorem in a settled text is written in full. -/
lemma Spelled.full {t : List Char} (h : Spelled t) (hs : Settled t) :
    ¬Somewhere (Found fun l behind => adValoremText l behind ∧
      ¬(l = "ad valorem".toList ∧ behind = none)) none t := by
  intro hfound
  obtain ⟨front, _, rfl, hb, l, rest, rfl, hl, hne⟩ := hfound.exists_append
  rcases rest with - | ⟨c, cs⟩
  · rw [List.append_nil] at h hs
    rcases hl.1.cases_spaced h.even.spaced.right with hdot | hshort | hfull
    · have hstop := hs.stop
      rw [List.getLast?_append, hdot, Option.some_or] at hstop
      exact absurd hstop (by decide)
    · exact hs.value (.append_left (.here ⟨hb, l, [], (List.append_nil l).symm, hshort, rfl⟩))
    · exact hne ⟨hfull, rfl⟩
  · exact h.adValorem (.append_left (.here ⟨hb, l, c :: cs, rfl, hl, rfl⟩))

lemma tidyEnd_of_trimmed {t : List Char} (ht : Trimmed t) (hs : t.getLast?.any isStop = false) :
    tidyEnd t = t ∧ tidyEnd (t ++ [' ']) = t := by
  have hstop : dropTail isStop t = t := by
    refine dropTail_eq_self_iff.mpr fun c hc => ?_
    rw [Option.mem_def.mp hc] at hs
    exact hs
  have hblank : trimEnd t = t := dropTail_eq_self_iff.mpr ht.last
  have hspace : trim (t ++ [' ']) = t := by
    cases t with
    | nil => decide
    | cons c cs =>
      have hstart : trimStart (c :: cs ++ [' ']) = c :: cs ++ [' '] :=
        dropWhile_of_head? (ht.head c rfl)
      have hend : dropTail isBlank (c :: cs ++ [' ']) = dropTail isBlank (c :: cs) := by
        rw [dropTail_append]
        exact if_pos (by decide)
      unfold trim
      rw [hstart]
      exact hend.trans hblank
  unfold tidyEnd
  rw [hspace, ht.trim_eq, hstop, hblank]
  exact ⟨rfl, rfl⟩

lemma Spelled.pass_eq {t : List Char} (h : Spelled t) (hs : Settled t) :
    tidyEnd (spellOut t) = t := by
  have hfirst : Abbreviation.adValorem.spell t = t ∨ Abbreviation.adValorem.spell t = t ++ [' '] :=
    adValorem_eq_or (Abbreviation.adValorem.rewritten t) (h.full hs)
  have hrest {x : Abbreviation} (hx : ¬Somewhere (Found x.text) none t) :
      x.spell (Abbreviation.adValorem.spell t) = Abbreviation.adValorem.spell t :=
    Abbreviation.spell_eq_self (Abbreviation.not_somewhere_spell (.inr (by decide)) hx)
  have hspell : spellOut t = Abbreviation.adValorem.spell t := by
    rw [Abbreviation.spellOut_eq, hrest (x := .perCent) h.perCent,
      hrest (x := .kilograms) hs.kilogram, hrest (x := .number) h.number]
  have htidy := tidyEnd_of_trimmed h.trimmed hs.stop
  rw [hspell]
  rcases hfirst with hfirst | hfirst <;> rw [hfirst]
  · exact htidy.1
  · exact htidy.2

lemma countP_dropTail_le (p q : Char → Bool) (s : List Char) :
    (dropTail p s).countP q ≤ s.countP q := by
  obtain ⟨tail, htail, -⟩ := exists_dropTail p s
  conv_rhs => rw [htail, List.countP_append]
  omega

/-- A tail that costs nothing is none. -/
lemma dropTail_of_countP {p q : Char → Bool} (hpq : ∀ c, p c = true → q c = true) {s : List Char}
    (h : (dropTail p s).countP q = s.countP q) : dropTail p s = s := by
  obtain ⟨tail, htail, hp⟩ := exists_dropTail p s
  have hzero : tail.countP q = 0 := by
    rw [htail, List.countP_append, ← htail] at h
    omega
  have hnil : tail = [] := by
    refine List.eq_nil_iff_forall_not_mem.mpr fun c hc => ?_
    exact List.countP_eq_zero.mp hzero c hc (hpq c (hp c hc))
  rw [hnil, List.append_nil] at htail
  exact htail.symm

lemma adValoremText_of_short {l : List Char}
    (h : l ∈ ["ad val".toList, "adval".toList, "advalorem".toList]) {behind : Option Char}
    (hb : behind.all isBlank = true) : adValoremText l behind := by
  have hshort : ∀ l ∈ ["ad val".toList, "adval".toList, "advalorem".toList],
      l ≠ "ad valorem".toList := by decide
  refine ⟨?_, hb, fun hfull => hshort l h hfull.1⟩
  simp only [List.mem_cons, List.not_mem_nil, or_false] at h
  rcases h with rfl | rfl | rfl
  · exact ⟨[' '], [], forall_mem_of_all (by decide), by decide, rfl⟩
  · exact ⟨[], [], List.forall_mem_nil _, by decide, rfl⟩
  · exact ⟨[], "orem".toList, List.forall_mem_nil _, by decide, rfl⟩

/-- Where a text passes unchanged, no step takes a stop or an `s` away: it ends in no stop, nothing
is left for the last two abbreviations, and the first two bring blanks at the end at most. -/
lemma Spelled.unspent {t : List Char} (h : Spelled t) (hp : tidyEnd (spellOut t) = t) :
    dropTail isStop t = t ∧ ∃ tail, (∀ c ∈ tail, isBlank c = true) ∧
      Abbreviation.perCent.spell (Abbreviation.adValorem.spell t) = t ++ tail ∧
      ¬Somewhere (Found kilogramText) none (t ++ tail) := by
  obtain ⟨s, hs⟩ : ∃ s, s = Abbreviation.perCent.spell (Abbreviation.adValorem.spell t) := ⟨_, rfl⟩
  have hspell : spellOut t = Abbreviation.number.spell (Abbreviation.kilograms.spell s) := by
    rw [hs, Abbreviation.spellOut_eq]
  have hhead : (spellOut t).head?.any isBlank = false := by
    rw [head?_spellOut]
    exact not_any_isBlank h.trimmed
  obtain ⟨-, tail, htail, hblank⟩ := exists_tidyEnd hhead
  -- stops and the letter `s` become more in no step, so they are as many after each
  have hfirst : s.countP isSpent ≤ t.countP isSpent := by
    rw [hs]
    exact (Abbreviation.countP_spell_le _ _).trans (Abbreviation.countP_spell_le _ t)
  have hkilograms := Abbreviation.countP_spell_le .kilograms s
  have hnumber := Abbreviation.countP_spell_le .number (Abbreviation.kilograms.spell s)
  have hblanks : (trim (spellOut t)).countP isSpent ≤ (spellOut t).countP isSpent := by
    conv_rhs => rw [htail, List.countP_append]
    omega
  have hstops := countP_dropTail_le isStop isSpent (trim (spellOut t))
  have hend : (tidyEnd (spellOut t)).countP isSpent ≤
      (dropTail isStop (trim (spellOut t))).countP isSpent := countP_dropTail_le _ _ _
  rw [hp] at hend
  rw [← hspell] at hnumber
  -- so the last two abbreviations have nothing to change, and only blanks go at the end
  have hnone : ¬Somewhere (Found kilogramText) none s :=
    Abbreviation.not_somewhere_of_countP (x := .kilograms) (.inl rfl) (by omega)
  have hsame : spellOut t = s := by
    have hn : ¬Somewhere (Found numberText) none (Abbreviation.kilograms.spell s) :=
      Abbreviation.not_somewhere_of_countP (x := .number) (.inr rfl) (by rw [← hspell]; omega)
    rw [hspell, Abbreviation.spell_eq_self (x := .number) hn,
      Abbreviation.spell_eq_self (x := .kilograms) hnone]
  have hdrop : dropTail isStop (trim (spellOut t)) = trim (spellOut t) :=
    dropTail_of_countP (q := isSpent) (fun c hc => by unfold isSpent; rw [hc]; rfl) (by omega)
  have htrim : trim (spellOut t) = t := by
    have hlast : trimEnd (trim (spellOut t)) = trim (spellOut t) :=
      dropTail_eq_self_iff.mpr (trimmed_trim _).last
    unfold tidyEnd at hp
    rw [hdrop, hlast] at hp
    exact hp
  rw [htrim] at hdrop htail
  have hst : s = t ++ tail := hsame.symm.trans htail
  refine ⟨hdrop, tail, hblank, hs.symm.trans hst, ?_⟩
  rwa [← hst]

/-- A text that passes unchanged is settled: what a step takes away no other step brings back. -/
lemma Spelled.settled {t : List Char} (h : Spelled t) (hp : tidyEnd (spellOut t) = t) :
    Settled t := by
  obtain ⟨hdrop, tail, hblank, hspell, hnone⟩ := h.unspent hp
  have hfull : ¬Somewhere (Found adValoremText) none (t ++ tail) := by
    rw [← hspell]
    exact Abbreviation.not_somewhere_spell (x := .adValorem) (.inl (by decide))
      (Abbreviation.not_somewhere_spell_self (by decide) t)
  have hblank : tail.head?.all isBlank = true := by
    cases hc : tail.head? with
    | none => rfl
    | some c => exact hblank c (List.mem_of_mem_head? hc)
  have hword : tail.head?.any isWord = false := by
    cases hc : tail.head? with
    | none => rfl
    | some c =>
      rw [hc] at hblank
      exact Formula.isWord_of_isBlank hblank
  constructor
  case stop =>
    cases hc : t.getLast? with
    | none => rfl
    | some c => exact dropTail_eq_self_iff.mp hdrop c hc
  case value =>
    refine fun hv => hfull (hv.found_append_right ?_)
    rintro l _ ⟨hl, rfl⟩
    exact adValoremText_of_short hl hblank
  case kilogram =>
    refine fun hk => hnone (hk.found_append_right ?_)
    rintro l (- | c) (⟨hkgs, hbehind⟩ | hkg)
    · exact .inl ⟨hkgs, hword⟩
    · exact .inr hkg
    · exact .inl ⟨hkgs, hbehind⟩
    · exact .inr hkg

lemma Spelled.normalize_eq {t : String} (h : Spelled t.toList) :
    normalize t = String.ofList (tidyEnd (spellOut t.toList)) := by
  rw [Rate.normalize_eq, h.even.even_eq h.trimmed]

lemma spelled_normalize (raw : String) : Spelled (normalize raw).toList := by
  rw [normalize_eq, String.toList_ofList]
  exact spelled_normal raw.toList

/-- What is handed on is the normal form of a text that is not blank, if no rule knows it. -/
lemma compile_eq_unresolved_iff {text : String} {hint : Option String} {t : String} :
    compile text hint = .unresolved t ↔ text.toList.all isBlank = false ∧ normalize text = t ∧
      (parse? (normalize text) hint).isNone = true := by
  unfold compile
  split_ifs with hb
  · rw [hb]
    exact iff_of_false (fun h => by cases h) fun h => by cases h.1
  · rw [Bool.not_eq_true] at hb
    dsimp only
    cases hp : parse? (normalize text) hint with
    | none => simp [hb]
    | some shape =>
      rcases shape.compile_cases with ⟨-, hw⟩ | ⟨f, -, hw⟩ <;> simp [hw]

/-- **When the normal form is canonical.** The normal form of a text is its own normal form exactly
if it is settled. So a text that is handed on as one that no rule knows is handed on again as it is
exactly if it is settled, and not empty. -/
theorem normalize_normalize_iff (raw : String) :
    (normalize (normalize raw) = normalize raw ↔ Settled (normalize raw).toList) ∧
      ∀ (hint : Option String) (t : String), compile raw hint = .unresolved t →
        (compile t hint = .unresolved t ↔ t ≠ "" ∧ Settled t.toList) := by
  have hspelled := spelled_normalize raw
  have hiff : normalize (normalize raw) = normalize raw ↔ Settled (normalize raw).toList := by
    rw [hspelled.normalize_eq]
    constructor
    · intro h
      refine hspelled.settled ?_
      have := congrArg String.toList h
      rwa [String.toList_ofList] at this
    · intro h
      rw [hspelled.pass_eq h, String.ofList_toList]
  refine ⟨hiff, fun hint t h => ?_⟩
  obtain ⟨-, rfl, hnone⟩ := compile_eq_unresolved_iff.mp h
  have hblank : (normalize raw).toList.all isBlank = false ↔ normalize raw ≠ "" := by
    rw [Ne, ← String.toList_eq_nil_iff, ← hspelled.trimmed.trim_eq, trim_eq_nil_iff,
      hspelled.trimmed.trim_eq, Bool.not_eq_true]
  rw [compile_eq_unresolved_iff, hblank, ← hiff]
  constructor
  · exact fun ⟨hne, hsame, _⟩ => ⟨hne, hsame⟩
  · intro ⟨hne, hsame⟩
    have hparse := congrArg (fun text => (parse? text hint).isNone) hsame
    exact ⟨hne, hsame, hparse.trans hnone⟩

/-- A text that no rule knows and that is settled: the short spelling in it has been found. -/
theorem normalize_normalize_ad_valorem :
    compile "5% Ad Val. or free" none = .unresolved "5% ad valorem or free" ∧
      Settled "5% ad valorem or free".toList ∧
      compile "5% ad valorem or free" none = .unresolved "5% ad valorem or free" := by
  have hraw : compile "5% Ad Val. or free" none = .unresolved "5% ad valorem or free" :=
    compile_eq_unresolved_iff.mpr (by decide +kernel)
  have hagain : compile "5% ad valorem or free" none = .unresolved "5% ad valorem or free" :=
    compile_eq_unresolved_iff.mpr (by decide +kernel)
  have h := (normalize_normalize_iff "5% Ad Val. or free").2 none _ hraw
  exact ⟨hraw, (h.mp hagain).2, hagain⟩

/-- A semicolon hides the end of the text until the abbreviation has been looked for, so what is
handed on is a text that the grammar knows. -/
theorem normalize_hidden_end : compile "5% ad val;" none = .unresolved "5% ad val" ∧
    normalize "5% ad val" = "5% ad valorem" ∧ ∃ c, compile? "5% ad val" none = .ok (some c) :=
  ⟨compile_eq_unresolved_iff.mpr (by decide +kernel), by decide +kernel, _, rfl⟩

end Tariff.Rate
