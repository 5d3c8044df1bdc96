import Mathlib.Tactic.Common
import Tariff.Proofs.Text.Rewriting

/-!
What a search finds, it finds at some place of the text; where it finds nothing in the front of a
text, it comes to the rest as if it began there.
-/

namespace Tariff.Text.Pattern

variable {α : Type} {p : Pattern α}

lemma collectFrom_skip (before : Option Char) (cs : List Char) :
    p.collectFrom before cs.length cs = [] := by
  induction cs generalizing before with
  | nil => rfl
  | cons c cs ih => exact ih (some c)

lemma exists_of_mem_collectFrom {before : Option Char} {skip : Nat} {text : List Char} {a : α}
    (h : a ∈ p.collectFrom before skip text) :
    ∃ before text rest, p before text = some (a, rest) := by
  induction text generalizing before skip with
  | nil => cases skip <;> cases h
  | cons c cs ih =>
    cases skip with
    | succ skip => exact ih h
    | zero =>
      unfold collectFrom at h
      split at h
      next b rest hp =>
        rcases List.mem_cons.mp h with rfl | h
        · exact ⟨before, c :: cs, rest, hp⟩
        · exact ih h
      next => exact ih h

lemma exists_of_mem_collect {text : List Char} {a : α} (h : a ∈ p.collect text) :
    ∃ before text rest, p before text = some (a, rest) :=
  exists_of_mem_collectFrom h

lemma collectFrom_ne_nil_iff (hp : ∀ before, p before [] = none) {before : Option Char}
    {text : List Char} : p.collectFrom before 0 text ≠ [] ↔
      Somewhere (fun before text => (p before text).isSome = true) before text := by
  induction text generalizing before with
  | nil => simp [collectFrom, Somewhere, hp]
  | cons c cs ih =>
    unfold collectFrom Somewhere
    cases h : p before (c :: cs) with
    | some f => exact iff_of_true (List.cons_ne_nil _ _) (.inl rfl)
    | none =>
      rw [ih]
      exact (or_iff_right Bool.false_ne_true).symm

lemma exists_collectFrom_eq {before : Option Char} {text rest : List Char} {a : α} (hne : text ≠ [])
    (h : p before text = some (a, rest)) : ∃ l, p.collectFrom before 0 text = a :: l := by
  obtain ⟨c, cs, rfl⟩ := List.exists_cons_of_ne_nil hne
  rw [collectFrom.eq_3, h]
  exact ⟨_, rfl⟩

/-! ### What a search passes over -/

/-- At no place of a text does the pattern find anything, where `t` follows. -/
def Idle (p : Pattern α) (t : List Char) : Option Char → List Char → Prop
  | _, [] => True
  | before, c :: cs => p before (c :: (cs ++ t)) = none ∧ Idle p t (some c) cs

section

variable {before : Option Char} {s t : List Char}

lemma Idle.append {s' : List Char} (h : p.Idle (s' ++ t) before s)
    (h' : p.Idle t (s.getLast?.or before) s') : p.Idle t before (s ++ s') := by
  induction s generalizing before with
  | nil => exact h'
  | cons c cs ih =>
    rw [getLast?_cons_or] at h'
    have hassoc : (cs ++ s') ++ t = cs ++ (s' ++ t) := List.append_assoc cs s' t
    exact ⟨by rw [← h.1, ← hassoc]; rfl, ih h.2 h'⟩

lemma Idle.collectFrom_append (h : p.Idle t before s) :
    p.collectFrom before 0 (s ++ t) = p.collectFrom (s.getLast?.or before) 0 t := by
  induction s generalizing before with
  | nil => rfl
  | cons c cs ih =>
    rw [getLast?_cons_or, ← ih h.2, List.cons_append, collectFrom.eq_3, h.1]

lemma idle_of_forall
    (h : ∀ u v, s = u ++ v → v ≠ [] → p (u.getLast?.or before) (v ++ t) = none) :
    p.Idle t before s := by
  induction s generalizing before with
  | nil => trivial
  | cons c cs ih =>
    refine ⟨h [] (c :: cs) rfl (List.cons_ne_nil _ _), ih fun u v hv hne => ?_⟩
    rw [← getLast?_cons_or]
    exact h (c :: u) v (congrArg _ hv) hne

lemma Idle.collect_eq_nil (h : p.Idle [] none s) : p.collect s = [] := by
  have hs := h.collectFrom_append
  rwa [List.append_nil] at hs

lemma Idle.replaceFrom_append {image : List Char} (h : p.Idle t before s) :
    p.replaceFrom image before 0 (s ++ t) =
      s ++ p.replaceFrom image (s.getLast?.or before) 0 t := by
  induction s generalizing before with
  | nil => rfl
  | cons c cs ih =>
    rw [getLast?_cons_or, List.cons_append, replaceFrom.eq_3, h.1, List.cons_append]
    dsimp only
    rw [ih h.2]

end

/-- No word of a text begins as `w` does, as far as the text goes. -/
def bars (w : List Char) : Option Char → List Char → Bool
  | _, [] => true
  | before, c :: cs =>
    (before.any isWord || !(w.isPrefixOf (c :: cs) || (c :: cs).isPrefixOf w)) &&
      bars w (some c) cs

lemma bars_mono {w : List Char} {before : Option Char} {s : List Char}
    (h : bars w none s = true) : bars w before s = true := by
  cases s with
  | nil => rfl
  | cons c cs =>
    obtain ⟨hbar, hbars⟩ := Bool.and_eq_true_iff.mp h
    refine Bool.and_eq_true_iff.mpr ⟨?_, hbars⟩
    rw [Bool.or_eq_true]
    exact .inr hbar

lemma bars_of_forall {h : Char} {w : List Char} {before : Option Char} {s : List Char}
    (hs : ∀ c ∈ s, c ≠ h) : bars (h :: w) before s = true := by
  induction s generalizing before with
  | nil => rfl
  | cons c cs ih =>
    obtain ⟨hc, hcs⟩ := List.forall_mem_cons.mp hs
    have hl : (h == c) = false := beq_eq_false_iff_ne.mpr (Ne.symm hc)
    have hr : (c == h) = false := beq_eq_false_iff_ne.mpr hc
    unfold bars
    rw [ih hcs, List.isPrefixOf_cons_cons, List.isPrefixOf_cons_cons, hl, hr]
    simp

/-- A pattern finds nothing where nothing that it may find can begin: neither a character of the
class, nor a word that begins as `w` does. -/
lemma idle_of_bars {q : Char → Bool} {w : List Char}
    (hp : ∀ before text f, p before text = some f →
      text.head?.any q = true ∨ before.any isWord = false ∧ w <+: text)
    {before : Option Char} {s t : List Char} (hs : ∀ c ∈ s, q c = false)
    (hw : bars w before s = true) : p.Idle t before s := by
  induction s generalizing before with
  | nil => trivial
  | cons c cs ih =>
    obtain ⟨hc, hcs⟩ := List.forall_mem_cons.mp hs
    obtain ⟨hbar, hbars⟩ := Bool.and_eq_true_iff.mp hw
    refine ⟨?_, ih hcs hbars⟩
    cases hf : p before (c :: (cs ++ t)) with
    | none => rfl
    | some f =>
      rcases hp _ _ _ hf with hhead | ⟨hb, hprefix⟩
      · exact absurd (hc.symm.trans hhead) Bool.false_ne_true
      · -- of two beginnings of one text, one begins the other
        have hcompare := List.prefix_or_prefix_of_prefix hprefix
          (List.prefix_append (c :: cs) t)
        rw [hb, Bool.false_or, Bool.not_eq_true', Bool.or_eq_false_iff] at hbar
        rcases hcompare with hcompare | hcompare
        · exact absurd (List.isPrefixOf_iff_prefix.mpr hcompare) (by rw [hbar.1]; decide)
        · exact absurd (List.isPrefixOf_iff_prefix.mpr hcompare) (by rw [hbar.2]; decide)

/-! ### Findings that do not overlap -/

lemma collectFrom_append (before : Option Char) (s t : List Char) :
    p.collectFrom before s.length (s ++ t) = p.collectFrom (s.getLast?.or before) 0 t := by
  induction s generalizing before with
  | nil => rfl
  | cons c cs ih =>
    rw [getLast?_cons_or]
    exact ih (some c)

def Apart (p : Pattern α) : Prop :=
  ∀ before c cs a rest, p before (c :: cs) = some (a, rest) → ∃ s, cs = s ++ rest ∧
    p.Idle rest (some c) s

/-- A search for what does not overlap finds what there is to find at any place. -/
lemma Apart.mem_collectFrom_iff (hp : p.Apart) (hnil : ∀ before, p before [] = none)
    {before : Option Char} {text : List Char} {a : α} : a ∈ p.collectFrom before 0 text ↔
      Somewhere (fun before text => ∃ rest, p before text = some (a, rest)) before text := by
  induction text generalizing before with
  | nil => simp [collectFrom, Somewhere, hnil]
  | cons c cs ih =>
    unfold Somewhere
    rw [← ih, collectFrom.eq_3]
    cases h : p before (c :: cs) with
    | none => simp
    | some f =>
      obtain ⟨b, rest⟩ := f
      obtain ⟨s, rfl, hidle⟩ := hp before c cs b rest h
      -- the search comes to the end of the finding as if it had looked at each place inside
      have hlength : (s ++ rest).length - rest.length = s.length := by
        rw [List.length_append, Nat.add_sub_cancel]
      dsimp only
      rw [hlength, collectFrom_append, ← hidle.collectFrom_append, List.mem_cons]
      simp [eq_comm]

lemma Apart.mem_collect_iff (hp : p.Apart) (hnil : ∀ before, p before [] = none)
    {text : List Char} {a : α} : a ∈ p.collect text ↔
      ∃ front behind rest, text = front ++ behind ∧ p front.getLast? behind = some (a, rest) := by
  unfold collect
  rw [hp.mem_collectFrom_iff hnil]
  constructor
  · intro h
    obtain ⟨front, behind, heq, rest, hrest⟩ := h.exists_append
    rw [Option.or_none] at hrest
    exact ⟨front, behind, rest, heq, hrest⟩
  · rintro ⟨front, behind, rest, rfl, h⟩
    refine Somewhere.append_left (.here ⟨rest, ?_⟩)
    rwa [Option.or_none]

end Tariff.Text.Pattern
