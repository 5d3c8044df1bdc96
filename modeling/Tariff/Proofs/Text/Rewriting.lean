import Mathlib.Tactic.Common
import Tariff.Text.Scan

/-!
Texts in which the findings of a pattern are replaced, and what can be found in them afterwards.

A pattern looks for something that begins with one word character at the start of a word, and its
image begins with that character too. So where a text and its rewritten form are read side by side,
they part only where a word starts with that character: a finding of another kind that has no such
place inside was in the text before it was rewritten.
-/

namespace Tariff.Text

lemma getLast?_cons_or (c : Char) (cs : List Char) (before : Option Char) :
    (c :: cs).getLast?.or before = cs.getLast?.or (some c) := by
  rw [List.getLast?_cons, Option.some_or]
  cases cs.getLast? <;> rfl

lemma getLast?_or {s : List Char} (hs : s ≠ []) (before : Option Char) :
    s.getLast?.or before = s.getLast? := by
  rw [List.getLast?_eq_some_getLast hs, Option.some_or]

/-! ### Places of a text -/

def Somewhere (A : Option Char → List Char → Prop) : Option Char → List Char → Prop
  | before, [] => A before []
  | before, c :: cs => A before (c :: cs) ∨ Somewhere A (some c) cs

namespace Somewhere

variable {A B : Option Char → List Char → Prop} {before : Option Char} {text : List Char}

lemma here (h : A before text) : Somewhere A before text := by
  cases text with
  | nil => exact h
  | cons c cs => exact .inl h

lemma imp (hAB : ∀ before text, A before text → B before text) (h : Somewhere A before text) :
    Somewhere B before text := by
  induction text generalizing before with
  | nil => exact hAB _ _ h
  | cons c cs ih => exact Or.imp (hAB _ _) ih h

lemma not_of_forall (hA : ∀ before text, ¬A before text) : ¬Somewhere A before text := by
  induction text generalizing before with
  | nil => exact hA _ _
  | cons c cs ih => exact fun h => h.elim (hA _ _) ih

lemma exists_append (h : Somewhere A before text) :
    ∃ front rest, text = front ++ rest ∧ A (front.getLast?.or before) rest := by
  induction text generalizing before with
  | nil => exact ⟨[], [], rfl, h⟩
  | cons c cs ih =>
    rcases h with h | h
    · exact ⟨[], c :: cs, rfl, h⟩
    · obtain ⟨front, rest, rfl, hA⟩ := ih h
      exact ⟨c :: front, rest, rfl, by rwa [getLast?_cons_or]⟩

lemma append_left {front : List Char} (h : Somewhere A (front.getLast?.or before) text) :
    Somewhere A before (front ++ text) := by
  induction front generalizing before with
  | nil => exact h
  | cons c cs ih =>
    rw [getLast?_cons_or] at h
    exact .inr (ih h)

end Somewhere

/-! ### Things to find -/

/-- At the start of a word, or after no word, something with a property that may also look at the
character behind. -/
def Found (M : List Char → Option Char → Prop) (before : Option Char) (text : List Char) : Prop :=
  before.any isWord = false ∧ ∃ l rest, text = l ++ rest ∧ M l rest.head?

/-- No word of a text begins with the character. -/
def shields (h : Char) : Option Char → List Char → Bool
  | _, [] => true
  | before, c :: cs => (c != h || before.any isWord) && shields h (some c) cs

lemma shields_cons {h c : Char} {before : Option Char} {cs : List Char} :
    shields h before (c :: cs) = true ↔
      (c ≠ h ∨ before.any isWord = true) ∧ shields h (some c) cs = true := by
  rw [shields.eq_2, Bool.and_eq_true, Bool.or_eq_true, bne_iff_ne]

lemma shields_append {h : Char} {before : Option Char} {s t : List Char} :
    shields h before (s ++ t) = true ↔
      shields h before s = true ∧ shields h (s.getLast?.or before) t = true := by
  induction s generalizing before with
  | nil => simp [shields]
  | cons c cs ih =>
    rw [List.cons_append, shields_cons, shields_cons, ih, getLast?_cons_or, and_assoc]

lemma shields_of_none {h : Char} {before : Option Char} {s : List Char}
    (hs : shields h none s = true) : shields h before s = true := by
  cases s with
  | nil => rfl
  | cons c cs =>
    obtain ⟨hc, hcs⟩ := shields_cons.mp hs
    exact shields_cons.mpr ⟨.inl (hc.resolve_right (by decide)), hcs⟩

lemma shields_of_forall {h : Char} {before : Option Char} {s : List Char} (hs : ∀ c ∈ s, c ≠ h) :
    shields h before s = true := by
  induction s generalizing before with
  | nil => rfl
  | cons c cs ih =>
    rw [List.forall_mem_cons] at hs
    exact shields_cons.mpr ⟨.inl hs.1, ih hs.2⟩

section

variable {M : List Char → Option Char → Prop} {a : Char} {before : Option Char}

lemma found_head (hM : ∀ l c, M l c → l.head? = some a) (before : Option Char) (text : List Char)
    (h : Found M before text) : before.any isWord = false ∧ text.head? = some a := by
  obtain ⟨hb, l, rest, rfl, hl⟩ := h
  rw [List.head?_append, hM l _ hl]
  exact ⟨hb, rfl⟩

lemma not_found_nil (hM : ∀ l c, M l c → l.head? = some a) : ¬Found M before [] := fun h =>
  Option.some_ne_none a (found_head hM before [] h).2.symm

lemma Somewhere.found_mono {before' : Option Char} {text : List Char}
    (hb : before.any isWord = false → before'.any isWord = false)
    (h : Somewhere (Found M) before text) : Somewhere (Found M) before' text := by
  cases text with
  | nil => exact h.imp_left hb
  | cons c cs => exact Or.imp_left (And.imp_left hb) h

/-- What no word start shields is behind. -/
lemma Somewhere.of_append {A : Option Char → List Char → Prop}
    (hA : ∀ before text, A before text → before.any isWord = false ∧ text.head? = some a)
    {s t : List Char} (hs : shields a before s = true) (h : Somewhere A before (s ++ t)) :
    Somewhere A (s.getLast?.or before) t := by
  induction s generalizing before with
  | nil => exact h
  | cons c cs ih =>
    obtain ⟨hc, hcs⟩ := shields_cons.mp hs
    rw [getLast?_cons_or]
    rcases h with h | h
    · obtain ⟨hb, hhead⟩ := hA _ _ h
      rw [hb] at hc
      exact absurd (Option.some.inj hhead) (hc.resolve_right (by decide))
    · exact ih hcs h

lemma Somewhere.found_append_right {M' : List Char → Option Char → Prop} {s t : List Char}
    (hM : ∀ l c, M l c → M' l (c.or t.head?)) (h : Somewhere (Found M) before s) :
    Somewhere (Found M') before (s ++ t) := by
  have hfound {before : Option Char} {s : List Char} (h : Found M before s) :
      Found M' before (s ++ t) := by
    obtain ⟨hb, l, rest, rfl, hl⟩ := h
    refine ⟨hb, l, rest ++ t, List.append_assoc l rest t, ?_⟩
    rw [List.head?_append]
    exact hM l _ hl
  induction s generalizing before with
  | nil => exact .here (hfound h)
  | cons c cs ih => exact Or.imp hfound ih h

end

/-! ### Rewritten texts -/

namespace Pattern

variable {α : Type} {p : Pattern α} {h : Char} {image : List Char}

/-- A pattern whose findings begin with one word character, at the start of a word, and have no
other word that begins with it. -/
structure Headed (p : Pattern α) (h : Char) : Prop where
  word : isWord h = true
  takes : ∀ before text a rest, p before text = some (a, rest) →
    before.any isWord = false ∧ ∃ m, text = h :: m ++ rest ∧ shields h (some h) m = true

/-- The second text is the first with each finding replaced by the image. -/
inductive Rewritten (p : Pattern α) (image : List Char) :
    Option Char → List Char → List Char → Prop
  | nil (before : Option Char) : Rewritten p image before [] []
  | keep {before : Option Char} {c : Char} {cs out : List Char} :
      p before (c :: cs) = none → Rewritten p image (some c) cs out →
      Rewritten p image before (c :: cs) (c :: out)
  | hit {before : Option Char} {m rest out : List Char} {a : α} :
      p before (m ++ rest) = some (a, rest) → m ≠ [] →
      Rewritten p image (m.getLast?.or before) rest out →
      Rewritten p image before (m ++ rest) (image ++ out)

lemma replaceFrom_append (before : Option Char) (m rest : List Char) :
    p.replaceFrom image before m.length (m ++ rest) =
      p.replaceFrom image (m.getLast?.or before) 0 rest := by
  induction m generalizing before with
  | nil => rfl
  | cons c cs ih => rw [getLast?_cons_or, ← ih]; rfl

lemma Headed.rewritten_replaceFrom (hp : p.Headed h) (before : Option Char) (text : List Char) :
    Rewritten p image before text (p.replaceFrom image before 0 text) := by
  induction hn : text.length using Nat.strongRecOn generalizing before text with
  | ind n ih =>
    subst hn
    rcases text with - | ⟨c, cs⟩
    · exact .nil before
    unfold replaceFrom
    cases hf : p before (c :: cs) with
    | none => exact .keep hf (ih _ (Nat.lt_succ_self _) (some c) cs rfl)
    | some f =>
      obtain ⟨a, rest⟩ := f
      obtain ⟨-, m, hm, -⟩ := hp.takes _ _ _ _ hf
      have hcs : cs = m ++ rest := (List.cons.inj hm).2
      subst hcs
      have hlen : (m ++ rest).length - rest.length = m.length := by simp
      have hlt : rest.length < (c :: (m ++ rest)).length := by
        rw [List.length_cons, List.length_append]
        omega
      have hrest := ih rest.length hlt ((c :: m).getLast?.or before) rest rfl
      have hskip : p.replaceFrom image (some c) ((m ++ rest).length - rest.length) (m ++ rest) =
          p.replaceFrom image ((c :: m).getLast?.or before) 0 rest := by
        rw [hlen, replaceFrom_append, getLast?_cons_or]
      dsimp only
      rw [hskip]
      exact .hit hf (List.cons_ne_nil c m) hrest

/-- Where the pattern cannot begin, it does not count what stands before. -/
lemma Headed.replaceFrom_congr (hp : p.Headed h) {before before' : Option Char} {text : List Char}
    (ht : text.head? ≠ some h) :
    p.replaceFrom image before 0 text = p.replaceFrom image before' 0 text := by
  cases text with
  | nil => rfl
  | cons c cs =>
    have hnone (before : Option Char) : p before (c :: cs) = none := by
      cases hf : p before (c :: cs) with
      | none => rfl
      | some f =>
        obtain ⟨a, rest⟩ := f
        obtain ⟨-, m, hm, -⟩ := hp.takes _ _ _ _ hf
        rw [hm] at ht
        exact absurd rfl ht
    unfold replaceFrom
    rw [hnone, hnone]

/-- In front of such a place nothing is found where no character is the first of a finding. -/
lemma Headed.replaceFrom_append (hp : p.Headed h) {before : Option Char} {s t : List Char}
    (hs : ∀ c ∈ s, c ≠ h) (ht : t.head? ≠ some h) :
    p.replaceFrom image before 0 (s ++ t) = s ++ p.replaceFrom image none 0 t := by
  induction s generalizing before with
  | nil => exact hp.replaceFrom_congr ht
  | cons c cs ih =>
    obtain ⟨hc, hcs⟩ := List.forall_mem_cons.mp hs
    have hnone : p before (c :: (cs ++ t)) = none := by
      cases hf : p before (c :: (cs ++ t)) with
      | none => rfl
      | some f =>
        obtain ⟨a, rest⟩ := f
        obtain ⟨-, m, hm, -⟩ := hp.takes _ _ _ _ hf
        exact absurd (List.cons.inj hm).1 hc
    rw [List.cons_append, replaceFrom.eq_3, hnone]
    dsimp only
    rw [ih hcs, List.cons_append]

/-- Replacing rewrites. -/
lemma Headed.rewritten_replace (hp : p.Headed h) {image : String} (text : List Char) :
    Rewritten p image.toList none text (p.replace image text) :=
  hp.rewritten_replaceFrom none text

/-- The pattern finds something else than the image here. -/
def Changes (p : Pattern α) (image : List Char) (before : Option Char) (text : List Char) : Prop :=
  ∃ a m rest, p before text = some (a, rest) ∧ text = m ++ rest ∧ m ≠ image

namespace Rewritten

variable {before : Option Char} {text out image' : List Char}

/-- A text and its rewritten form, taken apart at the first character. -/
lemma cases_head (hp : p.Headed h) (hi : image = h :: image')
    (hr : Rewritten p image before text out) : (text = [] ∧ out = []) ∨
      (∃ c cs os, text = c :: cs ∧ out = c :: os ∧ p before text = none ∧
        Rewritten p image (some c) cs os) ∨
      ∃ cs os, text = h :: cs ∧ out = h :: os ∧ before.any isWord = false := by
  cases hr with
  | nil => exact .inl ⟨rfl, rfl⟩
  | keep hf hr => exact .inr (.inl ⟨_, _, _, rfl, rfl, hf, hr⟩)
  | hit hf hm hr =>
    obtain ⟨hb, m', hm', -⟩ := hp.takes _ _ _ _ hf
    subst hi
    exact .inr (.inr ⟨_, _, hm', rfl, hb⟩)

lemma head?_eq (hp : p.Headed h) (hi : image = h :: image')
    (hr : Rewritten p image before text out) : out.head? = text.head? := by
  rcases hr.cases_head hp hi with ⟨rfl, rfl⟩ | ⟨c, cs, os, rfl, rfl, -⟩ | ⟨cs, os, rfl, rfl, -⟩ <;>
    rfl

lemma of_append (hp : p.Headed h) (hi : image = h :: image') {l os : List Char}
    (hl : shields h before l = true) (hr : Rewritten p image before text (l ++ os)) :
    ∃ rest, text = l ++ rest ∧ Rewritten p image (l.getLast?.or before) rest os := by
  induction l generalizing before text with
  | nil => exact ⟨text, rfl, hr⟩
  | cons c cs ih =>
    obtain ⟨hc, hcs⟩ := shields_cons.mp hl
    rcases hr.cases_head hp hi with ⟨-, ho⟩ | ⟨d, ds, os', rfl, ho, -, hr⟩ | ⟨ds, os', -, ho, hb⟩
    · cases ho
    · obtain ⟨rfl, rfl⟩ := List.cons.inj ho
      obtain ⟨rest, rfl, hrest⟩ := ih hcs hr
      rw [getLast?_cons_or]
      exact ⟨rest, rfl, hrest⟩
    · have hch : c = h := (List.cons.inj ho).1
      rw [hb] at hc
      exact absurd hch (hc.resolve_right (by decide))

/-- A text that the pattern would not change is its own rewritten form. -/
lemma eq_self (hr : Rewritten p image before text out)
    (hc : ¬Somewhere (Changes p image) before text) : out = text := by
  induction hr with
  | nil => rfl
  | keep hf hr ih => rw [ih fun h => hc (.inr h)]
  | @hit before m rest out a hf hm hr ih =>
    have hmi : m = image := by
      by_contra hne
      exact hc (.here ⟨a, m, rest, hf, rfl, hne⟩)
    rw [ih fun h => hc (.append_left h), hmi]

/-- What is found in the rewritten text was found in the text, at a place that the pattern left
alone. -/
theorem somewhere_found {M : List Char → Option Char → Prop} {a : Char} (hp : p.Headed h)
    (hi : image = h :: image')
    (hM : ∀ l c, M l c → l.head? = some a ∧ shields h (some a) l.tail = true)
    (hshield : shields a (some h) image' = true)
    (himage : ∀ l rest os, M l rest.head? → l ++ rest ≠ image ++ os)
    (hlast : ∀ before m rest f, p before (m ++ rest) = some (f, rest) →
      image.getLast?.any isWord = false → m.getLast?.any isWord = false ∨ rest = [])
    (hr : Rewritten p image before text out) (hf : Somewhere (Found M) before out) :
    Somewhere (fun before text => Found M before text ∧ p before text = none) before text := by
  have hhead : ∀ l c, M l c → l.head? = some a := fun l c hl => (hM l c hl).1
  induction hr with
  | nil => exact absurd hf (not_found_nil hhead)
  | @keep before c cs out hn hr ih =>
    rcases hf with ⟨hb, l, rest, heq, hl⟩ | hf
    · obtain ⟨h1, h2⟩ := hM l _ hl
      rcases l with - | ⟨d, ds⟩
      · cases h1
      · cases h1
        obtain ⟨rfl, rfl⟩ := List.cons.inj heq
        obtain ⟨rest', rfl, hr'⟩ := hr.of_append hp hi h2
        rw [hr'.head?_eq hp hi] at hl
        exact .inl ⟨⟨hb, c :: ds, rest', rfl, hl⟩, hn⟩
    · exact .inr (ih hf)
  | @hit before m rest out f hfind hm hr ih =>
    refine .append_left (ih ?_)
    -- nothing is found at the start of the image or inside, so it is found behind
    subst hi
    have hbehind : Somewhere (Found M) ((h :: image').getLast?.or before) out := by
      rcases hf with ⟨-, l, rest', heq, hl⟩ | hf
      · exact absurd heq.symm (himage l rest' out hl)
      · rw [getLast?_cons_or]
        exact hf.of_append (found_head hhead) hshield
    by_cases hrest : rest = []
    · rw [hrest] at hr
      rcases hr.cases_head hp rfl with ⟨-, rfl⟩ | ⟨_, _, _, h, -⟩ | ⟨_, _, h, -⟩
      · exact absurd hbehind (not_found_nil hhead)
      · cases h
      · cases h
    · refine hbehind.found_mono fun hb => ?_
      rw [getLast?_or (List.cons_ne_nil h image')] at hb
      rw [getLast?_or hm]
      exact (hlast before m rest f hfind hb).resolve_right hrest

lemma mem_or_mem (hr : Rewritten p image before text out) {c : Char} (hc : c ∈ out) :
    c ∈ text ∨ c ∈ image := by
  induction hr with
  | nil => cases hc
  | keep _ _ ih =>
    rcases List.mem_cons.mp hc with rfl | hc
    · exact .inl List.mem_cons_self
    · exact (ih hc).imp_left (List.mem_cons_of_mem _)
  | hit _ _ _ ih =>
    rcases List.mem_append.mp hc with hc | hc
    · exact .inr hc
    · exact (ih hc).imp_left (List.mem_append_right _)

variable {w : Char → Bool}

/-- Characters that the image does not have become no more. -/
lemma countP_le (hi : image.countP w = 0) (hr : Rewritten p image before text out) :
    out.countP w ≤ text.countP w := by
  induction hr with
  | nil => exact Nat.le_refl 0
  | keep _ _ ih =>
    rw [List.countP_cons, List.countP_cons]
    omega
  | hit _ _ _ ih =>
    rw [List.countP_append, List.countP_append, hi]
    omega

/-- If they do not become fewer either, nothing that has one of them was changed. -/
lemma not_changes_of_countP (hp : p.Headed h) (hi : image.countP w = 0)
    (hw : ∀ before m rest f, p before (m ++ rest) = some (f, rest) → m ≠ image → 0 < m.countP w)
    (hr : Rewritten p image before text out) (heq : out.countP w = text.countP w) :
    ¬Somewhere (Changes p image) before text := by
  have hhead (before : Option Char) (text : List Char) (hc : Changes p image before text) :
      before.any isWord = false ∧ text.head? = some h := by
    obtain ⟨a, m, rest, hf, -⟩ := hc
    obtain ⟨hb, m', rfl, -⟩ := hp.takes _ _ _ _ hf
    exact ⟨hb, rfl⟩
  induction hr with
  | nil before =>
    intro hc
    exact Option.some_ne_none h (hhead _ _ hc).2.symm
  | keep hn hr ih =>
    rw [List.countP_cons, List.countP_cons] at heq
    rintro (⟨a, m, rest, hf, -⟩ | hc)
    · rw [hn] at hf
      cases hf
    · exact ih (by omega) hc
  | @hit before m rest out f hf hm hr ih =>
    have hle := hr.countP_le hi
    rw [List.countP_append, List.countP_append, hi] at heq
    obtain ⟨hb, m', hm', hshield⟩ := hp.takes _ _ _ _ hf
    have hmm : m = h :: m' := List.append_cancel_right hm'
    intro hc
    have hc : Changes p image before (m ++ rest) ∨
        Somewhere (Changes p image) (some h) (m' ++ rest) := by
      rw [hmm] at hc ⊢
      exact hc
    rcases hc with ⟨a, m₂, rest₂, hf₂, heq₂, hne⟩ | hc
    · rw [hf] at hf₂
      cases hf₂
      rw [← List.append_cancel_right heq₂] at hne
      have := hw _ _ _ _ hf hne
      omega
    · have hbehind := hc.of_append hhead hshield
      refine ih (by omega) ?_
      rwa [hmm, getLast?_cons_or]

end Rewritten

end Pattern

end Tariff.Text
