import Tariff.Proofs.Rate.Abbreviations
import Tariff.Proofs.Text.Scan

/-!
What spelling out the abbreviations does to one another. Each step changes all that it finds, and a
later step brings nothing back that an earlier one has changed: no image begins or goes on as
another abbreviation does. Kilograms alone find new work in what they leave: the stop that they take
away may have stood before an `s` or another stop.
-/

namespace Tariff.Rate

open Tariff.Text

/-- The abbreviations, in the order in which they are spelled out. -/
inductive Abbreviation where
  | adValorem
  | perCent
  | kilograms
  | number
  deriving DecidableEq

/-- A character that spelling out may take away but never brings. -/
def isSpent (c : Char) : Bool := isStop c || c == 's'

namespace Abbreviation

def pattern : Abbreviation → Pattern Unit
  | adValorem => Rate.adValorem
  | perCent => Rate.perCent
  | kilograms => Rate.kilograms
  | number => numberSign

def image : Abbreviation → String
  | adValorem => "ad valorem "
  | perCent => "percent"
  | kilograms => "kg"
  | number => "number"

def head : Abbreviation → Char
  | adValorem => 'a'
  | perCent => 'p'
  | kilograms => 'k'
  | number => 'n'

def text : Abbreviation → List Char → Option Char → Prop
  | adValorem => adValoremText
  | perCent => perCentText
  | kilograms => kilogramText
  | number => numberText

def spell (x : Abbreviation) (s : List Char) : List Char := x.pattern.replace x.image s

lemma spellOut_eq (s : List Char) :
    spellOut s = number.spell (kilograms.spell (perCent.spell (adValorem.spell s))) := rfl

lemma headed (x : Abbreviation) : x.pattern.Headed x.head := by
  cases x with
  | adValorem => exact headed_adValorem
  | perCent => exact headed_perCent
  | kilograms => exact headed_kilograms
  | number => exact headed_numberSign

lemma image_eq (x : Abbreviation) : x.image.toList = x.head :: x.image.toList.tail := by
  cases x <;> decide

lemma rewritten (x : Abbreviation) (s : List Char) :
    x.pattern.Rewritten x.image.toList none s (x.spell s) :=
  x.headed.rewritten_replace s

lemma changes_iff (x : Abbreviation) {before : Option Char} {s : List Char} :
    x.pattern.Changes x.image.toList before s ↔ Found x.text before s := by
  cases x with
  | adValorem => exact changes_adValorem_iff
  | perCent => exact changes_perCent_iff
  | kilograms => exact changes_kilograms_iff
  | number => exact changes_numberSign_iff

/-- What is changed begins with the head, and no other word in it begins as an abbreviation. -/
lemma text_eq {x : Abbreviation} (y : Abbreviation) {l : List Char} {behind : Option Char}
    (h : x.text l behind) : l.head? = some x.head ∧ shields y.head (some x.head) l.tail = true := by
  have hy : isBlank y.head = false := by cases y <;> decide
  cases x with
  | adValorem =>
    obtain ⟨⟨b, e, hb, he, rfl⟩, -⟩ := h
    have htail : shields y.head none ("val".toList ++ e) = true := by
      simp only [List.mem_cons, List.not_mem_nil, or_false] at he
      rcases he with rfl | rfl | rfl <;> cases y <;> decide
    have hl : ("ad".toList ++ b ++ "val".toList ++ e).tail =
        "d".toList ++ (b ++ ("val".toList ++ e)) := by simp
    refine ⟨rfl, ?_⟩
    rw [hl]
    exact shields_blanks hy hb (by cases y <;> decide) htail
  | perCent =>
    obtain ⟨⟨b, -, hb, rfl⟩, -⟩ := h
    have hl : ("per".toList ++ b ++ "cent".toList).tail =
        "er".toList ++ (b ++ "cent".toList) := by simp
    refine ⟨rfl, ?_⟩
    rw [hl]
    exact shields_blanks hy hb (by cases y <;> decide) (by cases y <;> decide)
  | kilograms =>
    obtain ⟨rfl, -⟩ | rfl := h
    · exact ⟨rfl, by cases y <;> decide⟩
    · exact ⟨rfl, by cases y <;> decide⟩
  | number =>
    obtain rfl : l = "no.".toList := h
    exact ⟨rfl, by cases y <;> decide⟩

/-- No image has a word that begins as an abbreviation, apart from the first. -/
lemma shields_image (x y : Abbreviation) :
    shields x.head (some y.head) y.image.toList.tail = true := by
  cases x <;> cases y <;> decide

lemma adValorem_image_ne {l rest os : List Char} (h : adValoremText l rest.head?) :
    l ++ rest ≠ "ad valorem ".toList ++ os := by
  obtain ⟨⟨b, e, hb, he, rfl⟩, hbehind, hne⟩ := h
  intro heq
  have hblanks : b ++ ("val".toList ++ (e ++ rest)) = [' '] ++ ("valorem ".toList ++ os) := by
    have : "ad".toList ++ (b ++ ("val".toList ++ (e ++ rest))) =
        "ad".toList ++ ([' '] ++ ("valorem ".toList ++ os)) := by simpa using heq
    exact List.append_cancel_left this
  -- the blanks end where the `v` stands
  have hval : "val".toList ++ (e ++ rest) = "valorem ".toList ++ os := by
    have := congrArg trimStart hblanks
    rwa [trimStart_append hb rfl, trimStart_append (forall_mem_of_all (by decide)) rfl] at this
  have hb' : b = [' '] := by
    rw [hval] at hblanks
    exact List.append_cancel_right hblanks
  have hending : e ++ rest = "orem".toList ++ ([' '] ++ os) :=
    List.append_cancel_left (hval : "val".toList ++ (e ++ rest) = "val".toList ++ _)
  simp only [List.mem_cons, List.not_mem_nil, or_false] at he
  rcases he with rfl | rfl | rfl
  · rw [List.nil_append] at hending
    rw [hending] at hbehind
    exact absurd hbehind Bool.false_ne_true
  · exact absurd (List.cons.inj hending).1 (by decide)
  · have hrest : rest = [' '] ++ os := List.append_cancel_left hending
    exact hne ⟨by rw [hb']; rfl, by rw [hrest]; rfl⟩

/-- What is written for an abbreviation is not changed, whatever follows. -/
lemma image_ne {x y : Abbreviation} (hxy : x ≠ kilograms ∨ y ≠ kilograms) {l rest os : List Char}
    (h : x.text l rest.head?) : l ++ rest ≠ y.image.toList ++ os := by
  by_cases he : x = y
  · subst he
    cases x with
    | adValorem => exact adValorem_image_ne h
    | perCent =>
      obtain ⟨⟨b, hne, hb, rfl⟩, -⟩ := h
      obtain ⟨c, cs, rfl⟩ := List.exists_cons_of_ne_nil hne
      intro heq
      have heq : "per".toList ++ (c :: (cs ++ ("cent".toList ++ rest))) =
          "per".toList ++ ('c' :: ("ent".toList ++ os)) := by
        rw [List.append_assoc, List.append_assoc] at heq
        exact heq
      have hc : c = 'c' := (List.cons.inj (List.append_cancel_left heq)).1
      exact absurd hc (ne_of_isBlank (hb c List.mem_cons_self) (by decide))
    | kilograms => exact absurd rfl (hxy.elim id id)
    | number =>
      obtain rfl : l = "no.".toList := h
      intro heq
      have := (List.cons.inj (List.cons.inj heq).2).1
      exact absurd this (by decide)
  · intro heq
    have hhead := congrArg List.head? heq
    rw [List.head?_append, (text_eq y h).1, image_eq] at hhead
    have hne : x.head ≠ y.head := by cases x <;> cases y <;> first | exact absurd rfl he | decide
    exact hne (Option.some.inj hhead)

/-- An image that does not end in a word stands for something that ends in a blank or with the
text. -/
lemma last_taken (x : Abbreviation) {before : Option Char} {m rest : List Char} {u : Unit}
    (h : x.pattern before (m ++ rest) = some (u, rest)) :
    x.image.toList.getLast?.any isWord = true ∨ m.getLast?.any isBlank = true ∨ rest = [] := by
  cases x with
  | adValorem =>
    refine .inr ?_
    obtain ⟨-, l, -, ⟨-, hr⟩ | ⟨c, hc, hm⟩⟩ := adValorem_eq_some_iff.mp h
    · exact .inr hr
    · have hm : m = l ++ [c] := by
        have : m ++ rest = (l ++ [c]) ++ rest := by rw [hm]; simp
        exact List.append_cancel_right this
      rw [hm, List.getLast?_concat]
      exact .inl hc
  | perCent | kilograms | number => exact .inl (by decide)

/-- What is found after a step was found before it, at a place that the step left alone. -/
lemma somewhere_text {x y : Abbreviation} (hxy : x ≠ kilograms ∨ y ≠ kilograms) {s : List Char}
    (h : Somewhere (Found x.text) none (y.spell s)) :
    Somewhere (fun before s => Found x.text before s ∧ y.pattern before s = none) none s := by
  refine (y.rewritten s).somewhere_found y.headed y.image_eq (fun l c hl => x.text_eq y hl)
    (shields_image x y) (fun l rest os hl => image_ne hxy hl) (fun before m rest u h hw => ?_) h
  rcases y.last_taken h with h | h | h
  · rw [hw] at h
    cases h
  · refine .inl ?_
    cases hm : m.getLast? with
    | none => rfl
    | some c =>
      rw [hm] at h
      exact Formula.isWord_of_isBlank h
  · exact .inr h

/-- A step brings back nothing that another has changed. -/
lemma not_somewhere_spell {x y : Abbreviation} (hxy : x ≠ kilograms ∨ y ≠ kilograms)
    {s : List Char} (h : ¬Somewhere (Found x.text) none s) :
    ¬Somewhere (Found x.text) none (y.spell s) := fun hs =>
  h ((somewhere_text hxy hs).imp fun _ _ hf => hf.1)

lemma not_somewhere_spell_self {x : Abbreviation} (hx : x ≠ kilograms) (s : List Char) :
    ¬Somewhere (Found x.text) none (x.spell s) := by
  refine fun hs => Somewhere.not_of_forall ?_ (somewhere_text (.inl hx) hs)
  rintro before s ⟨hf, hn⟩
  obtain ⟨a, m, rest, h, -⟩ := x.changes_iff.mpr hf
  rw [hn] at h
  cases h

lemma not_somewhere_spellOut {x : Abbreviation} (hx : x ≠ kilograms) (s : List Char) :
    ¬Somewhere (Found x.text) none (spellOut s) := by
  rw [spellOut_eq]
  cases x with
  | adValorem =>
    exact not_somewhere_spell (.inl hx) (not_somewhere_spell (.inl hx)
      (not_somewhere_spell (.inl hx) (not_somewhere_spell_self hx s)))
  | perCent =>
    exact not_somewhere_spell (.inl hx) (not_somewhere_spell (.inl hx)
      (not_somewhere_spell_self hx _))
  | kilograms => exact absurd rfl hx
  | number => exact not_somewhere_spell_self hx _

/-- A text that has nothing to change stays as it is. -/
lemma spell_eq_self {x : Abbreviation} {s : List Char} (h : ¬Somewhere (Found x.text) none s) :
    x.spell s = s :=
  (x.rewritten s).eq_self fun hc => h (hc.imp fun _ _ => x.changes_iff.mp)

/-! ### What every step keeps -/

lemma head?_spell (x : Abbreviation) (s : List Char) : (x.spell s).head? = s.head? :=
  (x.rewritten s).head?_eq x.headed x.image_eq

lemma spell_append {x : Abbreviation} {s t : List Char} (hs : ∀ c ∈ s, c ≠ x.head)
    (ht : t.head? ≠ some x.head) : x.spell (s ++ t) = s ++ x.spell t :=
  x.headed.replaceFrom_append hs ht

lemma spellOut_append {s t : List Char} (hs : ∀ x : Abbreviation, ∀ c ∈ s, c ≠ x.head)
    (ht : ∀ x : Abbreviation, t.head? ≠ some x.head) : spellOut (s ++ t) = s ++ spellOut t := by
  rw [spellOut_eq, spellOut_eq, spell_append (hs _) (ht _), spell_append (hs _),
    spell_append (hs _), spell_append (hs _)]
  all_goals
    simp only [head?_spell]
    exact ht _

/-- The letters that every spelling of it begins with. -/
def start : Abbreviation → String
  | adValorem => "ad"
  | perCent => "per"
  | kilograms => "kg"
  | number => "no."

lemma start_prefix (x : Abbreviation) {before : Option Char} {text rest : List Char} {u : Unit}
    (h : x.pattern before text = some (u, rest)) :
    before.any isWord = false ∧ x.start.toList <+: text := by
  cases x with
  | adValorem =>
    obtain ⟨hb, l, ⟨b, e, -, -, rfl⟩, ⟨rfl, -⟩ | ⟨c, -, rfl⟩⟩ := adValorem_eq_some_iff.mp h
    · exact ⟨hb, _, by rw [List.append_assoc, List.append_assoc]; rfl⟩
    · exact ⟨hb, _, by rw [List.append_assoc, List.append_assoc, List.append_assoc]; rfl⟩
  | perCent =>
    obtain ⟨hb, b, -, -, rfl, -⟩ := perCent_eq_some_iff.mp h
    exact ⟨hb, _, rfl⟩
  | kilograms =>
    obtain ⟨hb, l, hl, r, rfl, -⟩ := kilograms_eq_some_iff.mp h
    refine ⟨hb, ?_⟩
    simp only [List.mem_cons, List.not_mem_nil, or_false] at hl
    rcases hl with rfl | rfl
    · exact ⟨'s' :: r, rfl⟩
    · exact ⟨r, rfl⟩
  | number =>
    obtain ⟨hb, rfl⟩ := numberSign_eq_some_iff.mp h
    exact ⟨hb, _, rfl⟩

/-- Nothing is changed in the front of a text that bars the abbreviations. -/
lemma spellOut_front {front t : List Char}
    (hfront : ∀ x : Abbreviation, Pattern.bars x.start.toList none front = true)
    (ht : ∀ x : Abbreviation, t.head? ≠ some x.head) :
    spellOut (front ++ t) = front ++ spellOut t := by
  have hspell (x : Abbreviation) {t : List Char} (ht : t.head? ≠ some x.head) :
      x.spell (front ++ t) = front ++ x.spell t := by
    have hidle : x.pattern.Idle t none front :=
      Pattern.idle_of_bars (q := fun _ => false) (fun before text f hf => .inr (x.start_prefix hf))
        (fun _ _ => rfl) (hfront x)
    exact hidle.replaceFrom_append.trans
      (congrArg (front ++ ·) (x.headed.replaceFrom_congr ht))
  rw [spellOut_eq, spellOut_eq, hspell _ (ht _), hspell, hspell, hspell]
  all_goals
    simp only [head?_spell]
    exact ht _

lemma mem_spell {x : Abbreviation} {s : List Char} {c : Char} (h : c ∈ x.spell s) :
    c ∈ s ∨ c ∈ x.image.toList :=
  (x.rewritten s).mem_or_mem h

lemma spaced_spell (x : Abbreviation) {s : List Char} (h : Spaced s) : Spaced (x.spell s) := by
  have himage : Spaced x.image.toList := by
    have hspace : ∀ c ∈ x.image.toList, isBlank c = true → c = ' ' :=
      forall_mem_of_all (by cases x <;> decide)
    refine ⟨hspace, ?_⟩
    cases x <;> decide
  refine (x.rewritten s).spaced x.headed x.image_eq himage (fun before m rest u hm hb => ?_) h
  refine (x.last_taken hm).resolve_left fun hw => ?_
  cases x with
  | adValorem => exact absurd hw (by decide)
  | perCent | kilograms | number => exact absurd hb (by decide)

/-! ### What no step brings -/

lemma countP_image (x : Abbreviation) : x.image.toList.countP isSpent = 0 := by
  cases x <;> decide

lemma countP_spell_le (x : Abbreviation) (s : List Char) :
    (x.spell s).countP isSpent ≤ s.countP isSpent :=
  (x.rewritten s).countP_le x.countP_image

/-- The abbreviations that cost one have nothing to change where none is lost. -/
lemma not_somewhere_of_countP {x : Abbreviation} (hx : x = kilograms ∨ x = number) {s : List Char}
    (h : (x.spell s).countP isSpent = s.countP isSpent) : ¬Somewhere (Found x.text) none s := by
  intro hs
  have hspent (before : Option Char) (m rest : List Char) (u : Unit)
      (hm : x.pattern before (m ++ rest) = some (u, rest)) (hne : m ≠ x.image.toList) :
      0 < m.countP isSpent := by
    rcases hx with rfl | rfl
    · obtain ⟨-, m', hm', heq⟩ := kilograms_takes hm
      rw [← List.append_cancel_right heq] at hm'
      have hall : ∀ m ∈ ["kg".toList, "kg.".toList, "kgs".toList, "kgs.".toList],
          m ≠ "kg".toList → 0 < m.countP isSpent := by decide
      exact hall m hm' hne
    · obtain ⟨-, heq⟩ := numberSign_eq_some_iff.mp hm
      rw [List.append_cancel_right heq]
      decide
  exact (x.rewritten s).not_changes_of_countP x.headed x.countP_image hspent h
    (hs.imp fun _ _ => x.changes_iff.mpr)

end Abbreviation

end Tariff.Rate
