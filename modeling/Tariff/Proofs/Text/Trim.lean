import Mathlib.Data.List.DropRight
import Tariff.Text.Blank

/-!
Texts without blanks at their ends: what trimming gives, and what trimming leaves alone.
-/

namespace Tariff.Text

lemma dropTail_eq_rdropWhile (p : Char → Bool) (s : List Char) :
    dropTail p s = s.rdropWhile p := by
  induction s with
  | nil => rfl
  | cons c cs ih =>
    unfold dropTail
    rw [ih]
    by_cases hall : cs.rdropWhile p = []
    · have h : ∀ d ∈ cs, p d := List.rdropWhile_eq_nil_iff.mp hall
      rw [hall]
      by_cases hc : p c
      · have : (c :: cs).rdropWhile p = [] :=
          List.rdropWhile_eq_nil_iff.mpr (by simpa using ⟨hc, h⟩)
        simp [hc, this]
      · have hr : cs.reverse.dropWhile p = [] := by simpa using h
        simp [hc, List.rdropWhile, List.dropWhile_append, hr]
    · obtain ⟨d, ds, hd⟩ := List.exists_cons_of_ne_nil hall
      have hr : cs.reverse.dropWhile p ≠ [] := fun h => hall (by simp [List.rdropWhile, h])
      have : (c :: cs).rdropWhile p = c :: cs.rdropWhile p := by
        simp [List.rdropWhile, List.dropWhile_append, hr]
      simp [this, hd]

lemma dropTail_eq_self_iff {p : Char → Bool} {s : List Char} :
    dropTail p s = s ↔ ∀ c ∈ s.getLast?, p c = false := by
  rw [dropTail_eq_rdropWhile, List.rdropWhile_eq_self_iff]
  rcases s.eq_nil_or_concat with rfl | ⟨t, c, rfl⟩ <;> simp

lemma getLast?_dropTail (p : Char → Bool) (s : List Char) :
    ∀ c ∈ (dropTail p s).getLast?, p c = false := by
  have h : dropTail p (dropTail p s) = dropTail p s := by
    simp only [dropTail_eq_rdropWhile, List.rdropWhile_idempotent]
  exact dropTail_eq_self_iff.mp h

lemma head?_dropTail {p : Char → Bool} {s : List Char} {c : Char}
    (h : (dropTail p s).head? = some c) : s.head? = some c := by
  rw [dropTail_eq_rdropWhile] at h
  obtain ⟨t, ht⟩ := List.rdropWhile_prefix p (l := s)
  rw [← ht, List.head?_append, h]
  rfl

structure Trimmed (s : List Char) : Prop where
  head : ∀ c ∈ s.head?, isBlank c = false
  last : ∀ c ∈ s.getLast?, isBlank c = false

lemma Trimmed.trim_eq {s : List Char} (h : Trimmed s) : trim s = s := by
  have hs : trimStart s = s := by
    unfold trimStart
    rw [List.dropWhile_eq_self_iff]
    intro hl
    have := h.head s[0] (by simp [List.head?_eq_getElem?, hl])
    simp [this]
  unfold trim
  rw [hs]
  exact dropTail_eq_self_iff.mpr h.last

lemma trimmed_trim (s : List Char) : Trimmed (trim s) where
  head := fun c hc => by
    have h1 : (trimStart s).head? = some c := head?_dropTail hc
    unfold trimStart at h1
    have := List.head?_dropWhile_not isBlank s
    rw [h1] at this
    simpa using this
  last := getLast?_dropTail isBlank _

lemma mem_of_mem_trim {s : List Char} {c : Char} (h : c ∈ trim s) : c ∈ s := by
  unfold trim trimEnd at h
  rw [dropTail_eq_rdropWhile] at h
  exact List.dropWhile_subset _ ((List.rdropWhile_prefix isBlank _).subset h)

/-- Blanks around a text are all that trimming takes away. -/
lemma trim_append {a s b : List Char} (ha : ∀ c ∈ a, isBlank c = true) (hs : Trimmed s)
    (hb : ∀ c ∈ b, isBlank c = true) (hne : s ≠ []) : trim (a ++ s ++ b) = s := by
  obtain ⟨c, s, rfl⟩ := List.exists_cons_of_ne_nil hne
  have hc : isBlank c = false := hs.head c rfl
  have hstart : trimStart (a ++ (c :: s) ++ b) = c :: s ++ b := by
    unfold trimStart
    rw [List.append_assoc, List.dropWhile_append_of_pos ha, List.cons_append,
      List.dropWhile_cons_of_neg (by simp [hc])]
  unfold trim trimEnd
  rw [hstart, dropTail_eq_rdropWhile, List.rdropWhile, List.reverse_append,
    List.dropWhile_append_of_pos (fun d hd => hb d (List.mem_reverse.mp hd)), ← List.rdropWhile,
    ← dropTail_eq_rdropWhile]
  exact dropTail_eq_self_iff.mpr hs.last

lemma trim_eq_nil_iff {s : List Char} : trim s = [] ↔ s.all isBlank = true := by
  unfold trim trimEnd trimStart
  rw [dropTail_eq_rdropWhile, List.rdropWhile_eq_nil_iff, List.all_eq_true]
  constructor
  · intro h c hc
    rw [← List.takeWhile_append_dropWhile (p := isBlank) (l := s)] at hc
    rcases List.mem_append.mp hc with h1 | h1
    · exact List.mem_takeWhile_imp h1
    · exact h c h1
  · exact fun h c hc => h c (List.dropWhile_subset _ hc)

end Tariff.Text
