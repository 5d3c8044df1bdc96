import Mathlib.Data.List.Chain
import Tariff.Proofs.Text.Rewriting
import Tariff.Proofs.Text.Runs
import Tariff.Proofs.Text.Trim

/-!
Texts with single spaces: what squeezing gives, and what squeezing leaves alone.
-/

namespace Tariff.Text

structure Spaced (s : List Char) : Prop where
  space : ∀ c ∈ s, isBlank c = true → c = ' '
  single : s.IsChain fun c d => isBlank c = true → isBlank d = false

namespace Spaced

variable {s t : List Char}

lemma append (hs : Spaced s) (ht : Spaced t)
    (h : ∀ c ∈ s.getLast?, ∀ d ∈ t.head?, isBlank c = true → isBlank d = false) :
    Spaced (s ++ t) where
  space c hc := (List.mem_append.mp hc).elim (hs.space c) (ht.space c)
  single := List.isChain_append.mpr ⟨hs.single, ht.single, h⟩

lemma left (h : Spaced (s ++ t)) : Spaced s where
  space c hc := h.space c (List.mem_append_left t hc)
  single := (List.isChain_append.mp h.single).1

lemma right (h : Spaced (s ++ t)) : Spaced t where
  space c hc := h.space c (List.mem_append_right s hc)
  single := (List.isChain_append.mp h.single).2.1

lemma border (h : Spaced (s ++ t)) :
    ∀ c ∈ s.getLast?, ∀ d ∈ t.head?, isBlank c = true → isBlank d = false :=
  (List.isChain_append.mp h.single).2.2

end Spaced

lemma spaced_of_ink {s : List Char} (h : ∀ c ∈ s, isBlank c = false) : Spaced s := by
  constructor
  · intro c hc hb
    rw [h c hc] at hb
    cases hb
  · induction s with
    | nil => exact List.isChain_nil
    | cons c cs ih =>
      rw [List.forall_mem_cons] at h
      refine List.isChain_cons.mpr ⟨fun d hd _ => ?_, ih h.2⟩
      exact h.2 d (List.mem_of_mem_head? hd)

lemma trimmed_of_ink {s : List Char} (h : ∀ c ∈ s, isBlank c = false) : Trimmed s where
  head c hc := h c (List.mem_of_mem_head? hc)
  last c hc := h c (List.mem_of_mem_getLast? hc)

/-! ### What squeezing gives -/

lemma intercalate_cons_ne_nil {sep w : List Char} (hw : w ≠ []) (ws : List (List Char)) :
    sep.intercalate (w :: ws) ≠ [] := by
  cases ws with
  | nil => rwa [List.intercalate_singleton]
  | cons v vs =>
    rw [List.intercalate_cons_cons, List.append_assoc]
    exact List.append_ne_nil_of_left_ne_nil hw _

/-- Words with a space between any two are spaced, and begin and end with a word. -/
lemma spaced_intercalate {ws : List (List Char)}
    (h : ∀ w ∈ ws, w ≠ [] ∧ ∀ c ∈ w, isBlank c = false) :
    Spaced ([' '].intercalate ws) ∧ Trimmed ([' '].intercalate ws) := by
  induction ws with
  | nil =>
    rw [List.intercalate_nil]
    exact ⟨spaced_of_ink (by simp), trimmed_of_ink (by simp)⟩
  | cons w ws ih =>
    obtain ⟨⟨hne, hink⟩, hws⟩ := List.forall_mem_cons.mp h
    obtain ⟨hs, ht⟩ := ih hws
    cases ws with
    | nil =>
      rw [List.intercalate_singleton]
      exact ⟨spaced_of_ink hink, trimmed_of_ink hink⟩
    | cons v vs =>
      have hrest : [' '].intercalate (v :: vs) ≠ [] :=
        intercalate_cons_ne_nil (h v (by simp)).1 vs
      rw [List.intercalate_cons_cons]
      constructor
      · have hspace : Spaced [' '] :=
          ⟨fun c hc _ => List.mem_singleton.mp hc, List.isChain_singleton ' '⟩
        refine ((spaced_of_ink hink).append hspace fun c hc _ _ hb => ?_).append hs
          fun _ _ d hd _ => ht.head d hd
        rw [hink c (List.mem_of_mem_getLast? hc)] at hb
        cases hb
      · constructor
        · intro c hc
          rw [List.append_assoc, List.head?_append_of_ne_nil w hne] at hc
          exact hink c (List.mem_of_mem_head? hc)
        · intro c hc
          rw [List.getLast?_append_of_ne_nil _ hrest] at hc
          exact ht.last c hc

lemma spaced_squeeze (s : List Char) : Spaced (squeeze s) ∧ Trimmed (squeeze s) := by
  refine spaced_intercalate fun w hw => ⟨(mem_runsOf hw).1, fun c hc => ?_⟩
  have := (exists_of_mem_runsOf hw).1 c hc
  simpa using this

lemma mem_of_mem_squeeze {s : List Char} {c : Char} (h : c ∈ squeeze s) : c ∈ s ∨ c = ' ' := by
  have hmem {ws : List (List Char)} (h : c ∈ [' '].intercalate ws) :
      (∃ w ∈ ws, c ∈ w) ∨ c = ' ' := by
    induction ws with
    | nil => cases h
    | cons w ws ih =>
      cases ws with
      | nil =>
        rw [List.intercalate_singleton] at h
        exact .inl ⟨w, List.mem_cons_self, h⟩
      | cons v vs =>
        rw [List.intercalate_cons_cons, List.append_assoc, List.mem_append, List.mem_append] at h
        rcases h with h | h | h
        · exact .inl ⟨w, List.mem_cons_self, h⟩
        · exact .inr (List.mem_singleton.mp h)
        · exact (ih h).imp_left fun ⟨x, hx, hc⟩ => ⟨x, List.mem_cons_of_mem w hx, hc⟩
  exact (hmem h).imp_left fun ⟨w, hw, hc⟩ => (mem_runsOf hw).2 c hc

/-! ### What squeezing leaves alone -/

lemma squeeze_cons {c d : Char} {s : List Char} (hc : isBlank c = false) (hd : isBlank d = false) :
    squeeze (c :: d :: s) = c :: squeeze (d :: s) := by
  have hink : (!isBlank c) = true := by rw [hc]; rfl
  rcases runsOf_cons_of_pos (p := (!isBlank ·)) hink (d :: s) with ⟨r, rs, hr, -, he⟩ | ⟨hh, -⟩
  · unfold squeeze pieces
    rw [hr, he]
    cases rs with
    | nil => simp [List.intercalate_singleton]
    | cons v vs => simp [List.intercalate_cons_cons]
  · have hh : (!isBlank d) = false := hh
    rw [hd] at hh
    cases hh

lemma squeeze_cons_space {c : Char} {s : List Char} (hc : isBlank c = false) (hs : squeeze s ≠ []) :
    squeeze (c :: ' ' :: s) = c :: ' ' :: squeeze s := by
  have hp : pieces (c :: ' ' :: s) = [c] :: pieces s := by
    have hink : ∀ d ∈ [c], (!isBlank d) = true := by simp [hc]
    have hsplit : c :: ' ' :: s = [c] ++ ' ' :: s := rfl
    unfold pieces
    rw [hsplit, runsOf_append_cons (by decide), runsOf_of_all (List.cons_ne_nil c []) hink]
    rfl
  unfold squeeze at hs ⊢
  rw [hp]
  cases hps : pieces s with
  | nil =>
    rw [hps] at hs
    exact absurd List.intercalate_nil hs
  | cons v vs => simp [List.intercalate_cons_cons]

/-- A spaced text without blanks at its ends stays as it is. -/
lemma squeeze_of_spaced {s : List Char} (hs : Spaced s) (ht : Trimmed s) : squeeze s = s := by
  induction hn : s.length using Nat.strongRecOn generalizing s with
  | ind n ih =>
    subst hn
    match s, hs, ht, ih with
    | [], _, _, _ => rfl
    | [c], _, ht, _ =>
      have hc : (!isBlank c) = true := by rw [ht.head c rfl]; rfl
      simp [squeeze, pieces, runsOf, hc, List.intercalate_singleton]
    | c :: d :: ds, hs, ht, ih =>
      have hc : isBlank c = false := ht.head c rfl
      have hds : Spaced (d :: ds) := Spaced.right (s := [c]) hs
      have hlast : ∀ e ∈ (d :: ds).getLast?, isBlank e = false := fun e he =>
        ht.last e (by rwa [List.getLast?_cons_cons])
      cases hd : isBlank d with
      | false =>
        have htail : Trimmed (d :: ds) := ⟨fun e he => by cases he; exact hd, hlast⟩
        rw [squeeze_cons hc hd, ih _ (by simp) hds htail rfl]
      | true =>
        have hspace : d = ' ' := hs.space d (by simp) hd
        subst hspace
        -- behind the space stands something that is no blank
        have hne : ds ≠ [] := by
          rintro rfl
          exact absurd (hlast ' ' rfl) (by decide)
        have hrest : Spaced ds := Spaced.right (s := [' ']) hds
        have htail : Trimmed ds := by
          refine ⟨fun e he => hds.border (s := [' ']) ' ' rfl e he (by decide), fun e he => ?_⟩
          obtain ⟨e', es, rfl⟩ := List.exists_cons_of_ne_nil hne
          exact hlast e (by rwa [List.getLast?_cons_cons])
        have hsame := ih _ (by rw [List.length_cons, List.length_cons]; omega) hrest htail rfl
        rw [squeeze_cons_space hc (by rwa [hsame]), hsame]

/-! ### What rewriting leaves alone -/

/-- A rewritten text is spaced if the image is, and a finding ends in a blank where the image
does. -/
lemma Pattern.Rewritten.spaced {α : Type} {p : Pattern α} {h : Char} {image image' : List Char}
    {before : Option Char} {text out : List Char} (hp : p.Headed h) (hi : image = h :: image')
    (himage : Spaced image)
    (hlast : ∀ before m rest f, p before (m ++ rest) = some (f, rest) →
      image.getLast?.any isBlank = true → m.getLast?.any isBlank = true ∨ rest = [])
    (hr : Rewritten p image before text out) (hs : Spaced text) : Spaced out := by
  induction hr with
  | nil => exact hs
  | @keep before c cs out hn hr ih =>
    refine Spaced.append (s := [c]) (Spaced.left hs) (ih (Spaced.right (s := [c]) hs)) ?_
    rw [hr.head?_eq hp hi]
    exact Spaced.border (s := [c]) hs
  | @hit before m rest out f hf hm hr ih =>
    refine himage.append (ih hs.right) fun c hc d hd hb => ?_
    rw [hr.head?_eq hp hi] at hd
    have hblank : image.getLast?.any isBlank = true := by
      rw [Option.mem_def.mp hc]
      exact hb
    rcases hlast before m rest f hf hblank with hm | rfl
    · cases he : m.getLast? with
      | none =>
        rw [he] at hm
        cases hm
      | some e =>
        rw [he] at hm
        exact hs.border e he d hd hm
    · cases hd

end Tariff.Text
