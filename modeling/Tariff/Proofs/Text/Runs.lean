import Mathlib.Data.List.TakeWhile
import Mathlib.Tactic.Common
import Tariff.Text.Runs

/-!
Runs of characters and tails of texts, piece by piece: where two pieces meet, the runs of the whole
are those of the pieces unless one run goes on across the border.
-/

namespace Tariff.Text

variable {p : Char → Bool}

/-! ### First characters -/

lemma any_head?_append {s : List Char} (h : s.head?.any p = true) (t : List Char) :
    (s ++ t).head?.any p = true := by
  cases s with
  | nil => cases h
  | cons c cs => exact h

lemma any_head?_of_imp {q : Char → Bool} (hpq : ∀ c, p c = true → q c = false) {s : List Char}
    (h : s.head?.any p = true) : s.head?.any q = false := by
  cases s with
  | nil => rfl
  | cons c cs => exact hpq c h

/-! ### Runs -/

lemma runsOf_of_not {s : List Char} (h : ∀ c ∈ s, p c = false) : runsOf p s = [] := by
  induction s with
  | nil => rfl
  | cons c cs ih =>
    rw [List.forall_mem_cons] at h
    unfold runsOf
    rw [h.1, ih h.2]
    rfl

lemma runsOf_congr {q : Char → Bool} {s : List Char} (h : ∀ c ∈ s, p c = q c) :
    runsOf p s = runsOf q s := by
  induction s with
  | nil => rfl
  | cons c cs ih =>
    rw [List.forall_mem_cons] at h
    unfold runsOf
    rw [h.1, ih h.2]
    cases cs with
    | nil => rfl
    | cons d ds =>
      cases runsOf q (d :: ds) with
      | nil => rfl
      | cons r rs => dsimp only; rw [h.2 d List.mem_cons_self]

lemma runsOf_of_all {s : List Char} (hs : s ≠ []) (h : ∀ c ∈ s, p c = true) :
    runsOf p s = [s] := by
  induction s with
  | nil => exact absurd rfl hs
  | cons c cs ih =>
    rw [List.forall_mem_cons] at h
    unfold runsOf
    rw [h.1]
    rcases cs with - | ⟨d, ds⟩
    · rfl
    · rw [ih (by simp) h.2]
      simp [h.2 d (by simp)]

lemma runsOf_cons_of_neg {c : Char} (hc : p c = false) (cs : List Char) :
    runsOf p (c :: cs) = runsOf p cs := by
  rw [runsOf.eq_def]
  simp [hc]

lemma runsOf_cons_ne_nil {c : Char} (hc : p c = true) (cs : List Char) :
    runsOf p (c :: cs) ≠ [] := by
  rw [runsOf.eq_def]
  simp only [hc, if_true]
  split
  · split <;> simp
  · simp

lemma runsOf_cons_of_pos {c : Char} (hc : p c = true) (cs : List Char) :
    (∃ r rs, runsOf p cs = r :: rs ∧ cs.head?.any p = true ∧ runsOf p (c :: cs) = (c :: r) :: rs) ∨
      cs.head?.any p = false ∧ runsOf p (c :: cs) = [c] :: runsOf p cs := by
  rcases cs with - | ⟨d, ds⟩
  · exact .inr ⟨rfl, by simp [runsOf, hc]⟩
  · cases hd : p d with
    | false =>
      refine .inr ⟨hd, ?_⟩
      rw [runsOf.eq_def]
      cases hr : runsOf p (d :: ds) <;> simp [hc, hd, hr]
    | true =>
      refine .inl ?_
      obtain ⟨r, rs, hr⟩ := List.exists_cons_of_ne_nil (runsOf_cons_ne_nil hd ds)
      refine ⟨r, rs, hr, hd, ?_⟩
      rw [runsOf.eq_def]
      simp [hc, hd, hr]

lemma mem_runsOf {s r : List Char} (h : r ∈ runsOf p s) : r ≠ [] ∧ ∀ c ∈ r, c ∈ s := by
  induction s generalizing r with
  | nil => cases h
  | cons c cs ih =>
    cases hc : p c with
    | false =>
      rw [runsOf_cons_of_neg hc] at h
      exact ⟨(ih h).1, fun d hd => List.mem_cons_of_mem _ ((ih h).2 d hd)⟩
    | true =>
      rcases runsOf_cons_of_pos hc cs with ⟨r', rs, hr, -, he⟩ | ⟨-, he⟩
      · rw [he] at h
        rcases List.mem_cons.mp h with rfl | h
        · have := ih (r := r') (by rw [hr]; exact List.mem_cons_self)
          refine ⟨by simp, List.forall_mem_cons.mpr ⟨List.mem_cons_self, fun d hd => ?_⟩⟩
          exact List.mem_cons_of_mem _ (this.2 d hd)
        · have := ih (r := r) (by rw [hr]; exact List.mem_cons_of_mem _ h)
          exact ⟨this.1, fun d hd => List.mem_cons_of_mem _ (this.2 d hd)⟩
      · rw [he] at h
        rcases List.mem_cons.mp h with rfl | h
        · simp
        · exact ⟨(ih h).1, fun d hd => List.mem_cons_of_mem _ ((ih h).2 d hd)⟩

lemma runsOf_append_cons {c : Char} (hc : p c = false) (s t : List Char) :
    runsOf p (s ++ c :: t) = runsOf p s ++ runsOf p t := by
  induction s with
  | nil => exact runsOf_cons_of_neg hc t
  | cons a as ih =>
    rw [List.cons_append]
    have hhead : (as ++ c :: t).head?.any p = as.head?.any p := by
      rcases as with - | ⟨b, bs⟩
      · simp [hc]
      · simp
    cases ha : p a with
    | false => rw [runsOf_cons_of_neg ha, runsOf_cons_of_neg ha, ih]
    | true =>
      rcases runsOf_cons_of_pos ha as with ⟨r, rs, hr, hh, he⟩ | ⟨hh, he⟩ <;>
      rcases runsOf_cons_of_pos ha (as ++ c :: t) with ⟨r', rs', hr', hh', he'⟩ | ⟨hh', he'⟩
      · rw [ih, hr, List.cons_append, List.cons.injEq] at hr'
        rw [he, he', ← hr'.1, ← hr'.2, List.cons_append]
      · rw [hhead, hh] at hh'; cases hh'
      · rw [hhead, hh] at hh'; cases hh'
      · rw [he, he', ih, List.cons_append]

/-- A border before a character that belongs to no run is one that no run goes across. -/
lemma runsOf_append {t : List Char} (ht : t.head?.any p = false) (s : List Char) :
    runsOf p (s ++ t) = runsOf p s ++ runsOf p t := by
  rcases t with - | ⟨c, cs⟩
  · rw [List.append_nil]
    exact (List.append_nil _).symm
  · rw [runsOf_append_cons ht, runsOf_cons_of_neg ht]

lemma append_runsOf {s : List Char} (hs : s.getLast?.any p = false) (t : List Char) :
    runsOf p (s ++ t) = runsOf p s ++ runsOf p t := by
  rcases List.eq_nil_or_concat s with rfl | ⟨s, c, rfl⟩
  · rfl
  · have hc : p c = false := by simpa using hs
    rw [List.concat_eq_append, List.append_assoc, List.singleton_append, runsOf_append_cons hc,
      runsOf_append_cons hc]
    exact congrArg (· ++ runsOf p t) (List.append_nil _).symm

/-- No run comes of characters that belong to none. -/
lemma runsOf_append_of_not {s : List Char} (hs : ∀ c ∈ s, p c = false) (t : List Char) :
    runsOf p (s ++ t) = runsOf p t := by
  induction s with
  | nil => rfl
  | cons c cs ih =>
    rw [List.forall_mem_cons] at hs
    rw [List.cons_append, runsOf_cons_of_neg hs.1, ih hs.2]

lemma head?_dropWhile (p : Char → Bool) (cs : List Char) :
    (cs.dropWhile p).head?.any p = false := by
  have := List.head?_dropWhile_not p cs
  cases h : (cs.dropWhile p).head? with
  | none => rfl
  | some d => simpa [h] using this

lemma runsOf_cons_eq {c : Char} (hc : p c = true) (cs : List Char) :
    runsOf p (c :: cs) = (c :: cs.takeWhile p) :: runsOf p (cs.dropWhile p) := by
  have hall : ∀ d ∈ c :: cs.takeWhile p, p d = true :=
    List.forall_mem_cons.mpr ⟨hc, fun d hd => List.mem_takeWhile_imp hd⟩
  conv_lhs => rw [← List.takeWhile_append_dropWhile (p := p) (l := cs), ← List.cons_append]
  rw [runsOf_append (head?_dropWhile p cs), runsOf_of_all (List.cons_ne_nil _ _) hall]
  rfl

/-- On either side of a run is a character of no run or an end of the text. -/
lemma exists_of_mem_runsOf {s r : List Char} (h : r ∈ runsOf p s) : (∀ c ∈ r, p c = true) ∧
    ∃ a b, s = a ++ (r ++ b) ∧ a.getLast?.any p = false ∧ b.head?.any p = false := by
  have hlast {a : List Char} (hne : a ≠ []) (t : List Char) : (t ++ a).getLast? = a.getLast? := by
    rw [List.getLast?_append, List.getLast?_eq_some_getLast hne, Option.some_or]
  induction hn : s.length using Nat.strong_induction_on generalizing s with
  | h n ih =>
    subst hn
    rcases s with - | ⟨c, cs⟩
    · cases h
    cases hc : p c with
    | false =>
      rw [runsOf_cons_of_neg hc] at h
      obtain ⟨hall, a, b, rfl, ha, hb⟩ := ih _ (Nat.lt_succ_self _) h rfl
      refine ⟨hall, c :: a, b, rfl, ?_, hb⟩
      by_cases hne : a = []
      · rw [hne]
        exact hc
      · rwa [← List.singleton_append, hlast hne]
    | true =>
      have hsplit := List.takeWhile_append_dropWhile (p := p) (l := cs)
      have hrest := head?_dropWhile p cs
      rw [runsOf_cons_eq hc, List.mem_cons] at h
      rcases h with rfl | h
      · have hall : ∀ d ∈ c :: cs.takeWhile p, p d = true :=
          List.forall_mem_cons.mpr ⟨hc, fun d hd => List.mem_takeWhile_imp hd⟩
        refine ⟨hall, [], _, ?_, rfl, hrest⟩
        rw [List.nil_append, List.cons_append, hsplit]
      · have hlen : (cs.dropWhile p).length < (c :: cs).length :=
          Nat.lt_succ_of_le (List.length_dropWhile_le p cs)
        obtain ⟨hall, a, b, heq, ha, hb⟩ := ih _ hlen h rfl
        -- what is left does not begin with a run, so something stands before this one
        have hne : a ≠ [] := by
          rintro rfl
          obtain ⟨d, ds, rfl⟩ := List.exists_cons_of_ne_nil (mem_runsOf h).1
          rw [heq] at hrest
          have hd : p d = false := hrest
          rw [hall d List.mem_cons_self] at hd
          cases hd
        refine ⟨hall, c :: cs.takeWhile p ++ a, b, ?_, ?_, hb⟩
        · rw [List.append_assoc, ← heq, List.cons_append, hsplit]
        · rwa [hlast hne]

/-- A run of a class is one of a smaller class that has all its characters. -/
lemma mem_runsOf_of_imp {q : Char → Bool} (hqp : ∀ c, q c = true → p c = true) {s r : List Char}
    (h : r ∈ runsOf p s) (hq : ∀ c ∈ r, q c = true) : r ∈ runsOf q s := by
  have hborder {o : Option Char} (ho : o.any p = false) : o.any q = false := by
    cases o with
    | none => rfl
    | some c => exact Bool.eq_false_iff.mpr fun hc => Bool.eq_false_iff.mp ho (hqp c hc)
  obtain ⟨-, a, b, rfl, ha, hb⟩ := exists_of_mem_runsOf h
  rw [append_runsOf (hborder ha), runsOf_append (hborder hb), runsOf_of_all (mem_runsOf h).1 hq]
  simp

lemma takeWhile_append {s t : List Char} (hs : ∀ c ∈ s, p c = true)
    (ht : t.head?.any p = false) : (s ++ t).takeWhile p = s := by
  rw [List.takeWhile_append_of_pos hs]
  rcases t with - | ⟨c, cs⟩
  · simp
  · have : p c = false := ht
    simp [this]

/-! ### Pieces -/

lemma exists_splitAt (p : Char → Bool) (s : List Char) :
    ∃ r rs, splitAt p s = r :: rs ∧ ∀ c ∈ r.head?, c ∈ s.head? := by
  rcases s with - | ⟨c, cs⟩
  · exact ⟨[], [], rfl, by simp⟩
  · unfold splitAt
    split_ifs
    · exact ⟨[], _, rfl, by simp⟩
    · cases splitAt p cs with
      | nil => exact ⟨[c], [], rfl, by simp⟩
      | cons r rs => exact ⟨c :: r, rs, rfl, by simp⟩

lemma splitAt_of_not {s : List Char} (h : ∀ c ∈ s, p c = false) : splitAt p s = [s] := by
  induction s with
  | nil => rfl
  | cons c cs ih =>
    rw [List.forall_mem_cons] at h
    unfold splitAt
    rw [h.1, ih h.2]
    rfl

lemma not_of_mem_splitAt {s q : List Char} (h : q ∈ splitAt p s) : ∀ c ∈ q, p c = false := by
  induction s generalizing q with
  | nil =>
    rw [List.mem_singleton.mp h]
    exact List.forall_mem_nil _
  | cons c cs ih =>
    obtain ⟨r, rs, hr, -⟩ := exists_splitAt p cs
    unfold splitAt at h
    rw [hr] at h ih
    split_ifs at h with hc
    · rcases List.mem_cons.mp h with rfl | h
      · exact List.forall_mem_nil _
      · exact ih h
    · rcases List.mem_cons.mp h with rfl | h
      · exact List.forall_mem_cons.mpr ⟨Bool.eq_false_iff.mpr hc, ih List.mem_cons_self⟩
      · exact ih (List.mem_cons_of_mem r h)

lemma separator_notMem {s q : List Char} {c : Char} (h : q ∈ splitAt (· == c) s) : c ∉ q :=
  fun hc => absurd (beq_self_eq_true c) (Bool.eq_false_iff.mp (not_of_mem_splitAt h c hc))

lemma mem_splitAt_of_mem {s : List Char} {c : Char} (h : c ∈ s) :
    p c = true ∨ ∃ q ∈ splitAt p s, c ∈ q := by
  induction s with
  | nil => cases h
  | cons d ds ih =>
    obtain ⟨r, rs, hr, -⟩ := exists_splitAt p ds
    unfold splitAt
    rw [hr] at ih ⊢
    split_ifs with hd
    · rcases List.mem_cons.mp h with rfl | h
      · exact .inl hd
      · exact (ih h).imp_right fun ⟨q, hq, hc⟩ => ⟨q, List.mem_cons_of_mem _ hq, hc⟩
    · rcases List.mem_cons.mp h with rfl | h
      · exact .inr ⟨_, List.mem_cons_self, List.mem_cons_self⟩
      · refine (ih h).imp_right fun ⟨q, hq, hc⟩ => ?_
        rcases List.mem_cons.mp hq with rfl | hq
        · exact ⟨_, List.mem_cons_self, List.mem_cons_of_mem d hc⟩
        · exact ⟨q, List.mem_cons_of_mem _ hq, hc⟩

lemma splitAt_append_cons {c : Char} (hc : p c = true) {s : List Char}
    (hs : ∀ d ∈ s, p d = false) (t : List Char) : splitAt p (s ++ c :: t) = s :: splitAt p t := by
  induction s with
  | nil =>
    rw [List.nil_append, splitAt.eq_2, if_pos hc]
  | cons d ds ih =>
    rw [List.forall_mem_cons] at hs
    rw [List.cons_append, splitAt.eq_2, hs.1, ih hs.2]
    rfl

lemma intercalate_splitAt (c : Char) (s : List Char) :
    [c].intercalate (splitAt (· == c) s) = s := by
  induction s with
  | nil => rfl
  | cons d ds ih =>
    obtain ⟨r, rs, hr, -⟩ := exists_splitAt (· == c) ds
    rw [hr] at ih
    unfold splitAt
    rw [hr]
    split_ifs with hd
    · rw [List.intercalate_cons_cons, ih, eq_of_beq hd]
      rfl
    · cases rs with
      | nil =>
        rw [List.intercalate_singleton] at ih ⊢
        rw [ih]
      | cons q qs =>
        rw [List.intercalate_cons_cons] at ih ⊢
        rw [← ih]
        rfl

lemma intercalate_append_cons (c : Char) (s t : List Char) (ws : List (List Char)) :
    [c].intercalate ((s ++ t) :: ws) = s ++ [c].intercalate (t :: ws) := by
  cases ws with
  | nil => rw [List.intercalate_singleton, List.intercalate_singleton]
  | cons w ws => simp only [List.intercalate_cons_cons, List.append_assoc]

lemma intercalate_append (c : Char) {ws vs : List (List Char)} (hne : vs ≠ []) :
    [c].intercalate (ws ++ vs) = ws.flatMap (· ++ [c]) ++ [c].intercalate vs := by
  obtain ⟨v, vs, rfl⟩ := List.exists_cons_of_ne_nil hne
  induction ws with
  | nil => rfl
  | cons w ws ih =>
    cases ws with
    | nil => simp [List.intercalate_cons_cons]
    | cons u us => simpa [List.intercalate_cons_cons] using ih

lemma splitAt_intercalate {c : Char} {qs : List (List Char)} (hne : qs ≠ [])
    (h : ∀ q ∈ qs, c ∉ q) : splitAt (· == c) ([c].intercalate qs) = qs := by
  have hnot {q : List Char} (hq : c ∉ q) : ∀ d ∈ q, (d == c) = false := by
    intro d hd
    rw [beq_eq_false_iff_ne]
    rintro rfl
    exact hq hd
  induction qs with
  | nil => exact absurd rfl hne
  | cons q qs ih =>
    obtain ⟨hq, hqs⟩ := List.forall_mem_cons.mp h
    cases qs with
    | nil =>
      rw [List.intercalate_singleton]
      exact splitAt_of_not (hnot hq)
    | cons r rs =>
      rw [List.intercalate_cons_cons, List.append_assoc, List.singleton_append,
        splitAt_append_cons (p := (· == c)) (beq_self_eq_true c) (hnot hq),
        ih (List.cons_ne_nil r rs) hqs]

/-! ### Tails -/

lemma dropTail_cons (c : Char) (s : List Char) :
    dropTail p (c :: s) =
      if dropTail p s = [] then (if p c then [] else [c]) else c :: dropTail p s := by
  rw [dropTail.eq_def]
  dsimp only
  cases dropTail p s <;> simp

lemma dropTail_append (s t : List Char) :
    dropTail p (s ++ t) = if dropTail p t = [] then dropTail p s else s ++ dropTail p t := by
  induction s with
  | nil => split_ifs with h <;> simp [h, dropTail]
  | cons c cs ih =>
    rw [List.cons_append, dropTail_cons, ih]
    split_ifs with h1 h2 h3 <;> simp_all [dropTail_cons]

end Tariff.Text
