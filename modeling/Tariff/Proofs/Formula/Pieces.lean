import Mathlib.Data.List.Chain
import Tariff.Proofs.Formula.Names
import Tariff.Proofs.Formula.Tokens
import Tariff.Proofs.Lists

/-!
A text with tokens, cut into the pieces that the tokens stand for. The names among the tokens are
the names that the gate sees. They are whole words too, and the variables among the words are those
among the tokens, as long as no two operands stand side by side.
-/

namespace Tariff.Formula

open Tariff.Text

/-- Cutting a text into the pieces of its tokens. -/
inductive Reads : List Char → List Token → Prop where
  | nil : Reads [] []
  | blank {c : Char} {rest : List Char} {ts : List Token} (hc : isBlank c = true)
      (h : Reads rest ts) : Reads (c :: rest) ts
  | number {s rest : List Char} {ts : List Token} {x : Float} (hs : s ≠ [])
      (hall : ∀ c ∈ s, isNumberChar c = true) (hr : rest.head?.any isNumberChar = false)
      (hx : Decimal.read? s = some x) (h : Reads rest ts) : Reads (s ++ rest) (.number x :: ts)
  | name {s rest : List Char} {ts : List Token} (hs : s ≠ [])
      (hall : ∀ c ∈ s, isNameChar c = true) (hr : rest.head?.any isNameChar = false)
      (h : Reads rest ts) : Reads (s ++ rest) (.name (String.ofList s) :: ts)
  | op {rest : List Char} {ts : List Token} (o : Op) (h : Reads rest ts) :
      Reads (o.char :: rest) (.op o :: ts)
  | opening {rest : List Char} {ts : List Token} (h : Reads rest ts) :
      Reads ('(' :: rest) (.opening :: ts)
  | closing {rest : List Char} {ts : List Token} (h : Reads rest ts) :
      Reads (')' :: rest) (.closing :: ts)

lemma drop_length_takeWhile (p : Char → Bool) (cs : List Char) :
    cs.drop (cs.takeWhile p).length = cs.dropWhile p := by
  calc cs.drop (cs.takeWhile p).length
      = (cs.takeWhile p ++ cs.dropWhile p).drop (cs.takeWhile p).length := by
        rw [List.takeWhile_append_dropWhile]
    _ = cs.dropWhile p := List.drop_left

lemma cons_eq_takeWhile {p : Char → Bool} {c : Char} {cs : List Char} (hc : p c = true) :
    c :: cs = (c :: cs.takeWhile p) ++ cs.drop (cs.takeWhile p).length ∧
      (∀ d ∈ c :: cs.takeWhile p, p d = true) ∧
      (cs.drop (cs.takeWhile p).length).head?.any p = false := by
  rw [drop_length_takeWhile]
  refine ⟨?_, ?_, ?_⟩
  · rw [List.cons_append, List.takeWhile_append_dropWhile]
  · rw [List.forall_mem_cons]
    exact ⟨hc, fun d hd => List.mem_takeWhile_imp hd⟩
  · exact head?_dropWhile p cs

lemma reads_of_tokensFrom {i skip : Nat} {cs : List Char} {placed : List Placed}
    (h : tokensFrom i skip cs = .ok placed) : Reads (cs.drop skip) (placed.map (·.2)) := by
  fun_induction tokensFrom i skip cs generalizing placed
  case case1 =>
    cases h
    rw [List.drop_nil]
    exact .nil
  case case2 ih => exact ih h
  case case3 hc ih => exact .blank hc (ih h)
  case case4 hc _ x hx ih =>
    obtain ⟨rest, hrest, rfl⟩ := map_eq_ok.mp h
    obtain ⟨heq, hall, hr⟩ := cons_eq_takeWhile hc
    rw [List.drop_zero, heq]
    exact .number (List.cons_ne_nil _ _) hall hr hx (ih hrest)
  case case6 hc _ ih =>
    obtain ⟨rest, hrest, rfl⟩ := map_eq_ok.mp h
    obtain ⟨heq, hall, hr⟩ := cons_eq_takeWhile hc
    rw [List.drop_zero, heq]
    exact .name (List.cons_ne_nil _ _) hall hr (ih hrest)
  case case7 hc ih =>
    obtain ⟨rest, hrest, rfl⟩ := map_eq_ok.mp h
    obtain rfl := eq_of_beq hc
    exact .opening (ih hrest)
  case case8 hc ih =>
    obtain ⟨rest, hrest, rfl⟩ := map_eq_ok.mp h
    obtain rfl := eq_of_beq hc
    exact .closing (ih hrest)
  case case9 o ho ih =>
    obtain ⟨rest, hrest, rfl⟩ := map_eq_ok.mp h
    rw [List.drop_zero, Op.eq_char_of_ofChar? ho]
    exact .op o (ih hrest)
  case case5 | case10 => cases h

/-! ### Texts one behind the other -/

lemma head?_append_any {p : Char → Bool} {s t : List Char} (hs : s.head?.any p = false)
    (ht : t.head?.any p = false) : (s ++ t).head?.any p = false := by
  cases s with
  | nil => exact ht
  | cons => exact hs

/-- A text has its tokens wherever it stands, and keeps them before another one as long as no token
goes on into that. -/
lemma Reads.lexes_append {text rest : List Char} {ts us : List Token} (h : Reads text ts)
    (hnumber : rest.head?.any isNumberChar = false) (hname : rest.head?.any isNameChar = false)
    (hrest : Lexes rest us) : Lexes (text ++ rest) (ts ++ us) := by
  induction h with
  | nil => exact hrest
  | blank hc _ ih => exact ih.blank hc
  | number hs hall hr hx _ ih =>
    rw [List.append_assoc]
    exact ih.number hs hall (head?_append_any hr hnumber) hx
  | name hs hall hr _ ih =>
    rw [List.append_assoc]
    exact ih.name hs hall (head?_append_any hr hname)
  | op o _ ih => exact ih.op o
  | opening _ ih => exact ih.opening
  | closing _ ih => exact ih.closing

lemma Reads.lexes {text : List Char} {ts : List Token} (h : Reads text ts) : Lexes text ts := by
  have := h.lexes_append rfl rfl .nil
  rwa [List.append_nil, List.append_nil] at this

lemma head?_any_of_append {p : Char → Bool} {s t : List Char}
    (h : (s ++ t).head?.any p = false) : s.head?.any p = false := by
  cases s with
  | nil => rfl
  | cons => exact h

/-- A piece without a character ends before that character. -/
lemma append_eq_append_cons {c : Char} {s t u v : List Char} (hc : c ∉ s)
    (h : s ++ t = u ++ c :: v) : ∃ w, u = s ++ w ∧ t = w ++ c :: v := by
  rcases List.append_eq_append_iff.mp h with ⟨w, hu, ht⟩ | ⟨w, rfl, hv⟩
  · exact ⟨w, hu, ht⟩
  · rcases w with - | ⟨d, w⟩
    · exact ⟨[], by simp, hv.symm⟩
    · rw [List.cons_append, List.cons.injEq] at hv
      rw [hv.1] at hc
      exact absurd (List.mem_append_right u List.mem_cons_self) hc

/-- What stands before a parenthesis has tokens if the whole has. -/
lemma Reads.exists_of_append {text before after : List Char} {ts : List Token} (h : Reads text ts)
    (heq : text = before ++ ')' :: after) : ∃ us, Reads before us := by
  -- a character that is a piece by itself
  have hchar {c : Char} {rest before : List Char} (heq : c :: rest = before ++ ')' :: after)
      (ih : ∀ {before}, rest = before ++ ')' :: after → ∃ us, Reads before us)
      (hc : ∀ {before us}, Reads before us → ∃ us', Reads (c :: before) us') :
      ∃ us, Reads before us := by
    cases before with
    | nil => exact ⟨[], .nil⟩
    | cons d before =>
      obtain ⟨rfl, hrest⟩ := List.cons.inj heq
      obtain ⟨us, hus⟩ := ih hrest
      exact hc hus
  induction h generalizing before with
  | nil => cases before <;> cases heq
  | blank hc _ ih => exact hchar heq ih fun h => ⟨_, .blank hc h⟩
  | op o _ ih => exact hchar heq ih fun h => ⟨_, .op o h⟩
  | opening _ ih => exact hchar heq ih fun h => ⟨_, .opening h⟩
  | closing _ ih => exact hchar heq ih fun h => ⟨_, .closing h⟩
  | number hs hall hr hx _ ih =>
    obtain ⟨w, rfl, rfl⟩ := append_eq_append_cons (fun hc => absurd (hall _ hc) (by decide)) heq
    obtain ⟨us, hus⟩ := ih rfl
    exact ⟨_, .number hs hall (head?_any_of_append hr) hx hus⟩
  | name hs hall hr _ ih =>
    obtain ⟨w, rfl, rfl⟩ := append_eq_append_cons (fun hc => absurd (hall _ hc) (by decide)) heq
    obtain ⟨us, hus⟩ := ih rfl
    exact ⟨_, .name hs hall (head?_any_of_append hr) hus⟩

/-! ### Names -/

def Token.name? : Token → Option String
  | .name s => some s
  | _ => none

lemma mem_iff_name? {ts : List Token} {s : String} :
    s ∈ ts.filterMap Token.name? ↔ .name s ∈ ts := by
  rw [List.mem_filterMap]
  constructor
  · rintro ⟨t, ht, h⟩
    cases t with
    | name => cases h; exact ht
    | number | op | opening | closing => cases h
  · exact fun h => ⟨_, h, rfl⟩

/-- The names among the tokens of a text are the names that the gate sees. -/
lemma Reads.names_eq {text : List Char} {ts : List Token} (h : Reads text ts) :
    ts.filterMap Token.name? = names text := by
  unfold names
  induction h with
  | nil => rfl
  | blank hc _ ih => rw [runsOf_cons_of_neg (isNameChar_of_isBlank hc), ih]
  | number _ hall _ _ _ ih =>
    rw [runsOf_append_of_not fun c hc => isNameChar_of_isNumberChar (hall c hc), ← ih]
    rfl
  | name hs hall hr _ ih =>
    rw [runsOf_append hr, runsOf_of_all hs hall, List.map_append, ← ih]
    rfl
  | op o _ ih =>
    rw [runsOf_cons_of_neg (classes_char o).2.2.1, ← ih]
    rfl
  | opening _ ih | closing _ ih =>
    rw [runsOf_cons_of_neg (by decide), ← ih]
    rfl

/-! ### Words -/

def Token.isOperand : Token → Bool
  | .number _ | .name _ => true
  | _ => false

/-- No two operands stand side by side. -/
def Spaced (ts : List Token) : Prop :=
  ts.IsChain fun t u => ¬(t.isOperand = true ∧ u.isOperand = true)

lemma isWord_of_not {c : Char} (ha : isAllowed c = true) (hc : isNumberChar c = false)
    (hn : isNameChar c = false) : isWord c = false := by
  have hdigit : isAsciiDigit c = false := (Bool.or_eq_false_iff.mp hc).1
  rw [(classes_of_isAllowed ha).2, hn, hdigit, Bool.or_false]

lemma isWord_of_isBlank {c : Char} (h : isBlank c = true) : isWord c = false :=
  isWord_of_not (by simp [isAllowed, h])
    (Bool.eq_false_iff.mpr fun hc => by rw [isBlank_of_isNumberChar hc] at h; cases h)
    (isNameChar_of_isBlank h)

lemma isWord_char (o : Op) : isWord o.char = false := by cases o <;> decide

/-- Where a text begins with a word, its tokens begin with an operand. -/
lemma Reads.head_isOperand {text : List Char} {ts : List Token} (h : Reads text ts)
    (ha : ∀ c ∈ text, isAllowed c = true) (hword : text.head?.any isWord = true) :
    ts.head?.any Token.isOperand = true := by
  cases h with
  | nil => cases hword
  | blank hc =>
    rw [List.head?_cons, Option.any_some, isWord_of_isBlank hc] at hword
    cases hword
  | number | name => rfl
  | op o =>
    rw [List.head?_cons, Option.any_some, isWord_char o] at hword
    cases hword
  | opening | closing => cases hword

/-- An operand ends a word, unless another operand stands beside it. -/
lemma Reads.head_isWord {rest : List Char} {t : Token} {ts : List Token} (h : Reads rest ts)
    (ha : ∀ c ∈ rest, isAllowed c = true) (ht : t.isOperand = true) (hs : Spaced (t :: ts)) :
    rest.head?.any isWord = false := by
  refine Bool.eq_false_iff.mpr fun hword => ?_
  have hhead := h.head_isOperand ha hword
  rcases ts with - | ⟨u, us⟩
  · cases hhead
  · exact (List.isChain_cons_cons.mp hs).1 ⟨ht, hhead⟩

lemma Reads.variables_eq {text : List Char} {ts : List Token} (h : Reads text ts) (hs : Spaced ts)
    (ha : ∀ c ∈ text, isAllowed c = true) :
    (words text).filterMap (fun w => Variable.ofName? (String.ofList w)) =
      (ts.filterMap Token.name?).filterMap Variable.ofName? := by
  unfold words
  induction h with
  | nil => rfl
  | blank hc _ ih =>
    rw [List.forall_mem_cons] at ha
    rw [runsOf_cons_of_neg (isWord_of_isBlank hc), ih hs ha.2]
  | number _ hall _ _ h ih =>
    rw [List.forall_mem_append] at ha
    rw [runsOf_append (h.head_isWord ha.2 rfl hs), List.filterMap_append, ih hs.of_cons ha.2,
      variables_of_not fun c hc => isNameChar_of_isNumberChar (hall c hc)]
    rfl
  | @name s _ _ hn hall _ h ih =>
    rw [List.forall_mem_append] at ha
    rw [runsOf_append (h.head_isWord ha.2 rfl hs), List.filterMap_append, ih hs.of_cons ha.2,
      runsOf_of_all hn fun c hc => isWord_of_isNameChar (hall c hc)]
    cases hv : Variable.ofName? (String.ofList s) <;> simp [Token.name?, hv]
  | op o _ ih =>
    rw [List.forall_mem_cons] at ha
    rw [runsOf_cons_of_neg (isWord_char o), ih hs.of_cons ha.2]
    rfl
  | opening _ ih | closing _ ih =>
    rw [List.forall_mem_cons] at ha
    rw [runsOf_cons_of_neg (by decide), ih hs.of_cons ha.2]
    rfl

end Tariff.Formula
