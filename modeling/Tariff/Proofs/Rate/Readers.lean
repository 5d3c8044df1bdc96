import Mathlib.Data.List.Basic
import Mathlib.Data.List.TakeWhile
import Mathlib.Tactic.Common
import Tariff.Proofs.Text.Classes
import Tariff.Proofs.Text.Runs
import Tariff.Rate.Grammar

/-!
What the readers of a rate text pass over. Each takes a beginning of the text and hands on the
rest, so a plus sign in the text is either in the rest or in what was taken, and nothing that a
reader takes has one. Whatever a rule makes of a text, it begins with the same numeral: the first
one in the text, with nothing in front of it but signs, an open parenthesis and blanks.
-/

namespace Tariff.Rate

open Tariff.Text

lemma literal_eq_some_iff {s : String} {text rest : List Char} :
    literal s text = some rest ↔ text = s.toList ++ rest := by
  unfold literal
  rw [List.isPrefixOf?_eq_some_iff_append_eq, eq_comm]

lemma skipLiteral_cases (s : String) (text : List Char) :
    text = s.toList ++ skipLiteral s text ∨ skipLiteral s text = text := by
  unfold skipLiteral
  cases h : literal s text with
  | none => exact .inr rfl
  | some rest => exact .inl (literal_eq_some_iff.mp h)

lemma someBlanks_eq_some_iff {text rest : List Char} :
    someBlanks text = some rest ↔ text.head?.any isBlank = true ∧ trimStart text = rest := by
  unfold someBlanks
  split_ifs with h <;> simp [h]

lemma wordStart_eq_some_iff {s : String} {before : Option Char} {text rest : List Char} :
    wordStart s before text = some rest ↔
      atBoundary before text = true ∧ text = s.toList ++ rest := by
  unfold wordStart
  split_ifs with h <;> simp [h, literal_eq_some_iff]

lemma wholeWord_eq_some_iff {s : String} {before : Option Char} {text rest : List Char} :
    wholeWord s before text = some rest ↔ (atBoundary before text = true ∧
      text = s.toList ++ rest) ∧ atBoundary s.toList.getLast? rest = true := by
  unfold wholeWord
  rw [Option.filter_eq_some_iff, wordStart_eq_some_iff]

lemma isBlank_of_isNumeralChar {c : Char} (h : isNumeralChar c = true) : isBlank c = false := by
  unfold isNumeralChar at h
  simp only [Bool.or_eq_true, beq_iff_eq] at h
  rcases h with (h | rfl) | rfl
  · exact isBlank_of_isDecimalDigit h
  · decide
  · decide

lemma isNumeralChar_of_isBlank {c : Char} (h : isBlank c = true) : isNumeralChar c = false := by
  by_contra hc
  rw [isBlank_of_isNumeralChar (Bool.of_not_eq_false hc)] at h
  cases h

lemma takeNumeral_eq_some {text numeral rest : List Char}
    (h : takeNumeral text = some (numeral, rest)) :
    text.takeWhile isNumeralChar = numeral ∧ text.dropWhile isNumeralChar = rest ∧
      text.head?.any isNumeralChar = true := by
  unfold takeNumeral at h
  dsimp only at h
  split_ifs at h with hn
  obtain ⟨h1, h2⟩ := Prod.mk.inj (Option.some.inj h)
  refine ⟨h1, h2, ?_⟩
  rcases text with - | ⟨c, cs⟩
  · exact absurd hn (by decide)
  · by_contra hc
    have hc : ¬isNumeralChar c = true := hc
    rw [List.takeWhile_cons_of_neg hc] at hn
    exact absurd hn (by decide)

lemma dropWhile_of_head? {p : Char → Bool} {text : List Char} (h : text.head?.any p = false) :
    text.dropWhile p = text := by
  cases text with
  | nil => rfl
  | cons c cs => exact List.dropWhile_cons_of_neg (by simpa using h)

def Blanks (b : List Char) : Prop := ∀ c ∈ b, isBlank c = true

lemma Blanks.any_head? {b : List Char} (hb : Blanks b) (hne : b ≠ []) (t : List Char) :
    (b ++ t).head?.any isBlank = true := by
  obtain ⟨c, cs, rfl⟩ := List.exists_cons_of_ne_nil hne
  exact hb c List.mem_cons_self

lemma trimStart_append {b text : List Char} (hb : Blanks b)
    (ht : text.head?.any isBlank = false) : trimStart (b ++ text) = text := by
  unfold trimStart
  rw [List.dropWhile_append_of_pos hb, dropWhile_of_head? ht]

lemma exists_blanks (text : List Char) :
    ∃ b, (∀ c ∈ b, isBlank c = true) ∧ text = b ++ trimStart text := by
  refine ⟨text.takeWhile isBlank, fun c hc => List.mem_takeWhile_imp hc, ?_⟩
  unfold trimStart
  rw [List.takeWhile_append_dropWhile]

/-! ### Numerals -/

lemma isDecimalDigit_of_isDigits {s : List Char} (h : isDigits s = true) :
    ∀ c ∈ s, isDecimalDigit c = true :=
  List.all_eq_true.mp ((Bool.and_eq_true _ _).mp h).2

lemma isNumeralChar_of_isDigits {s : List Char} (h : isDigits s = true) :
    ∀ c ∈ s, isNumeralChar c = true := by
  intro c hc
  simp [isNumeralChar, isDecimalDigit_of_isDigits h c hc]

lemma isDigits_of_mem_splitAt {s q : List Char} (h : isWhole s = true)
    (hq : q ∈ splitAt (· == ',') s) : isDigits q = true := by
  unfold isWhole at h
  split at h
  next ds hds =>
    rw [hds] at hq
    rwa [List.mem_singleton.mp hq]
  next first groups _ hsplit =>
    rw [hsplit] at hq
    simp only [Bool.and_eq_true, List.all_eq_true] at h
    rcases List.mem_cons.mp hq with rfl | hq
    · exact h.1.1
    · exact (h.2 q hq).1
  next => cases h

lemma isNumeralChar_of_isWhole {s : List Char} (h : isWhole s = true) :
    ∀ c ∈ s, isNumeralChar c = true := by
  intro c hc
  rcases mem_splitAt_of_mem (p := (· == ',')) hc with hc | ⟨q, hq, hc⟩
  · rw [eq_of_beq hc]
    decide
  · exact isNumeralChar_of_isDigits (isDigits_of_mem_splitAt h hq) c hc

/-- A numeral without a point is whole. One with a point has digits behind it, and what stands in
front of it, if anything does, is whole. -/
lemma parts_of_isNumeral {s : List Char} (h : isNumeral s = true) :
    ('.' ∉ s ∧ isWhole s = true) ∨ ∃ whole fraction, s = whole ++ '.' :: fraction ∧ '.' ∉ whole ∧
      (whole = [] ∨ isWhole whole = true) ∧ isDigits fraction = true := by
  have hjoin := intercalate_splitAt '.' s
  have hnot {q : List Char} (hq : q ∈ splitAt (· == '.') s) : '.' ∉ q := separator_notMem hq
  unfold isNumeral at h
  split at h
  next whole hsplit =>
    rw [hsplit] at hjoin hnot
    rw [List.intercalate_singleton] at hjoin
    subst hjoin
    exact .inl ⟨hnot List.mem_cons_self, h⟩
  next whole fraction hsplit =>
    rw [hsplit] at hjoin hnot
    rw [List.intercalate_cons_cons, List.intercalate_singleton, List.append_assoc] at hjoin
    rw [Bool.and_eq_true, Bool.or_eq_true, List.isEmpty_iff] at h
    exact .inr ⟨whole, fraction, hjoin.symm, hnot List.mem_cons_self, h⟩
  next => cases h

lemma isNumeralChar_of_isNumeral {s : List Char} (h : isNumeral s = true) :
    ∀ c ∈ s, isNumeralChar c = true := by
  rcases parts_of_isNumeral h with ⟨-, hwhole⟩ | ⟨whole, fraction, rfl, -, hwhole, hf⟩
  · exact isNumeralChar_of_isWhole hwhole
  · have hw : ∀ c ∈ whole, isNumeralChar c = true := by
      rcases hwhole with rfl | hwhole
      · exact List.forall_mem_nil _
      · exact isNumeralChar_of_isWhole hwhole
    rw [List.forall_mem_append, List.forall_mem_cons]
    exact ⟨hw, by decide, isNumeralChar_of_isDigits hf⟩

lemma exists_cons_of_isNumeral {s : List Char} (h : isNumeral s = true) :
    ∃ c cs, s = c :: cs ∧ isNumeralChar c = true := by
  have hne : s ≠ [] := by
    rintro rfl
    exact absurd h (by decide)
  obtain ⟨c, cs, rfl⟩ := List.exists_cons_of_ne_nil hne
  exact ⟨c, cs, rfl, isNumeralChar_of_isNumeral h c List.mem_cons_self⟩

lemma head?_of_isNumeral {k : List Char} (hk : isNumeral k = true) (t : List Char) :
    (k ++ t).head?.any isNumeralChar = true := by
  obtain ⟨c, cs, rfl, hc⟩ := exists_cons_of_isNumeral hk
  exact hc

lemma takeNumeral_of_not {text : List Char} (h : text.head?.any isNumeralChar = false) :
    takeNumeral text = none := by
  cases htake : takeNumeral text with
  | none => rfl
  | some q =>
    obtain ⟨-, -, hhead⟩ := takeNumeral_eq_some htake
    rw [h] at hhead
    cases hhead

lemma takeNumeral_append {s rest : List Char} (h : isNumeral s = true)
    (hr : rest.head?.any isNumeralChar = false) : takeNumeral (s ++ rest) = some (s, rest) := by
  have hall := isNumeralChar_of_isNumeral h
  unfold takeNumeral
  dsimp only
  rw [takeWhile_append hall hr, if_pos h, List.dropWhile_append_of_pos hall, dropWhile_of_head? hr]

/-! ### Plus signs -/

def Passes (text rest : List Char) : Prop := ∃ s, text = s ++ rest ∧ '+' ∉ s

namespace Passes

lemma refl (text : List Char) : Passes text text := ⟨[], rfl, List.not_mem_nil⟩

lemma trans {a b c : List Char} (h1 : Passes a b) (h2 : Passes b c) : Passes a c := by
  obtain ⟨s, rfl, hs⟩ := h1
  obtain ⟨t, rfl, ht⟩ := h2
  refine ⟨s ++ t, (List.append_assoc s t c).symm, ?_⟩
  rw [List.mem_append, not_or]
  exact ⟨hs, ht⟩

lemma not_mem {text rest : List Char} (h : Passes text rest) (hr : '+' ∉ rest) :
    '+' ∉ text := by
  obtain ⟨s, rfl, hs⟩ := h
  rw [List.mem_append, not_or]
  exact ⟨hs, hr⟩

lemma dropWhile {p : Char → Bool} (hp : p '+' = false) (text : List Char) :
    Passes text (text.dropWhile p) := by
  refine ⟨text.takeWhile p, List.takeWhile_append_dropWhile.symm, fun h => ?_⟩
  have := List.mem_takeWhile_imp h
  rw [hp] at this
  cases this

lemma trimStart (text : List Char) : Passes text (Text.trimStart text) :=
  dropWhile (by decide) text

lemma literal {s : String} (hs : '+' ∉ s.toList) {text rest : List Char}
    (h : Text.literal s text = some rest) : Passes text rest :=
  ⟨s.toList, literal_eq_some_iff.mp h, hs⟩

lemma skipLiteral {s : String} (hs : '+' ∉ s.toList) (text : List Char) :
    Passes text (Rate.skipLiteral s text) := by
  unfold Rate.skipLiteral
  cases h : Text.literal s text with
  | none => exact refl text
  | some rest => exact literal hs h

lemma takeNumeral {text numeral rest : List Char}
    (h : Rate.takeNumeral text = some (numeral, rest)) : Passes text rest := by
  rw [← (takeNumeral_eq_some h).2.1]
  exact dropWhile (by decide) text

lemma phrase {ws : List String} (hws : ∀ w ∈ ws, '+' ∉ w.toList) {text rest : List Char}
    (h : Rate.phrase ws text = some rest) : Passes text rest := by
  induction ws generalizing text with
  | nil =>
    cases h
    exact refl _
  | cons w ws ih =>
    obtain ⟨hw, hws⟩ := List.forall_mem_cons.mp hws
    simp only [Rate.phrase, Option.bind_eq_bind, Option.bind_eq_some_iff] at h
    obtain ⟨_, hb, _, hl, h⟩ := h
    obtain ⟨-, rfl⟩ := someBlanks_eq_some_iff.mp hb
    exact (trimStart text).trans ((literal hw hl).trans (ih hws h))

lemma percentMark {text rest : List Char} (h : Rate.percentMark text = some rest) :
    Passes text rest := by
  simp only [Rate.percentMark, Option.orElse_eq_orElse, Option.orElse_eq_or,
    Option.or_eq_some_iff] at h
  rcases h with h | ⟨-, h⟩
  · exact literal (by decide) h
  · exact literal (by decide) h

lemma skipPhrase {ws : List String} (hws : ∀ w ∈ ws, '+' ∉ w.toList) (text : List Char) :
    Passes text (Rate.skipPhrase ws text) := by
  unfold Rate.skipPhrase
  cases h : Rate.phrase ws text with
  | none => exact refl text
  | some rest => exact phrase hws h

lemma separator {before : Option Char} {text rest : List Char}
    (h : Rate.separator before text = some rest) : Passes text rest := by
  unfold Rate.separator at h
  simp only [Option.orElse_eq_orElse, Option.orElse_eq_or, Option.map_eq_some_iff,
    Option.or_eq_some_iff] at h
  obtain ⟨r, h, rfl⟩ := h
  refine (trimStart text).trans (trans ?_ (trimStart r))
  rcases h with h | ⟨-, h⟩
  · exact literal (by decide) h
  · obtain ⟨⟨-, h⟩, -⟩ := wholeWord_eq_some_iff.mp h
    exact literal (by decide) (literal_eq_some_iff.mpr h)

end Passes

/-! ### The first numeral -/

/-- What may stand before the first numeral of a rate. -/
def isOpening (c : Char) : Bool := c == '(' || c == '$' || c == '¢' || isBlank c

/-- The first row of characters that a numeral may have and what follows it, blanks dropped. -/
def figure (text : List Char) : List Char × List Char :=
  let rest := text.dropWhile (!isNumeralChar ·)
  (rest.takeWhile isNumeralChar, trimStart (rest.dropWhile isNumeralChar))

/-- A text that begins, openings apart, with a numeral, and what follows the numeral. -/
structure Reads (text numeral follow : List Char) : Prop where
  opens : text.head?.any (fun c => isOpening c || isNumeralChar c) = true
  eq : figure text = (numeral, follow)

/-- However a text is read, it is the same numeral and the same rest. -/
lemma Reads.unique {text n n' f f' : List Char} (h : Reads text n f) (h' : Reads text n' f') :
    n = n' ∧ f = f' :=
  Prod.mk.inj (h.eq.symm.trans h'.eq)

lemma isNumeralChar_of_isOpening {c : Char} (h : isOpening c = true) :
    isNumeralChar c = false := by
  unfold isOpening at h
  simp only [Bool.or_eq_true, beq_iff_eq] at h
  rcases h with ((rfl | rfl) | rfl) | h
  · decide
  · decide
  · decide
  · by_contra hn
    rw [isBlank_of_isNumeralChar (Bool.of_not_eq_false hn)] at h
    cases h

lemma isOpening_of_mem_takeWhile {c : Char} {text : List Char}
    (h : c ∈ text.takeWhile isBlank) : isOpening c = true := by
  unfold isOpening
  rw [List.mem_takeWhile_imp h, Bool.or_true]

lemma reads_append {opening text numeral rest : List Char} (ho : ∀ c ∈ opening, isOpening c = true)
    (h : takeNumeral text = some (numeral, rest)) :
    Reads (opening ++ text) numeral (trimStart rest) := by
  obtain ⟨rfl, rfl, hhead⟩ := takeNumeral_eq_some h
  constructor
  · rcases opening with - | ⟨c, cs⟩
    · rcases text with - | ⟨d, ds⟩
      · cases hhead
      · have hd : isNumeralChar d = true := hhead
        simp [hd]
    · simp [ho c List.mem_cons_self]
  · have hdrop : text.dropWhile (!isNumeralChar ·) = text := by
      refine dropWhile_of_head? ?_
      rcases text with - | ⟨d, ds⟩
      · rfl
      · have hd : isNumeralChar d = true := hhead
        simp [hd]
    unfold figure
    rw [List.dropWhile_append_of_pos, hdrop]
    intro c hc
    rw [isNumeralChar_of_isOpening (ho c hc)]
    rfl

lemma reads_of_takeNumeral {text numeral rest : List Char}
    (h : takeNumeral text = some (numeral, rest)) : Reads text numeral (trimStart rest) :=
  reads_append (fun _ hc => absurd hc List.not_mem_nil) h

lemma reads_of_trimStart {sign text numeral rest : List Char}
    (hs : ∀ c ∈ sign, isOpening c = true)
    (h : takeNumeral (trimStart text) = some (numeral, rest)) :
    Reads (sign ++ text) numeral (trimStart rest) := by
  have htext : sign ++ text = (sign ++ text.takeWhile isBlank) ++ trimStart text := by
    rw [List.append_assoc]
    unfold trimStart
    rw [List.takeWhile_append_dropWhile]
  rw [htext]
  refine reads_append (fun c hc => ?_) h
  rcases List.mem_append.mp hc with hc | hc
  · exact hs c hc
  · exact isOpening_of_mem_takeWhile hc

/-! ### Amounts of money and their units -/

/-- The amounts that a text may begin with have one numeral; a mark for cents may follow it. -/
lemma reads_of_mem_prices {text rest : List Char} {price : Price} {last : Option Char}
    (h : (price, last, rest) ∈ prices text) : ∃ numeral r, Reads text numeral (trimStart r) ∧
      Passes text r ∧ (rest = r ∨ ∃ m ∈ centMarks, literal m (trimStart r) = some rest) := by
  unfold prices at h
  split at h
  next cents body hbody =>
  -- the sign in front, if there is one
  obtain ⟨sign, htext, hsign⟩ :
      ∃ sign : List Char, text = sign ++ body ∧ ∀ c ∈ sign, c = '$' ∨ c = '¢' := by
    split at hbody
    · cases hbody
      exact ⟨['$'], rfl, by simp⟩
    · cases hbody
      exact ⟨['¢'], rfl, by simp⟩
    · cases hbody
      exact ⟨[], rfl, by simp⟩
  split at h
  next => cases h
  next numeral r hn =>
    have hopen : ∀ c ∈ sign, isOpening c = true := fun c hc => by
      rcases hsign c hc with rfl | rfl <;> decide
    have hplus : '+' ∉ sign := fun hc => by
      rcases hsign _ hc with hc | hc <;> exact absurd hc (by decide)
    refine ⟨numeral, r, ?_, ?_, ?_⟩
    · rw [htext]
      exact reads_of_trimStart hopen hn
    · have hbody : Passes body r := (Passes.trimStart body).trans (.takeNumeral hn)
      exact .trans ⟨sign, htext, hplus⟩ hbody
    · rcases List.mem_append.mp h with h | h
      · obtain ⟨m, hm, h⟩ := List.mem_filterMap.mp h
        obtain ⟨r', hr', h⟩ := Option.map_eq_some_iff.mp h
        cases h
        exact .inr ⟨m, hm, hr'⟩
      · cases List.mem_singleton.mp h
        exact .inl rfl

lemma passes_of_mem_prices {text rest : List Char} {price : Price} {last : Option Char}
    (h : (price, last, rest) ∈ prices text) : Passes text rest := by
  obtain ⟨numeral, r, -, hr, rfl | ⟨m, hm, hl⟩⟩ := reads_of_mem_prices h
  · exact hr
  · have hplus : ∀ m ∈ centMarks, '+' ∉ m.toList := by decide
    exact hr.trans ((Passes.trimStart r).trans (.literal (hplus m hm) hl))

lemma passes_of_mem_unitWords {text w rest : List Char} (h : (w, rest) ∈ unitWords text) :
    Passes text rest := by
  unfold unitWords at h
  split_ifs at h
  · obtain ⟨k, -, h⟩ := List.mem_map.mp h
    cases h
    refine ⟨_, (List.take_append_drop _ _).symm, fun hm => ?_⟩
    -- a unit word is cut from a row of unit characters
    have hw : '+' ∈ text.takeWhile isUnitChar := by
      obtain ⟨t, ht⟩ := List.takeWhile_prefix isUnitChar (l := text)
      have htake := List.take_prefix ((text.takeWhile isUnitChar).length - k) text
      refine (List.prefix_of_prefix_length_le htake ⟨t, ht⟩ ?_).subset hm
      rw [List.length_take]
      omega
    exact absurd (List.mem_takeWhile_imp hw) (by decide)
  · cases h

lemma passes_of_mem_unitNames {text name rest : List Char} (h : (name, rest) ∈ unitNames text) :
    Passes text rest := by
  unfold unitNames at h
  obtain ⟨⟨w, r⟩, hw, h⟩ := List.mem_flatMap.mp h
  have hr := passes_of_mem_unitWords hw
  dsimp only at h
  rcases List.mem_append.mp h with h | h
  · split at h
    next _ c more _ =>
      split_ifs at h with hc
      · obtain ⟨⟨v, r'⟩, hv, h⟩ := List.mem_map.mp h
        cases h
        have hne : '+' ∉ [c] := by
          rintro hm
          rw [← List.mem_singleton.mp hm] at hc
          exact absurd hc (by decide)
        exact hr.trans (.trans ⟨[c], rfl, hne⟩ (passes_of_mem_unitWords hv))
      · cases h
    next => cases h
  · cases List.mem_singleton.mp h
    exact hr

lemma not_mem_of_readDivisor {before : Option Char} {text : List Char} {d : Option (List Char)}
    (h : readDivisor before text = some d) : '+' ∉ text := by
  unfold readDivisor at h
  split_ifs at h with he
  · rw [List.isEmpty_iff.mp he]
    exact List.not_mem_nil
  · simp only [Option.bind_eq_bind, Option.bind_eq_some_iff] at h
    obtain ⟨r, hs, ⟨numeral, rest⟩, hn, h⟩ := h
    dsimp only at h
    split_ifs at h with hr
    rw [List.isEmpty_iff] at hr
    have := (Passes.separator hs).trans (.takeNumeral hn)
    exact this.not_mem (by rw [hr]; exact List.not_mem_nil)

lemma not_mem_of_named {price : Price} {count : Option (List Char)} {text : List Char}
    {p : PerUnit} (h : readUnits.named price count text = some p) : '+' ∉ text := by
  obtain ⟨⟨name, rest⟩, hm, h⟩ := List.exists_of_findSome?_eq_some h
  obtain ⟨d, hd, -⟩ := Option.map_eq_some_iff.mp h
  exact (passes_of_mem_unitNames hm).not_mem (not_mem_of_readDivisor hd)

lemma not_mem_of_readUnits {price : Price} {text : List Char} {p : PerUnit}
    (h : readUnits price text = some p) : '+' ∉ text := by
  unfold readUnits at h
  split at h
  next count rest hn =>
    refine Passes.not_mem (.trans (.takeNumeral hn) (.trimStart rest)) ?_
    simp only [Option.orElse_eq_orElse, Option.orElse_eq_or, Option.or_eq_some_iff,
      Option.map_eq_some_iff] at h
    rcases h with h | ⟨-, d, hd, -⟩
    · exact not_mem_of_named h
    · exact not_mem_of_readDivisor hd
  next => exact not_mem_of_named h

end Tariff.Rate
