import Tariff.Proofs.Json.Tokens
import Tariff.Proofs.Text.Classes
import Tariff.Proofs.Text.Runs
import Tariff.Proofs.Text.Trim

/-!
Which characters of a text make up a token. A token is taken alike from a text that ends sooner, so
a text can be cut between any two of its tokens, and each part has the tokens on its side.
-/

namespace Tariff.Json

open Tariff.Decimal (AllDigits)
open Tariff.Text (isAsciiDigit isBlank)

/-! ### Strings -/

/-- A string ends with its quote and is taken alike whatever follows it. -/
lemma takeString_span {cs : List Char} {ps : List Piece} {k : Nat}
    (h : takeString cs = some (ps, k)) : ∃ s rest, cs = s ++ rest ∧ k = s.length ∧
      s.getLast? = some '"' ∧ ∀ rest', takeString (s ++ rest') = some (ps, k) := by
  fun_induction takeString cs generalizing ps k with
  | case1 => cases h
  | case2 cs =>
    cases h
    exact ⟨['"'], cs, rfl, rfl, rfl, fun rest' => by rw [List.singleton_append, takeString]⟩
  | case3 a b c d cs ih =>
    obtain ⟨n, hn, h⟩ := Option.bind_eq_some_iff.mp h
    obtain ⟨⟨ps', k'⟩, hps, heq⟩ := Option.map_eq_some_iff.mp h
    cases heq
    obtain ⟨s, rest, rfl, rfl, hlast, hmore⟩ := ih hps
    refine ⟨'\\' :: 'u' :: a :: b :: c :: d :: s, rest, rfl, rfl, ?_, fun rest' => ?_⟩
    · simp [List.getLast?_cons, hlast]
    · simp only [List.cons_append]
      rw [takeString, hn, hmore]
      rfl
  | case4 c cs hu ih =>
    obtain ⟨c', hc, h⟩ := Option.bind_eq_some_iff.mp h
    obtain ⟨⟨ps', k'⟩, hps, heq⟩ := Option.map_eq_some_iff.mp h
    cases heq
    obtain ⟨s, rest, rfl, rfl, hlast, hmore⟩ := ih hps
    have hne : c ≠ 'u' := fun he => by rw [he] at hc; cases hc
    refine ⟨'\\' :: c :: s, rest, rfl, rfl, ?_, fun rest' => ?_⟩
    · simp [List.getLast?_cons, hlast]
    · simp only [List.cons_append]
      rw [takeString, hc, hmore]
      · rfl
      · exact fun _ _ _ _ _ he => absurd he hne
  | case5 c cs _ _ _ hbad => cases h
  | case6 c cs hquote hu hslash hgood ih =>
    obtain ⟨⟨ps', k'⟩, hps, heq⟩ := Option.map_eq_some_iff.mp h
    cases heq
    obtain ⟨s, rest, rfl, rfl, hlast, hmore⟩ := ih hps
    have hne : c ≠ '\\' := fun he => hgood (by simp [he])
    refine ⟨c :: s, rest, rfl, rfl, ?_, fun rest' => ?_⟩
    · simp [List.getLast?_cons, hlast]
    · rw [List.cons_append, takeString.eq_5 _ _ hquote (fun _ _ _ _ _ he => absurd he hne)
        (fun _ _ he => absurd he hne), if_neg hgood, hmore]
      rfl

/-! ### Numerals -/

/-- A text that ends sooner goes on with no digit where the longer one does not. -/
lemma not_digit_of_sooner {s t : List Char} (h : s <+: t) (ht : t.head?.any isAsciiDigit = false) :
    s.head?.any isAsciiDigit = false := by
  cases s with
  | nil => rfl
  | cons c s =>
    obtain ⟨u, rfl⟩ := h
    exact ht

/-- The digits at the start of a text end where there is none, also where the text ends sooner. -/
lemma exists_digits (r : List Char) : ∃ ds tail, r.takeWhile isAsciiDigit = ds ∧ r = ds ++ tail ∧
    AllDigits ds ∧ ∀ t, t <+: tail → (ds ++ t).takeWhile isAsciiDigit = ds := by
  refine ⟨_, r.dropWhile isAsciiDigit, rfl, List.takeWhile_append_dropWhile.symm,
    fun c hc => List.mem_takeWhile_imp hc, fun t ht => ?_⟩
  refine Text.takeWhile_append (fun c hc => List.mem_takeWhile_imp hc) (not_digit_of_sooner ht ?_)
  have := List.head?_dropWhile_not isAsciiDigit r
  cases h : (r.dropWhile isAsciiDigit).head? <;> simp_all

lemma last_of_allDigits {ds : List Char} (h : AllDigits ds) (hne : ds ≠ []) (s : List Char) :
    ∃ c ∈ (s ++ ds).getLast?, isAsciiDigit c = true := by
  rw [List.getLast?_append, List.getLast?_eq_some_getLast hne]
  exact ⟨_, rfl, h _ (List.getLast_mem hne)⟩

/-- What a part of a numeral takes of a text: nothing, or characters of which the last is a digit;
and the same of a text that ends sooner. -/
structure Takes {α : Type} (take : List Char → Option α × List Char) (s : List Char) (a : Option α)
    (rest : List Char) : Prop where
  last : s = [] ∨ ∃ c ∈ s.getLast?, isAsciiDigit c = true
  sooner : ∀ t, t <+: rest → take (s ++ t) = (a, t)

lemma Takes.last_append {α : Type} {take : List Char → Option α × List Char} {s : List Char}
    {a : Option α} {rest : List Char} (h : Takes take s a rest) {u : List Char}
    (hu : ∃ c ∈ u.getLast?, isAsciiDigit c = true) :
    ∃ c ∈ (u ++ s).getLast?, isAsciiDigit c = true := by
  rcases h.last with rfl | ⟨c, hc, hd⟩
  · rwa [List.append_nil]
  · exact ⟨c, by rw [List.getLast?_append, Option.mem_def.mp hc]; rfl, hd⟩

lemma exists_takes_nothing {α : Type} {take : List Char → Option α × List Char} {c : Char}
    {r : List Char} (hnil : take [] = (none, []))
    (h : ∀ t, t <+: r → take (c :: t) = (none, c :: t)) :
    ∃ s, c :: r = s ++ c :: r ∧ Takes take s none (c :: r) := by
  refine ⟨[], rfl, .inl rfl, fun t ht => ?_⟩
  rcases List.prefix_cons_iff.mp ht with rfl | ⟨u, rfl, hu⟩
  · exact hnil
  · exact h u hu

lemma takeFraction_point (q : List Char) : takeFraction ('.' :: q) =
    if (q.takeWhile isAsciiDigit).isEmpty then (none, '.' :: q)
    else (some (q.takeWhile isAsciiDigit), q.drop (q.takeWhile isAsciiDigit).length) := rfl

lemma takeFraction_span {r r' : List Char} {fraction : Option (List Char)}
    (h : takeFraction r = (fraction, r')) :
    ∃ s, r = s ++ r' ∧ Takes takeFraction s fraction r' := by
  by_cases hdot : ∃ q, r = '.' :: q
  · obtain ⟨q, rfl⟩ := hdot
    obtain ⟨ds, tail, hds, rfl, hall, hsooner⟩ := exists_digits q
    rw [takeFraction_point, hds, List.drop_left] at h
    by_cases hne : ds = []
    · subst hne
      cases h
      refine exists_takes_nothing rfl fun t ht => ?_
      have hnone : t.takeWhile isAsciiDigit = [] := hsooner t ht
      rw [takeFraction_point, hnone]
      rfl
    · rw [if_neg (by simpa using hne)] at h
      cases h
      refine ⟨'.' :: ds, rfl, .inr (last_of_allDigits hall hne ['.']), fun t ht => ?_⟩
      rw [List.cons_append, takeFraction_point, hsooner t ht, if_neg (by simpa using hne),
        List.drop_left]
  · have hnone {u : List Char} (hu : ¬∃ q, u = '.' :: q) : takeFraction u = (none, u) := by
      unfold takeFraction
      split
      · exact absurd ⟨_, rfl⟩ hu
      · rfl
    rw [hnone hdot] at h
    cases h
    refine ⟨[], rfl, .inl rfl, fun t ht => hnone ?_⟩
    rintro ⟨q, rfl⟩
    obtain ⟨u, rfl⟩ := ht
    exact hdot ⟨_, rfl⟩

lemma takeExponent_cons (c : Char) (q : List Char) : takeExponent (c :: q) =
    if c == 'e' || c == 'E' then
      if ((Decimal.takeSign q).2.takeWhile isAsciiDigit).isEmpty then (none, c :: q)
      else (some ((Decimal.takeSign q).1, (Decimal.takeSign q).2.takeWhile isAsciiDigit),
        (Decimal.takeSign q).2.drop ((Decimal.takeSign q).2.takeWhile isAsciiDigit).length)
    else (none, c :: q) := rfl

lemma takeSign_of_ne {q : List Char} (h : ∀ s, q ≠ '-' :: s ∧ q ≠ '+' :: s) :
    Decimal.takeSign q = (false, q) := by
  unfold Decimal.takeSign
  split
  next s => exact absurd rfl (h s).1
  next s => exact absurd rfl (h s).2
  next => rfl

lemma exists_sign (q : List Char) : ∃ sign, q = sign ++ (Decimal.takeSign q).2 ∧
    (∀ u, u <+: q → (Decimal.takeSign u).2 <+: (Decimal.takeSign q).2) ∧
    ∀ d t, isAsciiDigit d = true →
      Decimal.takeSign (sign ++ d :: t) = ((Decimal.takeSign q).1, d :: t) := by
  by_cases hsign : ∃ s, q = '-' :: s ∨ q = '+' :: s
  · have hone (c : Char) (hc : ∀ s, (Decimal.takeSign (c :: s)).2 = s) (u s : List Char)
        (hu : u <+: c :: s) : (Decimal.takeSign u).2 <+: s := by
      rcases List.prefix_cons_iff.mp hu with rfl | ⟨v, rfl, hv⟩
      · exact List.nil_prefix
      · rwa [hc]
    obtain ⟨s, rfl | rfl⟩ := hsign
    · exact ⟨['-'], rfl, fun u => hone '-' (fun _ => rfl) u s, fun _ _ _ => rfl⟩
    · exact ⟨['+'], rfl, fun u => hone '+' (fun _ => rfl) u s, fun _ _ _ => rfl⟩
  · have hq : ∀ s, q ≠ '-' :: s ∧ q ≠ '+' :: s := fun s =>
      ⟨fun h => hsign ⟨s, .inl h⟩, fun h => hsign ⟨s, .inr h⟩⟩
    rw [takeSign_of_ne hq]
    refine ⟨[], rfl, fun u hu => ?_, fun d t hd => takeSign_of_ne fun s => ?_⟩
    · obtain ⟨t, rfl⟩ := hu
      rw [takeSign_of_ne fun s => ⟨?_, ?_⟩]
      · exact List.prefix_append u t
      · rintro rfl
        exact (hq _).1 rfl
      · rintro rfl
        exact (hq _).2 rfl
    · constructor <;>
      · rintro ⟨⟩
        exact absurd hd (by decide)

lemma takeExponent_span {r r' : List Char} {exponent : Option (Bool × List Char)}
    (h : takeExponent r = (exponent, r')) :
    ∃ s, r = s ++ r' ∧ Takes takeExponent s exponent r' := by
  cases r with
  | nil =>
    cases h
    refine ⟨[], rfl, .inl rfl, fun t ht => ?_⟩
    rw [List.prefix_nil.mp ht]
    rfl
  | cons c q =>
    obtain ⟨sign, hq, hprefix, hsign⟩ := exists_sign q
    obtain ⟨ds, tail, hds, hdigits, hall, hsooner⟩ := exists_digits (Decimal.takeSign q).2
    rw [takeExponent_cons, hds] at h
    split_ifs at h with he hempty
    · -- no digits: nothing is taken
      cases h
      obtain rfl := List.isEmpty_iff.mp hempty
      refine exists_takes_nothing rfl fun t ht => ?_
      have hnone := hsooner _ (hdigits ▸ hprefix t ht)
      rw [List.nil_append] at hnone
      rw [takeExponent_cons, hnone, if_pos he]
      rfl
    · rw [hdigits, List.drop_left] at h
      cases h
      have hne : ds ≠ [] := by simpa using hempty
      refine ⟨c :: sign ++ ds, by rw [List.append_assoc, ← hdigits, List.cons_append, ← hq],
        .inr (last_of_allDigits hall hne _), fun t ht => ?_⟩
      obtain ⟨d, ds', rfl⟩ := List.exists_cons_of_ne_nil hne
      have htake := hsign d (ds' ++ t) (hall d List.mem_cons_self)
      rw [← List.cons_append] at htake
      rw [List.append_assoc, List.cons_append, takeExponent_cons, htake, if_pos he, hsooner t ht,
        List.drop_left]
      rfl
    · cases h
      exact exists_takes_nothing rfl fun t _ => by rw [takeExponent_cons, if_neg he]

lemma exists_whole {r w : List Char} (hne : w ≠ [])
    (hw : (if r.head? == some '0' then ['0'] else r.takeWhile isAsciiDigit) = w) :
    ∃ y, r = w ++ y ∧ AllDigits w ∧ ∀ t, t <+: y →
      (if (w ++ t).head? == some '0' then ['0'] else (w ++ t).takeWhile isAsciiDigit) = w := by
  obtain ⟨ds, y, hds, rfl, hall, hsooner⟩ := exists_digits r
  split_ifs at hw with hzero
  · subst hw
    cases hr : ds ++ y with
    | nil => rw [hr] at hzero; cases hzero
    | cons c q =>
      rw [hr, List.head?_cons, beq_iff_eq, Option.some.injEq] at hzero
      subst hzero
      exact ⟨q, rfl, by simp [AllDigits, isAsciiDigit], fun t _ => rfl⟩
  · rw [hds] at hw
    subst hw
    refine ⟨y, rfl, hall, fun t ht => ?_⟩
    have hhead : (ds ++ t).head? = (ds ++ y).head? := by
      obtain ⟨d, ds', rfl⟩ := List.exists_cons_of_ne_nil hne
      rfl
    rw [hhead, if_neg hzero, hsooner t ht]

lemma exists_minus (text : List Char) :
    text = (if (takeMinus text).1 then ['-'] else []) ++ (takeMinus text).2 := by
  unfold takeMinus
  split <;> rfl

/-- A numeral begins with a minus or a digit, ends with a digit and is taken alike from a text that
ends sooner. -/
lemma takeNumeral_span {text : List Char} {l : Numeral} {k : Nat}
    (h : takeNumeral text = some (l, k)) : ∃ s rest, text = s ++ rest ∧ k = s.length ∧
      (∃ c ∈ s.head?, isAsciiDigit c = true ∨ c = '-') ∧
      (∃ c ∈ s.getLast?, isAsciiDigit c = true) ∧
      ∀ t, t <+: rest → takeNumeral (s ++ t) = some (l, k) := by
  rw [takeNumeral_parts] at h
  dsimp only at h
  have hminus := exists_minus text
  generalize takeMinus text = m at h hminus
  obtain ⟨negative, r⟩ := m
  dsimp only at h hminus
  generalize hw : (if r.head? == some '0' then ['0'] else r.takeWhile isAsciiDigit) = w at h
  split_ifs at h with hempty
  have hne : w ≠ [] := by simpa using hempty
  obtain ⟨y, rfl, hdigits, hwhole⟩ := exists_whole hne hw
  rw [List.drop_left] at h
  rcases hf : takeFraction y with ⟨fraction, r'⟩
  rcases hx : takeExponent r' with ⟨exponent, tail⟩
  rw [hf, hx] at h
  cases h
  obtain ⟨sf, rfl, hfraction⟩ := takeFraction_span hf
  obtain ⟨sx, rfl, hexponent⟩ := takeExponent_span hx
  subst hminus
  set sign : List Char := if negative = true then ['-'] else []
  have hsplit (t : List Char) :
      sign ++ (w ++ (sf ++ (sx ++ t))) = sign ++ w ++ sf ++ sx ++ t := by simp
  have hlength (t : List Char) : (sign ++ (w ++ (sf ++ (sx ++ t)))).length - t.length =
      (sign ++ w ++ sf ++ sx).length := by
    rw [hsplit, List.length_append, Nat.add_sub_cancel]
  refine ⟨sign ++ w ++ sf ++ sx, tail, hsplit tail, hlength tail, ?_, ?_, fun t ht => ?_⟩
  · obtain ⟨d, ds, rfl⟩ := List.exists_cons_of_ne_nil hne
    cases negative with
    | true => exact ⟨'-', rfl, .inr rfl⟩
    | false => exact ⟨d, rfl, .inl (hdigits d List.mem_cons_self)⟩
  · exact hexponent.last_append (hfraction.last_append (last_of_allDigits hdigits hne sign))
  · have hx' := hexponent.sooner t ht
    have hf' := hfraction.sooner (sx ++ t) ((List.prefix_append_right_inj sx).mpr ht)
    have hw' := hwhole (sf ++ (sx ++ t))
      ((List.prefix_append_right_inj sf).mpr ((List.prefix_append_right_inj sx).mpr ht))
    rw [← hsplit, hlength, ← hlength t]
    exact takeNumeral_eq (takeMinus_append negative hdigits hne _) hw' hne
      (by rw [List.drop_left]; exact hf') hx'

/-! ### Tokens -/

/-- **A token** neither begins nor ends with a blank, and is taken alike from a text that ends
sooner. -/
theorem takeToken_span {c : Char} {cs : List Char} {t : Token} {k : Nat}
    (h : takeToken c cs = some (t, k)) : ∃ s rest, cs = s ++ rest ∧ k = s.length + 1 ∧
      isBlank c = false ∧ (∀ d ∈ (c :: s).getLast?, isBlank d = false) ∧
      ∀ u, u <+: rest → takeToken c (s ++ u) = some (t, k) := by
  have hliteral (s : List Char) {t' : Token}
      (h : (if s.isPrefixOf cs then some (t', s.length + 1) else none) = some (t, k)) :
      ∃ rest, cs = s ++ rest ∧ k = s.length + 1 ∧ ∀ u : List Char, u <+: rest →
        (if s.isPrefixOf (s ++ u) then some (t', s.length + 1) else none) = some (t, k) := by
    split_ifs at h with hs
    cases h
    obtain ⟨rest, rfl⟩ := List.isPrefixOf_iff_prefix.mp hs
    exact ⟨rest, rfl, rfl, fun u _ => if_pos (List.isPrefixOf_iff_prefix.mpr ⟨u, rfl⟩)⟩
  unfold takeToken at h
  split at h
  case h_1 | h_2 | h_3 | h_4 | h_5 | h_6 =>
    cases h
    exact ⟨[], cs, rfl, rfl, rfl, by simp; decide, fun u _ => rfl⟩
  case h_7 =>
    obtain ⟨⟨ps, k'⟩, hps, heq⟩ := Option.map_eq_some_iff.mp h
    cases heq
    obtain ⟨s, rest, rfl, rfl, hlast, hmore⟩ := takeString_span hps
    refine ⟨s, rest, rfl, rfl, rfl, ?_, fun u _ => ?_⟩
    · simp [List.getLast?_cons, hlast]
      decide
    · unfold takeToken
      dsimp only
      rw [hmore]
      rfl
  case h_8 | h_9 | h_10 =>
    obtain ⟨rest, rfl, rfl, hmore⟩ := hliteral _ h
    exact ⟨_, rest, rfl, rfl, rfl, fun d hd => by cases hd; decide, hmore⟩
  case h_11 =>
    obtain ⟨⟨l, k'⟩, hl, heq⟩ := Option.map_eq_some_iff.mp h
    cases heq
    obtain ⟨s', rest, hs, rfl, ⟨d, hd, hfirst⟩, ⟨e, he, hlast⟩, hmore⟩ := takeNumeral_span hl
    cases s' with
    | nil => cases hd
    | cons d' s =>
      cases hd
      obtain ⟨rfl, rfl⟩ := List.cons.inj hs
      refine ⟨s, rest, rfl, rfl, ?_, ?_, fun u hu => ?_⟩
      · rcases hfirst with hfirst | rfl
        · exact Text.isBlank_of_isAsciiDigit hfirst
        · decide
      · intro x hx
        obtain rfl := Option.mem_unique he hx
        exact Text.isBlank_of_isAsciiDigit hlast
      · rw [(takeToken_eq_takeNumeral hfirst _).2, ← List.cons_append, hmore u hu]
        rfl

/-! ### Rows of tokens -/

lemma isBlank_of_isSpace {c : Char} (h : isSpace c = true) : isBlank c = true := by
  simp only [isSpace, Bool.or_eq_true, beq_iff_eq] at h
  rcases h with ((rfl | rfl) | rfl) | rfl <;> decide

lemma tokensFrom_spaces {sp : List Char} (h : ∀ d ∈ sp, isSpace d = true) (cs : List Char) :
    tokensFrom 0 (sp ++ cs) = tokensFrom 0 cs := by
  induction sp with
  | nil => rfl
  | cons c sp ih =>
    obtain ⟨hc, hsp⟩ := List.forall_mem_cons.mp h
    exact (tokensFrom_space hc _).trans (ih hsp)

/-- The first token stands behind blanks, and the others follow it. -/
lemma exists_first_token {text : List Char} {t : Token} {ts : List Token}
    (h : tokensFrom 0 text = some (t :: ts)) : ∃ sp c s rest, text = sp ++ (c :: s ++ rest) ∧
      (∀ d ∈ sp, isSpace d = true) ∧ isSpace c = false ∧
      takeToken c (s ++ rest) = some (t, s.length + 1) ∧ tokensFrom 0 rest = some ts := by
  induction text with
  | nil => cases h
  | cons c cs ih =>
    cases hc : isSpace c with
    | true =>
      rw [tokensFrom_space hc] at h
      obtain ⟨sp, c', s, rest, rfl, hsp, hrest⟩ := ih h
      exact ⟨c :: sp, c', s, rest, rfl, List.forall_mem_cons.mpr ⟨hc, hsp⟩, hrest⟩
    | false =>
      rw [tokensFrom, if_neg (by simp [hc])] at h
      obtain ⟨⟨t', k⟩, htake, h⟩ := Option.bind_eq_some_iff.mp h
      obtain ⟨ts', hts, heq⟩ := Option.map_eq_some_iff.mp h
      cases heq
      obtain ⟨s, rest, rfl, rfl, -⟩ := takeToken_span htake
      rw [Nat.add_sub_cancel, tokensFrom_skip] at hts
      exact ⟨[], c, s, rest, rfl, by simp, hc, htake, hts⟩

lemma isSpace_of_tokensFrom {text : List Char} (h : tokensFrom 0 text = some []) :
    ∀ d ∈ text, isSpace d = true := by
  induction text with
  | nil => simp
  | cons c cs ih =>
    cases hc : isSpace c with
    | true =>
      rw [tokensFrom_space hc] at h
      exact List.forall_mem_cons.mpr ⟨hc, ih h⟩
    | false =>
      rw [tokensFrom, if_neg (by simp [hc])] at h
      obtain ⟨⟨t', k⟩, -, h⟩ := Option.bind_eq_some_iff.mp h
      obtain ⟨ts', -, heq⟩ := Option.map_eq_some_iff.mp h
      cases heq

/-- **A text can be cut behind each of its tokens.** What stands before the cut ends without a blank
and has the tokens before it, also where the text ends sooner. -/
theorem exists_cut {ts ts' : List Token} {text : List Char}
    (h : tokensFrom 0 text = some (ts ++ ts')) : ∃ s s', text = s ++ s' ∧
      (∀ d ∈ s.getLast?, isBlank d = false) ∧ tokensFrom 0 s' = some ts' ∧
      ∀ u, u <+: s' → tokensFrom 0 (s ++ u) = (tokensFrom 0 u).map (ts ++ ·) := by
  induction ts generalizing text with
  | nil => exact ⟨[], text, rfl, by simp, h, fun u _ => Option.map_id'.symm⟩
  | cons t ts ih =>
    obtain ⟨sp, c, s, rest, rfl, hsp, hc, htake, hrest⟩ := exists_first_token h
    obtain ⟨s₁, s', rfl, hlast, hs', hmore⟩ := ih hrest
    obtain ⟨s₂, rest₂, heq, hlen, -, hlast₂, hsooner⟩ := takeToken_span htake
    obtain ⟨rfl, rfl⟩ := List.append_inj heq (by omega)
    refine ⟨sp ++ (c :: s ++ s₁), s', by simp, ?_, hs', fun u hu => ?_⟩
    · intro d hd
      rw [List.getLast?_append, List.getLast?_append] at hd
      cases s₁ with
      | nil => exact hlast₂ d (by simpa [List.getLast?_cons] using hd)
      | cons x s₁ => exact hlast d (by simpa [List.getLast?_cons] using hd)
    · rw [List.append_assoc, List.append_assoc, tokensFrom_spaces hsp,
        tokensFrom_token hc (hsooner _ ((List.prefix_append_right_inj s₁).mpr hu)), hmore u hu,
        Option.map_map]
      rfl

def Token.mark? : Token → Option Char
  | .beginArray => some '['
  | .endArray => some ']'
  | .comma => some ','
  | _ => none

lemma eq_mark {c p : Char} {cs : List Char} {t : Token} {k : Nat}
    (h : takeToken c cs = some (t, k)) (hp : t.mark? = some p) : c = p ∧ k = 1 := by
  unfold takeToken at h
  split at h
  case h_7 | h_11 =>
    obtain ⟨⟨x, k'⟩, -, heq⟩ := Option.map_eq_some_iff.mp h
    cases heq
    cases hp
  case h_8 | h_9 | h_10 =>
    split_ifs at h
    cases h
    cases hp
  case h_3 | h_4 | h_5 =>
    cases h
    cases hp
  case h_1 | h_2 | h_6 =>
    cases h
    cases hp
    exact ⟨rfl, rfl⟩

lemma exists_cut_at (ts : List Token) {t : Token} {p : Char} (hp : t.mark? = some p)
    {ts' : List Token} {text : List Char} (h : tokensFrom 0 text = some (ts ++ t :: ts')) : ∃ s s',
      text = s ++ p :: s' ∧ tokensFrom 0 s = some ts ∧ tokensFrom 0 s' = some ts' := by
  obtain ⟨s, rest, rfl, -, hrest, hmore⟩ := exists_cut h
  obtain ⟨sp, c, x, s', rfl, hsp, hc, htake, hs'⟩ := exists_first_token hrest
  obtain ⟨rfl, hk⟩ := eq_mark htake hp
  obtain rfl : x = [] := List.length_eq_zero_iff.mp (by omega)
  refine ⟨s ++ sp, s', by simp, ?_, hs'⟩
  rw [hmore sp (List.prefix_append sp _)]
  have hspaces := tokensFrom_spaces hsp []
  rw [List.append_nil] at hspaces
  rw [hspaces]
  simp [tokensFrom]

/-- Blanks around a text do not matter to its tokens. -/
lemma tokens_trim {text : List Char} {ts : List Token} (h : tokens text = some ts) :
    tokens (Text.trim text) = some ts := by
  have hcut : tokensFrom 0 text = some (ts ++ []) := by rw [List.append_nil]; exact h
  obtain ⟨s, tail, rfl, hlast, htail, hmore⟩ := exists_cut hcut
  have hblank : ∀ d ∈ tail, isBlank d = true := fun d hd =>
    isBlank_of_isSpace (isSpace_of_tokensFrom htail d hd)
  have hs : tokensFrom 0 s = some ts := by
    have := hmore [] List.nil_prefix
    simpa [tokensFrom] using this
  cases ts with
  | nil =>
    have hall : ∀ d ∈ s ++ tail, isBlank d = true := fun d hd =>
      isBlank_of_isSpace (isSpace_of_tokensFrom h d hd)
    rw [Text.trim_eq_nil_iff.mpr (List.all_eq_true.mpr hall)]
    rfl
  | cons t ts =>
    obtain ⟨sp, c, x, rest, rfl, hsp, -, htake, -⟩ := exists_first_token hs
    obtain ⟨-, -, -, -, hc, -⟩ := takeToken_span htake
    have htrimmed : Text.Trimmed (c :: x ++ rest) :=
      ⟨fun d hd => by cases hd; exact hc, fun d hd => hlast d (by
        rw [List.getLast?_append, Option.mem_def.mp hd]; rfl)⟩
    have htrim := Text.trim_append (fun d hd => isBlank_of_isSpace (hsp d hd)) htrimmed hblank
      (by simp)
    rw [htrim]
    exact (tokensFrom_spaces hsp _).symm.trans hs

end Tariff.Json
