import Tariff.Proofs.Formula.Grammar
import Tariff.Proofs.Lists

/-!
Evaluation by the grammar. One pass over the tokens finds the value of the tree that they spell, and
finds none if they spell no tree.
-/

namespace Tariff.Formula

variable {b : Binding} {outer : List Partial} {placed rest : List Placed}

/-! ### Steps -/

section

variable (b : Binding) (p : Partial) (outer : List Partial) (x : Float) (i : Nat)
  (rest : List Placed)

lemma factorDue_number : factorDue b p outer ((i, .number x) :: rest) =
    p.term x >>= fun y => termRead b p outer y rest := rfl

lemma factorDue_name (s : String) : factorDue b p outer ((i, .name s) :: rest) =
    match Variable.ofName? s with
    | some v => p.term (b.get v) >>= fun y => termRead b p outer y rest
    | none => .error (.unknownName s) := rfl

lemma factorDue_variable (v : Variable) : factorDue b p outer ((i, .name v.name) :: rest) =
    p.term (b.get v) >>= fun y => termRead b p outer y rest := by
  rw [factorDue_name, Variable.ofName?_name]

lemma factorDue_minus : factorDue b p outer ((i, .op .sub) :: rest) =
    factorDue b { p with minuses := p.minuses + 1 } outer rest := rfl

lemma factorDue_opening : factorDue b p outer ((i, .opening) :: rest) =
    factorDue b {} (p :: outer) rest := rfl

lemma termRead_nil : termRead b p outer x [] =
    if outer.isEmpty then settle p.sum x else .error .unexpectedEnd := rfl

lemma termRead_closing (q : Partial) : termRead b p (q :: outer) x ((i, .closing) :: rest) =
    settle p.sum x >>= fun y => q.term y >>= fun z => termRead b q outer z rest := rfl

variable {o : Op}

lemma termRead_additive (ho : o.isAdditive = true) : termRead b p outer x ((i, .op o) :: rest) =
    settle p.sum x >>= fun y => factorDue b { sum := some (y, o) } outer rest := by
  cases o with
  | add | sub => rfl
  | mul | div => cases ho

lemma termRead_multiplicative (ho : o.isAdditive = false) :
    termRead b p outer x ((i, .op o) :: rest) =
      factorDue b { sum := p.sum, product := some (x, o) } outer rest := by
  cases o with
  | add | sub => cases ho
  | mul | div => rfl

end

/-! ### From trees to values -/

/-- Behind a term only its sum counts. -/
lemma termRead_congr {p q : Partial} (h : p.sum = q.sum) (x : Float) :
    termRead b p outer x rest = termRead b q outer x rest := by
  rw [termRead.eq_def, termRead.eq_def, h]

def EndsTerm (rest : List Placed) : Prop := ∀ p ∈ rest.head?, ∀ o, p.2 = .op o → o.isAdditive = true

/-- At the end of a term the sum before it is settled. -/
lemma termRead_settle {x : Float} {o : Op} (ho : o.isAdditive = true) (hr : EndsTerm rest)
    (y : Float) : termRead b { sum := some (x, o) } outer y rest =
      o.apply x y >>= fun z => termRead b {} outer z rest := by
  obtain ⟨z, hz⟩ := o.apply_of_isAdditive ho x y
  have hsettle : settle (some (x, o)) y = .ok z := hz
  rw [hz]
  change _ = termRead b {} outer z rest
  rcases rest with - | ⟨⟨i, t⟩, rest⟩
  · rw [termRead_nil, termRead_nil, hsettle]
    rfl
  cases t with
  | op o' =>
    have ho' : o'.isAdditive = true := hr _ rfl o' rfl
    rw [termRead_additive _ _ _ _ _ _ ho', termRead_additive _ _ _ _ _ _ ho', hsettle]
    rfl
  | closing =>
    cases outer with
    | nil => rfl
    | cons q outer =>
      rw [termRead_closing, termRead_closing, hsettle]
      rfl
  | number | name | opening => cases outer <;> rfl

lemma negate_neg (n : Nat) (x : Float) : negate n (-x) = -(negate n x) := by
  induction n with
  | zero => rfl
  | succ n ih =>
    unfold negate
    rw [ih]

mutual

-- The induction is on the tree. The tokens behind it are free, and so are the parentheses that are
-- open around it, since the step for `enclosed` opens one more.

/-- An expression is read as its value, if nothing behind it goes on with its last term. -/
theorem factorDue_expr (b : Binding) (outer : List Partial) (e : Expr) {placed rest : List Placed}
    (hp : placed.map (·.2) = e.tokens) (hr : EndsTerm rest) :
    factorDue b {} outer (placed ++ rest) = e.value b >>= fun x => termRead b {} outer x rest := by
  cases e with
  | term t => exact factorDue_term b none outer t hp
  | step e o ho t =>
    obtain ⟨ps, _, rfl, hps, hop⟩ := List.map_eq_append_iff.mp hp
    obtain ⟨⟨i, _⟩, qs, rfl, rfl, hqs⟩ := List.map_eq_cons_iff.mp hop
    have hends : EndsTerm ((i, .op o) :: (qs ++ rest)) := by
      rintro _ ⟨⟩ o' ⟨⟩
      exact ho
    rw [List.append_assoc, List.cons_append, factorDue_expr b outer e hps hends, Expr.value]
    simp only [bind_assoc]
    refine congrArg _ (funext fun x => ?_)
    rw [termRead_additive _ _ _ _ _ _ ho]
    refine (factorDue_term b _ outer t hqs).trans (congrArg _ (funext fun y => ?_))
    exact termRead_settle ho hr y

theorem factorDue_term (b : Binding) (sum : Option (Float × Op)) (outer : List Partial) (t : Term)
    {placed rest : List Placed} (hp : placed.map (·.2) = t.tokens) :
    factorDue b { sum := sum } outer (placed ++ rest) =
      t.value b >>= fun x => termRead b { sum := sum } outer x rest := by
  cases t with
  | factor f => exact factorDue_factor b _ outer f hp
  | step t o ho f =>
    obtain ⟨ps, _, rfl, hps, hop⟩ := List.map_eq_append_iff.mp hp
    obtain ⟨⟨i, _⟩, qs, rfl, rfl, hqs⟩ := List.map_eq_cons_iff.mp hop
    rw [List.append_assoc, List.cons_append, factorDue_term b sum outer t hps, Term.value]
    simp only [bind_assoc]
    refine congrArg _ (funext fun x => ?_)
    rw [termRead_multiplicative _ _ _ _ _ _ ho, factorDue_factor b _ outer f hqs]
    refine congrArg _ (funext fun y => congrArg _ (funext fun z => ?_))
    exact termRead_congr (p := ⟨sum, some (x, o), 0⟩) (q := ⟨sum, none, 0⟩) rfl z

theorem factorDue_factor (b : Binding) (p : Partial) (outer : List Partial) (f : Factor)
    {placed rest : List Placed} (hp : placed.map (·.2) = f.tokens) :
    factorDue b p outer (placed ++ rest) =
      f.value b >>= fun x => p.term x >>= fun y => termRead b p outer y rest := by
  cases f with
  | number x =>
    obtain ⟨⟨i, _⟩, _, rfl, rfl, hnil⟩ := List.map_eq_cons_iff.mp hp
    obtain rfl := List.map_eq_nil_iff.mp hnil
    exact factorDue_number ..
  | named v =>
    obtain ⟨⟨i, _⟩, _, rfl, rfl, hnil⟩ := List.map_eq_cons_iff.mp hp
    obtain rfl := List.map_eq_nil_iff.mp hnil
    exact factorDue_variable ..
  | enclosed e =>
    obtain ⟨⟨i, _⟩, _, rfl, rfl, hinner⟩ := List.map_eq_cons_iff.mp hp
    obtain ⟨ps, _, rfl, hps, hclosing⟩ := List.map_eq_append_iff.mp hinner
    obtain ⟨⟨j, _⟩, _, rfl, rfl, hnil⟩ := List.map_eq_cons_iff.mp hclosing
    obtain rfl := List.map_eq_nil_iff.mp hnil
    have hends : EndsTerm ((j, .closing) :: rest) := by
      rintro _ ⟨⟩ o' h
      cases h
    rw [List.cons_append, factorDue_opening, List.append_assoc, List.singleton_append,
      factorDue_expr b (p :: outer) e hps hends, Factor.value]
    refine congrArg _ (funext fun x => ?_)
    exact termRead_closing ..
  | minus f =>
    obtain ⟨⟨i, _⟩, ps, rfl, rfl, hps⟩ := List.map_eq_cons_iff.mp hp
    rw [List.cons_append, factorDue_minus, factorDue_factor b _ outer f hps,
      Factor.value]
    simp only [bind_assoc, pure_bind]
    refine congrArg _ (funext fun x => ?_)
    have hterm : p.term (-x) = { p with minuses := p.minuses + 1 }.term x :=
      congrArg (settle p.product) (negate_neg p.minuses x)
    rw [hterm]
    exact congrArg _ (funext fun y =>
      termRead_congr (p := { p with minuses := p.minuses + 1 }) (q := p) rfl y)

end

/-- **A formula has the value of the tree that it spells.** -/
theorem evaluate_of_spells {formula : String} {e : Expr} (h : Spells formula e) (b : Binding) :
    evaluate formula b = e.value b := by
  obtain ⟨placed, hplaced, htokens⟩ := h
  have hends : EndsTerm [] := by
    rintro _ ⟨⟩
  unfold evaluate
  rw [hplaced]
  change factorDue b {} [] placed = _
  rw [← List.append_nil placed, factorDue_expr b [] e htokens hends]
  cases e.value b <;> rfl

/-! ### From values to trees -/

/-- What may follow a factor inside so many parentheses. -/
inductive Follows : Nat → List Token → Prop where
  | done : Follows 0 []
  | op {n : Nat} {ts : List Token} (o : Op) (f : Factor) (h : Follows n ts) :
      Follows n (.op o :: (f.tokens ++ ts))
  | closing {n : Nat} {ts : List Token} (h : Follows n ts) : Follows (n + 1) (.closing :: ts)

/-- An expression takes up what follows it, to the end or as far as the parenthesis that closes
it. -/
lemma Follows.exists_expr {n : Nat} {ts : List Token} (h : Follows n ts) (e : Expr) :
    ∃ e' : Expr, n = 0 ∧ e.tokens ++ ts = e'.tokens ∨
      ∃ m us, n = m + 1 ∧ e.tokens ++ ts = e'.tokens ++ .closing :: us ∧ Follows m us := by
  induction h generalizing e with
  | done => exact ⟨e, .inl ⟨rfl, List.append_nil _⟩⟩
  | closing h => exact ⟨e, .inr ⟨_, _, rfl, rfl, h⟩⟩
  | @op n ts o f h ih =>
    cases ho : o.isAdditive with
    | true =>
      have := ih (.step e o ho (.factor f))
      simpa [Expr.tokens, Term.tokens] using this
    | false =>
      have := ih (e.times o ho f)
      simpa [Expr.tokens_times] using this

mutual

-- The induction is on the tokens that are left, in step with the evaluator.

/-- Where a factor is due, a factor stands. -/
theorem exists_of_factorDue {p : Partial} {outer : List Partial} {placed : List Placed} {x : Float}
    (h : factorDue b p outer placed = .ok x) :
    ∃ (f : Factor) (ts : List Token),
      placed.map (·.2) = f.tokens ++ ts ∧ Follows outer.length ts := by
  rcases placed with - | ⟨⟨i, t⟩, rest⟩
  · cases h
  cases t with
  | number y =>
    rw [factorDue_number] at h
    obtain ⟨z, -, h⟩ := bind_eq_ok.mp h
    exact ⟨.number y, _, rfl, follows_of_termRead h⟩
  | name s =>
    rw [factorDue_name] at h
    split at h
    next v hv =>
      obtain rfl := Variable.eq_name_of_ofName? hv
      obtain ⟨z, -, h⟩ := bind_eq_ok.mp h
      exact ⟨.named v, _, rfl, follows_of_termRead h⟩
    next => cases h
  | op o =>
    cases o with
    | sub =>
      rw [factorDue_minus] at h
      obtain ⟨f, ts, hts, hf⟩ := exists_of_factorDue h
      refine ⟨.minus f, ts, ?_, hf⟩
      rw [List.map_cons, hts]
      rfl
    | add | mul | div => cases h
  | opening =>
    rw [factorDue_opening] at h
    obtain ⟨f, ts, hts, hf⟩ := exists_of_factorDue h
    obtain ⟨e, ⟨hn, -⟩ | ⟨m, us, hm, heq, hus⟩⟩ := hf.exists_expr (.term (.factor f))
    · cases hn
    · cases hm
      refine ⟨.enclosed e, us, ?_, hus⟩
      rw [List.map_cons, hts, Factor.tokens, List.cons_append, List.append_assoc,
        List.singleton_append, ← heq]
      rfl
  | closing => cases h

theorem follows_of_termRead {p : Partial} {outer : List Partial} {y : Float} {placed : List Placed}
    {x : Float} (h : termRead b p outer y placed = .ok x) :
    Follows outer.length (placed.map (·.2)) := by
  rcases placed with - | ⟨⟨i, t⟩, rest⟩
  · rw [termRead_nil] at h
    split_ifs at h with houter
    rw [List.isEmpty_iff.mp houter]
    exact .done
  cases t with
  | op o =>
    have hfactor : ∃ q, factorDue b q outer rest = .ok x := by
      cases ho : o.isAdditive with
      | true =>
        rw [termRead_additive _ _ _ _ _ _ ho] at h
        obtain ⟨z, -, h⟩ := bind_eq_ok.mp h
        exact ⟨_, h⟩
      | false =>
        rw [termRead_multiplicative _ _ _ _ _ _ ho] at h
        exact ⟨_, h⟩
    obtain ⟨q, hq⟩ := hfactor
    obtain ⟨f, ts, hts, hf⟩ := exists_of_factorDue hq
    rw [List.map_cons, hts]
    exact .op o f hf
  | closing =>
    cases outer with
    | nil => cases h
    | cons q outer =>
      rw [termRead_closing] at h
      obtain ⟨z, -, h⟩ := bind_eq_ok.mp h
      obtain ⟨w, -, h⟩ := bind_eq_ok.mp h
      exact .closing (follows_of_termRead h)
  | number | name | opening => cases outer <;> cases h

end

/-- **Only the formulas that spell a tree have values.** -/
theorem exists_spells_of_evaluate {formula : String} {x : Float} (h : evaluate formula b = .ok x) :
    ∃ e, Spells formula e := by
  obtain ⟨placed, hplaced, h⟩ := bind_eq_ok.mp h
  obtain ⟨f, ts, hts, hf⟩ := exists_of_factorDue h
  obtain ⟨e, ⟨-, heq⟩ | ⟨m, us, hm, -⟩⟩ := hf.exists_expr (.term (.factor f))
  · exact ⟨e, placed, hplaced, hts.trans heq⟩
  · cases hm

end Tariff.Formula
