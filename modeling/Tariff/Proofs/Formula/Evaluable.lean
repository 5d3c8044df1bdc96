import Tariff.Proofs.Formula.Evaluation
import Tariff.Proofs.Formula.Pieces

/-!
Evaluation of formulas that name nothing but variables. No name in such a formula is unknown to the
evaluation; if the formula spells an expression, the only fault is a division by zero, and the
variables that it names as words are those among its tokens.
-/

namespace Tariff.Formula

open Tariff.Text

variable {b : Binding}

/-! ### Unknown names -/

lemma settle_cases (w : Option (Float × Op)) (x : Float) :
    (∃ y, settle w x = .ok y) ∨ settle w x = .error .divisionByZero := by
  rcases w with - | ⟨y, o⟩
  · exact .inl ⟨x, rfl⟩
  · exact apply_cases o y x

/-- What waits for an operand does not make a name unknown. -/
lemma unknownName_of_settle {w : Option (Float × Op)} {x : Float}
    {next : Float → Except EvalError Float} {s : String}
    (h : settle w x >>= next = .error (.unknownName s)) :
    ∃ y, next y = .error (.unknownName s) := by
  rcases settle_cases w x with ⟨y, hy⟩ | hy <;> rw [hy] at h
  · exact ⟨y, h⟩
  · cases h

mutual

theorem name_of_factorDue {p : Partial} {outer : List Partial} {placed : List Placed} {s : String}
    (h : factorDue b p outer placed = .error (.unknownName s)) :
    .name s ∈ placed.map (·.2) ∧ Variable.ofName? s = none := by
  rcases placed with - | ⟨⟨i, t⟩, rest⟩
  · cases h
  rw [List.map_cons, List.mem_cons]
  cases t with
  | number x =>
    rw [factorDue_number] at h
    obtain ⟨y, h⟩ := unknownName_of_settle h
    exact (name_of_termRead h).imp_left .inr
  | name n =>
    rw [factorDue_name] at h
    split at h
    next v hv =>
      obtain ⟨y, h⟩ := unknownName_of_settle h
      exact (name_of_termRead h).imp_left .inr
    next hn =>
      cases h
      exact ⟨.inl rfl, hn⟩
  | op o =>
    cases o with
    | sub =>
      rw [factorDue_minus] at h
      exact (name_of_factorDue h).imp_left .inr
    | add | mul | div => cases h
  | opening =>
    rw [factorDue_opening] at h
    exact (name_of_factorDue h).imp_left .inr
  | closing => cases h

theorem name_of_termRead {p : Partial} {outer : List Partial} {x : Float} {placed : List Placed}
    {s : String} (h : termRead b p outer x placed = .error (.unknownName s)) :
    .name s ∈ placed.map (·.2) ∧ Variable.ofName? s = none := by
  rcases placed with - | ⟨⟨i, t⟩, rest⟩
  · rw [termRead_nil] at h
    split_ifs at h
    · rcases settle_cases p.sum x with ⟨y, hy⟩ | hy <;> rw [hy] at h <;> cases h
    · cases h
  rw [List.map_cons, List.mem_cons]
  cases t with
  | op o =>
    cases ho : o.isAdditive with
    | true =>
      rw [termRead_additive _ _ _ _ _ _ ho] at h
      obtain ⟨y, h⟩ := unknownName_of_settle h
      exact (name_of_factorDue h).imp_left .inr
    | false =>
      rw [termRead_multiplicative _ _ _ _ _ _ ho] at h
      exact (name_of_factorDue h).imp_left .inr
  | closing =>
    cases outer with
    | nil => cases h
    | cons q outer =>
      rw [termRead_closing] at h
      obtain ⟨y, h⟩ := unknownName_of_settle h
      obtain ⟨z, h⟩ := unknownName_of_settle h
      exact (name_of_termRead h).imp_left .inr
  | number | name | opening => cases outer <;> cases h

end

lemma error_of_tokensFrom {i skip : Nat} {cs : List Char} {e : EvalError}
    (h : tokensFrom i skip cs = .error e) : ∃ c place, e = .unexpectedChar c place := by
  fun_induction tokensFrom i skip cs
  case case1 => cases h
  case case2 ih | case3 ih => exact ih h
  case case4 ih | case6 ih | case7 ih | case8 ih | case9 ih => exact ih (map_eq_error.mp h)
  case case5 | case10 =>
    cases h
    exact ⟨_, _, rfl⟩

theorem KnownNames.evaluate_ne {formula : String} (h : KnownNames formula) (s : String) :
    evaluate formula b ≠ .error (.unknownName s) := by
  intro he
  rcases bind_eq_error.mp he with he | ⟨placed, hplaced, he⟩
  · obtain ⟨c, place, hc⟩ := error_of_tokensFrom he
    cases hc
  · obtain ⟨hmem, hnone⟩ := name_of_factorDue he
    rw [← mem_iff_name?, (reads_of_tokensFrom hplaced).names_eq] at hmem
    obtain ⟨v, rfl⟩ := h s hmem
    rw [Variable.ofName?_name] at hnone
    cases hnone

/-! ### Variables -/

lemma Spaced.append {ts us : List Token} (hts : Spaced ts) (hus : Spaced us) {t : Token}
    (ht : t.isOperand = false) : Spaced (ts ++ t :: us) := by
  refine List.IsChain.append hts (List.IsChain.cons hus fun u _ h => ?_) fun u _ v hv h => ?_
  · rw [ht] at h
    cases h.1
  · cases hv
    rw [ht] at h
    cases h.2

lemma Spaced.cons {ts : List Token} (hts : Spaced ts) {t : Token} (ht : t.isOperand = false) :
    Spaced (t :: ts) :=
  Spaced.append .nil hts ht

mutual

theorem Expr.spaced (e : Expr) : Spaced e.tokens := by
  cases e with
  | term t => exact t.spaced
  | step e o _ t => exact e.spaced.append t.spaced rfl

theorem Term.spaced (t : Term) : Spaced t.tokens := by
  cases t with
  | factor f => exact f.spaced
  | step t o _ f => exact t.spaced.append f.spaced rfl

theorem Factor.spaced (f : Factor) : Spaced f.tokens := by
  cases f with
  | number | named => exact .singleton _
  | enclosed e => exact (e.spaced.append .nil rfl).cons rfl
  | minus f => exact f.spaced.cons rfl

end

lemma mem_canonical {v : Variable} {vs : List Variable} : v ∈ Variable.canonical vs ↔ v ∈ vs := by
  unfold Variable.canonical Variable.all
  cases v <;> simp

lemma canonical_congr {vs ws : List Variable} (h : ∀ v, v ∈ vs ↔ v ∈ ws) :
    Variable.canonical vs = Variable.canonical ws := by
  unfold Variable.canonical
  refine List.filter_congr fun v _ => ?_
  rw [Bool.eq_iff_iff, List.contains_iff_mem, List.contains_iff_mem]
  exact h v

lemma mem_named {formula : String} {v : Variable} : v ∈ Variable.named formula ↔
    v ∈ (words formula.toList).filterMap fun w => Variable.ofName? (String.ofList w) :=
  mem_canonical

theorem name_mem_of_mem_named {formula : String} {placed : List Placed}
    (h : tokens formula = .ok placed) {v : Variable} (hv : v ∈ Variable.named formula) :
    .name v.name ∈ placed.map (·.2) := by
  obtain ⟨w, hw, hv⟩ := List.mem_filterMap.mp (mem_named.mp hv)
  have hname := Variable.eq_name_of_ofName? hv
  have hrun : w ∈ runsOf isNameChar formula.toList := by
    refine mem_runsOf_of_imp (fun c => isWord_of_isNameChar) hw fun c hc => ?_
    rw [← String.toList_ofList (l := w), hname] at hc
    exact ((name_variable v).2 c hc).1
  rw [← mem_iff_name?, (reads_of_tokensFrom h).names_eq, ← hname]
  exact List.mem_map.mpr ⟨w, hrun, rfl⟩

theorem mem_named_iff {formula : String} {e : Expr} (ha : Accepted formula) (h : Spells formula e)
    (v : Variable) : v ∈ Variable.named formula ↔ .name v.name ∈ e.tokens := by
  obtain ⟨placed, hplaced, htokens⟩ := h
  have hreads : Reads formula.toList e.tokens := by
    rw [← htokens]
    exact reads_of_tokensFrom hplaced
  rw [mem_named, hreads.variables_eq e.spaced (accepted_iff.mp ha).2.1, List.mem_filterMap]
  constructor
  · rintro ⟨s, hs, hv⟩
    rw [← Variable.eq_name_of_ofName? hv]
    exact mem_iff_name?.mp hs
  · exact fun hv => ⟨v.name, mem_iff_name?.mpr hv, Variable.ofName?_name v⟩

end Tariff.Formula
