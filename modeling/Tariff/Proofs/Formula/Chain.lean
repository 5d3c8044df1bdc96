import Tariff.Proofs.Formula.Grammar

/-!
Expressions as chains of factors. The operations of an expression that stand in no parentheses cut
it into factors; which operation binds tighter settles the tree on them, so a chain belongs to one
expression only. The tokens of a factor say themselves where it ends, and so the tokens of an
expression spell no other.
-/

namespace Tariff.Formula

/-! ### Chains -/

def Term.first : Term → Factor
  | .factor f => f
  | .step t _ _ _ => t.first

/-- The factors behind the first one, each with the operation before it. -/
def Term.links : Term → List (Op × Factor)
  | .factor _ => []
  | .step t o _ f => t.links ++ [(o, f)]

def Expr.first : Expr → Factor
  | .term t => t.first
  | .step e _ _ _ => e.first

def Expr.links : Expr → List (Op × Factor)
  | .term t => t.links
  | .step e o _ t => e.links ++ (o, t.first) :: t.links

def Expr.append (e : Expr) (l : Op × Factor) : Expr :=
  if h : l.1.isAdditive = true then .step e l.1 h (.factor l.2)
  else e.times l.1 (Bool.eq_false_iff.mpr h) l.2

lemma Expr.append_additive (e : Expr) {o : Op} (h : o.isAdditive = true) (f : Factor) :
    e.append (o, f) = .step e o h (.factor f) := dif_pos h

lemma Expr.append_multiplicative (e : Expr) {o : Op} (h : o.isAdditive = false) (f : Factor) :
    e.append (o, f) = e.times o h f := dif_neg (Bool.eq_false_iff.mp h)

/-- A term grows at its end in the place where it stands. -/
lemma Term.foldl_links {place : Term → Expr}
    (h : ∀ t o ho f, (place t).times o ho f = place (.step t o ho f)) (t : Term) :
    t.links.foldl Expr.append (place (.factor t.first)) = place t := by
  cases t with
  | factor f => rfl
  | step t o ho f =>
    have ih := Term.foldl_links h t
    rw [Term.links, Term.first, List.foldl_append, ih]
    exact ((place t).append_multiplicative ho f).trans (h t o ho f)

lemma Expr.foldl_links (e : Expr) :
    e.links.foldl Expr.append (.term (.factor e.first)) = e := by
  cases e with
  | term t => exact @Term.foldl_links .term (fun _ _ _ _ => rfl) t
  | step e o ho t =>
    have ih := Expr.foldl_links e
    rw [Expr.links, Expr.first, List.foldl_append, ih, List.foldl_cons, e.append_additive ho]
    exact @Term.foldl_links (.step e o ho) (fun _ _ _ _ => rfl) t

def linkTokens (ls : List (Op × Factor)) : List Token := ls.flatMap fun l => .op l.1 :: l.2.tokens

lemma linkTokens_cons (o : Op) (f : Factor) (ls : List (Op × Factor)) :
    linkTokens ((o, f) :: ls) = .op o :: (f.tokens ++ linkTokens ls) := rfl

lemma linkTokens_append (ls ms : List (Op × Factor)) :
    linkTokens (ls ++ ms) = linkTokens ls ++ linkTokens ms := List.flatMap_append

lemma Term.tokens_eq (t : Term) : t.tokens = t.first.tokens ++ linkTokens t.links := by
  cases t with
  | factor f => exact (List.append_nil _).symm
  | step t o ho f =>
    have ih := Term.tokens_eq t
    rw [Term.tokens, Term.first, Term.links, ih, linkTokens_append, List.append_assoc,
      linkTokens_cons]
    exact congrArg _ (congrArg _ (congrArg _ (List.append_nil _).symm))

lemma Expr.tokens_eq (e : Expr) : e.tokens = e.first.tokens ++ linkTokens e.links := by
  cases e with
  | term t => exact t.tokens_eq
  | step e o ho t =>
    have ih := Expr.tokens_eq e
    rw [Expr.tokens, Expr.first, Expr.links, ih, linkTokens_append, List.append_assoc,
      linkTokens_cons, t.tokens_eq]

lemma Factor.tokens_ne_nil (f : Factor) : f.tokens ≠ [] := by
  cases f <;> exact List.cons_ne_nil _ _

lemma Expr.tokens_ne_nil (e : Expr) : e.tokens ≠ [] := by
  rw [e.tokens_eq]
  exact List.append_ne_nil_of_left_ne_nil e.first.tokens_ne_nil _

/-! ### Where a factor ends -/

lemma name_injective {v w : Variable} (h : v.name = w.name) : v = w := by
  have hv := Variable.ofName?_name v
  rw [h, Variable.ofName?_name] at hv
  exact (Option.some.inj hv).symm

/-- No other factor has the tokens of this one, and none has more of what follows it. -/
def Factor.Delimited (f : Factor) : Prop :=
  ∀ (f' : Factor) (ts us : List Token), f.tokens ++ ts = f'.tokens ++ us → f = f' ∧ ts = us

/-- What follows does not go on with a chain. -/
def EndsChain (ts : List Token) : Prop := ∀ o, ts.head? ≠ some (.op o)

lemma links_unique {ls ms : List (Op × Factor)} (hls : ∀ l ∈ ls, l.2.Delimited)
    {ts us : List Token} (hts : EndsChain ts) (hus : EndsChain us)
    (h : linkTokens ls ++ ts = linkTokens ms ++ us) : ls = ms ∧ ts = us := by
  induction ls generalizing ms with
  | nil =>
    rcases ms with - | ⟨⟨o, f⟩, ms⟩
    · exact ⟨rfl, h⟩
    · have hts' : ts = .op o :: (f.tokens ++ linkTokens ms) ++ us := h
      exact absurd (congrArg List.head? hts') (hts o)
  | cons l ls ih =>
    obtain ⟨o, f⟩ := l
    rw [List.forall_mem_cons] at hls
    rcases ms with - | ⟨⟨o', f'⟩, ms⟩
    · have hus' : us = .op o :: (f.tokens ++ linkTokens ls) ++ ts := h.symm
      exact absurd (congrArg List.head? hus') (hus o)
    · rw [linkTokens_cons, linkTokens_cons, List.cons_append, List.cons_append, List.append_assoc,
        List.append_assoc, List.cons.injEq, Token.op.injEq] at h
      obtain ⟨rfl, hfactor⟩ := h
      obtain ⟨rfl, hlinks⟩ := hls.1 _ _ _ hfactor
      obtain ⟨rfl, hrest⟩ := ih hls.2 hlinks
      exact ⟨rfl, hrest⟩

/-- An expression that nothing goes on with is known by its tokens. -/
lemma Expr.unique {e e' : Expr} (hf : e.first.Delimited) (hl : ∀ l ∈ e.links, l.2.Delimited)
    {ts us : List Token} (hts : EndsChain ts) (hus : EndsChain us)
    (h : e.tokens ++ ts = e'.tokens ++ us) : e = e' ∧ ts = us := by
  rw [e.tokens_eq, e'.tokens_eq, List.append_assoc, List.append_assoc] at h
  obtain ⟨hfirst, h⟩ := hf _ _ _ h
  obtain ⟨hlinks, h⟩ := links_unique hl hts hus h
  refine ⟨?_, h⟩
  rw [← e.foldl_links, ← e'.foldl_links, hfirst, hlinks]

mutual

theorem Expr.delimited (e : Expr) : e.first.Delimited ∧ ∀ l ∈ e.links, l.2.Delimited := by
  cases e with
  | term t => exact t.delimited
  | step e o _ t =>
    refine ⟨e.delimited.1, ?_⟩
    rw [Expr.links, List.forall_mem_append, List.forall_mem_cons]
    exact ⟨e.delimited.2, t.delimited⟩

theorem Term.delimited (t : Term) : t.first.Delimited ∧ ∀ l ∈ t.links, l.2.Delimited := by
  cases t with
  | factor f => exact ⟨f.delimited, by simp [Term.links]⟩
  | step t o _ f =>
    refine ⟨t.delimited.1, ?_⟩
    rw [Term.links, List.forall_mem_append]
    exact ⟨t.delimited.2, by simpa using f.delimited⟩

theorem Factor.delimited (f : Factor) : f.Delimited := by
  intro f' ts us h
  cases f with
  | number x =>
    cases f' with
    | number => simpa [Factor.tokens] using h
    | named | enclosed | minus => cases h
  | named v =>
    cases f' with
    | named v' =>
      simp only [Factor.tokens, List.singleton_append, List.cons.injEq, Token.name.injEq] at h
      exact ⟨congrArg _ (name_injective h.1), h.2⟩
    | number | enclosed | minus => cases h
  | enclosed e =>
    cases f' with
    | enclosed e' =>
      rw [Factor.tokens, Factor.tokens, List.cons_append, List.cons_append, List.append_assoc,
        List.append_assoc] at h
      have hends (rest : List Token) : EndsChain (.closing :: rest) := by simp [EndsChain]
      obtain ⟨rfl, hclosing⟩ := Expr.unique e.delimited.1 e.delimited.2 (hends ts) (hends us)
        (List.cons.inj h).2
      exact ⟨rfl, (List.cons.inj hclosing).2⟩
    | number | named | minus => cases h
  | minus g =>
    cases f' with
    | minus g' =>
      obtain ⟨rfl, hrest⟩ := g.delimited g' ts us (List.cons.inj h).2
      exact ⟨rfl, hrest⟩
    | number | named | enclosed => cases h

end

/-- **The grammar is unambiguous**: the tokens of an expression spell no other. -/
theorem Expr.tokens_injective {e e' : Expr} (h : e.tokens = e'.tokens) : e = e' := by
  have hnil : EndsChain [] := by simp [EndsChain]
  refine (Expr.unique e.delimited.1 e.delimited.2 hnil hnil ?_).1
  rw [h]

lemma Spells.unique {formula : String} {e e' : Expr} (h : Spells formula e)
    (h' : Spells formula e') : e = e' := by
  obtain ⟨placed, hp, htokens⟩ := h
  obtain ⟨placed', hp', htokens'⟩ := h'
  rw [hp] at hp'
  cases hp'
  exact Expr.tokens_injective (htokens.symm.trans htokens')

end Tariff.Formula
