import Tariff.Proofs.Json.Spans
import Tariff.Proofs.Json.Steps

/-!
The items of an array that is read from a text. Each stands in the text between two commas or at a
bracket, and what stands there is, by itself, a text that holds the item.
-/

namespace Tariff.Json

open Document (Reads valueDue value? values? fields?)

/-! ### The tokens of items -/

lemma eq_of_reads_nil {d D : Document} {ts : List Token} (h : Reads (.read [] d) ts D) :
    ts = [] ∧ D = d := by
  cases h with
  | done => exact ⟨rfl, rfl⟩
  | step hstep _ => cases hstep

/-- Inside an array, a comma and an item follow, or the bracket at its end. -/
lemma exists_items {done : List Document} {d D : Document} {ts : List Token}
    (h : Reads (.read [.array done] d) ts D) : ∃ items : List (List Token × Document),
      ts = (items.flatMap fun p => .comma :: p.1) ++ [.endArray] ∧
      D = .array (done.reverse ++ d :: items.map (·.2)) ∧
      ∀ p ∈ items, Reads (.due []) p.1 p.2 := by
  induction hn : ts.length using Nat.strong_induction_on generalizing done d ts with
  | _ n ih =>
    cases h with | @step _ _ pre ts _ hstep h
    rw [List.length_append] at hn
    have hpos := hstep.length_pos
    cases hstep with
    | nextItem =>
      obtain ⟨ts₁, ts₂, d', rfl, hitem, h⟩ := h.split (s := .due [])
      rw [List.length_append] at hn
      obtain ⟨items, rfl, rfl, hitems⟩ := ih ts₂.length (by omega) h rfl
      exact ⟨(ts₁, d') :: items, by simp, by simp, List.forall_mem_cons.mpr ⟨hitem, hitems⟩⟩
    | endArray =>
      obtain ⟨rfl, rfl⟩ := eq_of_reads_nil h
      exact ⟨[], rfl, by simp, by simp⟩

lemma exists_object {done : List (Option String × Document)} {name : Option String}
    {d D : Document} {ts : List Token} (h : Reads (.read [.object done name] d) ts D) :
    ∃ fs, D = .object fs := by
  induction hn : ts.length using Nat.strong_induction_on generalizing done name d ts with
  | _ n ih =>
    cases h with | @step _ _ pre ts _ hstep h
    rw [List.length_append] at hn
    have hpos := hstep.length_pos
    cases hstep with
    | nextField =>
      obtain ⟨ts₁, ts₂, d', rfl, -, h⟩ := h.split (s := .due [])
      rw [List.length_append] at hn
      exact ih ts₂.length (by omega) h rfl
    | endObject => exact ⟨_, (eq_of_reads_nil h).2⟩

/-- The tokens of an array: brackets around its items, with a comma between two of them. -/
lemma exists_items_of_array {ds : List Document} {ts : List Token}
    (h : Reads (.due []) ts (.array ds)) :
    ts = [.beginArray, .endArray] ∧ ds = [] ∨
    ∃ (first : List Token × Document) (items : List (List Token × Document)),
      ts = .beginArray :: (first.1 ++ ((items.flatMap fun p => .comma :: p.1) ++ [.endArray])) ∧
      ds = (first :: items).map (·.2) ∧ ∀ p ∈ first :: items, Reads (.due []) p.1 p.2 := by
  cases h with | step hstep h
  cases hstep with
  | @single outer t d ts hd =>
    obtain ⟨-, rfl⟩ := eq_of_reads_nil h
    cases t <;> cases hd
  | emptyArray =>
    obtain ⟨rfl, heq⟩ := eq_of_reads_nil h
    cases heq
    exact .inl ⟨rfl, rfl⟩
  | beginArray =>
    obtain ⟨ts₁, ts₂, d, rfl, hitem, h⟩ := h.split (s := .due [])
    obtain ⟨items, rfl, heq, hitems⟩ := exists_items h
    cases heq
    exact .inr ⟨(ts₁, d), items, rfl, by simp, List.forall_mem_cons.mpr ⟨hitem, hitems⟩⟩
  | emptyObject => cases (eq_of_reads_nil h).2
  | beginObject =>
    obtain ⟨ts₁, ts₂, d, rfl, -, h⟩ := h.split (s := .due [])
    obtain ⟨fs, heq⟩ := exists_object h
    cases heq

/-! ### The texts of items -/

/-- What stands between the brackets of an array and its commas; blanks may be around all of it. -/
def Encloses (text : List Char) (items : List (List Char)) : Prop :=
  ∃ before gap after : List Char,
    text = before ++ '[' :: (gap ++ ([','].intercalate items ++ ']' :: after)) ∧
    ∀ d ∈ before ++ gap ++ after, isSpace d = true

lemma exists_texts (first : List Token) (items : List (List Token)) {text : List Char}
    (h : tokensFrom 0 text =
      some (first ++ ((items.flatMap fun ts => .comma :: ts) ++ [.endArray]))) :
    ∃ t ts after, text = [','].intercalate (t :: ts) ++ ']' :: after ∧
      (∀ d ∈ after, isSpace d = true) ∧ (t :: ts).map tokens = (first :: items).map some := by
  induction items generalizing first text with
  | nil =>
    obtain ⟨t, after, rfl, ht, hafter⟩ := exists_cut_at first (t := .endArray) rfl h
    refine ⟨t, [], after, by rw [List.intercalate_singleton], isSpace_of_tokensFrom hafter, ?_⟩
    rw [List.map_singleton, List.map_singleton]
    exact congrArg (fun x => [x]) ht
  | cons second items ih =>
    rw [List.flatMap_cons, List.cons_append, List.cons_append, List.append_assoc] at h
    obtain ⟨t, rest, rfl, ht, hrest⟩ := exists_cut_at first (t := .comma) rfl h
    obtain ⟨t', ts, after, rfl, hafter, hts⟩ := ih second hrest
    refine ⟨t, t' :: ts, after, ?_, hafter, ?_⟩
    · rw [List.intercalate_cons_cons]
      simp
    · rw [List.map_cons, hts]
      exact congrArg (· :: _) ht

/-- **The items of an array** stand in its text one after another, each as a text that holds it. -/
theorem exists_item_texts {text : List Char} {ds : List Document}
    (h : Document.read? text = some (.array ds)) :
    ∃ items, Encloses text items ∧ items.map Document.read? = ds.map some := by
  obtain ⟨ts, htokens, h⟩ := Document.read?_eq_some_iff.mp h
  obtain ⟨rfl, rfl⟩ | ⟨first, items, rfl, rfl, hitems⟩ := exists_items_of_array h
  · obtain ⟨before, rest, rfl, hbefore, hrest⟩ :=
      exists_cut_at [] (t := .beginArray) rfl htokens
    obtain ⟨gap, after, rfl, hgap, hafter⟩ :=
      exists_cut_at [] (t := .endArray) rfl hrest
    refine ⟨[], ⟨before, gap, after, rfl, ?_⟩, rfl⟩
    rw [List.forall_mem_append, List.forall_mem_append]
    exact ⟨⟨isSpace_of_tokensFrom hbefore, isSpace_of_tokensFrom hgap⟩,
      isSpace_of_tokensFrom hafter⟩
  · obtain ⟨before, rest, rfl, hbefore, hrest⟩ :=
      exists_cut_at [] (t := .beginArray) rfl htokens
    rw [← List.flatMap_map Prod.fst (Token.comma :: ·) items] at hrest
    obtain ⟨t, ts, after, rfl, hafter, hts⟩ := exists_texts first.1 (items.map Prod.fst) hrest
    refine ⟨t :: ts, ⟨before, [], after, rfl, ?_⟩, ?_⟩
    · rw [List.append_nil, List.forall_mem_append]
      exact ⟨isSpace_of_tokensFrom hbefore, hafter⟩
    · have hread : (t :: ts).map Document.read? =
          ((t :: ts).map tokens).map (·.bind (valueDue [])) := by
        rw [List.map_map]
        rfl
      rw [hread, hts, ← List.map_cons (f := Prod.fst), List.map_map, List.map_map, List.map_map]
      exact List.map_congr_left fun p hp => Document.run_eq_some_iff.mpr (hitems p hp)

/-! ### The values of items -/

mutual

/-- A value stays the same where there is more room. -/
theorem value?_succ : (d : Document) → {room : Nat} → {j : Json} → value? room d = some j →
    value? (room + 1) d = some j
  | .null, _, _, h => h
  | .bool _, _, _, h => h
  | .number _, _, _, h => h
  | .string _, _, _, h => h
  | .array ds, room + 1, j, h => by
    obtain ⟨js, hjs, rfl⟩ := Option.map_eq_some_iff.mp h
    rw [value?, values?_succ ds hjs]
    rfl
  | .object fs, room + 1, j, h => by
    obtain ⟨js, hjs, rfl⟩ := Option.map_eq_some_iff.mp h
    rw [value?, fields?_succ fs hjs]
    rfl

theorem values?_succ : (ds : List Document) → {room : Nat} → {js : List Json} →
    values? room ds = some js → values? (room + 1) ds = some js
  | [], _, _, h => h
  | d :: ds, room, js, h => by
    obtain ⟨j, hj, h⟩ := Option.bind_eq_some_iff.mp h
    obtain ⟨js', hjs, rfl⟩ := Option.map_eq_some_iff.mp h
    rw [values?, value?_succ d hj, values?_succ ds hjs]
    rfl

theorem fields?_succ : (fs : List (Option String × Document)) → {room : Nat} →
    {js : List (String × Json)} → fields? room fs = some js → fields? (room + 1) fs = some js
  | [], _, _, h => h
  | (k, d) :: fs, room, js, h => by
    obtain ⟨name, rfl, h⟩ := Option.bind_eq_some_iff.mp h
    obtain ⟨j, hj, h⟩ := Option.bind_eq_some_iff.mp h
    obtain ⟨js', hjs, rfl⟩ := Option.map_eq_some_iff.mp h
    rw [fields?, value?_succ d hj, fields?_succ fs hjs]
    rfl

end

lemma map_value?_of_values? {room : Nat} {ds : List Document} {js : List Json}
    (h : values? room ds = some js) : ds.map (value? room) = js.map some := by
  induction ds generalizing js with
  | nil =>
    cases h
    rfl
  | cons d ds ih =>
    obtain ⟨j, hj, h⟩ := Option.bind_eq_some_iff.mp h
    obtain ⟨js', hjs, rfl⟩ := Option.map_eq_some_iff.mp h
    rw [List.map_cons, hj, ih hjs]
    rfl

/-- Each item of an array that is read is read alike from the text that stands for it. -/
theorem exists_texts_of_parse? {text : String} {js : List Json}
    (h : parse? text = some (.array js)) :
    ∃ items : List String, Encloses text.toList (items.map String.toList) ∧
      items.map parse? = js.map some := by
  obtain ⟨d, hread, h⟩ := Option.bind_eq_some_iff.mp h
  cases d with
  | array ds =>
    obtain ⟨js', hjs, heq⟩ := Option.map_eq_some_iff.mp h
    cases heq
    obtain ⟨items, hencloses, hitems⟩ := exists_item_texts hread
    refine ⟨items.map String.ofList, by simpa [Function.comp_def] using hencloses, ?_⟩
    have hparse : (items.map String.ofList).map parse? =
        (items.map Document.read?).map (·.bind (value? nestingLimit)) := by
      simp [parse?, Function.comp_def]
    rw [hparse, hitems, List.map_map, ← map_value?_of_values? (values?_succ ds hjs)]
    rfl
  | object fs =>
    obtain ⟨js', -, heq⟩ := Option.map_eq_some_iff.mp h
    cases heq
  | null | bool => cases h
  | number | string =>
    obtain ⟨x, -, heq⟩ := Option.map_eq_some_iff.mp h
    cases heq

end Tariff.Json
