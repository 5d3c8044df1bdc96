import Tariff.Generation.Messages
import Tariff.Proofs.Generation.RowByRow
import Tariff.Proofs.Json.Compact
import Tariff.Proofs.Json.Records
import Tariff.Proofs.Json.Survival

/-!
An array that is asked for as the input of a tool. Its schema is wrapped in that of an object with
one field, and what the tool is called with is unwrapped again, so the answer is read as if it had
not been wrapped. Where the field is not there, nothing is read and the failure says so.
-/

namespace Tariff.Generation

open Json (Document Tidy printed)

lemma readValue_compact {j v : Json} :
    readValue j.compact = .ok v ↔ (printed j).value? Json.nestingLimit = some v := by
  have hread : Document.read? (Text.trim j.compact.toList) = some (printed j) :=
    Json.read?_of_tokens (Json.tokens_trim (Json.tokens_compact j))
  rw [readValue_eq_ok, Json.parse?, String.toList_ofList, hread]
  rfl

lemma exists_array_of_value?_printed {room : Nat} {j : Json} {rows : List Json}
    (h : (printed j).value? room = some (.array rows)) : ∃ xs, j = .array xs := by
  cases j with
  | array xs => exact ⟨xs, rfl⟩
  | null | bool | string => cases h
  | number n =>
    rw [printed, Json.Number.printed] at h
    split_ifs at h
    · obtain ⟨m, -, heq⟩ := Option.map_eq_some_iff.mp h
      cases heq
    · cases h
  | object fs =>
    cases room with
    | zero => cases h
    | succ room =>
      obtain ⟨vs, -, heq⟩ := Option.map_eq_some_iff.mp h
      cases heq

lemma exists_rows {expected : List Nat} {answer : String} {found : Indexed Compiled}
    (h : readBatch expected answer = .ok found) :
    ∃ rows, readValue answer = .ok (.array rows) := by
  obtain ⟨j, hj, h⟩ := bind_eq_ok.mp h
  cases j with
  | array rows => exact ⟨rows, hj⟩
  | null | bool | number | string | object => cases h

namespace Messages

variable {schema input : Json} {blocks : List Block}

def OfArray (schema : Json) : Prop := schema.field? "type" = some (.string "array")

/-- A schema of objects that have to have one field, with a schema of its own. -/
structure RequiresField (schema : Json) (name : String) (inner : Json) : Prop where
  type : schema.field? "type" = some (.string "object")
  properties : schema.field? "properties" = some (.object [(name, inner)])
  required : schema.field? "required" = some (.ofStrings [name])

/-- The first tool that is called has this input, whatever else stands in the message. -/
def FirstCalled (blocks : List Block) (input : Json) : Prop :=
  ∃ before after, blocks = before ++ .toolUse input :: after ∧ ∀ b ∈ before, ∀ j, b ≠ .toolUse j

/-- An answer that is taken out of what it was wrapped in. -/
structure Unwraps (schema : Json) (blocks : List Block) (input : Json) : Prop where
  plain : ¬OfArray schema → toolSchema schema = schema ∧ answer schema blocks = input.compact
  wrapped : OfArray schema → RequiresField (toolSchema schema) "items" schema
  items : OfArray schema → ∀ v, input.field? "items" = some v → answer schema blocks = v.compact
  /-- rows are read as from their own text, and they are read if tidy, as in every message -/
  rows : OfArray schema → ∀ rows, input.field? "items" = some (.array rows) → ∀ expected,
    readBatch expected (answer schema blocks) = readBatch expected (Json.array rows).compact ∧
    (Tidy Json.nestingLimit (.array rows) ∨ (∃ body, blocks? body = some blocks) →
      ∃ found, readBatch expected (answer schema blocks) = .ok found)
  missing : OfArray schema → input.field? "items" = none → ∀ expected,
    readBatch expected (answer schema blocks) = .error (.schema .notArray)
  /-- nothing but rows is read -/
  only : OfArray schema → ∀ expected found, readBatch expected (answer schema blocks) = .ok found →
    ∃ rows, input.field? "items" = some (.array rows)

lemma asksForArray_iff : asksForArray schema = true ↔ OfArray schema := by
  unfold asksForArray OfArray
  split
  next s hs =>
    rw [hs, beq_iff_eq, Option.some.injEq, Json.string.injEq]
  next hs => exact iff_of_false Bool.false_ne_true fun h => hs "array" h

/-! ### What a message holds -/

lemma toolInput?_eq_some (h : FirstCalled blocks input) : toolInput? blocks = some input := by
  obtain ⟨before, after, rfl, hbefore⟩ := h
  unfold toolInput?
  rw [List.findSome?_append, List.findSome?_eq_none_iff.mpr fun b hb => ?_]
  · rfl
  · split
    next j => exact absurd rfl (hbefore _ hb j)
    next => rfl

lemma tidy_of_ofDocument? {d : Document} (hd : d.Ranged)
    (h : Block.ofDocument? d = some (.toolUse input)) : Tidy blockRoom input := by
  unfold Block.ofDocument? at h
  obtain ⟨-, -, h⟩ := Option.bind_eq_some_iff.mp h
  cases hd with
  | @object fs hf =>
    dsimp only at h
    obtain ⟨type, -, h⟩ := Option.bind_eq_some_iff.mp h
    obtain ⟨name, -, h⟩ := Option.bind_eq_some_iff.mp h
    split at h
    · obtain ⟨x, -, h⟩ := Option.bind_eq_some_iff.mp h
      obtain ⟨s, -, h⟩ := Option.bind_eq_some_iff.mp h
      cases h
    · obtain ⟨x, hx, h⟩ := Option.bind_eq_some_iff.mp h
      obtain ⟨j, hj, h⟩ := Option.bind_eq_some_iff.mp h
      cases h
      obtain ⟨o, ho, hx⟩ := Option.bind_eq_some_iff.mp hx
      obtain ⟨k, hk⟩ := Document.mem_of_onlyField? ho hx
      exact Json.tidy_value? x (hf _ hk) hj
    · cases h
  | @array ds hds =>
    cases ds with
    | nil => cases h
    | cons type fields =>
      obtain ⟨name, -, h⟩ := Option.bind_eq_some_iff.mp h
      split at h
      case h_1 =>
        obtain ⟨s, -, h⟩ := Option.bind_eq_some_iff.mp h
        cases h
      case h_2 =>
        obtain ⟨j, hj, h⟩ := Option.bind_eq_some_iff.mp h
        cases h
        exact Json.tidy_value? _ (hds _ (List.mem_cons_of_mem _ (List.mem_singleton_self _))) hj
      all_goals cases h
  | null | bool | string | number => cases h

/-- **What a tool was called with** in a message is tidy. -/
theorem tidy_toolUse {body : String} (h : blocks? body = some blocks)
    (hmem : .toolUse input ∈ blocks) : Tidy blockRoom input := by
  obtain ⟨d, hd, h⟩ := Option.bind_eq_some_iff.mp h
  obtain ⟨fields, hfields, h⟩ := Option.bind_eq_some_iff.mp h
  have hranged := Document.ranged_of_allFields? (Json.ranged_read? hd) hfields
  split at h
  next content =>
    obtain ⟨list, hlist, h⟩ := Option.bind_eq_some_iff.mp h
    have hcontent := hranged _ List.mem_cons_self list hlist
    cases hcontent with
    | array hitems =>
      obtain ⟨x, hx, hblock⟩ := exists_of_mem_mapM h hmem
      exact tidy_of_ofDocument? (hitems x hx) hblock
    | null | bool | string | number | object => cases h
  next => cases h

/-! ### Answers -/

lemma answer_of_firstCalled (schema : Json) (h : FirstCalled blocks input) :
    answer schema blocks = (unwrap schema input).compact := by
  unfold answer
  rw [toolInput?_eq_some h]

lemma unwrap_of_ofArray (h : OfArray schema) :
    unwrap schema input = (input.field? "items").getD .null :=
  if_pos (asksForArray_iff.mpr h)

lemma tidy_field? {room : Nat} {name : String} {v : Json} (h : Tidy room input)
    (hv : input.field? name = some v) : Tidy room v := by
  cases h with
  | object _ hfields =>
    exact (hfields _ (mem_of_lookup_eq_some hv)).mono (Nat.le_succ _)
  | null | bool | number | string | array => cases hv

lemma readBatch_compact {rows : List Json} (h : Tidy Json.nestingLimit (.array rows))
    (expected : List Nat) : ∃ found, readBatch expected (Json.array rows).compact = .ok found := by
  obtain ⟨v, hv⟩ := Json.exists_value?_printed (.array rows) h
  have hread := readValue_compact.mpr hv
  obtain ⟨vs, -, rfl⟩ := Option.map_eq_some_iff.mp hv
  exact ⟨_, bind_eq_ok.mpr ⟨_, hread, rfl⟩⟩

/-- **An array comes back unwrapped** as it was asked for, and only an array does. -/
theorem unwraps (schema : Json) {blocks : List Block} {input : Json}
    (h : FirstCalled blocks input) : Unwraps schema blocks input := by
  have hanswer := answer_of_firstCalled schema h
  have hitems {v : Json} (harray : OfArray schema) (hv : input.field? "items" = some v) :
      answer schema blocks = v.compact := by
    rw [hanswer, unwrap_of_ofArray harray, hv, Option.getD_some]
  constructor
  case plain =>
    intro hnot
    have hasks := mt asksForArray_iff.mp hnot
    exact ⟨if_neg hasks, by rw [hanswer, unwrap, if_neg hasks]⟩
  case wrapped =>
    intro harray
    rw [toolSchema, if_pos (asksForArray_iff.mpr harray)]
    exact ⟨rfl, rfl, rfl⟩
  case items => exact fun harray v hv => hitems harray hv
  case rows =>
    intro harray rows hrows expected
    rw [hitems harray hrows]
    refine ⟨rfl, fun htidy => readBatch_compact ?_ expected⟩
    rcases htidy with htidy | ⟨body, hbody⟩
    · exact htidy
    · obtain ⟨before, after, rfl, -⟩ := h
      exact (tidy_field? (tidy_toolUse hbody (by simp)) hrows).mono (by decide)
  case missing =>
    intro harray hnone expected
    have hread : readValue Json.null.compact = .ok .null := readValue_compact.mpr rfl
    rw [hanswer, unwrap_of_ofArray harray, hnone, Option.getD_none, readBatch, hread]
    rfl
  case only =>
    intro harray expected found hfound
    obtain ⟨rows, hrows⟩ := exists_rows hfound
    rw [hanswer, unwrap_of_ofArray harray] at hrows
    obtain ⟨xs, hxs⟩ := exists_array_of_value?_printed (readValue_compact.mp hrows)
    cases hfield : input.field? "items" with
    | some v =>
      rw [hfield, Option.getD_some] at hxs
      exact ⟨xs, by rw [hxs]⟩
    | none =>
      rw [hfield] at hxs
      cases hxs

def twoCalls (items : Json) : List Block :=
  [.text "thinking", .other, .toolUse (.object [("items", items)]), .toolUse .null]

theorem unwraps_twoCalls :
    Unwraps batchSchema (twoCalls (.array [.object [("index", .number (.integer 0))]]))
      (.object [("items", .array [.object [("index", .number (.integer 0))]])]) ∧
    answer batchSchema (twoCalls (.array [.object [("index", .number (.integer 0))]])) =
      "[\x7b\"index\":0\x7d]" :=
  ⟨unwraps batchSchema ⟨[.text "thinking", .other], [.toolUse .null], rfl, by simp⟩, rfl⟩

end Messages

end Tariff.Generation
