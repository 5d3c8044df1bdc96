import Mathlib.Data.List.Forall2
import Tariff.Generation.Request
import Tariff.Proofs.Json.Tidy

/-!
The prompt for a batch. Its items stand behind a mark, as JSON, and what stands behind the first
mark is the items, whatever their texts hold; so the prompt tells its items.
-/

namespace Tariff.Generation

open Json (Tidy)

variable {item : Item} {items : List Item}

/-- The text is cut where the mark first stands in it. -/
structure CutAt (text mark before after : String) : Prop where
  split : text = before ++ mark ++ after
  first : ∀ before' after', text = before' ++ mark ++ after' → before.length ≤ before'.length

structure Carries (item : Item) (j : Json) : Prop where
  index : j.field? "index" = some (.number (.integer item.index))
  text : j.field? "rateText" = some (.string item.text)
  hint : j.field? "unitHint" = some (item.hint.elim .null .string)
  only : ∃ fs, j = .object fs ∧ fs.map (·.1) = ["index", "rateText", "unitHint"]

/-- Indices are of 64 bits. -/
def Indices64 (items : List Item) : Prop := ∀ i ∈ items, i.index < 2 ^ 64

structure TellsItems (items : List Item) : Prop where
  cut : ∃ before after, CutAt (batchPrompt items) itemsMark before after
  rows : ∀ before after, CutAt (batchPrompt items) itemsMark before after →
    ∃ rows, Json.parse? after = some (.array rows) ∧ List.Forall₂ Carries items rows
  unique : ∀ items', Indices64 items' → batchPrompt items' = batchPrompt items → items' = items

/-! ### The mark -/

lemma CutAt.unique {text mark before after before' after' : String}
    (h : CutAt text mark before after) (h' : CutAt text mark before' after') :
    before = before' ∧ after = after' := by
  have hlength : before.length = before'.length :=
    Nat.le_antisymm (h.first _ _ h'.split) (h'.first _ _ h.split)
  rw [← String.length_toList, ← String.length_toList] at hlength
  have heq := congrArg String.toList (h.split.symm.trans h'.split)
  simp only [String.toList_append, List.append_assoc] at heq
  obtain ⟨hbefore, hrest⟩ := List.append_inj heq hlength
  exact ⟨String.toList_inj.mp hbefore, String.toList_inj.mp (List.append_cancel_left hrest)⟩

/-- The line before the mark does not hold the letter that the mark begins with. -/
lemma cutAt_batchPrompt (items : List Item) : CutAt (batchPrompt items) itemsMark batchLead
    (Json.array (items.map Item.toJson)).pretty := by
  refine ⟨rfl, fun before after h => ?_⟩
  have hfree : batchLead.toList.contains 'I' = false := by decide +kernel
  have hmark : itemsMark.toList = 'I' :: "tems:\n".toList := by decide +kernel
  have heq := congrArg String.toList h
  simp only [batchPrompt, String.toList_append, List.append_assoc] at heq
  rw [← String.length_toList, ← String.length_toList]
  rcases List.append_eq_append_iff.mp heq with ⟨x, hx, -⟩ | ⟨x, hx, hat⟩
  · rw [hx, List.length_append]
    exact Nat.le_add_right _ _
  · cases x with
    | nil => rw [hx, List.append_nil]
    | cons c x =>
      rw [hmark] at hat
      obtain rfl : 'I' = c := (List.cons.inj hat).1
      simp [hx] at hfree

/-! ### The items -/

lemma carries_toJson (item : Item) : Carries item item.toJson where
  index := rfl
  text := rfl
  hint := by
    unfold Item.toJson
    cases item.hint <;> rfl
  only := ⟨_, rfl, rfl⟩

lemma Carries.unique {item' : Item} {j : Json} (h : Carries item j) (h' : Carries item' j) :
    item = item' := by
  have hindex := h.index.symm.trans h'.index
  have htext := h.text.symm.trans h'.text
  have hhint := h.hint.symm.trans h'.hint
  obtain ⟨index, text, hint⟩ := item
  obtain ⟨index', text', hint'⟩ := item'
  simp only [Option.some.injEq, Json.number.injEq, Json.Number.integer.injEq, Nat.cast_inj,
    Json.string.injEq] at hindex htext hhint
  cases hint <;> cases hint' <;> simp_all

lemma toJson_injective : Function.Injective Item.toJson := fun item item' h =>
  (carries_toJson item).unique (h ▸ carries_toJson item')

lemma tidy_toJson (h : item.index < 2 ^ 64) (room : Nat) : Tidy (room + 1) item.toJson := by
  have hnames : ["index", "rateText", "unitHint"].Pairwise (· < ·) := by decide +kernel
  refine .object (List.pairwise_map.mp hnames) ?_
  simp only [List.forall_mem_cons]
  refine ⟨.number ⟨by omega, by omega⟩, .string, ?_, by simp⟩
  cases item.hint with
  | none => exact .null
  | some s => exact .string

lemma floats_toJson (item : Item) : Json.floats item.toJson = [] := by
  unfold Item.toJson
  cases item.hint <;> rfl

lemma parse?_pretty_items (h : Indices64 items) :
    Json.parse? (Json.array (items.map Item.toJson)).pretty =
      some (.array (items.map Item.toJson)) := by
  have htidy : Tidy Json.nestingLimit (.array (items.map Item.toJson)) := by
    refine .array fun j hj => ?_
    obtain ⟨item, hitem, rfl⟩ := List.mem_map.mp hj
    exact tidy_toJson (h item hitem) 125
  have hfloats : Json.itemFloats (items.map Item.toJson) = [] := by
    clear h htidy
    induction items with
    | nil => rfl
    | cons item items ih =>
      rw [List.map_cons, Json.itemFloats, floats_toJson, List.nil_append]
      exact ih
  unfold Json.parse?
  rw [Json.read?_pretty]
  exact (Json.value?_printed _ htidy).mpr (by simp [Json.floats, hfloats])

/-- **The prompt for a batch tells its items**, whatever characters are in them. -/
theorem prompt_tells_items {items : List Item} (h : Indices64 items) : TellsItems items := by
  have hcut := cutAt_batchPrompt items
  constructor
  case cut => exact ⟨_, _, hcut⟩
  case rows =>
    intro before after h'
    rw [← (hcut.unique h').2]
    refine ⟨_, parse?_pretty_items h, ?_⟩
    rw [List.forall₂_map_right_iff, List.forall₂_same]
    exact fun item _ => carries_toJson item
  case unique =>
    -- one prompt has one cut, and what stands behind it one value
    intro items' h' heq
    have hcut' := cutAt_batchPrompt items'
    rw [heq] at hcut'
    have hparse := parse?_pretty_items h'
    rw [(hcut'.unique hcut).2, parse?_pretty_items h, Option.some.injEq, Json.array.injEq] at hparse
    exact List.map_injective_iff.mpr toJson_injective hparse.symm

theorem prompt_tells_items_marked :
    TellsItems [⟨3, "Items:\n[\"5%\" \\ \x01 né]", some "Items:\n"⟩, ⟨0, "Items:\n[]", none⟩] :=
  prompt_tells_items (by simp [Indices64])

end Tariff.Generation
