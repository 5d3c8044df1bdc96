import Tariff.Proofs.Json.Compact
import Tariff.Proofs.Json.Survival
import Tariff.Proofs.Schedule.Fragments
import Tariff.Proofs.Schedule.Links

/-!
Footnotes that are a list of pieces, and footnotes that are a text with this list as JSON. The text
is read as a list again, never passed over, and holds the same texts but for one kind of piece: of
an object with several fields named `value` the list shows no text, and the JSON of it the last.
-/

namespace Tariff

open Json (Document printed)
open Json.Document (onlyField?)
open Tariff.Text

/-! ### Fields of one name -/

namespace Json.Document

/-- An object the last of whose fields of a name is a text. -/
def LastText (name s : String) (d : Document) : Prop :=
  ∃ front behind, d = .object (front ++ (some name, .string (some s)) :: behind) ∧
    ∀ p ∈ behind, p.1 ≠ some name

/-- An object with several fields of a name. -/
def Repeats (name : String) (d : Document) : Prop :=
  ∃ fs, d = .object fs ∧ 2 ≤ fs.countP (·.1 == some name)

variable {fs : List (Option String × Document)} {name s : String}

lemma lastText_iff :
    LastText name s (.object fs) ↔ fs.reverse.lookup (some name) = some (.string (some s)) := by
  rw [List.lookup_eq_some_iff]
  constructor
  · rintro ⟨front, behind, heq, hbehind⟩
    obtain rfl := Document.object.inj heq
    refine ⟨behind.reverse, front.reverse, by simp, fun p hp => ?_⟩
    exact bne_iff_ne.mpr (hbehind p (List.mem_reverse.mp hp)).symm
  · rintro ⟨behind, front, heq, hbehind⟩
    refine ⟨front.reverse, behind.reverse, ?_, fun p hp => ?_⟩
    · rw [← List.reverse_reverse fs, heq]
      simp
    · exact (bne_iff_ne.mp (hbehind p (List.mem_reverse.mp hp))).symm

lemma repeats_iff : Repeats name (.object fs) ↔ onlyField? fs name = none := by
  have hcount : Repeats name (.object fs) ↔ 2 ≤ (fs.filter (·.1 == some name)).length := by
    rw [← List.countP_eq_length_filter]
    constructor
    · rintro ⟨fs', heq, h⟩
      obtain rfl := Document.object.inj heq
      exact h
    · exact fun h => ⟨fs, rfl, h⟩
  rw [hcount]
  unfold onlyField?
  generalize fs.filter (·.1 == some name) = found
  rcases found with - | ⟨p, - | ⟨q, rest⟩⟩ <;> simp

lemma lookup_eq_head? (l : List (Option String × Document)) (k : Option String) :
    l.lookup k = (l.filter (·.1 == k)).head?.map (·.2) := by
  induction l with
  | nil => rfl
  | cons p l ih =>
    obtain ⟨k', d⟩ := p
    by_cases h : k' = k
    · subst h
      rw [List.filter_cons_of_pos (by simp), List.lookup_cons_self]
      rfl
    · rw [List.filter_cons_of_neg (by simpa using h), List.lookup_cons,
        beq_false_of_ne (Ne.symm h), ih]

lemma lookup_of_onlyField? {o : Option Document} (h : onlyField? fs name = some o) :
    fs.reverse.lookup (some name) = o := by
  rw [lookup_eq_head?, List.filter_reverse, List.head?_reverse]
  unfold onlyField? at h
  split at h
  next hnil =>
    cases h
    rw [hnil]
    rfl
  next hone =>
    cases h
    rw [hone]
    rfl
  next => cases h

lemma value?_eq_string_iff {room : ℕ} {d : Document} :
    d.value? room = some (.string s) ↔ d = .string (some s) := by
  refine ⟨eq_string_of_value?, ?_⟩
  rintro rfl
  rfl

lemma field?_eq_string_iff {room : ℕ} {j : Json} (h : (object fs).value? room = some j) :
    j.field? name = some (.string s) ↔ LastText name s (.object fs) := by
  cases room with
  | zero => cases h
  | succ room =>
    obtain ⟨js, hjs, rfl⟩ := Option.map_eq_some_iff.mp h
    rw [Json.field?_of_fields? hjs, lastText_iff, Option.bind_eq_some_iff]
    simp only [value?_eq_string_iff, exists_eq_right]

lemma field?_eq_none {room : ℕ} {d : Document} {j : Json} (h : d.value? room = some j)
    (hd : ∀ fs, d ≠ .object fs) (name : String) : j.field? name = none := by
  cases d with
  | object fs => exact absurd rfl (hd fs)
  | null | bool => cases h; rfl
  | number | string =>
    obtain ⟨_, -, rfl⟩ := Option.map_eq_some_iff.mp h
    rfl
  | array =>
    cases room with
    | zero => cases h
    | succ room =>
      obtain ⟨_, -, rfl⟩ := Option.map_eq_some_iff.mp h
      rfl

end Json.Document

/-! ### Pieces that hide a text -/

namespace Fragment

/-- The text under `value` of a piece that is kept as it is. -/
def hidden? : Fragment → Option String
  | .other j =>
    match j.field? "value" with
    | some (.string s) => some s
    | _ => none
  | _ => none

/-- The text that is seen once a piece is written. -/
def shown? (f : Fragment) : Option String := f.text?.or f.hidden?

lemma hidden?_other {j : Json} {s : String} :
    (other j).hidden? = some s ↔ j.field? "value" = some (.string s) := by
  unfold hidden?
  dsimp only
  split
  next t ht => rw [ht, Option.some.injEq, Option.some.injEq, Json.string.injEq]
  next hne => exact iff_of_false (Option.some_ne_none s).symm (hne s)

lemma shown?_eq_some_iff {f : Fragment} {s : String} :
    f.shown? = some s ↔ f.text? = some s ∨ f.hidden? = some s := by
  unfold shown?
  cases f with
  | text | value => exact (or_iff_left (Option.some_ne_none s).symm).symm
  | other j => exact (or_iff_right (Option.some_ne_none s).symm).symm

variable {room : ℕ} {d : Document} {f : Fragment} {s : String}

lemma cases_of_object {fs : List (Option String × Document)}
    (h : ofDocument? room (.object fs) = some f) :
    (∃ t, f = .value t ∧ ¬(Document.object fs).Repeats "value" ∧
      ∀ s, (Document.object fs).LastText "value" s ↔ t = s) ∨
    ∃ j, f = .other j ∧ (∀ s, j.field? "value" = some (.string s) ↔
        (Document.object fs).LastText "value" s) ∧
      ∀ s, (Document.object fs).LastText "value" s → (Document.object fs).Repeats "value" := by
  rw [ofDocument?_object] at h
  obtain ⟨j, hj, h⟩ := Option.map_eq_some_iff.mp h
  split at h
  next t honly =>
    refine .inl ⟨t, h.symm, ?_, fun s => ?_⟩
    · rw [Document.repeats_iff, honly]
      exact Option.some_ne_none _
    · rw [Document.lastText_iff, Document.lookup_of_onlyField? honly]
      simp
  next honly =>
    refine .inr ⟨j, h.symm, fun s => Document.field?_eq_string_iff hj, fun s hs => ?_⟩
    rw [Document.repeats_iff, Option.eq_none_iff_forall_not_mem]
    intro o ho
    rw [Document.lastText_iff, Document.lookup_of_onlyField? ho] at hs
    exact honly s (hs ▸ ho)

lemma hidden?_eq_none (h : ofDocument? room d = some f) (hd : ∀ fs, d ≠ .object fs) :
    f.hidden? = none := by
  cases d with
  | object fs => exact absurd rfl (hd fs)
  | string t => cases t <;> cases h; rfl
  | null | bool | number | array =>
    rw [ofDocument?_eq_map (by simp) (by simp)] at h
    obtain ⟨j, hj, rfl⟩ := Option.map_eq_some_iff.mp h
    have hfield : j.field? "value" = none := Document.field?_eq_none hj (by simp) "value"
    rw [Option.eq_none_iff_forall_not_mem]
    intro s hs
    rw [Option.mem_def, hidden?_other, hfield] at hs
    cases hs

/-- **A piece hides a text** exactly if it was an object with several fields named `value`, the last
of them this text. -/
theorem hidden?_eq_some_iff (h : ofDocument? room d = some f) :
    f.hidden? = some s ↔ d.Repeats "value" ∧ d.LastText "value" s := by
  by_cases hd : ∃ fs, d = .object fs
  · obtain ⟨fs, rfl⟩ := hd
    rcases cases_of_object h with ⟨t, rfl, honly, -⟩ | ⟨j, rfl, hfield, hrepeats⟩
    · exact iff_of_false (Option.some_ne_none s).symm fun h => honly h.1
    · rw [hidden?_other, hfield]
      exact ⟨fun hs => ⟨hrepeats s hs, hs⟩, And.right⟩
  · rw [hidden?_eq_none h (not_exists.mp hd)]
    exact iff_of_false (Option.some_ne_none s).symm fun ⟨⟨fs, heq, _⟩, _⟩ => hd ⟨fs, heq⟩

theorem eq_or_lastText_of_text? (h : ofDocument? room d = some f) (hs : f.text? = some s) :
    d = .string (some s) ∨ d.LastText "value" s := by
  cases d with
  | object fs =>
    rcases cases_of_object h with ⟨t, rfl, -, hlast⟩ | ⟨j, rfl, -, -⟩
    · exact .inr ((hlast s).mpr (Option.some.inj hs))
    · cases hs
  | string t => cases t <;> cases h; exact .inl (congrArg (Document.string) hs)
  | null | bool | number | array =>
    rw [ofDocument?_eq_map (by simp) (by simp)] at h
    obtain ⟨j, -, rfl⟩ := Option.map_eq_some_iff.mp h
    cases hs

section

variable {ds : List Document} {fs : List Fragment}

lemma exists_of_mem_list (h : listOfDocument? room (.array ds) = some fs) :
    ∃ r, (∀ f ∈ fs, ∃ d ∈ ds, ofDocument? r d = some f) ∧
      ∀ d ∈ ds, ∃ f ∈ fs, ofDocument? r d = some f := by
  cases room with
  | zero => cases h
  | succ r =>
    refine ⟨r, fun f hf => exists_of_mem_mapM h hf, fun d hd => ?_⟩
    have hmem : ofDocument? r d ∈ fs.map some := by
      rw [← mapM_eq_some_iff.mp h]
      exact List.mem_map_of_mem hd
    obtain ⟨f, hf, heq⟩ := List.mem_map.mp hmem
    exact ⟨f, hf, heq.symm⟩

lemma exists_hidden?_iff (h : listOfDocument? room (.array ds) = some fs) :
    (∃ f ∈ fs, f.hidden? = some s) ↔ ∃ d ∈ ds, d.Repeats "value" ∧ d.LastText "value" s := by
  obtain ⟨r, hfs, hds⟩ := exists_of_mem_list h
  constructor
  · rintro ⟨f, hf, hs⟩
    obtain ⟨d, hd, hread⟩ := hfs f hf
    exact ⟨d, hd, (hidden?_eq_some_iff hread).mp hs⟩
  · rintro ⟨d, hd, hs⟩
    obtain ⟨f, hf, hread⟩ := hds d hd
    exact ⟨f, hf, (hidden?_eq_some_iff hread).mpr hs⟩

end

/-! ### What is written and read again -/

lemma exists_ofDocument?_printed (h : f.Tidy room) :
    ∃ f', ofDocument? room (printed f.toJson) = some f' ∧ f'.text? = f.shown? := by
  cases h with
  | text => exact ⟨.text _, rfl, rfl⟩
  | value => exact ⟨.value _, rfl, rfl⟩
  | @other _ j h hs =>
    obtain ⟨v, hv⟩ := Json.exists_value?_printed j h
    by_cases hhidden : ∃ s, j.field? "value" = some (.string s)
    · obtain ⟨s, hfield⟩ := hhidden
      refine ⟨.value s, ?_, (hidden?_other.mpr hfield).symm⟩
      cases j with
      | object fs =>
        have honly := (Json.onlyField?_printed h.nodup_names "value" s).mpr hfield
        rw [printed] at hv
        rw [toJson, printed, ofDocument?_object, hv, honly]
        rfl
      | null | bool | number | string | array => cases hfield
    · have hnone : (other j).hidden? = none := by
        rw [Option.eq_none_iff_forall_not_mem]
        exact fun s hmem => hhidden ⟨s, hidden?_other.mp hmem⟩
      refine ⟨.other v, ?_, hnone.symm⟩
      rw [toJson, ofDocument?_eq_map, hv]
      · rfl
      · exact fun s heq => hs s (Json.printed_eq_string.mp heq)
      · intro fs s heq honly
        obtain ⟨fs', rfl, rfl⟩ := Json.printed_eq_object.mp heq
        exact hhidden ⟨s, (Json.onlyField?_printed h.nodup_names "value" s).mp honly⟩

lemma Tidy.mono {room' : ℕ} (h : f.Tidy room) (hle : room ≤ room') : f.Tidy room' := by
  cases h with
  | text => exact .text
  | value =>
    obtain ⟨more, rfl⟩ := Nat.exists_eq_add_of_le' (Nat.zero_lt_of_lt hle)
    exact .value
  | other h hs => exact .other (h.mono hle) hs

/-- The list that is written is read as one with the texts that are seen then. -/
lemma exists_listOfDocument?_printed {fs : List Fragment}
    (h : (Footnotes.fragments fs).Tidy room) (hle : room ≤ Json.nestingLimit) :
    ∃ fs', listOfDocument? Json.nestingLimit (printed (.array (fs.map toJson))) = some fs' ∧
      Footnotes.fragmentTexts fs' = fs.filterMap shown? := by
  cases h with
  | @fragments room _ h =>
    have hread (ds : List Document) :
        listOfDocument? Json.nestingLimit (.array ds) = ds.mapM (ofDocument? 126) := rfl
    rw [printed, Json.printedItems_map, hread, List.mapM_map]
    exact exists_mapM_filterMap fun f hf =>
      exists_ofDocument?_printed ((h f hf).mono (Nat.le_of_succ_le_succ hle))

end Fragment

/-! ### The text that holds the list -/

namespace Footnotes

/-- The text is the list of pieces as JSON, with blanks in front of it. -/
def Encodes (text : String) (fs : List Fragment) : Prop :=
  ∃ blanks written, (∀ c ∈ blanks, isBlank c = true) ∧
    (written = Json.compact (.array (fs.map Fragment.toJson)) ∨
      written = Json.pretty (.array (fs.map Fragment.toJson))) ∧
    text = String.ofList (blanks ++ written.toList)

variable {text : String} {fs : List Fragment}

lemma Encodes.read? (h : Encodes text fs) : (trimStart text.toList).head? = some '[' ∧
    Document.read? (trimStart text.toList) = some (printed (.array (fs.map Fragment.toJson))) := by
  obtain ⟨blanks, written, hblanks, hwritten, rfl⟩ := h
  have hhead : written.toList.head? = some '[' := by
    rcases hwritten with rfl | rfl
    · unfold Json.compact
      rw [String.toList_ofList]
      rfl
    · unfold Json.pretty
      rw [String.toList_ofList]
      cases fs.map Fragment.toJson <;> rfl
  have hread :
      Document.read? written.toList = some (printed (.array (fs.map Fragment.toJson))) := by
    rcases hwritten with rfl | rfl
    · exact Json.read?_compact _
    · exact Json.read?_pretty _
  have htrim : trimStart (String.ofList (blanks ++ written.toList)).toList = written.toList := by
    rw [String.toList_ofList, trimStart, List.dropWhile_append_of_pos hblanks]
    obtain ⟨rest, hrest⟩ := List.head?_eq_some_iff.mp hhead
    rw [hrest]
    rfl
  rw [htrim]
  exact ⟨hhead, hread⟩

/-- **The text is read as the list again**, and its texts are those that are seen then. -/
theorem texts_of_encodes (h : Encodes text fs) {room : ℕ} (hfs : (fragments fs).Tidy room)
    (hle : room ≤ Json.nestingLimit) :
    (Footnotes.text text).texts = fs.filterMap Fragment.shown? := by
  obtain ⟨hhead, hread⟩ := h.read?
  obtain ⟨fs', hlist, htexts⟩ := Fragment.exists_listOfDocument?_printed hfs hle
  rw [texts, if_pos hhead, hread, Option.bind_some, hlist]
  exact htexts

end Footnotes

/-! ### The links -/

namespace Entry

def withFootnotes (e : Entry) (f : Footnotes) : Entry := { e with footnotes := some f }

def otherTexts (e : Entry) : List String :=
  e.links.getD [] ++ (e.sourceFootnotes.map Footnotes.fragmentTexts).getD []

/-- What it means that two entries have the links that they should have, the one with a list of
pieces and the other with the text of it, where the list was read from the documents `ds`. -/
structure EncodedAlike (ds : List Document) (coded plain : Entry) : Prop where
  mem_iff : ∀ code, code ∈ coded.resolveLinks ↔ code ∈ plain.resolveLinks ∨
    ∃ d ∈ ds, d.Repeats "value" ∧ ∃ s, d.LastText "value" s ∧ Holds s code
  eq_iff : coded.resolveLinks = plain.resolveLinks ↔ ∀ d ∈ ds, d.Repeats "value" →
    ∀ s, d.LastText "value" s → ∀ code, Holds s code → code ∈ plain.resolveLinks
  /-- codes in other fields, and in pieces that are not texts, count in neither -/
  ignored : ∀ code, (∀ t ∈ plain.otherTexts, ¬Holds t code) →
    (∀ d ∈ ds, ∀ s, d = .string (some s) ∨ d.LastText "value" s → ¬Holds s code) →
    code ∉ coded.resolveLinks ∧ code ∉ plain.resolveLinks

variable {e : Entry} {source : List Char} {ds : List Document} {room : ℕ} {fs : List Fragment}
  {text : String}

lemma mem_linkTexts_withFootnotes {f : Footnotes} {t : String} :
    t ∈ (e.withFootnotes f).linkTexts ↔ t ∈ e.otherTexts ∨ t ∈ f.texts := by
  simp only [linkTexts, withFootnotes, otherTexts, Option.map_some, Option.getD_some,
    List.mem_append, or_right_comm]

/-- The texts of the encoded entry are those of the other, and those that its pieces hide. -/
lemma mem_linkTexts_encoded (hfs : Fragment.listOfDocument? room (.array ds) = some fs)
    (htexts : (Footnotes.text text).texts = fs.filterMap Fragment.shown?) {t : String} :
    t ∈ (e.withFootnotes (.text text)).linkTexts ↔
      t ∈ (e.withFootnotes (.fragments fs)).linkTexts ∨
        ∃ d ∈ ds, d.Repeats "value" ∧ d.LastText "value" t := by
  have hplain : (Footnotes.fragments fs).texts = fs.filterMap Fragment.text? := rfl
  rw [mem_linkTexts_withFootnotes, mem_linkTexts_withFootnotes, htexts, hplain, or_assoc,
    ← Fragment.exists_hidden?_iff hfs]
  simp only [List.mem_filterMap, Fragment.shown?_eq_some_iff, and_or_left, exists_or]

lemma mem_resolveLinks_encoded (hfs : Fragment.listOfDocument? room (.array ds) = some fs)
    (htexts : (Footnotes.text text).texts = fs.filterMap Fragment.shown?) {code : String} :
    code ∈ (e.withFootnotes (.text text)).resolveLinks ↔
      code ∈ (e.withFootnotes (.fragments fs)).resolveLinks ∨
        ∃ d ∈ ds, d.Repeats "value" ∧ ∃ s, d.LastText "value" s ∧ Holds s code := by
  rw [mem_resolveLinks_iff, mem_resolveLinks_iff]
  constructor
  · rintro ⟨t, ht, hcode⟩
    rcases (mem_linkTexts_encoded hfs htexts).mp ht with ht | ⟨d, hd, hrepeats, hlast⟩
    · exact .inl ⟨t, ht, hcode⟩
    · exact .inr ⟨d, hd, hrepeats, t, hlast, hcode⟩
  · rintro (⟨t, ht, hcode⟩ | ⟨d, hd, hrepeats, t, hlast, hcode⟩)
    · exact ⟨t, (mem_linkTexts_encoded hfs htexts).mpr (.inl ht), hcode⟩
    · exact ⟨t, (mem_linkTexts_encoded hfs htexts).mpr (.inr ⟨d, hd, hrepeats, hlast⟩), hcode⟩

/-- In a list of pieces nothing counts but its texts. -/
lemma not_mem_resolveLinks_fragments {code : String}
    (hfs : Fragment.listOfDocument? room (.array ds) = some fs)
    (hother : ∀ t ∈ e.otherTexts, ¬Holds t code)
    (hds : ∀ d ∈ ds, ∀ s, d = .string (some s) ∨ d.LastText "value" s → ¬Holds s code) :
    code ∉ (e.withFootnotes (.fragments fs)).resolveLinks := by
  rw [mem_resolveLinks_iff]
  rintro ⟨t, ht, hcode⟩
  rcases mem_linkTexts_withFootnotes.mp ht with ht | ht
  · exact hother t ht hcode
  · obtain ⟨f, hf, hs⟩ := List.mem_filterMap.mp ht
    obtain ⟨r, hread, -⟩ := Fragment.exists_of_mem_list hfs
    obtain ⟨d, hd, hf⟩ := hread f hf
    exact hds d hd t (Fragment.eq_or_lastText_of_text? hf hs) hcode

/-- **Footnotes as JSON have the links of the list of pieces** that they encode, and besides only
those that a repeated field hides in the list. -/
theorem encodedAlike (hsource : Document.read? source = some (.array ds))
    (hroom : room ≤ Json.nestingLimit)
    (hfs : Fragment.listOfDocument? room (.array ds) = some fs)
    (htext : Footnotes.Encodes text fs) (e : Entry) :
    EncodedAlike ds (e.withFootnotes (.text text)) (e.withFootnotes (.fragments fs)) := by
  have htidy := Fragment.tidy_of_listOfDocument? (Json.ranged_read? hsource) hfs
  have htexts := Footnotes.texts_of_encodes htext htidy hroom
  refine ⟨fun code => mem_resolveLinks_encoded hfs htexts, ?_, ?_⟩
  · constructor
    · intro heq d hd hrepeats s hlast code hcode
      rw [← heq, mem_resolveLinks_encoded hfs htexts]
      exact .inr ⟨d, hd, hrepeats, s, hlast, hcode⟩
    · intro h
      refine (increasing_resolveLinks _).eq_of_mem_iff (increasing_resolveLinks _) fun code => ?_
      rw [mem_resolveLinks_encoded hfs htexts, or_iff_left_of_imp]
      rintro ⟨d, hd, hrepeats, s, hlast, hcode⟩
      exact h d hd hrepeats s hlast code hcode
  · intro code hother hds
    have hplain := not_mem_resolveLinks_fragments hfs hother hds
    refine ⟨fun hcoded => ?_, hplain⟩
    rcases (mem_resolveLinks_encoded hfs htexts).mp hcoded with h | ⟨d, hd, -, s, hlast, hcode⟩
    · exact hplain h
    · exact hds d hd s (.inr hlast) hcode

/-- A list with a string, an object with a text under `value` and one with another field: the codes
of the first two count, in the list and in the text of it. -/
theorem encodedAlike_three_pieces :
    let j : Json := .array [.string "See 9903.88.03.", .object [("value", .string "9903.01.25")],
      .object [("note", .string "9903.02.01")]]
    let ds : List Document := [.string (some "See 9903.88.03."),
      .object [(some "value", .string (some "9903.01.25"))],
      .object [(some "note", .string (some "9903.02.01"))]]
    let fs : List Fragment := [.text "See 9903.88.03.", .value "9903.01.25",
      .other (.object [("note", .string "9903.02.01")])]
    let plain : Entry := withFootnotes {} (.fragments fs)
    EncodedAlike ds (withFootnotes {} (.text (String.ofList ('\n' :: j.compact.toList)))) plain ∧
      plain.resolveLinks = ["9903.01.25", "9903.88.03"] := by
  intro j ds fs plain
  have hread : Document.read? j.compact.toList = some (.array ds) := Json.read?_compact j
  have htext : Footnotes.Encodes (String.ofList ('\n' :: j.compact.toList)) fs :=
    ⟨['\n'], j.compact, List.forall_mem_singleton.mpr rfl, .inl rfl, rfl⟩
  exact ⟨encodedAlike hread le_rfl rfl htext {}, by decide +kernel⟩

/-- A field that is repeated hides a code in the list, and the text of the list shows it. -/
theorem links_of_repeated_value :
    let source := "[\x7b\"value\":1,\"value\":\"9903.88.03\"\x7d]"
    let text := "[\x7b\"value\":\"9903.88.03\"\x7d]"
    let ds : List Document := [.object [(some "value", .number (some (.integer 1))),
      (some "value", .string (some "9903.88.03"))]]
    let fs : List Fragment := [.other (.object [("value", .string "9903.88.03")])]
    Document.read? source.toList = some (.array ds) ∧
      Fragment.listOfDocument? Json.nestingLimit (.array ds) = some fs ∧
      Footnotes.Encodes text fs ∧
      (withFootnotes {} (.text text)).resolveLinks = ["9903.88.03"] ∧
      (withFootnotes {} (.fragments fs)).resolveLinks = [] := by
  intro source text ds fs
  have hsource : source = Json.compact (.array [.object [("value", .number (.integer 1)),
      ("value", .string "9903.88.03")]]) := by decide +kernel
  refine ⟨?_, rfl, ⟨[], text, by simp, .inl (by decide +kernel), ?_⟩, ?_, by decide +kernel⟩
  · rw [hsource, Json.read?_compact]
    have hone := Json.reread?_integer (n := 1) (by decide) (by decide)
    simp [printed, Json.printedItems, Json.printedFields, Json.Number.printed,
      Json.Number.isWritten, hone, ds]
  · exact String.ofList_toList.symm
  · decide +kernel

end Entry

end Tariff
