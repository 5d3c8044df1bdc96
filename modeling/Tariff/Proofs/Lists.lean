import Mathlib.Data.List.Nodup
import Mathlib.Tactic.Common
import Tariff.Chunks

/-!
Lists: what a lookup finds, and mapping by a function that may fail, where the whole succeeds when
every element does. Pieces of a list, none of them empty or too long.
-/

namespace Tariff

variable {α β ε : Type}

lemma mem_of_lookup_eq_some [BEq α] [LawfulBEq α] {l : List (α × β)} {a : α} {b : β}
    (h : l.lookup a = some b) : (a, b) ∈ l := by
  obtain ⟨l₁, l₂, rfl, -⟩ := List.lookup_eq_some_iff.mp h
  exact List.mem_append_right _ List.mem_cons_self

/-- A piece of two lists joined is a piece of one of them, or goes across the border. -/
lemma cases_of_append_eq {s t before l after : List α} (h : s ++ t = before ++ (l ++ after)) :
    (∃ x, s = before ++ (l ++ x) ∧ after = x ++ t) ∨
      (∃ x, before = s ++ x ∧ t = x ++ (l ++ after)) ∨
      ∃ l₁ l₂, l₁ ≠ [] ∧ l₂ ≠ [] ∧ l = l₁ ++ l₂ ∧ s = before ++ l₁ ∧ t = l₂ ++ after := by
  rcases List.append_eq_append_iff.mp h with ⟨x, hbefore, ht⟩ | ⟨l₁, hs, h⟩
  · exact .inr (.inl ⟨x, hbefore, ht⟩)
  rcases List.append_eq_append_iff.mp h with ⟨x, hl, hafter⟩ | ⟨l₂, hl, ht⟩
  · exact .inl ⟨x, by rw [hs, hl], hafter⟩
  rcases eq_or_ne l₁ [] with rfl | h₁
  · exact .inr (.inl ⟨[], by rw [hs]; simp, by rw [ht, hl]; simp⟩)
  rcases eq_or_ne l₂ [] with rfl | h₂
  · exact .inl ⟨[], by rw [hs, hl]; simp, by rw [ht]; simp⟩
  exact .inr (.inr ⟨l₁, l₂, h₁, h₂, hl, hs, ht⟩)

/-- Where only one element has a property, it is found in any order. -/
lemma find?_eq_of_perm {p : α → Bool} {l l' : List α} (hperm : l'.Perm l)
    (hone : ∀ a ∈ l, ∀ b ∈ l, p a = true → p b = true → a = b) : l'.find? p = l.find? p := by
  cases hfind : l.find? p with
  | none =>
    rw [List.find?_eq_none] at hfind ⊢
    exact fun a ha => hfind a (hperm.mem_iff.mp ha)
  | some a =>
    have hmem := List.mem_of_find?_eq_some hfind
    have ha := List.find?_some hfind
    obtain ⟨b, hb⟩ := Option.isSome_iff_exists.mp
      (List.find?_isSome.mpr ⟨a, hperm.mem_iff.mpr hmem, ha⟩)
    rw [hb, hone b (hperm.mem_iff.mp (List.mem_of_find?_eq_some hb)) a hmem (List.find?_some hb) ha]

lemma exists_of_findSome?_range {f : Nat → Option α} {n : Nat} {a : α}
    (h : (List.range n).findSome? f = some a) : ∃ k, f k = some a ∧ ∀ j < k, f j = none := by
  induction n with
  | zero => cases h
  | succ n ih =>
    rw [List.range_succ, List.findSome?_append, Option.or_eq_some_iff] at h
    rcases h with h | ⟨hnone, h⟩
    · exact ih h
    · rw [List.findSome?_singleton] at h
      exact ⟨n, h, fun j hj => List.findSome?_eq_none_iff.mp hnone j (List.mem_range.mpr hj)⟩

lemma mapM_eq_some {f : α → Option β} {g : α → β} {xs : List α} (h : ∀ x ∈ xs, f x = some (g x)) :
    xs.mapM f = some (xs.map g) := by
  induction xs with
  | nil => rfl
  | cons x xs ih =>
    rw [List.forall_mem_cons] at h
    rw [List.mapM_cons, h.1, ih h.2]
    rfl

lemma mapM_eq_some_iff {f : α → Option β} {xs : List α} {ys : List β} :
    xs.mapM f = some ys ↔ xs.map f = ys.map some := by
  induction xs generalizing ys with
  | nil => cases ys <;> simp
  | cons x xs ih =>
    simp only [List.mapM_cons, Option.bind_eq_bind, Option.bind_eq_some_iff, Option.pure_def,
      Option.some.injEq, List.map_cons]
    constructor
    · rintro ⟨y, hy, zs, hzs, rfl⟩
      rw [List.map_cons, hy, ih.mp hzs]
    · intro h
      obtain ⟨y, zs, rfl, hy, hzs⟩ := List.map_eq_cons_iff.mp h.symm
      exact ⟨y, hy.symm, zs, ih.mpr hzs.symm, rfl⟩

lemma filterMap_of_map_eq {γ : Type} {f : α → Option β} {xs : List α} {ys : List β}
    (h : xs.map f = ys.map some) (g : β → Option γ) :
    ys.filterMap g = xs.filterMap fun x => (f x).bind g := by
  have hl : (ys.map some).filterMap (·.bind g) = ys.filterMap g := List.filterMap_map
  have hr : (xs.map f).filterMap (·.bind g) = xs.filterMap fun x => (f x).bind g :=
    List.filterMap_map
  rw [← hl, ← h, hr]

lemma map_eq_map_of_some {γ : Type} {f : α → Option β} {g : α → γ} {h : β → γ} {xs : List α}
    {ys : List β} (hxs : xs.map f = ys.map some) (hg : ∀ x y, f x = some y → g x = h y) :
    xs.map g = ys.map h := by
  induction xs generalizing ys with
  | nil =>
    cases ys with
    | nil => rfl
    | cons y ys => cases hxs
  | cons x xs ih =>
    cases ys with
    | nil => cases hxs
    | cons y ys =>
      obtain ⟨hx, hxs⟩ := List.cons.inj hxs
      rw [List.map_cons, List.map_cons, hg x y hx, ih hxs]

lemma isSome_of_map_eq {f : α → Option β} {xs : List α} {ys : List β}
    (h : xs.map f = ys.map some) : ∀ x ∈ xs, (f x).isSome = true := by
  intro x hx
  have hmem : f x ∈ ys.map some := by
    rw [← h]
    exact List.mem_map_of_mem hx
  obtain ⟨y, -, hy⟩ := List.mem_map.mp hmem
  rw [← hy]
  rfl

lemma map_filterMap_of_isSome {f : α → Option β} {xs : List α}
    (h : ∀ x ∈ xs, (f x).isSome = true) : xs.map f = (xs.filterMap f).map some := by
  induction xs with
  | nil => rfl
  | cons x xs ih =>
    obtain ⟨hx, hxs⟩ := List.forall_mem_cons.mp h
    obtain ⟨y, hy⟩ := Option.isSome_iff_exists.mp hx
    rw [List.filterMap_cons_some hy, List.map_cons, List.map_cons, ih hxs, hy]

/-- Where every element has a result, whose part is told, so has the list. -/
lemma exists_mapM_filterMap {γ : Type} {f : α → Option β} {g : β → Option γ} {k : α → Option γ}
    {xs : List α} (h : ∀ x ∈ xs, ∃ y, f x = some y ∧ g y = k x) :
    ∃ ys, xs.mapM f = some ys ∧ ys.filterMap g = xs.filterMap k := by
  induction xs with
  | nil => exact ⟨[], rfl, rfl⟩
  | cons x xs ih =>
    obtain ⟨⟨y, hy, hg⟩, hxs⟩ := List.forall_mem_cons.mp h
    obtain ⟨ys, hys, hfilter⟩ := ih hxs
    refine ⟨y :: ys, by rw [List.mapM_cons, hy, hys]; rfl, ?_⟩
    rw [List.filterMap_cons, List.filterMap_cons, hg, hfilter]

lemma mapM_eq_ok {f : α → Except ε β} {g : α → β} {xs : List α} (h : ∀ x ∈ xs, f x = .ok (g x)) :
    xs.mapM f = .ok (xs.map g) := by
  induction xs with
  | nil => rfl
  | cons x xs ih =>
    rw [List.forall_mem_cons] at h
    rw [List.mapM_cons, h.1, ih h.2]
    rfl

lemma bind_eq_ok {x : Except ε α} {f : α → Except ε β} {b : β} :
    x >>= f = .ok b ↔ ∃ a, x = .ok a ∧ f a = .ok b := by
  cases x with
  | error e => simp [bind, Except.bind]
  | ok a => simp [bind, Except.bind]

lemma bind_eq_error {x : Except ε α} {f : α → Except ε β} {e : ε} :
    x >>= f = .error e ↔ x = .error e ∨ ∃ a, x = .ok a ∧ f a = .error e := by
  cases x with
  | error e' => simp [bind, Except.bind]
  | ok a => simp [bind, Except.bind]

lemma map_eq_ok {x : Except ε α} {f : α → β} {b : β} :
    x.map f = .ok b ↔ ∃ a, x = .ok a ∧ f a = b := by
  cases x with
  | error e => simp [Except.map]
  | ok a => simp [Except.map]

lemma map_eq_error {x : Except ε α} {f : α → β} {e : ε} : x.map f = .error e ↔ x = .error e := by
  cases x with
  | error e' => simp [Except.map]
  | ok a => simp [Except.map]

lemma toOption_eq_some {x : Except ε α} {a : α} (h : x.toOption = some a) : x = .ok a := by
  cases x with
  | error e => cases h
  | ok b => cases h; rfl

/-- A list whose mapping fails has a first element that fails, and the mapping fails as it does. -/
lemma exists_first_of_mapM_eq_error {f : α → Except ε β} {xs : List α} {e : ε}
    (h : xs.mapM f = .error e) : ∃ before x after, xs = before ++ x :: after ∧
      (∀ y ∈ before, ∃ b, f y = .ok b) ∧ f x = .error e := by
  induction xs with
  | nil => cases h
  | cons x xs ih =>
    rw [List.mapM_cons, bind_eq_error] at h
    rcases h with h | ⟨y, hy, h⟩
    · exact ⟨[], x, xs, rfl, by simp, h⟩
    · rcases bind_eq_error.mp h with h | ⟨ys, -, h⟩
      · obtain ⟨before, z, after, rfl, hbefore, hz⟩ := ih h
        exact ⟨x :: before, z, after, rfl, List.forall_mem_cons.mpr ⟨⟨y, hy⟩, hbefore⟩, hz⟩
      · cases h

lemma exists_of_mapM_eq_error {f : α → Except ε β} {xs : List α} {e : ε}
    (h : xs.mapM f = .error e) : ∃ x ∈ xs, f x = .error e := by
  obtain ⟨before, x, after, rfl, -, hx⟩ := exists_first_of_mapM_eq_error h
  exact ⟨x, List.mem_append_right _ List.mem_cons_self, hx⟩

lemma exists_of_mapM_eq_ok {f : α → Except ε β} {xs : List α} {ys : List β}
    (h : xs.mapM f = .ok ys) {x : α} (hx : x ∈ xs) : ∃ y, f x = .ok y := by
  induction xs generalizing ys with
  | nil => cases hx
  | cons z xs ih =>
    rw [List.mapM_cons, bind_eq_ok] at h
    obtain ⟨y, hy, h⟩ := h
    obtain ⟨zs, hzs, -⟩ := bind_eq_ok.mp h
    rcases List.mem_cons.mp hx with rfl | hx
    · exact ⟨y, hy⟩
    · exact ih hzs hx

lemma exists_of_mem_mapM {f : α → Option β} {xs : List α} {ys : List β} (h : xs.mapM f = some ys)
    {y : β} (hy : y ∈ ys) : ∃ x ∈ xs, f x = some y := by
  induction xs generalizing ys with
  | nil => cases h; cases hy
  | cons x xs ih =>
    simp only [List.mapM_cons, Option.bind_eq_bind, Option.bind_eq_some_iff, Option.pure_def,
      Option.some.injEq] at h
    obtain ⟨z, hz, zs, hzs, rfl⟩ := h
    rcases List.mem_cons.mp hy with rfl | hy
    · exact ⟨x, List.mem_cons_self, hz⟩
    · obtain ⟨w, hw, hwy⟩ := ih hzs hy
      exact ⟨w, List.mem_cons_of_mem _ hw, hwy⟩

lemma map_mapIdx {γ : Type} (f : Nat → α → β) (g : β → γ) (xs : List α) :
    (xs.mapIdx f).map g = xs.mapIdx fun i x => g (f i x) :=
  List.ext_getElem? fun i => by simp [Function.comp_def]

lemma mapIdx_eq_map (f : α → β) (xs : List α) : (xs.mapIdx fun _ x => f x) = xs.map f :=
  List.ext_getElem? fun i => by simp

lemma chunks_map (size : Nat) (f : α → β) (xs : List α) :
    chunks size (xs.map f) = (chunks size xs).map (List.map f) := by
  fun_induction chunks size xs with
  | case1 => rw [List.map_nil, chunks, List.map_nil]
  | case2 x xs ih => simp only [List.map_cons, chunks, ← ih, List.map_take, List.map_drop]

lemma length_of_mem_chunks {size : Nat} (hs : 1 ≤ size) {xs piece : List α}
    (h : piece ∈ chunks size xs) : 1 ≤ piece.length ∧ piece.length ≤ size := by
  fun_induction chunks size xs with
  | case1 => cases h
  | case2 x xs ih =>
    rcases List.mem_cons.mp h with rfl | h
    · rw [List.length_cons, List.length_take]
      omega
    · exact ih h

lemma chunks_append {size : Nat} (hs : 1 ≤ size) {piece : List α} (h : piece.length = size)
    (rest : List α) : chunks size (piece ++ rest) = piece :: chunks size rest := by
  cases piece with
  | nil => simp only [List.length_nil] at h; omega
  | cons x xs =>
    have hlen : size - 1 = xs.length := by rw [List.length_cons] at h; omega
    rw [List.cons_append, chunks, hlen, List.take_left, List.drop_left]

lemma chunks_of_length_le {size : Nat} {xs : List α} (hne : xs ≠ []) (h : xs.length ≤ size) :
    chunks size xs = [xs] := by
  obtain ⟨x, rest, rfl⟩ := List.exists_cons_of_ne_nil hne
  have hlen : rest.length ≤ size - 1 := by rw [List.length_cons] at h; omega
  rw [chunks, List.take_of_length_le hlen, List.drop_eq_nil_of_le hlen, chunks]

lemma length_of_mem_dropLast_chunks {size : Nat} (hs : 1 ≤ size) {xs piece : List α}
    (h : piece ∈ (chunks size xs).dropLast) : piece.length = size := by
  fun_induction chunks size xs with
  | case1 => cases h
  | case2 x xs ih =>
    by_cases hd : xs.drop (size - 1) = []
    · rw [hd, chunks] at h
      cases h
    · obtain ⟨y, ys, hy⟩ := List.exists_cons_of_ne_nil hd
      have hne : chunks size (xs.drop (size - 1)) ≠ [] := by rw [hy, chunks]; simp
      rw [List.dropLast_cons_of_ne_nil hne, List.mem_cons] at h
      rcases h with rfl | h
      · have hlt : size - 1 < xs.length := by simpa using hd
        rw [List.length_cons, List.length_take]
        omega
      · exact ih h

lemma nodup_eraseDups [BEq α] [LawfulBEq α] (xs : List α) : xs.eraseDups.Nodup := by
  match xs with
  | [] => exact List.nodup_nil
  | x :: xs =>
    have hrest := nodup_eraseDups (xs.filter fun y => !y == x)
    rw [List.eraseDups_cons, List.nodup_cons, List.mem_eraseDups]
    exact ⟨by simp, hrest⟩
termination_by xs.length
decreasing_by exact Nat.lt_succ_of_le (List.length_filter_le _ _)

/-- Among pieces without a common element, an element tells its piece. -/
lemma eq_of_mem_of_nodup_flatten {xss : List (List α)} (h : xss.flatten.Nodup) {k l : Nat}
    {xs ys : List α} {x : α} (hk : xss[k]? = some xs) (hl : xss[l]? = some ys) (hx : x ∈ xs)
    (hy : x ∈ ys) : k = l := by
  obtain ⟨hk, rfl⟩ := List.getElem?_eq_some_iff.mp hk
  obtain ⟨hl, rfl⟩ := List.getElem?_eq_some_iff.mp hl
  have hdisjoint := List.pairwise_iff_getElem.mp (List.nodup_flatten.mp h).2
  rcases Nat.lt_trichotomy k l with hlt | heq | hgt
  · exact absurd hy (hdisjoint k l _ _ hlt hx)
  · exact heq
  · exact absurd hx (hdisjoint l k _ _ hgt hy)

end Tariff
