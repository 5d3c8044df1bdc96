/-!
A list cut into pieces of one size.
-/

namespace Tariff

/-- The list cut into pieces of `size` elements, the last one shorter if need be. -/
def chunks {α : Type} (size : Nat) : List α → List (List α)
  | [] => []
  | x :: xs => (x :: xs.take (size - 1)) :: chunks size (xs.drop (size - 1))
termination_by xs => xs.length
decreasing_by simp only [List.length_cons, List.length_drop]; omega

theorem flatten_chunks {α : Type} (size : Nat) (xs : List α) : (chunks size xs).flatten = xs := by
  fun_induction chunks size xs with
  | case1 => rfl
  | case2 x xs ih => simp [ih]

end Tariff
