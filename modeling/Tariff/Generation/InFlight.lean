/-!
Calls that are under way at the same time. They start in order, no more than a fixed number at
once: as one ends, the next starts. Their results come in the order in which they end.
-/

namespace Tariff.Generation

/-- A call under way, put behind those that end no later. -/
def waiting {α : Type} (finish : Nat) (a : α) : List (Nat × α) → List (Nat × α)
  | [] => [(finish, a)]
  | (t, b) :: rest =>
    if finish < t then (finish, a) :: (t, b) :: rest else (t, b) :: waiting finish a rest

theorem length_waiting {α : Type} (finish : Nat) (a : α) (running : List (Nat × α)) :
    (waiting finish a running).length = running.length + 1 := by
  induction running with
  | nil => rfl
  | cons x rest ih =>
    simp only [waiting]
    split <;> simp [ih]

/-- The results of the calls `running`, which are in the order of their ends, and of the calls
`later`, of which each takes the time it comes with. -/
def finishing {α : Type} : List (Nat × α) → List (Nat × α) → List α
  | [], later => later.map (·.2)
  | (_, a) :: running, [] => a :: finishing running []
  | (t, a) :: running, (d, b) :: later => a :: finishing (waiting (t + d) b running) later
termination_by running later => running.length + 2 * later.length
decreasing_by
  · simp only [List.length_cons]; omega
  · simp only [List.length_cons, length_waiting]; omega

/-- The results of calls, each with the time that it takes, in the order in which they end. -/
def inFlight {α : Type} (limit : Nat) (calls : List (Nat × α)) : List α :=
  finishing ((calls.take limit).foldl (fun running (d, a) => waiting d a running) [])
    (calls.drop limit)

end Tariff.Generation
