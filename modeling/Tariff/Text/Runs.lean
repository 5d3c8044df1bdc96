/-!
Cutting a text by a class of characters.
-/

namespace Tariff.Text

/-- The maximal runs of characters that satisfy `p`, in order. -/
def runsOf (p : Char → Bool) : List Char → List (List Char)
  | [] => []
  | c :: cs =>
    if p c then
      match cs, runsOf p cs with
      | d :: _, r :: rs => if p d then (c :: r) :: rs else [c] :: r :: rs
      | _, rs => [c] :: rs
    else runsOf p cs

/-- What stands between the characters that satisfy `p`; never empty. -/
def splitAt (p : Char → Bool) : List Char → List (List Char)
  | [] => [[]]
  | c :: cs =>
    if p c then [] :: splitAt p cs
    else
      match splitAt p cs with
      | [] => [[c]]
      | s :: ss => (c :: s) :: ss

/-- The text without the longest tail of characters that satisfy `p`. -/
def dropTail (p : Char → Bool) : List Char → List Char
  | [] => []
  | c :: cs =>
    match dropTail p cs with
    | [] => if p c then [] else [c]
    | rest => c :: rest

end Tariff.Text
