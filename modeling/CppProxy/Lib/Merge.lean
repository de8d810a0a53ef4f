/-
  Merges of streams.

  `Merge xss zs`: `zs` is made of the streams `xss`, each of them in order.  The streams
  start one after another, and grow at their ends in chunks.
-/
import Mathlib.Data.List.Basic

/-- `zs` is a merge of the streams `xss`. -/
inductive Merge {α : Type*} : List (List α) → List α → Prop
  | nil : Merge [] []
  | start {xss zs} : Merge xss zs → Merge (xss ++ [[]]) zs
  | append {xss zs i xs} (as : List α) (hi : xss[i]? = some xs) :
    Merge xss zs → Merge (xss.set i (xs ++ as)) (zs ++ as)
