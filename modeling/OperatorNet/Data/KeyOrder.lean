import OperatorNet.Number
import OperatorNet.Sorting

/-!
# Order of keys

Texts and numbers each have an order, but a text and a number have none, and neither has any other
kind of value. Keys can be put in order when every one of them can be compared with the next.
-/

namespace OperatorNet

/-- Whether a key comes before another one, if keys of their forms can be compared. -/
def keyBefore? (a b : Data Float) : Option Bool :=
  match a, b with
  | .text s, .text t => some (s < t)
  | a, b =>
    match Number.ofData? a, Number.ofData? b with
    | some x, some y => some (x.below y)
    | _, _ => none

/-- Keys in increasing order; there is none for keys that cannot be compared. -/
def sortedKeys (keys : List (Data Float)) : Except Fault (List (Data Float)) :=
  if (keys.zip (keys.drop 1)).all fun p => (keyBefore? p.1 p.2).isSome then
    .ok (sortBy (fun a b => (keyBefore? a b).getD false) keys)
  else fail .wrongForm

end OperatorNet
