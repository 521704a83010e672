import OperatorNet.Data.Key
import OperatorNet.PortType.Basic
import OperatorNet.Text.Lowercase
import OperatorNet.Validation.Value

/-!
# Reading types of ports

A type is given by a mapping with a kind and, optionally, a shape, a metric and a group. Kinds and
metrics do not depend on case or on blanks around them. A shape may also be one term or a text of
terms separated by commas or multiplication signs.
-/

namespace OperatorNet

/-- The form in which kinds and metric names are compared. -/
def normalizeTag (tag : String) : String :=
  Text.lower (Text.trimmed tag)

/-- A text that is a kind or a metric. -/
def Check.tag (d : Data Float) : Check String :=
  (Check.text d).andThen fun s =>
    if (Text.trimmed s).isEmpty then .flawed .emptyTag else .accepted (normalizeTag s)

/-- The parts of a text between commas and multiplication signs. -/
def splitShape : List Char → List (List Char)
  | [] => [[]]
  | c :: rest =>
    if c = ',' ∨ c = '×' then [] :: splitShape rest
    else match splitShape rest with
      | part :: parts => (c :: part) :: parts
      | [] => [[c]]

/-- The terms of a shape; some values cannot be taken as a row of terms. -/
def shapeTerms? : Data Float → Option (List (Data Float))
  | .null => some []
  | .text s =>
    some ((((splitShape s.toList).map Text.trim).filter (!·.isEmpty)).map fun p =>
      .text (String.ofList p))
  | .int n => some [.int n]
  | .bool b => some [.bool b]
  | .list items => some items
  | .mapping fields => some (fields.map fun p => .text p.1)
  | .real _ => none

/-- A shape. -/
def Check.shape (d : Data Float) : Check (List Dim) :=
  match shapeTerms? d with
  | none => .brokenDown
  | some terms =>
    match terms.mapM fun t => do (← Dim.ofData t).written with
    | .ok dims => .accepted dims
    | .error e => .flawed (.dimension e)

/-- A group of tags. -/
def Check.group (d : Data Float) : Check TagSet :=
  let ofItems := fun items =>
    match distinctKeys? items with
    | none => Check.brokenDown
    | some es => (Check.list Check.text (.list es)).map TagSet.ofList
  match d with
  | .null => .accepted .empty
  | .text s => .accepted (.ofList [s])
  | .list items => ofItems items
  | .mapping fields => .accepted (.ofList (fields.map Prod.fst))
  | _ => .brokenDown

/-- A type from its mapping. -/
def Check.portType : Data Float → Check PortType :=
  Check.record "TypeSpec" fun fields =>
    (PortType.mk <$> Check.required fields "kind" Check.tag
      <*> Check.withDefault fields "shape" Check.shape []
      <*> Check.withDefault fields "metric" Check.tag "l2"
      <*> Check.withDefault fields "group" Check.group .empty)
      <* Check.noOthers fields [["kind"], ["shape"], ["metric"], ["group"]]

end OperatorNet
