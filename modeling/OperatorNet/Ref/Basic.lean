import OperatorNet.Data.Key

/-!
# References

How a node is referred to: by its id, or by a value of another form that equals the id. The form in
which a reference was given is kept and shown again, but references are compared by what they equal.
-/

namespace OperatorNet

/-- A reference to a node, in the form in which it was given. -/
inductive Ref where
  | id (n : Int)
  /-- A value that is no whole number by its form; it may still equal one. -/
  | form (d : Data Float)

namespace Ref

/-- A reference from a document. -/
def ofData : Data Float → Ref
  | .int n => id n
  | d => form d

/-- The document of a reference. -/
def toData : Ref → Data Float
  | id n => .int n
  | form d => d

/-- The text of a reference. -/
def shown (r : Ref) : String :=
  r.toData.shown

/-- What a reference equals, if it can be looked up at all. -/
def key? (r : Ref) : Option Key :=
  r.toData.key?

/-- The id that a reference equals, if it equals one. -/
def id? : Ref → Option Int
  | id n => some n
  | form d => d.id?

/-- The document of a reference that equals an id, over any real numbers. -/
def toDataOver (α : Type) [Scalar α] (r : Ref) : Data α :=
  match r.toData with
  | .int n => .int n
  | .bool b => .bool b
  | _ => .real (Scalar.ofInt (r.id?.getD 0))

/-- Whether two references equal each other. -/
def same (a b : Ref) : Bool :=
  a.key?.isSome && a.key? = b.key?

/-- The references that equal none before them. -/
def distinct (rs : List Ref) : List Ref :=
  rs.foldl (fun acc r => if acc.any r.same then acc else acc ++ [r]) []

/-- The first of some references that equals an id, or the id itself. -/
def spelling (rs : List Ref) (n : Int) : Ref :=
  (rs.find? fun r => r.id? = some n).getD (id n)

/-- A reference to an id has that id. -/
@[simp] theorem id?_id (n : Int) : (id n).id? = some n :=
  rfl

end Ref

end OperatorNet
