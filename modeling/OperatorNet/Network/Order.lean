import OperatorNet.Network.Basic

/-!
# Order of nodes

Nodes are put in an order in which each comes after its sources, the smallest id first among those
that may come next. Only what the output depends on is live. Where ids come from references, the
references are given back in the form in which they came first.
-/

namespace OperatorNet

/-- The longest order of `remaining` in which every id comes after its sources among `remaining`,
taking the first id that may come next at every step. -/
def readyOrder (sources : Int → List Int) (remaining : List Int) : List Int :=
  match _h : remaining.find? fun n => (sources n).all fun s => !remaining.contains s with
  | none => []
  | some n => n :: readyOrder sources (remaining.erase n)
termination_by remaining.length
decreasing_by
  have hm := List.mem_of_find?_eq_some _h
  have := List.length_erase_of_mem hm
  have := List.length_pos_of_mem hm
  omega

/-- The first reference of a stack whose id is fresh, with the id and what lies below it. Ids that
are not among `all` are an error. -/
def firstFresh (all fresh : List Int) :
    List Ref → Except Fault (Option (Ref × { n // n ∈ fresh } × List Ref))
  | [] => .ok none
  | r :: rest =>
    match r.find fun n => if n ∈ all then some n else none with
    | .error f => .error f
    | .ok n => if h : n ∈ fresh then .ok (some (r, ⟨n, h⟩, rest)) else firstFresh all fresh rest

/-- What can be reached along inputs from the references of a stack, the top of the stack first. Ids
that are not `fresh` any more have been visited; ids that are not among `all` are an error. -/
def reachable (inputs : Int → List Ref) (all fresh : List Int) (stack : List Ref) :
    Except Fault (List Ref) :=
  match firstFresh all fresh stack with
  | .error f => .error f
  | .ok none => .ok []
  | .ok (some (r, n, rest)) =>
    (reachable inputs all (fresh.erase n) ((inputs n).reverse ++ rest)).map (r :: ·)
termination_by fresh.length
decreasing_by
  have := List.length_erase_of_mem n.2
  have := List.length_pos_of_mem n.2
  omega

/-- References in ascending order of the ids that they equal. -/
def sortedRefs (rs : List Ref) : List Ref :=
  sortBy (fun a b => decide (a.id?.getD 0 < b.id?.getD 0)) rs

namespace Network

variable {α : Type}

/-- Nodes by their ids, each after its sources among them and the smallest id first. -/
def orderOfIds (g : Network α) (ids : List Int) : Except Fault (List Int) :=
  let ids := sortedIds ids
  let order := readyOrder g.sources ids
  if order.length = ids.length then .ok order
  else
    fail (.slot {
      slot := -1, expected := none, actual := none, node := none,
      reason := .cycle g.id order.length ids.length })

/-- The given nodes, each after its sources among them and the smallest id first. -/
def orderOf (g : Network α) (rs : List Ref) : Except Fault (List Ref) := do
  rs.forM Ref.check
  let rs := sortedRefs (Ref.distinct rs)
  let nodes ← rs.mapM g.nodeAt
  nodes.forM fun n => n.inputs.forM Ref.check
  return (← g.orderOfIds (nodes.map (·.id))).map (Ref.spelling rs)

/-- The order of the given nodes, of all nodes if none are given. -/
def topologicalOrder (g : Network α) (rs : Option (List Ref)) : Except Fault (List Ref) :=
  g.orderOf (rs.getD (g.ids.map .id))

/-- All nodes, each after its sources and the smallest id first. -/
def order (g : Network α) : Except Fault (List Int) :=
  g.orderOfIds g.ids

/-- The nodes that the output depends on. -/
def live (g : Network α) : Except Fault (List Ref) := do
  reachable g.inputs g.ids g.ids [.id (← g.output).id]

/-- The nodes that the output depends on, in order. -/
def liveOrder (g : Network α) : Except Fault (List (Node α)) := do
  (← g.orderOf (← g.live)).mapM g.nodeAt

end Network

end OperatorNet
