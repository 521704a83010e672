import OperatorNet.Cost.Aggregate
import OperatorNet.Network.Typing

/-!
# Describing networks

The document of a network as it is reported after a search, a row per node and whether all slots are
well typed; and a text that describes a network line by line: its size, its execution plan, and its
prices.
-/

namespace OperatorNet

/-- The row of a node: id, name, sources, type, whether it was put in between, and parameters. -/
def Node.toData (n : Node Float) : Data Float :=
  .list [.int n.id, .text n.name, .list (n.inputs.map Ref.toData), .text n.resolved.toText,
    .bool n.inserted, (n.params.map paramsData).getD .null]

/-- The document of a network. -/
def Network.toData (g : Network Float) : Data Float :=
  .mapping [("id", .text g.id), ("nodes", .list (g.nodes.map (·.toData))),
    ("output", (g.outputId.map .int).getD .null), ("metadata", .mapping g.metadata.entries),
    ("valid", .bool g.errors.isEmpty)]

end OperatorNet

namespace OperatorNet.Network

/-- The tags of an operator node. -/
def planTags (n : Node Float) : List String :=
  let diff := (n.operator.map (·.differentiable)).getD false
  (if diff then "diff" else "non-diff") :: if n.inserted then ["adapter"] else []

/-- One line of the execution plan. -/
def planLine (place : Nat) (line : Ref × Node Float) : String :=
  let n := line.2
  let start := "  " ++ toString (place + 1) ++ ". [" ++ line.1.shown ++ "] "
  if n.isInput then start ++ "input '" ++ n.name ++ "' : " ++ n.resolved.toText
  else
    start ++ n.name ++ "(" ++ ", ".intercalate (n.inputs.map Ref.shown) ++ ") -> "
      ++ n.resolved.toText ++ " (" ++ ", ".intercalate (planTags n) ++ ")"

/-- A label filled up with blanks to twelve characters. -/
def label (name : String) : String :=
  let text := name ++ ":"
  text ++ String.ofList (List.replicate (12 - text.length) ' ')

/-- A row of one mark below a title. -/
def underline (mark : Char) (title : String) : String :=
  String.ofList (List.replicate title.length mark)

/-- The description of a network with its prices in the given metrics. -/
def explain (g : Network Float) (metrics : List String) : Except Fault String := do
  let title := "RosettaNetwork: " ++ g.id
  let live ← g.live
  let inputs ← g.inputNodes
  let out ← g.output
  requireWritable out.resolved.isWritable
  let plan ← (← g.orderOf live).mapM fun r => do
    let n ← g.nodeAt r
    requireWritable n.resolved.isWritable
    return (r, n)
  let prices ← metrics.mapM fun m => do
    return "  " ++ label m ++ " " ++ (← g.aggregate m .none).literal
  return "\n".intercalate (
    [title, underline '=' title, "",
      "Summary", "-------",
      "  Nodes:       " ++ toString g.nodes.length ++ " (" ++ toString live.length ++ " live)",
      "  Edges:       " ++ toString g.edges.length,
      "  Inputs:      " ++ ", ".intercalate (inputs.map (·.name)),
      "  Output:      " ++ toString out.id ++ " : " ++ out.resolved.toText, "",
      "Execution plan (topological order)", "----------------------------------"]
    ++ plan.mapIdx planLine
    ++ ["", "Aggregates", "----------"] ++ prices ++ [""])

end OperatorNet.Network
