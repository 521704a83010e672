import OperatorNet.Data.KeyOrder
import OperatorNet.Data.Number
import OperatorNet.Settings.Block
import OperatorNet.Text.Search

/-!
# Settings documents

Settings are given by name; those that are not given have defaults. The checks compare the values as
they are, so numbers of any kind will do, and a value that cannot be compared ends the checking.
-/

namespace OperatorNet.SettingsDocument

/-- Settings by name as they were given. -/
abbrev Fields := List (String × Data Float)

/-- All settings with their defaults. -/
def defaults : Fields :=
  [("steps", .int 60), ("weight_lr", .real 0.05), ("arch_lr", .real 0.1), ("batch_size", .null),
    ("head_init_scale", .real 0.01), ("logit_init_scale", .real 0.0),
    ("schedule", .text "exponential"), ("initial_temperature", .real 1.0),
    ("final_temperature", .real 0.05), ("prune_threshold", .real 0.05), ("prune_every", .int 10),
    ("warmup_steps", .int 10), ("budget_penalty", .real 1.0), ("mask_over_budget", .bool true),
    ("max_fan_in", .int 2), ("max_workers", .int 1), ("max_seconds", .null), ("ridge", .real 0.001),
    ("insert_non_differentiable", .bool true), ("tie_break", .texts ["cost", "catalog_order"]),
    ("metric_kinds", .mapping []), ("objective_params", .mapping [])]

/-- Whether a value is one of some texts. -/
def isOneOf (names : List String) : Data Float → Bool
  | .text s => names.contains s
  | _ => false

/-- A setting that must not be below a bound. -/
def checkLeast (d : Data Float) (bound : Int) (flaw : SettingsFlaw) : Except Fault Unit := do
  if (← Number.ofData d).below (.whole bound) then fail (.settings flaw)

/-- Checks settings in their order. -/
def check (s : Fields) : Except Fault Fields := do
  let at_ := fun (name : String) => (fetch name s).getD .null
  let rules ← (at_ "tie_break").elements
  let s := put "tie_break" (.list rules) s
  if !isOneOf ["exponential", "linear"] (at_ "schedule") then
    fail (.settings (.unknownSchedule (at_ "schedule")))
  let final ← Number.ofData (at_ "final_temperature")
  if !(Number.whole 0).below final then fail (.settings .temperatures)
  if !final.atMost (← Number.ofData (at_ "initial_temperature")) then
    fail (.settings .temperatures)
  checkLeast (at_ "steps") 0 .negativeSteps
  let threshold ← Number.ofData (at_ "prune_threshold")
  if !((Number.whole 0).atMost threshold && threshold.below (.whole 1)) then
    fail (.settings .pruneThreshold)
  checkLeast (at_ "prune_every") 1 .pruneEvery
  checkLeast (at_ "max_workers") 1 .maxWorkers
  checkLeast (at_ "max_fan_in") 1 .maxFanIn
  match rules.find? fun r => !isOneOf ["cost", "catalog_order"] r with
  | some r => fail (.settings (.unknownRule r))
  | none => return s

/-- Refuses keys that name no setting; a key that comes several times counts once. -/
def checkKeys (keys : List (Data Float)) : Except Fault Unit := do
  match distinctKeys? keys with
  | none => fail .wrongForm
  | some keys =>
    let unknown := keys.filter fun k => !isOneOf (defaults.map Prod.fst) k
    match ← sortedKeys unknown with
    | [] => return
    | sorted => fail (.settings (.unknownKeys sorted))

/-- The given settings with defaults for the others, all of them checked. -/
def complete (given : Fields) : Except Fault Fields :=
  check (given.foldl (fun acc p => put p.1 p.2 acc) defaults)

/-- All settings from a document of the given ones. A row has names without values. -/
def ofData (d : Data Float) : Except Fault Fields := do
  checkKeys (← d.elements)
  match d with
  | .mapping fields => complete fields
  | _ => fail .wrongForm

/-- The settings in a mapping of a settings text, all of it or what is under the key `search`. -/
def ofEntries (fields : List (Data Float × Block.Node)) : Except Fault Fields := do
  let nested := fields.findSome? fun p =>
    match p with
    | (.text "search", .mapping inner) => some inner
    | _ => none
  let fields := nested.getD fields
  checkKeys (fields.map Prod.fst)
  complete (fields.map fun p => (p.1.shown, p.2.toData))

/-- The settings in a settings text. -/
def ofText (s : String) : Except Fault Fields :=
  match Block.read s with
  | .mapping fields => ofEntries fields
  | node =>
    let d := node.toData
    if d.isVoid then complete []
    else match d with
      | .list items => if items.any (isOneOf ["search"]) then fail .wrongForm else ofData d
      | .text s =>
        if Text.includes s.toList "search".toList then fail .wrongForm else ofData d
      | _ => fail .wrongForm

end OperatorNet.SettingsDocument
