import OperatorNet.Catalog.Basic
import OperatorNet.Data.Number
import OperatorNet.Operator.Declaration

/-!
# Loading declarations

Declarations are registered one after the other in the catalog at hand. An entry that is flawed is
reported and does not keep the others from being loaded. Only values that cannot be examined at all,
and a frozen catalog, end the loading; the entries before them stay registered.
-/

namespace OperatorNet

/-- What became of the entries of a collection. -/
structure LoadReport where
  registered : List String
  /-- The reasons, by the name that an entry gives itself. -/
  rejected : Keyed String

namespace LoadReport

/-- The report on no entries. -/
def empty : LoadReport :=
  ⟨[], []⟩

/-- Whether no entry was rejected. -/
def ok (r : LoadReport) : Bool :=
  r.rejected.isEmpty

/-- The document of a report. -/
def toData (r : LoadReport) : Data Float :=
  .mapping [("registered", .texts r.registered),
    ("rejected", r.rejected.toData .text),
    ("ok", .bool r.ok)]

end LoadReport

/-- An entry of a collection: a document, or a declaration that has been read already. -/
inductive Entry where
  | document (d : Data Float)
  | declared (d : Declaration)

/-- A catalog after a call, and what the call ended with. -/
structure Attempt (β : Type) where
  catalog : Catalog Float
  outcome : Except Fault β

namespace Catalog

/-- Executors by name. -/
abbrev Executors := List (String × Executor Float)

/-- The name of an entry, before it is examined. -/
def entryName : Entry → Except Fault (Data Float)
  | .declared d => .ok (.text d.name)
  | .document (.mapping fields) => .ok ((fetch "name" fields).getD (.text "<unnamed>"))
  | .document _ => fail .noParts

/-- The type that a reference of an operator stands for. -/
def resolveRef (c : Catalog Float) (owner : String) : TypeRef → Except Fault PortType
  | .named name => c.resolveName name owner
  | .given t => .ok t

/-- The operator of a declaration. -/
def build (c : Catalog Float) (d : Declaration) (executor : Option (Executor Float)) :
    Except Fault (Operator Float) := do
  return {
    name := d.name
    inTypes := ← d.inTypes.mapM (c.resolveRef d.name)
    outType := ← c.resolveRef d.name d.outType
    differentiable := d.differentiable
    invariance := .ofList d.invariance
    stability := d.stability
    cost := .ofList d.cost
    params := .ofList (d.params.map fun p => (p.1, .data p.2))
    adapter := d.adapter
    executor := executor }

/-- The executor of a declaration: the one it names, else the one with its own name. -/
def chooseExecutor (executors : Executors) (d : Declaration) : Option (Executor Float) :=
  let named := d.executor.getD ""
  fetch (if named.isEmpty then d.name else named) executors

/-- The declaration of an entry. -/
def readEntry : Entry → Except Fault Declaration
  | .declared d => .ok d
  | .document d => (Declaration.ofData d).toExcept

/-- The reported reason of a fault that only rejects its entry. -/
def rejection? (f : Fault) : Option String :=
  match f.cause with
  | .invalid issues =>
    some ("invalid declaration: " ++ ((issues.head?.map (·.flaw.message)).getD ""))
  | .signature _ _ | .duplicate _ => f.cause.message?
  | _ => none

/-- The items of a section, which may be absent. -/
def section? (registry : Check.Fields) (name : String) : Except Fault (List (Data Float)) :=
  let d := (fetch name registry).getD .null
  if d.isVoid then .ok [] else d.elements

/-- The named types of a registry. -/
def typeSection (registry : Check.Fields) : Except Fault (List (String × Data Float)) :=
  let d := (fetch "types" registry).getD .null
  if d.isVoid then .ok []
  else match d with
    | .mapping fields => .ok fields
    | _ => fail .noParts

/-- The fields of a registry. -/
def registryFields : Data Float → Except Fault Check.Fields
  | .mapping fields => .ok fields
  | _ => fail .noParts

end Catalog

namespace Cataloguing

open Catalog (Executors)

/-- A call and the catalog that it leaves. -/
def attempt {β : Type} (x : Cataloguing Float β) (c : Catalog Float) : Attempt β :=
  let p := x.run c
  ⟨p.2, p.1⟩

/-- Reads and registers one entry; the result names the operator. -/
def enter (executors : Executors) (e : Entry) : Cataloguing Float String := do
  let d ← lift (Catalog.readEntry e)
  let op ← lift ((← get).build d (Catalog.chooseExecutor executors d))
  register op []
  return d.name

/-- A report after an entry was rejected. Other faults than rejections end the loading. -/
def rejected (report : LoadReport) (name : Data Float) (f : Fault) : Except Fault LoadReport :=
  match Catalog.rejection? f, name.key? with
  | none, _ => .error f
  | some _, none => fail .wrongForm
  | some reason, some _ => .ok { report with rejected := report.rejected.insert name reason }

/-- Registers entries from left to right, adding to a report. -/
def loadFrom (executors : Executors) (report : LoadReport) :
    List Entry → Cataloguing Float LoadReport
  | [] => return report
  | e :: rest => do
    let name ← lift (Catalog.entryName e)
    match ← caught (enter executors e) with
    | .ok registered =>
      loadFrom executors { report with registered := report.registered ++ [registered] } rest
    | .error f => loadFrom executors (← lift (rejected report name f)) rest

/-- Registers a collection of entries and freezes the catalog if asked to. -/
def load (entries : List Entry) (executors : Executors) (freeze : Bool) :
    Cataloguing Float LoadReport := do
  let report ← loadFrom executors .empty entries
  if freeze then modify Catalog.freeze
  return report

/-- Adds kinds from left to right until one is not a text. -/
def addKinds : List (Data Float) → Cataloguing Float PUnit
  | [] => return ⟨⟩
  | .text kind :: rest => do
    registerKind kind
    addKinds rest
  | _ :: _ => lift (fail .noParts)

/-- The rejected names of types after another one was refused. Other faults end the loading. -/
def refused (rejected : Table String String) (name : String) (f : Fault) :
    Except Fault (Table String String) :=
  match f.cause with
  | .aliasFlaw _ _ => .ok (rejected.insert name (f.cause.message?.getD ""))
  | _ => .error f

/-- Names types from left to right; the flaws of types that cannot be named are collected. -/
def addTypes (rejected : Table String String) :
    List (String × Data Float) → Cataloguing Float (Table String String)
  | [] => return rejected
  | (name, d) :: rest => do
    match ← caught (defineType name d) with
    | .ok _ => addTypes rejected rest
    | .error f => addTypes (← lift (refused rejected name f)) rest

/-- Loads a registry: kinds, then named types, then declarations. -/
def loadRegistry (registry : Data Float) (executors : Executors) (freeze : Bool) :
    Cataloguing Float LoadReport := do
  lift (← get).checkOpen
  let fields ← lift (Catalog.registryFields registry)
  addKinds (← lift (Catalog.section? fields "kinds"))
  let types ← lift (Catalog.typeSection fields)
  let refused ← addTypes .empty types
  let atoms ← lift (Catalog.section? fields "atoms")
  let operators ← lift (Catalog.section? fields "operators")
  let report ← load ((atoms ++ operators).map .document) executors freeze
  return { report with
    rejected := report.rejected.foldl (fun acc p => acc.insert p.1 p.2)
      (refused.entries.map fun p => (.text p.1, p.2)) }

end Cataloguing

namespace Catalog

/-- The catalog after a collection of entries was loaded, and the report. -/
def load (c : Catalog Float) (entries : List Entry) (executors : Executors) (freeze : Bool) :
    Attempt LoadReport :=
  (Cataloguing.load entries executors freeze).attempt c

end Catalog

end OperatorNet
