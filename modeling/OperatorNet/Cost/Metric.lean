import OperatorNet.Fault
import OperatorNet.Scalar
import OperatorNet.Text.Search

/-!
# Metrics

A metric is added up over nodes, summed along the longest path, or multiplied along paths. A price
is the value of a metric, or unknown when some part of it is.
-/

namespace OperatorNet

/-- How a metric is aggregated over a network. -/
inductive MetricKind where
  | additive
  | criticalPath
  | lipschitz
  deriving DecidableEq

namespace MetricKind

/-- The kind with a given name. -/
def ofName? : String → Option MetricKind
  | "additive" => some additive
  | "critical_path" => some criticalPath
  | "lipschitz" => some lipschitz
  | _ => none

/-- The name of a kind. -/
def name : MetricKind → String
  | additive => "additive"
  | criticalPath => "critical_path"
  | lipschitz => "lipschitz"

end MetricKind

/-- Kinds given to metrics. Values other than mappings name metrics without giving them kinds. -/
inductive MetricKinds where
  /-- Kinds by metric; `none` stands for a kind that does not exist. -/
  | given (kinds : List (String × Option MetricKind))
  /-- A list of metrics. -/
  | listed (metrics : List String)
  /-- A text in which metrics are looked for. -/
  | spelled (text : String)
  /-- A value that holds no metrics. -/
  | unreadable

namespace MetricKinds

/-- No kinds. -/
def none : MetricKinds :=
  given []

/-- The kinds in a document. -/
def ofData : Data Float → MetricKinds
  | .null => none
  | .mapping fields =>
    given (fields.map fun p =>
      (p.1, match p.2 with
        | .text s => MetricKind.ofName? s
        | _ => Option.none))
  | .list items => listed (items.filterMap Data.text?)
  | .text s => spelled s
  | _ => unreadable

end MetricKinds

/-- The kind of a metric that is given none. -/
def defaultMetricKind : String → MetricKind
  | "lipschitz" | "stability" => .lipschitz
  | "latency" => .criticalPath
  | _ => .additive

/-- The kind of a metric. -/
def metricKind (metric : String) (kinds : MetricKinds) : Except Fault MetricKind :=
  let unnamed := fun (named : Bool) =>
    if named then fail .wrongForm else .ok (defaultMetricKind metric)
  match kinds with
  | .given kinds =>
    match fetch metric kinds with
    | some (some kind) => .ok kind
    | some none => fail .unknownMetricKind
    | none => .ok (defaultMetricKind metric)
  | .listed metrics => unnamed (metrics.contains metric)
  | .spelled text => unnamed (Text.includes text.toList metric.toList)
  | .unreadable => fail .wrongForm

/-- The value of a metric, if it is known. -/
inductive Price (α : Type) where
  | known (x : α)
  | unknown
  deriving Inhabited

namespace Price

variable {α : Type}

/-- The value of a known price. -/
def value? : Price α → Option α
  | known x => some x
  | unknown => none

/-- The document of a price, where unknown prices have a name. -/
def toData : Price α → Data α
  | known x => .real x
  | unknown => .text "UNKNOWN"

/-- A price as shown inside a message. -/
def literal : Price Float → String
  | known x => Decimal.plain.write x
  | unknown => "UNKNOWN"

end Price

/-- Prices by metric. -/
abbrev Prices (α : Type) := List (String × Price α)

/-- The document of prices. -/
def pricesData {α : Type} (prices : Prices α) : Data α :=
  .mapping (prices.map fun p => (p.1, p.2.toData))

end OperatorNet
