import OperatorNet.Dim.Text

/-!
# Issues

What can be wrong with a document that is checked against a declared form. An issue is a flaw and
the path of keys and places at which it was found.
-/

namespace OperatorNet

/-- What is wrong with a value. -/
inductive Flaw where
  | missing
  | unknownKey
  | notText
  | notList
  | notMapping
  /-- A record with the given name was expected. -/
  | notRecord (name : String)
  | notNumber
  | unreadableNumber
  | notWhole
  | fractional
  | unreadableWhole
  | oversizedWhole
  | infiniteWhole
  | notTruth
  | unreadableTruth
  | emptyTag
  | dimension (e : DimError)
  | notFinite (field : String) (x : Float)
  | notPositive (metric : String) (limit : Float)
  | repeatedNode (id : Int)
  | missingSource (node source : Int) (available : List Int)
  | missingEdgeEnd (source target : Int)
  | missingOutput (id : Int)
  | missingInput (id : Int)

namespace Flaw

/-- The flaw of a value that has the declared form and still is not allowed. -/
def rejection (reason : String) : String :=
  "Value error, " ++ reason

/-- The wording of a flaw. -/
def message : Flaw → String
  | missing => "Field required"
  | unknownKey => "Extra inputs are not permitted"
  | notText => "Input should be a valid string"
  | notList => "Input should be a valid list"
  | notMapping => "Input should be a valid dictionary"
  | notRecord name => "Input should be a valid dictionary or instance of " ++ name
  | notNumber => "Input should be a valid number"
  | unreadableNumber => "Input should be a valid number, unable to parse string as a number"
  | notWhole => "Input should be a valid integer"
  | fractional => "Input should be a valid integer, got a number with a fractional part"
  | unreadableWhole => "Input should be a valid integer, unable to parse string as an integer"
  | oversizedWhole => "Unable to parse input string as an integer, exceeded maximum size"
  | infiniteWhole => "Input should be a finite number"
  | notTruth => "Input should be a valid boolean"
  | unreadableTruth => "Input should be a valid boolean, unable to interpret input"
  | emptyTag => rejection "must be a non-empty string"
  | dimension e => rejection e.message
  | notFinite field x =>
    rejection ("Field '" ++ field ++ "' contains " ++ Decimal.plain.write x
      ++ ", which is not allowed.")
  | notPositive metric limit =>
    rejection ("Budget for '" ++ metric ++ "' must be positive, got " ++ Decimal.plain.write limit)
  | repeatedNode id => rejection ("Duplicate node_id: " ++ toString id)
  | missingSource node source available =>
    rejection ("Node " ++ toString node ++ " input " ++ toString source
      ++ " not found in nodes. Available: [" ++ ", ".intercalate (available.map toString) ++ "]")
  | missingEdgeEnd source target =>
    rejection ("Edge " ++ toString source ++ "->" ++ toString target
      ++ " references a missing node")
  | missingOutput id => rejection ("Output node " ++ toString id ++ " not found in nodes")
  | missingInput id => rejection ("Input node " ++ toString id ++ " not found in nodes")

end Flaw

/-- A flaw and where it was found. -/
structure Issue where
  path : List String
  flaw : Flaw

namespace Issue

/-- The path as one text. -/
def place (i : Issue) : String :=
  ".".intercalate i.path

/-- The issue as seen from one level further out. -/
def under (step : String) (i : Issue) : Issue :=
  { i with path := step :: i.path }

end Issue

end OperatorNet
