import OperatorNet.Data.Basic
import OperatorNet.Decimal.Shortest
import OperatorNet.Text.Quoted

/-!
# Documents inside messages

How a document is shown inside a message: texts are quoted, real numbers are as short as reading
back allows, and lists and mappings keep their order.
-/

namespace OperatorNet.Data

mutual

/-- A document as shown inside a message. -/
def literal : Data Float → String
  | .null => "None"
  | .bool b => if b then "True" else "False"
  | .int n => toString n
  | .real x => Decimal.plain.write x
  | .text s => Text.quoted s
  | .list items => "[" ++ ", ".intercalate (literals items) ++ "]"
  | .mapping fields => "\x7b" ++ ", ".intercalate (fieldLiterals fields) ++ "\x7d"

/-- Each item as shown inside a message. -/
def literals : List (Data Float) → List String
  | [] => []
  | d :: rest => literal d :: literals rest

/-- Each field as shown inside a message. -/
def fieldLiterals : List (String × Data Float) → List String
  | [] => []
  | (key, d) :: rest => (Text.quoted key ++ ": " ++ literal d) :: fieldLiterals rest

end

/-- A document as a text of its own: a text is not quoted. -/
def shown : Data Float → String
  | .text s => s
  | d => d.literal

end OperatorNet.Data
