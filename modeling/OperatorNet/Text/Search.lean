/-!
# Texts inside texts

Whether one text occurs in another one. The empty text occurs in every text.
-/

namespace OperatorNet.Text

/-- Whether the characters of `part` stand next to each other somewhere in `cs`. -/
def includes (cs part : List Char) : Bool :=
  part.isPrefixOf cs || match cs with
    | [] => false
    | _ :: rest => includes rest part

end OperatorNet.Text
