import OperatorNet.Data.Basic
import OperatorNet.Data.Json.Token
import OperatorNet.Decimal.Read

/-!
# Reading JSON text

Tokens are taken one at a time by a machine with a stack of open lists and mappings, so reading is a
fold as well. A number without point and power of ten is whole. When a key comes twice its last
value counts, at the place of the first.
-/

namespace OperatorNet.Json

/-- A list or mapping that is not closed yet; items are held in reverse. -/
inductive Frame where
  | list (items : List (Data Float))
  | mapping (fields : List (String × Data Float)) (key : String)

/-- What may come next. -/
inductive Expect where
  | value
  | valueOrClose
  | keyOrClose
  | key
  | colon
  | separator
  deriving DecidableEq

/-- The state of reading: open frames, and the finished document once there is one. -/
structure Reading where
  expect : Expect
  frames : List Frame
  result : Option (Data Float)

/-- The document of a bare word. -/
def ofWord? (cs : List Char) : Option (Data Float) :=
  match String.ofList cs with
  | "null" => some .null
  | "true" => some (.bool true)
  | "false" => some (.bool false)
  | "NaN" => some (.real (0.0 / 0.0))
  | "Infinity" => some (.real (1.0 / 0.0))
  | "-Infinity" => some (.real (-(1.0 / 0.0)))
  | w =>
    if cs.any fun c => c = '.' || c = 'e' || c = 'E' then (Decimal.readNumber? w).map .real
    else (Decimal.readInt? w).map .int

/-- Puts a finished document where it belongs. -/
def Reading.place (s : Reading) (d : Data Float) : Reading :=
  match s.frames with
  | [] => { s with expect := .separator, result := some d }
  | .list items :: rest => { s with expect := .separator, frames := .list (d :: items) :: rest }
  | .mapping fields key :: rest =>
    { s with expect := .separator, frames := .mapping (put key d fields) key :: rest }

/-- Closes the innermost frame. -/
def Reading.close (s : Reading) (mapping : Bool) : Option Reading :=
  match s.frames, mapping with
  | .list items :: rest, false => some ({ s with frames := rest }.place (.list items.reverse))
  | .mapping fields _ :: rest, true => some ({ s with frames := rest }.place (.mapping fields))
  | _, _ => none

/-- Takes one token. -/
def Reading.step (s : Reading) (t : Token) : Option Reading :=
  let wantsValue := s.result.isNone && (s.expect = .value || s.expect = .valueOrClose)
  match t with
  | .openList =>
    if wantsValue then some { s with expect := .valueOrClose, frames := .list [] :: s.frames }
    else none
  | .openMapping =>
    if wantsValue then some { s with expect := .keyOrClose, frames := .mapping [] "" :: s.frames }
    else none
  | .closeList => if s.expect = .valueOrClose || s.expect = .separator then s.close false else none
  | .closeMapping => if s.expect = .keyOrClose || s.expect = .separator then s.close true else none
  | .comma =>
    match s.expect, s.frames with
    | .separator, .list _ :: _ => some { s with expect := .value }
    | .separator, .mapping _ _ :: _ => some { s with expect := .key }
    | _, _ => none
  | .colon => if s.expect = .colon then some { s with expect := .value } else none
  | .quoted text =>
    match s.expect, s.frames with
    | .keyOrClose, .mapping fields _ :: rest | .key, .mapping fields _ :: rest =>
      some { s with expect := .colon, frames := .mapping fields text :: rest }
    | _, _ => if wantsValue then some (s.place (.text text)) else none
  | .word w => if wantsValue then (ofWord? w).map s.place else none

/-- The document written in a JSON text. -/
def read? (s : String) : Option (Data Float) := do
  let ts ← tokens? s.toList
  let done ← ts.foldlM Reading.step ⟨.value, [], none⟩
  if done.frames.isEmpty then done.result else none

end OperatorNet.Json
