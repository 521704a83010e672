import OperatorNet.Fault

/-!
# Looking references up

A reference finds what is stored under the id that it equals. A value that could be no key is
refused before anything is looked up.
-/

namespace OperatorNet.Ref

/-- Checks that a reference can be looked up. -/
def check (r : Ref) : Except Fault Unit :=
  if r.key?.isSome then .ok () else fail .wrongForm

/-- What is found by the id that a reference equals; it must be there. -/
def find {β : Type} (lookup : Int → Option β) (r : Ref) : Except Fault β := do
  r.check
  match r.id?.bind lookup with
  | some x => return x
  | none => fail (.missingKey r.shown)

/-- What stands under an id is found by a reference to it. -/
theorem find_id {β : Type} {lookup : Int → Option β} {n : Int} {x : β}
    (there : lookup n = some x) : find lookup (id n) = .ok x := by
  simp [find, check, key?, toData, Data.key?, there, Bind.bind, Except.bind, Pure.pure, Except.pure]

end OperatorNet.Ref
