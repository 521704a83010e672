import OperatorNet.Validation.Issue

/-!
# Checks

Checking a document either accepts it, or lists every issue, or breaks down because some value
cannot be examined at all. Checks of the parts of a record are combined so that the issues of all
parts are kept in order, while the first breakdown ends everything.
-/

namespace OperatorNet

/-- What checking a document came to. -/
inductive Check (β : Type) where
  | accepted (b : β)
  | refused (issues : List Issue)
  | brokenDown

namespace Check

variable {β γ : Type}

/-- A check that finds one flaw. -/
def flawed (f : Flaw) : Check β :=
  refused [⟨[], f⟩]

/-- Applies a function to what was accepted. -/
def map (f : β → γ) : Check β → Check γ
  | accepted b => accepted (f b)
  | refused issues => refused issues
  | brokenDown => brokenDown

/-- Combines the checks of two parts; the second one counts unless the first broke down. -/
def seq (f : Check (β → γ)) (x : Unit → Check β) : Check γ :=
  match f with
  | brokenDown => brokenDown
  | accepted g => (x ()).map g
  | refused issues =>
    match x () with
    | accepted _ => refused issues
    | refused more => refused (issues ++ more)
    | brokenDown => brokenDown

instance : Applicative Check where
  pure := accepted
  map := map
  seq := seq

/-- A further check of what was accepted. -/
def andThen (x : Check β) (f : β → Check γ) : Check γ :=
  match x with
  | accepted b => f b
  | refused issues => refused issues
  | brokenDown => brokenDown

/-- The check as seen from one level further out. -/
def under (step : String) : Check β → Check β
  | refused issues => refused (issues.map (Issue.under step))
  | other => other

/-- The checks of all items of a list. -/
def all : List (Check β) → Check (List β)
  | [] => accepted []
  | x :: rest => seq (x.map List.cons) fun _ => all rest

end Check

end OperatorNet
