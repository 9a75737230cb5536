import ThermalLabel.Value.Text

/-!
# Emissions

What one operation adds to a label: its fragments in order, the notices it leaves for the log, and
how it ends.  An operation that fails halfway keeps the fragments it had emitted before.  A fragment
is written part by part, in the order of its text.
-/
namespace ThermalLabel

/-- A piece of a command: a text, a value, or a token worked out before. -/
inductive Part where
  | literal (s : Text)
  | value (v : Value)
  | token (t : Except Fault Text)

instance : Coe Text Part := ⟨.literal⟩
instance : Coe Value Part := ⟨.value⟩

def Part.write : Part → Except Fault Text
  | .literal s => .ok s
  | .value v => v.toText
  | .token t => t

/-- The text of a command; the first part that cannot be written decides the fault. -/
def command : List Part → Except Fault Text
  | [] => .ok []
  | p :: rest => do
    let s ← p.write
    return s ++ (← command rest)

inductive Outcome where
  | same
  /-- The vertical position of the last line of a wrapped text. -/
  | endingY (y : Value)

/-- Words of a text were dropped because the next line would lie below the lowest position. -/
structure Notice where
  lowest : Value
  dropped : Nat

def Notice.text (n : Notice) : Except Fault Text := do
  let lowest ← n.lowest.toText
  return "wrap: limite vertical " ++ lowest ++ " atingido, " ++ Text.ofNat n.dropped ++
    " palavra(s) descartada(s)"

structure Emission where
  fragments : List Value
  notices : List Notice := []
  outcome : Except Fault Outcome

namespace Emission

def done (fragments : List Value) : Emission :=
  { fragments, outcome := .ok .same }

def fault (f : Fault) : Emission :=
  { fragments := [], outcome := .error f }

/-- One fragment, or none at all if it cannot be written. -/
def one (fragment : Except Fault Text) : Emission :=
  match fragment with
  | .ok s => done [.text s]
  | .error f => fault f

/-- A fragment, and then what `next` emits. -/
def cons (fragment : Text) (next : Emission) : Emission :=
  { next with fragments := .text fragment :: next.fragments }

end Emission

end ThermalLabel
