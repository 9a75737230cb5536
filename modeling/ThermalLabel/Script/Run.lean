import ThermalLabel.Label.Document
import ThermalLabel.Script.Step

/-!
# Running a script

`apply_script`.  A script gives settings and a list of steps.  The steps run in order on an empty
document, the first one that fails ends the run, and the answer is the rendered document together
with the last positions of its wrapped texts.
-/
namespace ThermalLabel.Script

structure Result where
  document : Text
  endingYs : List Value

/-- What a run has added so far. -/
structure Output where
  fragments : List Value
  endingYs : List Value

def Output.append (a b : Output) : Output :=
  ⟨a.fragments ++ b.fragments, a.endingYs ++ b.endingYs⟩

def Output.ofEmission (e : Emission) : Checked Output :=
  match e.outcome with
  | .ok .same => .ok ⟨e.fragments, []⟩
  | .ok (.endingY y) => .ok ⟨e.fragments, [y]⟩
  | .error f => .error (.fault f)

def runStep (config : Config) (index : Nat) (step : Value) : Checked Output := do
  let call ← readStep index step
  Output.ofEmission (call.operation.emit config call.arguments)

/-- Runs steps that are counted from `index` on. -/
def runSteps (config : Config) : Nat → List Value → Checked Output
  | _, [] => .ok ⟨[], []⟩
  | index, step :: rest => do
    let first ← runStep config index step
    let others ← runSteps config (index + 1) rest
    return first.append others

/-- Runs a list of steps under given settings. -/
def runUnder (config : Config) (steps : List Value) : Checked Result := do
  let output ← runSteps config 0 steps
  let document ← liftFault (renderFragments config.separator output.fragments)
  return ⟨document, output.endingYs⟩

def run (script : Value) (defaults : Config) : Checked Result :=
  match script with
  | .object fields =>
    match Fields.get? fields "operations" with
    | some (.list steps) => do
      let config ← readConfig ((Fields.get? fields "config").getD .null) defaults
      runUnder config steps
    | _ => refuse .operationsNotList
  | _ => refuse .notObject

end ThermalLabel.Script
