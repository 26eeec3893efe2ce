import Wiring.Plan.Survey

namespace Wiring

variable {H : Host}

structure Defect where
  service : Key
  failure : Failure

/-- A registration that can be planned but may not do what was meant. -/
inductive Warning where
  | defaultedDependency (service dependency : Key)
  /-- The singleton keeps one instance of something that is meant to be built anew every time. -/
  | capturedTransient (singleton transient : Key)

namespace Warning

def message : Warning → String
  | .defaultedDependency service dependency =>
    "Service '" ++ service.label ++ "' depends on unregistered '" ++ dependency.label ++
      "' - a default will be injected"
  | .capturedTransient singleton transient =>
    "Singleton '" ++ singleton.label ++ "' depends on transient '" ++ transient.label ++
      "' - will always get same instance"

def ofArgument? (root argument : Node H) : Option Warning :=
  if argument.isDefaulted then some (.defaultedDependency root.service argument.service)
  else if root.lifetime = .singleton ∧ argument.lifetime = .transient then
    some (.capturedTransient root.service argument.service)
  else none

/-- What there is to say about the arguments of a plan's root. Looking at every registration as a
root covers every dependency once. -/
def ofPlan (p : Plan H) : List Warning :=
  (p.rootNode.args.filterMap p.node?).filterMap (ofArgument? p.rootNode)

end Warning

/-- Everything found wrong or doubtful, in the order of registration. -/
structure Report where
  defects : List Defect
  warnings : List Warning

namespace Report

def empty : Report :=
  ⟨[], []⟩

def add (r : Report) (key : Key) : Except Failure (Plan H) → Report
  | .error failure => { r with defects := r.defects ++ [⟨key, failure⟩] }
  | .ok plan => { r with warnings := r.warnings ++ Warning.ofPlan plan }

def isValid (r : Report) : Bool :=
  r.defects.isEmpty

def hasWarnings (r : Report) : Bool :=
  !r.warnings.isEmpty

def itemize (heading : String) (items : List String) : String :=
  if items.isEmpty then ""
  else heading ++ ":\n" ++ String.join (items.map fun item => "  - " ++ item ++ "\n")

def message (r : Report) : String :=
  itemize "Validation Errors"
      (r.defects.map fun defect => defect.service.label ++ ": " ++ defect.failure.message) ++
    (if r.isValid || !r.hasWarnings then "" else "\n") ++
    itemize "Validation Warnings" (r.warnings.map Warning.message)

end Report

/-- Plans every registration, in the order of registration, and reports what there is to say. -/
def Registry.validate (registry : Registry H) (options : Options) : Report × Array LogRecord :=
  registry.ordered.foldl
    (fun (report, log) registration =>
      let planning := registry.plan options registration.key
      (report.add registration.key planning.result, log ++ planning.log))
    (.empty, #[])

end Wiring
