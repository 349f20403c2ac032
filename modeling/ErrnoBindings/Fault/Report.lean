import ErrnoBindings.Fault.Basic

/-!
# Reports

A run that fails ends with a report on standard error: the code of the fault, its message, the offending line with
its defect underneath where there is one, and the advice that goes with the fault.
-/

namespace ErrnoBindings.Fault

/-- The part of a report that shows a line and marks a stretch of it. A mark has a caret for each octet, and at
least one. -/
def excerpt : Fault → List Text
  | malformedRow lineNo defect line span =>
    let margin := decimal lineNo ++ " | ".toList
    [margin ++ line,
      List.replicate (margin.length + span.offset) ' ' ++ List.replicate (max 1 span.length) '^' ++
        ' ' :: defect.label]
  | _ => []

/-- The report on a fault. -/
def report (f : Fault) : Text :=
  unlines ([f.code, f.message] ++ f.excerpt ++ (f.help?.map fun h => "help: ".toList ++ h).toList)

end ErrnoBindings.Fault
