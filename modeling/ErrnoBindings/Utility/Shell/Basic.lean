import ErrnoBindings.Environment
import ErrnoBindings.Utility.Shell.Evaluation

/-!
# The shell

The shell reads a script — a file, an argument, or what it can read by itself — and runs it. It may be killed by a
signal, most likely by one that it sends itself, and it may leave files behind. Everything that it does is worked
out inside of the library; the names `Word`, `Token`, `Script` and `Evaluation` lead to the parts.
-/

namespace ErrnoBindings.Utility

namespace Shell

/-- The fuel that scripts have. -/
def fuel : Nat := 50000

/-- The number of the shell itself. -/
def firstNumber : Nat := 2

/-- The directories in which programs are looked for. -/
def standardPath : Text := "/usr/local/sbin:/usr/local/bin:/usr/sbin:/usr/bin:/sbin:/bin".toList

/-- The directory that a tilde stands for. -/
def home : Text := "/root".toList

/-- The variables that a shell is started with. -/
def handedOver (env : Environment) : List (Text × Variable) :=
  ("PATH".toList, ⟨some standardPath, true, false⟩) :: ("HOME".toList, ⟨some home, true, false⟩) ::
    [rootVariable, commandVariable].filterMap fun name =>
      (env name).map fun v => (name, ⟨some (ofOctets v), true, false⟩)

/-- What has been written to a stream and not been read. -/
def written (m : Machine) (stream : Nat) : Text :=
  match m.streams[stream]? with
  | some ⟨.pipe t, _, _, _⟩ => t
  | _ => []

end Shell

/-- Runs the shell under the name by which it was called: what it leaves behind, and the files afterwards. A script
that goes on for too long is given up as a failure. -/
def shell (env : Environment) (t : Tree) (called : Text) (args : List Text) : Finish × Tree :=
  let p := Shell.Process.start called Shell.firstNumber
  let p := { p with store := Shell.standardVariables ++ Shell.handedOver env }
  match Shell.Evaluation.fromArguments Shell.fuel args (Shell.Machine.start t p) with
  | (result, m) =>
    let ending : Ending := match result with
      | .error (.killed _ signal) => .killed signal
      | .error .exhausted => .exited 2
      | _ => .exited (m.process.status % 256)
    (⟨ending, Shell.written m 1, Shell.written m 2⟩, m.tree)

end ErrnoBindings.Utility
