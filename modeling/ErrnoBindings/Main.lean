import ErrnoBindings.Fault.Report
import ErrnoBindings.Run.Script
import ErrnoBindings.Utility.Launcher

/-!
# The program

This is the outer layer. It carries out the calls of the script `Script.run`, one by one, and prints what the script
comes to. Which calls are made and what is done about their answers is the script's business, and what that amounts to
is the run of this library (`Script.onTree_run`).

The program starts no other program. A listing command is run among the utilities of the library, which see the
files that its own words name, and what they do to them is not carried over; for any other command a captured
listing is wanted.
-/

namespace ErrnoBindings.Program

/-- Octets as the system takes them for a name. -/
def name (path : Bytes) : String := String.ofList (Utf8.decodeLossy path)

/-- An entry of the directory at a path. -/
def entry (dir file : Bytes) : String := name (dir ++ Path.separator :: file)

/-- The number that the system gave a refusal. -/
def number? : IO.Error → Option UInt32
  | .alreadyExists _ n _ => some n
  | .noFileOrDirectory _ n _ => some n
  | .permissionDenied _ n _ => some n
  | .inappropriateType _ n _ => some n
  | .invalidArgument _ n _ => some n
  | .otherError n _ => some n
  | _ => none

/-- The reason of a refusal. -/
def reason (e : IO.Error) : Reason :=
  match (number? e).bind fun n => SystemError.ofNumber? n.toNat with
  | some known => .system known
  | none => .stated (toString e).toList

/-- Asks the system for something that it may refuse. -/
def attempt {α : Type} (act : IO α) : IO (Except Reason α) := do
  try
    return .ok (← act)
  catch e =>
    return .error (reason e)

/-- What the file at a path holds. -/
def readOctets (path : Bytes) : IO (Except Reason Bytes) := attempt do
  return (← IO.FS.readBinFile (name path)).toList

/-- A tree with the files that some words name. -/
def treeOf (paths : List Bytes) : IO Tree :=
  paths.foldlM
    (fun tree path => do
      match ← readOctets path, tree.locate path with
      | .ok contents, .ok l =>
        let names := l.dropLast.intersperse [Path.separator]
        let (tree, _) := tree.makeDirectories names.flatten
        return tree.put l.dropLast (l.getLastD []) (.file contents)
      | _, _ => return tree)
    Tree.empty

/-- The environment, as far as it is looked at. -/
def environment : IO Environment := do
  let pairs ← [rootVariable, commandVariable].mapM fun known => do
    return (known, (← IO.getEnv (String.ofList known)).map fun v => Utf8.encode v.toList)
  return fun wanted => (pairs.find? fun p => p.1 == wanted).bind Prod.snd

/-- Carries out a call. -/
def carryOut {α : Type} : Call α → IO α
  | .read path => readOctets path
  | .start c => do
    let tree ← treeOf (c.program :: c.arguments)
    return ((Call.start c).onTree (Utility.launch (← environment)) tree).2
  | .makeDirectories path => attempt (IO.FS.createDirAll (name path))
  | .write dir file contents => attempt (IO.FS.writeBinFile (entry dir file) ⟨contents.toArray⟩)
  | .rename dir old new => attempt (IO.FS.rename (entry dir old) (entry dir new))
  | .unlink dir file => try IO.FS.removeFile (entry dir file) catch _ => return ()

/-- Carries out the calls of a script, to its end. -/
def play {α : Type} : Script α → IO α
  | .done a => return a
  | .call c next => do play (next (← carryOut c))

end ErrnoBindings.Program

open ErrnoBindings in
/-- The program: prints what the run came to, and exits with its status. The tree of the outcome, which is not at hand,
is not looked at. -/
def main (args : List String) : IO UInt32 := do
  let words := (String.ofList programName :: args).map fun a => Utf8.encode a.toList
  let o := (← Program.play (Script.run (← Program.environment) words)) Tree.empty
  IO.print (String.ofList o.output)
  IO.eprint (String.ofList o.errors)
  if let some fault := o.report then
    IO.eprint (String.ofList fault.report)
  return UInt32.ofNat o.status
