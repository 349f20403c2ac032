import ErrnoBindings.Path
import ErrnoBindings.Text.Terminal
import ErrnoBindings.Text.Utf8

/-!
# Help and version

The program describes itself under the name by which it was called: the last name of the path in its first
argument, or its own name when there is no such name that is UTF-8. There is a short description, one line for
each parameter, and a full one with room for more.

Of the version there is one text here, for `-V` and for `--version`. A program as it is built and handed out says more
when it is asked with `--version`: on two further lines, from which commit it was built, and whether it was built for
debugging. These lines are a matter of the build, and no rule of this library, so the text stops at the first.
-/

namespace ErrnoBindings

/-- The program's own name. -/
def programName : Text := "hosterrno".toList

/-- The name by which the program was called. -/
def calledName (args : List Bytes) : Text :=
  ((args.head?.bind Path.fileName?).bind Utf8.decode?).getD programName

namespace Help

/-- What the program does. -/
def about : Text := "Generate the host errno header or implementation from `errno -l`".toList

/-- How the program is called. The name is given as a terminal would show it. -/
def usage (called : Text) : Text := "Usage: ".toList ++ Terminal.plain called ++ " [OPTIONS] <KIND>".toList

/-- The lines of the short description. -/
def shortLines (called : Text) : List Text :=
  [about, [], usage called, []] ++
  ["Arguments:",
    "  <KIND>  which file to generate [possible values: h, c]",
    "",
    "Options:",
    "  -C, --root <ROOT>          directory containing the inc/ and src/ trees " ++
      "[env: HOSTERRNO_ROOT] [default: .]",
    "      --errno-command <CMD>  command that lists the host's error codes " ++
      "[env: HOSTERRNO_COMMAND] [default: errno -l]",
    "      --listing <FILE>       read a captured listing instead of running a command",
    "  -v, --verbose              report where the table came from and where the file went",
    "      --timings              print timings",
    "  -h, --help                 Print help (see more with '--help')",
    "  -V, --version              Print version"].map String.toList

/-- The lines of the full description. -/
def fullLines (called : Text) : List Text :=
  [about, [], usage called, []] ++
  ["Arguments:",
    "  <KIND>",
    "          which file to generate",
    "",
    "          Possible values:",
    "          - h: the header, inc/host/errno.h",
    "          - c: the implementation, src/host/errno.c",
    "",
    "Options:",
    "  -C, --root <ROOT>",
    "          directory containing the inc/ and src/ trees [env: HOSTERRNO_ROOT] [default: .]",
    "",
    "      --errno-command <CMD>",
    "          command that lists the host's error codes [env: HOSTERRNO_COMMAND] [default: errno -l]",
    "",
    "      --listing <FILE>",
    "          read a captured listing instead of running a command",
    "",
    "  -v, --verbose",
    "          report where the table came from and where the file went",
    "",
    "      --timings",
    "          print timings",
    "",
    "  -h, --help",
    "          Print help (see a summary with '-h')",
    "",
    "  -V, --version",
    "          Print version"].map String.toList

/-- The help text, in full or in short. -/
def text (full : Bool) (called : Text) : Text :=
  unlines (if full then fullLines called else shortLines called)

/-- The version line, which is all that is said of the version here: what a build says about itself behind it, when
it is asked with `--version`, is left out. -/
def versionLine : Text := programName ++ " 0.1.0".toList

end Help

end ErrnoBindings
