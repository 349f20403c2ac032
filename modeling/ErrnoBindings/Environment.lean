import ErrnoBindings.Text.Basic

/-!
# The environment

The program is started with variables, each of which holds octets. It looks at two of them, and so do the commands
that it runs, since a command is started with the same environment. A variable that is set to nothing counts as
not set.
-/

namespace ErrnoBindings

/-- The environment: what each variable holds, if it is set. -/
abbrev Environment := Text → Option Bytes

/-- The variable that names the output root. -/
def rootVariable : Text := "HOSTERRNO_ROOT".toList

/-- The variable that holds the listing command. -/
def commandVariable : Text := "HOSTERRNO_COMMAND".toList

/-- What a variable holds, unless that is nothing. -/
def Environment.value? (env : Environment) (name : Text) : Option Bytes :=
  (env name).filter fun v => !v.isEmpty

end ErrnoBindings
