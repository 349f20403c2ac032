import ErrnoBindings.Fault.System

/-!
# Signals by name

A script names a signal by its number or by its name without the three letters that all names begin with, in
letters of either case. Zero is no signal; by the name `EXIT` it stands for the end of the script.
-/

namespace ErrnoBindings.Utility.Shell.Signal

/-- The names of the signals that programs may use as they like, counted from the first and from the last. -/
def freeNames : List Text :=
  let counted (begun : String) (sign : Char) (n : Nat) : Text :=
    begun.toList ++ if n = 0 then [] else sign :: decimal n
  (List.range 16).map (counted "RTMIN" '+') ++ (List.range 15).reverse.map (counted "RTMAX" '-')

/-- The names of the signals, by number from zero. A few have none but their number. -/
def names : List Text :=
  let known := "EXIT".toList :: signalNames.map fun s => s.toList.drop 3
  (known.set 16 (decimal 16)) ++ [decimal 32, decimal 33] ++ freeNames

/-- One more than the greatest signal. -/
def count : Nat := 65

/-- The number of a signal that is named. -/
def ofText? (t : Text) : Option Nat :=
  if t ≠ [] ∧ t.all Char.isDigit then
    let n := Nat.ofDigitChars 10 t 0
    if n < count then some n else none
  else names.findIdx? fun name => t.map Char.toUpper == name

/-- The signals that nothing comes of where nothing is said about them, those that only stop a program included. -/
def harmless : List Nat := [0, 17, 18, 19, 20, 21, 22, 23, 28]

/-- The signals that nothing can be said about. -/
def unstoppable : List Nat := [9, 19]

/-- The signal that is sent where none is named. -/
def standard : Nat := 15

/-- What is added to a signal to make a status of it. -/
def statusOf (signal : Nat) : Nat := 128 + signal

end ErrnoBindings.Utility.Shell.Signal
