/-
  ErrorContract.Main
  ──────────────────
  **THE PROGRAM.**

  It reads its arguments, the variables of the environment that it and its
  configuration ask for, and its configuration file; what comes of them is
  decided elsewhere.
-/
import ErrorContract.CommandLine.Startup

open ErrorContract CommandLine

/-- The variables with the given names, as far as they are set. -/
def readVariables (names : List String) : IO (List (String × List UInt8)) :=
  names.filterMapM fun name => do
    return (← IO.getEnv name).map fun value => (name, Utf8.encode value)

/-- The bytes of a file, if it can be read. -/
def readBytes (path : String) : IO (Option (List UInt8)) := do
  try
    return some (← IO.FS.readBinFile path).toList
  catch _ => return none

/-- The bytes of the file that arguments name, if they name one. -/
def readConfig (env : Environment) (arguments : List String) : IO (Option (List UInt8)) :=
  match Arguments.parse env arguments with
  | .ok ⟨some path, _, _⟩ => readBytes path
  | _ => return none

/-- The program. -/
def main (arguments : List String) : IO UInt32 := do
  let own ← readVariables ([Setting.config, .listen, .logFilter].map Setting.variable)
  let content ← readConfig ⟨own⟩ arguments
  let asked ← readVariables (Template.variableNames (Utf8.decodeLossy (content.getD [])))
  let ending := run ⟨own ++ asked⟩ (fun _ => content) Net.SocketAddress.text arguments
  for line in ending.output do IO.println line
  IO.eprint ending.error
  return ending.code.toUInt32
