import Collapsing.Calculator.CommandLine

/-!
# The program

The program hands its command line to the library and prints the report.  Only an interactive
session is held line by line, each reply being printed before the next line is read.
-/

namespace Collapsing

/-- How the program is called. -/
def usage : String :=
  "usage: collapsing [-h] [--omega] [--big-omega] [--subscript] [--braces] [--drop-zero]\n" ++
  "                  [--tex] [--verbose] [dom | fund | less_than | lt | hydra] [A] [B]"

/-- A session on the standard input.  It ends when the input does, or when it is left. -/
partial def converseOn (calculator : Calculator) (input output : IO.FS.Stream) : IO Unit := do
  output.putStr "> "
  output.flush
  let line ← input.getLine
  if line.isEmpty then return
  match calculator.respond (Command.ofLine line.toList) with
  | none => return
  | some (reply, next) =>
    output.putStr (String.ofList (Text.unlines reply))
    converseOn next input output

end Collapsing

open Collapsing

def main (args : List String) : IO UInt32 := do
  let output ← IO.getStdout
  let errors ← IO.getStderr
  match CommandLine.parse (args.map String.toList) with
  | .error .help => output.putStrLn usage; return 0
  | .error .misuse => errors.putStrLn usage; return 2
  | .ok invocation =>
    match invocation.report? with
    | some report =>
      output.putStr (String.ofList report.output)
      errors.putStr (String.ofList report.errors)
      return report.exitCode.toUInt32
    | none =>
      output.putStr (String.ofList (Text.unlines (banner.map String.toList)))
      converseOn invocation.calculator (← IO.getStdin) output
      return 0
