import ExprLang.CommandLine

namespace ExprLang

def readText (path : String) : IO (Option String) := do
  try
    return some (← IO.FS.readFile path)
  catch _ => return none

def respond (args : List String) : IO Response := do
  match Command.ofArguments? .none args with
  | none => return .refusal
  | some c =>
    match c.path? with
    | none => return .ofCommand none c
    | some path => return .ofCommand (← readText path) c

end ExprLang

def main (args : List String) : IO UInt32 := do
  let r ← ExprLang.respond args
  IO.print r.out
  IO.eprint r.err
  return r.exitCode
