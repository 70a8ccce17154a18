import SymExec.Console.Libraries
import SymExec.Console.ProgramSteps
import SymExec.Console.Types

/-!
# Requests

The answer to a request, by its kind.
-/

namespace SymExec.Console

def answer (d : Data) : Data :=
  match (d.get "op").str?.getD "" with
  | "vexop" => operations d
  | "vexop_info" => operationNames d
  | "ccall" => helperCalls d
  | "state" => states d
  | "prog" => programs d
  | "types" => types d
  | "graph" => graphs d
  | "variables" => variableTable d
  | "region" => regions d
  | "varset" => variableSets d
  | "varman" => functionVariables d
  | "codeloc" => locations d
  | "hub" => hubs d
  | "hooks" => hooks d
  | "library" => libraries d
  | _ => .null

end SymExec.Console
