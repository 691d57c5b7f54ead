import Scriptlet.CommandLine

/-!
# The program

Looks up the files and the input that a request needs, and carries out the response.
-/
set_option autoImplicit false

namespace Scriptlet

def faultOf : IO.Error → File.Fault
  | .noFileOrDirectory _ _ _ => .missing
  | .permissionDenied _ _ _ => .denied
  | .inappropriateType _ 21 _ => .directory
  | error => .other (toString error)

def findFile (path : String) : IO File := do
  try
    let content ← IO.FS.readBinFile path
    return .bytes content.toList
  catch error =>
    return .unreadable (faultOf error)

def readInput : IO (List UInt8) := do
  let content ← (← IO.getStdin).readBinToEnd
  return content.toList

def surroundings (arguments : List String) : IO (File × List UInt8) := do
  match Request.ofArguments arguments with
  | .ok (.execute _ (some path)) =>
    let file ← findFile path
    return (file, [])
  | .ok (.execute _ none) =>
    let input ← readInput
    return (.unreadable .missing, input)
  | _ => return (.unreadable .missing, [])

end Scriptlet

open Scriptlet in
def main (arguments : List String) : IO UInt32 := do
  let (file, input) ← surroundings arguments
  let response := CommandLine.respond callDepth (fun _ => file) input arguments
  IO.print response.stdout
  IO.eprint response.stderr
  return response.code
