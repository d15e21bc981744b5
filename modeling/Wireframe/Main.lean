import Wireframe.Command

/-!
# The program

Reads the files that a request names, and writes its answer.
-/

namespace Wireframe

/-- The bytes of a file. -/
def readPath (path : String) : IO (Except ReadFault (List UInt8)) := do
  try
    let bytes ← IO.FS.readBinFile path
    return .ok bytes.toList
  catch
    | .inappropriateType _ code _ =>
      return .error (if code = 21 then .isFolder else .notFolder)
    | _ => return .error .notFound

end Wireframe

/-- Answers the request that the arguments make. -/
def main (arguments : List String) : IO UInt32 := do
  match Wireframe.Request.ofArguments? arguments with
  | none =>
    IO.eprint Wireframe.Request.usage
    return 2
  | some request =>
    let contents ← request.paths.mapM fun path => do
      return (path, ← Wireframe.readPath path)
    let folder : Wireframe.Folder := fun path => (contents.lookup path).getD (.error .notFound)
    let answer := request.answer folder
    IO.print answer.output
    IO.eprint answer.errors
    return answer.code.toUInt32
