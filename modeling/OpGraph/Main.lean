import OpGraph.Command.Compile
import OpGraph.Command.RunId

/-!
# The command line

Reads the arguments, the environment and the files that are named, and prints what the command comes to.
-/

namespace OpGraph

/-- Reads what stands at a path, with everything below it. Entries are filed under the path to them from the working
directory. -/
partial def readTree (path : String) (files : Files) : IO Files := do
  let place := (← IO.currentDir) / path
  let key := "/".intercalate (Files.resolve true (Files.parts path))
  if ← place.isDir then
    (← place.readDir).foldlM (fun files entry => readTree (path ++ "/" ++ entry.fileName) files)
      { files with dirs := key :: files.dirs }
  else if ← place.pathExists then
    return { files with files := files.files.insert key (← IO.FS.readFile place) }
  else
    return files

/-- The files a request needs. -/
def readFiles : Request → IO Files
  | .compile s => ([s.model, s.kernels].filter (· ≠ "")).foldlM (fun files path => readTree path files) {}
  | _ => return {}

/-- The variables of the environment that matter. -/
def readEnvironment : IO Environment :=
  Flag.envNames.foldlM (fun env name => return (← IO.getEnv name).elim env (env.insert name ·)) {}

end OpGraph

open OpGraph in
/-- Follows the command line. -/
def main (args : List String) : IO UInt32 := do
  let env ← readEnvironment
  let request := Request.ofArguments env args
  let files ← readFiles request
  let run := RunId.ofBytes ((← IO.getRandomBytes 16).toList.map (·.toNat))
  let result := request.run env files run .ascending
  IO.print result.output
  if let some message := result.message then IO.eprintln message
  return UInt32.ofNat result.code
