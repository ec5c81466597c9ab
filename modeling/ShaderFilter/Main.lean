import ShaderFilter.Cli.Run

/-!
# The program

The outer layer of the command line: it takes in the environment and the part of the file system that a
run looks at, and writes what the run leaves behind.
-/

namespace ShaderFilter.Program

open Files (Entry Path.steps Path.join Place Tree)

/-- Takes in what is at a path. -/
def takePath (t : Tree) (path : String) : IO Tree := do
  let place := t.working.walk (Path.steps path)
  try
    return t.add place (.file (← IO.FS.readBinFile path).toList)
  catch _ =>
    if ← ((← IO.currentDir) / path).isDir then return t.add place .folder
    return t

/-- Takes in a folder with the files directly in it. -/
def takeFolder (t : Tree) (path : String) : IO Tree := do
  let t ← takePath t path
  let folder := (← IO.currentDir) / path
  if path = "" || !(← folder.isDir) then return t
  (← folder.readDir).toList.foldlM (fun t e => do
    match (← e.path.symlinkMetadata).type with
    | .file => takePath t (Path.join path e.fileName)
    | _ => return t) t

/-- The file system as far as a command line looks at it. -/
def takeTree (env : Cli.Environment) (args : List String) : IO Tree := do
  let working := (Path.steps (← IO.currentDir).toString).filterMap fun
    | .name s => some s
    | _ => none
  let start : Tree := Tree.add { entries := [], working } working .folder
  match Cli.Options.read args with
  | .error _ => return start
  | .ok o =>
    let t ← (env.candidates ++ o.config.toList ++ o.files).foldlM takePath start
    if !o.list then return t
    let folders := (Cli.configuration Config.read? env.toEnvironment t o).dirs
    (folders ++ env.near ++ [env.own]).foldlM takeFolder t

end ShaderFilter.Program

open ShaderFilter in
/-- Runs the command line. The program lies three folders deep in the folder of its sources, where its
build puts it. -/
def main (args : List String) : IO UInt32 := do
  let program := (← IO.appPath).toString
  let env : Cli.Environment := {
    home := ← IO.getEnv "HOME"
    configHome := (← IO.getEnv "XDG_CONFIG_HOME").filter Files.Path.isAbsolute
    program := some program
    sources := ((Files.Path.upwards 5 program).getLast?).getD "" }
  let log := (← IO.getEnv "RUST_LOG").getD "info"
  let outcome := Cli.run env (← Program.takeTree env args) log args
  (← IO.getStderr).putStr outcome.stderr
  (← IO.getStdout).putStr outcome.stdout
  return outcome.exit.toUInt32
