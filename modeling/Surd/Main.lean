import Surd.Session

/-! The program on a real system. What a run may look at is read first, the run itself is a
function, and what it changed is written afterwards. -/

namespace Surd

def locationText (location : Location) : String := "/" ++ "/".intercalate location

def entryOnDisk (location : Location) : IO (Option FileEntry) := do
  let text := locationText location
  try
    return some (.file (← IO.FS.readBinFile text))
  catch _ =>
    let place ← IO.FS.realPath text
    return if ← place.isDir then some .directory else none

def treeOnDisk (locations : List Location) : IO FileTree :=
  locations.foldlM (fun tree location => do
    match ← entryOnDisk location with
    | some entry => return tree.put location entry
    | none => return tree) ⟨[]⟩

def storeEntry (change : Location × FileEntry) : IO Unit :=
  match change.2 with
  | .directory => IO.FS.createDirAll (locationText change.1)
  | .file content => IO.FS.writeBinFile (locationText change.1) content
  | .sink => return

def systemEnvironment : IO Environment := do
  let current ← IO.currentDir
  let database ← try IO.FS.readFile "/etc/passwd" catch _ => pure ""
  return {
    current := Path.ofText current.toString
    home := (← IO.getEnv "HOME").getD "/"
    users := Environment.usersOf database
    workspace := ← IO.getEnv "EXACTSQRT_HOME"
    draw := fun _ => SquareRoot.drawing }

end Surd

def main (argv : List String) : IO UInt32 := do
  let environment ← Surd.systemEnvironment
  let stdout ← IO.getStdout
  let stderr ← IO.getStderr
  let call : Surd.Call := {
    argv
    stdoutTerminal := ← stdout.isTty
    stderrTerminal := ← stderr.isTty
    complete := true
    interruption := none }
  let before ← Surd.treeOnDisk (Surd.Session.touched environment argv)
  let outcome := Surd.Session.run environment call before Surd.Context.fresh
  (Surd.FileTree.changes before outcome.tree).reverse.forM Surd.storeEntry
  stdout.putStr outcome.transcript.stdout
  stderr.putStr outcome.transcript.stderr
  match outcome.ending with
  | .exit code => return UInt32.ofNat code
  | .raised fault =>
    stderr.putStrLn (fault.kind.name ++ ": " ++ fault.message)
    return 1
