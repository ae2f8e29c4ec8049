import ResourceLanguage.CommandLine.Run

/-!
The command line. A command works on a picture of the directories that it may look at, and the
files that it changed in the picture are written back.
-/

namespace ResourceLanguage.CommandLine

/-- Whether commands read a file with this path: sources, resources and configurations. -/
def isOfInterest (path : Path) : Bool :=
  path.extension? == some sourceExtension || path.extension? == some resourceExtension ||
    path.fileName? == some Config.fileName

/-- The paths from which a command may look around. -/
def Command.roots : Command → List Path
  | .check options => "." :: options.sourceRoot.toList
  | .fix options => "." :: options.sourceRoot.toList ++ options.document.toList
  | .init => []

/-- The place of a path, if nothing on the way is a link. -/
def lexicalPlace (current : Place) (path : Path) : Place :=
  path.components.foldl
    (fun place component =>
      match component with
      | .root => []
      | .current => place
      | .parent => place.dropLast
      | .name text => place ++ [text])
    current

def placePath (place : Place) : Path := "/" ++ "/".intercalate place

/-- Adds what stands at a place of the file system, and with `deep` all that is below it. -/
partial def picture (files : Workspace) (place : Place) (deep : Bool) : IO Workspace := do
  let here := (← IO.currentDir) / placePath place
  if ← here.isDir then
    let mut files := files.makeDirectory place
    for entry in ← here.readDir do
      let inner := place ++ [entry.fileName]
      if deep then files ← picture files inner true
      else if ← entry.path.isDir then files := files.makeDirectory inner
      else files := files.put inner (.file (← content inner))
    return files
  else if ← here.pathExists then
    return (files.makeDirectory place.dropLast).put place (.file (← content place))
  else return files
where
  /-- The content of a file, if a command could read it. -/
  content (place : Place) : IO (List UInt8) := do
    if isOfInterest (placePath place) then
      return (← IO.FS.readBinFile (placePath place)).data.toList
    else return []

/-- The picture for a command: all below its roots, and the directories above them. -/
def pictureFor (command : Command) : IO Workspace := do
  let current := lexicalPlace [] (toString (← IO.currentDir))
  let mut files : Workspace := { entries := [], current }
  for root in "." :: command.roots do
    for above in Path.ancestors root do
      files ← picture files (lexicalPlace current above) false
  for root in command.roots do
    files ← picture files (lexicalPlace current root) true
  return files

/-- Writes the files that differ from those before. -/
def writeBack (before after : Workspace) : IO Unit := do
  for (place, entry) in after.entries do
    match entry with
    | .file content =>
        if before.entry? place ≠ some entry then
          IO.FS.writeBinFile (placePath place) content.toByteArray
    | .directory => pure ()

def perform (command : Command) : IO UInt32 := do
  let palette : Text.Palette := ⟨← (← IO.getStdout).isTty⟩
  let files ← pictureFor command
  let done := command.run files palette
  writeBack files done.files
  IO.print done.out
  IO.eprint done.err
  match done.result with
  | .ok status => return UInt32.ofNat status.code
  | .error error =>
      IO.eprintln ("Error: " ++ error.message)
      return UInt32.ofNat ExitStatus.error.code

end ResourceLanguage.CommandLine

open ResourceLanguage.CommandLine in
def main (args : List String) : IO UInt32 := do
  match Request.ofArguments args with
  | .run command => perform command
  | .noCommand | .help none => IO.print (helpText none); return 0
  | .help topic => IO.print (helpText topic); return 0
  | .version => IO.print versionText; return 0
  | .misuse _ =>
      IO.eprintln "error: invalid arguments\n\nFor more information, try '--help'."
      return 2
