import ResourceLanguage.Config.Reader
import ResourceLanguage.Failure

/-!
Finding and loading the configuration of a project.
-/

namespace ResourceLanguage.Config

open ResourceLanguage.Glob

def validatePatterns (failure : String → PatternError → Failure) :
    List String → Except Failure Unit
  | [] => .ok ()
  | text :: texts =>
      match Pattern.parse text with
      | .ok _ => validatePatterns failure texts
      | .error error => .error (failure text error)

/-- Checks the values of a configuration. Every ignored path has to be a pattern, an included one
only if it has wildcards. An empty suffix would ignore every file. -/
def validate (config : Config) : Except Failure Unit := do
  validatePatterns .invalidIgnore config.ignores
  validatePatterns .invalidInclude (config.includes.filter isPattern)
  if config.ignoreFileSuffixes.any String.isEmpty then .error .emptySuffix

/-- The nearest configuration file among some directories, the nearest first. A repository's
directory is the last one to be looked at. -/
def findIn (files : Workspace) : List Path → Option Path
  | [] => none
  | directory :: directories =>
      let path := directory.join fileName
      if files.pathExists path then some path
      else if files.pathExists (directory.join ".git") then none
      else findIn files directories

def find (files : Workspace) (directory : Path) : Option Path :=
  findIn files directory.ancestors

/-- A configuration, and whether a file has it. -/
structure Loaded where
  config : Config
  fromFile : Bool
  deriving DecidableEq, Repr

def loadFile (files : Workspace) (path : Path) : Except Failure Config := do
  let text ← (files.readText path).mapError (.unreadableConfig path)
  let config ← (parse text).mapError (.malformedConfig path)
  config.validate
  return config

def load (files : Workspace) (directory : Path) : Except Failure Loaded :=
  match find files directory with
  | some path => (loadFile files path).map fun config => { config, fromFile := true }
  | none => .ok { config := {}, fromFile := false }

end ResourceLanguage.Config
