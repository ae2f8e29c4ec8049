import ResourceLanguage.CommandLine.Arguments

/-!
The texts that explain the command line.
-/

namespace ResourceLanguage.CommandLine

def versionText : String := "relang 0.1.0\n"

def textOf (lines : List String) : String := String.join (lines.map (· ++ "\n"))

/-- The options that all commands on projects share. -/
def commonOptions : List String :=
  ["      --source-root <SOURCE_ROOT>  Source code root directory (overrides config file)",
   "  -v, --verbose                    Enable verbose output"]

def helpText : Option Topic → String
  | none => textOf
      ["A fast CLI tool that flags and restores default-language overrides in .resx resource files",
       "",
       "Usage: relang [COMMAND]",
       "",
       "Commands:",
       "  check  Check for resource files that override the default language",
       "  fix    Restore the default language of flagged resource files",
       "  init   Initialize a new .relangrc.json configuration file",
       "  help   Print this message or the help of the given subcommand(s)",
       "",
       "Options:",
       "  -h, --help     Print help",
       "  -V, --version  Print version"]
  | some .check => textOf
      (["Check for resource files that override the default language",
        "",
        "Usage: relang check [OPTIONS]",
        "",
        "Options:"] ++ commonOptions ++
       ["  -h, --help                       Print help"])
  | some .fix => textOf
      (["Restore the default language of flagged resource files",
        "",
        "Usage: relang fix [OPTIONS]",
        "",
        "Options:"] ++ commonOptions ++
       ["      --apply                      Actually rewrite resource files (default is dry-run)",
        "      --document <PATH>            Only fix diagnostics reported in this source file",
        "  -h, --help                       Print help"])
  | some .init => textOf
      ["Initialize a new .relangrc.json configuration file",
       "",
       "Usage: relang init",
       "",
       "Options:",
       "  -h, --help  Print help"]
  | some .help => textOf
      ["Print this message or the help of the given subcommand(s)",
       "",
       "Usage: relang help [COMMAND]...",
       "",
       "Arguments:",
       "  [COMMAND]...  Print help for the subcommand(s)"]

end ResourceLanguage.CommandLine
