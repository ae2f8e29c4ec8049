import ResourceLanguage.Path

/-!
Command lines. Arguments are judged from left to right, and the first one that is wrong, or that
asks for help, decides.
-/

namespace ResourceLanguage.CommandLine

/-- The commands, and the one that explains them. -/
inductive Topic where
  | check
  | fix
  | init
  | help
  deriving DecidableEq, Repr

def Topic.ofName? : String → Option Topic
  | "check" => some .check
  | "fix" => some .fix
  | "init" => some .init
  | "help" => some .help
  | _ => none

inductive UsageError where
  | invalidSubcommand
  | unknownArgument
  | invalidValue
  | argumentConflict
  | tooManyValues
  deriving DecidableEq, Repr

structure Options where
  sourceRoot : Option Path := none
  verbose : Bool := false
  /-- Whether fixes are committed. -/
  apply : Bool := false
  /-- The only file whose issues are fixed. -/
  document : Option Path := none
  deriving DecidableEq, Repr

inductive Command where
  | check (options : Options)
  | fix (options : Options)
  | init
  deriving DecidableEq, Repr

/-- What a command line asks for. Help without a topic is about all commands. -/
inductive Request where
  | run (command : Command)
  | noCommand
  | help (topic : Option Topic)
  | version
  | misuse (error : UsageError)
  deriving DecidableEq, Repr

inductive OptionName where
  | sourceRoot
  | verbose
  | apply
  | document
  | help
  deriving DecidableEq, Repr

namespace OptionName

def long : OptionName → String
  | .sourceRoot => "source-root"
  | .verbose => "verbose"
  | .apply => "apply"
  | .document => "document"
  | .help => "help"

def short? : OptionName → Option Char
  | .verbose => some 'v'
  | .help => some 'h'
  | _ => none

def takesValue : OptionName → Bool
  | .sourceRoot => true
  | .document => true
  | _ => false

def ofTopic : Topic → List OptionName
  | .check => [.sourceRoot, .verbose, .help]
  | .fix => [.sourceRoot, .verbose, .apply, .document, .help]
  | .init => [.help]
  | .help => []

end OptionName

/-- The arguments of a command so far. -/
structure Progress where
  /-- The options that were given, with their values. -/
  given : List (OptionName × String) := []
  /-- An option whose value is still to be judged, and the value if it has come. -/
  pending : Option (OptionName × Option String) := none
  deriving DecidableEq, Repr

namespace Progress

/-- Accepts an option. None may be given twice, and no value may be empty. -/
def give (progress : Progress) (name : OptionName) (value : String) :
    Except Request Progress :=
  if progress.given.any (·.1 == name) then .error (.misuse .argumentConflict)
  else if name.takesValue && value.isEmpty then .error (.misuse .invalidValue)
  else .ok { progress with given := progress.given ++ [(name, value)] }

def settle (progress : Progress) : Except Request Progress :=
  match progress.pending with
  | none => .ok progress
  | some (_, none) => .error (.misuse .invalidValue)
  | some (name, some value) => { progress with pending := none }.give name value

/-- Takes an option, which may have a value attached to it. -/
def option (progress : Progress) (topic : Topic) (name : OptionName) (attached : Option String) :
    Except Request Progress := do
  if name.takesValue then
    let progress ← progress.settle
    match attached with
    | some value => progress.give name value
    | none => return { progress with pending := some (name, none) }
  else if attached.isSome then .error (.misuse .tooManyValues)
  else
    let progress ← progress.settle
    if name = .help then .error (.help (some topic)) else progress.give name ""

def cluster (progress : Progress) (topic : Topic) : List Char → Except Request Progress
  | [] => .ok progress
  | c :: cs =>
      match (OptionName.ofTopic topic).find? (·.short? == some c) with
      | some name => do
          let progress ← progress.option topic name none
          progress.cluster topic cs
      | none => .error (.misuse .unknownArgument)

/-- Takes a long option without its dashes. -/
def longOption (progress : Progress) (topic : Topic) (text : List Char) :
    Except Request Progress :=
  let name := String.ofList (text.takeWhile (· != '='))
  let attached := ((text.dropWhile (· != '=')).tail?).map String.ofList
  match (OptionName.ofTopic topic).find? (·.long == name) with
  | some name => progress.option topic name attached
  | none => .error (.misuse .unknownArgument)

/-- Takes a word. It is the value of a pending option or else one too many. -/
def word (progress : Progress) (text : String) : Except Request Progress :=
  match progress.pending with
  | some (name, none) => .ok { progress with pending := some (name, some text) }
  | _ => .error (.misuse .unknownArgument)

/-- Takes all arguments of a command. After `--` come words only, of which commands have none. -/
def arguments (progress : Progress) (topic : Topic) : List String → Except Request Progress
  | [] => progress.settle
  | arg :: args =>
      match arg.toList with
      | ['-', '-'] => if args.isEmpty then progress.settle else .error (.misuse .unknownArgument)
      | '-' :: '-' :: text => do
          let progress ← progress.longOption topic text
          progress.arguments topic args
      | '-' :: c :: cs => do
          let progress ← progress.cluster topic (c :: cs)
          progress.arguments topic args
      | _ => do
          let progress ← progress.word arg
          progress.arguments topic args

def options (progress : Progress) : Options where
  sourceRoot := progress.given.lookup .sourceRoot
  verbose := (progress.given.lookup .verbose).isSome
  apply := (progress.given.lookup .apply).isSome
  document := progress.given.lookup .document

end Progress

namespace Request

/-- The request for help on the topic that some words name. Topics have no topics of their own. -/
def ofHelpWords : List String → Request
  | [] => .help none
  | [word] =>
      match Topic.ofName? word with
      | some topic => .help (some topic)
      | none => .misuse .invalidSubcommand
  | _ => .misuse .invalidSubcommand

def ofCommand (topic : Topic) (args : List String) : Request :=
  match topic with
  | .help => ofHelpWords args
  | topic =>
      match Progress.arguments {} topic args with
      | .error request => request
      | .ok progress =>
          match topic with
          | .check => .run (.check progress.options)
          | .fix => .run (.fix progress.options)
          | _ => .run .init

/-- The request of a long option in front of any command. -/
def ofLongOption (text : List Char) : Request :=
  let name := String.ofList (text.takeWhile (· != '='))
  let isAttached := text.contains '='
  if name = "help" then if isAttached then .misuse .tooManyValues else .help none
  else if name = "version" then if isAttached then .misuse .tooManyValues else .version
  else .misuse .unknownArgument

def ofArguments : List String → Request
  | [] => .noCommand
  | arg :: args =>
      match Topic.ofName? arg with
      | some topic => ofCommand topic args
      | none =>
          match arg.toList with
          | ['-', '-'] =>
              match args with
              | [] => .noCommand
              | word :: _ =>
                  if (Topic.ofName? word).isSome then .misuse .unknownArgument
                  else .misuse .invalidSubcommand
          | '-' :: '-' :: text => ofLongOption text
          | '-' :: 'h' :: _ => .help none
          | '-' :: 'V' :: _ => .version
          | '-' :: _ :: _ => .misuse .unknownArgument
          | _ => .misuse .invalidSubcommand

end Request

end ResourceLanguage.CommandLine
