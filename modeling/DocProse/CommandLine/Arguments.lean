/-!
# Command line arguments

The arguments name one command, `extensions`, `ast` or `comments`; the last two
take paths.  Before and behind the command there may be options: `--verbose` and
`--config` with the path of a settings file, which also have one letter each, and
requests for help or, before the command, for the version.  Two dashes end the
options.

Each option may stand once before the command and once behind it, and what stands
behind it wins.  Arguments are read from left to right: the first mistake or
request decides.
-/

namespace DocProse.CommandLine

/-- What is to be done. -/
inductive Command where
  /-- List the extensions that are handled. -/
  | extensions
  /-- Print the documents of files as JSON. -/
  | ast (paths : List String)
  /-- List the comments of files. -/
  | comments (paths : List String)
  deriving DecidableEq, Repr, Inhabited

/-- The options of a command line or a part of it. -/
structure Options where
  /-- Whether more is logged. -/
  verbose : Bool := false
  /-- The path of the settings file. -/
  config : Option String := none
  deriving DecidableEq, Repr, Inhabited

/-- A command with its options. -/
structure Invocation where
  /-- The options. -/
  options : Options
  /-- The command. -/
  command : Command
  deriving DecidableEq, Repr, Inhabited

/-- Why there is nothing to be done. -/
inductive Stop where
  /-- Help was asked for. -/
  | help
  /-- The version was asked for. -/
  | version
  /-- The arguments are wrong. -/
  | misuse
  deriving DecidableEq, Repr, Inhabited

/-- How to use the program. -/
def usageLines : List String :=
  ["Usage: doctext [OPTIONS] <COMMAND>",
    "",
    "Commands:",
    "  extensions        List the file extensions that are processed",
    "  ast <PATHS>       Print the document tree of each file as JSON",
    "  comments <PATHS>  List the documentation comments of each file",
    "  help [COMMAND]    Show how to use the program",
    "",
    "Options:",
    "  -v, --verbose        Log more",
    "  -c, --config <FILE>  Path of the settings file, doctext.toml by default",
    "  -h, --help           Show how to use the program",
    "  -V, --version        Show the version"]

/-! ## Options -/

/-- Whether an argument is an option.  A single dash is not. -/
def isOption (arg : String) : Bool := arg.startsWith "-" && arg != "-"

/-- Options with the settings file named. -/
def Options.withConfig (o : Options) (path : String) : Except Stop Options :=
  if path.isEmpty || o.config.isSome then .error .misuse else .ok { o with config := some path }

/-- Options with more logging. -/
def Options.withVerbose (o : Options) : Except Stop Options :=
  if o.verbose then .error .misuse else .ok { o with verbose := true }

/-- Options with the settings file that the next argument names. -/
def Options.withNext (o : Options) : List String → Except Stop (Options × Bool)
  | [] => .error .misuse
  | path :: _ =>
    if isOption path then .error .misuse else (o.withConfig path).map fun o => (o, true)

/-- Options after letters behind one dash, and whether the next argument was taken.  The letter
for the settings file takes what follows it, behind an equals sign or not, as the path. -/
def Options.withLetters (o : Options) (versionKnown : Bool) (next : List String) :
    List Char → Except Stop (Options × Bool)
  | [] => .ok (o, false)
  | 'v' :: letters => do
    let o ← o.withVerbose
    o.withLetters versionKnown next letters
  | 'h' :: _ => .error .help
  | 'V' :: _ => .error (if versionKnown then .version else .misuse)
  | ['c'] => o.withNext next
  | 'c' :: '=' :: path => (o.withConfig (String.ofList path)).map fun o => (o, false)
  | 'c' :: path => (o.withConfig (String.ofList path)).map fun o => (o, false)
  | _ => .error .misuse

/-- Options after one more, and whether the next argument was taken. -/
def Options.withOption (o : Options) (versionKnown : Bool) (arg : String) (next : List String) :
    Except Stop (Options × Bool) :=
  match arg.toList with
  | '-' :: '-' :: name =>
    if name = "verbose".toList then o.withVerbose.map fun o => (o, false)
    else if name = "help".toList then .error .help
    else if name = "version".toList then .error (if versionKnown then .version else .misuse)
    else if name = "config".toList then o.withNext next
    else if "config=".toList.isPrefixOf name then
      (o.withConfig (String.ofList (name.drop 7))).map fun o => (o, false)
    else .error .misuse
  | '-' :: letters => o.withLetters versionKnown next letters
  | _ => .error .misuse

/-! ## Commands -/

/-- Paths behind some others, none of which may be empty. -/
def addPaths (paths more : List String) : Except Stop (List String) :=
  if more.any String.isEmpty then .error .misuse else .ok (paths ++ more)

/-- The arguments behind a command: its options and its paths. -/
def readOperands (o : Options) (takesPaths : Bool) (paths : List String) :
    List String → Except Stop (Options × List String)
  | [] => .ok (o, paths)
  | arg :: rest =>
    if arg = "--" then
      if takesPaths || rest.isEmpty then (addPaths paths rest).map fun paths => (o, paths)
      else .error .misuse
    else if isOption arg then
      match o.withOption false arg rest with
      | .ok (o, took) => readOperands o takesPaths paths (rest.drop took.toNat)
      | .error stop => .error stop
    else if takesPaths then
      match addPaths paths [arg] with
      | .ok paths => readOperands o takesPaths paths rest
      | .error stop => .error stop
    else .error .misuse
termination_by args => args.length
decreasing_by all_goals (simp only [List.length_drop, List.length_cons]; omega)

/-- Options where those behind the command win over those before it. -/
def Options.override (before behind : Options) : Options :=
  ⟨before.verbose || behind.verbose, behind.config.or before.config⟩

/-- A command that takes paths, of which there has to be one. -/
def withPaths (before : Options) (args : List String) (command : List String → Command) :
    Except Stop Invocation := do
  let (behind, paths) ← readOperands {} true [] args
  if paths.isEmpty then .error .misuse else return ⟨before.override behind, command paths⟩

/-- The names of the commands, and of the one that gives help. -/
def commandNames : List String := ["extensions", "ast", "comments", "help"]

/-- A request for help on a command. -/
def helpOn : List String → Stop
  | [] => .help
  | [name] => if commandNames.contains name then .help else .misuse
  | _ => .misuse

/-- The arguments from some options on. -/
def readFrom (o : Options) : List String → Except Stop Invocation
  | [] => .error .misuse
  | arg :: rest =>
    if arg = "--" then .error .misuse
    else if isOption arg then
      match o.withOption true arg rest with
      | .ok (o, took) => readFrom o (rest.drop took.toNat)
      | .error stop => .error stop
    else if arg = "extensions" then do
      let (behind, _) ← readOperands {} false [] rest
      return ⟨o.override behind, .extensions⟩
    else if arg = "ast" then withPaths o rest .ast
    else if arg = "comments" then withPaths o rest .comments
    else if arg = "help" then .error (helpOn rest)
    else .error .misuse
termination_by args => args.length
decreasing_by simp only [List.length_drop, List.length_cons]; omega

/-- The arguments. -/
def readArguments (args : List String) : Except Stop Invocation := readFrom {} args

end DocProse.CommandLine
