import ProtoExtensions.Options

/-!
The arguments of the command line. A command is `check` or `generate`, each with the directory of
the descriptors, which is the working directory where none is named; `generate` takes options too.
The flag `-v` may stand anywhere, and everything behind `--` is a directory.
-/

namespace ProtoExtensions

/-- The options of `generate` that take a value. -/
inductive Setting where
  | output
  | mapping
  | outputStyle
  | outputMapping
  | config
  deriving DecidableEq, Repr

namespace Setting

/-- The name of a setting, behind two dashes. -/
def name : Setting → String
  | output => "output"
  | mapping => "mapping"
  | outputStyle => "output-style"
  | outputMapping => "output-mapping"
  | config => "config"

/-- All settings. -/
def all : List Setting :=
  [output, mapping, outputStyle, outputMapping, config]

end Setting

/-- Why arguments make no command. -/
inductive UsageFault where
  | noCommand
  | unexpected (argument : String)
  | noValue (setting : Setting)
  | repeated (setting : Setting)
  | badStyle (value : String)
  deriving DecidableEq, Repr

/-- The text that reports a usage fault. -/
def UsageFault.message : UsageFault → String
  | noCommand => "a command is needed: check or generate"
  | unexpected argument => "unexpected argument '" ++ argument ++ "'"
  | noValue setting => "--" ++ setting.name ++ " needs a value"
  | repeated setting => "--" ++ setting.name ++ " is given more than once"
  | badStyle value => "'" ++ value ++ "' is no output style: package or none"

/-- What one argument, or an option with its value, says. -/
inductive Argument where
  | verbose
  | version
  | assign (setting : Setting) (value : String)
  | positional (text : String)
  deriving DecidableEq, Repr

/-- How an argument is to be understood. An option whose value does not stand in the same argument
awaits it. -/
inductive ArgumentReading where
  | complete (argument : Argument)
  | awaiting (setting : Setting)
  | unknown
  deriving DecidableEq, Repr

namespace Argument

/-- Understands a run of short flags. The directory of `-o` may follow in the same run. -/
def ofShortFlags : List Char → ArgumentReading
  | [] => .complete .verbose
  | 'v' :: rest => ofShortFlags rest
  | 'V' :: _ => .complete .version
  | ['o'] => .awaiting .output
  | 'o' :: '=' :: value => .complete (.assign .output (String.ofList value))
  | 'o' :: value => .complete (.assign .output (String.ofList value))
  | _ => .unknown

/-- Understands the part of a long option behind its dashes. -/
def ofLongName (chars : List Char) : ArgumentReading :=
  let name := String.ofList (chars.takeWhile (· != '='))
  match Setting.all.find? (·.name == name), chars.dropWhile (· != '=') with
  | some setting, [] => .awaiting setting
  | some setting, _ :: value => .complete (.assign setting (String.ofList value))
  | none, [] =>
    if name = "verbose" then .complete .verbose
    else if name = "version" then .complete .version
    else .unknown
  | none, _ => .unknown

/-- Understands one argument in front of `--`. A single dash is a name like any other. -/
def read (text : String) : ArgumentReading :=
  match text.toList with
  | '-' :: '-' :: name => ofLongName name
  | ['-'] => .complete (.positional text)
  | '-' :: flags => ofShortFlags flags
  | _ => .complete (.positional text)

/-- Whether a text can be the value of an option that stands in front of it. -/
def isValue (text : String) : Bool :=
  match text.toList with
  | [] => false
  | ['-'] => true
  | c :: _ => c != '-'

/-- Understands arguments in order. What stands behind a request for the version does not matter. -/
def readAll : List String → Except UsageFault (List Argument)
  | [] => .ok []
  | "--" :: texts => .ok (texts.map .positional)
  | text :: texts =>
    match read text with
    | .unknown => .error (.unexpected text)
    | .complete .version => .ok [.version]
    | .complete argument => (readAll texts).map (argument :: ·)
    | .awaiting setting =>
      match texts with
      | [] => .error (.noValue setting)
      | value :: more =>
        if isValue value then (readAll more).map (.assign setting value :: ·)
        else .error (.noValue setting)

end Argument

/-- What `generate` is asked for. -/
structure GenerateRequest where
  path : Option String := none
  output : Option String := none
  mappings : List String := []
  outputStyle : Option OutputStyle := none
  outputMapping : Option String := none
  config : Option String := none
  deriving DecidableEq, Repr

/-- A value put where there must be none yet. -/
def setOnce (setting : Setting) (old : Option String) (value : String) :
    Except UsageFault (Option String) :=
  if old.isSome then .error (.repeated setting) else .ok (some value)

namespace GenerateRequest

/-- The request with one more argument. -/
def add (request : GenerateRequest) : Argument → Except UsageFault GenerateRequest
  | .verbose | .version => .ok request
  | .positional text =>
    if request.path.isSome || text = "" then .error (.unexpected text)
    else .ok { request with path := some text }
  | .assign setting "" => .error (.noValue setting)
  | .assign .mapping value => .ok { request with mappings := request.mappings ++ [value] }
  | .assign .output value => do
    .ok { request with output := ← setOnce .output request.output value }
  | .assign .outputMapping value => do
    .ok { request with outputMapping := ← setOnce .outputMapping request.outputMapping value }
  | .assign .config value => do
    .ok { request with config := ← setOnce .config request.config value }
  | .assign .outputStyle value =>
    match OutputStyle.ofName? value, request.outputStyle with
    | none, _ => .error (.badStyle value)
    | some _, some _ => .error (.repeated .outputStyle)
    | some style, none => .ok { request with outputStyle := some style }

end GenerateRequest

/-- What the program is asked for. -/
inductive Command where
  | version (name : String)
  | check (path : String)
  | generate (request : GenerateRequest)
  deriving DecidableEq, Repr

namespace Command

/-- The program's name. -/
def programName : String := "pbobjc"

/-- The directory that is meant where none is named. -/
def defaultPath : String := "."

/-- The command `check` with some arguments. -/
def checkOf (path : Option String) : List Argument → Except UsageFault Command
  | [] => .ok (.check (path.getD defaultPath))
  | .verbose :: rest => checkOf path rest
  | .version :: _ => .ok (.version (programName ++ "-check"))
  | .assign setting _ :: _ => .error (.unexpected ("--" ++ setting.name))
  | .positional text :: rest =>
    if path.isSome || text = "" then .error (.unexpected text) else checkOf (some text) rest

/-- The command `generate` with some arguments. -/
def generateOf (request : GenerateRequest) : List Argument → Except UsageFault Command
  | [] => .ok (.generate request)
  | .version :: _ => .ok (.version (programName ++ "-generate"))
  | argument :: rest =>
    match request.add argument with
    | .ok longer => generateOf longer rest
    | .error fault => .error fault

/-- The command that arguments make. -/
def ofArguments : List Argument → Except UsageFault Command
  | [] => .error .noCommand
  | .verbose :: rest => ofArguments rest
  | .version :: _ => .ok (.version programName)
  | .positional "check" :: rest => checkOf none rest
  | .positional "generate" :: rest => generateOf {} rest
  | .positional text :: _ => .error (.unexpected text)
  | .assign setting _ :: _ => .error (.unexpected ("--" ++ setting.name))

/-- The command that argument texts make. -/
def ofTexts (texts : List String) : Except UsageFault Command :=
  (Argument.readAll texts).bind ofArguments

end Command

end ProtoExtensions
