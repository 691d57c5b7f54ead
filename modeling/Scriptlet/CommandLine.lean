import Scriptlet.Console

/-!
# The command line

`[-m MODE | --mode MODE] [PATH]`: executes a file, or runs the console without one. Arguments are
taken up in order, and the first that is wrong, or that asks for the version or for help, decides.
-/
set_option autoImplicit false

namespace Scriptlet

inductive Request where
  | execute (mode : Mode) (path : Option String)
  | version
  | help
deriving DecidableEq, Repr

inductive UsageError where
  | unknownOption (text : String)
  | needlessValue (option : String)
  | missingMode
  | unknownMode (text : String)
  | repeatedMode
  | emptyPath
  | secondPath (path : String)
deriving DecidableEq, Repr

namespace UsageError

def message : UsageError → String
  | .unknownOption text => "unexpected argument '" ++ text ++ "'"
  | .needlessValue option => "option '" ++ option ++ "' takes no value"
  | .missingMode => "option '--mode' needs a value"
  | .unknownMode text => "'" ++ text ++ "' is not a mode"
  | .repeatedMode => "option '--mode' is given twice"
  | .emptyPath => "the path is empty"
  | .secondPath path => "unexpected argument '" ++ path ++ "'"

end UsageError

namespace Request

structure Options where
  mode : Option Mode
  path : Option String

def Options.setMode (options : Options) (text : String) : Except UsageError Options :=
  match options.mode, Mode.ofText? text with
  | some _, _ => .error .repeatedMode
  | none, none => .error (.unknownMode text)
  | none, some mode => .ok { options with mode := some mode }

def Options.setPath (options : Options) (path : String) : Except UsageError Options :=
  match options.path with
  | some _ => .error (.secondPath path)
  | none => if path.isEmpty then .error .emptyPath else .ok { options with path := some path }

def Options.request (options : Options) : Request :=
  .execute (options.mode.getD .eval) options.path

inductive Argument where
  | path (path : String)
  /-- From here on there are no options. -/
  | endOfOptions
  | mode (value : String)
  /-- The next argument is the mode. -/
  | modeAhead
  | version
  | help
  | wrong (error : UsageError)

def longOption (name : String) (value : Option String) : Argument :=
  match name, value with
  | "mode", some value => .mode value
  | "mode", none => .modeAhead
  | "version", none => .version
  | "help", none => .help
  | "version", some _ => .wrong (.needlessValue "--version")
  | "help", some _ => .wrong (.needlessValue "--help")
  | name, _ => .wrong (.unknownOption ("--" ++ name))

def shortOption (letter : Char) (rest : List Char) : Argument :=
  match letter, rest with
  | 'm', [] => .modeAhead
  | 'm', '=' :: value => .mode (String.ofList value)
  | 'm', value => .mode (String.ofList value)
  | 'V', _ => .version
  | 'h', _ => .help
  | letter, _ => .wrong (.unknownOption (String.ofList ['-', letter]))

def classify (argument : String) : Argument :=
  match argument.toList with
  | ['-', '-'] => .endOfOptions
  | '-' :: '-' :: rest =>
    match rest.dropWhile (· ≠ '=') with
    | [] => longOption (String.ofList rest) none
    | _ :: value => longOption (String.ofList (rest.takeWhile (· ≠ '='))) (String.ofList value)
  | '-' :: letter :: rest => shortOption letter rest
  | _ => .path argument

def ofPaths (options : Options) : List String → Except UsageError Request
  | [] => .ok options.request
  | path :: paths => do
    let options ← options.setPath path
    ofPaths options paths

/-- Takes up arguments; `ahead` says that the first of them has to be a mode. -/
def ofArgumentsFrom (options : Options) (ahead : Bool) : List String → Except UsageError Request
  | [] => if ahead then .error .missingMode else .ok options.request
  | argument :: arguments =>
    match classify argument, ahead with
    | .path text, true => do
      let options ← options.setMode text
      ofArgumentsFrom options false arguments
    | _, true => .error .missingMode
    | .path path, false => do
      let options ← options.setPath path
      ofArgumentsFrom options false arguments
    | .endOfOptions, false => ofPaths options arguments
    | .mode value, false => do
      let options ← options.setMode value
      ofArgumentsFrom options false arguments
    | .modeAhead, false => ofArgumentsFrom options true arguments
    | .version, false => .ok .version
    | .help, false => .ok .help
    | .wrong error, false => .error error

def ofArguments (arguments : List String) : Except UsageError Request :=
  ofArgumentsFrom ⟨none, none⟩ false arguments

end Request

structure Response where
  code : UInt32
  stdout : String
  stderr : String

namespace CommandLine

def versionText : String :=
  "simian-runner 0.1.0\n"

def usageText : String :=
  "Usage: simian [OPTIONS] [PATH]\n"

def helpText : String :=
  usageText ++ "\n" ++
  "Arguments:\n" ++
  "  [PATH]  Source file to run. Starts a REPL when omitted\n\n" ++
  "Options:\n" ++
  "  -m, --mode <MODE>  [default: eval] [possible values: eval, ast, tokens]\n" ++
  "  -h, --help         Print help\n" ++
  "  -V, --version      Print version\n"

def ofReport {α : Type} (text : α → String) (report : Report α) : Response :=
  match report.result with
  | .ok value => ⟨0, report.output ++ text value, ""⟩
  | .error failure => ⟨1, report.output, failure.message ++ "\n"⟩

def fulfil (depth : Nat) (files : String → File) (input : List UInt8) : Request → Response
  | .version => ⟨0, versionText, ""⟩
  | .help => ⟨0, helpText, ""⟩
  | .execute mode none => ofReport (fun _ => "") (Console.run depth mode input).report
  | .execute mode (some path) =>
    ofReport (· ++ "\n") (Execution.file depth mode path (files path)).report

def respond (depth : Nat) (files : String → File) (input : List UInt8)
    (arguments : List String) : Response :=
  match Request.ofArguments arguments with
  | .ok request => fulfil depth files input request
  | .error error => ⟨2, "", "error: " ++ error.message ++ "\n\n" ++ usageText⟩

end CommandLine

end Scriptlet
