import ModelSchema.Console

namespace ModelSchema.CommandLine

def programName : String :=
  "openshift-model-console"

def version : String :=
  "0.1.0"

inductive Request where
  | generate (mode : Option String)
  | help
  | version
  /-- An argument that is not understood; one that looks like an option may have been meant as a
  value. -/
  | unexpected (argument : String) (isOption : Bool)
  | unneeded (option value : String)
  deriving DecidableEq, Repr

def option (arg : String) : Request :=
  match arg.toList with
  | '-' :: '-' :: rest =>
    let name := String.ofList (rest.takeWhile (· ≠ '='))
    if name = "help" ∨ name = "version" then
      match rest.dropWhile (· ≠ '=') with
      | _ :: value => .unneeded ("--" ++ name) (String.ofList value)
      | [] => if name = "help" then .help else .version
    else .unexpected ("--" ++ name) true
  | '-' :: 'h' :: _ => .help
  | '-' :: 'V' :: _ => .version
  | '-' :: c :: _ => .unexpected (String.ofList ['-', c]) true
  | _ => .unexpected arg true

def isOption (arg : String) : Bool :=
  arg.startsWith "-" && arg ≠ "-"

/-- Everything behind two hyphens is a value. -/
def parseValues : Option String → List String → Request
  | mode, [] => .generate mode
  | none, arg :: args => parseValues (some arg) args
  | some _, arg :: _ => .unexpected arg false

def parseFrom : Option String → List String → Request
  | mode, [] => .generate mode
  | mode, arg :: args =>
    if arg = "--" then parseValues mode args
    else if isOption arg then option arg
    else match mode with
      | none => parseFrom (some arg) args
      | some _ => .unexpected arg false

def parse (args : List String) : Request :=
  parseFrom none args

def usageWith (options : String) : String :=
  "Usage: " ++ programName ++ options ++ " [MODE]\n"

def usage : String :=
  usageWith ""

def helpText : String :=
  "Schema generator for the OpenShift console API group\n\n" ++ usage ++
  "\nArguments:\n  [MODE]  Pass `validation` to keep the resource list in the output\n" ++
  "\nOptions:\n  -h, --help     Print help\n  -V, --version  Print version\n"

def unexpectedText (arg : String) (isOption : Bool) : String :=
  "error: unexpected argument '" ++ arg ++ "' found\n\n" ++
  (if isOption then "  tip: to pass '" ++ arg ++ "' as a value, use '-- " ++ arg ++ "'\n\n" else "") ++
  usage ++ "\nFor more information, try '--help'.\n"

def unneededText (option value : String) : String :=
  "error: unexpected value '" ++ value ++ "' for '" ++ option ++
    "' found; no more were expected\n\n" ++ usageWith (" " ++ option) ++
    "\nFor more information, try '--help'.\n"

structure Response where
  status : UInt32 := 0
  output : String := ""
  errors : String := ""
  deriving DecidableEq, Repr

def respond : Request → Response
  | .help => { output := helpText }
  | .version => { output := programName ++ " " ++ version ++ "\n" }
  | .unexpected arg isOption => { status := 2, errors := unexpectedText arg isOption }
  | .unneeded option value => { status := 2, errors := unneededText option value }
  | .generate mode =>
    match Console.generate (mode = some "validation") with
    | .ok text => { output := text ++ "\n" }
    | .error e =>
      { status := 1
        errors := "Error: failed to generate schema\n\nCaused by:\n    " ++ e.message ++ "\n" }

def run (args : List String) : Response :=
  respond (parse args)

end ModelSchema.CommandLine
