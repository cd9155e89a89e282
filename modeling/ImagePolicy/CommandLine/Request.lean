/-
# Requests

What a command line asks for: to classify the results of rule engines, to tell the time of
attestations, or to be told the version or how to ask.

Key definitions: `CommandLine.Request`, `CommandLine.ClassifyRequest`, `CommandLine.Request.read`.
-/
import ImagePolicy.CommandLine.Arguments

namespace ImagePolicy
namespace CommandLine

/-- Where rule results come from: a file, or a rule engine run over attestations. -/
inductive ResultSource where
  | file (path : String)
  | engine (program : String) (arguments : List String)
  deriving DecidableEq, Repr

/-- A request to classify rule results. -/
structure ClassifyRequest where
  source : ResultSource
  policy : String := ""
  attestations : Option String := none
  effectiveTime : Option String := none
  publicKey : Option String := none
  rules : List String := []
  keepWorkspace : Bool := false
  json : Bool := false
  deriving DecidableEq, Repr

/-- What a command line asks for. -/
inductive Request where
  | classify (r : ClassifyRequest)
  | attestationTime (path : String)
  | version (program : String)
  | help
  | wrong
  deriving DecidableEq, Repr

/-- The name of the program. -/
def programName : String := "custos"

/-- The options that every command has. -/
def sharedOptions : List OptionSpec :=
  [⟨"verbose", some 'v', .counted⟩, ⟨"json-logs", none, .flag⟩, ⟨"help", some 'h', .help⟩,
    ⟨"version", some 'V', .version⟩]

/-- The options of the command that classifies. -/
def classifyOptions : List OptionSpec :=
  [⟨"results", none, .value true⟩, ⟨"engine", none, .value true⟩,
    ⟨"engine-arg", none, .values false true⟩, ⟨"rule", none, .values true false⟩,
    ⟨"policy", none, .value false⟩, ⟨"attestations", none, .value true⟩,
    ⟨"effective-time", none, .value false⟩, ⟨"public-key", none, .value false⟩,
    ⟨"keep-workspace", none, .flag⟩, ⟨"json", none, .flag⟩]

/-- The environment variable that has workspaces kept. -/
def keepVariable : String := "CUSTOS_DEBUG"

/-- The truth value that a text spells, in either case. -/
def truth? (text : String) : Option Bool :=
  let t := String.ofList (text.toList.map Char.toLower)
  if ["y", "yes", "t", "true", "on", "1"].contains t then some true
  else if ["n", "no", "f", "false", "off", "0"].contains t then some false
  else none

/-- Whether workspaces are kept; the environment counts where the option is not given. -/
def keepsWorkspace? (keep : Option String) (a : Arguments) : Option Bool :=
  if a.has "keep-workspace" then some true
  else match keep with
    | none => some false
    | some text => truth? text

/-- Where the results come from: exactly one source has to be given, and an engine needs
attestations. -/
def resultSource? (a : Arguments) : Option ResultSource :=
  match a.value? "results", a.value? "engine", a.value? "attestations" with
  | some path, none, _ => some (.file path)
  | none, some program, some _ => some (.engine program (a.values "engine-arg"))
  | _, _, _ => none

/-- The request of a classification. -/
def classifyRequest (keep : Option String) (a : Arguments) : Request :=
  match resultSource? a, keepsWorkspace? keep a with
  | some source, some keepWorkspace =>
    .classify {
      source
      policy := (a.value? "policy").getD ""
      attestations := a.value? "attestations"
      effectiveTime := a.value? "effective-time"
      publicKey := a.value? "public-key"
      rules := a.values "rule"
      keepWorkspace
      json := a.has "json" }
  | _, _ => .wrong

/-- The request of a time. -/
def timeRequest (a : Arguments) : Request :=
  match a.operands with
  | [path] => .attestationTime path
  | _ => .wrong

/-- What is asked for when the reading ends early under a program's name. -/
def Stop.request (program : String) : Stop → Request
  | .wrong => .wrong
  | .help => .help
  | .version => .version program

/-- The request of a command's arguments. -/
def commandRequest (name : String) (options : List OptionSpec) (room : Nat)
    (make : Arguments → Request) (as : List String) : Request :=
  match readArguments (options ++ sharedOptions) room {} as with
  | .ok a => make a
  | .error stop => stop.request (programName ++ "-" ++ name)

/-- The names of the commands. -/
def commandNames : List String := ["classify", "attestation-time", "help"]

/-- The request of arguments, with the value of the variable that has workspaces kept. -/
def Request.read (keep : Option String) (as : List String) : Request :=
  match readCommand sharedOptions {} as with
  | .error stop => stop.request programName
  | .ok (command, rest) =>
    match command with
    | "classify" => commandRequest command classifyOptions 0 (classifyRequest keep) rest
    | "attestation-time" => commandRequest command [] 1 timeRequest rest
    | "help" => if rest.length ≤ 1 ∧ rest.all commandNames.contains then .help else .wrong
    | _ => .wrong

end CommandLine
end ImagePolicy
