/-
# Answers

What a request comes to: the text that is printed, the status, and the error if there is one. The
status is 0 if all is well, 1 if the policy fails or there is an error, and 2 if the request is
wrong.

Key definitions: `CommandLine.Answer`, `CommandLine.classify`, `CommandLine.answer`.
-/
import ImagePolicy.CommandLine.Request
import ImagePolicy.Attestation.Context
import ImagePolicy.Engine.Command
import ImagePolicy.Rule.Classifier
import ImagePolicy.Scratch.StagedInput

namespace ImagePolicy
namespace CommandLine

open Json (Value)

/-- What a request comes to. -/
structure Answer where
  status : Nat
  output : String
  error : Option String
  disk : Disk

/-- An answer with an error and nothing printed. -/
def Answer.failed (error : String) (d : Disk) : Answer := ⟨1, "", some error, d⟩

/-- The statements in a file. -/
def statementsOf (d : Disk) (path : String) : Except String (List Attestation) :=
  match d.readText? path with
  | none => .error ("failed to read " ++ path)
  | some text =>
    match (Json.readString text).bind (Field.list? (Field.value? 1)) with
    | some statements => .ok (statements.map fun s => { statement := s })
    | none => .error (path ++ " is not a JSON array of statements")

/-- The rule results in a file. -/
def resultsOf (d : Disk) (path : String) : Except String (List CheckGroup) :=
  match d.readText? path with
  | none => .error ("failed to read " ++ path)
  | some text =>
    match (Json.readString text).bind CheckGroup.listOfTree? with
    | some groups => .ok groups
    | none => .error (path ++ " is not a JSON array of rule results")

/-! ### The time of attestations -/

/-- Prints the time of the attestations in a file. -/
def attestationTime (path : String) (d : Disk) : Answer :=
  match statementsOf d path with
  | .error e => .failed e d
  | .ok as =>
    match attestationTime? as with
    | none => .failed ("no attestation in " ++ path ++ " records a build finish time") d
    | some time => ⟨0, time.secondsText ++ "\n", none, d⟩

/-! ### Classification -/

/-- The context of a request at an instant. -/
def requestedContext (clock : Instant) (d : Disk) (r : ClassifyRequest) :
    Except String PolicyContext :=
  let context := do
    let spec ← (PolicySpec.load d.readText? r.policy).mapError ContextFault.policy
    PolicyContext.new clock spec
      { publicKey := r.publicKey, rekorUrl := none, effectiveTime := r.effectiveTime }
  context.mapError fun fault => (VerificationError.ofContext fault).message?.getD ""

/-- The attestations that a request refers to. -/
def requestedStatements (d : Disk) (r : ClassifyRequest) : Except String (List Attestation) :=
  match r.attestations with
  | some path => statementsOf d path
  | none => .ok []

/-- The rule results that a request refers to, and the disk after an engine has run. -/
def requestedResults (host : Host) (r : ClassifyRequest) (c : PolicyContext)
    (as : List Attestation) (d : Disk) : Except String (List CheckGroup) × Disk :=
  match r.source with
  | .file path => (resultsOf d path, d)
  | .engine program arguments =>
    let (staged, d) := StagedInput.stage as d
    let cmd : EngineCommand := ⟨program, arguments, r.rules, r.keepWorkspace⟩
    let (reply, d) := cmd.evaluate host [staged.path] c {} d
    (reply.mapError fun _ => "rule engine " ++ program ++ " failed", staged.release d)

/-- The label of an outcome. -/
def label : Outcome → String
  | .success => "PASS"
  | .warning => "WARN"
  | .failure => "FAIL"

/-- The line of a classified result. -/
def resultLine (outcome : Outcome) (r : RuleResult) : String :=
  "[" ++ label outcome ++ "] " ++ r.message ++ "\n"

/-- The text of classified groups. -/
def plainText (c : PolicyContext) (groups : List CheckGroup) (passed : Bool) : String :=
  let lines := groups.flatMap fun g => g.classified.map fun (outcome, r) => resultLine outcome r
  "Effective time: " ++ c.instant.secondsText ++ "\n" ++ String.join lines ++
    "\nPolicy check " ++ (if passed then "PASSED" else "FAILED") ++ "\n"

/-- The JSON text of classified groups, in key order throughout. -/
def jsonText (c : PolicyContext) (groups : List CheckGroup) (passed : Bool) : String :=
  let document := Value.object
    [("passed", .bool passed), ("effectiveTime", .text c.instant.secondsText),
      ("results", .list (groups.map CheckGroup.encode))]
  String.ofList (Json.renderIndented document.ordered) ++ "\n"

/-- Prints the classified results of a context. -/
def printed (json : Bool) (c : PolicyContext) (groups : List CheckGroup) (d : Disk) : Answer :=
  match (Classifier.ofContext c).classify? groups with
  | none => .failed (VerificationError.noResults.message?.getD "") d
  | some classified =>
    let passed := classified.all fun g => g.failures.isEmpty
    let text := if json then jsonText c classified passed else plainText c classified passed
    ⟨if passed then 0 else 1, text, none, d⟩

/-- Classifies the rule results that a request refers to. -/
def classify (host : Host) (clock : Instant) (r : ClassifyRequest) (d : Disk) : Answer :=
  match requestedContext clock d r with
  | .error e => .failed e d
  | .ok c =>
    match requestedStatements d r with
    | .error e => .failed e d
    | .ok as =>
      let c := c.attested as
      match requestedResults host r c as d with
      | (.error e, d) => .failed e d
      | (.ok groups, d) => printed r.json c groups d

/-! ### Any request -/

/-- The version of the program. -/
def versionNumber : String := "0.1.0"

/-- How to ask. -/
def helpText : String :=
  "Usage: custos [OPTIONS] <COMMAND>\n\n" ++
  "Commands:\n" ++
  "  classify          Classify rule results against a policy\n" ++
  "  attestation-time  Print the attestation time of a set of statements\n" ++
  "  help              Print this text\n"

/-- The answer to a request. -/
def answer (host : Host) (clock : Instant) (r : Request) (d : Disk) : Answer :=
  match r with
  | .classify r => classify host clock r d
  | .attestationTime path => attestationTime path d
  | .version program => ⟨0, program ++ " " ++ versionNumber ++ "\n", none, d⟩
  | .help => ⟨0, helpText, none, d⟩
  | .wrong => ⟨2, "", none, d⟩

end CommandLine
end ImagePolicy
