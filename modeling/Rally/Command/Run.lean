import Rally.Command.Options
import Rally.Files
import Rally.Player
import Rally.Simulation.Run
/-!
# The command

The command reads or makes up a topology of players, runs it and prints a summary. Log lines go to
the same place as everything else, in the order in which they are written.
-/

namespace Rally

/-- What a command leaves behind. -/
structure CommandResult where
  /-- The exit code. -/
  exit : Nat
  /-- What was printed. -/
  stdout : String := ""
  /-- The complaints. -/
  stderr : String := ""

namespace Command

/-- The text of log lines. -/
def logText (ansi : Bool) (records : List Record) : String :=
  String.join (records.map fun record => record.line ansi ++ "\n")

/-- The summary of a run. -/
def summary {C : Type} (report : Report C) : String :=
  let rank (r : RankReport) : String :=
    s!"  rank {r.rank}: {r.events} events, {r.ready}/{r.participants} voters ready\n"
  s!"{report.reason.message} after {report.endTime.label} ({report.events} events)\n" ++
    String.join (report.ranks.map rank) ++
    String.join (report.links.map fun traffic => "  " ++ traffic.text ++ "\n")

/-- The topology that the options ask for. -/
def topologyOf (read : String → Except FileError ByteArray) (options : CommandOptions) :
    Except ConfigError Topology :=
  match options.topology with
  | some path => Topology.ofFile read path
  | none =>
    if options.simple then .ok (Topology.simpleLoop options.repeats)
    else .ok (Topology.relayRing (max options.num 1) options.repeats)

/-- The choices about a run that the options ask for. -/
def choicesOf (options : CommandOptions) : Options :=
  let choices : Options := { quiet := options.quiet }
  match options.maxTime with
  | some last => choices.maxTime last
  | none => choices

/-- A complaint that ends the command. -/
def failure (stdout complaint : String) : CommandResult :=
  { exit := 1, stdout, stderr := "error: " ++ complaint ++ "\n" }

/-- What the command does for words that ask for no run. -/
def refusal : OptionsError → CommandResult
  | .usage => { exit := 1, stderr := "usage" }
  | .invalidValue option complaint =>
    failure "" s!"Invalid value for '--{option} <{option}>': {complaint}"
  | .version => { exit := 0, stdout := "pingpong 0.1.0\n" }
  | .help => { exit := 0 }

/-- Runs what the options ask for. -/
def play (fuel : Nat) (read : String → Except FileError ByteArray) (filter : Filter) (ansi : Bool)
    (options : CommandOptions) : Option CommandResult :=
  match topologyOf read options with
  | .error problem => some (failure "" problem.message)
  | .ok topology =>
    let registry : Registry Player := Registry.builtin id
    let (journal, built) :=
      Simulation.build registry (choicesOf options) topology Instant.zero ⟨filter, #[]⟩
    let buildLog := logText ansi journal.records.toList
    match built with
    | .error problem => some (failure buildLog problem.message)
    | .ok simulation =>
      (simulation.run fuel filter Instant.zero).map fun result =>
        let stdout := buildLog ++ result.opening ++ logText ansi result.records ++ result.closing
        match result.outcome with
        | .ok report => { exit := 0, stdout := stdout ++ summary report }
        | .error (.failed error) => failure stdout error.message
        | .error (.panicked panic) => { exit := 101, stdout, stderr := panic.message ++ "\n" }

/-- Runs the command for the words of a command line, given a way to read files and rules for its
log lines. There is no result without enough fuel for the run. -/
def run (fuel : Nat) (read : String → Except FileError ByteArray) (logRules : String)
    (ansi : Bool) (words : List String) : Option CommandResult :=
  let warned (result : CommandResult) : CommandResult :=
    { result with stderr := Filter.complaints logRules ++ result.stderr }
  match CommandOptions.parse words with
  | .error .usage => some (refusal .usage)
  | .error refused => some (warned (refusal refused))
  | .ok options => (play fuel read (Filter.parse logRules) ansi options).map warned

end Command

end Rally
