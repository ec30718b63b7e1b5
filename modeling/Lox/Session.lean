import Lox.Evaluate
import Lox.Grammar.Program
import Lox.Source.Item
/-! Sessions. A session runs one source after another on the same machine, so later
sources see what earlier ones have defined. Nothing of a source runs unless all of
it can be read and keeps the scope rules. -/

namespace Lox

/-- What is found in a source before it runs: problems of the text come before
problems of the sentence. -/
structure Program where
  problems : List Diagnostic
  statements : List Stmt
  nextId : OccurrenceId

def readSource (source : String) (firstId : OccurrenceId) : Program :=
  let parse := parse (tokensOf source) firstId
  ⟨lexicalProblems source ++ parse.diagnostics, parse.statements, parse.nextId⟩

structure Session where
  machine : Machine
  nextId : OccurrenceId

/-- How the run of one source ends. -/
inductive Ending where
  | success
  | rejected (problems : List Diagnostic)
  | failed (problem : Diagnostic)
  | exhausted
  deriving Repr, DecidableEq

namespace Ending

def ofStop : Stop → Ending
  | .fault fault line => failed (.runtime fault line)
  | .sink fault => failed (.output fault)
  | .exhausted => exhausted

/-- The diagnostics that a run ends with. -/
def diagnostics : Ending → List Diagnostic
  | rejected problems => problems
  | failed problem => [problem]
  | success | exhausted => []

/-- The conventional codes for bad data, for a failing program and for failing output. -/
def exitCode : Ending → UInt32
  | success => 0
  | rejected _ => 65
  | failed (.output _) => 74
  | failed _ => 70
  | exhausted => 70

end Ending

namespace Session

def start (sink : Sink) (clock : Nat → Float) : Session :=
  ⟨.start sink clock, 0⟩

/-- Run a source. The occurrence numbers it takes stay taken, even when it is
rejected. -/
def run (fuel : Nat) (session : Session) (source : String) : Ending × Session :=
  let program := readSource source session.nextId
  if program.problems.isEmpty then
    let resolution := resolve program.statements
    if resolution.problems.isEmpty then
      match executeProgram fuel program.statements (session.machine.learn resolution.distances) with
      | .ok _ machine => (.success, ⟨machine, program.nextId⟩)
      | .error stop machine => (.ofStop stop, ⟨machine, program.nextId⟩)
    else
      (.rejected resolution.problems, { session with nextId := program.nextId })
  else
    (.rejected program.problems, { session with nextId := program.nextId })

/-- Run sources one after another. -/
def runAll (fuel : Nat) (session : Session) : List String → List Ending × Session
  | [] => ([], session)
  | source :: rest =>
      let (ending, session) := session.run fuel source
      let (endings, session) := runAll fuel session rest
      (ending :: endings, session)

end Session

end Lox
