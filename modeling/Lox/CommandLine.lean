import Lox.Quoted
import Lox.Session
import Lox.Token.Text
import Lox.Tree.Text
import Lox.Utf8
/-! The command line. There are three actions: show the tokens of a file, show the
trees of a file, and run a file or, without one, a prompt. What an action writes
and with which code it exits is a function of the files and of standard input. -/

namespace Lox

/-! ## Commands -/

inductive Action where
  | tokenize (file : String) (asRecords : Bool)
  | parse (file : String)
  | run (file : String)
  | prompt
  deriving Repr, DecidableEq

/-- The file that an action reads; the prompt reads none. -/
def Action.file? : Action → Option String
  | tokenize file _ => some file
  | parse file => some file
  | run file => some file
  | prompt => none

structure Command where
  action : Action
  logFile : Option String
  deriving Repr, DecidableEq

namespace Command

/-- The arguments sorted by what they are. `given` lists the flags that this side of
the action word has already shown. -/
structure Arguments where
  words : List String
  records : Bool
  log : Bool
  logFile : Option String
  given : List String

namespace Arguments

def empty : Arguments := ⟨[], false, false, none, []⟩

/-- The first word is the action; flags that stood before it may come again. -/
def addWord (found : Arguments) (word : String) : Arguments :=
  { found with
    words := found.words ++ [word]
    given := if found.words.isEmpty then [] else found.given }

/-- Note a flag that may be given once. -/
def note? (found : Arguments) (flag : String) : Option Arguments :=
  if flag ∈ found.given then none else some { found with given := flag :: found.given }

def addLogFile? (found : Arguments) (path : String) : Option Arguments := do
  let noted ← found.note? "--log-file"
  if path.isEmpty then failure
  return { noted with logFile := some path }

def addLog? (found : Arguments) : Option Arguments := do
  let noted ← found.note? "--log"
  return { noted with log := true }

/-- Records are for tokens only. -/
def addRecords? (found : Arguments) : Option Arguments := do
  let noted ← found.note? "--json"
  if found.words.head? ≠ some "tokenize" then failure
  return { noted with records := true }

end Arguments

/-- The text behind `--log-file=`. -/
def attachedLogFile? (argument : String) : Option String :=
  let opening := "--log-file=".toList
  if opening.isPrefixOf argument.toList then
    some (String.ofList (argument.toList.drop opening.length))
  else
    none

def isFlag (argument : String) : Bool :=
  argument.toList.head? = some '-' && argument.length > 1

/-- The logging flags may stand on both sides of the action word, once on each; of
two log files the later one counts. Behind a double hyphen nothing is a flag. -/
def sort (found : Arguments) : List String → Option Arguments
  | [] => some found
  | "--" :: rest => if found.words.isEmpty then none else some (rest.foldl .addWord found)
  | "--log" :: rest => do sort (← found.addLog?) rest
  | "--json" :: rest => do sort (← found.addRecords?) rest
  | "--log-file" :: path :: rest =>
      if isFlag path then none else do sort (← found.addLogFile? path) rest
  | argument :: rest =>
      match attachedLogFile? argument with
      | some path => do sort (← found.addLogFile? path) rest
      | none => if isFlag argument then none else sort (found.addWord argument) rest

/-- An empty word names neither an action nor a file. -/
def action? (found : Arguments) : Option Action :=
  if "" ∈ found.words then none else
  match found.words with
  | ["tokenize", file] => some (.tokenize file found.records)
  | ["parse", file] => some (.parse file)
  | ["run", file] => some (.run file)
  | ["run"] => some .prompt
  | _ => none

/-- The command that arguments give, if they give one. A log without a name of its
own goes to a file in the current directory. -/
def ofArguments? (arguments : List String) : Option Command := do
  let found ← sort .empty arguments
  let action ← action? found
  return ⟨action, found.logFile.or (if found.log then some "app.log" else none)⟩

example : ofArguments? ["--log-file", "x.log", "run", "a.lox"] =
    some ⟨.run "a.lox", some "x.log"⟩ := by decide +kernel

example : ofArguments? ["tokenize", "--json", "a.lox"] = some ⟨.tokenize "a.lox" true, none⟩ ∧
    ofArguments? ["parse", "--json", "a.lox"] = none := by decide +kernel

example : ofArguments? ["run", ""] = none ∧ ofArguments? ["run"] = some ⟨.prompt, none⟩ := by
  decide +kernel

example : ofArguments? ["--log", "run", "--log", "--", "--log"] =
      some ⟨.run "--log", some "app.log"⟩ ∧
    ofArguments? ["run", "--log", "--log"] = none := by decide +kernel

end Command

/-! ## Reports -/

/-- What an action leaves: its exit code and what it has written. -/
structure Report where
  exit : UInt32
  stdout : ByteArray
  stderr : String

namespace Report

def lines (texts : List String) : String :=
  String.join (texts.map (· ++ "\n"))

def ofTexts (exit : UInt32) (output errors : List String) : Report :=
  ⟨exit, (lines output).toUTF8, lines errors⟩

/-- An action that could not go on, in which context and why. -/
def broken (stdout : ByteArray) (context cause : String) : Report :=
  ⟨1, stdout, "Error: " ++ context ++ "\n\nCaused by:\n    " ++ cause ++ "\n"⟩

/-- Arguments that give no command. -/
def usage : Report :=
  ⟨2, ByteArray.empty, "error: expected one of: tokenize [--json] FILE, parse FILE, run [FILE]\n"⟩

end Report

/-! ## Files -/

/-- Why a file cannot be had, with the system's own words. -/
inductive FileFault where
  | cannotOpen (cause : String)
  | cannotMap (cause : String)
  deriving Repr, DecidableEq

def FileFault.report (name : String) : FileFault → Report
  | cannotOpen cause => .broken .empty ("Failed to open file " ++ Quoted.quote name) cause
  | cannotMap cause => .broken .empty ("Failed to map file " ++ Quoted.quote name) cause

/-- Go on with the text of a file, if it can be read and is text. -/
def withText (name : String) (contents : Except FileFault ByteArray) (go : String → Report) :
    Report :=
  match contents with
  | .error fault => fault.report name
  | .ok bytes =>
      match Utf8.decode bytes with
      | .ok text => go text
      | .error fault =>
          .broken .empty ("File " ++ Quoted.quote name ++ " is not valid UTF-8") fault.message

def logFailure (name cause : String) : Report :=
  .broken .empty ("Failed to create " ++ Quoted.quote name) cause

/-! ## Actions on a source -/

def tokenizeReport (asRecords : Bool) (source : String) : Report :=
  let problems := lexicalProblems source
  .ofTexts (if problems.isEmpty then 0 else 65)
    ((tokensOf source).map fun token => if asRecords then token.record else token.text)
    (problems.map Diagnostic.text)

def parseReport (source : String) : Report :=
  let program := readSource source 0
  if program.problems.isEmpty then
    .ofTexts 0 (program.statements.map Stmt.text) []
  else
    .ofTexts 65 [] [Diagnostic.report program.problems]

/-- What a run says when it does not succeed. -/
def Ending.complaint (ending : Ending) : String :=
  match ending with
  | .success => ""
  | _ => Diagnostic.report ending.diagnostics ++ "\n"

def runReport (fuel : Nat) (clock : Nat → Float) (source : String) : Report :=
  let (ending, session) := (Session.start .unlimited clock).run fuel source
  ⟨ending.exitCode, session.machine.sink.written, ending.complaint⟩

/-! ## The prompt -/

def isLineFeed (byte : UInt8) : Bool :=
  byte = 10

/-- A line without the carriage return that may stand before its line feed. -/
def trimReturn (line : List UInt8) : List UInt8 :=
  if line.getLast? = some 13 then line.dropLast else line

/-- The lines of bytes, without their ends; the last line need not have one. -/
def splitLines (bytes : List UInt8) : List (List UInt8) :=
  match bytes with
  | [] => []
  | first :: others =>
      let line := (first :: others).takeWhile (!isLineFeed ·)
      match _remaining : (first :: others).dropWhile (!isLineFeed ·) with
      | [] => [line]
      | _ :: rest => trimReturn line :: splitLines rest
termination_by bytes.length
decreasing_by
  have shorter := (List.dropWhile_sublist (!isLineFeed ·) (l := first :: others)).length_le
  rw [_remaining] at shorter
  exact shorter

example : splitLines [97, 13, 10, 10, 98, 13] = [[97], [], [98, 13]] := by decide +kernel

def Session.write (session : Session) (text : String) : Session :=
  { session with machine := session.machine.write text }

/-- The prompt between two lines: what has been complained about, and the session,
into whose output the prompt writes too. -/
structure Prompt where
  session : Session
  errors : String

namespace Prompt

def start (clock : Nat → Float) : Prompt :=
  ⟨.start .unlimited clock, ""⟩

def report (prompt : Prompt) (exit : UInt32) : Report :=
  ⟨exit, prompt.session.machine.sink.written, prompt.errors⟩

def write (prompt : Prompt) (text : String) : Prompt :=
  { prompt with session := prompt.session.write text }

def complain (prompt : Prompt) (text : String) : Prompt :=
  { prompt with errors := prompt.errors ++ text }

def ask (prompt : Prompt) : Prompt :=
  prompt.write "> "

/-- Take a line, or the end of the input, which ends the prompt. It also ends, with
the exit code given, at a line that is not text and at failing output. -/
def answer (fuel : Nat) (prompt : Prompt) (line : Option (List UInt8)) :
    Prompt × Option UInt32 :=
  match line with
  | none => (prompt.write "\n", some 0)
  | some bytes =>
      match Utf8.decode ⟨bytes.toArray⟩ with
      | .error _ =>
          let report := Report.broken .empty "Failed to read from stdin"
            "stream did not contain valid UTF-8"
          (prompt.complain report.stderr, some report.exit)
      | .ok text =>
          let (ending, session) := prompt.session.run fuel text
          let after := Prompt.complain ⟨session, prompt.errors⟩ ending.complaint
          match ending with
          | .failed (.output _) => (after, some ending.exitCode)
          | _ => (after, none)

/-- Ask for one line after the other. -/
def run (fuel : Nat) (prompt : Prompt) (lines : List (List UInt8)) : Report :=
  match prompt.ask.answer fuel lines.head?, lines with
  | (after, some exit), _ => after.report exit
  | (after, none), [] => after.report 0
  | (after, none), _ :: rest => run fuel after rest

end Prompt

/-! ## Everything together -/

/-- What the command line can see of the world: which files can be read and which
cannot be created. -/
structure Access where
  read : String → Except FileFault ByteArray
  creationFault? : String → Option String
  stdin : ByteArray

def Action.report (fuel : Nat) (clock : Nat → Float) (access : Access) : Action → Report
  | tokenize file asRecords => withText file (access.read file) (tokenizeReport asRecords)
  | parse file => withText file (access.read file) parseReport
  | run file => withText file (access.read file) (runReport fuel clock)
  | prompt => (Prompt.start clock).run fuel (splitLines access.stdin.toList)

/-- The log is created first; a log that cannot be created ends the command. -/
def Command.report (fuel : Nat) (clock : Nat → Float) (access : Access) (command : Command) :
    Report :=
  match command.logFile with
  | none => command.action.report fuel clock access
  | some name =>
      match access.creationFault? name with
      | some cause => logFailure name cause
      | none => command.action.report fuel clock access

def commandLine (fuel : Nat) (clock : Nat → Float) (access : Access) (arguments : List String) :
    Report :=
  match Command.ofArguments? arguments with
  | some command => command.report fuel clock access
  | none => .usage

end Lox
