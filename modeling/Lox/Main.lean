import Lox.CommandLine
/-! The program itself: it fetches what a command asks for, shows what the command
reports, and exits with the code of the report. -/

namespace Lox

/-- More steps than any run that comes to an end takes. -/
def stepLimit : Nat := 1000000000000000000

/-- The system's own words for an error, with its number. -/
def causeOf (error : IO.Error) : String :=
  let numbered (number : UInt32) (words : String) : String :=
    words ++ " (os error " ++ toString number ++ ")"
  match error with
  | .alreadyExists _ number words => numbered number words
  | .otherError number words => numbered number words
  | .resourceBusy number words => numbered number words
  | .resourceVanished number words => numbered number words
  | .unsupportedOperation number words => numbered number words
  | .hardwareFault number words => numbered number words
  | .unsatisfiedConstraints number words => numbered number words
  | .illegalOperation number words => numbered number words
  | .protocolError number words => numbered number words
  | .timeExpired number words => numbered number words
  | .interrupted _ number words => numbered number words
  | .noFileOrDirectory _ number words => numbered number words
  | .invalidArgument _ number words => numbered number words
  | .permissionDenied _ number words => numbered number words
  | .resourceExhausted _ number words => numbered number words
  | .inappropriateType _ number words => numbered number words
  | .noSuchThing _ number words => numbered number words
  | .unexpectedEof => "unexpected end of file"
  | .userError words => words

/-- A file that can be opened but not read is a directory or a device. -/
def readFile (name : String) : IO (Except FileFault ByteArray) := do
  match ← (IO.FS.Handle.mk name .read).toBaseIO with
  | .error error => return .error (.cannotOpen (causeOf error))
  | .ok handle =>
      match ← handle.readBinToEnd.toBaseIO with
      | .ok bytes => return .ok bytes
      | .error _ => return .error (.cannotMap "No such device (os error 19)")

/-- Create the log. It notes how the command ends. -/
def createLog? (name : String) : IO (Option String) := do
  match ← (IO.FS.writeFile name "").toBaseIO with
  | .ok _ => return none
  | .error error => return some (causeOf error)

/-- Milliseconds since a fixed point in time. Readings of one command follow each
other in the smallest steps that the system clock knows. -/
def readingsFromNow : IO (Nat → Float) := do
  let start ← IO.monoNanosNow
  return fun ticks => (start + ticks).toFloat / 1000000

/-- One line with its end; nothing at the end of the input. -/
partial def readLine (input : IO.FS.Stream) (line : ByteArray) : IO ByteArray := do
  let byte ← input.read 1
  if byte.isEmpty then return line
  else if byte.toList.all isLineFeed then return line ++ byte
  else readLine input (line ++ byte)

/-- Show what a report holds beyond what has been shown. -/
def showReport (report : Report) (bytesShown : Nat) (errorsShown : String) : IO Unit := do
  let output ← IO.getStdout
  output.write (report.stdout.extract bytesShown report.stdout.size)
  output.flush
  let errors ← IO.getStderr
  errors.putStr (report.stderr.drop errorsShown.length).toString

/-- The clock of a prompt goes on while it waits for a line. -/
def setClock (prompt : Prompt) : IO Prompt := do
  let clock ← readingsFromNow
  return { prompt with
    session := { prompt.session with
      machine := { prompt.session.machine with clock := clock } } }

/-- Ask and answer until the prompt ends. -/
partial def converse (prompt : Prompt) : IO UInt32 := do
  let asked := prompt.ask
  showReport (asked.report 0) (prompt.report 0).stdout.size prompt.errors
  let line ← readLine (← IO.getStdin) .empty
  let (after, exit?) := (← setClock asked).answer stepLimit (splitLines line.toList).head?
  showReport (after.report 0) (asked.report 0).stdout.size asked.errors
  match exit? with
  | some exit => return exit
  | none => converse after

def perform (action : Action) : IO UInt32 := do
  let clock ← readingsFromNow
  match action.file? with
  | none => converse (.start clock)
  | some name =>
      let contents ← readFile name
      let report := action.report stepLimit clock ⟨fun _ => contents, fun _ => none, .empty⟩
      showReport report 0 ""
      return report.exit

def performCommand (command : Command) : IO UInt32 := do
  match command.logFile with
  | none => perform command.action
  | some name =>
      match ← createLog? name with
      | some cause =>
          let report := logFailure name cause
          showReport report 0 ""
          return report.exit
      | none =>
          let exit ← perform command.action
          IO.FS.writeFile name ("exit code " ++ toString exit ++ "\n")
          return exit

end Lox

open Lox in
def main (arguments : List String) : IO UInt32 := do
  match Command.ofArguments? arguments with
  | some command => performCommand command
  | none =>
      showReport .usage 0 ""
      return Report.usage.exit
