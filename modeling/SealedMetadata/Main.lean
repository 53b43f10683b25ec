import SealedMetadata.Cli.Run
import Std.Time.Zoned

/-!
The command line program. It reads the environment, the clock, the system's random bytes and the
answer to a question, and leaves the rest to `Cli.run`.
-/

namespace SealedMetadata.Program

/-- The environment variables that the settings read. -/
def readEnvironment : IO Settings.Environment := do
  let mut env := []
  for name in [Settings.versionVariable, Settings.levelVariable] do
    if let some value ← IO.getEnv name then env := (name, value) :: env
  return env

/-- The answer to a question, without its line end; none at the end of the input. -/
def ask (question : String) : IO (Option Cli.RawText) := do
  IO.eprint question
  let line ← (← IO.getStdin).getLine
  if line.isEmpty then return none
  return some (.ofString (String.ofList (line.toList.filter fun c => c ≠ '\n' ∧ c ≠ '\r')))

def twoDigits (n : Int) : String :=
  if n < 10 then "0" ++ toString n else toString n

def readTime : IO String := do
  let t ← Std.Time.PlainTime.now
  return ":".intercalate ([t.hour.val, t.minute.val, t.second.val].map twoDigits)

/-- Runs a command line on the random source of the system. -/
def run (args : List String) : IO UInt32 := do
  let env ← readEnvironment
  let args := args.map Cli.RawText.ofString
  let answers ← match Cli.question? .kept args env with
    | some question => (·.toList) <$> ask question
    | none => pure []
  let time ← readTime
  let random ← IO.getRandomBytes 64
  let outcome := (Cli.run .kept time args env answers).run (RandomSource.cycle random.toList)
  match outcome.result with
  | .ok (.usage exit) =>
    IO.eprintln "usage: cloudmeta [-h] [--verbose] encrypt|decrypt|login-hash|link-hash ..."
    return exit.toUInt32
  | .ok (.ran r) =>
    IO.print r.stdout
    IO.eprint r.stderr
    return r.exit.toUInt32
  | .error e =>
    IO.eprintln e.kind.name
    return 1

end SealedMetadata.Program

def main (args : List String) : IO UInt32 := SealedMetadata.Program.run args
