import Billiard.Cli.Session

/-!
The command line. Files, the clock and the terminal are here; what is done with them is decided in
`Billiard.Session`.
-/

namespace Billiard.Main

/-- More deliveries than a machine can make. -/
def rounds : Nat := Nat.pow 2 62

/-- Reads a file, or says why it cannot be read. -/
def readFile (path : String) : IO (Except Folder.Fault String) := do
  try
    let bytes ← IO.FS.readBinFile path
    return Folder.decode? bytes
  catch
    | .inappropriateType none .. => return .error .isFolder
    | .inappropriateType (some _) .. => return .error .notFolder
    | .invalidArgument .. => return .error .longName
    | _ => return .error .absent

/-- The greatest rank that is logged: by default only errors. -/
def loggedRank : Option String → Nat
  | some "off" => 0
  | some "warn" => Level.warn.rank
  | some "info" => Level.info.rank
  | some "debug" => Level.debug.rank
  | some "trace" => Level.trace.rank
  | _ => Level.error.rank

/-- Prints the lines that matter enough. -/
def log (rank : Nat) (lines : List Session.Line) : IO Unit := do
  for line in lines do
    if line.level.rank ≤ rank then
      IO.eprint (line.level.label ++ " " ++ line.written)

/-- Logs a fault and complains about it. -/
def fail (rank : Nat) (fault : Session.Fault) : IO UInt32 := do
  log rank fault.lines
  IO.eprintln (Session.complaint fault)
  return .ofNat fault.exitCode

/-- Delivers what has become due since `begun`, time and again, until `millis` have passed. -/
def follow (rank : Nat) (begun millis : Nat) (performance : Session.Performance) :
    IO (Except Session.Fault Session.Performance) := do
  let mut performance := performance.note (.pumpStarted Reservoir.quantum)
  let mut seen := 0
  repeat
    let notes := Session.notes performance
    log rank (notes.drop seen)
    seen := notes.length
    let passed := (← IO.monoMsNow) - begun
    if millis ≤ passed then
      performance := performance.advance (.ofNat passed)
      break
    match (performance.advance (.ofNat passed)).dispatchDue rounds with
    | none => break
    | some (.ok _, next) => performance := next
    | some (.error cause, next) =>
      let fault := Session.ofBreak cause
      let last :=
        match cause with
        | .fault cause => next.note (.pumpFailed cause)
        | .crash => next
      log rank ((Session.notes last).drop seen)
      return .error fault
    IO.sleep (UInt32.ofNat (Nat.min Reservoir.quantum.toNat (millis - passed)))
  log rank [.note .pumpStopped]
  return .ok performance

/-- Runs a session with the given scene file content. -/
def perform (rank : Nat) (arguments : List String) (content : Except Folder.Fault String) :
    IO UInt32 := do
  let begun ← IO.monoMsNow
  match Session.opening (fun _ => content) arguments with
  | (lines, .error fault) =>
    log rank lines
    fail rank fault
  | (lines, .ok (options, performance)) =>
    log rank lines
    let millis := options.millis.getD Session.standardMillis
    if options.realtime then
      match ← follow rank begun millis.toNat performance with
      | .error fault => fail rank fault
      | .ok performance =>
        log rank (Session.report performance)
        return 0
    else
      match Session.rush rounds millis performance with
      | none => return 1
      | some (.error fault, performance) =>
        log rank (Session.notes performance)
        fail rank fault
      | some (.ok (), performance) =>
        log rank (Session.notes performance ++ Session.report performance)
        return 0

end Billiard.Main

open Billiard in
/-- Runs the scene that the arguments ask for. -/
def main (arguments : List String) : IO UInt32 := do
  let rank := Main.loggedRank (← IO.getEnv "RUST_LOG")
  let content ←
    match Options.ofArguments arguments with
    | .ok { scene := some path, .. } => Main.readFile path
    | _ => pure (.error .absent)
  Main.perform rank arguments content
