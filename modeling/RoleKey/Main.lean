import RoleKey.Ed25519.Scheme
import RoleKey.Program

/-!
The program at work: its words, settings, files and random bytes are those of the system.

The paths that a command line names are read before the command runs, which then sees only what was
found behind them.
-/

set_option autoImplicit false
set_option relaxedAutoImplicit false

namespace RoleKey.Main

open CommandLine (Environment)

/-- The settings that the system has for the program. -/
def settings : IO Environment := do
  return {
    logLevel := ← IO.getEnv "NK_LOG_LEVEL"
    logFormat := ← IO.getEnv "NK_LOG_FORMAT"
    inkey := ← IO.getEnv "NK_INKEY"
    filter := ← IO.getEnv "RUST_LOG" }

/-- The fault that an error of the system is. -/
def faultOf : IO.Error → ReadFault
  | .noFileOrDirectory _ _ _ => .notFound
  | e => .other (toString e)

/-- What is found behind a path. -/
def look (path : String) : IO Node := do
  try
    let info ← (← IO.FS.realPath path).metadata
    match info.type with
    | .dir => return ⟨false, .error .isDirectory⟩
    | kind =>
      let content ← IO.FS.readBinFile path
      return ⟨kind == .file, .ok content.data.toList⟩
  catch e => return ⟨false, .error (faultOf e)⟩

/-- What is found behind these paths, and nothing behind others. -/
def lookAll (paths : List String) : IO Files := do
  let found ← paths.mapM fun path => do return (path, ← look path)
  return fun path => (found.lookup path).getD ⟨false, .error .notFound⟩

/-- The paths that a command line names. -/
def pathsOf (env : Environment) (words : List String) : List String :=
  match CommandLine.read env words with
  | .ok invocation => invocation.request.paths
  | .error _ => []

/-- As many random bytes of the system as one key pair takes. -/
def randomness : IO RandomSource := do
  try return ⟨(← IO.getRandomBytes secretLength.toUSize).data.toList, ""⟩
  catch e => return ⟨[], toString e⟩

/-- Runs the program and prints what it comes to. -/
def run (words : List String) : IO UInt32 := do
  let env ← settings
  let files ← lookAll (pathsOf env words)
  let outcome := Program.run Ed25519.scheme env files (← randomness) words
  for line in outcome.eventLines do
    IO.eprintln line
  IO.eprint outcome.stderr
  IO.print outcome.stdout
  return outcome.exitCode.toUInt32

end RoleKey.Main

/-- The program. -/
def main (words : List String) : IO UInt32 := RoleKey.Main.run words
