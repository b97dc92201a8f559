import Esoteric.Launch

namespace Esoteric.Main

open Esoteric

/-- Error numbers come with either sign. -/
def isNumber (code number : UInt32) : Bool :=
  code = number || code = 0 - number

/-- Opens a program; what is no obstacle of a known kind ends the process. -/
def readProgram (path : String) : IO (Except Obstacle (List UInt8)) := do
  try
    let bytes ← IO.FS.readBinFile path
    return .ok bytes.toList
  catch problem =>
    match problem with
    | .noFileOrDirectory .. => return .error .missing
    | .permissionDenied .. => return .error .denied
    | .inappropriateType _ code _ =>
        return .error (if isNumber code 20 then .notDirectory else .isDirectory)
    | .invalidArgument _ code _ =>
        if isNumber code 36 then return .error .nameTooLong else throw problem
    | _ => throw problem

/-- Supplies one byte to a machine that is about to read with nothing pending. -/
def feed (limit : Option Int) (session : Session) : IO Session := do
  if (session.spent? limit).isNone && session.machine.asks &&
      session.machine.input.pending.isEmpty then
    let bytes ← (← IO.getStdin).read 1
    let machine := session.machine.withInput (.ofBytes bytes.toList)
    return { session with machine }
  else
    return session

def relay (host : Host) (session : Session) : IO Session := do
  let output := session.machine.output
  unless output.isEmpty do
    let stream ← IO.getStdout
    stream.putStr output
    stream.flush
  unless session.diagnostics.isEmpty do
    (← IO.getStderr).putStr (Launch.render host session.diagnostics)
  return { session with machine := session.machine.flush, diagnostics := #[] }

partial def run (host : Host) (limit : Option Int) (session : Session) :
    IO Ending := do
  match (← feed limit session).turn limit with
  | .going reached => run host limit (← relay host reached)
  | .ended ending reached =>
      let _ ← relay host reached
      return ending

def seed : IO UInt64 := do
  let bytes ← IO.getRandomBytes 8
  return bytes.toList.foldl (fun seed byte => seed * 256 + byte.toUInt64) 0

def conclude (host : Host) (launch : Launch) : IO UInt32 := do
  let exit ← match launch with
    | .ended exit diagnostics => do
        (← IO.getStderr).putStr (Launch.render host diagnostics)
        pure exit
    | .ready session limit =>
        Exit.ran <$> run host limit (← relay host session)
  if let some notice := exit.notice? then
    IO.eprintln notice
  return exit.status.toUInt32

def launch (words : List String) : IO UInt32 := do
  let host : Host :=
    { openFile := fun _ => .error .missing
      chance := Chance.seeded (← seed) }
  match Options.parse words with
  | .error cause => conclude host (.ended (.refused cause) #[])
  | .ok options =>
      match options.program with
      | some path =>
          let contents ← readProgram path
          let host := { host with openFile := fun _ => contents }
          conclude host (Launch.ofOptions host options)
      | none =>
          (← IO.getStderr).putStr (Launch.render host #[.sourceExpected])
          let source ← (← IO.getStdin).readBinToEnd
          let source? := options.encoding.decodeSource source.toList
          conclude host (Launch.load host options source? [] #[])

end Esoteric.Main

def main (words : List String) : IO UInt32 :=
  Esoteric.Main.launch words
