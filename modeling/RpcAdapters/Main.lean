import RpcAdapters.Standalone.Run
import Std.Time

/-!
# The program

Reads the command line, runs the command on the real files and streams, and prints what comes of it.
-/

namespace RpcAdapters.Program

def versionLine : String := "protoc-gen-go-pprpc 0.4.1"

/-! ## the surroundings -/

def timeMark : IO String := do
  let now ← Std.Time.PlainDateTime.now
  return "[" ++ now.time.format "HH:mm:ss" ++ "]"

def fileErrorOf : IO.Error → FileError
  | .noFileOrDirectory .. => .notFound
  | .alreadyExists .. => .exists
  | .inappropriateType _ 21 _ => .isDirectory
  | .inappropriateType .. => .notDirectory
  | e => .other e.toString

def attempt {α : Type} (act : IO α) : IO (Except FileError α) := do
  match ← act.toBaseIO with
  | .ok a => return .ok a
  | .error e => return .error (fileErrorOf e)

partial def readToEnd (input : IO.FS.Stream) (soFar : ByteArray) : IO ByteArray := do
  let more ← input.read 65536
  if more.isEmpty then return soFar else readToEnd input (soFar ++ more)

def terminalWidth : IO Nat := do
  let columns ← IO.getEnv "COLUMNS"
  return (columns.bind String.toNat?).getD 80

/-! ## printing -/

def print (colors : Colors) (report : List Report.Entry) : IO Unit := do
  let err ← IO.getStderr
  for entry in report do
    err.putStr (entry.text colors (← timeMark))

def fail (message : String) : IO UInt32 := do
  (← IO.getStderr).putStrLn ("Error: " ++ message)
  return 1

def write (bytes : List UInt8) : IO Unit := do
  let out ← IO.getStdout
  out.write ⟨bytes.toArray⟩
  out.flush

def explain (stop : CommandLine.Stop) : IO UInt32 := do
  match stop with
  | .version =>
    IO.println versionLine
    return 0
  | .bareGroup =>
    (← IO.getStderr).putStr stop.message
    return 2
  | stop =>
    if stop.isAnswer then
      IO.print stop.message
      return 0
    else
      (← IO.getStderr).putStrLn ("error: " ++ stop.message)
      return 2

/-! ## commands -/

def writeFile (w : FileWrite) : IO Unit := do
  let directory := Path.parent w.path
  if directory ≠ "" then IO.FS.createDirAll directory
  IO.FS.writeFile w.path w.content

def contentOf (path : String) : IO (Except ReadError (List UInt8)) := do
  match ← attempt (IO.FS.readBinFile path) with
  | .ok bytes => return .ok bytes.toList
  | .error .isDirectory => return .error (.unmapped .noDevice)
  | .error e => return .error (.unopened e)

def runCommand (i : Invocation) (colors : Colors) : IO UInt32 := do
  match i.command with
  | .exchange =>
    let input ← readToEnd (← IO.getStdin) .empty
    match exchange input.toList with
    | .error e => fail e.message
    | .ok reply =>
      print colors reply.report
      write reply.output
      return 0
  | .listServices path param =>
    match Standalone.listServices (← terminalWidth) path param (← contentOf path) with
    | .error e => fail e.message
    | .ok text =>
      IO.print text
      return 0
  | .generate path param files output =>
    let plan := Standalone.generate i.verbosity path param files output (← contentOf path)
    print colors plan.report
    match plan.result with
    | .error e => fail e.message
    | .ok w =>
      match ← attempt (w.writes.forM writeFile) with
      | .error e => fail (RunError.unwritable e).message
      | .ok _ =>
        print colors w.closing
        return 0

def runWords (words : List String) : IO UInt32 := do
  match Invocation.ofWords words with
  | .error stop => explain stop
  | .ok i =>
    let colors := i.colors (← (← IO.getStderr).isTty) (← IO.getEnv "COLORFGBG")
    runCommand i colors

end RpcAdapters.Program

def main (args : List String) : IO UInt32 := RpcAdapters.Program.runWords args
