import DriveLog.CommandLine.Program

/-! The program as it is started. What it shows and how it ends is decided by
`Settings.run` and `Stop.run`; here the capture is fetched and the texts are written. -/

namespace DriveLog.CommandLine

/-- The number of a system error, which comes negated from some calls. -/
def systemNumber (code : UInt32) : Nat := min code.toNat (-code).toNat

/-- The fault that an error of the file system stands for. -/
def faultOf : IO.Error → FileFault
  | .noFileOrDirectory .. => .notFound
  | .permissionDenied .. => .permissionDenied
  | .inappropriateType _ code _ =>
    if systemNumber code = 20 then .notDirectory else .isDirectory
  | .invalidArgument _ code details =>
    if systemNumber code = 36 then .nameTooLong else .other details
  | e => .other (toString e)

/-- What a path leads to at this moment. A directory is found but cannot be read. -/
def fetch (path : String) : IO (Except FileFault FileEntry) := do
  match ← (IO.FS.readBinFile path).toBaseIO with
  | .ok content => return .ok (.file content.toList)
  | .error e =>
    match faultOf e with
    | .isDirectory => return .ok (.directory FileEntry.directorySize)
    | fault => return .error fault

def Run.perform (shown : Run) : IO UInt32 := do
  let stdout ← IO.getStdout
  let stderr ← IO.getStderr
  stdout.putStr shown.stdout
  stdout.flush
  for line in shown.log do
    stderr.putStrLn line
  if let some text := shown.fatal then
    stderr.putStrLn text
  return UInt32.ofNat shown.exitCode

def start (args : List String) : IO UInt32 := do
  match readArguments args with
  | .error stop => stop.run.perform
  | .ok settings =>
    let found ← fetch settings.capture
    (settings.run fun _ => found).perform

end DriveLog.CommandLine

def main (args : List String) : IO UInt32 := DriveLog.CommandLine.start args
