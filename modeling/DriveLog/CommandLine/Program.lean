import DriveLog.CommandLine.Arguments
import DriveLog.Retrieval.Capture

/-! The program: shows the page that a capture holds. A run is a function of the
arguments and of what the capture's path leads to. -/

namespace DriveLog.CommandLine

open Text

/-- All that a run shows. -/
structure Run where
  exitCode : Nat
  stdout : String := ""
  /-- The lines of the log, without the time. -/
  log : List String := []
  /-- Why the run failed, unless the arguments were at fault. -/
  fatal : Option String := none
deriving DecidableEq, Repr

def versionText : String := "nvme-logpage 0.1.0\n"

def helpLines : List String :=
  [ "Decode an NVMe log page captured from a controller",
    "",
    "Usage: nvme-logpage [OPTIONS] --page <page> <capture>",
    "",
    "Arguments:",
    "  <capture>  File holding the raw log page",
    "",
    "Options:",
    "  -p, --page <page>            Log page identifier, decimal or 0x prefixed hex",
    "  -x, --hex                    Dump the page as hex instead of decoding it",
    "  -n, --namespace <namespace>  Namespace to request the page for",
    "      --ns-smart               Controller keeps SMART/health data per namespace",
    "      --elpe <elpe>            Zero based error log entry count [default: from capture size]",
    "  -v...                        More log output on stderr (-v, -vv, -vvv)",
    "  -h, --help                   Print help",
    "  -V, --version                Print version" ]

def helpText : String := String.join (helpLines.map (· ++ "\n"))

def Stop.run (stop : Stop) : Run where
  exitCode := stop.exitCode
  stdout :=
    match stop with
    | .help => helpText
    | .version => versionText
    | _ => ""

/-- A failure with its causes; several causes are numbered from the nearest one on. -/
def failureText (message : String) (causes : List String) : String :=
  "Error: " ++ message ++
    match causes with
    | [] => ""
    | [cause] => "\n\nCaused by:\n    " ++ cause
    | causes => "\n\nCaused by:" ++ String.join (causes.zipIdx.map numbered)
where
  numbered (entry : String × Nat) : String :=
    "\n" ++ padLeft 5 ' ' (decimal entry.2) ++ ": " ++ entry.1

def failed (message : String) (causes : List String) : Run where
  exitCode := 1
  fatal := some (failureText message causes)

namespace Settings

def request (settings : Settings) : Request where
  page := settings.page
  namespaceId := settings.namespaceId
  asHex := settings.asHex

def run (settings : Settings) (files : Files) : Run :=
  match Capture.ofPath? files settings.capture settings.namespaceSmart
      settings.lastErrorEntry with
  | .error failure => failed failure.message failure.causes
  | .ok capture =>
    let outcome := (capture.controller files).retrieve settings.request {}
    let shown : Run :=
      match outcome.result with
      | .ok () => { exitCode := 0 }
      | .error failure => failed failure.message failure.causes
    { shown with
      stdout := outcome.sink.written
      log := Message.logLines settings.verbosity outcome.messages }

end Settings

def run (args : List String) (files : Files) : Run :=
  match readArguments args with
  | .error stop => stop.run
  | .ok settings => settings.run files

end DriveLog.CommandLine
