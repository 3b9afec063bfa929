import DriveLog.CommandLine.Number

/-! The arguments of the program. Words are read from left to right, and a value is
looked at only when the next word that has a meaning, or the end, settles it. A word
without a meaning ends the reading at once, whatever value was waiting. -/

namespace DriveLog.CommandLine

/-- What the arguments ask for. -/
structure Settings where
  page : PageId
  namespaceId : Option UInt32
  asHex : Bool
  namespaceSmart : Bool
  lastErrorEntry : Option UInt8
  /-- How often more log output was asked for, at most 255 times. -/
  verbosity : Nat
  capture : String
deriving DecidableEq, Repr

/-- Why the arguments lead to no run. -/
inductive Stop where
  | missingRequired
  | unknownArgument
  /-- A value that its option does not accept. -/
  | valueValidation
  /-- A value that is missing, or empty where it may not be. -/
  | invalidValue
  /-- An option that may be given once was given again. -/
  | argumentConflict
  /-- A value for an option that takes none. -/
  | tooManyValues
  | help
  | version
deriving DecidableEq, Repr

/-- Help and version were asked for; everything else is misuse. -/
def Stop.exitCode : Stop → Nat
  | help | version => 0
  | _ => 2

/-- The places that take a value. -/
inductive Place where
  | page
  | namespaceId
  | lastErrorEntry
  | capture
deriving DecidableEq, Repr

/-- A place whose value is not settled yet, and the value if there is one. -/
structure Pending where
  place : Place
  value : Option String
deriving DecidableEq, Repr

/-- What has been read so far. -/
structure Progress where
  page : Option PageId := none
  namespaceId : Option UInt32 := none
  asHex : Bool := false
  namespaceSmart : Bool := false
  lastErrorEntry : Option UInt8 := none
  verbosity : Nat := 0
  capture : Option String := none
  pending : Option Pending := none
  /-- Whether a word has been taken as the capture. -/
  captureTaken : Bool := false
  /-- Whether all further words are operands. -/
  optionsEnded : Bool := false
deriving DecidableEq, Repr

abbrev Reading := Except Stop

namespace Progress

/-- Puts a value in its place, which must be free. -/
def store (p : Progress) (place : Place) (value : String) : Reading Progress :=
  match place with
  | .page =>
    if p.page.isSome then .error .argumentConflict
    else
      match readPage value with
      | .ok page => .ok { p with page := some page }
      | .error _ => .error .valueValidation
  | .namespaceId =>
    if p.namespaceId.isSome then .error .argumentConflict
    else
      match readNamespace value with
      | .ok id => .ok { p with namespaceId := some id }
      | .error _ => .error .valueValidation
  | .lastErrorEntry =>
    if p.lastErrorEntry.isSome then .error .argumentConflict
    else
      match readEntryNumber? value with
      | some entry => .ok { p with lastErrorEntry := some entry }
      | none => .error .valueValidation
  | .capture =>
    if value = "" then .error .invalidValue else .ok { p with capture := some value }

/-- Settles the value that is waiting, if there is one. -/
def settle (p : Progress) : Reading Progress :=
  match p.pending with
  | none => .ok p
  | some ⟨_, none⟩ => .error .invalidValue
  | some ⟨place, some value⟩ => { p with pending := none }.store place value

def await (p : Progress) (place : Place) (value : Option String) : Progress :=
  { p with pending := some ⟨place, value⟩ }

/-- An option that takes a value. One attached to it is settled with it. -/
def option (p : Progress) (place : Place) (attached : Option String) : Reading Progress := do
  let p ← p.settle
  match attached with
  | some value => p.store place value
  | none => return p.await place none

def setHex (p : Progress) : Reading Progress := do
  let p ← p.settle
  if p.asHex then throw .argumentConflict else return { p with asHex := true }

def setNamespaceSmart (p : Progress) : Reading Progress := do
  let p ← p.settle
  if p.namespaceSmart then throw .argumentConflict
  else return { p with namespaceSmart := true }

def increaseVerbosity (p : Progress) : Reading Progress := do
  let p ← p.settle
  return { p with verbosity := min 255 (p.verbosity + 1) }

def stop (p : Progress) (why : Stop) : Reading Progress := do
  let _ ← p.settle
  throw why

/-- An option without a value. -/
def flag (p : Progress) (attached : Option String) (set : Progress → Reading Progress) :
    Reading Progress :=
  if attached.isSome then .error .tooManyValues else set p

def longOption (p : Progress) (name : String) (attached : Option String) :
    Reading Progress :=
  match name with
  | "page" => p.option .page attached
  | "namespace" => p.option .namespaceId attached
  | "elpe" => p.option .lastErrorEntry attached
  | "hex" => p.flag attached setHex
  | "ns-smart" => p.flag attached setNamespaceSmart
  | "help" => p.flag attached fun p => p.stop .help
  | "version" => p.flag attached fun p => p.stop .version
  | _ => .error .unknownArgument

/-- The value that follows a short option in its own word; an equals sign may lead it. -/
def attachedValue : List Char → Option String
  | [] => none
  | '=' :: cs => some (String.ofList cs)
  | cs => some (String.ofList cs)

/-- The short options of one word, of which one with a value takes the rest. -/
def shortOptions (p : Progress) : List Char → Reading Progress
  | [] => .ok p
  | 'x' :: cs => do (← p.setHex).shortOptions cs
  | 'v' :: cs => do (← p.increaseVerbosity).shortOptions cs
  | 'h' :: _ => p.stop .help
  | 'V' :: _ => p.stop .version
  | 'p' :: cs => p.option .page (attachedValue cs)
  | 'n' :: cs => p.option .namespaceId (attachedValue cs)
  | _ => .error .unknownArgument

/-- The capture is the only operand. -/
def operand (p : Progress) (word : String) : Reading Progress := do
  if p.captureTaken then throw .unknownArgument
  let p ← p.settle
  return { p.await .capture (some word) with captureTaken := true }

/-- A word that is no option: the value of the option before it, or an operand. -/
def plainWord (p : Progress) (word : String) : Reading Progress :=
  match p.pending with
  | some ⟨place, none⟩ => .ok (p.await place (some word))
  | _ => p.operand word

def word (p : Progress) (word : String) : Reading Progress :=
  if p.optionsEnded then p.operand word
  else
    match word.toList with
    | ['-', '-'] => .ok { p with optionsEnded := true }
    | '-' :: '-' :: cs =>
      let name := cs.takeWhile (· ≠ '=')
      let attached :=
        match cs.dropWhile (· ≠ '=') with
        | [] => none
        | _ :: value => some (String.ofList value)
      p.longOption (String.ofList name) attached
    | '-' :: c :: cs => p.shortOptions (c :: cs)
    | _ => p.plainWord word

/-- What is required must be there at the end. -/
def finish (p : Progress) : Reading Settings := do
  let p ← p.settle
  match p.page, p.capture with
  | some page, some capture =>
    return { page, capture, namespaceId := p.namespaceId, asHex := p.asHex
             namespaceSmart := p.namespaceSmart, lastErrorEntry := p.lastErrorEntry
             verbosity := p.verbosity }
  | _, _ => throw .missingRequired

end Progress

def readArguments (args : List String) : Reading Settings := do
  (← args.foldlM Progress.word {}).finish

end DriveLog.CommandLine
