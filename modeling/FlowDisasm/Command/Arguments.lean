import FlowDisasm.Text.Pieces

/-!
# The command line

A command line is a verb with a file and switches. Some switches stand alone and some take a value, which
is either attached by an equals sign or the next word, unless that looks like a switch. A word of two
dashes makes all later words operands. What was read last is taken in only when the next switch or operand
begins, so an earlier word can be refused after a later one was looked at.
-/
namespace FlowDisasm.Command

/-- Why a command line is not carried out: it is refused, or it asks for something else. -/
inductive Usage where
  | unknownArgument
  | unknownVerb
  | missingVerb
  | missingArgument
  /-- A switch or the file has no value. -/
  | emptyValue
  /-- A value is attached to a switch that stands alone. -/
  | attachedValue
  /-- A switch is given twice. -/
  | repeated
  /-- The command line is empty. -/
  | nothing
  | help
  | version
  deriving DecidableEq

/-- What a command does. -/
inductive Verb where
  | info
  | symbols
  | disasm
  deriving DecidableEq

def Verb.name : Verb → String
  | info => "info"
  | symbols => "symbols"
  | disasm => "disasm"

def Verb.ofName? (word : String) : Option Verb :=
  [info, symbols, disasm].find? fun verb => verb.name == word

def helpWord : String := "help"

/-- Whether a word is a verb or asks for help on one. -/
def isVerb (word : String) : Bool :=
  (Verb.ofName? word).isSome || word == helpWord

/-- How many values a switch takes, and how often it can be given. -/
inductive Arity where
  | alone
  | value
  | values
  deriving DecidableEq

/-- What can be given behind dashes. -/
inductive Switch where
  | help
  | version
  | json
  | verbose
  | exe
  | base
  | cpu
  | raw
  | sym
  | symbolRoots
  | root
  | label
  | noEntry
  | noServiceCalls
  | serviceVector
  | skipThreshold
  deriving DecidableEq

namespace Switch

def name : Switch → String
  | help => "help"
  | version => "version"
  | json => "json"
  | verbose => "verbose"
  | exe => "exe"
  | base => "base"
  | cpu => "cpu"
  | raw => "raw"
  | sym => "sym"
  | symbolRoots => "symbol-roots"
  | root => "root"
  | label => "label"
  | noEntry => "no-entry"
  | noServiceCalls => "no-service-calls"
  | serviceVector => "service-vector"
  | skipThreshold => "skip-threshold"

def letter? : Switch → Option Char
  | help => some 'h'
  | version => some 'V'
  | verbose => some 'v'
  | _ => none

def arity : Switch → Arity
  | help | version | json | verbose | raw | symbolRoots | noEntry | noServiceCalls => .alone
  | exe | base | cpu | sym | serviceVector | skipThreshold => .value
  | root | label => .values

/-- Whether the value is a path, which cannot be empty. -/
def namesFile : Switch → Bool
  | exe | sym => true
  | _ => false

def available : Option Verb → List Switch
  | none => [help, json, verbose, version]
  | some .info => [help, json, verbose]
  | some .symbols => [help, json, verbose, exe, base]
  | some .disasm =>
    [help, json, verbose, cpu, base, raw, sym, symbolRoots, root, label, noEntry, noServiceCalls,
      serviceVector, skipThreshold]

/-- What a switch asks for in place of the command. -/
def request? : Switch → Option Usage
  | help => some .help
  | version => some .version
  | _ => none

end Switch

/-- The switches and the file that were given. -/
structure Given where
  /-- The switches with their values, in order. -/
  switches : List (Switch × String) := []
  file : Option String := none

namespace Given

def has (given : Given) (switch : Switch) : Bool :=
  given.switches.any (·.1 = switch)

def values (given : Given) (switch : Switch) : List String :=
  (given.switches.filter (·.1 = switch)).map (·.2)

def value? (given : Given) (switch : Switch) : Option String :=
  (given.values switch).head?

def add (given : Given) (switch : Switch) (value : String) : Except Usage Given :=
  if switch.arity ≠ .values && given.has switch then .error .repeated
  else if switch.namesFile && value.isEmpty then .error .emptyValue
  else .ok { given with switches := given.switches ++ [(switch, value)] }

end Given

/-- What was read but not yet taken in. -/
inductive Pending where
  | nothing
  | waiting (switch : Switch)
  | value (switch : Switch) (text : String)
  | file (path : String)

/-- How far a command line is read. -/
structure Reading where
  given : Given := {}
  pending : Pending := .nothing

namespace Reading

/-- Takes in what was read. -/
def settle (reading : Reading) : Except Usage Given :=
  match reading.pending with
  | .nothing => .ok reading.given
  | .waiting _ => .error .emptyValue
  | .value switch text => reading.given.add switch text
  | .file path =>
    if path.isEmpty then .error .emptyValue
    else .ok { reading.given with file := some path }

def hasFile (reading : Reading) : Bool :=
  match reading.pending with
  | .file _ => true
  | _ => reading.given.file.isSome

/-- Takes in a switch that stands alone. -/
def raise (reading : Reading) (switch : Switch) : Except Usage Reading := do
  let given ← reading.settle
  match switch.request? with
  | some _ => return { given }
  | none => return { given := ← given.add switch "" }

/-- Reads a switch by its name, with the value that is attached to it. -/
def long (reading : Reading) (available : List Switch) (name : String) (attached : Option String) :
    Except Usage Reading :=
  match available.find? (·.name == name) with
  | none => .error .unknownArgument
  | some switch =>
    match switch.arity, attached with
    | .alone, some _ => .error .attachedValue
    | .alone, none => do
      let reading ← reading.raise switch
      match switch.request? with
      | some usage => throw usage
      | none => return reading
    | _, some value => do
      let given ← reading.settle
      return { given := ← given.add switch value }
    | _, none => do
      let given ← reading.settle
      return { given, pending := .waiting switch }

/-- Reads switches by their letters. Of several that ask for something else the last letter decides. -/
def letters (available : List Switch) : Reading → Option Usage → List Char → Except Usage Reading
  | reading, none, [] => .ok reading
  | _, some usage, [] => .error usage
  | reading, _, letter :: rest =>
    match available.find? (·.letter? == some letter) with
    | none => .error .unknownArgument
    | some switch => do
      let reading ← reading.raise switch
      letters available reading switch.request? rest

def operand (reading : Reading) (path : String) : Except Usage Reading :=
  if reading.hasFile then .error .unknownArgument
  else do
    let given ← reading.settle
    return { given, pending := .file path }

/-- Reads words that are operands whatever they look like. -/
def operands : Reading → List String → Except Usage Given
  | reading, [] => reading.settle
  | reading, word :: rest => do
    let reading ← reading.operand word
    operands reading rest

end Reading

/-- What a word looks like. -/
inductive Shape where
  /-- Two dashes alone. -/
  | separator
  | long (name : String) (attached : Option String)
  | letters (letters : List Char)
  | plain

/-- The shape of a word. One dash alone is a plain word. -/
def Shape.of (word : String) : Shape :=
  match word.toList with
  | ['-', '-'] => .separator
  | '-' :: '-' :: rest =>
    match Text.splitFirst '=' rest with
    | some (name, value) => .long (String.ofList name) (some (String.ofList value))
    | none => .long (String.ofList rest) none
  | '-' :: first :: rest => .letters (first :: rest)
  | _ => .plain

def readBehind (available : List Switch) : Reading → List String → Except Usage Given
  | reading, [] => reading.settle
  | reading, word :: rest =>
    match Shape.of word, reading.pending with
    | .separator, _ => reading.operands rest
    | .long name attached, _ => do
      let reading ← reading.long available name attached
      readBehind available reading rest
    | .letters letters, _ => do
      let reading ← Reading.letters available reading none letters
      readBehind available reading rest
    | .plain, .waiting switch =>
      readBehind available { reading with pending := .value switch word } rest
    | .plain, _ => do
      let reading ← reading.operand word
      readBehind available reading rest

/-- What is asked for when a disassembly is. -/
structure DisasmRequest where
  path : String
  cpu : String := "i80386"
  base : Option String := none
  raw : Bool := false
  sym : Option String := none
  symbolRoots : Bool := false
  roots : List String := []
  labels : List String := []
  noEntry : Bool := false
  noServiceCalls : Bool := false
  serviceVector : String := "0x20"
  skipThreshold : String := "0x100"

/-- A verb with what it is applied to. -/
inductive Task where
  | info (path : String)
  | symbols (path : String) (exe base : Option String)
  | disasm (request : DisasmRequest)

def Task.of (verb : Verb) (given : Given) : Except Usage Task :=
  match given.file, verb with
  | none, _ => .error .missingArgument
  | some path, .info => .ok (.info path)
  | some path, .symbols => .ok (.symbols path (given.value? .exe) (given.value? .base))
  | some path, .disasm =>
    if given.has .symbolRoots && !given.has .sym then .error .missingArgument
    else
      let standard : DisasmRequest := { path }
      .ok (.disasm {
        path
        cpu := (given.value? .cpu).getD standard.cpu
        base := given.value? .base
        raw := given.has .raw
        sym := given.value? .sym
        symbolRoots := given.has .symbolRoots
        roots := given.values .root
        labels := given.values .label
        noEntry := given.has .noEntry
        noServiceCalls := given.has .noServiceCalls
        serviceVector := (given.value? .serviceVector).getD standard.serviceVector
        skipThreshold := (given.value? .skipThreshold).getD standard.skipThreshold })

/-- A command line that can be carried out. -/
structure Invocation where
  json : Bool
  verbose : Bool
  task : Task

def helpOn : List String → Usage
  | [] => .help
  | [word] => if isVerb word then .help else .unknownVerb
  | _ => .unknownVerb

/-- What is wrong with a command line that ends without a verb. -/
def Given.withoutVerb (given : Given) : Usage :=
  if given.switches.isEmpty then .nothing else .missingVerb

/-- Reads a command line of which the switches in front of the verb were read. -/
def readFront (given : Given) : List String → Except Usage Invocation
  | [] => .error given.withoutVerb
  | word :: rest =>
    match Verb.ofName? word with
    | some verb => do
      let behind ← readBehind (Switch.available (some verb)) {} rest
      let task ← Task.of verb behind
      return {
        json := given.has .json || behind.has .json
        verbose := given.has .verbose || behind.has .verbose
        task }
    | none =>
      if word = helpWord then .error (helpOn rest)
      else
        match Shape.of word with
        | .separator =>
          match rest with
          | [] => .error given.withoutVerb
          | next :: _ => .error (if isVerb next then .unknownArgument else .unknownVerb)
        | .long name attached => do
          let reading ← Reading.long { given } (Switch.available none) name attached
          readFront reading.given rest
        | .letters letters => do
          let reading ← Reading.letters (Switch.available none) { given } none letters
          readFront reading.given rest
        | .plain => .error .unknownVerb

/-- The command that the words of a command line make. -/
def Invocation.read (words : List String) : Except Usage Invocation :=
  readFront {} words

end FlowDisasm.Command
