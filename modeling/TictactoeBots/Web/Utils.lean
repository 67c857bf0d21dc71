import TictactoeBots.Lib.Utf8
import TictactoeBots.Lib.Python

/-!
The helpers of the upload: what is read off a bot's docstring, the version
names, and the ownership cookie.

The Python parser is a parameter. `docstring` stands for the common beginning
of the two functions that read it: the string constant that is the first
statement of the module, if `ast.parse` succeeds and there is one.
-/

namespace TictactoeBots

open Text Python

/-- What the interpreter provides. An error of `docstring` is an exception of
`ast.parse` other than `SyntaxError`, which the helpers do not catch. -/
structure Interpreter where
  unicode : UnicodeData
  json : JsonLoads
  docstring : Str → Except PyException (Option Str)

/-- `line.lower().startswith(field)` for a field in lower-case ASCII. No code
point beyond ASCII has one of its letters as its lower case. -/
def startsWithField (field line : Str) : Bool :=
  (line.take field.length).map lowerAscii == field

/-- The text after `field`, stripped. -/
def fieldValue (field line : Str) : Str := strip (line.drop field.length)

/-- The loop of `extract_bot_name`. -/
def findName : List Str → Option Str
  | [] => none
  | line :: rest =>
      let stripped := strip line
      if startsWithField (str "name:") stripped then
        let name := fieldValue (str "name:") stripped
        if name.isEmpty then none else some name
      else findName rest

def extractBotName (py : Interpreter) (source : Str) : Except PyException (Option Str) := do
  match ← py.docstring source with
  | none => return none
  | some docstring => return findName (splitlines docstring)

def runtimeKeys : List Str :=
  [str "python-3.10", str "python-3.11", str "python-3.12", str "python-3.13", str "python-3.14"]

def defaultRuntimeKey : Str := str "python-3.14"

/-- One line of the loop of `extract_runtime_key`, on `language_key` and
`python_ver`. -/
def readRuntimeLine (found : Option Str × Option Str) (line : Str) : Option Str × Option Str :=
  let stripped := strip line
  if startsWithField (str "language:") stripped then
    (some (fieldValue (str "language:") stripped), found.2)
  else if startsWithField (str "python:") stripped then
    (found.1, some (fieldValue (str "python:") stripped))
  else found

def extractRuntimeKey (py : Interpreter) (source : Str) : Except PyException (Option Str) := do
  match ← py.docstring source with
  | none => return none
  | some docstring =>
      match (splitlines docstring).foldl readRuntimeLine (none, none) with
      | (some key, _) => return if key ∈ runtimeKeys then some key else none
      | (none, some version) =>
          let mapped := str "python-" ++ version
          return if mapped ∈ runtimeKeys then some mapped else none
      | (none, none) => return some defaultRuntimeKey

def versionedName (baseName : Str) (version : ℕ) : Str :=
  if version = 1 then baseName else baseName ++ str "V" ++ decimal version

/-- `'python-3.13'` to `'3.13'`; other keys are returned as they are. -/
def pythonVersionFromRuntimeKey (key : Str) : Str :=
  if (str "python-").isPrefixOf key then key.drop (str "python-").length else key

/-- `parse_cookie`: JSON after percent decoding, or an empty `dict` when there
is no value or it is no JSON. The value need not be a `dict`. -/
def parseCookie (py : Interpreter) (value : Option Str) : Except PyException PyValue :=
  match value with
  | none | some [] => .ok (.obj [])
  | some text =>
      match py.json.loadsStr (Utf8.unquote text) with
      | .ok v => .ok v
      | .error exc => if exc.isA .valueError then .ok (.obj []) else .error exc

/-- The interpreter at work on modules that are one triple-quoted string
without escapes. -/
def literalModules : Interpreter where
  unicode := asciiData
  json := nothingDecodes
  docstring source :=
    if (str "\"\"\"").isPrefixOf source && (str "\"\"\"").isSuffixOf source then
      .ok (some ((source.drop 3).take (source.length - 6)))
    else .ok none

end TictactoeBots
