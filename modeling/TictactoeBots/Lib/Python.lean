import TictactoeBots.Lib.Json

/-!
Python values and exceptions, as far as error handling depends on them: the
values `json.loads` can return with their truthiness, and exception classes
with the order in which an `except` clause looks for a match.
-/

namespace Python

open Text

/-- A number that `json.loads` can return. The constants `NaN`, `Infinity` and
`-Infinity` are accepted by it. -/
inductive Number where
  | int (n : ℤ)
  | float (x : ℚ)
  | infinity (negative : Bool)
  | nan

/-- A value that `json.loads` can return. -/
abbrev PyValue := Json.Value Number

/-- `bool(v)`. -/
def truthy : PyValue → Bool
  | .null => false
  | .bool b => b
  | .num (.int n) => n != 0
  | .num (.float x) => x != 0
  | .num _ => true
  | .str s => !s.isEmpty
  | .arr items => !items.isEmpty
  | .obj fields => !fields.isEmpty

@[simp] theorem truthy_null : truthy .null = false := rfl

@[simp] theorem truthy_str (s : Str) : truthy (.str s) = !s.isEmpty := rfl

/-- `type(v).__name__`. -/
def typeName : PyValue → Str
  | .null => str "NoneType"
  | .bool _ => str "bool"
  | .num (.int _) => str "int"
  | .num _ => str "float"
  | .str _ => str "str"
  | .arr _ => str "list"
  | .obj _ => str "dict"

/-! ### Exceptions -/

/-- Exception classes. `other` stands for the ones that are a direct subclass
of `Exception` and that no clause under study names. -/
inductive ExcClass where
  | exception
  | attributeError
  | typeError
  | runtimeError
  | recursionError
  | valueError
  | jsonDecodeError
  | unicodeDecodeError
  | osError
  | timeoutError
  | connectionResetError
  | connectionRefusedError
  | remoteDisconnected
  | urlError
  | httpError
  | other (name : Str)
  deriving DecidableEq

/-- The class and the classes it inherits from, without `BaseException`. -/
def ExcClass.mro : ExcClass → List ExcClass
  | .exception => [.exception]
  | .recursionError => [.recursionError, .runtimeError, .exception]
  | .jsonDecodeError => [.jsonDecodeError, .valueError, .exception]
  | .unicodeDecodeError => [.unicodeDecodeError, .valueError, .exception]
  | .timeoutError => [.timeoutError, .osError, .exception]
  | .connectionResetError => [.connectionResetError, .osError, .exception]
  | .connectionRefusedError => [.connectionRefusedError, .osError, .exception]
  | .remoteDisconnected => [.remoteDisconnected, .connectionResetError, .osError, .exception]
  | .urlError => [.urlError, .osError, .exception]
  | .httpError => [.httpError, .urlError, .osError, .exception]
  | cls => [cls, .exception]

structure PyException where
  cls : ExcClass
  text : Str

/-- `isinstance(exc, cls)`, the test an `except cls` clause makes. -/
def PyException.isA (exc : PyException) (cls : ExcClass) : Bool := exc.cls.mro.contains cls

/-- The exception of `v.attr` on a value whose type has no such attribute. -/
def noAttribute (v : PyValue) (attr : Str) : PyException where
  cls := .attributeError
  text := str "'" ++ typeName v ++ str "' object has no attribute '" ++ attr ++ str "'"

theorem exists_of_bind_eq_ok {ε α β : Type} {x : Except ε α} {f : α → Except ε β} {b : β}
    (h : x >>= f = .ok b) : ∃ a, x = .ok a ∧ f a = .ok b := by
  cases x with
  | error e => exact absurd h (by simp [bind, Except.bind])
  | ok a => exact ⟨a, rfl, h⟩

/-- `json.loads` on bytes and on a `str`, with the exceptions it is documented
to raise: undecodable bytes, text that is not JSON, an integer with too many
digits, and nesting that exhausts the stack. -/
structure JsonLoads where
  loads : List UInt8 → Except PyException PyValue
  loadsStr : Str → Except PyException PyValue
  loads_error : ∀ {body exc}, loads body = .error exc →
    exc.cls ∈ [.jsonDecodeError, .unicodeDecodeError, .valueError, .recursionError]
  loadsStr_error : ∀ {text exc}, loadsStr text = .error exc →
    exc.cls ∈ [.jsonDecodeError, .valueError, .recursionError]

theorem JsonLoads.not_urlError (json : JsonLoads) {content : List UInt8} {exc : PyException}
    (h : json.loads content = .error exc) : exc.isA .urlError = false := by
  have hcls := json.loads_error h
  simp only [List.mem_cons, List.not_mem_nil, or_false] at hcls
  rcases hcls with hcls | hcls | hcls | hcls <;> simp [PyException.isA, hcls, ExcClass.mro]

/-- The decoder at work on empty input, which is not JSON. -/
def nothingDecodes : JsonLoads where
  loads _ := .error ⟨.jsonDecodeError, str "Expecting value: line 1 column 1 (char 0)"⟩
  loadsStr _ := .error ⟨.jsonDecodeError, str "Expecting value: line 1 column 1 (char 0)"⟩
  loads_error h := by
    cases h
    simp
  loadsStr_error h := by
    cases h
    simp

/-- `fields[key] = v` on a `dict`. -/
def setItem (fields : List (Str × PyValue)) (key : Str) (v : PyValue) : List (Str × PyValue) :=
  match fields with
  | [] => [(key, v)]
  | (k, old) :: rest => if k = key then (key, v) :: rest else (k, old) :: setItem rest key v

end Python
