import TictactoeBots.Web.Utils

/-!
The runtime that a docstring declares.

The loop of `extract_runtime_key` keeps the last value of either field, and a
`language:` line goes before every `python:` line, wherever they stand.
-/

namespace TictactoeBots

open Text Python

/-- The value on the last of the lines that carry the field. -/
def lastValue (field : Str) (lines : List Str) : Option Str :=
  (((lines.map strip).filter (startsWithField field)).getLast?).map (fieldValue field)

/-- The key that a docstring asks for, allowed or not. -/
def declaredKey (docstring : Str) : Str :=
  match lastValue (str "language:") (splitlines docstring),
      lastValue (str "python:") (splitlines docstring) with
  | some key, _ => key
  | none, some version => str "python-" ++ version
  | none, none => defaultRuntimeKey

example : declaredKey (str "PYTHON: 3.9\nname: Foo\nPython: 3.12\npython-3.13") =
    str "python-3.12" := by decide

theorem lastValue_concat (field : Str) (lines : List Str) (line : Str) :
    lastValue field (lines ++ [line]) =
      if startsWithField field (strip line) then some (fieldValue field (strip line))
      else lastValue field lines := by
  unfold lastValue
  rw [List.map_append, List.filter_append, List.map_singleton]
  by_cases h : startsWithField field (strip line) = true
  · rw [List.filter_cons_of_pos h, List.filter_nil, List.getLast?_concat, if_pos h]
    rfl
  · rw [List.filter_cons_of_neg h, List.filter_nil, List.append_nil, if_neg h]

theorem not_python_of_language {line : Str} (h : startsWithField (str "language:") line) :
    startsWithField (str "python:") line = false := by
  rw [Bool.eq_false_iff]
  intro hpython
  have hlanguage : (line.take 9).map lowerAscii = str "language:" := beq_iff_eq.1 h
  have hseven : (line.take 7).map lowerAscii = str "python:" := beq_iff_eq.1 hpython
  have htake : line.take 7 = (line.take 9).take 7 := by rw [List.take_take]; rfl
  rw [htake, List.map_take, hlanguage] at hseven
  exact absurd hseven (by decide)

theorem foldl_readRuntimeLine (lines : List Str) :
    lines.foldl readRuntimeLine (none, none) =
      (lastValue (str "language:") lines, lastValue (str "python:") lines) := by
  induction lines using List.reverseRecOn with
  | nil => rfl
  | append_singleton lines line ih =>
      rw [List.foldl_append, ih, lastValue_concat, lastValue_concat, List.foldl_cons,
        List.foldl_nil, readRuntimeLine]
      by_cases hlanguage : startsWithField (str "language:") (strip line) = true
      · simp [hlanguage, not_python_of_language hlanguage]
      · by_cases hpython : startsWithField (str "python:") (strip line) = true
        · simp [hlanguage, hpython]
        · simp [hlanguage, hpython]

theorem default_mem_runtimeKeys : defaultRuntimeKey ∈ runtimeKeys := by decide

/-- `extract_runtime_key` returns the declared key if it is allowed. -/
theorem extractRuntimeKey_eq {py : Interpreter} {source docstring : Str}
    (h : py.docstring source = .ok (some docstring)) :
    extractRuntimeKey py source =
      .ok (if declaredKey docstring ∈ runtimeKeys then some (declaredKey docstring) else none) := by
  unfold extractRuntimeKey declaredKey
  simp only [h, bind, Except.bind, foldl_readRuntimeLine]
  cases lastValue (str "language:") (splitlines docstring) with
  | some key => rfl
  | none =>
      cases lastValue (str "python:") (splitlines docstring) with
      | some version => rfl
      | none =>
          simp only [if_pos default_mem_runtimeKeys]
          rfl

theorem docstring_of_extractBotName {py : Interpreter} {source name : Str}
    (h : extractBotName py source = .ok (some name)) :
    ∃ docstring, py.docstring source = .ok (some docstring) := by
  obtain ⟨found, hdocstring, hname⟩ := exists_of_bind_eq_ok h
  cases found with
  | none => cases hname
  | some docstring => exact ⟨docstring, hdocstring⟩

theorem pythonVersion_of_mem {key : Str} (h : key ∈ runtimeKeys) :
    key = str "python-" ++ pythonVersionFromRuntimeKey key := by
  simp only [runtimeKeys, List.mem_cons, List.not_mem_nil, or_false] at h
  rcases h with rfl | rfl | rfl | rfl | rfl <;> rfl

end TictactoeBots
