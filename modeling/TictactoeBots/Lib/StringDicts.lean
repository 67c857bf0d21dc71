import TictactoeBots.Lib.JsonLoads

/-!
Dictionaries of strings: writing them as JSON, reading them back, and setting
an item.
-/

namespace Json

open Text

variable {ν : Type}

mutual

/-- `json.dumps(v)` where `number` is what it writes for a number. -/
def dumpsWith (number : ν → Str) : Value ν → Str
  | .null => Text.str "null"
  | .bool b => Text.str (if b then "true" else "false")
  | .num n => number n
  | .str s => dumpsStr s
  | .arr items => Text.str "[" ++ dumpsItemsWith number items ++ Text.str "]"
  | .obj fields => [0x7b] ++ dumpsFieldsWith number fields ++ [0x7d]

def dumpsItemsWith (number : ν → Str) : List (Value ν) → Str
  | [] => []
  | [v] => dumpsWith number v
  | v :: w :: rest =>
      dumpsWith number v ++ Text.str ", " ++ dumpsItemsWith number (w :: rest)

def dumpsFieldsWith (number : ν → Str) : List (Str × Value ν) → Str
  | [] => []
  | [(key, v)] => dumpsStr key ++ Text.str ": " ++ dumpsWith number v
  | (key, v) :: field :: rest =>
      dumpsStr key ++ Text.str ": " ++ dumpsWith number v ++ Text.str ", " ++
        dumpsFieldsWith number (field :: rest)

end

theorem dumpsFieldsWith_stringFields (number : ν → Str) : ∀ dict : List (Str × Str),
    dumpsFieldsWith number (stringFields dict) = dumpsFields (stringFields dict)
  | [] => rfl
  | [(key, s)] => rfl
  | (key, s) :: field :: rest => by
      have ih := dumpsFieldsWith_stringFields number (field :: rest)
      simp only [stringFields, List.map_cons, dumpsFieldsWith, dumpsFields, dumpsWith, dumps]
        at ih ⊢
      rw [ih]

theorem dumpsWith_stringFields (number : ν → Str) (dict : List (Str × Str)) :
    dumpsWith number (.obj (stringFields dict)) = dumps (.obj (stringFields dict)) := by
  rw [dumpsWith, dumps, dumpsFieldsWith_stringFields]

end Json

namespace Python

open Text Json

/-- A `dict` whose keys and values are texts without surrogates. -/
structure StringDict where
  entries : List (Str × Str)
  nodup : (entries.map Prod.fst).Nodup
  scalar : ∀ entry ∈ entries, Scalar entry.1 ∧ Scalar entry.2

namespace StringDict

def empty : StringDict := ⟨[], List.nodup_nil, by simp⟩

def fields {ν : Type} (d : StringDict) : List (Str × Value ν) := stringFields d.entries

def Maps (d : StringDict) (key s : Str) : Prop := (key, s) ∈ d.entries

theorem lookup_of_maps {ν : Type} {d : StringDict} {key s : Str} (h : d.Maps key s) :
    lookup key (d.fields : List (Str × Value ν)) = some (.str s) := by
  obtain ⟨before, after, hsplit⟩ := List.append_of_mem h
  have hnodup := d.nodup
  rw [hsplit, List.map_append, List.map_cons, List.nodup_append, List.nodup_cons] at hnodup
  refine List.lookup_eq_some_iff.2
    ⟨(stringFields after).reverse, (stringFields before).reverse, ?_, fun field hfield => ?_⟩
  · simp [fields, stringFields, hsplit]
  · obtain ⟨entry, hentry, rfl⟩ := List.mem_map.1 (List.mem_reverse.1 hfield)
    have hne : key ≠ entry.1 := by
      intro heq
      have hmem : entry.1 ∈ after.map Prod.fst := List.mem_map_of_mem hentry
      rw [← heq] at hmem
      exact hnodup.2.1.1 hmem
    simpa using hne

/-- The list that `d[key] = s` leaves. -/
def setEntry (key s : Str) : List (Str × Str) → List (Str × Str)
  | [] => [(key, s)]
  | (k, old) :: rest => if k = key then (key, s) :: rest else (k, old) :: setEntry key s rest

theorem mem_setEntry_self (key s : Str) (entries : List (Str × Str)) :
    (key, s) ∈ setEntry key s entries := by
  induction entries with
  | nil => exact List.mem_singleton_self _
  | cons entry rest ih =>
      rw [setEntry]
      split
      · exact List.mem_cons_self
      · exact List.mem_cons_of_mem _ ih

theorem mem_setEntry_of_ne {key s k t : Str} (hne : k ≠ key) {entries : List (Str × Str)}
    (h : (k, t) ∈ entries) : (k, t) ∈ setEntry key s entries := by
  induction entries with
  | nil => exact absurd h List.not_mem_nil
  | cons entry rest ih =>
      rw [setEntry]
      split
      · rename_i hkey
        rcases List.mem_cons.1 h with rfl | h
        · exact absurd hkey hne
        · exact List.mem_cons_of_mem _ h
      · rcases List.mem_cons.1 h with rfl | h
        · exact List.mem_cons_self
        · exact List.mem_cons_of_mem _ (ih h)

theorem mem_of_mem_setEntry {key s : Str} {entry : Str × Str} {entries : List (Str × Str)}
    (h : entry ∈ setEntry key s entries) : entry = (key, s) ∨ entry ∈ entries := by
  induction entries with
  | nil => exact .inl (List.mem_singleton.1 h)
  | cons first rest ih =>
      rw [setEntry] at h
      split at h
      · rcases List.mem_cons.1 h with rfl | h
        · exact .inl rfl
        · exact .inr (List.mem_cons_of_mem _ h)
      · rcases List.mem_cons.1 h with rfl | h
        · exact .inr List.mem_cons_self
        · exact (ih h).imp_right (List.mem_cons_of_mem _)

theorem nodup_setEntry {key s : Str} {entries : List (Str × Str)}
    (h : (entries.map Prod.fst).Nodup) : ((setEntry key s entries).map Prod.fst).Nodup := by
  induction entries with
  | nil => simp [setEntry]
  | cons entry rest ih =>
      rw [List.map_cons, List.nodup_cons] at h
      rw [setEntry]
      split
      · rename_i hkey
        rw [List.map_cons, List.nodup_cons, ← hkey]
        exact h
      · rename_i hkey
        rw [List.map_cons, List.nodup_cons]
        refine ⟨fun hmem => ?_, ih h.2⟩
        obtain ⟨other, hother, heq⟩ := List.mem_map.1 hmem
        rcases mem_of_mem_setEntry hother with rfl | hother
        · exact hkey heq.symm
        · exact h.1 (heq ▸ List.mem_map_of_mem hother)

def set (d : StringDict) (key s : Str) (hkey : Scalar key) (hs : Scalar s) : StringDict where
  entries := setEntry key s d.entries
  nodup := nodup_setEntry d.nodup
  scalar entry hentry := by
    rcases mem_of_mem_setEntry hentry with rfl | hentry
    · exact ⟨hkey, hs⟩
    · exact d.scalar entry hentry

theorem setItem_fields {d : StringDict} {key s : Str} {hkey : Scalar key} {hs : Scalar s} :
    setItem d.fields key (.str s) = (d.set key s hkey hs).fields := by
  have hentries : ∀ entries : List (Str × Str),
      setItem (stringFields entries) key (.str s) = stringFields (setEntry key s entries) := by
    intro entries
    induction entries with
    | nil => rfl
    | cons entry rest ih =>
        simp only [stringFields, List.map_cons, setItem, setEntry] at ih ⊢
        split
        · rfl
        · rw [ih, List.map_cons]
  exact hentries d.entries

end StringDict

/-- `json.loads` reads back what `json.dumps` writes for a `dict` of strings. -/
def LoadsBack (json : JsonLoads) : Prop :=
  ∀ d : StringDict, json.loadsStr (dumps (.obj d.fields)) = .ok (.obj d.fields)

theorem loadsBack_plainLoads : LoadsBack plainLoads := by
  intro d
  have hvalue : (.obj d.fields : Value ℤ) = textObject d.entries := rfl
  simp only [plainLoads, hvalue, parse_dumps, join_toJs_textObject _ d.scalar]
  rfl

end Python
