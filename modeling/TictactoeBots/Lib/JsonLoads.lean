import TictactoeBots.Lib.JsonRoundTrip
import TictactoeBots.Lib.JsonText
import TictactoeBots.Lib.Python

/-!
`json.loads` on what `json.dumps` writes.

The decoder of Python puts a surrogate pair of escapes together to one code
point, where that of JavaScript leaves two units. So values whose texts have no
surrogates of their own come back as they were.
-/

namespace Text

theorem scalar_of_all {s : Str} (h : s.all (fun c => c.val < 0x80) = true) : Scalar s := by
  intro c hc
  have hlt := of_decide_eq_true (List.all_eq_true.1 h c hc)
  omega

theorem scalar_append {s t : Str} (hs : Scalar s) (ht : Scalar t) : Scalar (s ++ t) :=
  List.forall_mem_append.2 ⟨hs, ht⟩

end Text

namespace Json

open Text

/-- The text of a list of UTF-16 units. A surrogate without its other half
stays as it is. -/
def joinUnits : Str → Str
  | high :: low :: units =>
      if (0xd800 ≤ high.val ∧ high.val ≤ 0xdbff) ∧ 0xdc00 ≤ low.val ∧ low.val ≤ 0xdfff then
        Fin.ofNat _ (0x10000 + (high.val - 0xd800) * 0x400 + (low.val - 0xdc00)) :: joinUnits units
      else high :: joinUnits (low :: units)
  | units => units

variable {ν : Type}

mutual

def joinValue : Value ν → Value ν
  | .str s => .str (joinUnits s)
  | .arr items => .arr (joinItems items)
  | .obj fields => .obj (joinFields fields)
  | v => v

def joinItems : List (Value ν) → List (Value ν)
  | [] => []
  | v :: rest => joinValue v :: joinItems rest

def joinFields : List (Str × Value ν) → List (Str × Value ν)
  | [] => []
  | (key, v) :: rest => (joinUnits key, joinValue v) :: joinFields rest

end

theorem joinUnits_cons {c : CodePoint} (hc : ¬(0xd800 ≤ c.val ∧ c.val ≤ 0xdbff)) (units : Str) :
    joinUnits (c :: units) = c :: joinUnits units := by
  cases units with
  | nil => rfl
  | cons d units => rw [joinUnits, if_neg fun h => hc h.1]

theorem joinUnits_utf16 {s : Str} (hs : Scalar s) : joinUnits (utf16 s) = s := by
  induction s with
  | nil => rfl
  | cons c s ih =>
      obtain ⟨hc, hs⟩ := List.forall_mem_cons.1 hs
      have hsplit : utf16 (c :: s) = (utf16Units c).map (Fin.ofNat _) ++ utf16 s := rfl
      rw [hsplit, utf16Units]
      split
      · have hself : Fin.ofNat 0x110000 c.val = c := Fin.ofNat_val_eq_self c
        rw [List.map_singleton, hself, List.singleton_append,
          joinUnits_cons (by omega), ih hs]
      · rename_i hlarge
        have hlt := c.isLt
        have hhigh : (Fin.ofNat 0x110000 (0xd800 + (c.val - 0x10000) / 0x400)).val =
            0xd800 + (c.val - 0x10000) / 0x400 := Nat.mod_eq_of_lt (by omega)
        have hlow : (Fin.ofNat 0x110000 (0xdc00 + (c.val - 0x10000) % 0x400)).val =
            0xdc00 + (c.val - 0x10000) % 0x400 := Nat.mod_eq_of_lt (by omega)
        have hjoin : 0x10000 + (0xd800 + (c.val - 0x10000) / 0x400 - 0xd800) * 0x400 +
            (0xdc00 + (c.val - 0x10000) % 0x400 - 0xdc00) = c.val := by omega
        simp only [List.map_cons, List.map_nil, List.cons_append, List.nil_append, joinUnits]
        rw [hhigh, hlow, if_pos (by omega), hjoin, ih hs]
        exact congrArg (· :: s) (Fin.ofNat_val_eq_self c)

/-! ### Objects of texts -/

def stringFields (fields : List (Str × Str)) : List (Str × Value ν) :=
  fields.map fun (key, text) => (key, .str text)

def textObject (fields : List (Str × Str)) : Value ν := .obj (stringFields fields)

theorem join_toJs_textObject (number : ℚ → ν) {fields : List (Str × Str)}
    (h : ∀ field ∈ fields, Scalar field.1 ∧ Scalar field.2) :
    joinValue (toJs number (textObject fields)) = textObject fields := by
  rw [textObject, textObject, toJs, joinValue]
  apply congrArg
  induction fields with
  | nil => rfl
  | cons field fields ih =>
      obtain ⟨⟨hkey, htext⟩, h⟩ := List.forall_mem_cons.1 h
      simp only [stringFields] at ih ⊢
      rw [List.map_cons, List.map_cons, toJsFields, joinFields, ih h, joinUnits_utf16 hkey,
        toJs, joinValue, joinUnits_utf16 htext]

end Json

namespace Python

open Text

/-- `text.encode()`, for a text of ASCII characters. -/
def encodeAscii (text : Str) : List UInt8 := text.map fun c => UInt8.ofNat c.val

def decodeAscii (bytes : List UInt8) : Str := bytes.map fun b => Fin.ofNat _ b.toNat

theorem decodeAscii_encodeAscii {text : Str} (h : ∀ c ∈ text, c.val < 0x80) :
    decodeAscii (encodeAscii text) = text := by
  rw [decodeAscii, encodeAscii, List.map_map]
  calc text.map ((fun b : UInt8 => Fin.ofNat 0x110000 b.toNat) ∘ fun c => UInt8.ofNat c.val)
      = text.map id := List.map_congr_left fun c hc => by
        have hlt := h c hc
        have hbyte : (UInt8.ofNat c.val).toNat = c.val := by
          rw [UInt8.toNat_ofNat']
          omega
        rw [Function.comp_apply, hbyte]
        exact Fin.ofNat_val_eq_self c
    _ = text := List.map_id text

/-- The decoder gives back the objects of texts that `json.dumps` has written. -/
def ReadsTexts (json : JsonLoads) : Prop :=
  ∀ fields : List (Str × Str), (∀ field ∈ fields, Scalar field.1 ∧ Scalar field.2) →
    json.loads (encodeAscii (Json.dumps (Json.textObject fields))) = .ok (Json.textObject fields)

/-- A number without a fraction is an `int`. -/
def numberOf (x : ℚ) : Number := if x.den = 1 then .int x.num else .float x

/-- The decoder as far as `json.dumps` makes use of it. -/
def plainLoads : JsonLoads where
  loads bytes :=
    match Json.parse numberOf (decodeAscii bytes) with
    | some v => .ok (Json.joinValue v)
    | none => .error ⟨.jsonDecodeError, str "Expecting value"⟩
  loadsStr text :=
    match Json.parse numberOf text with
    | some v => .ok (Json.joinValue v)
    | none => .error ⟨.jsonDecodeError, str "Expecting value"⟩
  loads_error h := by
    split at h
    · cases h
    · cases h
      simp
  loadsStr_error h := by
    split at h
    · cases h
    · cases h
      simp

/-- `str` of a value, as far as texts make use of it. -/
def plainFormat : PyValue → Str
  | .str s => s
  | _ => []

theorem plainFormat_str (s : Str) : plainFormat (.str s) = s := rfl

theorem readsTexts_plainLoads : ReadsTexts plainLoads := by
  intro fields hfields
  have hascii : ∀ c ∈ Json.dumps (Json.textObject fields), c.val < 0x80 := by
    intro c hc
    have hrange := Json.printable_dumps _ c hc
    omega
  simp only [plainLoads, decodeAscii_encodeAscii hascii, Json.parse_dumps,
    Json.join_toJs_textObject _ hfields]

end Python
