import TictactoeBots.Lib.Quote
import TictactoeBots.Lib.Utf8Encode

/-!
The path that a browser asks for when it follows a link, and what a server makes
of it.

References here begin with a single slash. The browser drops the query and the
fragment, resolves the dot segments, and encodes what may not stand in a path,
which leaves percent signs alone. The server takes back all percent encoding, so
a text that has escapes of its own comes out shorter than it went in.
-/

namespace Url

open Text Utf8

/-! ### The browser -/

/-- Everything in front of the query and the fragment. -/
def withoutQuery (reference : Str) : Str := reference.takeWhile fun c => c ≠ 0x3f && c ≠ 0x23

/-- The segments of a path without its dot segments, `stack` being those before,
the last one first. -/
def resolveDots (stack : List Str) : List Str → List Str
  | [] => stack.reverse
  | [segment] =>
      if segment = str ".." then ([] :: stack.tail).reverse
      else if segment = str "." then ([] :: stack).reverse
      else (segment :: stack).reverse
  | segment :: rest =>
      if segment = str ".." then resolveDots stack.tail rest
      else if segment = str "." then resolveDots stack rest
      else resolveDots (segment :: stack) rest

/-- Controls, spaces, what is not ASCII, and some punctuation. -/
def isEncoded (c : CodePoint) : Bool :=
  c.val ≤ 0x20 || 0x7f ≤ c.val || (str "\"#<>?^\x60\x7b\x7d").contains c

def percentEncode (b : UInt8) : Str := [0x25, upperDigit (b.toNat / 16), upperDigit (b.toNat % 16)]

def encodePathChar (c : CodePoint) : Str :=
  if isEncoded c then (encodeChar c).flatMap percentEncode else [c]

def encodePath (path : Str) : Str := path.flatMap encodePathChar

/-- The path of the request for a link to `reference`. -/
def requestPath (reference : Str) : Str :=
  let segments := (withoutQuery reference).splitOn 0x2f
  encodePath (str "/" ++ (str "/").intercalate (resolveDots [] segments.tail))

example : requestPath (str "/bots/../a b/./é?x#y") = str "/a%20b/%C3%A9" := by decide

/-! ### Escapes -/

def twoDigits : Str → Bool
  | d :: e :: _ => (hexValue d).isSome && (hexValue e).isSome
  | _ => false

/-- Somewhere in the text a percent sign is followed by two hexadecimal digits. -/
def hasEscape : Str → Bool
  | [] => false
  | c :: rest => (c == 0x25 && twoDigits rest) || hasEscape rest

@[elab_as_elim]
theorem escape_induction {motive : Str → Prop} (s : Str) (nil : motive [])
    (escape : ∀ d e hi lo rest, hexValue d = some hi → hexValue e = some lo → motive rest →
      motive (0x25 :: d :: e :: rest))
    (plain : ∀ c rest, (c == 0x25 && twoDigits rest) = false → motive rest → motive (c :: rest)) :
    motive s := by
  induction hn : s.length using Nat.strong_induction_on generalizing s with
  | _ n ih =>
      subst hn
      cases s with
      | nil => exact nil
      | cons c rest =>
          cases hescape : c == 0x25 && twoDigits rest with
          | false => exact plain c rest hescape (ih _ (by simp) rest rfl)
          | true =>
              match rest with
              | [] => simp [twoDigits] at hescape
              | [d] => simp [twoDigits] at hescape
              | d :: e :: rest =>
                  simp only [twoDigits, Bool.and_eq_true, beq_iff_eq, Option.isSome_iff_exists]
                    at hescape
                  obtain ⟨rfl, ⟨hi, hhi⟩, lo, hlo⟩ := hescape
                  exact escape d e hi lo rest hhi hlo (ih _ (by simp; omega) rest rfl)

/-- The bytes that a text stands for, if its escapes count as such. -/
def decodedBytes : Str → List UInt8
  | c :: d :: e :: rest =>
      match hexValue d, hexValue e with
      | some hi, some lo =>
          if c = 0x25 then UInt8.ofNat (hi * 16 + lo) :: decodedBytes rest
          else encodeChar c ++ decodedBytes (d :: e :: rest)
      | _, _ => encodeChar c ++ decodedBytes (d :: e :: rest)
  | c :: rest => encodeChar c ++ decodedBytes rest
  | [] => []

theorem decodedBytes_escape {d e : CodePoint} {hi lo : ℕ} (hhi : hexValue d = some hi)
    (hlo : hexValue e = some lo) (rest : Str) :
    decodedBytes (0x25 :: d :: e :: rest) = UInt8.ofNat (hi * 16 + lo) :: decodedBytes rest := by
  rw [decodedBytes, hhi, hlo]
  rfl

theorem decodedBytes_plain {c : CodePoint} {rest : Str}
    (h : (c == 0x25 && twoDigits rest) = false) :
    decodedBytes (c :: rest) = encodeChar c ++ decodedBytes rest := by
  match rest with
  | [] => rfl
  | [d] => rfl
  | d :: e :: rest =>
      rw [decodedBytes]
      split
      · rename_i hi lo hhi hlo
        rw [if_neg]
        rintro rfl
        simp [twoDigits, hhi, hlo] at h
      · rfl

/-! ### Encoding and decoding -/

theorem unquoteToBytes_plain {c : CodePoint} {rest : Str}
    (h : (c == 0x25 && twoDigits rest) = false) :
    unquoteToBytes (c :: rest) = UInt8.ofNat c.val :: unquoteToBytes rest := by
  by_cases hc : c.val = 0x25
  · obtain rfl : c = 0x25 := Fin.ext hc
    match rest with
    | [] => rfl
    | [d] => rfl
    | d :: e :: rest =>
        rw [unquoteToBytes]
        split
        · rename_i hi lo hhi hlo
          simp [twoDigits, hhi, hlo] at h
        · rfl
  · exact unquoteToBytes_cons_of_ne hc rest

theorem unquoteToBytes_percentEncode (bytes : List UInt8) (rest : Str) :
    unquoteToBytes (bytes.flatMap percentEncode ++ rest) = bytes ++ unquoteToBytes rest := by
  induction bytes with
  | nil => rfl
  | cons b bytes ih =>
      have hlt := b.toNat_lt
      have hbyte : UInt8.ofNat (b.toNat / 16 * 16 + b.toNat % 16) = b := by
        rw [Nat.div_add_mod', UInt8.ofNat_toNat]
      rw [List.flatMap_cons, List.append_assoc, percentEncode]
      simp only [List.cons_append, List.nil_append]
      rw [unquoteToBytes_percent (by omega) (by omega), hbyte, ih]

theorem not_isEncoded_of_hexValue {d : CodePoint} (h : (hexValue d).isSome) :
    isEncoded d = false := by
  obtain ⟨n, hn⟩ := d
  unfold hexValue at h
  simp only at h
  split_ifs at h with hdigit hupper hlower
  · obtain ⟨hlow, hhigh⟩ := hdigit
    interval_cases n <;> rfl
  · obtain ⟨hlow, hhigh⟩ := hupper
    interval_cases n <;> rfl
  · obtain ⟨hlow, hhigh⟩ := hlower
    interval_cases n <;> rfl
  · cases h

theorem hexValue_of_encoded {c : CodePoint} (h : isEncoded c = true) :
    (hexValue c).isSome = false := by
  rw [Bool.eq_false_iff]
  intro hdigit
  rw [not_isEncoded_of_hexValue hdigit] at h
  cases h

theorem encodePathChar_of_not {c : CodePoint} (h : isEncoded c = false) :
    encodePathChar c = [c] := by
  rw [encodePathChar, h]
  rfl

theorem encodePathChar_of_encoded {c : CodePoint} (h : isEncoded c = true) :
    ∃ rest, encodePathChar c = 0x25 :: rest := by
  have hbytes : encodeChar c ≠ [] := by
    unfold encodeChar
    simp only
    split_ifs <;> simp
  obtain ⟨b, bytes, hb⟩ := List.exists_cons_of_ne_nil hbytes
  rw [encodePathChar, h, if_pos rfl, hb, List.flatMap_cons]
  exact ⟨_, rfl⟩

theorem twoDigits_cons (d : CodePoint) (rest : Str) :
    twoDigits (d :: rest) =
      ((hexValue d).isSome && (rest.head?.any fun e => (hexValue e).isSome)) := by
  cases rest with
  | nil => simp [twoDigits]
  | cons e rest => simp [twoDigits]

theorem head_encodePath (s : Str) :
    ((encodePath s).head?.any fun e => (hexValue e).isSome) =
      (s.head?.any fun e => (hexValue e).isSome) := by
  cases s with
  | nil => rfl
  | cons c rest =>
      rw [encodePath, List.flatMap_cons]
      cases hencoded : isEncoded c with
      | true =>
          obtain ⟨tail, htail⟩ := encodePathChar_of_encoded hencoded
          have hpercent : (hexValue 0x25).isSome = false := rfl
          simp [htail, hpercent, hexValue_of_encoded hencoded]
      | false => simp [encodePathChar_of_not hencoded]

theorem twoDigits_encodePath (s : Str) : twoDigits (encodePath s) = twoDigits s := by
  cases s with
  | nil => rfl
  | cons d rest =>
      rw [encodePath, List.flatMap_cons]
      cases hencoded : isEncoded d with
      | true =>
          obtain ⟨tail, htail⟩ := encodePathChar_of_encoded hencoded
          have hpercent : (hexValue 0x25).isSome = false := rfl
          rw [htail, List.cons_append, twoDigits_cons, twoDigits_cons, hpercent,
            hexValue_of_encoded hencoded]
          rfl
      | false =>
          rw [encodePathChar_of_not hencoded, List.singleton_append, twoDigits_cons,
            twoDigits_cons, ← encodePath, head_encodePath]

/-- What the server reads from an encoded text. -/
theorem unquoteToBytes_encodePath (s : Str) : unquoteToBytes (encodePath s) = decodedBytes s := by
  induction s using escape_induction with
  | nil => rfl
  | escape d e hi lo rest hhi hlo ih =>
      have hd := not_isEncoded_of_hexValue (Option.isSome_of_eq_some hhi)
      have he := not_isEncoded_of_hexValue (Option.isSome_of_eq_some hlo)
      have hpath : encodePath (0x25 :: d :: e :: rest) = 0x25 :: d :: e :: encodePath rest := by
        have hpercent : encodePathChar 0x25 = [0x25] := rfl
        simp [encodePath, encodePathChar_of_not hd, encodePathChar_of_not he, hpercent]
      rw [hpath, decodedBytes_escape hhi hlo, unquoteToBytes, hhi, hlo, ← ih]
      rfl
  | plain c rest h ih =>
      rw [decodedBytes_plain h, encodePath, List.flatMap_cons, ← encodePath, ← ih]
      cases hencoded : isEncoded c with
      | true => rw [encodePathChar, hencoded, if_pos rfl, unquoteToBytes_percentEncode]
      | false =>
          have hascii : c.val < 0x80 := by
            simp only [isEncoded, Bool.or_eq_false_iff, decide_eq_false_iff_not] at hencoded
            omega
          have hone : encodeChar c = [UInt8.ofNat c.val] := if_pos hascii
          rw [encodePathChar_of_not hencoded, List.singleton_append, hone, List.singleton_append,
            unquoteToBytes_plain]
          rwa [twoDigits_encodePath]

theorem encodePath_ascii (s : Str) : ∀ c ∈ encodePath s, c.val < 0x80 := by
  intro c hc
  obtain ⟨d, -, hc⟩ := List.mem_flatMap.1 hc
  unfold encodePathChar at hc
  split at hc
  · obtain ⟨b, -, hc⟩ := List.mem_flatMap.1 hc
    have hlt := b.toNat_lt
    simp only [percentEncode, List.mem_cons, List.not_mem_nil, or_false] at hc
    rcases hc with rfl | rfl | rfl
    · decide
    · exact upperDigit_lt (by omega)
    · exact upperDigit_lt (by omega)
  · rename_i hplain
    rw [List.mem_singleton.1 hc]
    simp only [isEncoded, Bool.or_eq_true, decide_eq_true_eq] at hplain
    omega

theorem unquote_encodePath (s : Str) :
    unquote (encodePath s) = decodeFrom none (decodedBytes s) := by
  rw [unquote, unquoteFrom_ascii (encodePath_ascii s), List.nil_append, unquoteToBytes_encodePath]
  rfl

/-! ### Escapes do not come back -/

theorem length_decodeFrom (s : Str) (hscalar : Scalar s) {state : Option Pending}
    (hstate : Between state) :
    (decodeFrom state (decodedBytes s)).length + (if hasEscape s then 1 else 0) ≤
      s.length + pendingCount state := by
  induction s using escape_induction generalizing state with
  | nil => cases state <;> simp [decodedBytes, decodeFrom, hasEscape, pendingCount]
  | escape d e hi lo rest hhi hlo ih =>
      obtain ⟨out, next, hnext, hlength, hout⟩ :=
        decodeFrom_cons hstate (UInt8.ofNat (hi * 16 + lo))
      have hrest : Scalar rest := fun c hc =>
        hscalar c (List.mem_cons_of_mem _ (List.mem_cons_of_mem _ (List.mem_cons_of_mem _ hc)))
      have ih := ih hrest hnext
      rw [decodedBytes_escape hhi hlo, hout, List.length_append]
      simp only [List.length_cons]
      split_ifs <;> omega
  | plain c rest h ih =>
      obtain ⟨hc, hrest⟩ := List.forall_mem_cons.1 hscalar
      have ih := ih hrest between_none
      rw [decodedBytes_plain h, hasEscape, h, Bool.false_or]
      cases state with
      | none =>
          rw [decodeFrom_encodeChar hc]
          simp only [List.length_cons, pendingCount] at ih ⊢
          omega
      | some p =>
          rw [decodeFrom_encodeChar_of_pending hc (hstate p rfl)]
          simp only [List.length_cons, pendingCount] at ih ⊢
          omega

theorem decodeFrom_of_not_hasEscape {s : Str} (hscalar : Scalar s) (h : hasEscape s = false) :
    decodeFrom none (decodedBytes s) = s := by
  induction s with
  | nil => rfl
  | cons c rest ih =>
      obtain ⟨hc, hrest⟩ := List.forall_mem_cons.1 hscalar
      rw [hasEscape, Bool.or_eq_false_iff] at h
      rw [decodedBytes_plain h.1, decodeFrom_encodeChar hc, ih hrest h.2]

theorem length_unquote_encodePath {s : Str} (hscalar : Scalar s) :
    (unquote (encodePath s)).length + (if hasEscape s then 1 else 0) ≤ s.length := by
  rw [unquote_encodePath]
  exact length_decodeFrom s hscalar between_none

theorem unquote_encodePath_of_not_hasEscape {s : Str} (hscalar : Scalar s)
    (h : hasEscape s = false) : unquote (encodePath s) = s := by
  rw [unquote_encodePath, decodeFrom_of_not_hasEscape hscalar h]

end Url
