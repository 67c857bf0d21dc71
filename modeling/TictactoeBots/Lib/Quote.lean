import TictactoeBots.Lib.Utf8

/-!
Percent encoding of ASCII text, and that percent decoding takes it back.

Decoding looks at three characters at a time, so what a character decodes to
depends on the next two only if it is a percent sign.
-/

namespace Utf8

open Text

/-- The characters that `quote` never encodes. -/
def isUnreserved (c : CodePoint) : Bool :=
  (0x30 ≤ c.val && c.val ≤ 0x39) || (0x41 ≤ c.val && c.val ≤ 0x5a) ||
    (0x61 ≤ c.val && c.val ≤ 0x7a) || (str "_.-~").contains c

def upperDigit (d : ℕ) : CodePoint :=
  if d < 10 then Fin.ofNat _ (0x30 + d) else Fin.ofNat _ (0x37 + d)

def quoteChar (c : CodePoint) : Str :=
  if isUnreserved c then [c] else [0x25, upperDigit (c.val / 16), upperDigit (c.val % 16)]

/-- `urllib.parse.quote(s, safe="")` on a text of ASCII characters. -/
def quote (s : Str) : Str := s.flatMap quoteChar

example : quote (str "\x7b\"a b\": 1\x7d") = str "%7B%22a%20b%22%3A%201%7D" := by decide

/-! ### Decoding it -/

theorem hexValue_upperDigit {d : ℕ} (h : d < 16) : hexValue (upperDigit d) = some d := by
  interval_cases d <;> rfl

theorem upperDigit_lt {d : ℕ} (h : d < 16) : (upperDigit d).val < 0x80 := by
  interval_cases d <;> decide

theorem quoteChar_lt {c : CodePoint} (h : c.val < 0x80) : ∀ d ∈ quoteChar c, d.val < 0x80 := by
  unfold quoteChar
  split
  · intro d hd
    rwa [List.mem_singleton.1 hd]
  · intro d hd
    simp only [List.mem_cons, List.not_mem_nil, or_false] at hd
    rcases hd with rfl | rfl | rfl
    · decide
    · exact upperDigit_lt (by omega)
    · exact upperDigit_lt (by omega)

theorem unquoteToBytes_cons_of_ne {c : CodePoint} (h : c.val ≠ 0x25) (rest : Str) :
    unquoteToBytes (c :: rest) = UInt8.ofNat c.val :: unquoteToBytes rest := by
  match rest with
  | [] => rfl
  | [d] => rfl
  | d :: e :: rest =>
      rw [unquoteToBytes]
      split
      · rw [if_neg h]
      · rfl

theorem unquoteToBytes_percent {hi lo : ℕ} (hhi : hi < 16) (hlo : lo < 16) (rest : Str) :
    unquoteToBytes (0x25 :: upperDigit hi :: upperDigit lo :: rest) =
      UInt8.ofNat (hi * 16 + lo) :: unquoteToBytes rest := by
  rw [unquoteToBytes, hexValue_upperDigit hhi, hexValue_upperDigit hlo]
  rfl

theorem unquoteToBytes_quoteChar {c : CodePoint} (h : c.val < 0x80) (rest : Str) :
    unquoteToBytes (quoteChar c ++ rest) = UInt8.ofNat c.val :: unquoteToBytes rest := by
  unfold quoteChar
  split
  · rename_i hunreserved
    refine unquoteToBytes_cons_of_ne (fun hpercent => ?_) rest
    obtain rfl : c = 0x25 := Fin.ext hpercent
    exact absurd hunreserved (by decide)
  · simp only [List.cons_append, List.nil_append]
    rw [unquoteToBytes_percent (by omega) (by omega), Nat.div_add_mod']

theorem unquoteToBytes_quote {s : Str} (h : ∀ c ∈ s, c.val < 0x80) :
    unquoteToBytes (quote s) = s.map fun c => UInt8.ofNat c.val := by
  induction s with
  | nil => rfl
  | cons c s ih =>
      rw [List.forall_mem_cons] at h
      rw [quote, List.flatMap_cons, unquoteToBytes_quoteChar h.1, ← quote, ih h.2, List.map_cons]

theorem decodeReplace_ascii {s : Str} (h : ∀ c ∈ s, c.val < 0x80) :
    decodeReplace (s.map fun c => UInt8.ofNat c.val) = s := by
  induction s with
  | nil => rfl
  | cons c s ih =>
      rw [List.forall_mem_cons] at h
      have hbyte : (UInt8.ofNat c.val).toNat = c.val := by
        rw [UInt8.toNat_ofNat']
        omega
      have hlead : lead c.val = ([c], none) := by
        rw [lead, if_pos h.1, Fin.ofNat_val_eq_self]
      rw [List.map_cons, decodeReplace, decodeFrom, hbyte, hlead]
      exact congrArg (c :: ·) (ih h.2)

theorem unquoteFrom_ascii {s : Str} (h : ∀ c ∈ s, c.val < 0x80) :
    ∀ run : Str, unquoteFrom run s = decodeReplace (unquoteToBytes (run ++ s)) := by
  induction s with
  | nil =>
      intro run
      rw [unquoteFrom, List.append_nil]
  | cons c s ih =>
      intro run
      rw [List.forall_mem_cons] at h
      rw [unquoteFrom, if_pos h.1, ih h.2, List.append_assoc, List.singleton_append]

theorem unquote_quote {s : Str} (h : ∀ c ∈ s, c.val < 0x80) : unquote (quote s) = s := by
  have hquoted : ∀ c ∈ quote s, c.val < 0x80 := by
    intro c hc
    obtain ⟨d, hd, hc⟩ := List.mem_flatMap.1 hc
    exact quoteChar_lt (h d hd) c hc
  rw [unquote, unquoteFrom_ascii hquoted, List.nil_append, unquoteToBytes_quote h,
    decodeReplace_ascii h]

end Utf8
