import TictactoeBots.Lib.Text

/-!
Decoding bytes as Python does: UTF-8 with `errors="replace"`, and percent
decoding.

The decoder reads one byte at a time. A sequence that breaks off is replaced by
one U+FFFD, and the byte that broke it is read again as the start of the next.
-/

namespace Utf8

open Text

def replacement : CodePoint := 0xfffd

/-- What the decoder waits for inside a sequence: the bits so far, how many
bytes are still to come, and the range of the next one. -/
structure Pending where
  bits : ℕ
  left : ℕ
  low : ℕ
  high : ℕ

/-- Reading a byte at the start of a sequence: the output, and what is pending. -/
def lead (b : ℕ) : Str × Option Pending :=
  if b < 0x80 then ([Fin.ofNat _ b], none)
  else if 0xc2 ≤ b ∧ b ≤ 0xdf then ([], some ⟨b - 0xc0, 1, 0x80, 0xbf⟩)
  else if b = 0xe0 then ([], some ⟨0, 2, 0xa0, 0xbf⟩)
  else if b = 0xed then ([], some ⟨0xd, 2, 0x80, 0x9f⟩)
  else if 0xe1 ≤ b ∧ b ≤ 0xef then ([], some ⟨b - 0xe0, 2, 0x80, 0xbf⟩)
  else if b = 0xf0 then ([], some ⟨0, 3, 0x90, 0xbf⟩)
  else if 0xf1 ≤ b ∧ b ≤ 0xf3 then ([], some ⟨b - 0xf0, 3, 0x80, 0xbf⟩)
  else if b = 0xf4 then ([], some ⟨4, 3, 0x80, 0x8f⟩)
  else ([replacement], none)

def decodeFrom : Option Pending → List UInt8 → Str
  | none, [] => []
  | some _, [] => [replacement]
  | none, b :: bs => (lead b.toNat).1 ++ decodeFrom (lead b.toNat).2 bs
  | some p, b :: bs =>
      if p.low ≤ b.toNat ∧ b.toNat ≤ p.high then
        let bits := p.bits * 64 + (b.toNat - 0x80)
        if p.left = 1 then Fin.ofNat _ bits :: decodeFrom none bs
        else decodeFrom (some ⟨bits, p.left - 1, 0x80, 0xbf⟩) bs
      else replacement :: (lead b.toNat).1 ++ decodeFrom (lead b.toNat).2 bs

/-- `bytes.decode("utf-8", errors="replace")`. -/
def decodeReplace (bytes : List UInt8) : Str := decodeFrom none bytes

example : decodeReplace [0x61, 0xe2, 0x82, 0xac, 0xe2, 0x82, 0x62, 0xff] =
    [0x61, 0x20ac, 0xfffd, 0x62, 0xfffd] := by decide

/-! ### Percent decoding -/

def hexValue (c : CodePoint) : Option ℕ :=
  if 0x30 ≤ c.val ∧ c.val ≤ 0x39 then some (c.val - 0x30)
  else if 0x41 ≤ c.val ∧ c.val ≤ 0x46 then some (c.val - 0x37)
  else if 0x61 ≤ c.val ∧ c.val ≤ 0x66 then some (c.val - 0x57)
  else none

/-- `urllib.parse.unquote_to_bytes` on a text of ASCII characters; a percent
sign without two digits behind it stays. -/
def unquoteToBytes : Str → List UInt8
  | c :: d :: e :: rest =>
      match hexValue d, hexValue e with
      | some hi, some lo =>
          if c.val = 0x25 then UInt8.ofNat (hi * 16 + lo) :: unquoteToBytes rest
          else UInt8.ofNat c.val :: unquoteToBytes (d :: e :: rest)
      | _, _ => UInt8.ofNat c.val :: unquoteToBytes (d :: e :: rest)
  | c :: rest => UInt8.ofNat c.val :: unquoteToBytes rest
  | [] => []

/-- The loop of `unquote`: every maximal run of ASCII characters is percent
decoded and read as UTF-8, the other characters are kept. -/
def unquoteFrom (run : Str) : Str → Str
  | [] => decodeReplace (unquoteToBytes run)
  | c :: cs =>
      if c.val < 0x80 then unquoteFrom (run ++ [c]) cs
      else decodeReplace (unquoteToBytes run) ++ [c] ++ unquoteFrom [] cs

/-- `urllib.parse.unquote(s)`. -/
def unquote (s : Str) : Str := unquoteFrom [] s

example : unquote (str "%7B%22a%22%3a%20%C3%A9%7d%") = str "\x7b\"a\": é\x7d%" := by decide

end Utf8
