import TictactoeBots.Lib.Utf8

/-!
UTF-8 encoding, and that the decoder takes it back.

The first byte of a character never continues a sequence, so a sequence that is
broken off before a character costs one replacement and leaves the character as
it is.
-/

namespace Utf8

open Text

def encodeChar (c : CodePoint) : List UInt8 :=
  let n := c.val
  if n < 0x80 then [UInt8.ofNat n]
  else if n < 0x800 then [UInt8.ofNat (0xc0 + n / 64), UInt8.ofNat (0x80 + n % 64)]
  else if n < 0x10000 then
    [UInt8.ofNat (0xe0 + n / 4096), UInt8.ofNat (0x80 + n / 64 % 64), UInt8.ofNat (0x80 + n % 64)]
  else
    [UInt8.ofNat (0xf0 + n / 262144), UInt8.ofNat (0x80 + n / 4096 % 64),
      UInt8.ofNat (0x80 + n / 64 % 64), UInt8.ofNat (0x80 + n % 64)]

example : encodeChar 0x20ac = [0xe2, 0x82, 0xac] := by decide

/-! ### Single bytes -/

theorem decodeFrom_none_cons {b : ℕ} (hb : b < 256) (bs : List UInt8) :
    decodeFrom none (UInt8.ofNat b :: bs) = (lead b).1 ++ decodeFrom (lead b).2 bs := by
  have hnat : (UInt8.ofNat b).toNat = b := by
    rw [UInt8.toNat_ofNat']
    omega
  rw [decodeFrom, hnat]

theorem decodeFrom_last {bits low high b : ℕ} (hb : b < 256) (hlow : low ≤ b) (hhigh : b ≤ high)
    (bs : List UInt8) :
    decodeFrom (some ⟨bits, 1, low, high⟩) (UInt8.ofNat b :: bs) =
      Fin.ofNat _ (bits * 64 + (b - 0x80)) :: decodeFrom none bs := by
  have hnat : (UInt8.ofNat b).toNat = b := by
    rw [UInt8.toNat_ofNat']
    omega
  rw [decodeFrom, hnat, if_pos ⟨hlow, hhigh⟩]
  rfl

theorem decodeFrom_inner {bits left low high b : ℕ} (hb : b < 256) (hlow : low ≤ b)
    (hhigh : b ≤ high) (bs : List UInt8) :
    decodeFrom (some ⟨bits, left + 2, low, high⟩) (UInt8.ofNat b :: bs) =
      decodeFrom (some ⟨bits * 64 + (b - 0x80), left + 1, 0x80, 0xbf⟩) bs := by
  have hnat : (UInt8.ofNat b).toNat = b := by
    rw [UInt8.toNat_ofNat']
    omega
  rw [decodeFrom, hnat, if_pos ⟨hlow, hhigh⟩]
  rfl

/-! ### Leading bytes -/

theorem lead_two {b : ℕ} (hlow : 0xc2 ≤ b) (hhigh : b ≤ 0xdf) :
    lead b = ([], some ⟨b - 0xc0, 1, 0x80, 0xbf⟩) := by
  rw [lead, if_neg (by omega), if_pos ⟨hlow, hhigh⟩]

theorem lead_three {n : ℕ} (hlow : 0x800 ≤ n) (hhigh : n < 0x10000)
    (hscalar : ¬(0xd800 ≤ n ∧ n ≤ 0xdfff)) :
    ∃ low high, lead (0xe0 + n / 4096) = ([], some ⟨n / 4096, 2, low, high⟩) ∧
      low ≤ 0x80 + n / 64 % 64 ∧ 0x80 + n / 64 % 64 ≤ high := by
  have hbits : 0xe0 + n / 4096 - 0xe0 = n / 4096 := by omega
  unfold lead
  rw [if_neg (by omega), if_neg (by omega)]
  by_cases hzero : n / 4096 = 0
  · rw [if_pos (by omega), hzero]
    exact ⟨_, _, rfl, by omega, by omega⟩
  · rw [if_neg (by omega)]
    by_cases hthirteen : n / 4096 = 13
    · rw [if_pos (by omega), hthirteen]
      exact ⟨_, _, rfl, by omega, by omega⟩
    · rw [if_neg (by omega), if_pos (by omega), hbits]
      exact ⟨_, _, rfl, by omega, by omega⟩

theorem lead_four {n : ℕ} (hlow : 0x10000 ≤ n) (hhigh : n < 0x110000) :
    ∃ low high, lead (0xf0 + n / 262144) = ([], some ⟨n / 262144, 3, low, high⟩) ∧
      low ≤ 0x80 + n / 4096 % 64 ∧ 0x80 + n / 4096 % 64 ≤ high := by
  have hbits : 0xf0 + n / 262144 - 0xf0 = n / 262144 := by omega
  unfold lead
  rw [if_neg (by omega), if_neg (by omega), if_neg (by omega), if_neg (by omega),
    if_neg (by omega)]
  by_cases hzero : n / 262144 = 0
  · rw [if_pos (by omega), hzero]
    exact ⟨_, _, rfl, by omega, by omega⟩
  · rw [if_neg (by omega)]
    by_cases hfour : n / 262144 = 4
    · rw [if_neg (by omega), if_pos (by omega), hfour]
      exact ⟨_, _, rfl, by omega, by omega⟩
    · rw [if_pos (by omega), hbits]
      exact ⟨_, _, rfl, by omega, by omega⟩

/-! ### Characters -/

theorem ofNat_of_val {c : CodePoint} {n : ℕ} (h : n = c.val) : Fin.ofNat 0x110000 n = c := by
  rw [h, Fin.ofNat_val_eq_self]

theorem decodeFrom_encodeChar {c : CodePoint} (hscalar : ¬(0xd800 ≤ c.val ∧ c.val ≤ 0xdfff))
    (bs : List UInt8) : decodeFrom none (encodeChar c ++ bs) = c :: decodeFrom none bs := by
  have hmax : c.val < 0x110000 := c.isLt
  unfold encodeChar
  simp only
  split
  · rename_i hone
    rw [List.singleton_append, decodeFrom_none_cons (by omega), lead, if_pos hone,
      Fin.ofNat_val_eq_self]
    rfl
  · split
    · simp only [List.cons_append, List.nil_append]
      rw [decodeFrom_none_cons (by omega), lead_two (by omega) (by omega), List.nil_append,
        decodeFrom_last (by omega) (by omega) (by omega), ofNat_of_val (c := c) (by omega)]
    · split
      · obtain ⟨low, high, hlead, hlow, hhigh⟩ := lead_three (by omega) (by omega) hscalar
        simp only [List.cons_append, List.nil_append]
        rw [decodeFrom_none_cons (by omega), hlead, List.nil_append,
          decodeFrom_inner (by omega) hlow hhigh, decodeFrom_last (by omega) (by omega) (by omega),
          ofNat_of_val (c := c) (by omega)]
      · obtain ⟨low, high, hlead, hlow, hhigh⟩ := lead_four (n := c.val) (by omega) hmax
        simp only [List.cons_append, List.nil_append]
        rw [decodeFrom_none_cons (by omega), hlead, List.nil_append,
          decodeFrom_inner (by omega) hlow hhigh, decodeFrom_inner (by omega) (by omega) (by omega),
          decodeFrom_last (by omega) (by omega) (by omega), ofNat_of_val (c := c) (by omega)]

/-- What is pending waits for a continuation byte. -/
def Pending.Waits (p : Pending) : Prop := 0x80 ≤ p.low ∧ p.high ≤ 0xbf

theorem decodeFrom_encodeChar_of_pending {c : CodePoint}
    (hscalar : ¬(0xd800 ≤ c.val ∧ c.val ≤ 0xdfff)) {p : Pending} (hp : p.Waits)
    (bs : List UInt8) :
    decodeFrom (some p) (encodeChar c ++ bs) = replacement :: c :: decodeFrom none bs := by
  have hmax : c.val < 0x110000 := c.isLt
  obtain ⟨hlow, hhigh⟩ := hp
  have hfirst : ∃ b rest, encodeChar c = b :: rest ∧ ¬(p.low ≤ b.toNat ∧ b.toNat ≤ p.high) := by
    unfold encodeChar
    simp only
    split_ifs
    all_goals
      refine ⟨_, _, rfl, ?_⟩
      rw [UInt8.toNat_ofNat']
      omega
  obtain ⟨b, rest, hbytes, hout⟩ := hfirst
  have hself := decodeFrom_encodeChar hscalar bs
  rw [hbytes, List.cons_append, decodeFrom] at hself
  rw [hbytes, List.cons_append, decodeFrom, if_neg hout, List.cons_append, hself]

/-! ### The length of what is decoded -/

/-- One for a sequence that has begun. -/
def pendingCount : Option Pending → ℕ
  | none => 0
  | some _ => 1

def Between (state : Option Pending) : Prop := ∀ p, state = some p → p.Waits

theorem between_none : Between none := fun _ h => by cases h

theorem between_some {p : Pending} : Between (some p) ↔ p.Waits :=
  ⟨fun h => h p rfl, fun h _ hp => Option.some.inj hp ▸ h⟩

theorem lead_between (b : ℕ) :
    Between (lead b).2 ∧ (lead b).1.length + pendingCount (lead b).2 ≤ 1 := by
  have hnone : Between none ∧ 1 + pendingCount none ≤ 1 := ⟨between_none, le_rfl⟩
  have hsome : ∀ bits left low high, 0x80 ≤ low → high ≤ 0xbf →
      Between (some ⟨bits, left, low, high⟩) ∧
        0 + pendingCount (some ⟨bits, left, low, high⟩) ≤ 1 :=
    fun _ _ _ _ hlow hhigh => ⟨between_some.2 ⟨hlow, hhigh⟩, le_rfl⟩
  unfold lead
  split_ifs
  · exact hnone
  all_goals first
    | exact hnone
    | exact hsome _ _ _ _ (by decide) (by decide)

theorem decodeFrom_cons {state : Option Pending} (h : Between state) (b : UInt8) :
    ∃ out next, Between next ∧ out.length + pendingCount next ≤ pendingCount state + 1 ∧
      ∀ bs, decodeFrom state (b :: bs) = out ++ decodeFrom next bs := by
  obtain ⟨hbetween, hlength⟩ := lead_between b.toNat
  cases state with
  | none => exact ⟨_, _, hbetween, hlength, fun bs => rfl⟩
  | some p =>
      by_cases hin : p.low ≤ b.toNat ∧ b.toNat ≤ p.high
      · by_cases hlast : p.left = 1
        · refine ⟨[Fin.ofNat _ (p.bits * 64 + (b.toNat - 0x80))], none, between_none, ?_,
            fun bs => ?_⟩
          · exact Nat.le_succ 1
          · rw [decodeFrom, if_pos hin]
            simp only [hlast, if_true]
            rfl
        · refine ⟨[], some ⟨p.bits * 64 + (b.toNat - 0x80), p.left - 1, 0x80, 0xbf⟩, ?_, ?_,
            fun bs => ?_⟩
          · exact between_some.2 ⟨le_rfl, le_rfl⟩
          · exact Nat.le_succ 1
          · rw [decodeFrom, if_pos hin]
            simp only [hlast, if_false]
            rfl
      · refine ⟨replacement :: (lead b.toNat).1, _, hbetween, ?_, fun bs => ?_⟩
        · simp only [List.length_cons, pendingCount] at hlength ⊢
          omega
        · rw [decodeFrom, if_neg hin]

/-! ### Texts -/

/-- `text.encode()`, for a text without surrogates. -/
def encode (text : Str) : List UInt8 := text.flatMap encodeChar

/-- `bytes.decode()`, which raises unless the bytes are the encoding of a text. -/
def decodeStrict (bytes : List UInt8) : Option Str :=
  let text := decodeReplace bytes
  if encode text = bytes then some text else none

theorem decodeStrict_encode {text : Str} (h : Scalar text) :
    decodeStrict (encode text) = some text := by
  have hdecode : decodeReplace (encode text) = text := by
    rw [decodeReplace, encode]
    induction text with
    | nil => rfl
    | cons c text ih =>
        obtain ⟨hc, htext⟩ := List.forall_mem_cons.1 h
        rw [List.flatMap_cons, decodeFrom_encodeChar hc, ih htext]
  rw [decodeStrict, hdecode]
  exact if_pos rfl

end Utf8
