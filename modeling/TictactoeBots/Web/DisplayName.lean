import TictactoeBots.Lib.CookieQuote
import TictactoeBots.Lib.LineBoundaries
import TictactoeBots.Entities.Tables

/-!
The display name of a visitor, which lives in a cookie.

`set_cookie` quotes the value and writes the header in Latin-1. The quoting
escapes what does not belong into a cookie only as far as a byte goes, so a name
with a character beyond that gets into the header as it is, where it cannot be
encoded. The ownership cookie is percent encoded first; the name is not.
-/

namespace TictactoeBots

open Text Python

/-! ### Setting the name -/

def playerNameCookie : Str := str "ttt_player_name"

/-- A `ValueError` that no clause catches. -/
def unicodeEncodeError : PyException :=
  ⟨.other (str "UnicodeEncodeError"), str "'latin-1' codec can't encode characters"⟩

/-- `s.encode("latin-1")`. -/
def encodeLatin1 (s : Str) : Except PyException (List UInt8) :=
  if s.all fun c => c.val < 0x100 then .ok (s.map fun c => UInt8.ofNat c.val)
  else .error unicodeEncodeError

/-- `bytes.decode("latin-1")`. -/
def decodeLatin1 (bytes : List UInt8) : Str := bytes.map fun b => Fin.ofNat _ b.toNat

/-- The `set-cookie` header of `response.set_cookie`, with the attributes that
the handler asks for and the default path. -/
def setCookie (key value : Str) : Except PyException (List UInt8) :=
  encodeLatin1 (key ++ str "=" ++ CookieQuote.quote value ++ str "; HttpOnly; Path=/; SameSite=lax")

inductive SetNameResponse where
  | nameForm (error : Str)
  | nameSet (playerName : Str) (header : List UInt8)

def handleSetPlayerName (playerName : Str) : Except PyException SetNameResponse :=
  let cleaned := strip playerName
  if cleaned.isEmpty then .ok (.nameForm (str "Please enter a display name."))
  else do
    let header ← setCookie playerNameCookie cleaned
    return .nameSet cleaned header

/-! ### Reading it -/

/-- What the browser keeps of the header: the text up to the first semicolon. -/
def keptCookie (header : List UInt8) : Str := (decodeLatin1 header).takeWhile (· ≠ 0x3b)

/-- Another cookie of the browser. -/
structure ForeignCookie where
  name : Str
  value : Str
  name_ne : strip name ≠ playerNameCookie
  name_plain : 0x3d ∉ name ∧ 0x3b ∉ name
  value_plain : 0x3b ∉ value

def ForeignCookie.text (cookie : ForeignCookie) : Str := cookie.name ++ str "=" ++ cookie.value

/-- The `cookie` header of a request, in which the cookies stand in some order. -/
def cookieHeader (before : List ForeignCookie) (kept : Str) (after : List ForeignCookie) : Str :=
  (str "; ").intercalate
    (before.map ForeignCookie.text ++ kept :: after.map ForeignCookie.text)

/-- The key and the raw value of one chunk in `cookie_parser`. -/
def readChunk (chunk : Str) : Str × Str :=
  match splitFirst (str "=") chunk with
  | some (key, val) => (strip key, strip val)
  | none => ([], strip chunk)

def addCookie (cookies : AList fun _ : Str => Str) (chunk : Str) : AList fun _ : Str => Str :=
  let entry := readChunk chunk
  if entry.1.isEmpty && entry.2.isEmpty then cookies
  else cookies.insert entry.1 (CookieQuote.unquote entry.2)

/-- `cookie_parser`: the cookies of a request. -/
def cookieParser (header : Str) : AList fun _ : Str => Str :=
  (header.splitOn 0x3b).foldl addCookie ∅

inductive PlayIndex where
  | nameForm
  | botPicker (playerName : Str) (bots : List BotRow)

/-- `rows` is what `ready_bots_for_play` returns. -/
def renderPlayPage (tttPlayerName : Option Str) (rows : List BotRow) : PlayIndex :=
  match tttPlayerName with
  | none | some [] => .nameForm
  | some playerName => .botPicker playerName rows

/-- The name is set without an exception, and the play page of every later
request greets the visitor by it, whatever other cookies there are. -/
def SetAndReadBack (playerName : Str) : Prop :=
  ∃ header, handleSetPlayerName playerName = .ok (.nameSet (strip playerName) header) ∧
    ∀ before after rows,
      renderPlayPage ((cookieParser (cookieHeader before (keptCookie header) after)).lookup
        playerNameCookie) rows = .botPicker (strip playerName) rows

/-! ### The header -/

theorem encodeLatin1_of_forall {s : Str} (h : ∀ c ∈ s, c.val < 0x100) :
    encodeLatin1 s = .ok (s.map fun c => UInt8.ofNat c.val) :=
  if_pos (List.all_eq_true.2 fun c hc => decide_eq_true (h c hc))

theorem encodeLatin1_of_wide {s : Str} {c : CodePoint} (hc : c ∈ s) (hwide : 0x100 ≤ c.val) :
    encodeLatin1 s = .error unicodeEncodeError := by
  apply if_neg
  intro hall
  have hbyte := of_decide_eq_true (List.all_eq_true.1 hall c hc)
  omega

theorem decodeLatin1_map {s : Str} (h : ∀ c ∈ s, c.val < 0x100) :
    decodeLatin1 (s.map fun c => UInt8.ofNat c.val) = s := by
  rw [decodeLatin1, List.map_map]
  calc s.map ((fun b => Fin.ofNat _ b.toNat) ∘ fun c => UInt8.ofNat c.val)
      = s.map id := by
        apply List.map_congr_left
        intro c hc
        have hbyte : (UInt8.ofNat c.val).toNat = c.val := by
          rw [UInt8.toNat_ofNat']
          have hlt := h c hc
          omega
        rw [Function.comp_apply, hbyte, Fin.ofNat_val_eq_self, id]
    _ = s := List.map_id s

theorem quote_plain {s : Str} (h : ∀ c ∈ s, c.val < 0x100) :
    ∀ d ∈ CookieQuote.quote s, d.val < 0x80 ∧ d ≠ 0x3b := by
  intro d hd
  obtain rfl | rfl | hd | ⟨hd, hwide⟩ := CookieQuote.mem_quote hd
  · decide
  · decide
  · refine ⟨CookieQuote.isUnescaped_lt hd, ?_⟩
    rintro rfl
    exact absurd hd (by decide)
  · have hlt := h d hd
    omega

theorem setCookie_of_bytes {s : Str} (h : ∀ c ∈ s, c.val < 0x100) :
    ∃ header, setCookie playerNameCookie s = .ok header ∧
      keptCookie header = playerNameCookie ++ str "=" ++ CookieQuote.quote s := by
  have hattributes : (playerNameCookie ++ str "=" ++ str "; HttpOnly; Path=/; SameSite=lax").all
      (fun c => decide (c.val < 0x100)) = true := rfl
  have hbytes : ∀ c ∈ playerNameCookie ++ str "=" ++ CookieQuote.quote s ++
      str "; HttpOnly; Path=/; SameSite=lax", c.val < 0x100 := by
    intro c hc
    have hattribute := fun hmem => of_decide_eq_true (List.all_eq_true.1 hattributes c hmem)
    simp only [List.mem_append] at hc hattribute
    obtain ((hc | hc) | hc) | hc := hc
    · exact hattribute (.inl (.inl hc))
    · exact hattribute (.inl (.inr hc))
    · have hascii := (quote_plain h c hc).1
      omega
    · exact hattribute (.inr hc)
  refine ⟨_, encodeLatin1_of_forall hbytes, ?_⟩
  have hpair : ∀ c ∈ playerNameCookie ++ str "=" ++ CookieQuote.quote s,
      decide (c ≠ 0x3b) = true := by
    have hname : (playerNameCookie ++ str "=").all (fun c => decide (c ≠ 0x3b)) = true := rfl
    intro c hc
    obtain hc | hc := List.mem_append.1 hc
    · exact List.all_eq_true.1 hname c hc
    · exact decide_eq_true (quote_plain h c hc).2
  rw [keptCookie, decodeLatin1_map hbytes, List.takeWhile_append_of_pos hpair]
  have hsemicolon :
      (str "; HttpOnly; Path=/; SameSite=lax").takeWhile (fun c => decide (c ≠ 0x3b)) = [] :=
    rfl
  rw [hsemicolon, List.append_nil]

/-! ### The request -/

theorem strip_quote (s : Str) : strip (CookieQuote.quote s) = CookieQuote.quote s := by
  apply Trimmed.strip_eq
  obtain ⟨hquote, hlegal⟩ | ⟨inside, hquote⟩ := CookieQuote.quote_cases s
  · rw [hquote]
    exact ⟨fun c hc => CookieQuote.isSpace_of_isLegal (hlegal c (List.mem_of_head? hc)),
      fun c hc => CookieQuote.isSpace_of_isLegal (hlegal c (List.mem_of_getLast? hc))⟩
  · rw [hquote]
    constructor
    · intro c hc
      obtain rfl := Option.some.inj hc
      rfl
    · intro c hc
      rw [List.getLast?_concat, Option.mem_some_iff] at hc
      rw [← hc]
      rfl

/-- The chunk is the text of the cookie, with or without the space in front. -/
def IsChunk (text chunk : Str) : Prop := chunk = text ∨ chunk = 0x20 :: text

theorem readChunk_of_isChunk {name value chunk : Str} (hname : 0x3d ∉ name)
    (h : IsChunk (name ++ str "=" ++ value) chunk) :
    readChunk chunk = (strip name, strip value) := by
  have hread : ∀ {front : Str}, 0x3d ∉ front →
      readChunk (front ++ str "=" ++ value) = (strip front, strip value) := by
    intro front hfront
    have hsplit : splitFirst (str "=") (front ++ str "=" ++ value) = some (front, value) := by
      rw [List.append_assoc]
      exact splitFirst_append hfront value
    rw [readChunk, hsplit]
  obtain rfl | rfl := h
  · exact hread hname
  · have hspace : Blank (str " ") := by
      intro c hc
      rw [List.mem_singleton.1 hc]
      rfl
    have hfront : 0x3d ∉ (0x20 :: name : Str) := by
      rw [List.mem_cons, not_or]
      exact ⟨by decide, hname⟩
    have hstrip : strip (0x20 :: name) = strip name := hspace.strip_append name
    have hchunk := hread hfront
    rwa [hstrip] at hchunk

theorem splitOn_intercalate_cookies {texts : List Str} (h : ∀ text ∈ texts, 0x3b ∉ text)
    (hne : texts ≠ []) :
    List.Forall₂ IsChunk texts (((str "; ").intercalate texts).splitOn 0x3b) := by
  obtain ⟨first, rest, rfl⟩ := List.exists_cons_of_ne_nil hne
  have hseparator : str "; " = [0x3b, 0x20] := rfl
  rw [hseparator, splitOn_intercalate_space (by decide) h]
  apply List.Forall₂.cons (.inl rfl)
  rw [List.forall₂_map_right_iff, List.forall₂_same]
  exact fun text _ => .inr rfl

theorem lookup_addCookie_foreign {cookie : ForeignCookie} {chunk : Str}
    (h : IsChunk cookie.text chunk) (cookies : AList fun _ : Str => Str) :
    (addCookie cookies chunk).lookup playerNameCookie = cookies.lookup playerNameCookie := by
  rw [addCookie, readChunk_of_isChunk cookie.name_plain.1 h]
  simp only
  split
  · rfl
  · exact AList.lookup_insert_ne cookie.name_ne.symm

theorem lookup_foldl_foreign {after : List ForeignCookie} {chunks : List Str}
    (h : List.Forall₂ IsChunk (after.map ForeignCookie.text) chunks)
    (cookies : AList fun _ : Str => Str) :
    (chunks.foldl addCookie cookies).lookup playerNameCookie = cookies.lookup playerNameCookie := by
  induction after generalizing chunks cookies with
  | nil =>
      cases h
      rfl
  | cons cookie after ih =>
      obtain ⟨chunk, rest, hchunk, hrest, rfl⟩ := List.forall₂_cons_left_iff.1 h
      rw [List.foldl_cons, ih hrest, lookup_addCookie_foreign hchunk]

theorem lookup_foldl_addCookie {s : Str} {before after : List ForeignCookie} {chunks : List Str}
    (h : List.Forall₂ IsChunk (before.map ForeignCookie.text ++
      (playerNameCookie ++ str "=" ++ CookieQuote.quote s) :: after.map ForeignCookie.text) chunks)
    (cookies : AList fun _ : Str => Str) :
    (chunks.foldl addCookie cookies).lookup playerNameCookie = some s := by
  induction before generalizing chunks cookies with
  | nil =>
      obtain ⟨mine, back, hmine, hback, rfl⟩ := List.forall₂_cons_left_iff.1 h
      have hname : (0x3d : CodePoint) ∉ playerNameCookie ∧
          strip playerNameCookie = playerNameCookie := by decide
      have hread := readChunk_of_isChunk hname.1 hmine
      rw [hname.2, strip_quote] at hread
      have hkept : (playerNameCookie.isEmpty && (CookieQuote.quote s).isEmpty) = false := rfl
      rw [List.foldl_cons, lookup_foldl_foreign hback, addCookie, hread]
      simp only [hkept]
      rw [if_neg Bool.false_ne_true, AList.lookup_insert, CookieQuote.unquote_quote]
  | cons cookie before ih =>
      obtain ⟨chunk, rest, -, hrest, rfl⟩ := List.forall₂_cons_left_iff.1 h
      rw [List.foldl_cons]
      exact ih hrest _

/-- The name comes back from any request of the browser. -/
theorem lookup_cookieParser {s : Str} (h : ∀ c ∈ s, c.val < 0x100)
    (before after : List ForeignCookie) :
    (cookieParser (cookieHeader before (playerNameCookie ++ str "=" ++ CookieQuote.quote s)
      after)).lookup playerNameCookie = some s := by
  have hforeign : ∀ cookies : List ForeignCookie, ∀ text ∈ cookies.map ForeignCookie.text,
      (0x3b : CodePoint) ∉ text := by
    intro cookies text htext
    obtain ⟨cookie, _, rfl⟩ := List.mem_map.1 htext
    simp only [ForeignCookie.text, List.mem_append, not_or]
    exact ⟨⟨cookie.name_plain.2, by decide⟩, cookie.value_plain⟩
  have hplain : ∀ text ∈ before.map ForeignCookie.text ++
      (playerNameCookie ++ str "=" ++ CookieQuote.quote s) :: after.map ForeignCookie.text,
      (0x3b : CodePoint) ∉ text := by
    intro text htext
    obtain htext | htext := List.mem_append.1 htext
    · exact hforeign before text htext
    · obtain rfl | htext := List.mem_cons.1 htext
      · have hfront : (0x3b : CodePoint) ∉ playerNameCookie ++ str "=" := by decide
        rw [List.mem_append, not_or]
        exact ⟨hfront, fun hmem => (quote_plain h _ hmem).2 rfl⟩
      · exact hforeign after text htext
  exact lookup_foldl_addCookie (splitOn_intercalate_cookies hplain (by simp)) _

/-- A name that is not blank can be set and is read back exactly when none of its
characters, but for the whitespace around it, is beyond U+00FF. -/
theorem setAndReadBack_iff {playerName : Str} (h : strip playerName ≠ []) :
    SetAndReadBack playerName ↔ ∀ c ∈ strip playerName, c.val < 0x100 := by
  obtain ⟨first, rest, hfirst⟩ := List.exists_cons_of_ne_nil h
  constructor
  · rintro ⟨header, hset, -⟩ c hc
    by_contra hwide
    rw [not_lt] at hwide
    have hquoted := CookieQuote.mem_quote_of_wide hc hwide
    have hfails : setCookie playerNameCookie (strip playerName) = .error unicodeEncodeError :=
      encodeLatin1_of_wide (by simp [hquoted]) hwide
    rw [handleSetPlayerName, hfails, hfirst] at hset
    cases hset
  · intro hbytes
    obtain ⟨header, hheader, hkept⟩ := setCookie_of_bytes hbytes
    refine ⟨header, ?_, fun before after rows => ?_⟩
    · rw [handleSetPlayerName, hheader, hfirst]
      rfl
    · rw [hkept, lookup_cookieParser hbytes, hfirst]
      rfl

/-- A visitor with an accent. -/
theorem setAndReadBack_accent :
    SetAndReadBack [0x20, 0x52, 0x65, 0x6e, 0xe9, 0x3b] ↔
      ∀ c ∈ strip [0x20, 0x52, 0x65, 0x6e, 0xe9, 0x3b], c.val < 0x100 :=
  setAndReadBack_iff (by decide)

/-- A name in another script is not set: the header cannot be encoded. -/
theorem wideName_raises :
    strip [0x4e2d] ≠ [] ∧ handleSetPlayerName [0x4e2d] = .error unicodeEncodeError ∧
      ¬SetAndReadBack [0x4e2d] := by
  have hraises : handleSetPlayerName [0x4e2d] = .error unicodeEncodeError := rfl
  refine ⟨by decide, hraises, ?_⟩
  rintro ⟨header, hset, -⟩
  rw [hraises] at hset
  cases hset

end TictactoeBots
