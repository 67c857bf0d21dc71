import TictactoeBots.Lib.Quote
import TictactoeBots.Lib.JsonText
import TictactoeBots.Lib.StringDicts
import TictactoeBots.Web.Submit

/-!
The ownership cookie: `encode_cookie`, and that `parse_cookie` takes it back.
-/

namespace TictactoeBots

open Text Python

/-- `encode_cookie`, where `number` is the text of a number. A number only gets
into the `dict` through a cookie that the server has not written. -/
def encodeCookie (number : Number → Str) (owned : List (Str × PyValue)) : Str :=
  Utf8.quote (Json.dumpsWith number (.obj owned))

theorem encodeCookie_ne_nil (number : Number → Str) (owned : List (Str × PyValue)) :
    ∃ c text, encodeCookie number owned = c :: text :=
  ⟨_, _, rfl⟩

theorem unquote_encodeCookie (number : Number → Str) (d : StringDict) :
    Utf8.unquote (encodeCookie number d.fields) = Json.dumps (.obj d.fields) := by
  have hascii : ∀ c ∈ Json.dumps (.obj d.fields), c.val < 0x80 := by
    intro c hc
    have hrange := Json.printable_dumps _ c hc
    omega
  rw [encodeCookie, StringDict.fields, Json.dumpsWith_stringFields]
  exact Utf8.unquote_quote hascii

theorem parseCookie_encodeCookie {py : Interpreter} (hjson : LoadsBack py.json)
    (number : Number → Str) (d : StringDict) :
    parseCookie py (some (encodeCookie number d.fields)) = .ok (.obj d.fields) := by
  have hloads := hjson d
  rw [← unquote_encodeCookie number] at hloads
  obtain ⟨c, text, hcookie⟩ := encodeCookie_ne_nil number d.fields
  rw [hcookie] at hloads ⊢
  simp only [parseCookie, hloads]

theorem presents_of_maps {d : StringDict} {name token : Str} (h : d.Maps name token) :
    presents (.obj d.fields) name token = .ok true := by
  simp only [presents, getField, StringDict.lookup_of_maps h, Option.getD_some]
  simp [bind, Except.bind, pure, Except.pure]

end TictactoeBots
