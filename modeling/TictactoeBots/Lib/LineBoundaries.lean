import TictactoeBots.Lib.TextLines

/-!
Taking a text apart: what `strip` takes off its ends, and what `splitlines`
takes out between its lines.

A line boundary is one of the line breaks, or a carriage return with the line
feed after it. The loop of `splitlines` keeps the latter in a flag; here it is
a fact about how the text decomposes.
-/

namespace Text

/-! ### Ends -/

/-- Nothing but whitespace. -/
def Blank (s : Str) : Prop := ∀ c ∈ s, isSpace c

/-- The first and the last character, if there are any, are not whitespace. -/
structure Trimmed (s : Str) : Prop where
  head : ∀ c ∈ s.head?, isSpace c = false
  last : ∀ c ∈ s.getLast?, isSpace c = false

theorem trimmed_of_forall {s : Str} (h : ∀ c ∈ s, isSpace c = false) : Trimmed s where
  head c hc := h c (List.mem_of_head? hc)
  last c hc := h c (List.mem_of_getLast? hc)

theorem Trimmed.strip_eq {s : Str} (h : Trimmed s) : strip s = s := strip_eq_self h.head h.last

theorem Blank.dropWhile_append {lead : Str} (h : Blank lead) (s : Str) :
    (lead ++ s).dropWhile isSpace = s.dropWhile isSpace := by
  rw [List.dropWhile_append, List.dropWhile_eq_nil_iff.2 h]
  rfl

theorem Blank.rdropWhile_append {trail : Str} (h : Blank trail) (s : Str) :
    (s ++ trail).rdropWhile isSpace = s.rdropWhile isSpace := by
  have hreverse : Blank trail.reverse := fun c hc => h c (List.mem_reverse.1 hc)
  rw [List.rdropWhile, List.reverse_append, hreverse.dropWhile_append]
  rfl

theorem Blank.strip_append {lead : Str} (h : Blank lead) (s : Str) :
    strip (lead ++ s) = strip s := by
  rw [strip, h.dropWhile_append, strip]

theorem strip_append {lead core trail : Str} (hlead : Blank lead) (htrail : Blank trail)
    (hcore : Trimmed core) (hne : core ≠ []) : strip (lead ++ core ++ trail) = core := by
  have hfront : (core ++ trail).dropWhile isSpace = core ++ trail := by
    cases core with
    | nil => exact absurd rfl hne
    | cons c core => exact List.dropWhile_cons_of_neg (by simp [hcore.head c rfl])
  rw [strip, List.append_assoc, hlead.dropWhile_append, hfront, htrail.rdropWhile_append,
    List.rdropWhile_eq_self_iff]
  intro hcons
  simp [hcore.last _ (List.getLast?_eq_some_getLast hcons)]

theorem exists_blank_strip (s : Str) :
    ∃ lead trail, Blank lead ∧ Blank trail ∧ s = lead ++ strip s ++ trail := by
  have hends : Blank (s.takeWhile isSpace) ∧
      Blank ((s.dropWhile isSpace).rtakeWhile isSpace) :=
    ⟨fun _ hc => List.mem_takeWhile_imp hc, fun _ hc => List.mem_rtakeWhile_imp hc⟩
  refine ⟨_, _, hends.1, hends.2, ?_⟩
  rw [strip, List.append_assoc, List.rdropWhile_append_rtakeWhile, List.takeWhile_append_dropWhile]

theorem trimmed_strip (s : Str) : Trimmed (strip s) where
  head c hc := by
    -- the front of the stripped text is the front of what `dropWhile` leaves
    obtain ⟨rest, hrest⟩ := List.rdropWhile_prefix (l := s.dropWhile isSpace) (p := isSpace)
    have hfront : (s.dropWhile isSpace).head? = some c := by
      rw [← hrest]
      exact List.mem_head?_append_of_mem_head? hc
    have hneg := List.head?_dropWhile_not isSpace s
    rw [hfront] at hneg
    simpa using hneg
  last c hc := by
    have hne : strip s ≠ [] := fun hnil => by simp [hnil] at hc
    have hneg := List.rdropWhile_last_not isSpace (s.dropWhile isSpace) hne
    rw [List.getLast?_eq_some_getLast hne, Option.mem_some_iff] at hc
    rw [← hc]
    exact Bool.eq_false_iff.2 hneg

theorem trimmed_of_strip_eq {s : Str} (h : strip s = s) : Trimmed s := h ▸ trimmed_strip s

/-! ### Lines -/

/-- What `splitlines` counts as one end of a line. -/
inductive LineBoundary : Str → Prop
  | single {c : CodePoint} (h : isLineBreak c = true) : LineBoundary [c]
  | crlf : LineBoundary (str "\r\n")

/-- No line ends inside the text. -/
def Unbroken (s : Str) : Prop := ∀ c ∈ s, isLineBreak c = false

theorem unbroken_of_all {s : Str} (h : s.all (fun c => !isLineBreak c) = true) : Unbroken s := by
  intro c hc
  simpa using List.all_eq_true.1 h c hc

theorem Unbroken.append {s t : Str} (hs : Unbroken s) (ht : Unbroken t) : Unbroken (s ++ t) := by
  intro c hc
  exact (List.mem_append.1 hc).elim (hs c) (ht c)

theorem isSpace_of_isLineBreak {c : CodePoint} (h : isLineBreak c = true) : isSpace c = true := by
  apply List.contains_iff_mem.2
  apply List.subset_def.1 ?_ (List.contains_iff_mem.1 h)
  decide

theorem LineBoundary.not_trimmed_append {s separator : Str} (h : LineBoundary separator) :
    ¬Trimmed (s ++ separator) := by
  intro htrimmed
  cases h with
  | single hbreak =>
      have hlast := htrimmed.last _ (by rw [List.getLast?_concat]; rfl)
      rw [isSpace_of_isLineBreak hbreak] at hlast
      cases hlast
  | crlf =>
      have hlast := htrimmed.last 0x0a (by rw [List.getLast?_append]; rfl)
      exact absurd hlast (by decide)

theorem splitlinesFrom_unbroken {line : Str} (h : Unbroken line) :
    ∀ (front s : Str), splitlinesFrom false front (line ++ s) =
      splitlinesFrom false (front ++ line) s := by
  induction line with
  | nil =>
      intro front s
      rw [List.nil_append, List.append_nil]
  | cons c line ih =>
      intro front s
      rw [Unbroken, List.forall_mem_cons] at h
      rw [List.cons_append, splitlinesFrom, h.1, Bool.false_and, if_neg Bool.false_ne_true,
        if_neg Bool.false_ne_true, ih h.2, List.append_assoc, List.singleton_append]

theorem splitlinesFrom_true {s : Str} (h : s.head? ≠ some 0x0a) (line : Str) :
    splitlinesFrom true line s = splitlinesFrom false line s := by
  cases s with
  | nil => rfl
  | cons c s =>
      have hfeed : (c.val == 0x0a) = false := by
        rw [beq_eq_false_iff_ne]
        exact fun hc => h (congrArg some (Fin.ext hc))
      rw [splitlinesFrom, splitlinesFrom, hfeed, Bool.and_false, Bool.and_false]

/-- A line, its boundary, and the rest; after a carriage return the rest must not
begin with the line feed that would belong to the boundary. -/
theorem splitlines_append {line separator rest : Str} (hline : Unbroken line)
    (hseparator : LineBoundary separator)
    (hrest : separator = [0x0d] → rest.head? ≠ some 0x0a) :
    splitlines (line ++ separator ++ rest) = line :: splitlines rest := by
  rw [splitlines, List.append_assoc, splitlinesFrom_unbroken hline, List.nil_append]
  cases hseparator with
  | @single c hbreak =>
      rw [List.singleton_append, splitlinesFrom, Bool.false_and, if_neg Bool.false_ne_true,
        if_pos hbreak]
      cases hreturn : c.val == 0x0d with
      | true =>
          have hc : c = 0x0d := Fin.ext (by simpa using hreturn)
          rw [splitlinesFrom_true (hrest (by rw [hc])), splitlines]
      | false => rfl
  | crlf => rfl

theorem splitlines_flatMap_feed {lines : List Str} (h : ∀ line ∈ lines, Unbroken line) :
    splitlines (lines.flatMap fun line => line ++ str "\n") = lines := by
  induction lines with
  | nil => rfl
  | cons line lines ih =>
      rw [List.forall_mem_cons] at h
      have hfeed : LineBoundary (str "\n") := .single rfl
      rw [List.flatMap_cons, splitlines_append h.1 hfeed fun hreturn => absurd hreturn (by decide),
        ih h.2]

theorem exists_splitlines_cons (c : CodePoint) (s : Str) :
    ∃ line lines, splitlines (c :: s) = line :: lines := by
  have hloop : ∀ {front : Str}, front ++ s ≠ [] ∨ front ≠ [] →
      ∃ line lines, splitlinesFrom false front s = line :: lines := by
    induction s with
    | nil =>
        intro front hfront
        rw [splitlinesFrom, if_neg (by simpa using hfront)]
        exact ⟨_, _, rfl⟩
    | cons d s ih =>
        intro front _
        rw [splitlinesFrom, Bool.false_and, if_neg Bool.false_ne_true]
        split
        · exact ⟨_, _, rfl⟩
        · exact ih (.inr (by simp))
  rw [splitlines, splitlinesFrom, Bool.false_and, if_neg Bool.false_ne_true]
  split
  · exact ⟨_, _, rfl⟩
  · exact hloop (.inr (by simp))

theorem splitlines_unbroken {line : Str} (h : Unbroken line) (hne : line ≠ []) :
    splitlines line = [line] := by
  have hloop := splitlinesFrom_unbroken h [] []
  rw [List.append_nil, List.nil_append] at hloop
  rw [splitlines, hloop, splitlinesFrom, if_neg hne]

theorem splitlinesFrom_eq_cons {s front line : Str} {lines : List Str} (hfront : Unbroken front)
    (h : splitlinesFrom false front s = line :: lines) :
    Unbroken line ∧ ((front ++ s = line ∧ lines = []) ∨
      ∃ separator rest, LineBoundary separator ∧ front ++ s = line ++ separator ++ rest ∧
        splitlines rest = lines) := by
  induction s generalizing front with
  | nil =>
      rw [splitlinesFrom] at h
      split at h
      · cases h
      · obtain ⟨rfl, rfl⟩ := List.cons.inj h
        exact ⟨hfront, .inl ⟨List.append_nil _, rfl⟩⟩
  | cons c s ih =>
      rw [splitlinesFrom, Bool.false_and, if_neg Bool.false_ne_true] at h
      split at h
      · rename_i hbreak
        obtain ⟨rfl, hlines⟩ := List.cons.inj h
        refine ⟨hfront, .inr ?_⟩
        by_cases hcrlf : c = 0x0d ∧ s.head? = some 0x0a
        · obtain ⟨rfl, hfeed⟩ := hcrlf
          obtain ⟨rest, rfl⟩ : ∃ rest, s = 0x0a :: rest := by
            cases s with
            | nil => cases hfeed
            | cons d rest => exact ⟨rest, by rw [Option.some.inj hfeed]⟩
          refine ⟨str "\r\n", rest, .crlf, by simp [str, CodePoint.ofChar], ?_⟩
          rw [← hlines]
          rfl
        · refine ⟨[c], s, .single hbreak, by simp, ?_⟩
          rw [← hlines, splitlines]
          cases hreturn : c.val == 0x0d with
          | true =>
              have hc : c = 0x0d := Fin.ext (by simpa using hreturn)
              rw [splitlinesFrom_true fun hfeed => hcrlf ⟨hc, hfeed⟩]
          | false => rfl
      · rename_i hplain
        have hgrown : Unbroken (front ++ [c]) := by
          apply hfront.append
          intro d hd
          rw [List.mem_singleton.1 hd]
          simpa using hplain
        have hrest := ih hgrown h
        rwa [List.append_assoc, List.singleton_append] at hrest

/-- The first line of a text is unbroken, and is either all of it or ends at a
boundary after which the other lines begin. -/
theorem splitlines_eq_cons {s line : Str} {lines : List Str} (h : splitlines s = line :: lines) :
    Unbroken line ∧ ((s = line ∧ lines = []) ∨
      ∃ separator rest, LineBoundary separator ∧ s = line ++ separator ++ rest ∧
        splitlines rest = lines) := by
  have hempty : Unbroken [] := fun c hc => absurd hc List.not_mem_nil
  exact splitlinesFrom_eq_cons hempty h

/-! ### Separators -/

/-- `s.split(separator, 1)` as a pair, if the separator occurs in the text. -/
def splitFirst (separator : Str) : Str → Option (Str × Str)
  | [] => if separator = [] then some ([], []) else none
  | c :: s =>
      if separator.isPrefixOf (c :: s) then some ([], (c :: s).drop separator.length)
      else (splitFirst separator s).map fun parts => (c :: parts.1, parts.2)

example : splitFirst (str "://") (str "http://h/a://b") = some (str "http", str "h/a://b") := by
  decide

theorem splitFirst_append {c : CodePoint} {front : Str} (h : c ∉ front) (back : Str) :
    splitFirst [c] (front ++ c :: back) = some (front, back) := by
  induction front with
  | nil => simp [splitFirst]
  | cons d front ih =>
      rw [List.mem_cons, not_or] at h
      rw [List.cons_append, splitFirst, if_neg (by simp [h.1]), ih h.2]
      rfl

end Text
