import TictactoeBots.Lib.JsonRoundTrip
import TictactoeBots.Lib.Spans
import TictactoeBots.Scripts.JsCoverage

/-!
The missing lines of a file in the coverage report.

The report counts the lines with code and lists those that were not executed.
The list is printed with its runs compressed, `1-3, 7`, and whoever reads the
parts gets the same list back.
-/

namespace TictactoeBots

open Text Spans

/-! ### The summary of a file -/

def isCodeLine (line : Str) : Bool :=
  let stripped := strip line
  if stripped.isEmpty then false
  else if (str "//").isPrefixOf stripped then false
  else if [str "/*", str "*", str "*/"].any (·.isPrefixOf stripped) then false
  else true

/-- The counts of `_summarize`, and the numbers of the lines not executed. -/
structure CoverageSummary where
  hit : ℕ
  total : ℕ
  missing : List ℤ

/-- The body of its loop. `none` is the `IndexError` of a list `covered` that is
too short. -/
def summarizeLine (covered : List Bool) (summary : CoverageSummary) (entry : Str × ℕ) :
    Option CoverageSummary :=
  let (line, i) := entry
  if !isCodeLine line then some summary
  else
    match covered[i - 1]? with
    | none => none
    | some true => some { summary with total := summary.total + 1, hit := summary.hit + 1 }
    | some false =>
        some { summary with total := summary.total + 1, missing := summary.missing ++ [(i : ℤ)] }

def summarize (source : Str) (covered : List Bool) : Option CoverageSummary :=
  ((source.splitOn 0x0a).zipIdx 1).foldlM (summarizeLine covered) ⟨0, 0, []⟩

/-! ### The text of the missing lines -/

/-- A part of the text, for the lines from `start` to `prev`. -/
def missingPart (start prev : ℤ) : Str :=
  if start = prev then Json.intText start else Json.intText start ++ str "-" ++ Json.intText prev

/-- The variables of the loop of `_format_missing`. -/
structure MissingLoop where
  parts : List Str
  start : ℤ
  prev : ℤ

def addMissing (loop : MissingLoop) (n : ℤ) : MissingLoop :=
  if n = loop.prev + 1 then { loop with prev := n }
  else ⟨loop.parts ++ [missingPart loop.start loop.prev], n, n⟩

def formatMissing : List ℤ → Str
  | [] => []
  | first :: rest =>
      let loop := rest.foldl addMissing ⟨[], first, first⟩
      (str ", ").intercalate (loop.parts ++ [missingPart loop.start loop.prev])

example : formatMissing [1, 2, 3, 7, 10, 11] = str "1-3, 7, 10-11" := by decide

/-! ### Reading it -/

def commaParts (text : Str) : List Str :=
  if text.isEmpty then [] else (text.splitOn 0x2c).map strip

inductive MissingPart where
  | single (n : ℤ)
  | range (a b : ℤ)
  deriving DecidableEq

namespace MissingPart

def expand : MissingPart → List ℤ
  | single n => [n]
  | range a b => Int.range a (b + 1)

def first : MissingPart → ℤ
  | single n => n
  | range a _ => a

def last : MissingPart → ℤ
  | single n => n
  | range _ b => b

end MissingPart

def readNumber (text : Str) : Option ℤ :=
  if !text.isEmpty && text.all Json.isDigit then some (Json.digitsValue text) else none

/-- `a`, or `a-b`. -/
def readPart (text : Str) : Option MissingPart :=
  match (text.splitOn 0x2d).map readNumber with
  | [some n] => some (.single n)
  | [some a, some b] => some (.range a b)
  | _ => none

/-- The parts give the lines back, in order, every range has more than one line,
and some line that is not missing is between two parts: no part can be made
longer at either end. -/
structure CanonicalParts (lines : List ℤ) (parts : List MissingPart) : Prop where
  lossless : parts.flatMap MissingPart.expand = lines
  ascending : ∀ a b, .range a b ∈ parts → a < b
  separated : parts.IsChain fun part next => ∃ n ∉ lines, part.last < n ∧ n < next.first
  maximal : ∀ part ∈ parts, part.first - 1 ∉ lines ∧ part.last + 1 ∉ lines

/-! ### What the summary says -/

/-- The summary counts the lines with code and lists those that are not covered,
in order. -/
structure Summarizes (source : Str) (covered : List Bool) (summary : CoverageSummary) : Prop where
  total : summary.total = (source.splitOn 0x0a).countP isCodeLine
  hit : summary.hit + summary.missing.length = summary.total
  increasing : summary.missing.Pairwise (· < ·)
  mem_missing : ∀ n, n ∈ summary.missing ↔ ∃ (i : ℕ) (line : Str), n = i + 1 ∧
    (source.splitOn 0x0a)[i]? = some line ∧ isCodeLine line ∧ covered[i]? = some false

/-- The lines that the loop lists. -/
def isMissing (covered : List Bool) (entry : Str × ℕ) : Bool :=
  isCodeLine entry.1 && covered[entry.2 - 1]? == some false

def missingNumbers (covered : List Bool) (entries : List (Str × ℕ)) : List ℤ :=
  (entries.filter (isMissing covered)).map fun entry => (entry.2 : ℤ)

theorem summarizeLine_step {covered : List Bool} {entry : Str × ℕ}
    (hlength : entry.2 - 1 < covered.length) (summary : CoverageSummary) :
    ∃ next, summarizeLine covered summary entry = some next ∧
      next.total = summary.total + [entry].countP (isCodeLine ·.1) ∧
      next.missing = summary.missing ++ missingNumbers covered [entry] ∧
      next.hit + next.missing.length + summary.total =
        summary.hit + summary.missing.length + next.total := by
  obtain ⟨line, i⟩ := entry
  have hcovered : covered[i - 1]? = some covered[i - 1] := List.getElem?_eq_getElem hlength
  unfold summarizeLine
  cases hcode : isCodeLine line with
  | false => exact ⟨summary, by simp [hcode], by simp [hcode, missingNumbers, isMissing]⟩
  | true =>
      cases hhit : covered[i - 1] with
      | true =>
          rw [hhit] at hcovered
          refine ⟨_, by simp only [hcode, hcovered]; rfl, by simp [hcode], ?_, ?_⟩
          · simp [missingNumbers, isMissing, hcovered]
          · simp only
            omega
      | false =>
          rw [hhit] at hcovered
          refine ⟨_, by simp only [hcode, hcovered]; rfl, by simp [hcode], ?_, ?_⟩
          · simp [missingNumbers, isMissing, hcode, hcovered]
          · simp only [List.length_append, List.length_singleton]
            omega

theorem foldlM_summarizeLine {covered : List Bool} {entries : List (Str × ℕ)}
    (hlength : ∀ entry ∈ entries, entry.2 - 1 < covered.length) (summary : CoverageSummary) :
    ∃ result, entries.foldlM (summarizeLine covered) summary = some result ∧
      result.total = summary.total + entries.countP (isCodeLine ·.1) ∧
      result.missing = summary.missing ++ missingNumbers covered entries ∧
      result.hit + result.missing.length + summary.total =
        summary.hit + summary.missing.length + result.total := by
  induction entries generalizing summary with
  | nil => exact ⟨summary, rfl, rfl, (List.append_nil _).symm, rfl⟩
  | cons entry entries ih =>
      obtain ⟨hentry, hentries⟩ := List.forall_mem_cons.1 hlength
      obtain ⟨next, hnext, htotal, hmissing, hbalance⟩ := summarizeLine_step hentry summary
      obtain ⟨result, hresult, htotal', hmissing', hbalance'⟩ := ih hentries next
      refine ⟨result, ?_, ?_, ?_, by omega⟩
      · rw [List.foldlM_cons, hnext]
        exact hresult
      · rw [htotal', htotal, Nat.add_assoc, ← List.countP_append, List.singleton_append]
      · rw [hmissing', hmissing, List.append_assoc]
        apply congrArg (summary.missing ++ ·)
        rw [missingNumbers, missingNumbers, ← List.map_append, ← List.filter_append]
        rfl

theorem exists_summary {source : Str} {covered : List Bool}
    (h : covered.length = (source.splitOn 0x0a).length) :
    ∃ summary, summarize source covered = some summary ∧ Summarizes source covered summary := by
  have hlength : ∀ entry ∈ (source.splitOn 0x0a).zipIdx 1, entry.2 - 1 < covered.length := by
    rintro ⟨line, i⟩ hentry
    obtain ⟨-, hget⟩ := List.mk_mem_zipIdx_iff_le_and_getElem?_sub.1 hentry
    show i - 1 < covered.length
    rw [h]
    exact (List.getElem?_eq_some_iff.1 hget).1
  obtain ⟨summary, hsummary, htotal, hmissing, hbalance⟩ := foldlM_summarizeLine hlength ⟨0, 0, []⟩
  rw [List.nil_append] at hmissing
  refine ⟨summary, hsummary, ?_, ?_, ?_, fun n => ?_⟩
  · have hlines := List.countP_map (p := isCodeLine) (f := Prod.fst)
      (l := (source.splitOn 0x0a).zipIdx 1)
    rw [List.zipIdx_map_fst] at hlines
    rw [htotal, hlines, Nat.zero_add]
    rfl
  · simpa using hbalance
  · have hnumbers : ((source.splitOn 0x0a).zipIdx 1).Pairwise fun a b => a.2 < b.2 := by
      rw [← List.pairwise_map, List.zipIdx_map_snd]
      exact List.pairwise_lt_range'
    rw [hmissing, missingNumbers, List.pairwise_map]
    exact (hnumbers.filter _).imp fun hlt => Int.ofNat_lt.2 hlt
  · rw [hmissing, missingNumbers, List.mem_map]
    constructor
    · rintro ⟨⟨line, k⟩, hentry, rfl⟩
      obtain ⟨hmem, hline⟩ := List.mem_filter.1 hentry
      obtain ⟨hone, hget⟩ := List.mk_mem_zipIdx_iff_le_and_getElem?_sub.1 hmem
      simp only [isMissing, Bool.and_eq_true, beq_iff_eq] at hline
      exact ⟨k - 1, line, by omega, hget, hline⟩
    · rintro ⟨i, line, rfl, hget, hline⟩
      refine ⟨(line, i + 1), List.mem_filter.2 ⟨?_, ?_⟩, Nat.cast_succ i⟩
      · exact List.mk_mem_zipIdx_iff_le_and_getElem?_sub.2 ⟨Nat.le_add_left 1 i, hget⟩
      · simpa [isMissing] using hline

/-! ### The loop is the one over spans -/

def spanText (s : Span) : Str := missingPart s.first s.last

def loopOf (p : Progress) : MissingLoop := ⟨p.closed.map spanText, p.current.first, p.current.last⟩

theorem addMissing_loopOf (p : Progress) (n : ℤ) :
    addMissing (loopOf p) n = loopOf (p.absorb n) := by
  unfold addMissing Progress.absorb
  show (if n = p.current.last + 1 then _ else _) = loopOf (if n = p.current.last + 1 then _ else _)
  by_cases hnext : n = p.current.last + 1
  · rw [if_pos hnext, if_pos hnext, hnext]
    rfl
  · rw [if_neg hnext, if_neg hnext]
    simp [loopOf, Progress.spans, spanText, Span.single]

theorem formatMissing_eq (lines : List ℤ) :
    formatMissing lines = (str ", ").intercalate ((compress lines).map spanText) := by
  cases lines with
  | nil => rfl
  | cons first rest =>
      have hloop : rest.foldl addMissing (loopOf (Progress.start first)) =
          loopOf (rest.foldl Progress.absorb (Progress.start first)) :=
        List.foldl_hom loopOf addMissing_loopOf
      have hstart : (⟨[], first, first⟩ : MissingLoop) = loopOf (Progress.start first) := rfl
      simp only [formatMissing, hstart, hloop]
      rw [compress, Progress.spans, List.map_append]
      rfl

/-! ### Reading a part back -/

def partOf (s : Span) : MissingPart :=
  if s.first = s.last then .single s.first else .range s.first s.last

variable {s : Span}

theorem expand_partOf : (partOf s).expand = s.toList := by
  unfold partOf
  split
  · rename_i hone
    have hs : s = Span.single s.first := by
      cases s
      simp only at hone
      subst hone
      rfl
    rw [hs, Span.toList_single]
    rfl
  · rfl

@[simp] theorem first_partOf : (partOf s).first = s.first := by
  unfold partOf
  split <;> rfl

@[simp] theorem last_partOf : (partOf s).last = s.last := by
  unfold partOf
  split
  · rename_i hone
    exact hone
  · rfl

theorem lt_of_partOf {a b : ℤ} (h : partOf s = .range a b) : a < b := by
  unfold partOf at h
  split at h
  · cases h
  · rename_i hne
    cases h
    exact lt_of_le_of_ne s.first_le_last hne

theorem digit_plain {n : ℕ} {c : CodePoint} (hc : c ∈ decimal n) :
    isSpace c = false ∧ c ≠ 0x2c ∧ c ≠ 0x2d := by
  obtain ⟨d, hd, rfl⟩ := exists_digit_of_mem_decimal hc
  interval_cases d <;> decide

theorem readNumber_decimal (n : ℕ) : readNumber (decimal n) = some (n : ℤ) := by
  have hempty : (decimal n).isEmpty = false := by
    rw [List.isEmpty_eq_false_iff]
    exact Json.decimal_ne_nil n
  have hdigits : (decimal n).all Json.isDigit = true :=
    List.all_eq_true.2 Json.isDigit_of_mem_decimal
  rw [readNumber, hempty, hdigits, Json.digitsValue_decimal]
  rfl

theorem exists_spanText (h : 0 < s.first) :
    (∃ n : ℕ, spanText s = decimal n ∧ partOf s = .single n) ∨
      ∃ a b : ℕ, spanText s = decimal a ++ str "-" ++ decimal b ∧ partOf s = .range a b := by
  have hle := s.first_le_last
  obtain ⟨a, ha⟩ := Int.eq_ofNat_of_zero_le h.le
  obtain ⟨b, hb⟩ := Int.eq_ofNat_of_zero_le (h.le.trans hle)
  unfold spanText missingPart partOf
  by_cases hone : s.first = s.last
  · rw [if_pos hone, if_pos hone, ha]
    exact .inl ⟨a, rfl, rfl⟩
  · rw [if_neg hone, if_neg hone, ha, hb]
    exact .inr ⟨a, b, rfl, rfl⟩

theorem readPart_spanText (h : 0 < s.first) : readPart (spanText s) = some (partOf s) := by
  have hdash : ∀ n, (0x2d : CodePoint) ∉ decimal n := fun n hmem => (digit_plain hmem).2.2 rfl
  obtain ⟨n, htext, hpart⟩ | ⟨a, b, htext, hpart⟩ := exists_spanText h
  · rw [htext, hpart, readPart, List.splitOn_eq_singleton (hdash n), List.map_singleton,
      readNumber_decimal]
  · have hsplit : (decimal a ++ str "-" ++ decimal b).splitOn 0x2d = [decimal a, decimal b] := by
      have hjoin : decimal a ++ str "-" ++ decimal b = decimal a ++ 0x2d :: decimal b :=
        List.append_assoc _ _ _
      rw [hjoin, List.splitOn_append_cons_self_of_not_mem (hdash a),
        List.splitOn_eq_singleton (hdash b)]
    rw [htext, hpart, readPart, hsplit, List.map_cons, List.map_singleton, readNumber_decimal,
      readNumber_decimal]

/-! ### Reading the whole text back -/

theorem spanText_plain (h : 0 < s.first) :
    spanText s ≠ [] ∧ ∀ c ∈ spanText s, isSpace c = false ∧ c ≠ 0x2c := by
  obtain ⟨n, htext, -⟩ | ⟨a, b, htext, -⟩ := exists_spanText h
  · rw [htext]
    exact ⟨Json.decimal_ne_nil n, fun c hc => ⟨(digit_plain hc).1, (digit_plain hc).2.1⟩⟩
  · rw [htext]
    refine ⟨by simp [Json.decimal_ne_nil], fun c hc => ?_⟩
    simp only [List.mem_append] at hc
    obtain (hc | hc) | hc := hc
    · exact ⟨(digit_plain hc).1, (digit_plain hc).2.1⟩
    · rw [List.mem_singleton.1 hc]
      decide
    · exact ⟨(digit_plain hc).1, (digit_plain hc).2.1⟩

theorem commaParts_intercalate {texts : List Str}
    (h : ∀ text ∈ texts, text ≠ [] ∧ ∀ c ∈ text, isSpace c = false ∧ c ≠ 0x2c) :
    commaParts ((str ", ").intercalate texts) = texts := by
  cases texts with
  | nil => rfl
  | cons first rest =>
      have hseparator : str ", " = [0x2c, 0x20] := rfl
      have hcomma : ∀ text ∈ first :: rest, (0x2c : CodePoint) ∉ text := fun text htext hmem =>
        ((h text htext).2 _ hmem).2 rfl
      have hstrip : ∀ text ∈ first :: rest, strip text = text := fun text htext =>
        (trimmed_of_forall fun c hc => ((h text htext).2 c hc).1).strip_eq
      have hspace : Blank [0x20] := by
        intro c hc
        rw [List.mem_singleton.1 hc]
        rfl
      have hne : ((str ", ").intercalate (first :: rest)).isEmpty = false := by
        rw [List.isEmpty_eq_false_iff]
        intro hnil
        have hfirst := (h first List.mem_cons_self).1
        cases rest with
        | nil => exact hfirst (by simpa using hnil)
        | cons next rest =>
            rw [List.intercalate_cons_cons] at hnil
            simp [hfirst] at hnil
      rw [commaParts, hne, if_neg Bool.false_ne_true, hseparator,
        splitOn_intercalate_space (by decide) hcomma, List.map_cons, List.map_map,
        hstrip first List.mem_cons_self]
      apply congrArg (first :: ·)
      calc rest.map (strip ∘ (0x20 :: ·))
          = rest.map id := by
            apply List.map_congr_left
            intro text htext
            have hlead : strip (0x20 :: text) = strip text := hspace.strip_append text
            rw [Function.comp_apply, hlead, hstrip text (List.mem_cons_of_mem _ htext), id]
        _ = rest := List.map_id rest

theorem first_pos {lines : List ℤ} (h : ∀ n ∈ lines, 0 < n) :
    ∀ s ∈ compress lines, 0 < s.first := by
  intro s hs
  apply h
  rw [← expand_compress lines, mem_expand]
  exact ⟨s, hs, le_rfl, s.first_le_last⟩

/-- What is read are the spans. -/
theorem readParts_formatMissing {lines : List ℤ} (h : ∀ n ∈ lines, 0 < n) :
    (commaParts (formatMissing lines)).map readPart =
      ((compress lines).map partOf).map some := by
  have hpos := first_pos h
  have hparts : commaParts (formatMissing lines) = (compress lines).map spanText := by
    rw [formatMissing_eq]
    apply commaParts_intercalate
    intro text htext
    obtain ⟨s, hs, rfl⟩ := List.mem_map.1 htext
    exact spanText_plain (hpos s hs)
  rw [hparts, List.map_map, List.map_map]
  apply List.map_congr_left
  intro s hs
  exact readPart_spanText (hpos s hs)

theorem canonicalParts_compress {lines : List ℤ} (h : lines.Pairwise (· < ·)) :
    CanonicalParts lines ((compress lines).map partOf) := by
  have hapart := compress_pairwise h
  have hmaximal : ∀ s ∈ compress lines, s.first - 1 ∉ lines ∧ s.last + 1 ∉ lines := by
    intro s hs
    have hends := not_mem_expand hapart hs
    rwa [expand_compress] at hends
  refine ⟨?_, fun a b hmem => ?_, ?_, fun part hpart => ?_⟩
  · rw [List.flatMap_map]
    simp only [expand_partOf]
    exact expand_compress lines
  · obtain ⟨s, -, hs⟩ := List.mem_map.1 hmem
    exact lt_of_partOf hs
  · rw [List.isChain_map]
    apply List.Pairwise.isChain
    apply hapart.imp_of_mem
    intro s t hs ht hst
    refine ⟨s.last + 1, (hmaximal s hs).2, ?_, ?_⟩
    · rw [last_partOf]
      exact Int.lt_succ s.last
    · rw [first_partOf]
      exact hst
  · obtain ⟨s, hs, rfl⟩ := List.mem_map.1 hpart
    rw [first_partOf, last_partOf]
    exact hmaximal s hs

/-- The text of an increasing list of positive integers has parts that can be
read, and these are the runs of the list. -/
theorem formatMissing_lossless {lines : List ℤ} (hpos : ∀ n ∈ lines, 0 < n)
    (hincreasing : lines.Pairwise (· < ·)) :
    ∃ parts : List MissingPart,
      (commaParts (formatMissing lines)).map readPart = parts.map some ∧
        CanonicalParts lines parts :=
  ⟨_, readParts_formatMissing hpos, canonicalParts_compress hincreasing⟩

theorem formatMissing_lossless_threeParts :
    ∃ parts : List MissingPart,
      (commaParts (formatMissing [1, 2, 3, 7, 10, 11])).map readPart = parts.map some ∧
        CanonicalParts [1, 2, 3, 7, 10, 11] parts :=
  formatMissing_lossless (by decide) (by decide)

theorem missingColumn_canonical (source : Str) (ranges : List CoverageRange) :
    ∃ summary parts, summarize source (lineCoverage source ranges) = some summary ∧
      Summarizes source (lineCoverage source ranges) summary ∧
      (commaParts (formatMissing summary.missing)).map readPart = parts.map some ∧
        CanonicalParts summary.missing parts := by
  obtain ⟨summary, hsummary, hsound⟩ :=
    exists_summary (length_linesCovered ranges 0 (source.splitOn 0x0a))
  have hpos : ∀ n ∈ summary.missing, 0 < n := by
    intro n hn
    obtain ⟨i, line, rfl, -⟩ := (hsound.mem_missing n).1 hn
    omega
  exact ⟨summary, _, hsummary, hsound, readParts_formatMissing hpos,
    canonicalParts_compress hsound.increasing⟩

end TictactoeBots
