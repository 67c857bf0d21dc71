import TictactoeBots.Scripts.JsCoverage

/-!
Merging the coverage of many runs.

The merged ranges are those of all files, one file after the other, and the
innermost of them decides. So the files compete: a file that did not execute a
character hides one that did, if its innermost range is smaller, or as small and
read later. Only where some executing file is not hidden is the merge a union.
-/

namespace TictactoeBots

open Text LastLeast

/-! ### The aggregation -/

/-- One entry of a V8 coverage file. A missing `url` is read as the empty text,
and missing `functions` or `ranges` as empty lists. -/
structure CoverageEntry where
  url : Str
  source : Option Str
  functions : List (List CoverageRange)

/-- The value of `by_path` for one path. -/
structure CoverageSlot where
  source : Str
  ranges : List CoverageRange

def flattenRanges (entry : CoverageEntry) : List CoverageRange := entry.functions.flatten

def urlPath (url : Str) : Str :=
  match splitFirst (str "://") url with
  | none => url
  | some (_, afterScheme) =>
      match splitFirst (str "/") afterScheme with
      | none => str "/"
      | some (_, path) => str "/" ++ path

variable (filterPrefix filterSuffix : Str)

/-- The path under which an entry is filed, with its source; `none` for an entry
that is skipped. -/
def filedUnder (entry : CoverageEntry) : Option (Str × Str) :=
  let path := urlPath entry.url
  match splitFirst filterPrefix path with
  | none => none
  | some (_, rest) =>
      if !filterSuffix.isSuffixOf path then none
      else
        match entry.source with
        | none | some [] => none
        | some source => some (filterPrefix ++ rest, source)

/-- The body of the inner loop of `aggregate_entries`. -/
def addEntry (byPath : AList fun _ : Str => CoverageSlot) (entry : CoverageEntry) :
    AList fun _ : Str => CoverageSlot :=
  match filedUnder filterPrefix filterSuffix entry with
  | none => byPath
  | some (normalized, source) =>
      let slot := (byPath.lookup normalized).getD ⟨source, []⟩
      byPath.insert normalized { slot with ranges := slot.ranges ++ flattenRanges entry }

/-- `files` are the parsed coverage files. -/
def aggregateEntries (files : List (List CoverageEntry)) : AList fun _ : Str => CoverageSlot :=
  files.foldl (fun byPath entries => entries.foldl (addEntry filterPrefix filterSuffix) byPath) ∅

example : (aggregateEntries (str "/static/") (str ".mjs")
    [[⟨str "http://localhost/static/play.mjs", some (str "x;"), [[⟨0, 2, 1⟩]]⟩,
      ⟨str "http://localhost/static/style.css", some (str "z;"), []⟩]]).keys =
    [str "/static/play.mjs"] := by decide

/-! ### What is covered -/

/-- `line_coverage` marks the line, for the source and the ranges that are filed
under `path`. -/
def LineCovered (byPath : AList fun _ : Str => CoverageSlot) (path : Str) (line : ℕ) : Prop :=
  ∃ slot ∈ byPath.lookup path, (lineCoverage slot.source slot.ranges)[line]? = some true

/-- The lines covered after the merge are those that a file covers by itself. -/
def MergesAsUnion (files : List (List CoverageEntry)) (path : Str) : Prop :=
  ∀ line, LineCovered (aggregateEntries filterPrefix filterSuffix files) path line ↔
    ∃ file ∈ files, LineCovered (aggregateEntries filterPrefix filterSuffix [file]) path line

/-- All that is filed under `path` has this source. -/
def SameSource (files : List (List CoverageEntry)) (path source : Str) : Prop :=
  ∀ file ∈ files, ∀ entry ∈ file, ∀ other,
    filedUnder filterPrefix filterSuffix entry = some (path, other) → other = source

def rangesFor (path : Str) (file : List CoverageEntry) : List CoverageRange :=
  file.flatMap fun entry =>
    if (filedUnder filterPrefix filterSuffix entry).map Prod.fst = some path then
      flattenRanges entry
    else []

/-- Two ranges are nested or apart. -/
def CoverageRange.Nests (r s : CoverageRange) : Prop :=
  r.stop ≤ s.start ∨ s.stop ≤ r.start ∨ (r.start ≤ s.start ∧ s.stop ≤ r.stop) ∨
    (s.start ≤ r.start ∧ r.stop ≤ s.stop)

instance (r s : CoverageRange) : Decidable (r.Nests s) :=
  inferInstanceAs (Decidable (_ ∨ _ ∨ _ ∨ _))

/-- In some run the innermost range over the character has a positive count, and
no other run hides it: where the innermost range of another run has none, that
range is not smaller, and if the run comes later, not as small either. -/
def PrevailsAt (runs : List (List CoverageRange)) (offset : ℤ) : Prop :=
  ∃ before run after r, runs = before ++ run :: after ∧ IsInnermost run offset r ∧ 0 < r.count ∧
    (∀ other ∈ before, ∀ s, IsInnermost other offset s → s.count ≤ 0 → r.size ≤ s.size) ∧
    ∀ other ∈ after, ∀ s, IsInnermost other offset s → s.count ≤ 0 → r.size < s.size

def ExecutedAt (run : List CoverageRange) (offset : ℤ) : Prop :=
  ∃ r, IsInnermost run offset r ∧ 0 < r.count

/-! ### What is filed -/

section Filed

variable {filterPrefix filterSuffix : Str}

def slotRanges (byPath : AList fun _ : Str => CoverageSlot) (path : Str) : List CoverageRange :=
  ((byPath.lookup path).map CoverageSlot.ranges).getD []

theorem slotRanges_addEntry (byPath : AList fun _ : Str => CoverageSlot) (entry : CoverageEntry)
    (path : Str) :
    slotRanges (addEntry filterPrefix filterSuffix byPath entry) path =
      slotRanges byPath path ++ rangesFor filterPrefix filterSuffix path [entry] := by
  unfold addEntry
  cases hfiled : filedUnder filterPrefix filterSuffix entry with
  | none => simp [rangesFor, hfiled]
  | some filed =>
      obtain ⟨normalized, source⟩ := filed
      by_cases hpath : normalized = path
      · subst hpath
        cases hslot : byPath.lookup normalized <;>
          simp [slotRanges, rangesFor, hfiled, hslot]
      · have hne : path ≠ normalized := fun h => hpath h.symm
        simp [slotRanges, rangesFor, hfiled, hpath, AList.lookup_insert_ne hne]

theorem slotRanges_foldl (entries : List CoverageEntry)
    (byPath : AList fun _ : Str => CoverageSlot) (path : Str) :
    slotRanges (entries.foldl (addEntry filterPrefix filterSuffix) byPath) path =
      slotRanges byPath path ++ rangesFor filterPrefix filterSuffix path entries := by
  induction entries generalizing byPath with
  | nil => simp [rangesFor]
  | cons entry entries ih =>
      rw [List.foldl_cons, ih, slotRanges_addEntry]
      simp [rangesFor]

theorem slotRanges_aggregateEntries (files : List (List CoverageEntry)) (path : Str) :
    slotRanges (aggregateEntries filterPrefix filterSuffix files) path =
      (files.map (rangesFor filterPrefix filterSuffix path)).flatten := by
  have hloop : ∀ byPath, slotRanges (files.foldl (fun byPath entries =>
      entries.foldl (addEntry filterPrefix filterSuffix) byPath) byPath) path =
      slotRanges byPath path ++ (files.map (rangesFor filterPrefix filterSuffix path)).flatten := by
    induction files with
    | nil => simp
    | cons file files ih =>
        intro byPath
        rw [List.foldl_cons, ih, slotRanges_foldl, List.map_cons, List.flatten_cons,
          List.append_assoc]
  exact hloop ∅

/-- Whatever is filed under `path` already has the given source. -/
def HasSource (byPath : AList fun _ : Str => CoverageSlot) (path source : Str) : Prop :=
  ∀ slot ∈ byPath.lookup path, slot.source = source

theorem HasSource.addEntry {byPath : AList fun _ : Str => CoverageSlot} {path source : Str}
    (h : HasSource byPath path source) {entry : CoverageEntry}
    (hentry : ∀ other, filedUnder filterPrefix filterSuffix entry = some (path, other) →
      other = source) :
    HasSource (addEntry filterPrefix filterSuffix byPath entry) path source := by
  unfold TictactoeBots.addEntry
  cases hfiled : filedUnder filterPrefix filterSuffix entry with
  | none => exact h
  | some filed =>
      obtain ⟨normalized, other⟩ := filed
      intro slot hslot
      by_cases hpath : normalized = path
      · subst hpath
        rw [AList.lookup_insert, Option.mem_some_iff] at hslot
        rw [← hslot]
        cases hold : byPath.lookup normalized with
        | none => exact hentry other hfiled
        | some old => exact h old hold
      · rw [AList.lookup_insert_ne fun heq => hpath heq.symm] at hslot
        exact h slot hslot

theorem hasSource_aggregateEntries {files : List (List CoverageEntry)} {path source : Str}
    (h : SameSource filterPrefix filterSuffix files path source) :
    HasSource (aggregateEntries filterPrefix filterSuffix files) path source := by
  rw [aggregateEntries, ← List.foldl_flatten]
  have hempty : HasSource ∅ path source := fun slot hslot => by cases hslot
  refine List.foldlRecOn (motive := fun byPath => HasSource byPath path source) _ _ hempty ?_
  intro byPath hkept entry hentry
  obtain ⟨file, hfile, hentry⟩ := List.mem_flatten.1 hentry
  exact hkept.addEntry (h file hfile entry hentry)

theorem lineCovered_byPath_iff {byPath : AList fun _ : Str => CoverageSlot} {path source : Str}
    {line : ℕ} (h : HasSource byPath path source) :
    LineCovered byPath path line ↔ ∃ offset, CodeAt source line offset ∧
      ∃ r, innermost offset (slotRanges byPath path) = some r ∧ 0 < r.count := by
  unfold LineCovered slotRanges
  cases hslot : byPath.lookup path with
  | none => simp [innermost, lastLeast]
  | some slot => simp [lineCoverage_eq_true_iff, h slot hslot]

end Filed

/-! ### Which run decides -/

theorem innermost_flatten (runs : List (List CoverageRange)) (offset : ℤ) :
    innermost offset runs.flatten =
      lastLeast CoverageRange.size (runs.filterMap (innermost offset)) := by
  rw [innermost, List.filter_flatten, lastLeast_flatten, List.filterMap_map]
  rfl

/-- The merged count is positive exactly when a run prevails. -/
theorem innermost_flatten_pos_iff {runs : List (List CoverageRange)} {offset : ℤ} :
    (∃ r, innermost offset runs.flatten = some r ∧ 0 < r.count) ↔ PrevailsAt runs offset := by
  rw [innermost_flatten]
  constructor
  · rintro ⟨r, hr, hcount⟩
    obtain ⟨front, back, heq, hfront, hback⟩ := lastLeast_eq_some_iff.1 hr
    obtain ⟨before, rest, rfl, rfl, hrest⟩ := List.filterMap_eq_append_iff.1 heq
    obtain ⟨skipped, run, after, rfl, hskipped, hrun, rfl⟩ := List.filterMap_eq_cons_iff.1 hrest
    refine ⟨before ++ skipped, run, after, r, by simp, innermost_eq_some_iff.1 hrun, hcount, ?_, ?_⟩
    · intro other hother s hs _
      rw [← innermost_eq_some_iff] at hs
      obtain hother | hother := List.mem_append.1 hother
      · exact hfront s (List.mem_filterMap.2 ⟨other, hother, hs⟩)
      · rw [hskipped other hother] at hs
        cases hs
    · intro other hother s hs _
      exact hback s (List.mem_filterMap.2 ⟨other, hother, innermost_eq_some_iff.2 hs⟩)
  · rintro ⟨before, run, after, r, rfl, hrun, hcount, hbefore, hafter⟩
    rw [List.filterMap_append, List.filterMap_cons_some (innermost_eq_some_iff.2 hrun)]
    obtain ⟨winner, hwinner⟩ : ∃ winner, lastLeast CoverageRange.size
        (before.filterMap (innermost offset) ++ r :: after.filterMap (innermost offset)) =
          some winner := by
      rw [← Option.ne_none_iff_exists', Ne, lastLeast_eq_none_iff]
      simp
    refine ⟨winner, hwinner, ?_⟩
    -- without a count the winner would hide `r`
    by_contra hzero
    rw [not_lt] at hzero
    obtain rfl | ⟨hmem, hlt⟩ | ⟨hmem, hle⟩ := lastLeast_append_cons hwinner
    · omega
    · obtain ⟨other, hother, hs⟩ := List.mem_filterMap.1 hmem
      have hsize := hbefore other hother winner (innermost_eq_some_iff.1 hs) hzero
      omega
    · obtain ⟨other, hother, hs⟩ := List.mem_filterMap.1 hmem
      have hsize := hafter other hother winner (innermost_eq_some_iff.1 hs) hzero
      omega

theorem lineCovered_aggregateEntries_iff {filterPrefix filterSuffix : Str}
    {files : List (List CoverageEntry)} {path source : Str} {line : ℕ}
    (h : SameSource filterPrefix filterSuffix files path source) :
    LineCovered (aggregateEntries filterPrefix filterSuffix files) path line ↔
      ∃ offset, CodeAt source line offset ∧
        PrevailsAt (files.map (rangesFor filterPrefix filterSuffix path)) offset := by
  rw [lineCovered_byPath_iff (hasSource_aggregateEntries h), slotRanges_aggregateEntries]
  simp only [innermost_flatten_pos_iff]

theorem prevailsAt_singleton {run : List CoverageRange} {offset : ℤ} :
    PrevailsAt [run] offset ↔ ExecutedAt run offset := by
  constructor
  · rintro ⟨before, found, after, r, heq, hr, hcount, -, -⟩
    have hmem : found ∈ [run] := heq ▸ by simp
    exact ⟨r, List.mem_singleton.1 hmem ▸ hr, hcount⟩
  · rintro ⟨r, hr, hcount⟩
    exact ⟨[], run, [], r, rfl, hr, hcount, by simp, by simp⟩

theorem PrevailsAt.executedAt {runs : List (List CoverageRange)} {offset : ℤ}
    (h : PrevailsAt runs offset) : ∃ run ∈ runs, ExecutedAt run offset := by
  obtain ⟨before, run, after, r, rfl, hr, hcount, -, -⟩ := h
  exact ⟨run, by simp, r, hr, hcount⟩

/-- Merging the files of one source is a union exactly when every line on which a
file executed a character has a character for which an executing file prevails. -/
theorem mergesAsUnion_iff (filterPrefix filterSuffix : Str) {files : List (List CoverageEntry)}
    {path source : Str} (h : SameSource filterPrefix filterSuffix files path source) :
    MergesAsUnion filterPrefix filterSuffix files path ↔
      ∀ line offset, CodeAt source line offset →
        (∃ file ∈ files, ExecutedAt (rangesFor filterPrefix filterSuffix path file) offset) →
        ∃ other, CodeAt source line other ∧
          PrevailsAt (files.map (rangesFor filterPrefix filterSuffix path)) other := by
  have halone : ∀ file ∈ files, ∀ line,
      LineCovered (aggregateEntries filterPrefix filterSuffix [file]) path line ↔
        ∃ offset, CodeAt source line offset ∧
          ExecutedAt (rangesFor filterPrefix filterSuffix path file) offset := by
    intro file hfile line
    have hsame : SameSource filterPrefix filterSuffix [file] path source := by
      intro other hother
      rw [List.mem_singleton.1 hother]
      exact h file hfile
    rw [lineCovered_aggregateEntries_iff hsame]
    simp only [List.map_cons, List.map_nil, prevailsAt_singleton]
  constructor
  · rintro hunion line offset hcode ⟨file, hfile, hexecuted⟩
    have hcovered := (hunion line).2
      ⟨file, hfile, (halone file hfile line).2 ⟨offset, hcode, hexecuted⟩⟩
    exact (lineCovered_aggregateEntries_iff h).1 hcovered
  · intro hprevails line
    rw [lineCovered_aggregateEntries_iff h]
    constructor
    · rintro ⟨offset, hcode, hprevailing⟩
      obtain ⟨run, hrun, hexecuted⟩ := hprevailing.executedAt
      obtain ⟨file, hfile, rfl⟩ := List.mem_map.1 hrun
      exact ⟨file, hfile, (halone file hfile line).2 ⟨offset, hcode, hexecuted⟩⟩
    · rintro ⟨file, hfile, hcovered⟩
      obtain ⟨offset, hcode, hexecuted⟩ := (halone file hfile line).1 hcovered
      exact hprevails line offset hcode ⟨file, hfile, hexecuted⟩

/-! ### Two runs of one page -/

/-- The file of a run of three lines that calls the function on the second line
`count` times. -/
def coverageOfRun (count : ℤ) : List CoverageEntry :=
  [⟨str "http://x/static/play.mjs", some (str "a;\nb;\nc;"), [[⟨0, 8, 1⟩], [⟨3, 5, count⟩]]⟩]

theorem sameSource_runs (counts : List ℤ) :
    SameSource (str "/static/") (str ".mjs") (counts.map coverageOfRun)
      (str "/static/play.mjs") (str "a;\nb;\nc;") := by
  intro file hfile entry hentry other hfiled
  obtain ⟨count, -, rfl⟩ := List.mem_map.1 hfile
  rw [List.mem_singleton.1 hentry] at hfiled
  have hsource : filedUnder (str "/static/") (str ".mjs")
      ⟨str "http://x/static/play.mjs", some (str "a;\nb;\nc;"), [[⟨0, 8, 1⟩], [⟨3, 5, count⟩]]⟩ =
        some (str "/static/play.mjs", str "a;\nb;\nc;") := rfl
  rw [hsource, Option.some.injEq, Prod.mk.injEq] at hfiled
  exact hfiled.2.symm

theorem mergesAsUnion_iff_runs :
    SameSource (str "/static/") (str ".mjs") ([1, 0].map coverageOfRun) (str "/static/play.mjs")
      (str "a;\nb;\nc;") ∧
    (MergesAsUnion (str "/static/") (str ".mjs") ([1, 0].map coverageOfRun)
        (str "/static/play.mjs") ↔
      ∀ line offset, CodeAt (str "a;\nb;\nc;") line offset →
        (∃ file ∈ [1, 0].map coverageOfRun,
          ExecutedAt (rangesFor (str "/static/") (str ".mjs") (str "/static/play.mjs") file) offset) →
        ∃ other, CodeAt (str "a;\nb;\nc;") line other ∧
          PrevailsAt (([1, 0].map coverageOfRun).map
            (rangesFor (str "/static/") (str ".mjs") (str "/static/play.mjs"))) other) :=
  ⟨sameSource_runs [1, 0], mergesAsUnion_iff _ _ (sameSource_runs [1, 0])⟩

/-- A run that calls the function covers its line; a second run that does not
call it uncovers the line again, unless its file is read first. -/
theorem idleRun_uncoversLine :
    let path := str "/static/play.mjs"
    let merged := fun counts : List ℤ =>
      aggregateEntries (str "/static/") (str ".mjs") (counts.map coverageOfRun)
    SameSource (str "/static/") (str ".mjs") ([1, 0].map coverageOfRun) path (str "a;\nb;\nc;") ∧
    (∀ file ∈ [1, 0].map coverageOfRun,
      (rangesFor (str "/static/") (str ".mjs") path file).Pairwise CoverageRange.Nests) ∧
    LineCovered (merged [1]) path 1 ∧ ¬LineCovered (merged [1, 0]) path 1 ∧
    LineCovered (merged [0, 1]) path 1 ∧
    ¬MergesAsUnion (str "/static/") (str ".mjs") ([1, 0].map coverageOfRun) path := by
  have hcovered : LineCovered (aggregateEntries (str "/static/") (str ".mjs")
      ([1].map coverageOfRun)) (str "/static/play.mjs") 1 := ⟨_, rfl, by decide⟩
  have huncovered : ¬LineCovered (aggregateEntries (str "/static/") (str ".mjs")
      ([1, 0].map coverageOfRun)) (str "/static/play.mjs") 1 := by
    rintro ⟨slot, hslot, hline⟩
    cases hslot
    exact absurd hline (by decide)
  refine ⟨sameSource_runs [1, 0], by decide, hcovered, huncovered, ⟨_, rfl, by decide⟩, ?_⟩
  intro hunion
  exact huncovered ((hunion 1).2 ⟨coverageOfRun 1, List.mem_cons_self, hcovered⟩)

end TictactoeBots
