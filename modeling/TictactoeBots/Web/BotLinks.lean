import TictactoeBots.Lib.HtmlAttribute
import TictactoeBots.Lib.SplitPositions
import TictactoeBots.Lib.UrlPath
import TictactoeBots.Web.VersionNames

/-!
The links to the pages of the bots.

The templates put a base name into `href="/bots/..."` as they put any text into
a page, escaped for HTML but not for a URL. What a link leads to is the route
that the path of its request gets to. Of the URL handling of browsers there is
what concerns every path; that some of them read a backslash as a slash or drop
tabs is left aside.
-/

namespace TictactoeBots

open Text Python

/-! ### Routes -/

inductive PathPart where
  | literal (text : Str)
  /-- One segment that is not empty. -/
  | parameter
  /-- Everything below a mounted directory. -/
  | below

/-- What the `GET` routes of `web.main` lead to. -/
inductive Endpoint where
  | static
  | health
  | home
  | submitForm
  | play
  | playVs
  | leaderboard
  | dashboard
  | recentMatches
  | botFamily
  | matchDetail
  | botMatchDetail

/-- The routes in the order in which they are tried. -/
def getRoutes : List (List PathPart × Endpoint) :=
  [ ([.literal (str "static"), .below], .static),
    ([.literal (str "health")], .health),
    ([.literal []], .home),
    ([.literal (str "submit")], .submitForm),
    ([.literal (str "play")], .play),
    ([.literal (str "play"), .literal (str "vs"), .parameter], .playVs),
    ([.literal (str "leaderboard")], .leaderboard),
    ([.literal (str "dashboard")], .dashboard),
    ([.literal (str "matches")], .recentMatches),
    ([.literal (str "bots"), .parameter], .botFamily),
    ([.literal (str "matches"), .parameter], .matchDetail),
    ([.literal (str "bots"), .parameter, .literal (str "matches"), .parameter], .botMatchDetail) ]

/-- The parameters of a route that matches the segments. -/
def matchParts : List PathPart → List Str → Option (List Str)
  | [], [] => some []
  | [.below], _ :: _ => some []
  | .literal text :: parts, segment :: segments =>
      if segment = text then matchParts parts segments else none
  | .parameter :: parts, segment :: segments =>
      if segment = [] then none else (matchParts parts segments).map (segment :: ·)
  | _, _ => none

/-- The route that a decoded path gets to, with its parameters. -/
def routeOf (path : Str) : Option (Endpoint × List Str) :=
  getRoutes.findSome? fun (parts, endpoint) =>
    (matchParts parts (path.splitOn 0x2f).tail).map (endpoint, ·)

/-! ### Links -/

/-- The value of `href` and what follows it: the templates put the base name behind
`/bots/`, and the page goes on with `after`. -/
def botLink (baseName after : Str) : Str :=
  str "/bots/" ++ Html.escape baseName ++ str "\">" ++ after

def linkedPage (baseName after : Str) : Option (Endpoint × List Str) :=
  routeOf (Utf8.unquote (Url.requestPath (Html.attributeValue (botLink baseName after))))

/-- An upload with the name ends in the success page. -/
def UploadAccepted (py : Interpreter) (baseName : Str) : Prop :=
  ∃ faults rows drawn now upload w w' message ownedBots row,
    handleSubmission py faults rows drawn now upload w = (w', .ok (.success message ownedBots)) ∧
      w'.db.bots = w.db.bots ++ [row] ∧ row.baseName = baseName

/-- The name means the same in a URL. -/
structure UrlSafe (name : Str) : Prop where
  noDelimiter : ∀ c ∈ name, c ≠ 0x3f ∧ c ≠ 0x23 ∧ c ≠ 0x2f
  notDots : name ≠ str "." ∧ name ≠ str ".."
  noEscape : Url.hasEscape name = false

theorem urlSafe_iff {name : Str} :
    (name.all fun c => c != 0x3f && c != 0x23 && c != 0x2f) = true ∧
      (name ≠ str "." ∧ name ≠ str "..") ∧ Url.hasEscape name = false ↔ UrlSafe name := by
  have hall : (name.all fun c => c != 0x3f && c != 0x23 && c != 0x2f) = true ↔
      ∀ c ∈ name, c ≠ 0x3f ∧ c ≠ 0x23 ∧ c ≠ 0x2f := by
    simp only [List.all_eq_true, Bool.and_eq_true, bne_iff_ne, and_assoc]
  rw [hall]
  exact ⟨fun ⟨h, hdots, hescape⟩ => ⟨h, hdots, hescape⟩,
    fun ⟨h, hdots, hescape⟩ => ⟨h, hdots, hescape⟩⟩

instance (name : Str) : Decidable (UrlSafe name) := decidable_of_iff _ urlSafe_iff

/-- The link leads to the page of the bot. -/
def LinkWorks (baseName : Str) : Prop :=
  ∀ after, linkedPage baseName after = some (.botFamily, [baseName])

/-- All of the links lead to their pages, and no two of them to the same one. -/
structure LinksWork (names : Set Str) : Prop where
  works : ∀ name ∈ names, LinkWorks name
  distinct : ∀ name ∈ names, ∀ other ∈ names, name ≠ other →
    ∀ after after', linkedPage name after ≠ linkedPage other after'

/-! ### Where a path leads -/

theorem splitOn_bots (rest : Str) :
    (str "/bots/" ++ rest).splitOn 0x2f = [] :: str "bots" :: rest.splitOn 0x2f := by
  have hbots : (0x2f : CodePoint) ∉ str "bots" := by decide
  have htext : str "/bots/" ++ rest = [] ++ 0x2f :: (str "bots" ++ 0x2f :: rest) := rfl
  rw [htext, List.splitOn_append_cons_self_of_not_mem List.not_mem_nil,
    List.splitOn_append_cons_self_of_not_mem hbots]

theorem routeOf_bots {name : Str} (hne : name ≠ []) (hslash : (0x2f : CodePoint) ∉ name) :
    routeOf (str "/bots/" ++ name) = some (.botFamily, [name]) := by
  obtain ⟨c, rest, rfl⟩ := List.exists_cons_of_ne_nil hne
  rw [routeOf, splitOn_bots, List.splitOn_eq_singleton hslash]
  rfl

theorem eq_of_matchParts {text : Str} {segments params : List Str}
    (h : matchParts [.literal text, .parameter] segments = some params) :
    ∃ segment, segments = [text, segment] ∧ params = [segment] := by
  match segments with
  | [] => cases h
  | [first] =>
      simp only [matchParts] at h
      split at h <;> cases h
  | first :: segment :: rest =>
      simp only [matchParts] at h
      split at h
      · rename_i hfirst
        split at h
        · cases h
        · obtain ⟨found, hfound, rfl⟩ := Option.map_eq_some_iff.1 h
          cases rest with
          | nil =>
              cases hfound
              exact ⟨segment, by rw [hfirst], rfl⟩
          | cons third rest => cases hfound
      · cases h

theorem segments_of_routeOf {path : Str} {params : List Str}
    (h : routeOf path = some (.botFamily, params)) :
    ∃ name, (path.splitOn 0x2f).tail = [str "bots", name] ∧ params = [name] := by
  obtain ⟨⟨parts, endpoint⟩, hmem, hroute⟩ := List.exists_of_findSome?_eq_some h
  obtain ⟨found, hfound, heq⟩ := Option.map_eq_some_iff.1 hroute
  obtain ⟨rfl, rfl⟩ := Prod.mk.inj heq
  simp only [getRoutes, List.mem_cons, Prod.mk.injEq, List.not_mem_nil, or_false, reduceCtorEq,
    and_false, and_true, false_or] at hmem
  subst hmem
  exact eq_of_matchParts hfound

theorem path_of_routeOf {path name : Str} (h : routeOf path = some (.botFamily, [name])) :
    (0x2f : CodePoint) ∉ name ∧ (str "/bots/").length + name.length ≤ path.length := by
  obtain ⟨segment, hsegments, hparams⟩ := segments_of_routeOf h
  obtain rfl := (List.cons.inj hparams).1
  obtain ⟨first, rest, hsplit⟩ := SplitPositions.exists_splitOn_cons 0x2f path
  rw [hsplit, List.tail_cons] at hsegments
  rw [hsegments] at hsplit
  constructor
  · have hmem : name ∈ path.splitOn 0x2f := by
      rw [hsplit]
      simp
    exact SplitPositions.not_mem_of_mem_splitOn hmem
  · have hpath : [0x2f].intercalate (path.splitOn 0x2f) = path := List.intercalate_splitOn 0x2f
    have hlength : (str "/bots/").length = (str "bots").length + 2 := rfl
    rw [hsplit] at hpath
    rw [← hpath, hlength]
    simp [List.intercalate, List.intersperse]
    omega

/-! ### From the link to the path -/

theorem linkedPage_eq (baseName after : Str) :
    linkedPage baseName after =
      routeOf (Utf8.unquote (Url.requestPath (str "/bots/" ++ baseName))) := by
  have hlink : botLink baseName after =
      Html.escape (str "/bots/" ++ baseName) ++ 0x22 :: (str ">" ++ after) := by
    have hbots : Html.escape (str "/bots/") = str "/bots/" := by decide
    have hend : str "\">" = [0x22] ++ str ">" := rfl
    rw [botLink, Html.escape_append, hbots, hend]
    simp only [List.append_assoc, List.cons_append, List.nil_append]
  rw [linkedPage, hlink, Html.attributeValue_escape]

theorem requestPath_bots {name : Str} (hslash : (0x2f : CodePoint) ∉ name) :
    Url.requestPath (str "/bots/" ++ name) =
      Url.encodePath (
        if Url.withoutQuery name = str ".." then str "/"
        else if Url.withoutQuery name = str "." then str "/bots/"
        else str "/bots/" ++ Url.withoutQuery name) := by
  have hcut : Url.withoutQuery (str "/bots/" ++ name) =
      str "/bots/" ++ Url.withoutQuery name := rfl
  have hrest : (0x2f : CodePoint) ∉ Url.withoutQuery name := fun h =>
    hslash ((List.takeWhile_sublist _).mem h)
  rw [Url.requestPath, hcut, splitOn_bots, List.splitOn_eq_singleton hrest, List.tail_cons]
  have hresolve : Url.resolveDots [] [str "bots", Url.withoutQuery name] =
      if Url.withoutQuery name = str ".." then [[]]
      else if Url.withoutQuery name = str "." then [str "bots", []]
      else [str "bots", Url.withoutQuery name] := rfl
  rw [hresolve]
  split_ifs
  · rfl
  · rfl
  · have hjoin : (str "/").intercalate [str "bots", Url.withoutQuery name] =
        str "bots" ++ (str "/" ++ Url.withoutQuery name) := by
      simp [List.intercalate, List.intersperse]
    rw [hjoin]
    rfl

theorem scalar_bots {name : Str} (h : Scalar name) : Scalar (str "/bots/" ++ name) := by
  have hbots : str "/bots/" = [0x2f, 0x62, 0x6f, 0x74, 0x73, 0x2f] := rfl
  intro c hc
  rw [hbots] at hc
  obtain hc | hc := List.mem_append.1 hc
  · simp only [List.mem_cons, List.not_mem_nil, or_false] at hc
    rcases hc with rfl | rfl | rfl | rfl | rfl | rfl <;> decide
  · exact h c hc

theorem linkWorks_of_urlSafe {name : Str} (hne : name ≠ []) (hscalar : Scalar name)
    (h : UrlSafe name) : LinkWorks name := by
  intro after
  have hslash : (0x2f : CodePoint) ∉ name := fun hmem => (h.noDelimiter _ hmem).2.2 rfl
  have hcut : Url.withoutQuery name = name := by
    rw [Url.withoutQuery, List.takeWhile_eq_self_iff]
    intro c hc
    obtain ⟨hquestion, hhash, -⟩ := h.noDelimiter c hc
    simp [hquestion, hhash]
  have hescape : Url.hasEscape (str "/bots/" ++ name) = false := h.noEscape
  rw [linkedPage_eq, requestPath_bots hslash, hcut, if_neg h.notDots.2, if_neg h.notDots.1,
    Url.unquote_encodePath_of_not_hasEscape (scalar_bots hscalar) hescape, routeOf_bots hne hslash]

/-- A path that is as long as the link has lost nothing on its way. -/
theorem urlSafe_of_linkWorks {name : Str} (hscalar : Scalar name) (h : LinkWorks name) :
    UrlSafe name := by
  have hroute := h []
  rw [linkedPage_eq] at hroute
  obtain ⟨hslash, hlength⟩ := path_of_routeOf hroute
  have hsix : (str "/bots/").length = 6 := rfl
  have hsub : (Url.withoutQuery name).Sublist name := List.takeWhile_sublist _
  have hcutScalar : Scalar (Url.withoutQuery name) := fun c hc => hscalar c (hsub.mem hc)
  have hcut := hsub.length_le
  rw [requestPath_bots hslash, hsix] at hlength
  split_ifs at hlength with hparent hself
  · have hread : (Utf8.unquote (Url.encodePath (str "/"))).length = 1 := by decide
    omega
  · have hread : (Utf8.unquote (Url.encodePath (str "/bots/"))).length = 6 := by decide
    have hone : (Url.withoutQuery name).length = 1 := by rw [hself]; rfl
    omega
  · have hread := Url.length_unquote_encodePath (scalar_bots hcutScalar)
    rw [List.length_append, hsix] at hread
    have hwhole : Url.withoutQuery name = name := hsub.eq_of_length_le (by omega)
    rw [hwhole] at hparent hself hread hlength
    refine ⟨fun c hc => ?_, ⟨hself, hparent⟩, ?_⟩
    · have hkept := List.takeWhile_eq_self_iff.1 hwhole c hc
      simp only [ne_eq, Bool.and_eq_true, decide_eq_true_eq] at hkept
      refine ⟨hkept.1, hkept.2, ?_⟩
      rintro rfl
      exact hslash hc
    · rw [Bool.eq_false_iff]
      intro hescape
      have hsame : Url.hasEscape (str "/bots/" ++ name) = true := hescape
      rw [if_pos hsame] at hread
      omega

/-! ### Accepted names -/

theorem UploadAccepted.valid {py : Interpreter} {name : Str} (h : UploadAccepted py name) :
    name ≠ [] ∧ Scalar name := by
  obtain ⟨_, _, _, _, _, _, _, _, _, row, hrun, hrow, rfl⟩ := h
  obtain ⟨valid, token, hprepare, hinserted⟩ := handleSubmission_success hrun
  obtain ⟨⟨name, -, hvalid⟩, -⟩ := prepare_valid hprepare
  have hsame : row = nextRow _ _ valid token :=
    List.singleton_injective (List.append_cancel_left (hrow.symm.trans hinserted.bots))
  have hname : row.baseName = valid.botName := by rw [hsame]; rfl
  have hstorable : storable valid.botName :=
    List.all_eq_true.1 hinserted.admitted.1 valid.botName List.mem_cons_self
  rw [hname]
  refine ⟨(validateBotName_eq_ok hvalid).2.1, fun c hc => ?_⟩
  exact (storable_iff.1 hstorable c hc).2

/-- The links of accepted names lead to their pages, distinct ones to distinct
pages, exactly if every name means the same in a URL. -/
theorem linksWork_iff (py : Interpreter) (names : Set Str)
    (haccepted : ∀ name ∈ names, UploadAccepted py name) :
    LinksWork names ↔ ∀ name ∈ names, UrlSafe name := by
  constructor
  · rintro ⟨hworks, -⟩ name hname
    exact urlSafe_of_linkWorks (haccepted name hname).valid.2 (hworks name hname)
  · intro hsafe
    have hworks : ∀ name ∈ names, LinkWorks name := fun name hname =>
      linkWorks_of_urlSafe (haccepted name hname).valid.1 (haccepted name hname).valid.2
        (hsafe name hname)
    refine ⟨hworks, fun name hname other hother hne after after' heq => hne ?_⟩
    rw [hworks name hname after, hworks other hother after'] at heq
    simpa using heq

/-- An upload with nothing but a name in its docstring. -/
def uploadNamed (name : String) : Upload :=
  ⟨asciiBytes ("\"\"\"name: " ++ name ++ "\"\"\""), none⟩

theorem uploadAccepted_of_run {name : String} {w : Backend} {message : Str}
    {ownedBots : List (Str × PyValue)} {row : BotRow}
    (hrun : handleSubmission literalModules ⟨none, none, none, none, none⟩ []
      (plainToken 0x61 rfl) 0 (uploadNamed name) Backend.empty =
        (w, .ok (.success message ownedBots)))
    (hrow : w.db.bots = [row]) (hname : row.baseName = str name) :
    UploadAccepted literalModules (str name) :=
  ⟨_, _, _, _, _, _, _, _, _, row, hrun, hrow, hname⟩

/-- A percent sign that is no escape does no harm. -/
theorem linksWork_iff_percentSign : LinksWork {str "50% off", str "Foo"} := by
  have hoff : UploadAccepted literalModules (str "50% off") := uploadAccepted_of_run rfl rfl rfl
  have hfoo : UploadAccepted literalModules (str "Foo") := uploadAccepted_of_run rfl rfl rfl
  refine (linksWork_iff literalModules _ ?_).2 ?_
  · rintro _ (rfl | rfl)
    · exact hoff
    · exact hfoo
  · rintro _ (rfl | rfl) <;> decide

/-- A question mark cuts the name off, and the links of two bots lead to the page
of neither. -/
theorem questionMark_misleads :
    UploadAccepted literalModules (str "a?b") ∧ UploadAccepted literalModules (str "a?c") ∧
      ¬LinksWork {str "a?b", str "a?c"} ∧
      ∀ after, linkedPage (str "a?b") after = linkedPage (str "a?c") after := by
  refine ⟨uploadAccepted_of_run rfl rfl rfl, uploadAccepted_of_run rfl rfl rfl, fun h => ?_,
    fun after => ?_⟩
  · have hpage : linkedPage (str "a?b") [] = some (.botFamily, [str "a"]) := rfl
    have hname := (h.works (str "a?b") (.inl rfl) []).symm.trans hpage
    simp only [Option.some.injEq, Prod.mk.injEq, List.cons.injEq, and_true, true_and] at hname
    exact absurd hname (by decide)
  · rw [linkedPage_eq, linkedPage_eq]
    rfl

end TictactoeBots
