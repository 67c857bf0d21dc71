import TictactoeBots.Web.Utils
import TictactoeBots.Entities.BotRepository
import TictactoeBots.Dispatcher.Pods

/-!
`POST /submit`: validating an upload, deciding who owns the name, inserting the
row, and telling the rest of the system about it.

The handler is cut at its awaits. `prepare` is everything before the first of
them; each database or broker call after that is a function of its own, which
`handleSubmission` runs in order, any of them failing as `Faults` says.
-/

namespace TictactoeBots

open Text Python

/-! ### Validation -/

/-- `_RESERVED_VERSION_SUFFIX.search(name)`: the name ends in a `V` and at least
one decimal digit. The name is stripped, so it does not end in a line feed. -/
def reservedVersionSuffix (U : UnicodeData) (name : Str) : Bool :=
  let reversed := name.reverse
  !(reversed.takeWhile U.isDecimal).isEmpty &&
    (reversed.dropWhile U.isDecimal).head? == some 0x56

/-- The complaint about the name, or the name. -/
def validateBotName (U : UnicodeData) (botName : Option Str) : Except Str Str :=
  match botName with
  | none | some [] =>
      .error (str "Your bot must start with a docstring containing 'name: <name>'.")
  | some name =>
      if reservedVersionSuffix U name then
        .error (str "Bot name '" ++ name ++ str "' ends in 'V<digits>', which is " ++
          str "reserved for auto-versioning. Pick a different name.")
      else .ok name

def validateRuntimeKey (runtimeKey : Option Str) : Except Str Str :=
  match runtimeKey with
  | none =>
      .error (str "Invalid runtime in docstring. Use 'language: python-3.13' " ++
        str "or 'python: 3.13'.")
  | some key => .ok key

structure Upload where
  sourceBytes : List UInt8
  ownedBotsCookie : Option Str

structure Prepared where
  sourceBytes : List UInt8
  botName : Str
  runtimeKey : Str
  owned : PyValue

/-- Everything up to the first database call: an exception, a complaint for the
page, or the upload to go on with. -/
def prepare (py : Interpreter) (upload : Upload) :
    Except PyException (Except Str Prepared) := do
  let source := Utf8.decodeReplace upload.sourceBytes
  match validateBotName py.unicode (← extractBotName py source) with
  | .error err => return .error err
  | .ok botName =>
      match validateRuntimeKey (← extractRuntimeKey py source) with
      | .error err => return .error err
      | .ok runtimeKey =>
          let owned ← parseCookie py upload.ownedBotsCookie
          return .ok ⟨upload.sourceBytes, botName, runtimeKey, owned⟩

theorem prepare_valid {py : Interpreter} {upload : Upload} {valid : Prepared}
    (h : prepare py upload = .ok (.ok valid)) :
    (∃ name, extractBotName py (Utf8.decodeReplace upload.sourceBytes) = .ok name ∧
      validateBotName py.unicode name = .ok valid.botName) ∧
    (∃ key, extractRuntimeKey py (Utf8.decodeReplace upload.sourceBytes) = .ok key ∧
      validateRuntimeKey key = .ok valid.runtimeKey) ∧
    parseCookie py upload.ownedBotsCookie = .ok valid.owned ∧
    valid.sourceBytes = upload.sourceBytes := by
  obtain ⟨name, hname, h⟩ := exists_of_bind_eq_ok h
  split at h
  · cases h
  · rename_i botName hvalidName
    obtain ⟨key, hkey, h⟩ := exists_of_bind_eq_ok h
    split at h
    · cases h
    · rename_i runtimeKey hvalidKey
      obtain ⟨owned, howned, h⟩ := exists_of_bind_eq_ok h
      cases h
      exact ⟨⟨name, hname, hvalidName⟩, ⟨key, hkey, hvalidKey⟩, howned, rfl⟩

/-! ### Ownership and the row -/

/-- `secrets.token_hex(32)`. -/
structure OwnerToken where
  text : Str
  length_eq : text.length = 64
  hex : ∀ c ∈ text, (Utf8.hexValue c).isSome

/-- What `_resolve_owner_token` decides: the name is taken, the upload belongs
to an existing owner, or the name is free and gets a new token. -/
inductive OwnerDecision where
  | taken (error : Str)
  | existing (token : Str)
  | fresh (token : Str)

/-- `owned.get(bot_name) != existing_token`, on the value of the cookie. -/
def presents (owned : PyValue) (botName token : Str) : Except PyException Bool := do
  match ← getField owned botName with
  | .str presented => return presented == token
  | _ => return false

def resolveOwnerToken (rows : List BotRow) (upload : Prepared) (drawn : OwnerToken) :
    Except PyException OwnerDecision := do
  if !storable upload.botName then throw dataError
  match ownerToken rows upload.botName with
  | none | some [] => return .fresh drawn.text
  | some token =>
      if ← presents upload.owned upload.botName token then return .existing token
      else return .taken (str "'" ++ upload.botName ++ str "' is already taken by someone else.")

theorem resolveOwnerToken_cases {rows : List BotRow} {upload : Prepared} {drawn : OwnerToken}
    {decision : OwnerDecision} (h : resolveOwnerToken rows upload drawn = .ok decision) :
    (∃ error, decision = .taken error) ∨
    (∃ token, decision = .existing token ∧ ownerToken rows upload.botName = some token ∧
      presents upload.owned upload.botName token = .ok true) ∨
    (decision = .fresh drawn.text ∧
      (ownerToken rows upload.botName = none ∨ ownerToken rows upload.botName = some [])) := by
  unfold resolveOwnerToken at h
  by_cases hstorable : storable upload.botName = true
  · simp only [hstorable, Bool.not_true, Bool.false_eq_true, if_false] at h
    cases htoken : ownerToken rows upload.botName with
    | none =>
        simp only [htoken] at h
        cases h
        exact .inr (.inr ⟨rfl, .inl rfl⟩)
    | some token =>
        cases token with
        | nil =>
            simp only [htoken] at h
            cases h
            exact .inr (.inr ⟨rfl, .inr rfl⟩)
        | cons c rest =>
            simp only [htoken] at h
            cases hpresents : presents upload.owned upload.botName (c :: rest) with
            | error exc =>
                rw [hpresents] at h
                cases h
            | ok presented =>
                rw [hpresents] at h
                cases presented with
                | false =>
                    cases h
                    exact .inl ⟨_, rfl⟩
                | true =>
                    cases h
                    exact .inr (.inl ⟨_, rfl, rfl, hpresents⟩)
  · simp only [Bool.not_eq_true] at hstorable
    rw [hstorable] at h
    cases h

/-- The row that `_persist_bot` asks `create` to insert. -/
def newBot (upload : Prepared) (token : Str) (version : ℕ) : NewBot where
  baseName := upload.botName
  versionedName := versionedName upload.botName version
  version := version
  ownerToken := token
  pythonVersion := pythonVersionFromRuntimeKey upload.runtimeKey
  runtimeKey := upload.runtimeKey
  source := some upload.sourceBytes

/-! ### The whole handler -/

structure BuildPodMessage where
  botId : ℕ
  runtimeKey : Str

/-- The page that is returned. A success carries the `dict` that the ownership
cookie is set to. -/
inductive SubmitResponse where
  | rejected (error : Str)
  | success (message : Str) (ownedBots : List (Str × PyValue))

/-- What a submission can change. -/
structure Backend where
  db : Db
  buildQueue : List BuildPodMessage
  /-- The `versioned_name` of each `bot.uploaded` event. -/
  events : List Str

/-- Which of the awaited calls raise, and what. -/
structure Faults where
  ownerToken : Option PyException
  nextVersion : Option PyException
  create : Option PyException
  enqueueBuildPod : Option PyException
  publishEvent : Option PyException

/-- `owner.owned[owner.bot_name] = owner.owner_token`, then the page. The text of
its cookie is `encodeCookie`, which always exists: the `RecursionError` of
`json.dumps`, for a cookie nested about as deep as `json.loads` takes, is left
out. -/
def successResponse (name botName token : Str) (owned : PyValue) :
    Except PyException SubmitResponse :=
  match owned with
  | .obj fields =>
      .ok (.success (str "'" ++ name ++ str "' submitted successfully!")
        (setItem fields botName (.str token)))
  | .arr _ => .error ⟨.typeError, str "list indices must be integers or slices, not str"⟩
  | v => .error ⟨.typeError,
      str "'" ++ typeName v ++ str "' object does not support item assignment"⟩

/-- From the decision on the owner on: the row, the build message, the event
and the page. -/
def persistAndAnnounce (faults : Faults) (now : ℕ) (upload : Prepared) (token : Str)
    (w : Backend) : Backend × Except PyException SubmitResponse :=
  match faults.nextVersion with
  | some exc => (w, .error exc)
  | none =>
      let version := nextVersion w.db.bots upload.botName
      match faults.create with
      | some exc => (w, .error exc)
      | none =>
          match w.db.create now (newBot upload token version) with
          | (db, .error exc) => ({ w with db := db }, .error exc)
          | (db, .ok bot) =>
              let w := { w with db := db }
              match faults.enqueueBuildPod with
              | some exc => (w, .error exc)
              | none =>
                  let w := { w with
                    buildQueue := w.buildQueue ++ [⟨bot.id, upload.runtimeKey⟩] }
                  match faults.publishEvent with
                  | some exc => (w, .error exc)
                  | none =>
                      ({ w with events := w.events ++ [bot.versionedName] },
                        successResponse bot.versionedName upload.botName token upload.owned)

/-- `rows` is the bot table in the order in which the select for the owner
token returns it. -/
def handleSubmission (py : Interpreter) (faults : Faults) (rows : List BotRow)
    (drawn : OwnerToken) (now : ℕ) (upload : Upload) (w : Backend) :
    Backend × Except PyException SubmitResponse :=
  match prepare py upload with
  | .error exc => (w, .error exc)
  | .ok (.error err) => (w, .ok (.rejected err))
  | .ok (.ok upload) =>
      match faults.ownerToken with
      | some exc => (w, .error exc)
      | none =>
          match resolveOwnerToken rows upload drawn with
          | .error exc => (w, .error exc)
          | .ok (.taken err) => (w, .ok (.rejected err))
          | .ok (.existing token) | .ok (.fresh token) =>
              persistAndAnnounce faults now upload token w

end TictactoeBots
