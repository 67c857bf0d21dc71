import TictactoeBots.Lib.Python

/-!
Talking to a bot's pod: looking up its address and asking it for a turn.

The cluster and the network are parameters. `urlopen` gives how one exchange
ends, reading the response included: the bytes of the body, or the exception
that connecting, waiting or reading raised.
-/

namespace TictactoeBots

open Text Python

structure TurnResponse where
  board : PyValue
  error : PyValue

def podNamespace : Str := str "bots"

def turnPort : ℕ := 8080

def podName (botId : ℕ) : Str := str "bot-" ++ decimal botId

structure PodStatus where
  podIp : Option Str

structure Pod where
  status : PodStatus

/-- The Kubernetes client: `read_namespaced_pod(name, namespace)`. -/
structure CoreV1 where
  readNamespacedPod : Str → Str → Except PyException Pod

def getPodIp (coreV1 : CoreV1) (podName : Str) : Except PyException Str := do
  let pod ← coreV1.readNamespacedPod podName podNamespace
  let ip := pod.status.podIp.getD []
  if ip.isEmpty then
    throw ⟨.runtimeError, str "pod " ++ podName ++ str " has no IP yet"⟩
  return ip

structure Request where
  url : Str
  data : Str
  headers : List (Str × Str)

/-- `urlopen(req, timeout=timeout)` followed by `resp.read()`. -/
abbrev Urlopen := Request → ℚ → Except PyException (List UInt8)

/-- `data.get(key)`, which only a `dict` has. -/
def getField (data : PyValue) (key : Str) : Except PyException PyValue :=
  match data with
  | .obj fields => .ok ((Json.lookup key fields).getD .null)
  | v => .error (noAttribute v (str "get"))

def turnRequest (podIp symbol board : Str) : Request where
  url := str "http://" ++ podIp ++ str ":" ++ decimal turnPort ++ str "/turn"
  data := Json.dumps (.obj [(str "symbol", .str symbol), (str "board", .str board)])
  headers := [(str "Content-Type", str "application/json")]

def requestTurn (json : JsonLoads) (urlopen : Urlopen) (podIp symbol board : Str) (timeout : ℚ) :
    Except PyException TurnResponse := do
  let content ← urlopen (turnRequest podIp symbol board) timeout
  let data ← json.loads content
  let board ← getField data (str "board")
  let error ← getField data (str "error")
  return { board := board, error := error }

/-- The object with which a turn server reports the board `reply`. -/
def boardObject {ν : Type} (reply : Str) : Json.Value ν := .obj [(str "board", .str reply)]

def repliesWith (reply : Str) : Urlopen :=
  fun _ _ => .ok ((Json.dumps (boardObject reply)).map fun c => UInt8.ofNat c.val)

def decodesReply (reply : Str) : JsonLoads where
  loads _ := .ok (boardObject reply)
  loadsStr _ := .ok (boardObject reply)
  loads_error h := by cases h
  loadsStr_error h := by cases h

end TictactoeBots
