import KiteAlgo.Lib.Table

/-!
# KiteAlgo.Shards

One connection to the tick stream of the broker (`market-runtime`, `shard.go`).  A
`KiteShard` holds the subscriptions it wants, starts and replaces ticker instances, and is
told by their callbacks when a connection opens, fails or closes.

Beside the fields of the Go struct the state has what lies outside it: how many ticker
instances have been created, and what the connection of the current one carries.  A
connection is a map from tokens to modes that is empty when it opens; a call either takes
its full effect or is refused with an error.  In which mode a token is after `Subscribe` is
the broker's business and a parameter.

A callback is bound to the shard and not to the instance that delivers it, so it is modelled
with the number of its instance and may come from one that was stopped or replaced.  Calling
a ticker that is not there panics; that is the outcome `none`.
-/

namespace KiteAlgo.Shards

/-! ## subscriptions -/

inductive Mode where
  | ltp
  | quote
  | full
  deriving DecidableEq, Repr

def Mode.text : Mode → String
  | .ltp => "ltp"
  | .quote => "quote"
  | .full => "full"

/-- The modes in the order in which they are set. -/
def modes : List Mode := [.ltp, .quote, .full]

abbrev OwnerSubscriptions := Table UInt32 Mode

/-- `sort.Slice` on tokens. -/
def sortTokens (tokens : List UInt32) : List UInt32 := sortBy (fun a b => decide (a ≤ b)) tokens

def tokenKeys (subscriptions : OwnerSubscriptions) : List UInt32 := sortTokens subscriptions.rows.keys

def tokensIn (mode : Mode) (subscriptions : OwnerSubscriptions) : List UInt32 :=
  sortTokens ((subscriptions.rows.filter fun e => decide (e.2 = mode)).map Prod.fst)

/-! ## the ticker -/

abbrev Connection := UInt32 → Option Mode

inductive Call where
  | unsubscribe (tokens : List UInt32)
  | subscribe (tokens : List UInt32)
  | setMode (mode : Mode) (tokens : List UInt32)
  deriving DecidableEq

/-- The errors with which the broker refuses calls. -/
abbrev Refusals := Call → Option String

namespace Call

/-- The error `syncLocked` returns for a refused call. -/
def errorText (error : String) : Call → String
  | .unsubscribe _ => "unsubscribe: " ++ error
  | .subscribe _ => "subscribe: " ++ error
  | .setMode mode _ => "set_mode(" ++ mode.text ++ "): " ++ error

/-- The effect of a call; `subscribed` is the mode of a token after `Subscribe`. -/
def effect (subscribed : Option Mode → Mode) (call : Call) (connection : Connection) : Connection :=
  match call with
  | .unsubscribe tokens => fun t => if t ∈ tokens then none else connection t
  | .subscribe tokens => fun t => if t ∈ tokens then some (subscribed (connection t)) else connection t
  | .setMode mode tokens => fun t =>
    if t ∈ tokens then (connection t).map fun _ => mode else connection t

end Call

/-- The call, unless there is no token to make it for. -/
def unlessEmpty (tokens : List UInt32) (call : List UInt32 → Call) : List Call :=
  if tokens.isEmpty then [] else [call tokens]

/-- The calls of `syncLocked`, in order. -/
def syncCalls (previous desired : OwnerSubscriptions) : List Call :=
  unlessEmpty (sortTokens (previous.rows.keys.filter fun t => (desired.get? t).isNone))
      Call.unsubscribe ++
    unlessEmpty (tokenKeys desired) Call.subscribe ++
    modes.flatMap fun mode => unlessEmpty (tokensIn mode desired) (Call.setMode mode)

/-! ## the shard -/

/-- `status`. -/
inductive ShardStatus where
  | idle
  | waitingForToken
  | restarting
  | stopped
  | connecting
  | connected
  | degraded
  | closed (code : Int)
  | reconnecting (attempt : Int)
  | noReconnect (attempt : Int)
  deriving DecidableEq, Repr

def ShardStatus.text : ShardStatus → String
  | .idle => "idle"
  | .waitingForToken => "waiting_for_token"
  | .restarting => "restarting"
  | .stopped => "stopped"
  | .connecting => "connecting"
  | .connected => "connected"
  | .degraded => "degraded"
  | .closed code => "closed:" ++ toString code
  | .reconnecting attempt => "reconnecting:" ++ toString attempt
  | .noReconnect attempt => "no_reconnect:" ++ toString attempt

/-- `KiteShard`, with the instances created for it and the connection of the current one. -/
structure KiteShard where
  token : String := ""
  status : ShardStatus := .idle
  desired : OwnerSubscriptions := .empty
  connected : Bool := false
  ticker : Option Nat := none
  lastError : String := ""
  created : Nat := 0
  connection : Option Connection := none

namespace KiteShard

section Ticker

variable (subscribed : Option Mode → Mode)

/-- Calls in order, up to the first that is refused. -/
def perform (refusals : Refusals) : List Call → Option Connection → Option Connection × Option String
  | [], connection => (connection, none)
  | call :: calls, connection =>
    match refusals call with
    | some error => (connection, some (call.errorText error))
    | none => perform refusals calls (connection.map (call.effect subscribed))

/-- `syncLocked`, with a ticker. -/
def syncLocked (previous : OwnerSubscriptions) (refusals : Refusals) (s : KiteShard) :
    KiteShard × Option String :=
  let (connection, error) := perform subscribed refusals (syncCalls previous s.desired) s.connection
  ({ s with connection }, error)

def applySubscriptions (desired : OwnerSubscriptions) (refusals : Refusals) (s : KiteShard) :
    KiteShard × Option String :=
  let previous := s.desired
  let s := { s with desired }
  if s.ticker.isNone || !s.connected then (s, none)
  else
    match s.syncLocked subscribed previous refusals with
    | (s, none) => (s, none)
    | (s, some error) => ({ s with lastError := error, status := .degraded }, some error)

/-- `handleConnect`: the shard and the error of the sync, or `none` where a call finds no
ticker. -/
def handleConnect (refusals : Refusals) (s : KiteShard) : Option (KiteShard × Option String) :=
  let s := { s with connected := true, status := .connected, lastError := "" }
  if s.ticker.isNone && !(syncCalls .empty s.desired).isEmpty then none
  else
    match s.syncLocked subscribed .empty refusals with
    | (s, none) => some (s, none)
    | (s, some error) =>
      some ({ s with connected := false, status := .degraded, lastError := error }, some error)

end Ticker

/-- `stopLocked`: the connection of the instance ends with it. -/
def stopLocked (nextStatus : ShardStatus) (s : KiteShard) : KiteShard :=
  { s with ticker := none, connection := none, connected := false, status := nextStatus }

def startLocked (accessToken : String) (s : KiteShard) : KiteShard :=
  let s := { s.stopLocked .restarting with token := accessToken }
  if accessToken = "" then { s with status := .waitingForToken, connected := false }
  else
    { s with
      ticker := some s.created
      created := s.created + 1
      status := .connecting
      connected := false }

def start (accessToken : String) (s : KiteShard) : KiteShard :=
  if accessToken = "" then { s with status := .waitingForToken, connected := false }
  else if s.token = accessToken ∧ s.ticker.isSome then s
  else s.startLocked accessToken

def rotate (accessToken : String) (s : KiteShard) : KiteShard := s.startLocked accessToken

def stop (s : KiteShard) : KiteShard := s.stopLocked .stopped

def handleError (error : String) (s : KiteShard) : KiteShard :=
  if s.status.text ≠ "reconnecting" then { s with lastError := error, status := .degraded }
  else { s with lastError := error }

def handleClose (code : Int) (reason : String) (s : KiteShard) : KiteShard :=
  { s with
    connected := false
    status := .closed code
    lastError := if reason = "" then s.lastError else reason }

def handleReconnect (attempt : Int) (s : KiteShard) : KiteShard :=
  { s with connected := false, status := .reconnecting attempt }

def handleNoReconnect (attempt : Int) (s : KiteShard) : KiteShard :=
  { s with connected := false, status := .noReconnect attempt }

end KiteShard

inductive Callback where
  | connect (refusals : Refusals)
  | error (message : String)
  | close (code : Int) (reason : String)
  | reconnect (attempt : Int)
  | noReconnect (attempt : Int)

namespace KiteShard

/-- The connection of this instance is opened or closed; that of another is not ours. -/
def withConnection (k : Nat) (connection : Option Connection) (s : KiteShard) : KiteShard :=
  if s.ticker = some k then { s with connection } else s

/-- A callback of instance `k` is delivered. -/
def deliver (subscribed : Option Mode → Mode) (k : Nat) (callback : Callback) (s : KiteShard) :
    Option KiteShard :=
  match callback with
  | .connect refusals =>
    ((s.withConnection k (some fun _ => none)).handleConnect subscribed refusals).map Prod.fst
  | .error message => some (s.handleError message)
  | .close code reason => some ((s.withConnection k none).handleClose code reason)
  | .reconnect attempt => some ((s.withConnection k none).handleReconnect attempt)
  | .noReconnect attempt => some ((s.withConnection k none).handleNoReconnect attempt)

end KiteShard

inductive Step where
  | start (accessToken : String)
  | rotate (accessToken : String)
  | stop
  | apply (desired : OwnerSubscriptions) (refusals : Refusals)
  | callback (instance_ : Nat) (callback : Callback)

/-- One step; a callback of an instance that was never created does not happen. -/
def step (subscribed : Option Mode → Mode) (st : Step) (s : KiteShard) : Option KiteShard :=
  match st with
  | .start accessToken => some (s.start accessToken)
  | .rotate accessToken => some (s.rotate accessToken)
  | .stop => some s.stop
  | .apply desired refusals => some (s.applySubscriptions subscribed desired refusals).1
  | .callback k callback => if k < s.created then s.deliver subscribed k callback else some s

def run (subscribed : Option Mode → Mode) : List Step → KiteShard → Option KiteShard
  | [], s => some s
  | st :: steps, s => (step subscribed st s).bind (run subscribed steps)

end KiteAlgo.Shards
