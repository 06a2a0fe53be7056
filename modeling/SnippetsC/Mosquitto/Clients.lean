import SnippetsC.Framework.Transition

namespace SnippetsC.Mosquitto

/-! `client_pub` and `client_sub`: what they do, whatever libmosquitto answers and calls back. -/

def MOSQ_ERR_SUCCESS : Int := 0
def MAX_PAYLOAD_LEN : Nat := 256

def broker : String := "localhost"
def port : Nat := 1883
def topic : String := "hello/world"
def payload : String := "hi"

/-- What `mosquitto_new` returns a pointer to. -/
abbrev Handle := Nat

inductive Callback where
  | connect | disconnect | publish | subscribe | message
  deriving DecidableEq

/-- A callback with what it is told, and what the library call that it may make answers: its return
value, and the message id that is in `msg_id` then. -/
inductive Event where
  | connect (rc answer msgId : Int)
  | disconnect (rc : Int)
  | publish (msgId answer : Int)
  | subscribe (msgId : Int)
  | message (topic : String) (payload : List UInt8)

def Event.callback : Event → Callback
  | .connect .. => .connect
  | .disconnect _ => .disconnect
  | .publish .. => .publish
  | .subscribe _ => .subscribe
  | .message .. => .message

inductive LibCall where
  | pubTopicCheck (topic : String)
  | subTopicCheck (topic : String)
  | libInit
  | new (client : Option Handle)
  | callbackSet (client : Handle) (c : Callback)
  | connect (client : Handle) (host : String) (port keepalive : Nat) (rc : Int)
  | loopForever (client : Handle)
  | publish (client : Handle) (topic : String) (payloadLen : Nat) (payload : String) (qos : Nat)
    (retain : Bool)
  | subscribe (client : Handle) (sub : String) (qos : Nat)
  | disconnect (client : Handle)
  | destroy (client : Handle)
  | libCleanup
  deriving DecidableEq

/-- What a run is made of. -/
inductive Step where
  | call (c : LibCall)
  | callback (e : Event)
  | loopReturns (rc : Int)
  | stdout (text : String)
  | stderr (text : String)

/-- How the library behaves in a run; `events` is what happens while `mosquitto_loop_forever`
runs. -/
structure Library where
  topicCheck : Int
  client : Option Handle
  connect : Int
  events : List Event
  loop : Int
  strerror : Int → String
  connackString : Int → String

/-- Up to `mosquitto_connect`. -/
def startup (check : LibCall) (callbacks : List Callback) (lib : Library) (client : Handle) :
    List Step :=
  [.call check, .call .libInit, .call (.new (some client))] ++
    (callbacks.map fun c => .call (.callbackSet client c)) ++
    [.call (.connect client broker port 30 lib.connect)]

/-- `mosquitto_loop_forever`; the library has nothing to call for a callback that is not set. -/
def loop (callbacks : List Callback) (handle : Library → Handle → Event → List Step)
    (lib : Library) (client : Handle) : List Step :=
  .call (.loopForever client) :: (((lib.events.filter fun e => e.callback ∈ callbacks).flatMap
    fun e => .callback e :: handle lib client e) ++ [.loopReturns lib.loop])

def cleanup (client : Handle) : List Step := [.call (.destroy client), .call .libCleanup]

/-- `main` of both programs: `check` is their topic check, `callbacks` are set in this order. -/
def mainWith (check : LibCall) (callbacks : List Callback)
    (handle : Library → Handle → Event → List Step) (lib : Library) : Int × List Step :=
  if lib.topicCheck ≠ MOSQ_ERR_SUCCESS then
    (lib.topicCheck,
      [.call check, .stderr ("error in topic: " ++ lib.strerror lib.topicCheck ++ "\n")])
  else
    match lib.client with
    | none =>
      (-1, [.call check, .call .libInit, .call (.new none), .stderr "error creating client\n",
        .call .libCleanup])
    | some client =>
      if lib.connect ≠ MOSQ_ERR_SUCCESS then
        (lib.connect, startup check callbacks lib client ++
          .stderr ("error connecting to broker: " ++ lib.strerror lib.connect ++ "\n") ::
            cleanup client)
      else
        (lib.loop, startup check callbacks lib client ++ (loop callbacks handle lib client ++
          ((if lib.loop ≠ MOSQ_ERR_SUCCESS then
            [.stderr ("error in main loop: " ++ lib.strerror lib.loop ++ "\n")]
          else []) ++ cleanup client)))

/-- `on_disconnect` is the same in both programs. -/
def onDisconnect (rc : Int) : List Step :=
  (if rc ≠ 0 then [.stderr "unexpected disconnect\n"] else []) ++ [.stdout "client disconnected.\n"]

namespace ClientPub

/-- `strnlen(payload, MAX_PAYLOAD_LEN)` -/
def payloadLen : Nat := min payload.utf8ByteSize MAX_PAYLOAD_LEN

def onConnect (lib : Library) (client : Handle) (rc answer msgId : Int) : List Step :=
  if rc ≠ MOSQ_ERR_SUCCESS then
    [.stderr ("error connecting to broker: " ++ lib.connackString rc ++ "\n")]
  else
    [.stdout "client connected.\n",
      .call (.publish client topic payloadLen payload 0 false)] ++
    (if answer ≠ MOSQ_ERR_SUCCESS then
      [.stderr ("error publishing: " ++ lib.strerror answer ++ "\n")]
    else []) ++
    -- printed even if nothing was published
    [.stdout ("publishing message with id " ++ toString msgId ++ " to topic " ++ topic ++ ": " ++
      payload ++ "\n")]

def onPublish (lib : Library) (client : Handle) (msgId answer : Int) : List Step :=
  [.stdout ("published message with id " ++ toString msgId ++ "\n"), .call (.disconnect client)] ++
    if answer ≠ MOSQ_ERR_SUCCESS then
      [.stderr ("error disconnecting from broker: " ++ lib.strerror answer ++ "\n")]
    else []

def handle (lib : Library) (client : Handle) : Event → List Step
  | .connect rc answer msgId => onConnect lib client rc answer msgId
  | .disconnect rc => onDisconnect rc
  | .publish msgId answer => onPublish lib client msgId answer
  | _ => []

def main : Library → Int × List Step :=
  mainWith (.pubTopicCheck topic) [.connect, .disconnect, .publish] handle

end ClientPub

namespace ClientSub

def onConnect (lib : Library) (client : Handle) (rc answer msgId : Int) : List Step :=
  if rc ≠ MOSQ_ERR_SUCCESS then
    [.stderr ("error connecting to broker: " ++ lib.connackString rc ++ "\n")]
  else
    [.stdout "client connected.\n", .call (.subscribe client topic 0)] ++
    (if answer ≠ MOSQ_ERR_SUCCESS then
      [.stderr ("error subscribing to topic: " ++ lib.strerror answer ++ "\n")]
    else []) ++
    [.stdout ("subscribing to topic " ++ topic ++ " with message id " ++ toString msgId ++ "\n")]

def onSubscribe (msgId : Int) : List Step :=
  [.stdout ("subscribed with message id " ++ toString msgId ++ "\n")]

/-- The library puts a zero byte behind the payload. -/
def onMessage (topic : String) (payload : List UInt8) : List Step :=
  if payload.length = 0 then []
  else [.stdout (topic ++ ": " ++
    String.ofList ((payload.takeWhile (· ≠ 0)).map fun b => Char.ofNat b.toNat) ++ "\n")]

def handle (lib : Library) (client : Handle) : Event → List Step
  | .connect rc answer msgId => onConnect lib client rc answer msgId
  | .disconnect rc => onDisconnect rc
  | .subscribe msgId => onSubscribe msgId
  | .message topic payload => onMessage topic payload
  | _ => []

def main : Library → Int × List Step :=
  mainWith (.subTopicCheck topic) [.connect, .disconnect, .subscribe, .message] handle

end ClientSub

end SnippetsC.Mosquitto
