import TroofAI.Hub.Schema

/-!
`EventsGateway`: which sockets are registered for which devices and meetings, and
the messages sent to them. The handlers are synchronous, so each is one function on
the gateway's state. A `Map` is a list of entries in insertion order, a socket is
named by its id.
-/

namespace TroofAI.Hub

structure Gateway where
  /-- the clients the server has a connection to -/
  connected : List String
  deviceSockets : List (String × String)
  meetingSockets : List (String × List String)
  /-- every message sent, with the socket it was sent to, oldest first -/
  sent : List (String × Message)

namespace Gateway

def empty : Gateway := ⟨[], [], [], []⟩

/-- `Map.prototype.set`: an existing entry keeps its place. -/
def mapSet {V : Type} (m : List (String × V)) (k : String) (v : V) : List (String × V) :=
  if m.any (·.1 = k) then m.map fun p => if p.1 = k then (k, v) else p else m ++ [(k, v)]

/-- `Map.prototype.get`. -/
def mapGet {V : Type} (m : List (String × V)) (k : String) : Option V :=
  (m.find? (·.1 = k)).map (·.2)

def handleConnection (client : String) (g : Gateway) : Gateway :=
  { g with connected := if client ∈ g.connected then g.connected else g.connected ++ [client] }

/-- The first device entry of the client is removed and the loop stops there; the
client leaves every meeting, and a meeting without sockets is dropped. -/
def handleDisconnect (client : String) (g : Gateway) : Gateway :=
  { g with
    connected := g.connected.filter (· ≠ client)
    deviceSockets := g.deviceSockets.eraseP (·.2 = client)
    meetingSockets :=
      (g.meetingSockets.map fun p => (p.1, p.2.filter (· ≠ client))).filter (!·.2.isEmpty) }

def handleDeviceConnect (client deviceId : String) (g : Gateway) : Gateway :=
  { g with deviceSockets := mapSet g.deviceSockets deviceId client }

def handleMeetingSubscribe (client meetingId : String) (g : Gateway) : Gateway :=
  let sockets := (mapGet g.meetingSockets meetingId).getD []
  { g with
    meetingSockets := mapSet g.meetingSockets meetingId
      (if client ∈ sockets then sockets else sockets ++ [client]) }

/-- `socket.emit`. -/
def emit (socket : String) (message : Message) (g : Gateway) : Gateway :=
  { g with sent := g.sent ++ [(socket, message)] }

def emitChallengeToDevice (deviceId : String) (payload : ChallengePayload) (g : Gateway) :
    Gateway :=
  match mapGet g.deviceSockets deviceId with
  | some socket => g.emit socket (.challengeIssue payload)
  | none => g

/-- One message to every subscriber of the meeting, then one to every client. -/
def emitMeetingUpdate (meetingId : String) (payload : MeetingUpdate) (g : Gateway) : Gateway :=
  let subscribers := (mapGet g.meetingSockets meetingId).getD []
  let g := subscribers.foldl (fun g socket => g.emit socket (.meetingStatusUpdate none payload)) g
  g.connected.foldl
    (fun g socket => g.emit socket (.meetingStatusUpdate (some meetingId) payload)) g

end Gateway

/-- What a socket client makes the gateway do. -/
inductive SocketEvent where
  | connection (client : String)
  | disconnect (client : String)
  | deviceConnect (client deviceId : String)
  | meetingSubscribe (client meetingId : String)
deriving DecidableEq, Repr

/-- A message can only arrive from a client that is connected. -/
def Gateway.handle (g : Gateway) : SocketEvent → Gateway
  | .connection client => g.handleConnection client
  | .disconnect client => g.handleDisconnect client
  | .deviceConnect client deviceId =>
      if client ∈ g.connected then g.handleDeviceConnect client deviceId else g
  | .meetingSubscribe client meetingId =>
      if client ∈ g.connected then g.handleMeetingSubscribe client meetingId else g

end TroofAI.Hub
