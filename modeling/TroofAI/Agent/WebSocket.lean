import TroofAI.Agent.Enrollment

/-!
`WebSocketService`: the agent's connection to the hub, and the heartbeats it sends on it.

Each handler of the socket and the callback of the timer is a function on the state of the
service, with the messages it emits. The timer is started by every connect and stopped by every
disconnect, so its 30 seconds begin anew with each connection.
-/

namespace TroofAI.Agent

/-- What the agent emits. -/
inductive AgentMessage where
  | deviceConnect (deviceId : String)
  | deviceHeartbeat (deviceId : String)
  | challengeResponse (challengeId deviceId signature : String)
deriving DecidableEq, Repr

/-- A running timer: when it is due, and how long after that again. -/
structure Timer where
  due : Hub.Date
  period : Nat
deriving DecidableEq, Repr

structure WebSocketService where
  /-- the id of the connection, while `_socket.Connected` -/
  socket : Option String
  heartbeatTimer : Option Timer
deriving DecidableEq, Repr

namespace WebSocketService

/-- The process has just started. -/
def start : WebSocketService := ⟨none, none⟩

def startHeartbeat (service : WebSocketService) (now : Hub.Date) : WebSocketService :=
  { service with heartbeatTimer := some ⟨now + 30 * 1000, 60 * 1000⟩ }

def stopHeartbeat (service : WebSocketService) : WebSocketService :=
  { service with heartbeatTimer := none }

/-- `OnConnected`, on a connection that has the id `socket`. -/
def onConnected (service : WebSocketService) (enrollment : Enrollment) (socket : String)
    (now : Hub.Date) : WebSocketService × List AgentMessage :=
  ({ service with socket := some socket }.startHeartbeat now, [.deviceConnect enrollment.deviceId])

/-- `OnDisconnected`. -/
def onDisconnected (service : WebSocketService) : WebSocketService :=
  { service with socket := none }.stopHeartbeat

/-- The callback of the timer, which is due again a period later. -/
def onTimer (service : WebSocketService) (enrollment : Enrollment) :
    WebSocketService × List AgentMessage :=
  ({ service with
      heartbeatTimer := service.heartbeatTimer.map fun timer =>
        { timer with due := timer.due + timer.period } },
    if service.socket.isSome then [.deviceHeartbeat enrollment.deviceId] else [])

/-- The handler of `challenge:issue`. `sign` signs a text with the key of the device. The id of the
challenge is printed cut to eight characters before anything is signed; an exception is caught,
and nothing is sent. -/
def onChallengeIssue (enrollment : Enrollment) (sign : String → String)
    (challenge : ChallengeMessage) : List AgentMessage :=
  if hasPrefix8 challenge.challengeId then
    match signChallenge enrollment challenge with
    | some text => [.challengeResponse challenge.challengeId enrollment.deviceId (sign text)]
    | none => []
  else []

/-- The timer is not overdue at the time `now`. -/
def OnTime (service : WebSocketService) (now : Hub.Date) : Prop :=
  ∀ timer, service.heartbeatTimer = some timer → now ≤ timer.due

end WebSocketService

end TroofAI.Agent
