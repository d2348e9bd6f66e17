import TroofAI.Base.Lines
import Mathlib.Algebra.Order.BigOperators.Group.List

/-!
The texts the companion agent signs: `ChallengeSigningService`, called for the challenges
of the hub and for the requests to the agent's own endpoint `/bind` on localhost.

Both texts are signed with the one key of the device. The agent cuts ids to their
first eight characters where it prints them, and a shorter id makes it throw.
-/

namespace TroofAI.Agent

/-- What `EnrollmentService` knows once the device is enrolled. -/
structure Enrollment where
  tenantId : String
  deviceId : String
  userId : String
deriving DecidableEq, Repr

/-- `string.Length`: the number of UTF-16 code units. -/
def utf16Length (s : String) : Nat := (s.toList.map fun c => if c.val < 0x10000 then 1 else 2).sum

/-- `s[..8]` does not throw. -/
def hasPrefix8 (s : String) : Bool := 8 ≤ utf16Length s

theorem length_le_utf16Length (s : String) : s.length ≤ utf16Length s := by
  have hunits : ∀ n ∈ s.toList.map fun c : Char => if c.val < 0x10000 then 1 else 2, 1 ≤ n := by
    intro n hn
    obtain ⟨c, -, rfl⟩ := List.mem_map.mp hn
    split <;> omega
  have hsum := List.length_le_sum_of_one_le _ hunits
  rwa [List.length_map, String.length_toList] at hsum

/-- The fields of a `challenge:issue` message. -/
structure ChallengeMessage where
  challengeId : String
  meetingId : String
  participantId : String
  nonce : String
  issuedAt : String
  expiresAt : String
deriving DecidableEq, Repr

/-- The text `SignChallenge` signs. -/
def challengeString (enrollment : Enrollment) (challenge : ChallengeMessage) : String :=
  joinLines ["troofai-v1", challenge.challengeId, enrollment.tenantId, enrollment.deviceId,
    enrollment.userId, challenge.meetingId, challenge.participantId, challenge.nonce,
    challenge.issuedAt, challenge.expiresAt]

/-- `SignChallenge`: the text whose signature it returns, `none` when it throws. -/
def signChallenge (enrollment : Enrollment) (challenge : ChallengeMessage) : Option String :=
  if hasPrefix8 challenge.challengeId && hasPrefix8 challenge.meetingId &&
      hasPrefix8 challenge.participantId then
    some (challengeString enrollment challenge)
  else none

/-- The JSON body of a request to `/bind`. -/
structure BindRequest where
  joinToken : String
  meetingId : String
  participantId : String
  expiresAt : String
deriving DecidableEq, Repr

/-- The text `SignBinding` signs. -/
def bindingString (enrollment : Enrollment) (body : BindRequest) : String :=
  joinLines [body.joinToken, body.meetingId, body.participantId, enrollment.deviceId,
    body.expiresAt]

/-- `HandleRequestAsync`: the text whose signature `/bind` answers, `none` when it answers 400. -/
def handleBind (enrollment : Enrollment) (body : BindRequest) : Option String :=
  if hasPrefix8 body.meetingId && hasPrefix8 body.participantId then
    some (bindingString enrollment body)
  else none

theorem eq_bindingString_of_handleBind {enrollment : Enrollment} {body : BindRequest}
    {text : String} (h : handleBind enrollment body = some text) :
    text = bindingString enrollment body := by
  unfold handleBind at h
  split at h
  · exact (Option.some.inj h).symm
  · cases h

theorem eq_challengeString_of_signChallenge {enrollment : Enrollment}
    {challenge : ChallengeMessage} {text : String}
    (h : signChallenge enrollment challenge = some text) :
    text = challengeString enrollment challenge := by
  unfold signChallenge at h
  split at h
  · exact (Option.some.inj h).symm
  · cases h

/-- The line feeds in the strings of a request. -/
def BindRequest.lineFeeds (body : BindRequest) : Nat :=
  TroofAI.lineFeeds body.joinToken + TroofAI.lineFeeds body.meetingId +
    TroofAI.lineFeeds body.participantId + TroofAI.lineFeeds body.expiresAt

theorem lineFeeds_bindingString (enrollment : Enrollment) (body : BindRequest) :
    TroofAI.lineFeeds (bindingString enrollment body) =
      4 + body.lineFeeds + TroofAI.lineFeeds enrollment.deviceId := by
  unfold bindingString BindRequest.lineFeeds
  rw [joinLines_count]
  simp only [List.length_cons, List.length_nil, List.map_cons, List.map_nil, List.sum_cons,
    List.sum_nil]
  omega

end TroofAI.Agent
