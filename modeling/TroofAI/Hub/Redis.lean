import TroofAI.Base.Json
import TroofAI.Hub.IsoDate
import TroofAI.Hub.Store

/-!
`RedisService`, and the texts that the hub keeps in Redis.

Redis holds texts under texts. The hub stores its records as JSON, with ISO texts for the dates, and
parses what it reads. `decode_encode` says that a record is read as it was stored, when its dates
are dates of JavaScript.
-/

namespace TroofAI.Hub

/-- The keys of Redis, each with its value and the last instant it is readable at, if it expires. -/
structure Redis where
  entry : String → Option (String × Option Date)

namespace RedisService

/-- `SET` with `EX`, unless `ttlSeconds` is `undefined` or 0. -/
def set (key value : String) (ttlSeconds : Option Nat) (now : Date) (redis : Redis) : Redis :=
  match ttlSeconds.filter (· ≠ 0) with
  | some ttl => ⟨Function.update redis.entry key (some (value, some (now + ttl * 1000)))⟩
  | none => ⟨Function.update redis.entry key (some (value, none))⟩

def get (key : String) (now : Date) (redis : Redis) : Option String :=
  match redis.entry key with
  | some (value, some deadline) => if now ≤ deadline then some value else none
  | some (value, none) => some value
  | none => none

def del (key : String) (redis : Redis) : Redis := ⟨Function.update redis.entry key none⟩

theorem set_of_pos {ttl : Nat} (h : ttl ≠ 0) (key value : String) (now : Date) (redis : Redis) :
    set key value (some ttl) now redis =
      ⟨Function.update redis.entry key (some (value, some (now + ttl * 1000)))⟩ := by
  simp [set, Option.filter_some, h]

end RedisService

/-! ### The records as JSON -/

/-- The object that `issueChallenge` stores. -/
def ChallengeRecord.json (record : ChallengeRecord) : Json.Value :=
  .ofStrings [("challenge_id", record.challengeId), ("nonce", record.nonce),
    ("meeting_id", record.meetingId), ("participant_id", record.participantId),
    ("issued_at", toISOString record.issuedAt), ("expires_at", toISOString record.expiresAt),
    ("tenant_id", record.tenantId), ("device_id", record.deviceId), ("user_id", record.userId)]

/-- The members that `verifyResponse` reads. -/
def ChallengeRecord.ofJson (v : Json.Value) : Option ChallengeRecord := do
  return {
    challengeId := ← v.getString "challenge_id"
    nonce := ← v.getString "nonce"
    meetingId := ← v.getString "meeting_id"
    participantId := ← v.getString "participant_id"
    issuedAt := ← parseDate (← v.getString "issued_at")
    expiresAt := ← parseDate (← v.getString "expires_at")
    tenantId := ← v.getString "tenant_id"
    deviceId := ← v.getString "device_id"
    userId := ← v.getString "user_id" }

theorem ChallengeRecord.ofJson_eq_some {v : Json.Value} {record : ChallengeRecord}
    {issuedAt expiresAt : String} (hissued : parseDate issuedAt = some record.issuedAt)
    (hexpires : parseDate expiresAt = some record.expiresAt)
    (h : ∀ p ∈ [("challenge_id", record.challengeId), ("nonce", record.nonce),
      ("meeting_id", record.meetingId), ("participant_id", record.participantId),
      ("issued_at", issuedAt), ("expires_at", expiresAt), ("tenant_id", record.tenantId),
      ("device_id", record.deviceId), ("user_id", record.userId)],
      v.getString p.1 = some p.2) : ofJson v = some record := by
  simp only [List.mem_cons, forall_eq_or_imp] at h
  simp [ofJson, h, hissued, hexpires]

theorem ChallengeRecord.ofJson_json {record : ChallengeRecord} (hissued : record.issuedAt ≤ maxTime)
    (hexpires : record.expiresAt ≤ maxTime) : ofJson record.json = some record :=
  ofJson_eq_some (parseDate_toISOString hissued) (parseDate_toISOString hexpires)
    fun _ hp => Json.Value.getString_ofStrings (by simp) hp

/-- The object that `issueJoinToken` stores. -/
def JoinToken.json (token : JoinToken) : Json.Value :=
  .ofStrings [("meeting_id", token.meetingId), ("participant_id", token.participantId),
    ("expires_at", toISOString token.expiresAt)]

/-- The members that `bindDevice` reads. -/
def JoinToken.ofJson (v : Json.Value) : Option JoinToken := do
  return {
    meetingId := ← v.getString "meeting_id"
    participantId := ← v.getString "participant_id"
    expiresAt := ← parseDate (← v.getString "expires_at") }

theorem JoinToken.ofJson_eq_some {v : Json.Value} {token : JoinToken} {expiresAt : String}
    (hexpires : parseDate expiresAt = some token.expiresAt)
    (h : ∀ p ∈ [("meeting_id", token.meetingId), ("participant_id", token.participantId),
      ("expires_at", expiresAt)], v.getString p.1 = some p.2) : ofJson v = some token := by
  simp only [List.mem_cons, forall_eq_or_imp] at h
  simp [ofJson, h, hexpires]

theorem JoinToken.ofJson_json {token : JoinToken} (h : token.expiresAt ≤ maxTime) :
    ofJson token.json = some token :=
  ofJson_eq_some (parseDate_toISOString h)
    fun _ hp => Json.Value.getString_ofStrings (by simp) hp

namespace RedisKey

/-- `JSON.stringify` of what is stored under a key. -/
def encode : (key : RedisKey) → key.Value → String
  | .challenge _, record => Json.stringify.print (ChallengeRecord.json record)
  | .joinToken _, token => Json.stringify.print (JoinToken.json token)

/-- `JSON.parse` of what is read under a key. -/
def decode : (key : RedisKey) → String → Option key.Value
  | .challenge _, text => (Json.parse text).bind ChallengeRecord.ofJson
  | .joinToken _, text => (Json.parse text).bind JoinToken.ofJson

/-- The dates of a record are dates that JavaScript can hold. -/
def InTime : (key : RedisKey) → key.Value → Prop
  | .challenge _, record =>
      ChallengePayload.issuedAt (ChallengeRecord.toChallengePayload record) ≤ maxTime ∧
        ChallengePayload.expiresAt (ChallengeRecord.toChallengePayload record) ≤ maxTime
  | .joinToken _, token => JoinToken.expiresAt token ≤ maxTime

theorem decode_encode {key : RedisKey} {value : key.Value} (h : key.InTime value) :
    key.decode (key.encode value) = some value := by
  cases key with
  | challenge challengeId =>
    show (Json.parse (Json.stringify.print (ChallengeRecord.json value))).bind
      ChallengeRecord.ofJson = _
    rw [Json.parse_print, Option.bind_some, ChallengeRecord.ofJson_json h.1 h.2]
  | joinToken token =>
    show (Json.parse (Json.stringify.print (JoinToken.json value))).bind JoinToken.ofJson = _
    rw [Json.parse_print, Option.bind_some, JoinToken.ofJson_json h]

end RedisKey

end TroofAI.Hub
