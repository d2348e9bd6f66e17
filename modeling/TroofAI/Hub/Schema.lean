import Mathlib.Data.List.Basic

/-!
The data of the hub: the rows of `schema.prisma`, the records it keeps in Redis, the
bodies of its requests and the messages of its socket gateway.

Times are milliseconds since the epoch, as `Date.getTime` gives them. The source
keeps the times of a challenge or a join token as ISO text, which names the same
millisecond; `toISOString` is applied where that text is observed, in the strings
that are signed.
-/

namespace TroofAI.Hub

/-- A point in time, in milliseconds since 1970-01-01T00:00:00Z. -/
abbrev Date := Nat

/-! ### ISO text of a date -/

/-- Decimal digits of `n`, filled up with zeros to `width`. -/
def padNat (width n : Nat) : String :=
  let digits := Nat.toDigits 10 n
  String.ofList (List.replicate (width - digits.length) '0' ++ digits)

theorem padNat_injective (width : Nat) : Function.Injective (padNat width) := by
  intro m n h
  have hl := congrArg (fun s => Nat.ofDigitChars 10 s.toList 0) h
  simpa [padNat, Nat.ofDigitChars_append, Nat.ofDigitChars_replicate_zero,
    Nat.ofDigitChars_ten_toDigits] using hl

theorem padNat_isDigit {width n : Nat} : ∀ c ∈ (padNat width n).toList, c.isDigit = true := by
  intro c hc
  unfold padNat at hc
  rw [String.toList_ofList, List.mem_append] at hc
  rcases hc with hc | hc
  · rw [(List.mem_replicate.mp hc).2]
    rfl
  · exact Nat.isDigit_of_mem_toDigits (by omega) (by omega) hc

theorem le_length_padNat (width n : Nat) : width ≤ (padNat width n).length := by
  unfold padNat
  simp only [String.length_ofList, List.length_append, List.length_replicate]
  omega

/-- Year, month and day of the `days`-th day after 1970-01-01 in the proleptic
Gregorian calendar, counted from 0000-03-01 in eras of 400 years. -/
def civilOfDays (days : Nat) : Nat × Nat × Nat :=
  let z := days + 719468
  let era := z / 146097
  let doe := z % 146097
  let yoe := (doe - doe / 1460 + doe / 36524 - doe / 146096) / 365
  let doy := doe - (365 * yoe + yoe / 4 - yoe / 100)
  let mp := (5 * doy + 2) / 153
  let day := doy - (153 * mp + 2) / 5 + 1
  let month := if mp < 10 then mp + 3 else mp - 9
  let year := yoe + era * 400
  (if month ≤ 2 then year + 1 else year, month, day)

/-- `Date.prototype.toISOString`; years past 9999 take six digits and a sign. -/
def toISOString (t : Date) : String :=
  let (year, month, day) := civilOfDays (t / 86400000)
  let ms := t % 86400000
  (if year ≤ 9999 then padNat 4 year else "+" ++ padNat 6 year) ++ "-" ++ padNat 2 month ++ "-" ++
    padNat 2 day ++ "T" ++ padNat 2 (ms / 3600000) ++ ":" ++ padNat 2 (ms / 60000 % 60) ++ ":" ++
    padNat 2 (ms / 1000 % 60) ++ "." ++ padNat 3 (ms % 1000) ++ "Z"

/-- The digits of a number hold no other character. -/
theorem padNat_not_mem {c : Char} (hc : c.isDigit = false) (width n : Nat) :
    c ∉ (padNat width n).toList := by
  intro h
  rw [padNat_isDigit c h] at hc
  cases hc

theorem padNat_lineFeed (width n : Nat) : '\n' ∉ (padNat width n).toList :=
  padNat_not_mem rfl width n

theorem toISOString_lineFeed (t : Date) : '\n' ∉ (toISOString t).toList := by
  have hyear : ∀ year, '\n' ∉
      (if year ≤ 9999 then padNat 4 year else "+" ++ padNat 6 year).toList := by
    intro year
    split
    · exact padNat_lineFeed 4 year
    · simp [padNat_lineFeed]
  simp only [toISOString, String.toList_append, List.mem_append, hyear, padNat_lineFeed, false_or,
    or_false]
  decide

example : toISOString 1709210096789 = "2024-02-29T12:34:56.789Z" := by decide

/-! ### Rows -/

inductive DeviceStatus where
  | active | revoked
deriving DecidableEq, Repr

inductive TrustStatus where
  | verified | unverified | stale | unknown | external | failed
deriving DecidableEq, Repr

/-- The value as the database and the messages spell it. -/
def TrustStatus.text : TrustStatus → String
  | .verified => "VERIFIED"
  | .unverified => "UNVERIFIED"
  | .stale => "STALE"
  | .unknown => "UNKNOWN"
  | .external => "EXTERNAL"
  | .failed => "FAILED"

structure Tenant where
  id : String
  name : String
deriving DecidableEq, Repr

structure Device where
  id : String
  tenantId : String
  userId : String
  displayName : String
  publicKeyPem : String
  keyAlgorithm : String
  hardwareBound : Bool
  status : DeviceStatus
  lastHeartbeat : Option Date
  enrolledAt : Date
deriving DecidableEq, Repr

structure Meeting where
  id : String
  tenantId : String
  name : String
  createdAt : Date
deriving DecidableEq, Repr

structure Participant where
  id : String
  meetingId : String
  userId : String
  deviceId : Option String
  displayName : String
  trustStatus : TrustStatus
  statusReason : Option String
  joinedAt : Date
  boundAt : Option Date
  lastChallengeAt : Option Date
deriving DecidableEq, Repr

inductive EventType where
  | meetingCreated | participantJoined | deviceBound | deviceEnrolled | deviceReEnrolled
  | challengeNoDevice | challengeIssued | challengePassed | challengeFailed
deriving DecidableEq, Repr

/-- The values that occur in the JSON details of an audit event. -/
inductive Json where
  | str (s : String)
  | bool (b : Bool)
  | null
deriving DecidableEq, Repr

/-- A JSON object; a member that is `undefined` in the source is absent. -/
abbrev Details := List (String × Json)

structure AuditEvent where
  id : String
  tenantId : String
  meetingId : Option String
  eventType : EventType
  actor : String
  details : Details
  createdAt : Date
deriving DecidableEq, Repr

/-! ### Partial updates

The `data` of a Prisma `update`: a field that is `none` is not written. -/

structure DeviceUpdate where
  publicKeyPem : Option String := none
  keyAlgorithm : Option String := none
  hardwareBound : Option Bool := none
  status : Option DeviceStatus := none
  lastHeartbeat : Option Date := none
deriving DecidableEq, Repr

def DeviceUpdate.apply (data : DeviceUpdate) (row : Device) : Device :=
  { row with
    publicKeyPem := data.publicKeyPem.getD row.publicKeyPem
    keyAlgorithm := data.keyAlgorithm.getD row.keyAlgorithm
    hardwareBound := data.hardwareBound.getD row.hardwareBound
    status := data.status.getD row.status
    lastHeartbeat := data.lastHeartbeat.or row.lastHeartbeat }

@[simp] theorem DeviceUpdate.apply_id (data : DeviceUpdate) (row : Device) :
    (data.apply row).id = row.id := rfl

@[simp] theorem DeviceUpdate.apply_tenantId (data : DeviceUpdate) (row : Device) :
    (data.apply row).tenantId = row.tenantId := rfl

@[simp] theorem DeviceUpdate.apply_userId (data : DeviceUpdate) (row : Device) :
    (data.apply row).userId = row.userId := rfl

structure ParticipantUpdate where
  deviceId : Option String := none
  boundAt : Option Date := none
  trustStatus : Option TrustStatus := none
  statusReason : Option String := none
  lastChallengeAt : Option Date := none
deriving DecidableEq, Repr

def ParticipantUpdate.apply (data : ParticipantUpdate) (row : Participant) : Participant :=
  { row with
    deviceId := data.deviceId.or row.deviceId
    boundAt := data.boundAt.or row.boundAt
    trustStatus := data.trustStatus.getD row.trustStatus
    statusReason := data.statusReason.or row.statusReason
    lastChallengeAt := data.lastChallengeAt.or row.lastChallengeAt }

@[simp] theorem ParticipantUpdate.apply_id (data : ParticipantUpdate) (row : Participant) :
    (data.apply row).id = row.id := rfl

@[simp] theorem ParticipantUpdate.apply_meetingId (data : ParticipantUpdate) (row : Participant) :
    (data.apply row).meetingId = row.meetingId := rfl

@[simp] theorem ParticipantUpdate.apply_userId (data : ParticipantUpdate) (row : Participant) :
    (data.apply row).userId = row.userId := rfl

/-! ### Redis records -/

/-- What the hub emits to a device when it challenges it. -/
structure ChallengePayload where
  challengeId : String
  nonce : String
  meetingId : String
  participantId : String
  issuedAt : Date
  expiresAt : Date
deriving DecidableEq, Repr

/-- What the hub keeps about a challenge: the payload and the ids it was issued for. -/
structure ChallengeRecord extends ChallengePayload where
  tenantId : String
  deviceId : String
  userId : String
deriving DecidableEq, Repr

structure JoinToken where
  meetingId : String
  participantId : String
  expiresAt : Date
deriving DecidableEq, Repr

/-- The keys the hub uses in Redis. -/
inductive RedisKey where
  | challenge (challengeId : String)
  | joinToken (token : String)
deriving DecidableEq, Repr

/-- The key as Redis sees it. -/
def RedisKey.text : RedisKey → String
  | .challenge challengeId => "challenge:" ++ challengeId
  | .joinToken token => "join_token:" ++ token

/-- No two keys of the model are one key in Redis. -/
theorem RedisKey.text_injective : Function.Injective RedisKey.text := by
  intro k k' h
  have hl := congrArg String.toList h
  cases k <;> cases k' <;> simp only [RedisKey.text, String.toList_append] at hl
  case challenge.challenge => rw [String.toList_inj.mp (List.append_cancel_left hl)]
  case joinToken.joinToken => rw [String.toList_inj.mp (List.append_cancel_left hl)]
  -- the prefixes differ in their first letter
  all_goals exact absurd (List.cons.inj hl).1 (by decide)

/-- What is stored under a key, as `JSON.parse` gives it back. -/
abbrev RedisKey.Value : RedisKey → Type
  | .challenge _ => ChallengeRecord
  | .joinToken _ => JoinToken

/-! ### Requests and messages -/

/-- A member of a request that may be left out. -/
inductive Member (α : Type) where
  | missing
  | null
  | value (a : α)
deriving DecidableEq, Repr

/-- The value, if there is one: `||` and `??` pass over `null` and `undefined` alike. -/
def Member.value? {α : Type} : Member α → Option α
  | .value a => some a
  | _ => none

structure EnrollDeviceDto where
  tenantId : String
  deviceId : String
  userId : String
  displayName : String
  publicKeyPem : String
  keyAlgorithm : Member String
  hardwareBound : Member Bool
deriving DecidableEq, Repr

/-- The payload of `emitMeetingUpdate`. -/
structure MeetingUpdate where
  participantId : String
  trustStatus : TrustStatus
  reason : String
deriving DecidableEq, Repr

inductive Message where
  /-- `challenge:issue` -/
  | challengeIssue (payload : ChallengePayload)
  /-- `meeting:status-update`; the broadcast form also carries the meeting id -/
  | meetingStatusUpdate (meetingId : Option String) (payload : MeetingUpdate)
deriving DecidableEq, Repr

end TroofAI.Hub
