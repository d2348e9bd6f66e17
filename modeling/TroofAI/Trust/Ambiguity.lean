import TroofAI.Hub.IsoDate
import TroofAI.Trust.Domains

/-!
What the text of a challenge says about the challenge.

Eight of its nine fields have a format without line feeds; device id and user id are free text
and stand next to each other. `signedMaterial_inj` reads the fields off a text whose free fields
are single lines, and the number of line feeds tells such a text from every other
(`signedMaterial_unambiguous_iff`).
-/

namespace TroofAI.Hub

open ChallengeService

/-- The fields of the hub's own making have their formats; device id and user id are any text. -/
structure ChallengeRecord.Admitted (record : ChallengeRecord) : Prop where
  challengeId : ∀ c ∈ record.challengeId.toList, isUuidChar c = true
  tenantId : ∀ c ∈ record.tenantId.toList, isUuidChar c = true
  meetingId : ∀ c ∈ record.meetingId.toList, isUuidChar c = true
  participantId : ∀ c ∈ record.participantId.toList, isUuidChar c = true
  nonce : ∀ c ∈ record.nonce.toList, isBase64Char c = true

/-- Both free fields are single lines. -/
structure ChallengeRecord.SingleLined (record : ChallengeRecord) : Prop where
  deviceId : '\n' ∉ record.deviceId.toList
  userId : '\n' ∉ record.userId.toList

variable {record record' : ChallengeRecord}

theorem lineFeed_not_mem {p : Char → Bool} (hp : p '\n' = false) {s : String}
    (h : ∀ c ∈ s.toList, p c = true) : '\n' ∉ s.toList := by
  intro hmem
  rw [h _ hmem] at hp
  cases hp

namespace ChallengeRecord.Admitted

/-- The line feeds of an admitted text beyond the nine between its lines are those of its free
fields. -/
theorem lineFeeds_eq (h : record.Admitted) : TroofAI.lineFeeds (signedMaterial record) =
    9 + TroofAI.lineFeeds record.deviceId + TroofAI.lineFeeds record.userId := by
  have huuid {s : String} (hs : ∀ c ∈ s.toList, isUuidChar c = true) : TroofAI.lineFeeds s = 0 :=
    lineFeeds_eq_zero_iff.mpr (lineFeed_not_mem rfl hs)
  have hnonce := lineFeeds_eq_zero_iff.mpr (lineFeed_not_mem rfl h.nonce)
  have hdate (t : Date) := lineFeeds_eq_zero_iff.mpr (toISOString_lineFeed t)
  rw [lineFeeds_signedMaterial]
  unfold ChallengeRecord.lineFeeds
  rw [huuid h.challengeId, huuid h.tenantId, huuid h.meetingId, huuid h.participantId, hnonce,
    hdate, hdate]
  omega

end ChallengeRecord.Admitted

/-- The text determines the challenge where its free fields are single lines. -/
theorem signedMaterial_inj (h : record.Admitted) (h' : record'.Admitted)
    (hsingle : record.SingleLined) (hsingle' : record'.SingleLined)
    (heq : signedMaterial record = signedMaterial record') : record = record' := by
  have huuid {s : String} (hs : ∀ c ∈ s.toList, isUuidChar c = true) : '\n' ∉ s.toList :=
    lineFeed_not_mem rfl hs
  unfold signedMaterial at heq
  obtain ⟨-, heq⟩ := joinLines_cons_inj (by decide) (by decide) heq
  obtain ⟨hchallenge, heq⟩ := joinLines_cons_inj (huuid h.challengeId) (huuid h'.challengeId) heq
  obtain ⟨htenant, heq⟩ := joinLines_cons_inj (huuid h.tenantId) (huuid h'.tenantId) heq
  obtain ⟨hdevice, heq⟩ := joinLines_cons_inj hsingle.deviceId hsingle'.deviceId heq
  obtain ⟨huser, heq⟩ := joinLines_cons_inj hsingle.userId hsingle'.userId heq
  obtain ⟨hmeeting, heq⟩ := joinLines_cons_inj (huuid h.meetingId) (huuid h'.meetingId) heq
  obtain ⟨hpart, heq⟩ := joinLines_cons_inj (huuid h.participantId) (huuid h'.participantId) heq
  obtain ⟨hnonce, heq⟩ := joinLines_cons_inj (lineFeed_not_mem (p := isBase64Char) rfl h.nonce)
    (lineFeed_not_mem (p := isBase64Char) rfl h'.nonce) heq
  obtain ⟨hissued, hexpires⟩ :=
    joinLines_cons_inj (toISOString_lineFeed _) (toISOString_lineFeed _) heq
  have hissued := toISOString_injective hissued
  have hexpires := toISOString_injective hexpires
  obtain ⟨⟨_, _, _, _, _, _⟩, _, _, _⟩ := record
  obtain ⟨⟨_, _, _, _, _, _⟩, _, _, _⟩ := record'
  simp_all

/-- A line feed can be the end of the device id or a part of it. -/
theorem signedMaterial_moved (a b : String) :
    signedMaterial { record with deviceId := a, userId := b ++ "\n" ++ record.userId } =
      signedMaterial { record with deviceId := a ++ "\n" ++ b } := by
  simp only [signedMaterial, joinLines, String.append_assoc]

theorem signedMaterial_moved' (a b : String) :
    signedMaterial { record with deviceId := record.deviceId ++ "\n" ++ a, userId := b } =
      signedMaterial { record with userId := a ++ "\n" ++ b } := by
  simp only [signedMaterial, joinLines, String.append_assoc]

/-- The text of an admitted challenge is the text of no other one exactly if neither its device
id nor its user id holds a line feed. -/
theorem signedMaterial_unambiguous_iff (h : record.Admitted) :
    (∀ record' : ChallengeRecord, record'.Admitted →
      signedMaterial record' = signedMaterial record → record' = record) ↔
      record.SingleLined := by
  constructor
  · intro hunique
    constructor
    · intro hfeed
      obtain ⟨a, b, hab⟩ := exists_lines hfeed
      have heq := hunique { record with deviceId := a, userId := b ++ "\n" ++ record.userId }
        ⟨h.challengeId, h.tenantId, h.meetingId, h.participantId, h.nonce⟩
        (by rw [signedMaterial_moved, ← hab])
      have hdevice : a = record.deviceId := congrArg ChallengeRecord.deviceId heq
      exact ne_of_lines (hdevice.trans hab)
    · intro hfeed
      obtain ⟨a, b, hab⟩ := exists_lines hfeed
      have heq := hunique
        { record with deviceId := record.deviceId ++ "\n" ++ a, userId := b }
        ⟨h.challengeId, h.tenantId, h.meetingId, h.participantId, h.nonce⟩
        (by rw [signedMaterial_moved', ← hab])
      have hdevice : record.deviceId ++ "\n" ++ a = record.deviceId :=
        congrArg ChallengeRecord.deviceId heq
      exact ne_of_lines hdevice.symm
  · intro hsingle record' h' heq
    -- the other text has as many line feeds, so none in its free fields
    have hcount := congrArg TroofAI.lineFeeds heq
    rw [h.lineFeeds_eq, h'.lineFeeds_eq, lineFeeds_eq_zero_iff.mpr hsingle.deviceId,
      lineFeeds_eq_zero_iff.mpr hsingle.userId] at hcount
    have hsingle' : record'.SingleLined :=
      ⟨lineFeeds_eq_zero_iff.mp (by omega), lineFeeds_eq_zero_iff.mp (by omega)⟩
    exact signedMaterial_inj h' h hsingle' hsingle heq

section Sample

/-- A challenge in ids of the hub's format, for any device and user. -/
def sampleRecord (deviceId userId : String) : ChallengeRecord :=
  Sample.record (Sample.env 0 0) 22 (Sample.uuid 1) (Sample.uuid 4) (Sample.uuid 7) deviceId userId

theorem sampleRecord_admitted (deviceId userId : String) :
    (sampleRecord deviceId userId).Admitted where
  challengeId := Sample.uuid_chars 22
  tenantId := Sample.uuid_chars 1
  meetingId := Sample.uuid_chars 4
  participantId := Sample.uuid_chars 7
  nonce := Sample.nonce_chars 23

/-- No other challenge has the text of this one. -/
theorem signedMaterial_unambiguous_sample : (sampleRecord "laptop-1" "alice").Admitted ∧
    ∀ record' : ChallengeRecord, record'.Admitted →
      signedMaterial record' = signedMaterial (sampleRecord "laptop-1" "alice") →
        record' = sampleRecord "laptop-1" "alice" :=
  ⟨sampleRecord_admitted "laptop-1" "alice",
    (signedMaterial_unambiguous_iff (sampleRecord_admitted "laptop-1" "alice")).mpr
      ⟨by decide, by decide⟩⟩

/-- The device `laptop` of the user `1`, `alice` on a line of its own, and the device `laptop`,
`1` of the user `alice`. -/
theorem signedMaterial_ambiguous : ¬ ∀ record record' : ChallengeRecord, record.Admitted →
    record'.Admitted → signedMaterial record = signedMaterial record' → record = record' := by
  intro h
  have heq : signedMaterial (sampleRecord "laptop" ("1" ++ "\n" ++ "alice")) =
      signedMaterial (sampleRecord ("laptop" ++ "\n" ++ "1") "alice") :=
    @signedMaterial_moved (sampleRecord "laptop" "alice") "laptop" "1"
  have hsame := h _ _ (sampleRecord_admitted _ _) (sampleRecord_admitted _ _) heq
  exact ne_of_lines (congrArg ChallengeRecord.deviceId hsame)

end Sample

end TroofAI.Hub
