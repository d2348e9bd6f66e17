import TroofAI.History.Sound

/-!
What the audit trail of a meeting says of its participants.

`trail` folds the events of a meeting, in the order they were inserted, into a trust status
and a device for each participant. `Consistent` is the agreement of trail and rows. A write to a
participant's row breaks it (`Consistent.update`, `Consistent.create`), in the way `Pending`
says, and the event that tells of the write restores it (`Pending.log`).
-/

namespace TroofAI.Hub

open TroofAI.Await

/-! ### The fold -/

/-- The status with that text. -/
def TrustStatus.ofText : String → Option TrustStatus
  | "VERIFIED" => some .verified
  | "UNVERIFIED" => some .unverified
  | "STALE" => some .stale
  | "UNKNOWN" => some .unknown
  | "EXTERNAL" => some .external
  | "FAILED" => some .failed
  | _ => none

@[simp] theorem TrustStatus.ofText_text (status : TrustStatus) :
    ofText status.text = some status := by
  cases status <;> rfl

/-- The string that a JSON object has as its member `name`. -/
def textOf (details : Details) (name : String) : Option String :=
  match details.find? (·.1 = name) with
  | some (_, .str s) => some s
  | _ => none

/-- Where a participant stands. -/
structure Standing where
  trustStatus : TrustStatus
  deviceId : Option String
deriving DecidableEq, Repr

/-- What an event makes of the standing of the participant `p`; `none` before it has joined. -/
def standingAfter (p : String) (eventType : EventType) (details : Details)
    (standing : Option Standing) : Option Standing :=
  if textOf details "participant_id" = some p then
    match eventType with
    | .participantJoined => some ⟨.unknown, none⟩
    | .deviceBound => some ⟨.verified, textOf details "device_id"⟩
    | .challengeNoDevice => standing.map fun s => { s with trustStatus := .failed }
    | .challengePassed | .challengeFailed =>
        match (textOf details "status").bind TrustStatus.ofText with
        | some status => standing.map fun s => { s with trustStatus := status }
        | none => standing
    | _ => standing
  else standing

/-- What the events of the meeting `m` say of `p`. -/
def trail (m p : String) (audit : List AuditEvent) : Option Standing :=
  (audit.filter (·.meetingId = some m)).foldl
    (fun standing event => standingAfter p event.eventType event.details standing) none

theorem trail_append (m p : String) (audit : List AuditEvent) (event : AuditEvent) :
    trail m p (audit ++ [event]) = if event.meetingId = some m then
      standingAfter p event.eventType event.details (trail m p audit) else trail m p audit := by
  unfold trail
  by_cases h : event.meetingId = some m <;> simp [List.filter_append, h]

theorem standingAfter_other {p : String} {eventType : EventType} {details : Details}
    (standing : Option Standing) (h : textOf details "participant_id" ≠ some p) :
    standingAfter p eventType details standing = standing := by
  unfold standingAfter
  rw [if_neg h]

/-- The events that tell of participants. -/
def EventType.tells : EventType → Bool
  | .participantJoined | .deviceBound | .challengeNoDevice | .challengePassed
  | .challengeFailed => true
  | _ => false

theorem standingAfter_silent {p : String} {eventType : EventType} {details : Details}
    (standing : Option Standing) (h : eventType.tells = false) :
    standingAfter p eventType details standing = standing := by
  unfold standingAfter
  cases eventType <;> simp_all [EventType.tells]

/-! ### Rows and trail -/

/-- Where the row of `p` says it stands, as a participant of the meeting `m`. -/
def World.standing (w : World) (m p : String) : Option Standing :=
  ((w.participants.find? p).filter (·.meetingId = m)).map
    fun row => ⟨row.trustStatus, row.deviceId⟩

/-- The trail says of every participant what its row says. -/
structure Consistent (w : World) : Prop extends Sound w where
  recorded : ∀ m p, trail m p w.audit = w.standing m p

/-- The row of `p` in the meeting `m` has been written and says `now`; the trail still says
`said` of it. -/
structure Pending (w : World) (m p : String) (said now : Option Standing) : Prop
    extends Sound w where
  written : w.standing m p = now
  recorded : ∀ m' p', trail m' p' w.audit = if m' = m ∧ p' = p then said else w.standing m' p'

/-- The operation writes no participant and logs nothing of one. -/
def Op.Quiet : Op → Prop
  | .participantCreate _ | .participantUpdate _ _ => False
  | .auditCreate data => data.eventType.tells = false
  | _ => True

variable {env : Env} {op : Op} {w : World} {m p : String} {said now : Option Standing}

theorem exec_quiet_standing (h : op.Quiet) (m p : String) :
    (exec env op w).2.standing m p = w.standing m p := by
  have hpart : op.part ≠ .participants := by
    cases op <;> first | exact h.elim | simp [Op.part]
  unfold World.standing
  rw [exec_participants hpart]

theorem exec_quiet_trail (h : op.Quiet) (m p : String) :
    trail m p (exec env op w).2.audit = trail m p w.audit := by
  have hcases : (exec env op w).2.audit = w.audit ∨ _ := exec_audit_cases
  rcases hcases with hsame | ⟨data, row, hev, hgrown⟩
  · rw [hsame]
  · cases congrArg Ev.op hev
    obtain ⟨rfl, -⟩ := exec_auditCreate_ok (eq_of_heq (Ev.mk.inj hev).2)
    rw [hgrown, trail_append, standingAfter_silent _ h, ite_self]

theorem Consistent.quiet (h : Consistent w) (hfits : op.Fits w) (hquiet : op.Quiet) :
    Consistent (exec env op w).2 where
  toSound := exec_sound h.toSound hfits
  recorded m p := by rw [exec_quiet_trail hquiet, exec_quiet_standing hquiet, h.recorded]

theorem Pending.quiet (h : Pending w m p said now) (hfits : op.Fits w) (hquiet : op.Quiet) :
    Pending (exec env op w).2 m p said now where
  toSound := exec_sound h.toSound hfits
  written := (exec_quiet_standing hquiet m p).trans h.written
  recorded m' p' := by
    rw [exec_quiet_trail hquiet, exec_quiet_standing hquiet, h.recorded]

/-- A failed operation leaves rows and trail as they are. -/
theorem Consistent.failed {e : HubError} (h : Consistent w) (he : (exec env op w).1 = .error e) :
    Consistent (exec env op w).2 := by
  rw [exec_error he]
  exact ⟨⟨h.meetings, h.participants, h.tokens, h.challenges, h.audit⟩, h.recorded⟩

/-! ### A write and its event -/

theorem standing_of_row {row : Participant} (h : w.participants.find? p = some row) (m : String) :
    w.standing m p = if row.meetingId = m then some ⟨row.trustStatus, row.deviceId⟩ else none := by
  unfold World.standing
  rw [h]
  by_cases hm : row.meetingId = m <;> simp [Option.filter, hm]

theorem standing_of_none (h : w.participants.find? p = none) (m : String) :
    w.standing m p = none := by
  unfold World.standing
  rw [h]
  rfl

/-- What an update makes of where a participant stands. -/
def ParticipantUpdate.standing (data : ParticipantUpdate) (standing : Standing) : Standing where
  trustStatus := data.trustStatus.getD standing.trustStatus
  deviceId := data.deviceId.or standing.deviceId

/-- After an update the event that tells of it is due. -/
theorem Consistent.update {data : ParticipantUpdate} {row' : Participant} (h : Consistent w)
    (hin : w.InMeeting p m) (hdid : (exec env (.participantUpdate p data) w).1 = .ok row') :
    ∃ standing, Pending (exec env (.participantUpdate p data) w).2 m p (some standing)
      (some (data.standing standing)) := by
  obtain ⟨row, hrow, rfl, -, heq⟩ := exec_participantUpdate_ok hdid
  obtain ⟨row', hrow', rfl⟩ := hin
  rw [hrow] at hrow'
  cases hrow'
  have hafter : (exec env (.participantUpdate p data) w).2.participants.find? p =
      some (data.apply row) := by
    rw [heq, Table.find?_modify, if_pos rfl, hrow]
    rfl
  refine ⟨⟨row.trustStatus, row.deviceId⟩, exec_sound h.toSound trivial, ?_, ?_⟩
  · rw [standing_of_row hafter]
    exact if_pos rfl
  · intro m' p'
    rw [exec_audit (by simp [Op.part]), h.recorded]
    by_cases hp : p' = p
    · subst hp
      rw [standing_of_row hrow, standing_of_row hafter]
      by_cases hm : row.meetingId = m'
      · subst hm
        simp
      · have hm' : ¬ m' = row.meetingId := fun h => hm h.symm
        simp [hm, hm']
    · unfold World.standing
      rw [heq, Table.find?_modify, if_neg hp, if_neg fun h => hp h.2]

/-- And so it is after a participant has been added. -/
theorem Consistent.create {data : ParticipantCreate} {row : Participant} (h : Consistent w)
    (hdid : (exec env (.participantCreate data) w).1 = .ok row) :
    Pending (exec env (.participantCreate data) w).2 data.meetingId row.id none
      (some ⟨data.trustStatus, none⟩) := by
  obtain ⟨hrow, -, participants, hinsert, heq⟩ := exec_participantCreate_ok hdid
  have hafter : (exec env (.participantCreate data) w).2.participants.find? row.id = some row := by
    rw [heq, Table.find?_insert? hinsert, if_pos rfl]
  refine ⟨exec_sound h.toSound trivial, ?_, ?_⟩
  · rw [standing_of_row hafter, hrow]
    exact if_pos rfl
  · intro m' p'
    rw [exec_audit (by simp [Op.part]), h.recorded]
    by_cases hp : p' = row.id
    · subst hp
      rw [standing_of_none (Table.insert?_fresh hinsert), standing_of_row hafter, hrow]
      by_cases hm : data.meetingId = m'
      · subst hm
        simp [ParticipantCreate.row]
      · simp [ParticipantCreate.row, hm]
    · have hne : ¬ row.id = p' := fun h => hp h.symm
      unfold World.standing
      rw [heq, Table.find?_insert? hinsert, if_neg hne, if_neg fun h => hp h.2]

/-- The event that was due makes the trail say what the row says. -/
theorem Pending.log {data : AuditCreate} {event : AuditEvent} (h : Pending w m p said now)
    (hm : data.meetingId = some m) (htenant : w.MeetingIn m data.tenantId)
    (hp : textOf data.details "participant_id" = some p)
    (hmeans : standingAfter p data.eventType data.details said = now)
    (hdid : (exec env (.auditCreate data) w).1 = .ok event) :
    Consistent (exec env (.auditCreate data) w).2 where
  toSound := by
    refine exec_sound h.toSound fun m' hm' => ?_
    rw [hm] at hm'
    cases hm'
    exact htenant
  recorded m' p' := by
    obtain ⟨rfl, -, -, hgrown⟩ := exec_auditCreate_ok hdid
    have hsame : (exec env (.auditCreate data) w).2.standing m' p' = w.standing m' p' := by
      unfold World.standing
      rw [exec_participants (by simp [Op.part])]
    rw [hgrown, trail_append, hsame, h.recorded]
    dsimp only
    rw [hm]
    by_cases hp' : p' = p
    · subst hp'
      by_cases hm' : m' = m
      · subst hm'
        simp [hmeans, h.written]
      · have hne : ¬ m = m' := fun h => hm' h.symm
        simp [hm', hne]
    · have hother : textOf data.details "participant_id" ≠ some p' := by
        rw [hp]
        exact fun h => hp' (Option.some.inj h).symm
      simp [standingAfter_other _ hother, hp']

end TroofAI.Hub
