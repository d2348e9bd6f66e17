import TroofAI.History.Rows

/-!
What the tables, the records in Redis and the audit log say of each other.

`Sound` collects it for one world: the rows that other rows and records name are there, a
record agrees with the rows on the meeting of its participant and the tenant of its meeting,
and an audit event carries the tenant of its meeting. Every step keeps it, when what the step
stores or logs agrees with the rows it meets (`exec_sound`).
-/

namespace TroofAI.Hub

open TroofAI.Await

/-- The participant `p` belongs to the meeting `m`. -/
def World.InMeeting (w : World) (p m : String) : Prop :=
  ∃ row, w.participants.find? p = some row ∧ row.meetingId = m

/-- The meeting `m` belongs to the tenant `t`. -/
def World.MeetingIn (w : World) (m t : String) : Prop :=
  ∃ meeting, w.meetings.find? m = some meeting ∧ meeting.tenantId = t

variable {env : Env} {op : Op} {w : World} {p m t : String}

theorem World.InMeeting.kept (h : w.InMeeting p m) : (exec env op w).2.InMeeting p m := by
  obtain ⟨row, hrow, rfl⟩ := h
  obtain ⟨row', hrow', hsame, -⟩ := participant_step hrow
  exact ⟨row', hrow', hsame⟩

theorem World.MeetingIn.kept (h : w.MeetingIn m t) : (exec env op w).2.MeetingIn m t := by
  obtain ⟨meeting, hmeeting, rfl⟩ := h
  exact ⟨meeting, meeting_step hmeeting, rfl⟩

/-- The rows, the records and the audit log agree. -/
structure Sound (w : World) : Prop where
  meetings : ∀ m meeting, w.meetings.find? m = some meeting →
    m ≠ "" ∧ (w.tenants.find? meeting.tenantId).isSome
  participants : ∀ p row, w.participants.find? p = some row → ∃ t, w.MeetingIn row.meetingId t
  tokens : ∀ token parsed deadline,
    w.redis.entry (.joinToken token) = some (parsed, deadline) →
    w.InMeeting parsed.participantId parsed.meetingId
  challenges : ∀ cid record deadline,
    w.redis.entry (.challenge cid) = some (record, deadline) →
    w.InMeeting record.participantId record.meetingId ∧ w.MeetingIn record.meetingId record.tenantId
  audit : ∀ event ∈ w.audit, ∀ m, event.meetingId = some m → w.MeetingIn m event.tenantId

/-- What the operation stores or logs agrees with the rows of `w`. -/
def Op.Fits (w : World) : Op → Prop
  | .redisSet (.joinToken _) parsed _ => w.InMeeting parsed.participantId parsed.meetingId
  | .redisSet (.challenge _) record _ =>
      w.InMeeting record.participantId record.meetingId ∧
        w.MeetingIn record.meetingId record.tenantId
  | .auditCreate data => ∀ m, data.meetingId = some m → w.MeetingIn m data.tenantId
  | _ => True

theorem sound_init (tenants : Table Tenant.id) : Sound (World.init tenants) where
  meetings _ _ h := by cases h
  participants _ _ h := by cases h
  tokens _ _ _ h := by cases h
  challenges _ _ _ h := by cases h
  audit _ h := by cases h

/-! ### One step -/

/-- A join token that is there after a step names a participant and its meeting. -/
theorem exec_token (h : Sound w) (hfits : op.Fits w) {token : String} {parsed : JoinToken}
    {deadline : Nat}
    (hentry : (exec env op w).2.redis.entry (.joinToken token) = some (parsed, deadline)) :
    w.InMeeting parsed.participantId parsed.meetingId := by
  have hstep : RedisStep env w (.joinToken token) ⟨op, (exec env op w).1⟩
    (some (parsed, deadline)) := hentry ▸ exec_redis_entry _
  rcases hstep.found with hold | ⟨ttl, hev⟩
  · exact h.tokens token parsed deadline hold
  · cases congrArg Ev.op hev
    exact hfits

/-- And a challenge names a participant, its meeting and the tenant of that. -/
theorem exec_challenge (h : Sound w) (hfits : op.Fits w) {cid : String} {record : ChallengeRecord}
    {deadline : Nat}
    (hentry : (exec env op w).2.redis.entry (.challenge cid) = some (record, deadline)) :
    w.InMeeting record.participantId record.meetingId ∧
      w.MeetingIn record.meetingId record.tenantId := by
  have hstep : RedisStep env w (.challenge cid) ⟨op, (exec env op w).1⟩
    (some (record, deadline)) := hentry ▸ exec_redis_entry _
  rcases hstep.found with hold | ⟨ttl, hev⟩
  · exact h.challenges cid record deadline hold
  · cases congrArg Ev.op hev
    exact hfits

/-- An event of a meeting that is there after a step carries its tenant. -/
theorem exec_event (h : Sound w) (hfits : op.Fits w) {event : AuditEvent}
    (hevent : event ∈ (exec env op w).2.audit) (hm : event.meetingId = some m) :
    w.MeetingIn m event.tenantId := by
  have hcases : (exec env op w).2.audit = w.audit ∨ _ := exec_audit_cases
  rcases hcases with hsame | ⟨data, row, hev, hgrown⟩
  · rw [hsame] at hevent
    exact h.audit event hevent m hm
  · rw [hgrown, List.mem_append, List.mem_singleton] at hevent
    rcases hevent with hevent | rfl
    · exact h.audit event hevent m hm
    · cases congrArg Ev.op hev
      obtain ⟨rfl, -⟩ := exec_auditCreate_ok (eq_of_heq (Ev.mk.inj hev).2)
      exact hfits m hm

theorem exec_sound (h : Sound w) (hfits : op.Fits w) : Sound (exec env op w).2 where
  meetings m meeting hmeeting := by
    have hstep : MeetingStep env w m ⟨op, (exec env op w).1⟩ (some meeting) :=
      hmeeting ▸ exec_meeting m
    rcases hstep.found with hold | ⟨huuid, htenant⟩
    · obtain ⟨hne, htenant⟩ := h.meetings m meeting hold
      exact ⟨hne, exec_tenant htenant⟩
    · exact ⟨huuid ▸ env.uuid_ne_empty _, exec_tenant htenant⟩
  participants p row hrow := by
    have hstep : ParticipantStep env w p ⟨op, (exec env op w).1⟩ (some row) :=
      hrow ▸ exec_participant p
    rcases hstep.found with ⟨old, hold, hsame⟩ | ⟨-, hmeeting⟩
    · obtain ⟨t, ht⟩ := h.participants p old hold
      rw [hsame] at ht
      exact ⟨t, ht.kept⟩
    · obtain ⟨meeting, hfound⟩ := Option.isSome_iff_exists.mp hmeeting
      have hin : w.MeetingIn row.meetingId meeting.tenantId := ⟨meeting, hfound, rfl⟩
      exact ⟨_, hin.kept⟩
  tokens _ _ _ hentry := (exec_token h hfits hentry).kept
  challenges cid record deadline hentry := by
    obtain ⟨hin, htenant⟩ := exec_challenge h hfits hentry
    exact ⟨hin.kept, htenant.kept⟩
  audit event hevent m hm := (exec_event h hfits hevent hm).kept

end TroofAI.Hub
