import TroofAI.History.Sound
import TroofAI.History.Growth
import TroofAI.Trust.Authentic
import TroofAI.Trust.Delivery

/-!
What the messages of the hub say.

A challenge is sent by the call that has stored it, to the socket that is registered for the device
it was issued to at that moment. A status update is sent by the call that has written the status to
a participant of the meeting and logged it (`messages_truthful`). So the sockets never hear of what
has not happened, however the calls interleave and whichever store calls are rejected.
-/

namespace TroofAI.Hub

open TroofAI.Await MeetingService ChallengeService

variable {env : Env} {cfg : HubConfig} {socket : String} {message : Message}

/-! ### What a step sends -/

/-- In the world `w` the operation sends the message to the socket. -/
inductive Sends (w : World) : Op → String → Message → Prop where
  | challenge {deviceId payload socket} :
      Gateway.mapGet w.gateway.deviceSockets deviceId = some socket →
      Sends w (.emitChallengeToDevice deviceId payload) socket (.challengeIssue payload)
  | subscriber {meetingId update socket} : socket ∈ w.gateway.subscribers meetingId →
      Sends w (.emitMeetingUpdate meetingId update) socket (.meetingStatusUpdate none update)
  | client {meetingId update socket} : socket ∈ w.gateway.connected →
      Sends w (.emitMeetingUpdate meetingId update) socket
        (.meetingStatusUpdate (some meetingId) update)

/-- What is sent after a step was sent before or is sent by the step. -/
theorem exec_sent {op : Op} {w : World} (h : (socket, message) ∈ (exec env op w).2.gateway.sent) :
    (socket, message) ∈ w.gateway.sent ∨ Sends w op socket message := by
  by_cases hpart : op.part = .gateway
  · cases op with
    | socket event =>
      left
      have hsame := Gateway.handle_sent (g := w.gateway) w.gateway.sent event
      change (socket, message) ∈ (w.gateway.handle event).sent at h
      change w.gateway.handle event =
        { w.gateway.handle event with sent := w.gateway.sent } at hsame
      rw [hsame] at h
      exact h
    | emitChallengeToDevice deviceId payload =>
      change (socket, message) ∈ (w.gateway.emitChallengeToDevice deviceId payload).sent at h
      unfold Gateway.emitChallengeToDevice at h
      split at h
      · next registered hget =>
        simp only [Gateway.emit, List.mem_append, List.mem_singleton, Prod.mk.injEq] at h
        rcases h with h | ⟨rfl, rfl⟩
        · exact .inl h
        · exact .inr (.challenge hget)
      · exact .inl h
    | emitMeetingUpdate meetingId update =>
      change (socket, message) ∈ (w.gateway.emitMeetingUpdate meetingId update).sent at h
      rw [Gateway.emitMeetingUpdate_eq] at h
      simp only [List.mem_append, List.mem_map, Prod.mk.injEq] at h
      rcases h with (h | ⟨s, hs, rfl, rfl⟩) | ⟨s, hs, rfl, rfl⟩
      · exact .inl h
      · exact .inr (.subscriber hs)
      · exact .inr (.client hs)
    | _ => cases hpart
  · rw [exec_gateway hpart] at h
    exact .inl h

/-- So every message was sent by an event of the run. -/
theorem message_sent (reach : Reachable env cfg)
    (h : (socket, message) ∈ cfg.store.gateway.sent) :
    ∃ later e earlier, cfg.trace = later ++ e :: earlier ∧
      Sends e.before e.ev.op socket message := by
  induction reach with
  | init hs =>
    obtain ⟨tenants, rfl⟩ := hs
    cases h
  | start c _ ih => exact ih h
  | @perform cfg i c op k _ _ _ ih =>
    rcases exec_sent h with hold | hsends
    · obtain ⟨later, e, earlier, ht, hsends⟩ := ih hold
      exact ⟨_ :: later, e, earlier, congrArg (List.cons _) ht, hsends⟩
    · exact ⟨[], _, cfg.trace, rfl, hsends⟩

/-! ### What the sender has read and recorded -/

/-- The participants a call has read are of the meeting it read. -/
theorem rows_inMeeting (reach : Reachable env cfg) {i : Nat} {meetingId : String}
    {rows : List (Participant × Option Device)} {row : Participant × Option Device}
    (hread : ⟨.participantFindMany meetingId, .ok rows⟩ ∈ own i cfg.trace) (hrow : row ∈ rows) :
    cfg.store.InMeeting row.1.id meetingId := by
  obtain ⟨g, hg, -, hgev⟩ := mem_own.mp hread
  obtain ⟨later, earlier, ht⟩ := List.append_of_mem hg
  rw [← exec_participantFindMany_ok (hub_did reach hg hgev)] at hrow
  have hfound : g.before.participants.find? row.1.id = some row.1 :=
    Table.find?_eq_some.mpr ⟨World.mem_of_mem_participantsOf hrow, rfl⟩
  obtain ⟨row', hrow', hmeeting, -⟩ := participant_kept reach ht hfound
  exact ⟨row', hrow', hmeeting.trans (World.meetingId_of_mem_participantsOf hrow)⟩

/-- And a challenge it has read is one to a participant of the challenge's meeting. -/
theorem record_inMeeting (reach : Reachable env cfg) {i : Nat} {challengeId : String}
    {record : ChallengeRecord}
    (hread : ⟨.redisGet (.challenge challengeId), .ok (some record)⟩ ∈ own i cfg.trace) :
    cfg.store.InMeeting record.participantId record.meetingId := by
  obtain ⟨g, hg, -, hgev⟩ := mem_own.mp hread
  obtain ⟨later, earlier, htg⟩ := List.append_of_mem hg
  obtain ⟨since, s, older, deadline, rfl, hstored, -⟩ := read_stored reach htg hgev
  obtain ⟨ttl, hs, -⟩ := hstored.ev
  have hts : cfg.trace = (later ++ g :: since) ++ s :: older := by simp [htg]
  obtain ⟨m, rows, row, -, hmany, hrow, hid, -⟩ := (stored_issued reach hts hs).reads
  rw [← hid]
  apply rows_inMeeting reach (i := s.id) _ hrow
  rw [hts, own_append, own_cons_self]
  simp [hmany]

/-- A participant's meeting has an id that is not empty. -/
theorem inMeeting_ne_empty (reach : Reachable env cfg) {p m : String}
    (h : cfg.store.InMeeting p m) : m ≠ "" := by
  obtain ⟨row, hrow, rfl⟩ := h
  obtain ⟨meeting, hmeeting⟩ := participant_meeting reach hrow
  obtain ⟨n, hn⟩ := meeting_drawn reach hmeeting
  rw [hn]
  exact env.uuid_ne_empty n

/-! ### The messages -/

/-- The status that `update` reports was written by `w` to a participant of the meeting. -/
def Written (meetingId : String) (update : MeetingUpdate) (w : HubEntry) : Prop :=
  ∃ data row, w.ev = ⟨.participantUpdate update.participantId data, .ok row⟩ ∧
    row.meetingId = meetingId ∧ row.trustStatus = update.trustStatus ∧
    row.statusReason = some update.reason

/-- And logged by `a`. -/
def Logged (meetingId : String) (update : MeetingUpdate) (a : HubEntry) (event : AuditEvent) :
    Prop :=
  (∃ data, a.ev = ⟨.auditCreate data, .ok event⟩) ∧ event.meetingId = some meetingId ∧
    ("participant_id", .str update.participantId) ∈ event.details

/-- What the message reports is what its sender `e` has done before, among the events `earlier`,
and the socket is one the message is for. -/
inductive Truthful (e : HubEntry) (earlier : Trace) (socket : String) : Message → Prop where
  | challenge {record since s older} : earlier = since ++ s :: older → s.id = e.id →
      IssuedFor older s record.challengeId record record.participantId record.deviceId →
      Gateway.mapGet e.before.gateway.deviceSockets record.deviceId = some socket →
      Truthful e earlier socket (.challengeIssue record.toChallengePayload)
  | update {meetingId update since a between w older event form} :
      earlier = since ++ a :: (between ++ w :: older) → a.id = e.id → w.id = e.id →
      Written meetingId update w → Logged meetingId update a event → event ∈ e.before.audit →
      (form = none ∧ socket ∈ e.before.gateway.subscribers meetingId ∨
        form = some meetingId ∧ socket ∈ e.before.gateway.connected) →
      Truthful e earlier socket (.meetingStatusUpdate form update)

/-- A write of the sender with the history it has leaves the row as the message says. -/
theorem written (reach : Reachable env cfg) {later older : Trace} {w : HubEntry}
    {meetingId p reason : String} {status : TrustStatus} {data : ParticipantUpdate}
    {row : Participant} (ht : cfg.trace = later ++ w :: older)
    (hw : w.ev = ⟨.participantUpdate p data, .ok row⟩) (hin : w.before.InMeeting p meetingId)
    (hstatus : data.trustStatus = some status) (hreason : data.statusReason = some reason) :
    Written meetingId ⟨p, status, reason⟩ w := by
  obtain ⟨old, hold, rfl, -⟩ := exec_participantUpdate_ok (hub_did reach (ht ▸ by simp) hw)
  obtain ⟨row, hrow, rfl⟩ := hin
  rw [hold] at hrow
  cases hrow
  refine ⟨data, _, hw, rfl, ?_, ?_⟩
  · simp [ParticipantUpdate.apply, hstatus]
  · simp [ParticipantUpdate.apply, hreason]

/-- The event that the sender has logged names the meeting and the participant. -/
theorem logged (reach : Reachable env cfg) {a : HubEntry} {input : AuditLogInput}
    {event : AuditEvent} {meetingId : String} {update : MeetingUpdate} (ha : a ∈ cfg.trace)
    (hev : a.ev = ⟨.auditCreate (AuditService.row input), .ok event⟩)
    (hmeeting : input.meetingId = some meetingId) (hne : meetingId ≠ "")
    (hdetails : ("participant_id", .str update.participantId) ∈ input.details) :
    Logged meetingId update a event := by
  obtain ⟨rfl, -⟩ := exec_auditCreate_ok (hub_did reach ha hev)
  exact ⟨⟨_, hev⟩, AuditService.row_meetingId.mpr ⟨hmeeting, hne⟩, hdetails⟩

/-- The two records a status update rests on, found in its sender's history. -/
theorem announced (reach : Reachable env cfg) {later earlier : Trace} {e : HubEntry}
    {meetingId : String} {update : MeetingUpdate} (ht : cfg.trace = later ++ e :: earlier)
    (hop : e.ev.op = .emitMeetingUpdate meetingId update) :
    ∃ since a between w older event, earlier = since ++ a :: (between ++ w :: older) ∧
      a.id = e.id ∧ w.id = e.id ∧ Written meetingId update w ∧ Logged meetingId update a event ∧
      event ∈ e.before.audit := by
  have hannounces : Announces env e.call (own e.id earlier) meetingId update :=
    point_emitMeetingUpdate (hop ▸ hub_point reach ht)
  obtain ⟨pre, -, hpre, rfl, hstore, -⟩ := reach.cut ht
  -- the events of the sender before the message, and what it had read when it wrote
  have hshape : ∃ input event data row reads,
      own e.id pre.trace = ⟨.auditCreate (AuditService.row input), .ok event⟩ ::
        ⟨.participantUpdate update.participantId data, .ok row⟩ :: reads ∧
      input.meetingId = some meetingId ∧
      ("participant_id", .str update.participantId) ∈ input.details ∧
      data.trustStatus = some update.trustStatus ∧ data.statusReason = some update.reason ∧
      ∀ mid : HubConfig, Reachable env mid → own e.id mid.trace = reads →
        mid.store.InMeeting update.participantId meetingId := by
    generalize hown : own e.id pre.trace = past at hannounces
    generalize e.call = c at hannounces
    cases hannounces with
    | @noDevice _ m rows row start t p event hloop hrow hbound =>
      refine ⟨_, event, _, p, _, rfl, rfl, List.mem_cons_self, rfl, rfl, ?_⟩
      intro mid hmid hreads
      obtain ⟨turns, rfl⟩ := hloop
      exact rows_inMeeting hmid (i := e.id) (by rw [hreads]; simp) hrow
    | @verdict challengeId deviceId signature challenge device checkedAt reads now t p event hacc =>
      refine ⟨_, event, _, p, _, rfl, rfl, ?_, rfl, rfl, ?_⟩
      · exact List.mem_cons_of_mem _ List.mem_cons_self
      intro mid hmid hreads
      have hget : ⟨.redisGet (.challenge challengeId), .ok (some challenge)⟩ ∈
          own e.id mid.trace := by
        rw [hreads, hacc.past_eq]
        simp
      exact record_inMeeting hmid hget
  obtain ⟨input, event, data, row, reads, hown, hmeeting, hdetails, hstatus, hreason, hin⟩ := hshape
  obtain ⟨since, a, rest, hrest, haid, haev, -, hold⟩ := own_head hown
  obtain ⟨between, w, older, rfl, hwid, hwev, -, hreads⟩ := own_head hold
  have htw : pre.trace = (since ++ a :: between) ++ w :: older := by simp [hrest]
  obtain ⟨mid, -, hmid, rfl, hmidStore, -⟩ := hpre.cut htw
  have hinw : w.before.InMeeting update.participantId meetingId := hmidStore ▸ hin mid hmid hreads
  have hne := inMeeting_ne_empty hmid (hin mid hmid hreads)
  have ha : a ∈ pre.trace := hrest ▸ by simp
  have hwritten := written hpre htw hwev hinw hstatus hreason
  have hlogged : Logged meetingId update a event := logged hpre ha haev hmeeting hne hdetails
  exact ⟨since, a, between, w, mid.trace, event, hrest, haid, hwid, hwritten, hlogged,
    hstore ▸ audit_kept hpre ha haev⟩

/-- The sender of a challenge has stored it. -/
theorem sent_stored (reach : Reachable env cfg) {later earlier : Trace} {e : HubEntry}
    {deviceId : String} {payload : ChallengePayload} (ht : cfg.trace = later ++ e :: earlier)
    (hop : e.ev.op = .emitChallengeToDevice deviceId payload) :
    ∃ record since s older, earlier = since ++ s :: older ∧ s.id = e.id ∧
      s.ev = ⟨.redisSet (.challenge record.challengeId) record 15, .ok ()⟩ ∧
      record.toChallengePayload = payload ∧ record.deviceId = deviceId := by
  obtain ⟨record, reads, hpayload, hdevice, hown⟩ := point_emitChallenge (hop ▸ hub_point reach ht)
  obtain ⟨since, s, older, hold, hid, hs, -⟩ := own_head hown
  exact ⟨record, since, s, older, hold, hid, hs, hpayload, hdevice⟩

/-- Every message reports what its sender has done before. -/
theorem messages_truthful (reach : Reachable env cfg)
    (h : (socket, message) ∈ cfg.store.gateway.sent) :
    ∃ later e earlier, cfg.trace = later ++ e :: earlier ∧ Truthful e earlier socket message := by
  obtain ⟨later, e, earlier, ht, hsends⟩ := message_sent reach h
  refine ⟨later, e, earlier, ht, ?_⟩
  generalize hop : e.ev.op = op at hsends
  cases hsends with
  | @challenge deviceId payload _ hget =>
    obtain ⟨record, since, s, older, rfl, hid, hs, rfl, rfl⟩ := sent_stored reach ht hop
    have hts : cfg.trace = (later ++ e :: since) ++ s :: older := by simp [ht]
    exact .challenge rfl hid (stored_issued reach hts hs) hget
  | subscriber hsocket =>
    obtain ⟨since, a, between, w, older, event, hcut, ha, hw, hwritten, hlogged, haudit⟩ :=
      announced reach ht hop
    exact .update hcut ha hw hwritten hlogged haudit (.inl ⟨rfl, hsocket⟩)
  | client hsocket =>
    obtain ⟨since, a, between, w, older, event, hcut, ha, hw, hwritten, hlogged, haudit⟩ :=
      announced reach ht hop
    exact .update hcut ha hw hwritten hlogged haudit (.inr ⟨rfl, hsocket⟩)

/-- Alice's device gets its challenge. -/
theorem messages_truthful_sample : ∃ cfg message later e earlier,
    Reachable (Sample.env 0 0) cfg ∧ ("agent", message) ∈ cfg.store.gateway.sent ∧
    cfg.trace = later ++ e :: earlier ∧ Truthful e earlier "agent" message := by
  let env := Sample.env 0 0
  let calls := Sample.bound env ++ [.socket (.connection "agent"),
    .socket (.deviceConnect "agent" "laptop-1"), .issueChallenge (Sample.uuid 4)]
  have hany : ((Sample.run env calls).store.gateway.sent.any fun m => m.1 = "agent") = true := by
    decide +kernel
  obtain ⟨⟨socket, message⟩, hsent, hsocket⟩ := List.any_eq_true.mp hany
  obtain rfl := of_decide_eq_true hsocket
  have hreach := Sample.run_reachable env calls
  obtain ⟨later, e, earlier, ht, htrue⟩ := messages_truthful hreach hsent
  exact ⟨_, message, later, e, earlier, hreach, hsent, ht, htrue⟩

end TroofAI.Hub
