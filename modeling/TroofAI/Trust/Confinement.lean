import TroofAI.Trust.Identity

/-!
Binds and meetings.

`bindDevice` compares the meeting of its path with the one in the join token, and
`issueJoinToken` puts the meeting of its own path there. Neither looks at the meeting that
the participant belongs to, although `issueJoinToken` has read its row. So a bind stays
within its meeting exactly if the token was requested there (`bind_confined_iff`).
-/

namespace TroofAI.Hub

open TroofAI.Await MeetingService

variable {env : Env} {cfg : HubConfig} {p d m : String}

/-- The audit event `row` is recorded under the meeting of the participant `p` and the tenant
of that meeting. -/
def World.RecordsUnder (w : World) (p : String) (row : AuditEvent) : Prop :=
  ∃ participant meeting, w.participants.find? p = some participant ∧
    w.meetings.find? participant.meetingId = some meeting ∧
    row.meetingId = some participant.meetingId ∧ row.tenantId = meeting.tenantId

/-- The bind that the event `b` wrote on the participant `p` stays within the meeting `m`: the
participant belongs to it, and what the call logs is recorded under the participant's meeting
and its tenant. -/
structure BindConfined (trace : Trace) (b : HubEntry) (p m : String) : Prop where
  row : ∃ row, b.before.participants.find? p = some row ∧ row.meetingId = m
  audit : ∀ a ∈ trace, a.id = b.id → ∀ data row, a.ev = ⟨.auditCreate data, .ok row⟩ →
    row.eventType = .deviceBound ∧ a.before.RecordsUnder p row

/-- The call that stored a join token at `s` had read the row of the participant `p`, and `p`
belongs to the meeting `m` there. -/
def RequestedIn (older : Trace) (s : HubEntry) (p m : String) : Prop :=
  ∃ row, ⟨.participantFindUnique p, .ok (some row)⟩ ∈ own s.id older ∧ row.meetingId = m

/-- `issueJoinToken` itself writes no participant's row. -/
theorem token_writes_no_row {past : List Event} {op : Op} (h : TokenPoint m p past op) :
    op.part ≠ .participants := by
  cases h <;> simp [Op.part]

/-- The row an issued token is for was read. -/
theorem token_read (reach : Reachable env cfg) {later older : Trace} {s : HubEntry}
    {joinToken : String} {expiresAt : Date} (ht : cfg.trace = later ++ s :: older)
    (h : TokenIssued s joinToken m p expiresAt) :
    ∃ row, ⟨.participantFindUnique p, .ok (some row)⟩ ∈ own s.id older := by
  have hpoint := hub_point reach ht
  rw [h.call, h.event] at hpoint
  generalize own s.id older = past at hpoint ⊢
  cases hpoint with
  | @set row token t => exact ⟨row, by simp⟩

/-- A row that was read earlier is in the same meeting still. -/
theorem read_kept (reach : Reachable env cfg) {newer older : Trace} {i : Nat} {row : Participant}
    (ht : cfg.trace = newer ++ older)
    (hread : ⟨.participantFindUnique p, .ok (some row)⟩ ∈ own i older) :
    ∃ row', cfg.store.participants.find? p = some row' ∧ row'.meetingId = row.meetingId := by
  obtain ⟨r, hr, -, hev⟩ := mem_own.mp hread
  have hmem : r ∈ cfg.trace := by
    rw [ht]
    exact List.mem_append_right _ hr
  have hfind : r.before.participants.find? p = some row :=
    exec_participantFindUnique_ok (hub_did reach hmem hev)
  obtain ⟨later, earlier, htr⟩ := List.append_of_mem hmem
  obtain ⟨row', hrow', hmeeting, -⟩ := participant_kept reach htr hfind
  exact ⟨row', hrow', hmeeting⟩

/-- The only write to a participant's row that a `bindDevice` call performs is its bind. -/
theorem bind_write_length {joinToken signature : String} {past : List Event} {op : Op}
    (h : BindPoint env m joinToken d signature past op) (hop : op.part = .participants) :
    past.length = 4 := by
  cases h with
  | bind hacc =>
    rw [hacc.past_eq]
    rfl
  | _ => cases hop

theorem bind_write_eq (reach : Reachable env cfg) {joinToken signature : String}
    {b x : HubEntry} (hb : b ∈ cfg.trace) (hx : x ∈ cfg.trace) (hid : x.id = b.id)
    (hcall : b.call = .bindDevice m joinToken d signature) (hbop : b.ev.op.part = .participants)
    (hxop : x.ev.op.part = .participants) : x = b := by
  have honce : AtMostOnce (fun e => e.id = b.id ∧ e.ev.op.part = .participants) cfg.trace := by
    apply atMostOnce_of_length 4
    · intro later e earlier ht ⟨heid, heop⟩
      have hpoint := hub_point reach ht
      rw [reach.same_call (ht ▸ by simp) hb heid, hcall] at hpoint
      exact bind_write_length hpoint heop
    · intro e _ e' _ h h'
      exact h.1.trans h'.1.symm
  exact honce.eq hx hb ⟨hid, hxop⟩ ⟨rfl, hbop⟩

/-- What a `bindDevice` call logs, and what it has done before. -/
theorem bind_audit (reach : Reachable env cfg) {joinToken signature : String}
    {later earlier : Trace} {a : HubEntry} {data : AuditCreate}
    (ht : cfg.trace = later ++ a :: earlier)
    (hcall : a.call = .bindDevice m joinToken d signature) (hop : a.ev.op = .auditCreate data) :
    ∃ meeting parsed device update row,
      data = AuditService.row (boundLog meeting m d parsed device) ∧
      ⟨.meetingFindUnique m, .ok (some meeting)⟩ ∈ own a.id earlier ∧
      ⟨.participantUpdate parsed.participantId update, .ok row⟩ ∈ own a.id earlier := by
  have hpoint := hub_point reach ht
  rw [hcall, hop] at hpoint
  generalize own a.id earlier = past at hpoint ⊢
  cases hpoint with
  | @log parsed device _ t row meeting hacc =>
    exact ⟨meeting, parsed, device, _, row, rfl, by simp, by simp⟩

/-- What the call of a bind within its meeting logs is recorded there. -/
theorem bind_recorded (reach : Reachable env cfg) {joinToken signature : String}
    {b a : HubEntry} {update : ParticipantUpdate} {row : Participant} {data : AuditCreate}
    {event : AuditEvent} (hb : b ∈ cfg.trace) (ha : a ∈ cfg.trace) (hid : a.id = b.id)
    (hcall : b.call = .bindDevice m joinToken d signature)
    (hbev : b.ev = ⟨.participantUpdate p update, .ok row⟩)
    (hmeeting : ∃ row, b.before.participants.find? p = some row ∧ row.meetingId = m)
    (haev : a.ev = ⟨.auditCreate data, .ok event⟩) :
    event.eventType = .deviceBound ∧ a.before.RecordsUnder p event := by
  obtain ⟨later, earlier, ht⟩ := List.append_of_mem ha
  have hacall := (reach.same_call ha hb hid).trans hcall
  obtain ⟨meeting, parsed, device, update', row', rfl, hread, hwrite⟩ :=
    bind_audit reach ht hacall (by rw [haev])
  -- the write in the call's history is `b`
  obtain ⟨x, hx, hxid, hxev⟩ := mem_own.mp hwrite
  have hxb : x = b := by
    refine bind_write_eq reach hb (ht ▸ by simp [hx]) (hxid.trans hid) hcall ?_ ?_
    · rw [hbev]
      rfl
    · rw [hxev]
      rfl
  subst hxb
  rw [hbev] at hxev
  cases hxev
  -- the rows the call has met are there when it logs
  obtain ⟨pre, -, hpre, rfl, hstore, -⟩ := reach.cut ht
  rw [← hstore]
  obtain ⟨row, hrow, rfl⟩ := hmeeting
  obtain ⟨between, older, htx⟩ := List.append_of_mem hx
  obtain ⟨row', hrow', hsame, -⟩ := participant_kept hpre htx hrow
  have hfind := meeting_read hpre hread
  obtain ⟨n, hn⟩ := meeting_drawn hpre hfind
  obtain ⟨rfl, -⟩ := exec_auditCreate_ok (hub_did reach ha haev)
  refine ⟨rfl, row', meeting, hrow', by rw [hsame]; exact hfind, ?_, rfl⟩
  simp [AuditService.row, boundLog, hsame, hn, env.uuid_ne_empty n]

/-- The calls that issued the token and that bound write no row but the one of the bind `b`;
and the bind stays within the meeting of the two calls exactly if the participant belonged
to that meeting when the token was requested. -/
theorem bind_confined_iff (reach : Reachable env cfg) {later earlier : Trace} {b : HubEntry}
    (ht : cfg.trace = later ++ b :: earlier) (hbinds : Binds p d b) :
    ∃ m joinToken signature expiresAt between s older,
      b.call = .bindDevice m joinToken d signature ∧ earlier = between ++ s :: older ∧
      TokenIssued s joinToken m p expiresAt ∧
      (∀ x ∈ cfg.trace, x.id = b.id ∨ x.id = s.id → x.ev.op.part = .participants → x = b) ∧
      (BindConfined cfg.trace b p m ↔ RequestedIn older s p m) := by
  obtain ⟨m, joinToken, signature, expiresAt, device, hcall, ⟨between, g, since, s, older, rfl, -,
    -, hissued⟩, -⟩ := binds_token reach ht hbinds
  obtain ⟨data, row, hev, -⟩ := hbinds
  have hb : b ∈ cfg.trace := ht ▸ by simp
  have hs : s ∈ cfg.trace := ht ▸ by simp
  have hbop : b.ev.op.part = .participants := by rw [hev]; rfl
  refine ⟨m, joinToken, signature, expiresAt, between ++ g :: since, s, older, hcall, by simp,
    hissued, ?_, ?_⟩
  · intro x hx hid hop
    rcases hid with hid | hid
    · exact bind_write_eq reach hb hx hid hcall hbop hop
    · obtain ⟨l, l', htx⟩ := List.append_of_mem hx
      have hpoint := hub_point reach htx
      rw [reach.same_call hx hs hid, hissued.call] at hpoint
      exact absurd hop (token_writes_no_row hpoint)
  · -- the row the token was requested for is the row that is bound
    have hts : cfg.trace = (later ++ b :: (between ++ g :: since)) ++ s :: older := by simp [ht]
    obtain ⟨pre, -, hpre, htrace, hstore, -⟩ := reach.cut ht
    have hold : pre.trace = (between ++ g :: (since ++ [s])) ++ older := by simp [htrace]
    constructor
    · rintro ⟨⟨row', hrow', hm⟩, -⟩
      obtain ⟨read, hread⟩ := token_read reach hts hissued
      obtain ⟨row'', hrow'', hsame⟩ := read_kept hpre hold hread
      rw [hstore, hrow'] at hrow''
      cases hrow''
      exact ⟨read, hread, hsame.symm.trans hm⟩
    · rintro ⟨read, hread, hm⟩
      obtain ⟨row', hrow', hsame⟩ := read_kept hpre hold hread
      rw [hstore] at hrow'
      have hmeeting : ∃ row, b.before.participants.find? p = some row ∧ row.meetingId = m :=
        ⟨row', hrow', hsame.trans hm⟩
      exact ⟨hmeeting, fun a ha hid data event haev =>
        bind_recorded reach hb ha hid hcall hev hmeeting haev⟩

section Sample

/-- The bind of alice's device stays within its meeting exactly if the token was requested there. -/
theorem bind_confined_iff_sample :
    let cfg := Sample.run (Sample.env 0 0) (Sample.bound (Sample.env 0 0))
    ∃ b m s older, b ∈ cfg.trace ∧ Binds (Sample.uuid 7) "laptop-1" b ∧
      (BindConfined cfg.trace b (Sample.uuid 7) m ↔ RequestedIn older s (Sample.uuid 7) m) := by
  intro cfg
  have hany : (Sample.run (Sample.env 0 0) (Sample.bound (Sample.env 0 0))).trace.any
      (Sample.binds (Sample.uuid 7) "laptop-1") = true := by decide +kernel
  have hrun := Sample.run_reachable (Sample.env 0 0) (Sample.bound (Sample.env 0 0))
  obtain ⟨later, b, earlier, ht, hf⟩ := Sample.exists_event hany
  have hbinds := Sample.ev_of_binds hf
  obtain ⟨m, _, _, _, _, s, older, -, -, -, -, hiff⟩ := bind_confined_iff hrun ht hbinds
  exact ⟨b, m, s, older, ht ▸ by simp, hbinds, hiff⟩

/-- Alice's participant belongs to the meeting of step 4. A token for it is requested in the
meeting of step 9, of another tenant, and alice's device is bound there. -/
def strayRun : HubConfig :=
  let env := Sample.env 0 0
  Sample.run env ([Sample.enroll "tenant-acme" "laptop-1" "alice" "pem-1",
    .create "tenant-acme" "Standup", .addParticipant (Sample.uuid 4) "alice" "Alice",
    .create "tenant-globex" "Board", .issueJoinToken (Sample.uuid 9) (Sample.uuid 7),
    Sample.bind env 12 (Sample.uuid 9) (Sample.uuid 7) "laptop-1" "pem-1"])

/-- The event binds alice's participant, which is in the meeting of step 4 then. -/
def bindsInStandup (e : HubEntry) : Bool :=
  Sample.binds (Sample.uuid 7) "laptop-1" e &&
    (e.before.participants.find? (Sample.uuid 7)).any (·.meetingId = Sample.uuid 4)

/-- The bind of the one meeting writes a row of the other, and is recorded under the wrong
meeting and tenant. -/
theorem stray_bind : ∃ cfg b event, Reachable (Sample.env 0 0) cfg ∧ b ∈ cfg.trace ∧
    b.call = Sample.bind (Sample.env 0 0) 12 (Sample.uuid 9) (Sample.uuid 7) "laptop-1" "pem-1" ∧
    Binds (Sample.uuid 7) "laptop-1" b ∧
    (∃ row, b.before.participants.find? (Sample.uuid 7) = some row ∧
      row.meetingId = Sample.uuid 4) ∧
    ¬ BindConfined cfg.trace b (Sample.uuid 7) (Sample.uuid 9) ∧
    event ∈ cfg.store.audit ∧ event.eventType = .deviceBound ∧
    event.meetingId = some (Sample.uuid 9) ∧ event.tenantId = "tenant-globex" := by
  have hany : strayRun.trace.any (fun e => bindsInStandup e && decide (e.call =
      Sample.bind (Sample.env 0 0) 12 (Sample.uuid 9) (Sample.uuid 7) "laptop-1" "pem-1")) =
      true := by decide +kernel
  have haudit : strayRun.store.audit.any (fun event => event.eventType = .deviceBound &&
      event.meetingId = some (Sample.uuid 9) && event.tenantId = "tenant-globex") = true := by
    decide +kernel
  obtain ⟨later, b, earlier, ht, hf⟩ := Sample.exists_event hany
  simp only [bindsInStandup, Bool.and_eq_true, decide_eq_true_eq] at hf
  obtain ⟨⟨hbinds, hrow⟩, hcall⟩ := hf
  obtain ⟨row, hrow, hmeeting⟩ := (Option.any_eq_true _ _).mp hrow
  have hmeeting : row.meetingId = Sample.uuid 4 := of_decide_eq_true hmeeting
  obtain ⟨event, hevent, hfields⟩ := List.any_eq_true.mp haudit
  simp only [Bool.and_eq_true, decide_eq_true_eq] at hfields
  obtain ⟨⟨htype, hm⟩, htenant⟩ := hfields
  refine ⟨strayRun, b, event, Sample.run_reachable _ _, ht ▸ by simp, hcall,
    Sample.ev_of_binds hbinds, ⟨row, hrow, hmeeting⟩, ?_, hevent, htype, hm, htenant⟩
  rintro ⟨⟨row', hrow', hother⟩, -⟩
  rw [hrow] at hrow'
  cases hrow'
  have hsame := Sample.uuid_injective (hmeeting.symm.trans hother)
  cases hsame

end Sample

end TroofAI.Hub
