import TroofAI.History.Sound
import TroofAI.Hub.Sample
import TroofAI.Trust.Authentic

/-!
The audit log of any run.

Its events are told apart by their ids, stand in the order of their times and are filed under the
tenant of their meeting (`audit_log`), whichever calls run at the same time and whichever store calls
are rejected. That the log is only appended to is part of `run_grows`.
-/

namespace TroofAI.Hub

open TroofAI.Await MeetingService ChallengeService

variable {env : Env} {cfg : HubConfig}

/-! ### Where the meeting of an event comes from -/

/-- A call that logs under a meeting has created the meeting, has read it, or has read a challenge
that was issued in it. -/
inductive MeetingKnown (past : List Event) (m t : String) : Prop where
  | created {name row} : ⟨.meetingCreate t name, .ok row⟩ ∈ past → row.id = m →
      MeetingKnown past m t
  | read {row : Meeting} : ⟨.meetingFindUnique m, .ok (some row)⟩ ∈ past → row.tenantId = t →
      MeetingKnown past m t
  | challenged (cid : String) {record : ChallengeRecord} :
      ⟨.redisGet (.challenge cid), .ok (some record)⟩ ∈ past → record.meetingId = m →
      record.tenantId = t → MeetingKnown past m t

theorem point_auditMeeting {c : Call} {past : List Event} {data : AuditCreate} {m : String}
    (h : c.Point env past (.auditCreate data)) (hm : data.meetingId = some m) :
    MeetingKnown past m data.tenantId := by
  cases c <;> cases h
  case create.log meeting =>
    obtain ⟨hid, -⟩ := AuditService.row_meetingId.mp hm
    exact .created (List.mem_singleton_self _) (Option.some.inj hid)
  case addParticipant.log meeting participant =>
    obtain ⟨hid, -⟩ := AuditService.row_meetingId.mp hm
    cases hid
    exact .read (List.mem_cons_of_mem _ (List.mem_singleton_self _)) rfl
  case bindDevice.log =>
    obtain ⟨hid, -⟩ := AuditService.row_meetingId.mp hm
    cases hid
    exact .read List.mem_cons_self rfl
  case issueChallenge.turn meeting rows row start hloop hrow hturn =>
    obtain ⟨turns, rfl⟩ := hloop
    cases hturn with
    | noDeviceLog =>
      obtain ⟨hid, -⟩ := AuditService.row_meetingId.mp hm
      cases hid
      exact .read (by simp) rfl
    | log =>
      obtain ⟨hid, -⟩ := AuditService.row_meetingId.mp hm
      cases hid
      exact .read (by simp) rfl
  case verifyResponse.log challengeId deviceId signature challenge device t past now t' p hacc =>
    obtain ⟨hid, -⟩ := AuditService.row_meetingId.mp hm
    have hget : (⟨.redisGet (.challenge challengeId), .ok (some challenge)⟩ : Event) ∈ past := by
      simp [hacc.past_eq]
    refine .challenged challengeId ?_ (Option.some.inj hid) rfl
    iterate 4 apply List.mem_cons_of_mem
    exact hget
  all_goals contradiction

/-- And what it knows of the meeting holds. -/
theorem MeetingKnown.holds (reach : Reachable env cfg) {i : Nat} {m t : String}
    (h : MeetingKnown (own i cfg.trace) m t) : cfg.store.MeetingIn m t := by
  cases h with
  | @created name row hev hid =>
    obtain ⟨e, he, -, hcreated⟩ := mem_own.mp hev
    obtain ⟨later, earlier, ht⟩ := List.append_of_mem he
    obtain ⟨rfl, -, table, hinsert, htable⟩ := exec_meetingCreate_ok (hub_did reach he hcreated)
    refine reach.carry (fun w => w.MeetingIn m t) ht ?_ (fun x _ => World.MeetingIn.kept)
    change (exec env e.ev.op e.before).2.MeetingIn m t
    rw [hcreated]
    refine ⟨⟨env.uuid e.before.steps, t, name, env.clock e.before.steps⟩, ?_, rfl⟩
    rw [htable, Table.find?_insert? hinsert, if_pos hid]
  | @read row hev htenant => exact ⟨row, meeting_read reach hev, htenant⟩
  | @challenged cid record hev hmeeting htenant =>
    obtain ⟨g, hg, -, hread⟩ := mem_own.mp hev
    obtain ⟨later, earlier, htg⟩ := List.append_of_mem hg
    obtain ⟨since, s, older, deadline, rfl, hstored, -⟩ := read_stored reach htg hread
    obtain ⟨ttl, hs, -⟩ := hstored.ev
    have hts : cfg.trace = (later ++ g :: since) ++ s :: older := by simp [htg]
    obtain ⟨meeting, rows, row, hfind, -, -, -, -, -, htenant', -⟩ :=
      (stored_issued reach hts hs).reads
    have hfind' : ⟨.meetingFindUnique record.meetingId, .ok (some meeting)⟩ ∈
        own s.id cfg.trace := by
      rw [hts, own_append, own_cons_self]
      simp [hfind]
    exact ⟨meeting, hmeeting ▸ meeting_read reach hfind', htenant'.trans htenant⟩

/-! ### The log -/

/-- The log of a world is in order. -/
structure World.LogInOrder (w : World) : Prop where
  ids : (w.audit.map AuditEvent.id).Nodup
  times : w.audit.Pairwise fun a b => a.createdAt ≤ b.createdAt
  tenants : ∀ event ∈ w.audit, (w.tenants.find? event.tenantId).isSome
  meetings : ∀ event ∈ w.audit, ∀ m, event.meetingId = some m → w.MeetingIn m event.tenantId

/-- The events were inserted at different steps, one after the other. -/
def World.LoggedAt (env : Env) (w : World) (ns : List Nat) : Prop :=
  ns.Pairwise (· < ·) ∧ (∀ n ∈ ns, n < w.steps) ∧
    w.audit.map (fun event => (event.id, event.createdAt)) =
      ns.map fun n => (env.uuid n, env.clock n)

theorem reachable_loggedAt (reach : Reachable env cfg) : ∃ ns, cfg.store.LoggedAt env ns := by
  refine reach.throughout (fun w => ∃ ns, w.LoggedAt env ns) ?_ ?_
  · rintro w ⟨tenants, rfl⟩
    exact ⟨[], .nil, by simp, rfl⟩
  · intro x hx
    rintro ⟨ns, hsorted, hpast, hlog⟩
    change ∃ ns, (exec env x.ev.op x.before).2.LoggedAt env ns
    have hcases : (exec env x.ev.op x.before).2.audit = x.before.audit ∨ _ := exec_audit_cases
    rcases hcases with hsame | ⟨data, row, hev, hgrown⟩
    · refine ⟨ns, hsorted, ?_, hsame ▸ hlog⟩
      intro n hn
      rw [exec_steps]
      exact Nat.lt_succ_of_lt (hpast n hn)
    · obtain ⟨rfl, -⟩ := exec_auditCreate_ok (hub_did reach hx ((hub_ev reach hx).trans hev))
      refine ⟨ns ++ [x.before.steps], ?_, ?_, ?_⟩
      · rw [List.pairwise_append]
        exact ⟨hsorted, List.pairwise_singleton .., by simpa using hpast⟩
      · intro n hn
        rw [exec_steps]
        rcases List.mem_append.mp hn with hn | hn
        · exact Nat.lt_succ_of_lt (hpast n hn)
        · rw [List.mem_singleton.mp hn]
          exact Nat.lt_succ_self _
      · rw [hgrown, List.map_append, hlog, List.map_append]
        rfl

/-- An event of a meeting is filed under its tenant. -/
theorem audit_meeting (reach : Reachable env cfg) {event : AuditEvent} {m : String}
    (hevent : event ∈ cfg.store.audit) (hm : event.meetingId = some m) :
    cfg.store.MeetingIn m event.tenantId := by
  refine reach.throughout (fun w => ∀ event ∈ w.audit, ∀ m, event.meetingId = some m →
    w.MeetingIn m event.tenantId) ?_ ?_ event hevent m hm
  · rintro w ⟨tenants, rfl⟩ event hnone
    cases hnone
  · intro x hx ih event hevent m hm
    change event ∈ (exec env x.ev.op x.before).2.audit at hevent
    have hcases : (exec env x.ev.op x.before).2.audit = x.before.audit ∨ _ := exec_audit_cases
    rcases hcases with hsame | ⟨data, row, hev, hgrown⟩
    · rw [hsame] at hevent
      exact (ih event hevent m hm).kept
    · rw [hgrown, List.mem_append, List.mem_singleton] at hevent
      rcases hevent with hevent | rfl
      · exact (ih event hevent m hm).kept
      · -- the call that logs it knows the meeting
        have hlogs := (hub_ev reach hx).trans hev
        obtain ⟨rfl, -⟩ := exec_auditCreate_ok (hub_did reach hx hlogs)
        obtain ⟨later, earlier, ht⟩ := List.append_of_mem hx
        have hpoint := hub_point reach ht
        rw [hlogs] at hpoint
        obtain ⟨pre, -, hpre, rfl, hstore, -⟩ := reach.cut ht
        have hknown := (point_auditMeeting hpoint hm).holds hpre
        rw [hstore] at hknown
        exact hknown.kept

theorem audit_tenant (reach : Reachable env cfg) {event : AuditEvent}
    (hevent : event ∈ cfg.store.audit) : (cfg.store.tenants.find? event.tenantId).isSome := by
  refine reach.throughout (fun w => ∀ event ∈ w.audit,
    (w.tenants.find? event.tenantId).isSome) ?_ ?_ event hevent
  · rintro w ⟨tenants, rfl⟩ event hnone
    cases hnone
  · intro x hx ih event hevent
    change event ∈ (exec env x.ev.op x.before).2.audit at hevent
    have hcases : (exec env x.ev.op x.before).2.audit = x.before.audit ∨ _ := exec_audit_cases
    rcases hcases with hsame | ⟨data, row, hev, hgrown⟩
    · rw [hsame] at hevent
      exact exec_tenant (ih event hevent)
    · rw [hgrown, List.mem_append, List.mem_singleton] at hevent
      rcases hevent with hevent | rfl
      · exact exec_tenant (ih event hevent)
      · have hlogs := (hub_ev reach hx).trans hev
        obtain ⟨rfl, htenant, -⟩ := exec_auditCreate_ok (hub_did reach hx hlogs)
        exact exec_tenant htenant

/-- In every run the audit log is in order. -/
theorem audit_log (reach : Reachable env cfg) : cfg.store.LogInOrder := by
  obtain ⟨ns, hsorted, -, hlog⟩ := reachable_loggedAt reach
  have hids : cfg.store.audit.map AuditEvent.id = ns.map env.uuid := by
    simpa [Function.comp_def] using congrArg (List.map Prod.fst) hlog
  have htimes : cfg.store.audit.map AuditEvent.createdAt = ns.map env.clock := by
    simpa [Function.comp_def] using congrArg (List.map Prod.snd) hlog
  refine ⟨?_, ?_, fun _ => audit_tenant reach, fun _ he _ => audit_meeting reach he⟩
  · rw [hids]
    exact List.Nodup.map env.uuid_injective (hsorted.imp Nat.ne_of_lt)
  · have hclock : (ns.map env.clock).Pairwise (· ≤ ·) :=
      List.pairwise_map.mpr (hsorted.imp fun hlt => env.clock_mono (Nat.le_of_lt hlt))
    rw [← htimes] at hclock
    exact List.pairwise_map.mp hclock

/-- A device is enrolled, a meeting is held in which it is bound and challenged. -/
theorem audit_log_sample : ∃ cfg, Reachable (Sample.env 0 0) cfg ∧
    cfg.store.audit.map AuditEvent.eventType =
      [.deviceEnrolled, .meetingCreated, .participantJoined, .deviceBound, .challengeIssued] ∧
    cfg.store.LogInOrder := by
  have hreach := Sample.run_reachable (Sample.env 0 0) (Sample.challenged (Sample.env 0 0))
  exact ⟨_, hreach, by decide +kernel, audit_log hreach⟩

end TroofAI.Hub
