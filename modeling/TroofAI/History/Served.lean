import TroofAI.History.Exact
import TroofAI.History.Rows

/-!
The requests of a dashboard, each served alone by a hub whose stores answer.

`served_create`, `served_add`, `served_token` and `served_bind` give the reply and the world that is
left; `refused_bind` says that a bind which is refused leaves the world as it was. The ids that are
still to be drawn are free (`ids_free`).
-/

namespace TroofAI.Hub

open TroofAI.Await MeetingService

variable {env : Env} {cfg : HubConfig} {w w' : World} {α : Type}

/-! ### Ids -/

/-- The ids of meetings and participants have been drawn. -/
def World.IdsDrawn (env : Env) (w : World) : Prop :=
  (∀ m row, w.meetings.find? m = some row → ∃ n < w.steps, m = env.uuid n) ∧
    ∀ p row, w.participants.find? p = some row → ∃ n < w.steps, p = env.uuid n

theorem exec_idsDrawn {op : Op} (h : w.IdsDrawn env) : (exec env op w).2.IdsDrawn env := by
  obtain ⟨hmeetings, hparticipants⟩ := h
  have hsteps : (exec env op w).2.steps = w.steps + 1 := exec_steps
  constructor
  · intro m row hrow
    have hstep : MeetingStep env w m ⟨op, (exec env op w).1⟩ (some row) := hrow ▸ exec_meeting m
    rcases hstep.found with hold | ⟨huuid, -⟩
    · obtain ⟨n, hn, rfl⟩ := hmeetings m row hold
      exact ⟨n, by omega, rfl⟩
    · exact ⟨w.steps, by omega, huuid⟩
  · intro p row hrow
    have hstep : ParticipantStep env w p ⟨op, (exec env op w).1⟩ (some row) :=
      hrow ▸ exec_participant p
    rcases hstep.found with ⟨old, hold, -⟩ | ⟨huuid, -⟩
    · obtain ⟨n, hn, rfl⟩ := hparticipants p old hold
      exact ⟨n, by omega, rfl⟩
    · exact ⟨w.steps, by omega, huuid⟩

/-- Those that are still to be drawn are free. -/
theorem ids_free (reach : Reachable env cfg) {n : Nat} (hn : cfg.store.steps ≤ n) :
    cfg.store.meetings.find? (env.uuid n) = none ∧
      cfg.store.participants.find? (env.uuid n) = none := by
  have hdrawn : cfg.store.IdsDrawn env := by
    refine reach.throughout (fun w => w.IdsDrawn env) ?_ fun _ _ => exec_idsDrawn
    rintro w ⟨tenants, rfl⟩
    exact ⟨nofun, nofun⟩
  constructor
  · refine Option.eq_none_iff_forall_ne_some.mpr ?_
    intro row hrow
    obtain ⟨k, hk, heq⟩ := hdrawn.1 _ row hrow
    have := env.uuid_injective heq
    omega
  · refine Option.eq_none_iff_forall_ne_some.mpr ?_
    intro row hrow
    obtain ⟨k, hk, heq⟩ := hdrawn.2 _ row hrow
    have := env.uuid_injective heq
    omega

/-! ### The requests -/

/-- What holds of the normal end of a service holds of the reply and the world of its call. -/
theorem alone_served {c : Call} {p : Service α} {f : α → Reply} {a : α} {K : World → Prop}
    (hbody : c.body env = p >>= fun a => pure (f a))
    (h : Prog.Ends (exec env) (fun r left => r = a ∧ K left) (fun _ _ => False) p w) :
    aloneResult env c w = .ok (f a) ∧ K (aloneStore env c w) := by
  refine (alone_ends (P := fun reply left => reply = .ok (f a) ∧ K left) hbody).mpr
    (h.mono ?_ fun _ _ hfalse => hfalse.elim)
  rintro _ left ⟨rfl, hleft⟩
  exact ⟨rfl, hleft⟩

theorem effect_meetingCreate {tenantId name : String} (htenant : (w.tenants.find? tenantId).isSome)
    {meetings : Table Meeting.id}
    (hinsert : w.meetings.insert? ⟨env.uuid w.steps, tenantId, name, env.clock w.steps⟩ =
      some meetings) :
    effect env w (.meetingCreate tenantId name) =
      (.ok ⟨env.uuid w.steps, tenantId, name, env.clock w.steps⟩, { w with meetings }) := by
  have htenant' : ¬ (w.tenants.find? tenantId).isNone = true := by
    simpa [Option.isSome_iff_ne_none] using htenant
  simp only [effect, World.createMeeting, htenant', Bool.false_eq_true, ↓reduceIte, hinsert]

theorem effect_participantCreate {data : ParticipantCreate}
    (hmeeting : (w.meetings.find? data.meetingId).isSome) {participants : Table Participant.id}
    (hinsert : w.participants.insert? (data.row (env.uuid w.steps) (env.clock w.steps)) =
      some participants) :
    effect env w (.participantCreate data) =
      (.ok (data.row (env.uuid w.steps) (env.clock w.steps)), { w with participants }) := by
  have hmeeting' : ¬ (w.meetings.find? data.meetingId).isNone = true := by
    simpa [Option.isSome_iff_ne_none] using hmeeting
  have hrow : (data.row (env.uuid w.steps) (env.clock w.steps)).meetingId = data.meetingId := rfl
  simp only [effect, World.createParticipant, hrow, hmeeting', Bool.false_eq_true, ↓reduceIte,
    hinsert]

/-- The demo tenant is there. -/
theorem served_tenant {t : Tenant} (h : Undisturbed env w)
    (ht : w.tenantNamed env.tenantOrder "TroofAI Demo" = some t) :
    aloneResult env .ensureDemoTenant w = .ok (.tenant t) ∧
      aloneStore env .ensureDemoTenant w = w.tick := by
  refine alone_served (f := .tenant) (K := fun left => left = w.tick) rfl ?_
  unfold ensureDemoTenant
  rw [ends_call (.inr (h 0)) rfl]
  simp only [ht]
  exact ⟨rfl, rfl⟩

theorem served_create {tenantId : String} (name : String) (h : Undisturbed env w)
    (htenant : (w.tenants.find? tenantId).isSome)
    (hfree : w.meetings.find? (env.uuid w.steps) = none) :
    let m : Meeting := ⟨env.uuid w.steps, tenantId, name, env.clock w.steps⟩
    aloneResult env (.create tenantId name) w = .ok (.meeting m) ∧
      ∃ meetings audit, w.meetings.insert? m = some meetings ∧
        aloneStore env (.create tenantId name) w =
          { w with steps := w.steps + 2, meetings, audit } := by
  intro m
  obtain ⟨meetings, hinsert⟩ := Table.exists_insert? (t := w.meetings) (r := m) hfree
  refine alone_served (K := fun left => ∃ meetings audit, w.meetings.insert? m = some meetings ∧
    left = { w with steps := w.steps + 2, meetings, audit }) rfl ?_
  unfold create AuditService.log
  rw [ends_call (.inr (h 0)) (effect_meetingCreate htenant hinsert)]
  refine (ends_call (.inr (h 1)) (effect_auditCreate htenant ?_)).mpr
    ⟨rfl, meetings, _, hinsert, rfl⟩
  intro m' hm'
  cases (AuditService.row_meetingId.mp hm').1
  show (meetings.find? m.id).isSome = true
  rw [Table.find?_insert? hinsert, if_pos rfl]
  rfl

theorem served_add {meeting : Meeting} {mid : String} (userId displayName : String)
    (h : Undisturbed env w)
    (hmeeting : w.meetings.find? mid = some meeting)
    (htenant : (w.tenants.find? meeting.tenantId).isSome)
    (hfree : w.participants.find? (env.uuid (w.steps + 1)) = none) :
    let row := (⟨mid, userId, displayName, .unknown⟩ : ParticipantCreate).row
      (env.uuid (w.steps + 1)) (env.clock (w.steps + 1))
    aloneResult env (.addParticipant mid userId displayName) w = .ok (.participant row) ∧
      ∃ participants audit, w.participants.insert? row = some participants ∧
        aloneStore env (.addParticipant mid userId displayName) w =
          { w with steps := w.steps + 3, participants, audit } := by
  intro row
  obtain ⟨participants, hinsert⟩ := Table.exists_insert? (t := w.participants) (r := row) hfree
  have hsome : (w.meetings.find? mid).isSome := by
    rw [hmeeting]
    rfl
  refine alone_served (K := fun left => ∃ participants audit,
    w.participants.insert? row = some participants ∧
    left = { w with steps := w.steps + 3, participants, audit }) rfl ?_
  unfold addParticipant AuditService.log
  rw [ends_call (.inr (h 0)) rfl]
  simp only [hmeeting]
  rw [ends_call (.inr (h 1)) (@effect_participantCreate env w.tick
    ⟨mid, userId, displayName, .unknown⟩ hsome participants hinsert)]
  refine (ends_call (.inr (h 2)) (effect_auditCreate htenant ?_)).mpr
    ⟨rfl, participants, _, hinsert, rfl⟩
  intro m' hm'
  cases (AuditService.row_meetingId.mp hm').1
  exact hsome

theorem served_token {pid : String} (mid : String) (h : Undisturbed env w)
    (hrow : (w.participants.find? pid).isSome) :
    let expiresAt := env.clock (w.steps + 2) + 30000
    aloneResult env (.issueJoinToken mid pid) w =
        .ok (.joinToken ⟨env.uuid (w.steps + 1), mid, pid, expiresAt⟩) ∧
      aloneStore env (.issueJoinToken mid pid) w =
        { w with
          steps := w.steps + 4
          redis := w.redis.set (.joinToken (env.uuid (w.steps + 1))) ⟨mid, pid, expiresAt⟩
            (env.clock (w.steps + 3) + 30 * 1000) } := by
  intro expiresAt
  obtain ⟨row, hrow⟩ := Option.isSome_iff_exists.mp hrow
  refine alone_served (f := .joinToken) (K := fun left => left = { w with
    steps := w.steps + 4
    redis := w.redis.set (.joinToken (env.uuid (w.steps + 1))) ⟨mid, pid, expiresAt⟩
      (env.clock (w.steps + 3) + 30 * 1000) }) rfl ?_
  unfold issueJoinToken
  rw [ends_call (.inr (h 0)) rfl]
  simp only [hrow]
  rw [ends_call (.inl rfl) rfl, ends_call (.inl rfl) rfl]
  exact (ends_call (.inr (h 3)) rfl).mpr ⟨rfl, rfl⟩

section Bind

variable {mid joinToken deviceId signature : String} {parsed : JoinToken} {device : Device}
  {row : Participant} {meeting : Meeting}

theorem served_bind (h : Undisturbed env w)
    (hbinds : BindsAlone env w mid joinToken deviceId signature parsed device)
    (hrow : w.participants.find? parsed.participantId = some row)
    (hmeeting : w.meetings.find? mid = some meeting)
    (htenant : (w.tenants.find? meeting.tenantId).isSome) :
    let data := bindData deviceId device (env.clock (w.steps + 3))
    aloneResult env (.bindDevice mid joinToken deviceId signature) w =
        .ok (.participant (data.apply row)) ∧
      ∃ audit, aloneStore env (.bindDevice mid joinToken deviceId signature) w =
        { w with
          steps := w.steps + 7
          redis := w.redis.del (.joinToken joinToken)
          participants := w.participants.modify parsed.participantId data.apply data.apply_id
          audit } := by
  intro data
  refine alone_served (K := fun left => ∃ audit, left = { w with
    steps := w.steps + 7
    redis := w.redis.del (.joinToken joinToken)
    participants := w.participants.modify parsed.participantId data.apply data.apply_id
    audit }) rfl ?_
  exact (bind_accepted_ends hbinds hrow).mpr
    ((logBind_ends (w := bindStore env w joinToken deviceId parsed device) (h 5) (h 6) hmeeting
      htenant).mpr ⟨rfl, _, rfl⟩)

theorem refused_bind (mid joinToken deviceId signature : String) (h : Undisturbed env w)
    (hrefused : ∀ parsed device,
      w.redis.get (env.clock w.steps) (.joinToken joinToken) = some parsed →
      parsed.meetingId = mid → w.devices.find? deviceId = some device →
      bindValid env mid joinToken deviceId signature parsed device = false) :
    ∃ e n, aloneResult env (.bindDevice mid joinToken deviceId signature) w =
        .error (.badRequest e) ∧
      aloneStore env (.bindDevice mid joinToken deviceId signature) w =
        { w with steps := w.steps + n } := by
  let refused : Except HubError Reply → World → Prop := fun reply left =>
    ∃ e n, reply = .error (.badRequest e) ∧ left = { w with steps := w.steps + n }
  obtain ⟨e, n, hends⟩ := bind_refused_ends (R := fun row => refused (.ok (.participant row)))
    (E := fun e => refused (.error e)) (h 0) (h 1) hrefused
  exact (alone_ends (P := refused) rfl).mpr (hends.mpr ⟨e, n, rfl, rfl⟩)

end Bind

end TroofAI.Hub
