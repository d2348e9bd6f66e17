import TroofAI.Base.Triple
import TroofAI.History.Alone
import TroofAI.History.Trail
import TroofAI.Hub.Sample

/-!
The audit trail determines the trust state.

Each service writes a participant's row and then logs the event that says the same, so after
calls that have run to their end the trail of a meeting gives the very rows of its participants
(`trail_determines`).
-/

namespace TroofAI.Hub

open TroofAI.Await MeetingService ChallengeService DeviceService

variable {env : Env} {op : Op} {w w₀ : World} {m p : String} {said now : Option Standing}

/-! ### Later worlds -/

/-- `w` is `w₀` after some steps. -/
inductive Later (env : Env) (w₀ : World) : World → Prop where
  | refl : Later env w₀ w₀
  | step {op : Op} {w : World} : Later env w₀ w → Later env w₀ (exec env op w).2

theorem World.InMeeting.later (hin : w₀.InMeeting p m) (h : Later env w₀ w) : w.InMeeting p m := by
  induction h with
  | refl => exact hin
  | step _ ih => exact ih.kept

theorem World.MeetingIn.later {t : String} (hin : w₀.MeetingIn m t) (h : Later env w₀ w) :
    w.MeetingIn m t := by
  induction h with
  | refl => exact hin
  | step _ ih => exact ih.kept

/-- Some steps on from `w₀`, rows and trail agree. -/
structure Along (env : Env) (w₀ w : World) : Prop extends Consistent w where
  later : Later env w₀ w

theorem Along.refl (env : Env) (h : Consistent w) : Along env w w := ⟨h, .refl⟩

/-! ### The rules

Each service is run from a world where rows and trail agree. Where it ends normally they agree
again, and also where it ends in an error, unless a store call was rejected. -/

/-- An error leaves no write without its event, unless it is that of a rejected store call. -/
def Refused (e : HubError) (w : World) : Prop := e ≠ .rejected → Consistent w

/-- The program ends, and then rows and trail agree. -/
abbrev Settles {α : Type} (env : Env) (p : Service α) (w : World) : Prop :=
  Prog.Ends (exec env) (fun _ w' => Consistent w') Refused p w

variable {α : Type} {R : α → World → Prop}

/-- The rule for an operation that is quiet. -/
theorem ends_quiet {f : op.Resp → Service α} (h : Along env w₀ w) (hfits : op.Fits w)
    (hquiet : op.Quiet)
    (hrest : ∀ a, (exec env op w).1 = .ok a → Along env w₀ (exec env op w).2 →
      Prog.Ends (exec env) R Refused (f a) (exec env op w).2) :
    Prog.Ends (exec env) R Refused (call op >>= f) w := by
  have hnext : Consistent (exec env op w).2 := h.quiet hfits hquiet
  refine Prog.ends_perform_bind.mpr ⟨fun a ha => ?_, fun _ _ _ => hnext⟩
  exact hrest a ha ⟨hnext, h.later.step⟩

/-- And for one with which the call ends. -/
theorem ends_last (op : Op) (h : Consistent w) (hfits : op.Fits w) (hquiet : op.Quiet) :
    Prog.Ends (exec env) (fun _ w' => Consistent w') (fun _ w' => Consistent w') (call op) w := by
  have hnext : Consistent (exec env op w).2 := h.quiet hfits hquiet
  exact Prog.ends_perform.mpr ⟨fun _ _ => hnext, fun _ _ => hnext⟩

/-- A participant's row is written. -/
theorem ends_update {data : ParticipantUpdate} {f : Participant → Service α}
    (h : Along env w₀ w) (hin : w₀.InMeeting p m)
    (hrest : ∀ row standing w', Pending w' m p (some standing) (some (data.standing standing)) →
      Later env w₀ w' → Prog.Ends (exec env) R Refused (f row) w') :
    Prog.Ends (exec env) R Refused (call (.participantUpdate p data) >>= f) w := by
  refine Prog.ends_perform_bind.mpr ⟨fun row hrow => ?_, fun e he _ => h.failed he⟩
  obtain ⟨standing, hpending⟩ := h.update (hin.later h.later) hrow
  exact hrest row standing _ hpending h.later.step

/-- A participant is added. -/
theorem ends_create {data : ParticipantCreate} {f : Participant → Service α}
    (h : Along env w₀ w)
    (hrest : ∀ row w', Pending w' data.meetingId row.id none (some ⟨data.trustStatus, none⟩) →
      Later env w₀ w' → Prog.Ends (exec env) R Refused (f row) w') :
    Prog.Ends (exec env) R Refused (call (.participantCreate data) >>= f) w := by
  refine Prog.ends_perform_bind.mpr ⟨fun row hrow => ?_, fun e he _ => h.failed he⟩
  exact hrest row _ (h.create hrow) h.later.step

/-- Where its meeting and its tenant are there, only a rejected store call keeps an event from
being logged. -/
theorem log_error {input : AuditLogInput} {e : HubError} (h : Sound w)
    (hm : input.meetingId = some m) (htenant : w.MeetingIn m input.tenantId)
    (he : (exec env (.auditCreate (AuditService.row input)) w).1 = .error e) : e = .rejected := by
  obtain ⟨meeting, hmeeting, htenant⟩ := htenant
  refine exec_auditCreate_error he ?_ fun m' hm' => ?_
  · show (w.tenants.find? input.tenantId).isSome
    rw [← htenant]
    exact (h.meetings m meeting hmeeting).2
  · obtain ⟨hm', -⟩ := AuditService.row_meetingId.mp hm'
    rw [hm] at hm'
    cases hm'
    rw [hmeeting]
    rfl

/-- The event that is due is logged. -/
theorem ends_log {input : AuditLogInput} {f : AuditEvent → Service α}
    (h : Pending w m p said now) (hm : input.meetingId = some m)
    (htenant : w.MeetingIn m input.tenantId)
    (hp : textOf input.details "participant_id" = some p)
    (hmeans : standingAfter p input.eventType input.details said = now)
    (hrest : ∀ event w', Consistent w' → Prog.Ends (exec env) R Refused (f event) w') :
    Prog.Ends (exec env) R Refused (AuditService.log input >>= f) w := by
  have hrow : (AuditService.row input).meetingId = some m := by
    obtain ⟨meeting, hmeeting, -⟩ := htenant
    exact AuditService.row_meetingId.mpr ⟨hm, (h.meetings m meeting hmeeting).1⟩
  refine Prog.ends_perform_bind.mpr ⟨fun event hevent => ?_, fun e he hne => ?_⟩
  · exact hrest event _ (h.log hrow htenant hp hmeans hevent)
  · exact absurd (log_error h.toSound hm htenant he) hne

/-- An event about no participant of its meeting is logged. -/
theorem ends_note {input : AuditLogInput} {f : AuditEvent → Service α} (h : Along env w₀ w)
    (htenant : ∀ m, input.meetingId = some m → w.MeetingIn m input.tenantId)
    (hsilent : input.eventType.tells = false)
    (hrest : ∀ event w', Consistent w' → Prog.Ends (exec env) R Refused (f event) w') :
    Prog.Ends (exec env) R Refused (AuditService.log input >>= f) w := by
  refine ends_quiet h (fun m hm => ?_) hsilent fun event _ hnext => hrest event _ hnext.toConsistent
  exact htenant m (AuditService.row_meetingId.mp hm).1

/-! ### The services -/

theorem settles_ensureDemoTenant (h : Consistent w) : Settles env ensureDemoTenant w := by
  refine ends_quiet (.refl env h) trivial trivial fun existing _ h => ?_
  cases existing with
  | some tenant => exact h.toConsistent
  | none =>
    exact Prog.Ends.mono (fun _ _ h => h) (fun _ _ h _ => h)
      (ends_last (.tenantCreate "TroofAI Demo") h.toConsistent trivial trivial)

theorem settles_enroll (dto : EnrollDeviceDto) (h : Consistent w) : Settles env (enroll dto) w := by
  refine ends_quiet (.refl env h) trivial trivial fun existing _ h => ?_
  cases existing with
  | some device =>
    refine ends_quiet h trivial trivial fun t _ h => ?_
    refine ends_quiet h trivial trivial fun row _ h => ?_
    exact ends_note h (fun m hm => by cases hm) rfl fun _ _ h => h
  | none =>
    refine ends_quiet h trivial trivial fun t _ h => ?_
    refine ends_quiet h trivial trivial fun row _ h => ?_
    exact ends_note h (fun m hm => by cases hm) rfl fun _ _ h => h

/-- The handler of a heartbeat hides every error, so rows and trail agree after it in any case. -/
theorem settles_heartbeat (deviceId : String) (h : Consistent w) :
    Settles env (handleHeartbeat deviceId) w := by
  have hbody : Prog.Ends (exec env) (fun _ w' => Consistent w') (fun _ w' => Consistent w')
      (heartbeat deviceId) w := by
    have hnext : Consistent (exec env .now w).2 := h.quiet trivial trivial
    refine Prog.ends_perform_bind.mpr ⟨fun t _ => ?_, fun _ _ => hnext⟩
    exact ends_last (.deviceUpdate deviceId { lastHeartbeat := some t }) hnext trivial trivial
  exact Prog.ends_tryCatch (Prog.ends_map.mpr hbody)

/-- The row of a meeting that has been created. -/
theorem meetingIn_create {tenantId name : String} {meeting : Meeting}
    (hdid : (exec env (.meetingCreate tenantId name) w).1 = .ok meeting) :
    (exec env (.meetingCreate tenantId name) w).2.MeetingIn meeting.id tenantId := by
  obtain ⟨hrow, -, meetings, hinsert, heq⟩ := exec_meetingCreate_ok hdid
  refine ⟨meeting, ?_, congrArg Meeting.tenantId hrow⟩
  rw [heq, Table.find?_insert? hinsert, if_pos rfl]

theorem settles_create (tenantId name : String) (h : Consistent w) :
    Settles env (create tenantId name) w := by
  refine ends_quiet (.refl env h) trivial trivial fun meeting hmeeting h => ?_
  refine ends_note h (fun m hm => ?_) rfl fun _ _ h => h
  cases hm
  exact meetingIn_create hmeeting

theorem settles_addParticipant (meetingId userId displayName : String) (h : Consistent w) :
    Settles env (addParticipant meetingId userId displayName) w := by
  refine ends_quiet (.refl env h) trivial trivial fun meeting? hmeeting h => ?_
  cases meeting? with
  | none => exact fun _ => h.toConsistent
  | some meeting =>
    have htenant : w.MeetingIn meetingId meeting.tenantId :=
      ⟨meeting, exec_meetingFindUnique_ok hmeeting, rfl⟩
    refine ends_create h fun row w' h hlater => ?_
    refine ends_log h rfl (htenant.later hlater) ?_ ?_ fun _ _ h => h
    · simp [textOf]
    · simp [standingAfter, textOf]

/-- A join token names the meeting of its participant if the call did. -/
theorem settles_issueJoinToken {meetingId participantId : String} (h : Consistent w)
    (hown : ∀ row, w.participants.find? participantId = some row → row.meetingId = meetingId) :
    Settles env (issueJoinToken meetingId participantId) w := by
  refine ends_quiet (.refl env h) trivial trivial fun participant? hrow h => ?_
  cases participant? with
  | none => exact fun _ => h.toConsistent
  | some row =>
    have hrow := exec_participantFindUnique_ok hrow
    have hin : w.InMeeting participantId meetingId := ⟨row, hrow, hown row hrow⟩
    refine ends_quiet h trivial trivial fun token _ h => ?_
    refine ends_quiet h trivial trivial fun t _ h => ?_
    exact ends_quiet h (hin.later h.later) trivial fun _ _ h => h.toConsistent

/-- Every participant's meeting has a tenant. -/
theorem Sound.meetingIn (h : Sound w) (hin : w.InMeeting p m) : ∃ t, w.MeetingIn m t := by
  obtain ⟨row, hrow, rfl⟩ := hin
  exact h.participants p row hrow

theorem settles_bindDevice (meetingId joinToken deviceId signature : String) (h : Consistent w) :
    Settles env (bindDevice env meetingId joinToken deviceId signature) w := by
  refine ends_quiet (.refl env h) trivial trivial fun tokenData hget hnext => ?_
  cases tokenData with
  | none => exact fun _ => hnext.toConsistent
  | some parsed =>
    obtain ⟨deadline, hentry, -⟩ := Expiring.get_eq_some.mp (exec_redisGet_ok hget)
    have hin := h.tokens joinToken parsed deadline hentry
    obtain ⟨tenantId, htenant⟩ := h.meetingIn hin
    simp only
    split
    · exact fun _ => hnext.toConsistent
    next hmeeting =>
    obtain rfl : parsed.meetingId = meetingId := not_not.mp hmeeting
    refine ends_quiet hnext trivial trivial fun device? _ h => ?_
    cases device? with
    | none => exact fun _ => h.toConsistent
    | some device =>
      simp only
      split
      · exact fun _ => h.toConsistent
      refine ends_quiet h trivial trivial fun _ _ h => ?_
      refine ends_quiet h trivial trivial fun t _ h => ?_
      refine ends_update h hin fun row standing w' h hlater => ?_
      -- the row says the participant is bound; the meeting is read before the event is logged
      obtain ⟨meeting, hmeeting, -⟩ := htenant.later hlater
      refine Prog.ends_perform_bind.mpr ⟨fun meeting? hread => ?_, fun e he hne => ?_⟩
      · have h : Pending (exec env (.meetingFindUnique parsed.meetingId) w').2 _ _ _ _ :=
          h.quiet trivial trivial
        have hfound := exec_meetingFindUnique_ok hread
        rw [hmeeting] at hfound
        subst hfound
        have hin : w'.MeetingIn parsed.meetingId meeting.tenantId := ⟨meeting, hmeeting, rfl⟩
        refine ends_log h rfl hin.kept ?_ ?_ fun _ _ h => h
        · simp [boundLog, textOf]
        · simp [boundLog, standingAfter, textOf, ParticipantUpdate.standing, bindData]
      · exact absurd (exec_meetingFindUnique_error he) hne

/-- One turn of the loop, for a participant of the meeting. -/
theorem settles_issueOne {meeting : Meeting} {row : Participant × Option Device}
    (h : Consistent w) (htenant : w.MeetingIn m meeting.tenantId) (hin : w.InMeeting row.1.id m) :
    Settles env (issueOne meeting m row) w := by
  unfold issueOne
  cases boundDevice row with
  | none =>
    refine ends_quiet (.refl env h) trivial trivial fun t _ h => ?_
    refine ends_update h hin fun row' standing w' h hlater => ?_
    refine ends_log h rfl (htenant.later hlater) ?_ ?_ fun _ w' h => ?_
    · simp [noDeviceLog, textOf]
    · simp [noDeviceLog, standingAfter, textOf, ParticipantUpdate.standing, noDeviceData]
    · exact ends_quiet (.refl env h) trivial trivial fun _ _ h => h.toConsistent
  | some deviceId =>
    refine ends_quiet (.refl env h) trivial trivial fun challengeId _ h => ?_
    refine ends_quiet h trivial trivial fun nonce _ h => ?_
    refine ends_quiet h trivial trivial fun issuedAt _ h => ?_
    refine ends_quiet h trivial trivial fun now _ h => ?_
    refine ends_quiet h ?_ trivial fun _ _ h => ?_
    · exact And.intro (hin.later h.later) (htenant.later h.later)
    · refine ends_quiet h trivial trivial fun _ _ h => ?_
      refine ends_note h (fun m' hm' => ?_) rfl fun _ _ h => h
      cases hm'
      exact htenant.later h.later

/-- What a turn of the loop finds: the participants still to come are of the meeting. -/
def TurnsAhead (meeting : Meeting) (m : String) (rows : List (Participant × Option Device))
    (w : World) : Prop :=
  w.MeetingIn m meeting.tenantId ∧ ∀ row ∈ rows, w.InMeeting row.1.id m

theorem TurnsAhead.kept {meeting : Meeting} {rows : List (Participant × Option Device)}
    (h : TurnsAhead meeting m rows w) : TurnsAhead meeting m rows (exec env op w).2 :=
  ⟨h.1.kept, fun row hrow => (h.2 row hrow).kept⟩

/-- The loop, over rows that have been read of the meeting. -/
theorem settles_turns {meeting : Meeting} {rows : List (Participant × Option Device)}
    (h : Consistent w) (hahead : TurnsAhead meeting m rows w) :
    Settles env (Prog.collect (issueOne meeting m) rows) w := by
  refine Prog.Ends.mono (fun _ _ h => h.1) (fun _ _ h => h) (Prog.ends_collect
    (I := fun rest w' => Consistent w' ∧ TurnsAhead meeting m rest w') ?_ ⟨h, hahead⟩)
  rintro row rest w' ⟨h, htenant, hrows⟩
  have hone : Settles env (issueOne meeting m row) w' :=
    settles_issueOne h htenant (hrows row List.mem_cons_self)
  have hrest : TurnsAhead meeting m rest w' :=
    ⟨htenant, fun row hrow => hrows row (List.mem_cons_of_mem _ hrow)⟩
  exact (hone.frame (fun _ _ => TurnsAhead.kept) hrest).mono (fun _ _ h => h) fun _ _ h => h.1

theorem settles_issueChallenge (meetingId : String) (h : Consistent w) :
    Settles env (issueChallenge meetingId) w := by
  refine ends_quiet (.refl env h) trivial trivial fun meeting? hmeeting h => ?_
  cases meeting? with
  | none => exact h.toConsistent
  | some meeting =>
    have htenant : w.MeetingIn meetingId meeting.tenantId :=
      ⟨meeting, exec_meetingFindUnique_ok hmeeting, rfl⟩
    refine ends_quiet h trivial trivial fun rows hrows h => ?_
    refine settles_turns h.toConsistent ⟨htenant.later h.later, fun row hrow => ?_⟩
    apply World.InMeeting.kept
    rw [← exec_participantFindMany_ok hrows] at hrow
    have hmem := World.mem_of_mem_participantsOf hrow
    exact ⟨row.1, Table.find?_eq_some.mpr ⟨hmem, rfl⟩, World.meetingId_of_mem_participantsOf hrow⟩

theorem settles_verifyResponse (challengeId deviceId signature : String) (h : Consistent w) :
    Settles env (verifyResponse env challengeId deviceId signature) w := by
  refine ends_quiet (.refl env h) trivial trivial fun challengeData hget hnext => ?_
  cases challengeData with
  | none => exact hnext.toConsistent
  | some challenge =>
    obtain ⟨deadline, hentry, -⟩ := Expiring.get_eq_some.mp (exec_redisGet_ok hget)
    obtain ⟨hin, htenant⟩ := h.challenges challengeId challenge deadline hentry
    refine ends_quiet hnext trivial trivial fun checkedAt _ h => ?_
    split
    · exact h.toConsistent
    refine ends_quiet h trivial trivial fun device? _ h => ?_
    cases device? with
    | none => exact h.toConsistent
    | some device =>
      refine ends_quiet h trivial trivial fun _ _ h => ?_
      refine ends_quiet h trivial trivial fun now _ h => ?_
      refine ends_quiet h trivial trivial fun t _ h => ?_
      refine ends_update h hin fun row standing w' h hlater => ?_
      refine ends_log h rfl (htenant.later hlater) ?_ ?_ fun _ w' h => ?_
      · simp [verdictLog, textOf]
      · -- passed or failed, the event carries the status as text
        generalize verdict env challenge device signature checkedAt now = result
        by_cases hverified : result.status = .verified <;>
          simp [verdictLog, standingAfter, textOf, ParticipantUpdate.standing, verdictData,
            hverified]
      · exact ends_quiet (.refl env h) trivial trivial fun _ _ h => h.toConsistent

/-! ### Runs -/

/-- A call for a join token names the meeting of its participant, as the dashboard's do. -/
def Call.OwnMeeting (c : Call) (w : World) : Prop :=
  match c with
  | .issueJoinToken meetingId participantId =>
      ∀ row, w.participants.find? participantId = some row → row.meetingId = meetingId
  | _ => True

instance (c : Call) (w : World) : Decidable (c.OwnMeeting w) := by
  unfold Call.OwnMeeting
  split <;> infer_instance

theorem settles_body (c : Call) (h : Consistent w) (hown : c.OwnMeeting w) :
    Settles env (c.body env) w := by
  cases c with
  | ensureDemoTenant => exact Prog.ends_map.mpr (settles_ensureDemoTenant h)
  | enroll dto => exact Prog.ends_map.mpr (settles_enroll dto h)
  | heartbeat deviceId => exact Prog.ends_map.mpr (settles_heartbeat deviceId h)
  | create tenantId name => exact Prog.ends_map.mpr (settles_create tenantId name h)
  | addParticipant meetingId userId displayName =>
    exact Prog.ends_map.mpr (settles_addParticipant meetingId userId displayName h)
  | issueJoinToken meetingId participantId =>
    exact Prog.ends_map.mpr (settles_issueJoinToken h hown)
  | bindDevice meetingId joinToken deviceId signature =>
    exact Prog.ends_map.mpr (settles_bindDevice meetingId joinToken deviceId signature h)
  | issueChallenge meetingId => exact Prog.ends_map.mpr (settles_issueChallenge meetingId h)
  | verifyResponse challengeId deviceId signature =>
    exact Prog.ends_map.mpr (settles_verifyResponse challengeId deviceId signature h)
  | socket event => exact ends_quiet (.refl env h) trivial trivial fun _ _ h => h.toConsistent
  | revoke deviceId => exact ends_quiet (.refl env h) trivial trivial fun _ _ h => h.toConsistent

/-- Each call, run after those before it, comes to its end without a rejected store call, and
asks for join tokens under the participant's own meeting. -/
def Completed (env : Env) : HubConfig → List Call → Prop
  | _, [] => True
  | cfg, c :: cs => aloneResult env c cfg.store ≠ .error .rejected ∧ c.OwnMeeting cfg.store ∧
      Completed env (cfg.alone (hub env) c) cs

instance (env : Env) : ∀ cfg cs, Decidable (Completed env cfg cs)
  | _, [] => inferInstanceAs (Decidable True)
  | cfg, c :: cs =>
      have := instDecidableCompleted env (cfg.alone (hub env) c) cs
      inferInstanceAs (Decidable (_ ∧ _ ∧ _))

/-- A call that comes to its end leaves rows and trail in agreement. -/
theorem Consistent.alone {c : Call} (h : Consistent w) (hown : c.OwnMeeting w)
    (hended : aloneResult env c w ≠ .error .rejected) : Consistent (aloneStore env c w) := by
  have hends : Settles env (c.body env) w := settles_body c h hown
  obtain ⟨hok, herror⟩ := Prog.ends_run.mp hends
  unfold aloneStore
  unfold aloneResult at hended
  cases hresult : ((c.body env).run (exec env) w).result with
  | ok reply => exact hok reply hresult
  | error e =>
    refine herror e hresult fun he => ?_
    rw [hresult, he] at hended
    exact hended rfl

theorem Consistent.sequence {cfg : HubConfig} {cs : List Call} (h : Consistent cfg.store)
    (hcs : Completed env cfg cs) : Consistent (cfg.sequence (hub env) cs).store := by
  induction cs generalizing cfg with
  | nil => exact h
  | cons c cs ih =>
    obtain ⟨hended, hown, hrest⟩ := hcs
    exact ih (h.alone hown hended) hrest

theorem consistent_init (tenants : Table Tenant.id) : Consistent (World.init tenants) where
  toSound := sound_init tenants
  recorded _ _ := rfl

/-- After calls that have come to their end, the trail of a meeting says of each participant
what its row says, and every event of the meeting carries its tenant. -/
theorem trail_determines {cfg : HubConfig} (hinit : cfg.store.IsInit) {cs : List Call}
    (hcs : Completed env cfg cs) :
    let w := (cfg.sequence (hub env) cs).store
    (∀ m p, trail m p w.audit = w.standing m p) ∧
    (∀ row ∈ w.participants.rows,
      trail row.meetingId row.id w.audit = some ⟨row.trustStatus, row.deviceId⟩) ∧
    ∀ event ∈ w.audit, ∀ m, event.meetingId = some m →
      ∃ meeting, w.meetings.find? m = some meeting ∧ event.tenantId = meeting.tenantId := by
  intro w
  have hstart : Consistent cfg.store := by
    obtain ⟨tenants, hinit⟩ := hinit
    rw [hinit]
    exact consistent_init tenants
  have hw : Consistent w := hstart.sequence hcs
  refine ⟨hw.recorded, fun row hrow => ?_, fun event hevent m hm => ?_⟩
  · rw [hw.recorded, standing_of_row (Table.find?_eq_some.mpr ⟨hrow, rfl⟩), if_pos rfl]
  · obtain ⟨meeting, hmeeting, htenant⟩ := hw.audit event hevent m hm
    exact ⟨meeting, hmeeting, htenant.symm⟩

section Sample

/-- Alice's participant is bound and challenged, and her device answers. -/
def answered : List Call :=
  Sample.challenged (Sample.env 0 0) ++ [Sample.answer (Sample.challenge (Sample.env 0 0)) "pem-1"]

/-- The trail of the meeting says that alice is VERIFIED on her laptop, and so does her row. -/
theorem trail_determines_answered :
    let w := (Sample.start.sequence (hub (Sample.env 0 0)) answered).store
    trail (Sample.uuid 4) (Sample.uuid 7) w.audit = some ⟨.verified, some "laptop-1"⟩ ∧
    w.standing (Sample.uuid 4) (Sample.uuid 7) = some ⟨.verified, some "laptop-1"⟩ := by
  have hcompleted : Completed (Sample.env 0 0) Sample.start answered := by decide +kernel
  have hstanding : (Sample.start.sequence (hub (Sample.env 0 0)) answered).store.standing
      (Sample.uuid 4) (Sample.uuid 7) = some ⟨.verified, some "laptop-1"⟩ := by
    decide +kernel
  obtain ⟨htrail, -⟩ := trail_determines ⟨_, rfl⟩ hcompleted
  exact ⟨(htrail _ _).trans hstanding, hstanding⟩

end Sample

end TroofAI.Hub
