import TroofAI.History.Provenance

/-!
Rows that stay.

No operation deletes a row, and a participant's meeting and user, like a meeting's tenant, are
never written again. So what a call has read of them holds from then on, and the rows that
foreign keys asked for when a row was inserted are still there.
-/

namespace TroofAI.Hub

open TroofAI.Await

variable {env : Env} {ok : HubConfig → Nat → Op → Prop} {init : World → Prop} {cfg : HubConfig}
  {p : String}

/-! ### Participants -/

/-- A participant's row stays, and so do its meeting and its user. -/
theorem participant_step {op : Op} {w : World} {row : Participant}
    (hrow : w.participants.find? p = some row) :
    ∃ row', (exec env op w).2.participants.find? p = some row' ∧
      row'.meetingId = row.meetingId ∧ row'.userId = row.userId := by
  have hstep : ParticipantStep env w p ⟨op, (exec env op w).1⟩
    ((exec env op w).2.participants.find? p) := exec_participant p
  generalize (exec env op w).2.participants.find? p = new at hstep ⊢
  generalize (⟨op, (exec env op w).1⟩ : Ev Op.Resp HubError) = ev at hstep
  cases hstep with
  | same => exact ⟨row, hrow, rfl, rfl⟩
  | update hold =>
    rw [hold] at hrow
    cases hrow
    exact ⟨_, rfl, rfl, rfl⟩
  | create hnone =>
    rw [hrow] at hnone
    cases hnone

/-- So both are what they were at any earlier event. -/
theorem participant_kept (reach : Reach (hub env) ok init cfg) {later earlier : Trace}
    {e : HubEntry} (ht : cfg.trace = later ++ e :: earlier) {row : Participant}
    (hrow : e.before.participants.find? p = some row) :
    ∃ row', cfg.store.participants.find? p = some row' ∧
      row'.meetingId = row.meetingId ∧ row'.userId = row.userId := by
  refine reach.carry (fun w => ∃ row', w.participants.find? p = some row' ∧
    row'.meetingId = row.meetingId ∧ row'.userId = row.userId) ht ?_ ?_
  · exact participant_step hrow
  · rintro x hx ⟨row', hrow', hmeeting, huser⟩
    obtain ⟨row'', hrow'', hmeeting', huser'⟩ := participant_step hrow'
    exact ⟨row'', hrow'', hmeeting'.trans hmeeting, huser'.trans huser⟩

/-! ### Meetings and tenants -/

theorem meeting_step {op : Op} {w : World} {m : String} {row : Meeting}
    (hrow : w.meetings.find? m = some row) :
    (exec env op w).2.meetings.find? m = some row := by
  have hstep : MeetingStep env w m ⟨op, (exec env op w).1⟩
    ((exec env op w).2.meetings.find? m) := exec_meeting m
  generalize (exec env op w).2.meetings.find? m = new at hstep ⊢
  generalize (⟨op, (exec env op w).1⟩ : Ev Op.Resp HubError) = ev at hstep
  cases hstep with
  | same => exact hrow
  | create hnone =>
    rw [hrow] at hnone
    cases hnone

/-- A meeting's row is what it was at any earlier event. -/
theorem meeting_kept (reach : Reach (hub env) ok init cfg) {later earlier : Trace} {e : HubEntry}
    (ht : cfg.trace = later ++ e :: earlier) {m : String} {row : Meeting}
    (hrow : e.before.meetings.find? m = some row) : cfg.store.meetings.find? m = some row := by
  refine reach.carry (fun w => w.meetings.find? m = some row) ht ?_ ?_
  · exact meeting_step hrow
  · exact fun x _ => meeting_step

/-- What a call has read of a meeting holds still. -/
theorem meeting_read (reach : Reach (hub env) ok init cfg) {i : Nat} {m : String} {row : Meeting}
    (hread : ⟨.meetingFindUnique m, .ok (some row)⟩ ∈ own i cfg.trace) :
    cfg.store.meetings.find? m = some row := by
  obtain ⟨g, hg, -, hgev⟩ := mem_own.mp hread
  obtain ⟨later, earlier, ht⟩ := List.append_of_mem hg
  exact meeting_kept reach ht (exec_meetingFindUnique_ok (hub_did reach hg hgev))

/-- The meeting of a participant exists. -/
theorem participant_meeting (reach : Reach (hub env) ok World.IsInit cfg) {row : Participant}
    (hrow : cfg.store.participants.find? p = some row) :
    ∃ meeting, cfg.store.meetings.find? row.meetingId = some meeting := by
  refine reach.throughout (fun w => ∀ row, w.participants.find? p = some row →
    ∃ meeting, w.meetings.find? row.meetingId = some meeting) ?_ ?_ row hrow
  · rintro w ⟨tenants, rfl⟩ row hnone
    cases hnone
  · intro x hx ih row' hrow'
    have hbefore : ∃ meeting, x.before.meetings.find? row'.meetingId = some meeting := by
      have hstep : ParticipantStep env x.before p x.ev (some row') :=
        hrow' ▸ hub_participant reach hx p
      rcases hstep.found with ⟨old, hold, hsame⟩ | ⟨-, hmeeting⟩
      · rw [← hsame]
        exact ih old hold
      · exact Option.isSome_iff_exists.mp hmeeting
    obtain ⟨meeting, hmeeting⟩ := hbefore
    exact ⟨meeting, meeting_step hmeeting⟩

/-- Tenants are only added. -/
theorem exec_tenant {op : Op} {w : World} {t : String} (h : (w.tenants.find? t).isSome) :
    ((exec env op w).2.tenants.find? t).isSome := by
  by_cases hpart : op.part = .tenants
  · cases op <;> simp only [Op.part, reduceCtorEq] at hpart
    case tenantCreate name =>
      have hcases : exec env (.tenantCreate name) w = _ ∨ _ := exec_cases
      rcases hcases with hx | hx <;> rw [hx]
      · exact h
      · simp only [effect, World.createTenant]
        split
        · next tenants hinsert =>
          show (tenants.find? t).isSome
          rw [Table.find?_insert? hinsert]
          split
          · rfl
          · exact h
        · exact h
  · rw [exec_tenants hpart]
    exact h

/-- The tenant of a meeting exists. -/
theorem meeting_tenant (reach : Reach (hub env) ok World.IsInit cfg) {m : String} {row : Meeting}
    (hrow : cfg.store.meetings.find? m = some row) :
    (cfg.store.tenants.find? row.tenantId).isSome := by
  refine reach.throughout (fun w => ∀ row, w.meetings.find? m = some row →
    (w.tenants.find? row.tenantId).isSome) ?_ ?_ row hrow
  · rintro w ⟨tenants, rfl⟩ row hnone
    cases hnone
  · intro x hx ih row' hrow'
    apply exec_tenant
    have hstep : MeetingStep env x.before m x.ev (some row') := hrow' ▸ hub_meeting reach hx m
    rcases hstep.found with hold | ⟨-, htenant⟩
    · exact ih row' hold
    · exact htenant

end TroofAI.Hub
