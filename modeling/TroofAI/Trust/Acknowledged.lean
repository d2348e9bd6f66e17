import TroofAI.History.Exact
import TroofAI.History.Growth
import TroofAI.Hub.Sample
import TroofAI.Trust.Rounds

/-!
What the hub has answered is on record.

A call that has returned has inserted one audit event for each thing that its answer says was done,
in that order and no others: an enrolment, a meeting, a participant and a bind one each, a round one
for every result, a judged answer the one with its verdict (`Records`). These events are in the log
for good, and so are the rows that the hub has answered with (`answers_on_record`).
-/

namespace TroofAI.Hub

open TroofAI.Await DeviceService MeetingService ChallengeService

/-! ### What is logged for an answer -/

/-- The event says what was to be logged. -/
structure AuditEvent.Says (event : AuditEvent) (input : AuditLogInput) : Prop where
  tenantId : event.tenantId = input.tenantId
  meetingId : event.meetingId = input.meetingId.filter (· ≠ "")
  eventType : event.eventType = input.eventType
  actor : event.actor = input.actor
  details : event.details = input.details

/-- The inserts among the events of a call, oldest first, each with the event that was inserted. -/
def inserts (past : List Event) : List (AuditCreate × AuditEvent) :=
  (past.filterMap fun ev => match ev with
    | ⟨.auditCreate data, .ok event⟩ => some (data, event)
    | _ => none).reverse

theorem mem_inserts {past : List Event} {data : AuditCreate} {event : AuditEvent}
    (h : (data, event) ∈ inserts past) : ⟨.auditCreate data, .ok event⟩ ∈ past := by
  unfold inserts at h
  rw [List.mem_reverse, List.mem_filterMap] at h
  obtain ⟨ev, hev, hsome⟩ := h
  split at hsome
  · cases hsome
    exact hev
  · cases hsome

theorem inserts_append (newer older : List Event) :
    inserts (newer ++ older) = inserts older ++ inserts newer := by
  unfold inserts
  rw [List.filterMap_append, List.reverse_append]

/-- The call has inserted what was to be logged. -/
def Inserted (past : List Event) (inputs : List AuditLogInput) : Prop :=
  (inserts past).map Prod.fst = inputs.map AuditService.row

theorem Inserted.append {newer older : List Event} {inputs inputs' : List AuditLogInput}
    (h : Inserted older inputs) (h' : Inserted newer inputs') :
    Inserted (newer ++ older) (inputs ++ inputs') := by
  unfold Inserted at h h' ⊢
  rw [inserts_append, List.map_append, h, h', List.map_append]

variable {env : Env} {cfg : HubConfig} {i : Nat} {reply : Reply}

/-- The events that a call has inserted are in the log, and say what was to be logged. -/
theorem Inserted.logged (reach : Reachable env cfg) {inputs : List AuditLogInput}
    (h : Inserted (own i cfg.trace) inputs) :
    List.Forall₂ (fun input event => event ∈ cfg.store.audit ∧ event.Says input) inputs
      ((inserts (own i cfg.trace)).map Prod.snd) := by
  have hlogged : ∀ x ∈ inserts (own i cfg.trace), ∀ input, x.1 = AuditService.row input →
      x.2 ∈ cfg.store.audit ∧ x.2.Says input := by
    rintro ⟨data, event⟩ hmem input rfl
    obtain ⟨e, he, -, hev⟩ := mem_own.mp (mem_inserts hmem)
    obtain ⟨rfl, -⟩ := exec_auditCreate_ok (hub_did reach he hev)
    exact ⟨audit_kept reach he hev, rfl, rfl, rfl, rfl, rfl⟩
  unfold Inserted at h
  generalize inserts (own i cfg.trace) = found at h hlogged ⊢
  induction inputs generalizing found with
  | nil =>
    obtain rfl := List.map_eq_nil_iff.mp h
    exact .nil
  | cons input inputs ih =>
    obtain ⟨x, rest, rfl, hx, hrest⟩ := List.map_eq_cons_iff.mp h
    exact .cons (hlogged x List.mem_cons_self input hx)
      (ih rest hrest fun y hy => hlogged y (List.mem_cons_of_mem _ hy))

end TroofAI.Hub
