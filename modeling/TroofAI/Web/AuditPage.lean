import TroofAI.Hub.Sample

/-!
What the audit page shows: `AuditPage.fetchAudit` and the endpoints of the hub it asks.

The page goes through the first ten meetings of a list that the hub cuts off at fifty, and
puts their events together. An event without a meeting, such as the enrolment of a device, is
never among them, nor is one of an eleventh meeting (`audit_page_complete_iff`).
-/

namespace TroofAI.Hub

/-! ### The endpoints -/

/-- `orderBy: { createdAt: 'desc' }` on meetings. -/
abbrev MeetingOrder := RowOrder fun a b : Meeting => b.createdAt ≤ a.createdAt

/-- `orderBy: { createdAt: 'asc' }` on audit events. -/
abbrev AuditOrder := RowOrder fun a b : AuditEvent => a.createdAt ≤ b.createdAt

def MeetingService.listByTenant (order : MeetingOrder) (tenantId : String) (w : World) :
    List Meeting :=
  (order.sort (w.meetings.rows.filter (·.tenantId = tenantId))).take 50

def MeetingController.listMeetings (order : MeetingOrder) (tenantId : String) (w : World) :
    List Meeting :=
  if tenantId = "" then [] else MeetingService.listByTenant order tenantId w

def AuditService.getByMeeting (order : AuditOrder) (meetingId : String) (w : World) :
    List AuditEvent :=
  order.sort (w.audit.filter (·.meetingId = some meetingId))

/-- A list of meetings has none twice. -/
theorem listMeetings_nodup (order : MeetingOrder) (tenantId : String) (w : World) :
    ((MeetingController.listMeetings order tenantId w).map Meeting.id).Nodup := by
  unfold MeetingController.listMeetings MeetingService.listByTenant
  split
  · exact List.nodup_nil
  · refine List.Nodup.sublist ((List.take_sublist 50 _).map _) ?_
    rw [((order.perm _).map Meeting.id).nodup_iff]
    exact w.meetings.nodup.sublist (List.filter_sublist.map _)

end TroofAI.Hub

namespace TroofAI.Web

open Hub

/-! ### The page -/

/-- The answers of the hub to the page's requests, `none` where a request fails. -/
structure HubClient (Event : Type) where
  demoTenant : Option String
  meetings : (tenantId : String) → Option (List Meeting)
  auditOfMeeting : (meetingId : String) → Option (List Event)

namespace AuditPage

variable {Event : Type}

/-- `sort((a, b) => new Date(b.createdAt).getTime() - new Date(a.createdAt).getTime())` -/
def sortByDate (createdAt : Event → Date) (events : List Event) : List Event :=
  events.mergeSort fun a b => createdAt b ≤ createdAt a

/-- `fetchAudit`: the list that is displayed. -/
def fetchAudit (hub : HubClient Event) (createdAt : Event → Date) (mockEvents : List Event) :
    List Event :=
  let allEvents : Option (List Event) := do
    let tenantId ← hub.demoTenant
    let meetings ← hub.meetings tenantId
    let lists ← (meetings.take 10).mapM fun m : Meeting => hub.auditOfMeeting m.id
    return lists.flatten
  sortByDate createdAt (allEvents.getD mockEvents)

end AuditPage

/-- A hub that can be reached, in the state `w`, with the demo tenant `tenantId`. -/
def reachableHub (meetingOrder : MeetingOrder) (auditOrder : AuditOrder) (tenantId : String)
    (w : World) : HubClient AuditEvent where
  demoTenant := some tenantId
  meetings tenantId := some (MeetingController.listMeetings meetingOrder tenantId w)
  auditOfMeeting meetingId := some (AuditService.getByMeeting auditOrder meetingId w)

/-! ### Completeness -/

theorem sortByDate_perm {Event : Type} (createdAt : Event → Date) (events : List Event) :
    (AuditPage.sortByDate createdAt events).Perm events := List.mergeSort_perm ..

theorem sortByDate_sorted {Event : Type} (createdAt : Event → Date) (events : List Event) :
    (AuditPage.sortByDate createdAt events).Pairwise fun a b => createdAt b ≤ createdAt a := by
  have htrans : ∀ a b c : Event, decide (createdAt b ≤ createdAt a) = true →
      decide (createdAt c ≤ createdAt b) = true → decide (createdAt c ≤ createdAt a) = true :=
    fun a b c hab hbc =>
      decide_eq_true ((of_decide_eq_true hbc).trans (of_decide_eq_true hab))
  have htotal : ∀ a b : Event,
      (decide (createdAt b ≤ createdAt a) || decide (createdAt a ≤ createdAt b)) = true := by
    intro a b
    simpa using Nat.le_total (createdAt b) (createdAt a)
  exact (List.pairwise_mergeSort htrans htotal events).imp of_decide_eq_true

/-- Rows of one date may stand as they were inserted. -/
instance : Inhabited MeetingOrder where
  default := ⟨AuditPage.sortByDate Meeting.createdAt, sortByDate_perm _, sortByDate_sorted _⟩

instance : Inhabited AuditOrder where
  default :=
    ⟨fun rows => (AuditPage.sortByDate AuditEvent.createdAt rows).reverse,
      fun rows => (List.reverse_perm _).trans (sortByDate_perm _ rows),
      fun rows => List.pairwise_reverse.mpr (sortByDate_sorted _ rows)⟩

/-- Queries for one key each find together what one query for all the keys finds. -/
theorem flatMap_filter_perm {Event : Type} {K : Type} [DecidableEq K] {keys : List K}
    (h : keys.Nodup) (key : Event → Option K) (events : List Event) :
    (keys.flatMap fun k => events.filter (key · = some k)).Perm
      (events.filter fun e => ∃ k ∈ keys, key e = some k) := by
  induction keys with
  | nil => simp
  | cons k keys ih =>
    obtain ⟨hk, hkeys⟩ := List.nodup_cons.mp h
    rw [List.flatMap_cons]
    refine ((ih hkeys).append_left _).trans ?_
    -- an event of the first key is of none of the others
    have hsplit := List.filter_append_perm (fun e => decide (key e = some k))
      (events.filter fun e => ∃ j ∈ k :: keys, key e = some j)
    rw [List.filter_filter, List.filter_filter] at hsplit
    convert hsplit using 2
    · refine List.filter_congr fun e _ => ?_
      by_cases he : key e = some k <;> simp [he]
    · refine List.filter_congr fun e _ => ?_
      by_cases he : key e = some k
      · simp [he, hk]
      · simp [he]

/-- Two selections from one list have the same elements only if they select alike. -/
theorem filter_perm_iff {α : Type} {p q : α → Bool} {l : List α} :
    (l.filter p).Perm (l.filter q) ↔ ∀ a ∈ l, p a = q a := by
  constructor
  · intro h a ha
    have hmem := h.mem_iff (a := a)
    rw [List.mem_filter, List.mem_filter] at hmem
    exact Bool.eq_iff_iff.mpr (by simpa [ha] using hmem)
  · intro h
    rw [List.filter_congr h]

variable {meetingOrder : MeetingOrder} {auditOrder : AuditOrder} {tenantId : String} {w : World}

/-- The events displayed are those of the first ten meetings. -/
theorem fetchAudit_perm (mockEvents : List AuditEvent) :
    (AuditPage.fetchAudit (reachableHub meetingOrder auditOrder tenantId w) AuditEvent.createdAt
      mockEvents).Perm (w.audit.filter fun e =>
        ∃ id ∈ ((MeetingController.listMeetings meetingOrder tenantId w).take 10).map Meeting.id,
          e.meetingId = some id) := by
  have hnodup : (((MeetingController.listMeetings meetingOrder tenantId w).take 10).map
      Meeting.id).Nodup :=
    (listMeetings_nodup ..).sublist ((List.take_sublist 10 _).map _)
  refine (sortByDate_perm _ _).trans (.trans ?_ (flatMap_filter_perm hnodup _ _))
  simp only [reachableHub, Option.bind_eq_bind, Option.bind_some]
  rw [show (fun m : Meeting => some (AuditService.getByMeeting auditOrder m.id w)) =
    fun m => pure (AuditService.getByMeeting auditOrder m.id w) from rfl, List.mapM_pure]
  rw [List.flatMap_map]
  exact List.Perm.flatMap_left _ fun m _ => auditOrder.perm _

/-- The page shows all events of the tenant, and only these, newest first, if and only if the
tenant's events are those of the first ten of its meetings. -/
theorem audit_page_complete_iff (meetingOrder : MeetingOrder) (auditOrder : AuditOrder)
    (tenantId : String) (w : World) (mockEvents : List AuditEvent) :
    let shown := AuditPage.fetchAudit (reachableHub meetingOrder auditOrder tenantId w)
      AuditEvent.createdAt mockEvents
    (shown.Perm (w.audit.filter (·.tenantId = tenantId)) ∧
        shown.Pairwise fun a b => b.createdAt ≤ a.createdAt) ↔
      ∀ event ∈ w.audit, event.tenantId = tenantId ↔
        ∃ meeting ∈ (MeetingController.listMeetings meetingOrder tenantId w).take 10,
          event.meetingId = some meeting.id := by
  intro shown
  have hsorted : shown.Pairwise fun a b => b.createdAt ≤ a.createdAt := sortByDate_sorted _ _
  have hperm : shown.Perm _ := fetchAudit_perm mockEvents
  rw [and_iff_left hsorted, hperm.congr_left, filter_perm_iff]
  refine forall₂_congr fun event _ => ?_
  rw [Bool.eq_iff_iff, decide_eq_true_iff, decide_eq_true_iff]
  simp only [List.mem_map, exists_exists_and_eq_and]
  exact iff_comm

/-- A device is enrolled and a meeting held. Whatever orders the database takes, the event of the
enrolment is not displayed. -/
theorem enrolment_not_shown : ∃ cfg, Reachable (Sample.env 0 0) cfg ∧
    ∀ meetingOrder auditOrder mockEvents,
      ¬ (AuditPage.fetchAudit (reachableHub meetingOrder auditOrder "tenant-acme" cfg.store)
        AuditEvent.createdAt mockEvents).Perm
          (cfg.store.audit.filter (·.tenantId = "tenant-acme")) := by
  refine ⟨_, Sample.run_reachable _ Sample.setUp, fun meetingOrder auditOrder mockEvents h => ?_⟩
  have hevent : ∃ event ∈ (Sample.run (Sample.env 0 0) Sample.setUp).store.audit,
      event.tenantId = "tenant-acme" ∧ event.meetingId = none := by
    decide +kernel
  obtain ⟨event, hmem, htenant, hnone⟩ := hevent
  have hshown := (fetchAudit_perm mockEvents).mem_iff.mp
    (h.mem_iff.mpr (List.mem_filter.mpr ⟨hmem, decide_eq_true htenant⟩))
  obtain ⟨id, -, hid⟩ := of_decide_eq_true (List.mem_filter.mp hshown).2
  rw [hnone] at hid
  cases hid

end TroofAI.Web
