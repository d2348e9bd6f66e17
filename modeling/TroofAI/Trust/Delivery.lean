import TroofAI.Hub.Sockets
import TroofAI.Hub.System

/-!
Which sockets the gateway holds, and who gets its messages.

A client that disconnects leaves every meeting, but only the first device it registered: the
loop over the devices ends with a `break`. So a socket stays behind when a client with two
devices disconnects, and only then (`no_dead_sockets_iff`). What a disconnect removes always
belongs to the client that disconnects, so the registrations of the others last
(`registration_lasts`).

A status update goes to the subscribers of the meeting and then to every client, subscribed or
not. So it is delivered once and where it belongs only if the meeting has no subscriber
(`updates_delivered_iff`).
-/

namespace TroofAI.Hub.Gateway

variable {g : Gateway} {events before after : List SocketEvent}
  {client deviceId meetingId : String} {payload : MeetingUpdate}

/-! ### The gateway of the hub -/

theorem handle_sent (sent : List (String × Message)) (event : SocketEvent) :
    { g with sent }.handle event = { g.handle event with sent } := by
  cases event with
  | connection client => rfl
  | disconnect client => rfl
  | deviceConnect client deviceId =>
    simp only [handle]
    split <;> rfl
  | meetingSubscribe client meetingId =>
    simp only [handle]
    split <;> rfl

/-- Whatever calls the hub serves at the same time, its gateway has gone through the events of
its socket clients one after the other, and has sent messages. -/
theorem reachable_gateway {env : Env} {cfg : HubConfig} (h : Reachable env cfg) :
    ∃ events sent, cfg.store.gateway = { run events with sent } := by
  refine h.throughout (fun w => ∃ events sent, w.gateway = { run events with sent }) ?_ ?_
  · rintro _ ⟨tenants, rfl⟩
    exact ⟨[], [], rfl⟩
  · rintro ⟨i, c, w, op, res⟩ - ⟨events, sent, hw⟩
    change w.gateway = _ at hw
    show ∃ events sent, (exec env op w).2.gateway = { run events with sent }
    by_cases hpart : op.part = .gateway
    · cases op with
      | socket event =>
        refine ⟨events ++ [event], sent, ?_⟩
        show w.gateway.handle event = _
        rw [hw, handle_sent, run_snoc]
      | emitChallengeToDevice deviceId payload =>
        refine ⟨events, (w.gateway.emitChallengeToDevice deviceId payload).sent, ?_⟩
        show w.gateway.emitChallengeToDevice deviceId payload = _
        unfold emitChallengeToDevice
        split <;> rw [hw]
        rfl
      | emitMeetingUpdate meetingId payload =>
        refine ⟨events, (w.gateway.emitMeetingUpdate meetingId payload).sent, ?_⟩
        show w.gateway.emitMeetingUpdate meetingId payload = _
        rw [emitMeetingUpdate_eq, hw]
      | _ => cases hpart
    · exact ⟨events, sent, (exec_gateway hpart).trans hw⟩

/-! ### Dead sockets -/

/-- Every socket that is held belongs to a connected client, no set is empty, and so the
devices reported as connected are. -/
structure NoDeadSockets (g : Gateway) : Prop where
  deviceSockets : ∀ p ∈ g.deviceSockets, p.2 ∈ g.connected
  meetingSockets : ∀ p ∈ g.meetingSockets, ∀ socket ∈ p.2, socket ∈ g.connected
  nonempty : ∀ p ∈ g.meetingSockets, p.2 ≠ []
  isDeviceConnected : ∀ deviceId, g.isDeviceConnected deviceId = true →
    ∃ client ∈ g.connected, mapGet g.deviceSockets deviceId = some client
  getConnectedDeviceIds : ∀ deviceId ∈ g.getConnectedDeviceIds,
    ∃ client ∈ g.connected, mapGet g.deviceSockets deviceId = some client

/-- The devices registered for a client. -/
def devicesOf (client : String) (g : Gateway) : List String :=
  (g.deviceSockets.filter (·.2 = client)).map (·.1)

/-- The subscribers of a meeting are connected. -/
def Attended (g : Gateway) : Prop :=
  ∀ p ∈ g.meetingSockets, ∀ socket ∈ p.2, socket ∈ g.connected

theorem Attended.handle (h : Attended g) (event : SocketEvent) : Attended (g.handle event) := by
  cases event with
  | connection client =>
    intro p hp socket hs
    have hold := h p hp socket hs
    show socket ∈ if client ∈ g.connected then g.connected else g.connected ++ [client]
    split
    · exact hold
    · exact List.mem_append_left _ hold
  | disconnect client =>
    intro p hp socket hs
    obtain ⟨q, hq, rfl⟩ := List.mem_map.mp (List.mem_filter.mp hp).1
    obtain ⟨hs, hne⟩ := List.mem_filter.mp hs
    exact List.mem_filter.mpr ⟨h q hq socket hs, hne⟩
  | deviceConnect client deviceId =>
    rcases handle_cases g (.deviceConnect client deviceId) with he | he <;> rw [he] <;> exact h
  | meetingSubscribe client meetingId =>
    show Attended (if client ∈ g.connected then g.handleMeetingSubscribe client meetingId else g)
    split
    · next hclient =>
      intro p hp socket hs
      show socket ∈ g.connected
      rcases mem_mapSet.mp hp with rfl | ⟨-, hp⟩
      · -- the set is the old one, perhaps with the client
        have hmem : socket = client ∨ socket ∈ g.subscribers meetingId := by
          change socket ∈ if client ∈ g.subscribers meetingId then g.subscribers meetingId
            else g.subscribers meetingId ++ [client] at hs
          split at hs
          · exact .inr hs
          · exact (List.mem_append.mp hs).symm.imp_left List.mem_singleton.mp
        rcases hmem with rfl | hmem
        · exact hclient
        · obtain ⟨sockets, hp, hmem⟩ := exists_of_mem_subscribers hmem
          exact h _ hp socket hmem
      · exact h p hp socket hs
    · exact h

theorem run_attended (events : List SocketEvent) : Attended (run events) := by
  induction events using List.reverseRecOn with
  | nil =>
    intro p hp
    cases hp
  | append_singleton events event ih =>
    rw [run_snoc]
    exact ih.handle event

/-- What is asked of a run comes down to the devices. -/
theorem noDeadSockets_iff :
    NoDeadSockets (run events) ↔
      ∀ p ∈ (run events).deviceSockets, p.2 ∈ (run events).connected := by
  refine ⟨NoDeadSockets.deviceSockets, fun h => ?_⟩
  have hreport : ∀ deviceId, ((run events).isDeviceConnected deviceId) = true →
      ∃ client ∈ (run events).connected,
        mapGet (run events).deviceSockets deviceId = some client := by
    intro deviceId hd
    obtain ⟨client, hget⟩ := Option.isSome_iff_exists.mp hd
    exact ⟨client, h _ (mapGet_mem hget), hget⟩
  exact
    { deviceSockets := h
      meetingSockets := run_attended events
      nonempty := (run_tidy events).nonempty
      isDeviceConnected := hreport
      getConnectedDeviceIds := fun deviceId hd => hreport deviceId (mapGet_isSome_iff.mpr hd) }

/-- After its disconnect no device of the client is left exactly if it had one at most. -/
theorem eraseP_forall_iff {m : List (String × String)} :
    (∀ p ∈ m.eraseP (·.2 = client), p.2 ≠ client) ↔
      ((m.filter (·.2 = client)).map (·.1)).length ≤ 1 := by
  induction m with
  | nil => simp
  | cons p m ih =>
    by_cases hp : p.2 = client
    · rw [List.eraseP_cons_of_pos (by simpa using hp), List.filter_cons_of_pos (by simpa using hp)]
      simp only [List.length_map, List.length_cons]
      rw [show (m.filter (·.2 = client)).length + 1 ≤ 1 ↔
        (m.filter (·.2 = client)).length = 0 by omega, List.length_eq_zero_iff,
        List.filter_eq_nil_iff]
      simp
    · rw [List.eraseP_cons_of_neg (by simpa using hp), List.filter_cons_of_neg (by simpa using hp),
        ← ih]
      simp [hp]

/-- One event keeps the devices' sockets alive, unless a client with two devices disconnects. -/
theorem handle_live_iff {event : SocketEvent} (h : ∀ p ∈ g.deviceSockets, p.2 ∈ g.connected) :
    (∀ p ∈ (g.handle event).deviceSockets, p.2 ∈ (g.handle event).connected) ↔
      ∀ client, event = .disconnect client → (g.devicesOf client).length ≤ 1 := by
  cases event with
  | connection client =>
    refine ⟨fun _ _ he => (nomatch he), fun _ p hp => ?_⟩
    show p.2 ∈ if client ∈ g.connected then g.connected else g.connected ++ [client]
    split
    · exact h p hp
    · exact List.mem_append_left _ (h p hp)
  | disconnect client =>
    constructor
    · rintro hall _ ⟨⟩
      refine eraseP_forall_iff.mp fun p hp => ?_
      exact of_decide_eq_true (List.mem_filter.mp (hall p hp)).2
    · intro hone p hp
      have hne := eraseP_forall_iff.mpr (hone client rfl) p hp
      exact List.mem_filter.mpr ⟨h p (List.mem_of_mem_eraseP hp), decide_eq_true hne⟩
  | deviceConnect client deviceId =>
    refine ⟨fun _ _ he => (nomatch he), fun _ => ?_⟩
    show ∀ p ∈ (if client ∈ g.connected then _ else _ : Gateway).deviceSockets,
      p.2 ∈ (if client ∈ g.connected then _ else _ : Gateway).connected
    split
    · next hclient =>
      intro p hp
      rcases mem_mapSet.mp hp with rfl | ⟨-, hp⟩
      · exact hclient
      · exact h p hp
    · exact h
  | meetingSubscribe client meetingId =>
    refine ⟨fun _ _ he => (nomatch he), fun _ => ?_⟩
    show ∀ p ∈ (if client ∈ g.connected then _ else _ : Gateway).deviceSockets,
      p.2 ∈ (if client ∈ g.connected then _ else _ : Gateway).connected
    split <;> exact h

/-- In every state of a run all sockets held are alive if and only if each client that
disconnects has at most one device registered when it does. -/
theorem no_dead_sockets_iff (events : List SocketEvent) :
    (∀ before after, events = before ++ after → NoDeadSockets (run before)) ↔
      ∀ before client after, events = before ++ .disconnect client :: after →
        ((run before).devicesOf client).length ≤ 1 := by
  induction events using List.reverseRecOn with
  | nil =>
    refine ⟨fun _ before client after h => by simp at h, fun _ before after h => ?_⟩
    obtain ⟨rfl, -⟩ := List.append_eq_nil_iff.mp h.symm
    exact noDeadSockets_iff.mpr fun p hp => by cases hp
  | append_singleton events event ih =>
    constructor
    · intro hall before client after h
      have hbefore := hall before _ h
      have hnext : NoDeadSockets (run (before ++ [.disconnect client])) :=
        hall _ after (by rw [h]; simp)
      rw [noDeadSockets_iff, run_snoc] at hnext
      exact (handle_live_iff hbefore.deviceSockets).mp hnext client rfl
    · intro hone before after h
      have hbefore : ∀ before after, events = before ++ after → NoDeadSockets (run before) := by
        refine ih.mpr fun before client after h => hone before client (after ++ [event]) ?_
        rw [h]
        simp
      rcases List.eq_nil_or_concat after with rfl | ⟨after, last, rfl⟩
      · obtain rfl : before = events ++ [event] := by simpa using h.symm
        rw [noDeadSockets_iff, run_snoc]
        refine (handle_live_iff (hbefore events [] (by simp)).deviceSockets).mpr ?_
        rintro client rfl
        exact hone events client [] rfl
      · refine hbefore before after ?_
        rw [List.concat_eq_append, ← List.append_assoc] at h
        exact (List.append_inj' h rfl).1

/-- A client registers two devices and disconnects: the second stays. -/
theorem second_device_stays :
    ¬ ∀ events before after : List SocketEvent, events = before ++ after →
      NoDeadSockets (run before) := by
  intro h
  have hdead := (h _ [.connection "agent", .deviceConnect "agent" "laptop-1",
    .deviceConnect "agent" "laptop-2", .disconnect "agent"] [] rfl).deviceSockets
  exact absurd (hdead ("laptop-2", "agent") (by decide)) (by decide)

/-! ### Registrations last -/

theorem device_lasts {after : List SocketEvent}
    (hset : ∀ other, .deviceConnect other deviceId ∉ after) (hgone : .disconnect client ∉ after)
    (h : mapGet g.deviceSockets deviceId = some client) :
    mapGet (after.foldl dispatch g).deviceSockets deviceId = some client := by
  induction after generalizing g with
  | nil => exact h
  | cons event after ih =>
    refine ih (fun other hmem => hset other (List.mem_cons_of_mem _ hmem))
      (fun hmem => hgone (List.mem_cons_of_mem _ hmem)) ?_
    cases event with
    | connection other => exact h
    | meetingSubscribe other meetingId => exact h
    | disconnect other =>
      -- the entry that is deleted belongs to the other client
      refine mapGet_eraseP h (decide_eq_false ?_)
      rintro rfl
      exact hgone List.mem_cons_self
    | deviceConnect other d =>
      have hne : deviceId ≠ d := by
        rintro rfl
        exact hset other List.mem_cons_self
      exact (mapGet_mapSet_ne hne).trans h

theorem subscription_lasts {after : List SocketEvent} (htidy : Tidy g)
    (hgone : .disconnect client ∉ after) (h : client ∈ g.subscribers meetingId) :
    client ∈ (after.foldl dispatch g).subscribers meetingId := by
  induction after generalizing g with
  | nil => exact h
  | cons event after ih =>
    refine ih (htidy.dispatch event) (fun hmem => hgone (List.mem_cons_of_mem _ hmem)) ?_
    cases event with
    | connection other => exact h
    | deviceConnect other d => exact h
    | disconnect other =>
      show client ∈ (g.handleDisconnect other).subscribers meetingId
      rw [subscribers_handleDisconnect htidy]
      refine List.mem_filter.mpr ⟨h, decide_eq_true ?_⟩
      rintro rfl
      exact hgone List.mem_cons_self
    | meetingSubscribe other m =>
      exact mem_subscribers_handleMeetingSubscribe.mpr (.inl h)

/-- A client that has not disconnected keeps the device it registered last of all, gets its
challenges and no other socket does, and keeps its place in every meeting it subscribed to,
in whatever order the other clients come and go. -/
theorem registration_lasts (events : List SocketEvent) :
    (∀ before client deviceId after, events = before ++ .deviceConnect client deviceId :: after →
      (∀ other, .deviceConnect other deviceId ∉ after) → .disconnect client ∉ after →
      mapGet (dispatched events).deviceSockets deviceId = some client ∧
        ∀ payload, ((dispatched events).emitChallengeToDevice deviceId payload).sent =
          (dispatched events).sent ++ [(client, .challengeIssue payload)]) ∧
    ∀ before client meetingId after,
      events = before ++ .meetingSubscribe client meetingId :: after →
      .disconnect client ∉ after → client ∈ (dispatched events).subscribers meetingId := by
  constructor
  · rintro before client deviceId after rfl hset hgone
    have hstart : mapGet
        ((dispatched before).dispatch (.deviceConnect client deviceId)).deviceSockets deviceId =
          some client := mapGet_mapSet_self
    have hget := device_lasts hset hgone hstart
    rw [dispatched, List.foldl_append, List.foldl_cons]
    refine ⟨hget, fun payload => ?_⟩
    unfold emitChallengeToDevice
    rw [← dispatched, hget]
    rfl
  · rintro before client meetingId after rfl hgone
    rw [dispatched, List.foldl_append, List.foldl_cons]
    refine subscription_lasts ((dispatched_tidy before).dispatch _) hgone ?_
    exact mem_subscribers_handleMeetingSubscribe.mpr (.inr ⟨rfl, rfl⟩)

/-- An agent reconnects, and the disconnect of its old socket arrives late. -/
theorem registration_lasts_reconnect :
    let events : List SocketEvent := [.deviceConnect "old" "laptop-1",
      .meetingSubscribe "old" "standup", .deviceConnect "new" "laptop-1",
      .meetingSubscribe "new" "standup", .disconnect "old"]
    (mapGet (dispatched events).deviceSockets "laptop-1" = some "new" ∧
      ∀ payload, ((dispatched events).emitChallengeToDevice "laptop-1" payload).sent =
        (dispatched events).sent ++ [("new", .challengeIssue payload)]) ∧
    "new" ∈ (dispatched events).subscribers "standup" := by
  intro events
  refine ⟨(registration_lasts events).1 (events.take 2) "new" "laptop-1" (events.drop 3) rfl ?_ ?_,
    (registration_lasts events).2 (events.take 3) "new" "standup" (events.drop 4) rfl ?_⟩
  · intro other hmem
    simp [events] at hmem
  · decide
  · decide

/-! ### Status updates -/

/-- By the history, the client has subscribed to the meeting and not disconnected since. -/
def SubscribedIn (events : List SocketEvent) (client meetingId : String) : Prop :=
  ∃ before after, events = before ++ .meetingSubscribe client meetingId :: after ∧
    client ∈ (run before).connected ∧ .disconnect client ∉ after

/-- How many status updates a call of `emitMeetingUpdate` sends to a client. -/
def received (meetingId : String) (payload : MeetingUpdate) (client : String) (g : Gateway) : Nat :=
  ((g.emitMeetingUpdate meetingId payload).sent.drop g.sent.length).countP fun m =>
    m.1 = client && match m.2 with
      | .meetingStatusUpdate _ _ => true
      | .challengeIssue _ => false

theorem subscribedIn_snoc {event : SocketEvent} :
    SubscribedIn (events ++ [event]) client meetingId ↔
      SubscribedIn events client meetingId ∧ event ≠ .disconnect client ∨
        event = .meetingSubscribe client meetingId ∧ client ∈ (run events).connected := by
  constructor
  · rintro ⟨before, after, h, hclient, hgone⟩
    rcases List.eq_nil_or_concat after with rfl | ⟨after, last, rfl⟩
    · obtain ⟨rfl, hevent⟩ := List.append_inj' h rfl
      exact .inr ⟨(List.singleton_inj.mp hevent), hclient⟩
    · rw [List.concat_eq_append] at h hgone
      rw [← List.cons_append, ← List.append_assoc] at h
      obtain ⟨rfl, hevent⟩ := List.append_inj' h rfl
      obtain rfl := List.singleton_inj.mp hevent
      refine .inl ⟨⟨before, after, rfl, hclient, fun hmem => ?_⟩, ?_⟩
      · exact hgone (List.mem_append_left _ hmem)
      · rintro rfl
        exact hgone (List.mem_append_right _ List.mem_cons_self)
  · rintro (⟨⟨before, after, rfl, hclient, hgone⟩, hne⟩ | ⟨rfl, hclient⟩)
    · refine ⟨before, after ++ [event], by simp, hclient, ?_⟩
      rw [List.mem_append, List.mem_singleton]
      rintro (hmem | rfl)
      · exact hgone hmem
      · exact hne rfl
    · exact ⟨events, [], rfl, hclient, by simp⟩

/-- The sets of the gateway say what the history says. -/
theorem mem_subscribers_run : client ∈ (run events).subscribers meetingId ↔
    SubscribedIn events client meetingId := by
  induction events using List.reverseRecOn with
  | nil =>
    constructor
    · intro h
      cases h
    · rintro ⟨before, after, h, -⟩
      simp at h
  | append_singleton events event ih =>
    rw [subscribedIn_snoc, ← ih, run_snoc]
    cases event with
    | connection other =>
      show client ∈ (run events).subscribers meetingId ↔ _
      simp
    | deviceConnect other d =>
      rcases handle_cases (run events) (.deviceConnect other d) with h | h <;> rw [h]
      · show client ∈ (run events).subscribers meetingId ↔ _
        simp
      · simp
    | disconnect other =>
      show client ∈ ((run events).handleDisconnect other).subscribers meetingId ↔ _
      rw [subscribers_handleDisconnect (run_tidy events), List.mem_filter]
      simp only [decide_eq_true_eq, ne_eq, SocketEvent.disconnect.injEq, reduceCtorEq, false_and,
        or_false]
      exact and_congr_right fun _ => not_congr eq_comm
    | meetingSubscribe other m =>
      show client ∈ (if other ∈ (run events).connected then
        (run events).handleMeetingSubscribe other m else run events).subscribers meetingId ↔ _
      simp only [ne_eq, reduceCtorEq, not_false_eq_true, and_true,
        SocketEvent.meetingSubscribe.injEq]
      split
      · next hother =>
        rw [mem_subscribers_handleMeetingSubscribe]
        exact or_congr_right ⟨fun h => ⟨h, h.1 ▸ hother⟩, And.left⟩
      · next hother =>
        refine ⟨.inl, ?_⟩
        rintro (h | ⟨⟨rfl, -⟩, hclient⟩)
        · exact h
        · exact absurd hclient hother

/-- One update as a subscriber, and one as a client. -/
theorem received_eq (h : Tidy g) : g.received meetingId payload client =
    (if client ∈ g.subscribers meetingId then 1 else 0) +
      if client ∈ g.connected then 1 else 0 := by
  have hcount : ∀ {sockets : List String} (m : Option String), sockets.Nodup →
      (sockets.map fun socket => (socket, Message.meetingStatusUpdate m payload)).countP
        (fun m => m.1 = client && match m.2 with
          | .meetingStatusUpdate _ _ => true
          | .challengeIssue _ => false) = if client ∈ sockets then 1 else 0 := by
    intro sockets m hnodup
    rw [List.countP_map, ← hnodup.count, List.count]
    refine List.countP_congr fun socket _ => ?_
    simp
  unfold received
  rw [emitMeetingUpdate_eq]
  dsimp only
  rw [List.append_assoc, List.drop_left, List.countP_append]
  exact congrArg₂ (· + ·) (hcount none h.subscribers) (hcount (some meetingId) h.clients)

/-- The updates are delivered once to the subscribers, and to them alone where there are any,
if and only if there are none. -/
theorem updates_delivered_iff (events : List SocketEvent) (meetingId : String)
    (payload : MeetingUpdate) :
    ((∀ client ∈ (run events).connected, SubscribedIn events client meetingId →
        (run events).received meetingId payload client = 1) ∧
      ((∃ client, SubscribedIn events client meetingId) →
        ∀ client, ¬ SubscribedIn events client meetingId →
          (run events).received meetingId payload client = 0)) ↔
      ∀ client, ¬ SubscribedIn events client meetingId := by
  constructor
  · rintro ⟨hone, -⟩ client hsub
    have hmem := mem_subscribers_run.mpr hsub
    obtain ⟨sockets, hp, hin⟩ := exists_of_mem_subscribers hmem
    have hclient : client ∈ (run events).connected := run_attended events _ hp client hin
    have htwo := hone client hclient hsub
    rw [received_eq (run_tidy events), if_pos hmem, if_pos hclient] at htwo
    omega
  · intro hnone
    exact ⟨fun client _ hsub => absurd hsub (hnone client),
      fun ⟨client, hsub⟩ => absurd hsub (hnone client)⟩

/-- A dashboard that is subscribed to the meeting gets its update twice, and another one that
is subscribed to a different meeting gets it too. -/
theorem update_duplicated :
    ¬ ∀ events meetingId payload,
      (∀ client ∈ (run events).connected, SubscribedIn events client meetingId →
        (run events).received meetingId payload client = 1) ∧
      ((∃ client, SubscribedIn events client meetingId) →
        ∀ client, ¬ SubscribedIn events client meetingId →
          (run events).received meetingId payload client = 0) := by
  intro h
  obtain ⟨hone, -⟩ := h [.connection "acme", .connection "globex",
    .meetingSubscribe "acme" "standup", .meetingSubscribe "globex" "review"] "standup"
    ⟨"alice", .verified, ""⟩
  exact absurd (hone "acme" (by decide) (mem_subscribers_run.mp (by decide))) (by decide)

end TroofAI.Hub.Gateway
