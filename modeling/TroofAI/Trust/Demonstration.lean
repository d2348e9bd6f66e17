import TroofAI.Trust.Coverage
import TroofAI.Trust.RedisTexts
import TroofAI.Trust.Session

/-!
The demonstration: the session of the meeting page is challenged, and the agent answers.

`Session` is what the challenge finds, and `Serving` what its loop makes of that, in whatever order
the participants are listed; the session stays one, but for the statuses. The page leaves a session
(`Ready.session`), so `demo_shown` tells what the hub shows in the end.
-/

namespace TroofAI.Hub

open TroofAI.Await TroofAI.Agent Web ChallengeService

/-- The meeting has these three participants, the last in the table, and only the first of them is
bound to a device. -/
structure Session (w : World) (meeting : Meeting) (deviceId : String) (device : Device)
    (old : List Participant) (alice ahmad external : Participant) : Prop where
  found : w.meetings.find? meeting.id = some meeting
  rows : w.participants.rows = old ++ [alice, ahmad, external]
  others : ∀ row ∈ old, row.meetingId ≠ meeting.id
  members : alice.meetingId = meeting.id ∧ ahmad.meetingId = meeting.id ∧
    external.meetingId = meeting.id
  bound : alice.deviceId = some deviceId ∧ deviceId ≠ ""
  unbound : ahmad.deviceId = none ∧ external.deviceId = none
  device : w.devices.find? deviceId = some device

variable {env : Env} {w : World} {meeting : Meeting} {device : Device} {old : List Participant}
  {alice ahmad external : Participant} {deviceId : String}

theorem Session.alice_found (h : Session w meeting deviceId device old alice ahmad external) :
    w.participants.find? alice.id = some alice := by
  refine Table.find?_eq_some.mpr ⟨?_, rfl⟩
  rw [h.rows]
  simp

theorem Session.members_eq (h : Session w meeting deviceId device old alice ahmad external) :
    w.members meeting.id = [alice, ahmad, external] := by
  have hold : old.filter (fun row => decide (row.meetingId = meeting.id)) = [] :=
    List.filter_eq_nil_iff.mpr fun row hrow => by simpa using h.others row hrow
  obtain ⟨halice, hahmad, hexternal⟩ := h.members
  unfold World.members
  rw [h.rows, List.filter_append, hold]
  simp [halice, hahmad, hexternal]

/-- They are three. -/
theorem Session.nodup (h : Session w meeting deviceId device old alice ahmad external) :
    [alice, ahmad, external].Nodup := by
  have hids := w.participants.nodup
  rw [h.rows, List.map_append, List.nodup_append] at hids
  exact hids.2.1.of_map Participant.id

/-! ### The challenge -/

/-- The challenge that the device is sent, when the turn of its participant begins at step `n`. -/
def sessionChallenge (env : Env) (n : Nat) (meeting : Meeting) (deviceId : String)
    (alice : Participant) : ChallengeRecord :=
  challengeRecord meeting meeting.id alice deviceId (env.uuid n) (env.nonce (n + 1))
    (env.clock (n + 2)) (env.clock (n + 3))

/-- The row of a participant without a device, whose turn begins at step `n`. -/
def failedRow (env : Env) (n : Nat) (row : Participant) : Participant :=
  (noDeviceData (env.clock n)).apply row

/-- The row of a participant without a device, before or after its turn. -/
def Served (env : Env) (left : List Participant) (row row' : Participant) : Prop :=
  (row ∈ left → row' = row) ∧ (row ∉ left → ∃ n, row' = failedRow env n row)

/-- The challenge of the turn of step `n` is stored, and has been sent to the device's socket. -/
structure Challenged (env : Env) (w : World) (n : Nat) (meeting : Meeting) (deviceId : String)
    (alice : Participant) : Prop where
  stored : w.redis.entry (.challenge (env.uuid n)) =
    some (sessionChallenge env n meeting deviceId alice, env.clock (n + 4) + 15 * 1000)
  sent : ∀ socket, Gateway.mapGet w.gateway.deviceSockets deviceId = some socket →
    (socket, .challengeIssue (sessionChallenge env n meeting deviceId alice).toChallengePayload) ∈
      w.gateway.sent

/-- How many steps a turn takes. -/
def turnSteps (row : Participant) : Nat := if row.deviceId.isSome then 7 else 4

/-- What the challenge of the session in `w₀` has made of it when the turns of the participants
`left` are still to come, in whatever order they are listed. -/
structure Serving (env : Env) (w₀ w : World) (meeting : Meeting) (deviceId : String)
    (device : Device) (old : List Participant) (alice ahmad external : Participant)
    (left : List Participant) : Prop where
  begun : w₀.steps + 2 ≤ w.steps
  steps : w.steps + (left.map turnSteps).sum = w₀.steps + 17
  tenants : w.tenants = w₀.tenants
  sockets : w.gateway.deviceSockets = w₀.gateway.deviceSockets
  session : ∃ ahmad' external', Session w meeting deviceId device old alice ahmad' external' ∧
    Served env left ahmad ahmad' ∧ Served env left external external'
  challenged : alice ∉ left →
    ∃ n, w₀.steps + 2 ≤ n ∧ Challenged env w n meeting deviceId alice

variable {w₀ : World} {left : List Participant}

theorem emitMeetingUpdate_sockets {g : Gateway} {meetingId : String} {payload : MeetingUpdate} :
    (g.emitMeetingUpdate meetingId payload).deviceSockets = g.deviceSockets := by
  rw [Gateway.emitMeetingUpdate_eq]

/-- What has been sent stays sent. -/
theorem emitMeetingUpdate_sent {g : Gateway} {meetingId : String} {payload : MeetingUpdate}
    {x : String × Message} (h : x ∈ g.sent) : x ∈ (g.emitMeetingUpdate meetingId payload).sent := by
  rw [Gateway.emitMeetingUpdate_eq]
  exact List.mem_append_left _ (List.mem_append_left _ h)

theorem emitChallengeToDevice_sockets {g : Gateway} {payload : ChallengePayload} :
    (g.emitChallengeToDevice deviceId payload).deviceSockets = g.deviceSockets := by
  unfold Gateway.emitChallengeToDevice
  split <;> rfl

theorem Served.next {row row' other : Participant} (h : Served env (other :: left) row row')
    (hne : row ≠ other) : Served env left row row' :=
  ⟨fun hmem => h.1 (List.mem_cons_of_mem _ hmem), fun hmem => h.2 (by simp [hmem, hne])⟩

/-- The turn of the one with a device. -/
theorem Serving.alice_turn
    (h : Serving env w₀ w meeting deviceId device old alice ahmad external (alice :: left))
    (hnodup : [alice, ahmad, external].Nodup) :
    Serving env w₀ (challengedStore env w meeting meeting.id alice deviceId) meeting deviceId device
      old alice ahmad external left := by
  obtain ⟨ahmad', external', hsession, hahmad, hexternal⟩ := h.session
  have hne : ahmad ≠ alice ∧ external ≠ alice := by
    simp only [List.nodup_cons, List.mem_cons, List.not_mem_nil, or_false, not_or] at hnodup
    exact ⟨Ne.symm hnodup.1.1, Ne.symm hnodup.1.2⟩
  have hsteps : turnSteps alice = 7 := by simp [turnSteps, hsession.bound.1]
  refine ⟨?_, ?_, h.tenants, ?_, ?_, fun _ => ⟨w.steps, h.begun, ?_, ?_⟩⟩
  · exact h.begun.trans (Nat.le_add_right _ 7)
  · have hsum := h.steps
    rw [List.map_cons, List.sum_cons, hsteps, ← Nat.add_assoc] at hsum
    exact hsum
  · exact emitChallengeToDevice_sockets.trans h.sockets
  · exact ⟨ahmad', external', ⟨hsession.found, hsession.rows, hsession.others, hsession.members,
      hsession.bound, hsession.unbound, hsession.device⟩, hahmad.next hne.1, hexternal.next hne.2⟩
  · exact Expiring.set_entry_self ..
  · intro socket hsocket
    have hbefore : Gateway.mapGet w.gateway.deviceSockets deviceId = some socket := by
      rw [← hsocket]
      exact congrArg (Gateway.mapGet · deviceId) emitChallengeToDevice_sockets.symm
    show _ ∈ (w.gateway.emitChallengeToDevice deviceId _).sent
    unfold Gateway.emitChallengeToDevice
    rw [hbefore]
    exact List.mem_append_right _ (List.mem_singleton_self _)

/-- The turn of one without, whose row is `row`: it is one of the last two of the table. -/
theorem Serving.turn {row : Participant}
    (h : Serving env w₀ w meeting deviceId device old alice ahmad external (row :: left))
    (hrow : row.deviceId = none)
    (hsession : ∃ ahmad' external', Session (noDeviceStore env w meeting meeting.id row) meeting
      deviceId device old alice ahmad' external' ∧ Served env left ahmad ahmad' ∧
        Served env left external external')
    (hne : alice ≠ row) :
    Serving env w₀ (noDeviceStore env w meeting meeting.id row) meeting deviceId device old alice
      ahmad external left := by
  have hsteps : turnSteps row = 4 := by simp [turnSteps, hrow]
  refine ⟨?_, ?_, h.tenants, ?_, hsession, fun halice => ?_⟩
  · exact h.begun.trans (Nat.le_add_right _ 4)
  · have hsum := h.steps
    rw [List.map_cons, List.sum_cons, hsteps, ← Nat.add_assoc] at hsum
    exact hsum
  · exact emitMeetingUpdate_sockets.trans h.sockets
  · obtain ⟨n, hn, hstored, hsent⟩ := h.challenged (by simp [halice, hne])
    refine ⟨n, hn, hstored, fun socket hsocket => emitMeetingUpdate_sent (hsent socket ?_)⟩
    rw [← hsocket]
    exact congrArg (Gateway.mapGet · deviceId) emitMeetingUpdate_sockets.symm

theorem Session.ahmad_failed (h : Session w meeting deviceId device old alice ahmad external) :
    Session (noDeviceStore env w meeting meeting.id ahmad) meeting deviceId device old alice
      (failedRow env w.steps ahmad) external where
  found := h.found
  rows := by
    have hrows : w.participants.rows = (old ++ [alice]) ++ ahmad :: [external] := by
      simp [h.rows]
    refine (Table.modify_rows (ParticipantUpdate.apply_id _) hrows).trans ?_
    simp only [List.append_assoc, List.singleton_append]
    rfl
  others := h.others
  members := h.members
  bound := h.bound
  unbound := h.unbound
  device := h.device

theorem Session.external_failed (h : Session w meeting deviceId device old alice ahmad external) :
    Session (noDeviceStore env w meeting meeting.id external) meeting deviceId device old alice
      ahmad (failedRow env w.steps external) where
  found := h.found
  rows := by
    have hrows : w.participants.rows = (old ++ [alice, ahmad]) ++ external :: [] := by
      simp [h.rows]
    refine (Table.modify_rows (ParticipantUpdate.apply_id _) hrows).trans ?_
    simp only [List.append_assoc, List.cons_append, List.nil_append]
    rfl
  others := h.others
  members := h.members
  bound := h.bound
  unbound := h.unbound
  device := h.device

theorem Served.failed {row : Participant} (h : row ∉ left) (n : Nat) :
    Served env left row (failedRow env n row) :=
  ⟨fun hmem => absurd hmem h, fun _ => ⟨n, rfl⟩⟩

/-- A turn of the loop. -/
theorem Serving.next {row : Participant}
    (h : Serving env w₀ w meeting deviceId device old alice ahmad external (row :: left))
    (h₀ : Session w₀ meeting deviceId device old alice ahmad external)
    (hrow : row ∈ [alice, ahmad, external]) (hnew : row ∉ left) (hquiet : Undisturbed env w)
    (htenant : (w.tenants.find? meeting.tenantId).isSome) :
    ∃ w₁ result k, w₁.steps = w.steps + k ∧
      Serving env w₀ w₁ meeting deviceId device old alice ahmad external left ∧
      ∀ (R : IssueResult → World → Prop) (E : HubError → World → Prop),
        Prog.Ends (exec env) R E (issueOne meeting meeting.id (w₀.withDevice row)) w ↔
          R result w₁ := by
  obtain ⟨ahmad', external', hsession, hahmad, hexternal⟩ := h.session
  have hmeeting : (w.meetings.find? meeting.id).isSome := by
    rw [hsession.found]
    rfl
  have hnodup := h₀.nodup
  have hother := hnodup
  simp only [List.nodup_cons, List.mem_cons, List.not_mem_nil, or_false, not_or] at hother
  simp only [List.mem_cons, List.not_mem_nil, or_false] at hrow
  rcases hrow with rfl | rfl | rfl
  · have hbound : boundDevice (w₀.withDevice row) = some deviceId := by
      simp [boundDevice, World.withDevice, h₀.bound.1, h₀.bound.2, h₀.device]
    exact ⟨_, _, 7, rfl, h.alice_turn hnodup, fun R E =>
      issueOne_challenged_ends hquiet htenant hmeeting hbound⟩
  · obtain rfl : ahmad' = row := hahmad.1 List.mem_cons_self
    have hfound : w.participants.find? ahmad'.id = some ahmad' :=
      Table.find?_eq_some.mpr ⟨by simp [hsession.rows], rfl⟩
    have hunbound : boundDevice (w₀.withDevice ahmad') = none := by
      simp [boundDevice, World.withDevice, h₀.unbound.1]
    exact ⟨_, _, 4, rfl, h.turn h₀.unbound.1 ⟨_, external', hsession.ahmad_failed,
      .failed hnew w.steps, hexternal.next (Ne.symm hother.2.1)⟩ hother.1.1, fun R E =>
      issueOne_noDevice_ends hquiet htenant hmeeting hfound hunbound⟩
  · obtain rfl : external' = row := hexternal.1 List.mem_cons_self
    have hfound : w.participants.find? external'.id = some external' :=
      Table.find?_eq_some.mpr ⟨by simp [hsession.rows], rfl⟩
    have hunbound : boundDevice (w₀.withDevice external') = none := by
      simp [boundDevice, World.withDevice, h₀.unbound.2]
    exact ⟨_, _, 4, rfl, h.turn h₀.unbound.2 ⟨ahmad', _, hsession.external_failed,
      hahmad.next hother.2.1, .failed hnew w.steps⟩ hother.1.2, fun R E =>
      issueOne_noDevice_ends hquiet htenant hmeeting hfound hunbound⟩

/-- The loop, in whatever order the participants are listed. -/
theorem Serving.ends
    (h : Serving env w₀ w meeting deviceId device old alice ahmad external left)
    (h₀ : Session w₀ meeting deviceId device old alice ahmad external)
    (hrows : ∀ row ∈ left, row ∈ [alice, ahmad, external]) (hnodup : left.Nodup)
    (hquiet : Undisturbed env w) (htenant : (w.tenants.find? meeting.tenantId).isSome) :
    ∃ w' results, Serving env w₀ w' meeting deviceId device old alice ahmad external [] ∧
      ∀ (R : List IssueResult → World → Prop) (E : HubError → World → Prop),
        Prog.Ends (exec env) R E
            (Prog.collect (issueOne meeting meeting.id) (left.map w₀.withDevice)) w ↔
          R results w' := by
  induction left generalizing w with
  | nil => exact ⟨w, [], h, fun _ _ => Iff.rfl⟩
  | cons row left ih =>
    obtain ⟨hnew, hrest⟩ := List.nodup_cons.mp hnodup
    obtain ⟨w₁, result, k, hsteps, hnext, hends₁⟩ :=
      h.next h₀ (hrows row List.mem_cons_self) hnew hquiet htenant
    have htenant₁ : (w₁.tenants.find? meeting.tenantId).isSome := by
      rw [hnext.tenants, ← h.tenants]
      exact htenant
    obtain ⟨w', results, hserved, hends⟩ :=
      ih hnext (fun row' hrow' => hrows row' (List.mem_cons_of_mem _ hrow')) hrest
        (hquiet.later hsteps) htenant₁
    refine ⟨w', result :: results, hserved, fun R E => ?_⟩
    refine Prog.ends_bind.trans ((hends₁ _ _).trans ?_)
    exact Prog.ends_map.trans (hends _ _)

/-- What the challenge of a session leaves. -/
theorem session_challenged (h : Session w meeting deviceId device old alice ahmad external)
    (hquiet : Undisturbed env w) (htenant : (w.tenants.find? meeting.tenantId).isSome) :
    Serving env w (aloneStore env (.issueChallenge meeting.id) w) meeting deviceId device old alice
      ahmad external [] := by
  refine (alone_ends (P := fun _ left => Serving env w left meeting deviceId device old alice ahmad
    external []) rfl).mpr ?_
  refine (issueChallenge_ends hquiet).mpr ?_
  simp only [h.found]
  have hperm : ((readOrder env w).sort (w.members meeting.id)).Perm [alice, ahmad, external] := by
    rw [← h.members_eq]
    exact (readOrder env w).perm _
  have hsum : ((((readOrder env w).sort (w.members meeting.id)).map turnSteps).sum) = 15 := by
    rw [(hperm.map turnSteps).sum_eq]
    simp [turnSteps, h.bound.1, h.unbound.1, h.unbound.2]
  have hstart : Serving env w { w with steps := w.steps + 2 } meeting deviceId device old alice
      ahmad external ((readOrder env w).sort (w.members meeting.id)) := by
    refine ⟨le_rfl, by rw [hsum], rfl, rfl, ⟨ahmad, external, ?_, ?_, ?_⟩, fun halice => ?_⟩
    · exact ⟨h.found, h.rows, h.others, h.members, h.bound, h.unbound, h.device⟩
    · exact ⟨fun _ => rfl, fun hnot => absurd (hperm.mem_iff.mpr (by simp)) hnot⟩
    · exact ⟨fun _ => rfl, fun hnot => absurd (hperm.mem_iff.mpr (by simp)) hnot⟩
    · exact absurd (hperm.mem_iff.mpr (by simp)) halice
  obtain ⟨w', results, hserved, hends⟩ := hstart.ends h (fun row hrow => hperm.mem_iff.mp hrow)
    (hperm.nodup_iff.mpr h.nodup) (hquiet.later rfl) htenant
  exact (hends _ _).mpr hserved

/-! ### The answer -/

variable {socket : String} {agent : LocalAgent} {t : Tenant} {w' : World} {n : Nat}

/-- The agent is enrolled for the user in the tenant, and signs with the key that is stored for its
device. The device is ACTIVE and connected at `socket`. The answer is read when the round of `w` is
over, after 17 steps: within ten seconds of the first of its turns, and while the last heartbeat is
fresh. Whichever turn is the device's, its challenge has not expired then. -/
structure Present (env : Env) (w : World) (agent : LocalAgent) (tenantId userId socket : String)
    (device : Device) : Prop where
  enrolled : agent.enrollment = ⟨tenantId, agent.enrollment.deviceId, userId⟩
  found : w.devices.find? agent.enrollment.deviceId = some device
  active : device.status = .active
  signs : ∀ text, env.verify device.publicKeyPem text (agent.sign text) = .ok true
  connected : Gateway.mapGet w.gateway.deviceSockets agent.enrollment.deviceId = some socket
  inTime : env.clock (w.steps + 18) ≤ env.clock (w.steps + 5) + 10000
  fresh : PolicyService.Fresh device.lastHeartbeat (env.clock (w.steps + 21))

/-- The device's agent signs the text that the hub checks. -/
theorem session_signed {cfg : HubConfig} (reach : Reachable env cfg)
    (h : Session cfg.store meeting agent.enrollment.deviceId device old alice ahmad external)
    (henrolled : agent.enrollment =
      ⟨meeting.tenantId, agent.enrollment.deviceId, alice.userId⟩) (n : Nat) (client : String) :
    let record := sessionChallenge env n meeting agent.enrollment.deviceId alice
    answersTo agent.enrollment agent.sign client record.toChallengePayload.text =
      [some (.verifyResponse record.challengeId agent.enrollment.deviceId
        (agent.sign (signedMaterial record)))] := by
  intro record
  have htext : challengeString agent.enrollment record.toChallengePayload.message =
      signedMaterial record := by
    rw [henrolled]
    rfl
  rw [← htext]
  apply answersTo_signs
  -- the ids have been drawn, so they are long enough
  obtain ⟨m, hm⟩ := meeting_drawn reach h.found
  obtain ⟨p, hp⟩ := participant_drawn reach h.alice_found
  have hchallenge : record.challengeId = env.uuid n := rfl
  have hmid : record.meetingId = env.uuid m := hm
  have hpid : record.participantId = env.uuid p := hp
  simp [signChallenge, ChallengePayload.message, hchallenge, hmid, hpid, hasPrefix8_uuid]

/-- What an answer to the challenge leaves of the session. -/
theorem session_answered (h : Serving env w w' meeting deviceId device old alice ahmad external [])
    (hchallenged : Challenged env w' n meeting deviceId alice) (hn : w.steps + 2 ≤ n)
    (hquiet : Undisturbed env w') (htenant : (w'.tenants.find? meeting.tenantId).isSome)
    (hlive : env.clock (w.steps + 17) ≤ env.clock (w.steps + 6) + 15000) (signature : String) :
    let record := sessionChallenge env n meeting deviceId alice
    aloneStore env (.verifyResponse record.challengeId deviceId signature) w' =
      answerStore env w' record.challengeId deviceId signature record device := by
  intro record
  obtain ⟨ahmad', external', hsession, -⟩ := h.session
  have hsteps : w'.steps = w.steps + 17 := h.steps
  have hmeeting : (w'.meetings.find? meeting.id).isSome := by
    rw [hsession.found]
    rfl
  have hdeadline : env.clock w'.steps ≤ env.clock (n + 4) + 15 * 1000 := by
    rw [hsteps]
    exact hlive.trans (Nat.add_le_add_right (env.clock_mono (by omega)) _)
  have hanswers : AnswersAlone env w' record.challengeId deviceId record device := {
    live := Expiring.get_eq_some.mpr ⟨_, hchallenged.stored, hdeadline⟩
    device_eq := rfl
    found := hsession.device
    row := Option.isSome_iff_exists.mpr ⟨alice, hsession.alice_found⟩
    accepted := fun k _ => hquiet k }
  refine (alone_ends (P := fun _ left => left = answerStore env w' record.challengeId deviceId
    signature record device) rfl).mpr ?_
  exact (verify_ends hanswers (hquiet 7) htenant hmeeting).mpr rfl

/-- It leaves the rows as they are, but for the status of the one with the device. -/
theorem Session.answered (h : Session w meeting deviceId device old alice ahmad external)
    {record : ChallengeRecord} (hrecord : record.participantId = alice.id)
    (signature : String) :
    (answerStore env w record.challengeId deviceId signature record device).members meeting.id =
      [(verdictData (answerResult env w record device signature)
        (env.clock (w.steps + 5))).apply alice, ahmad, external] := by
  have hrows : (answerStore env w record.challengeId deviceId signature record
      device).participants.rows = old ++ (verdictData (answerResult env w record device signature)
        (env.clock (w.steps + 5))).apply alice :: [ahmad, external] := by
    refine Eq.trans ?_ (Table.modify_rows (ParticipantUpdate.apply_id _) h.rows)
    rw [← hrecord]
    rfl
  exact (Session.members_eq (w := answerStore env w record.challengeId deviceId signature record
    device) ⟨h.found, hrows, h.others, h.members, h.bound, h.unbound, h.device⟩)

/-- And the agent's own answer is judged VERIFIED. -/
theorem session_verdict
    (hpresent : Present env w agent meeting.tenantId alice.userId socket device)
    (hsteps : w'.steps = w.steps + 17) (hn : w.steps + 2 ≤ n) :
    let record := sessionChallenge env n meeting agent.enrollment.deviceId alice
    (answerResult env w' record device (agent.sign (signedMaterial record))).status =
      .verified := by
  intro record
  have hvalid : responseValid env record device (agent.sign (signedMaterial record)) = true := by
    unfold responseValid checkSignature
    rw [hpresent.signs]
  have hle : env.clock (w'.steps + 1) ≤ record.expiresAt :=
    calc env.clock (w'.steps + 1)
      _ = env.clock (w.steps + 18) := by rw [hsteps]
      _ ≤ env.clock (w.steps + 5) + 10000 := hpresent.inTime
      _ ≤ env.clock (n + 3) + 10000 := Nat.add_le_add_right (env.clock_mono (by omega)) _
  have hfresh : PolicyService.Fresh device.lastHeartbeat (env.clock (w'.steps + 4)) := by
    rw [hsteps]
    exact hpresent.fresh
  exact PolicyService.evaluate_verified_iff.mpr
    ⟨hpresent.active, decide_eq_false (Nat.not_lt.mpr hle), hvalid, rfl, hfresh⟩

/-! ### The demonstration -/

/-- The statuses that the hub has for the participants of a meeting, in the order in which they were
added. -/
def statuses (w : World) (meetingId : String) : List (String × TrustStatus) :=
  (w.members meetingId).map fun row => (row.userId, row.trustStatus)

/-- The session of `meeting` is challenged, and the agent answers. -/
theorem session_shown {cfg : HubConfig} (reach : Reachable env cfg)
    (hquiet : Undisturbed env cfg.store)
    (h : Session cfg.store meeting agent.enrollment.deviceId device old alice ahmad external)
    (hpresent : Present env cfg.store agent meeting.tenantId alice.userId socket device)
    (client : String) :
    let asked := cfg.alone (hub env) (.issueChallenge meeting.id)
    ∃ payload answer, (socket, .challengeIssue payload) ∈ asked.store.gateway.sent ∧
      answersTo agent.enrollment agent.sign client payload.text = [some answer] ∧
      statuses (asked.alone (hub env) answer).store meeting.id =
        [(alice.userId, .verified), (ahmad.userId, .failed), (external.userId, .failed)] := by
  intro asked
  have htenant := meeting_tenant reach h.found
  have hserved : Serving env cfg.store asked.store meeting agent.enrollment.deviceId device old
      alice ahmad external [] := session_challenged h hquiet htenant
  have hsteps : asked.store.steps = cfg.store.steps + 17 := hserved.steps
  obtain ⟨n, hn, hchallenged⟩ := hserved.challenged List.not_mem_nil
  obtain ⟨ahmad', external', hsession, hahmad, hexternal⟩ := hserved.session
  obtain ⟨k, rfl⟩ := hahmad.2 List.not_mem_nil
  obtain ⟨m, rfl⟩ := hexternal.2 List.not_mem_nil
  have hlive : env.clock (cfg.store.steps + 17) ≤ env.clock (cfg.store.steps + 6) + 15000 :=
    calc env.clock (cfg.store.steps + 17)
      _ ≤ env.clock (cfg.store.steps + 18) := env.clock_mono (by omega)
      _ ≤ env.clock (cfg.store.steps + 5) + 10000 := hpresent.inTime
      _ ≤ env.clock (cfg.store.steps + 6) + 15000 :=
        Nat.add_le_add (env.clock_mono (by omega)) (by decide)
  refine ⟨_, _, ?_, session_signed reach h hpresent.enrolled n client, ?_⟩
  · refine hchallenged.sent socket ?_
    rw [hserved.sockets]
    exact hpresent.connected
  · show statuses (aloneStore env (.verifyResponse _ _ _) asked.store) meeting.id = _
    rw [session_answered hserved hchallenged hn (hquiet.later hsteps)
      (hserved.tenants ▸ htenant) hlive]
    refine (congrArg (List.map _) (hsession.answered rfl _)).trans ?_
    show [(alice.userId, (answerResult env _ _ device _).status), _, _] = _
    rw [session_verdict hpresent hsteps hn]
    rfl

variable {s s' : PageState} {mid zoomNumber : String} {row : Participant}

/-- The page's meeting is a new one. -/
theorem Ready.others (h : Ready env (some agent) t zoomNumber s s' mid)
    (reach : Reachable env s.hub) :
    ∀ row ∈ s.hub.store.participants.rows, row.meetingId ≠ mid := by
  rintro row hrow rfl
  obtain ⟨meeting, hmeeting⟩ :=
    participant_meeting reach (Table.find?_eq_some.mpr ⟨hrow, rfl⟩)
  obtain ⟨hold, hid⟩ := Table.find?_eq_some.mp hmeeting
  obtain ⟨createdAt, hmeetings⟩ := h.meeting
  have hnodup := s'.hub.store.meetings.nodup
  rw [hmeetings, List.map_append, List.nodup_append] at hnodup
  exact hnodup.2.2 _ (List.mem_map_of_mem hold) _ (List.mem_singleton_self _) hid

/-- The bind of a row changes neither its user nor its meeting. -/
theorem BindOutcome.same {devices : Table Device.id} {n : Nat} {agent? : Option LocalAgent}
    {row row' : Participant} (h : BindOutcome env devices n mid agent? row row') :
    row'.userId = row.userId ∧ row'.meetingId = row.meetingId := by
  cases h with
  | bound => exact ⟨rfl, rfl⟩
  | refused => exact ⟨rfl, rfl⟩

/-- The session that the page leaves is one in which the device of the agent is bound. -/
theorem Ready.session (h : Ready env (some agent) t zoomNumber s s' mid)
    (reach : Reachable env s.hub) (hfound : s'.hub.store.devices.find? agent.enrollment.deviceId =
      some device) (hnamed : agent.enrollment.deviceId ≠ "")
    (hrow : row ∈ s'.hub.store.participants.rows) (hmember : row.meetingId = mid)
    (hbound : row.deviceId = some agent.enrollment.deviceId) :
    ∃ meeting ahmad external, meeting.id = mid ∧ meeting.tenantId = t.id ∧
      row.userId = "alice@troofai.com" ∧ ahmad.userId = "ahmad@troofai.com" ∧
      external.userId = "alice.baker.external@gmail.com" ∧
      Session s'.hub.store meeting agent.enrollment.deviceId device s.hub.store.participants.rows
        row ahmad external := by
  obtain ⟨createdAt, hmeetings⟩ := h.meeting
  obtain ⟨alice, alice', ahmad, external, hentered, houtcome, hrows, -⟩ := h.participants
  obtain ⟨halice, hahmad, hexternal, -⟩ :
      Entered mid _ alice ∧ Entered mid _ ahmad ∧ Entered mid _ external ∧ True := by
    simpa [DEMO_PARTICIPANTS] using hentered
  have hothers := h.others reach
  -- the row is the first of the three
  have hfirst : row = alice' := by
    rw [hrows, List.mem_append] at hrow
    rcases hrow with hold | hnew
    · exact absurd hmember (hothers row hold)
    · simp only [List.mem_cons, List.not_mem_nil, or_false] at hnew
      rcases hnew with rfl | rfl | rfl
      · rfl
      · cases hahmad.device.symm.trans hbound
      · cases hexternal.device.symm.trans hbound
  subst hfirst
  refine ⟨⟨mid, t.id, meetingName zoomNumber, createdAt⟩, ahmad, external, rfl, rfl,
    houtcome.same.1.trans halice.user, hahmad.user, hexternal.user, ?_⟩
  exact {
    found := Table.find?_eq_some.mpr ⟨by simp [hmeetings], rfl⟩
    rows := hrows
    others := hothers
    members := ⟨hmember, hahmad.meeting, hexternal.meeting⟩
    bound := ⟨hbound, hnamed⟩
    unbound := ⟨hahmad.device, hexternal.device⟩
    device := hfound }

/-- The page has the session challenged. -/
theorem triggerChallenge_hub (browser : Browser) (s : PageState) (mid : String) :
    ((triggerChallenge mid).run browser.exec s).store.hub =
      s.hub.alone (hub browser.env) (.issueChallenge mid) := by
  let asked (_ : Except PageError Unit) (s' : PageState) : Prop :=
    s'.hub = s.hub.alone (hub browser.env) (.issueChallenge mid)
  refine (Prog.ends_result (P := asked)).mp ?_
  apply Prog.ends_tryCatch
  exact (ends_post rfl rfl).mpr rfl

/-- A session that the page has set up with the device of a present agent is shown as it is: once
the page has it challenged and the agent has answered, the hub has Alice as VERIFIED, and the two
others, who have no device, as FAILED. -/
theorem demo_shown (reach : Reachable env s.hub)
    (h : Ready env (some agent) t zoomNumber s s' mid) (hquiet : Undisturbed env s'.hub.store)
    (hpresent : Present env s'.hub.store agent t.id "alice@troofai.com" socket device)
    (hnamed : agent.enrollment.deviceId ≠ "")
    (hrow : row ∈ s'.hub.store.participants.rows) (hmember : row.meetingId = mid)
    (hbound : row.deviceId = some agent.enrollment.deviceId) (refusal client : String) :
    let asked := ((triggerChallenge mid).run
      (Browser.exec ⟨env, LocalAgent.answer (some agent), refusal⟩) s').store.hub
    ∃ payload answer, (socket, .challengeIssue payload) ∈ asked.store.gateway.sent ∧
      answersTo agent.enrollment agent.sign client payload.text = [some answer] ∧
      statuses (asked.alone (hub env) answer).store mid =
        [("alice@troofai.com", .verified), ("ahmad@troofai.com", .failed),
          ("alice.baker.external@gmail.com", .failed)] := by
  obtain ⟨meeting, ahmad, external, rfl, htenant, halice, hahmad, hexternal, hsession⟩ :=
    h.session reach hpresent.found hnamed hrow hmember hbound
  rw [← htenant, ← halice] at hpresent
  rw [← halice, ← hahmad, ← hexternal, triggerChallenge_hub]
  exact session_shown h.reach hquiet hsession hpresent client

/-- Alice's agent runs and is connected, and her laptop is enrolled with its key. -/
theorem demo_shown_sample : ∃ (s s' : PageState) (t : Tenant) (mid : String)
    (payload : ChallengePayload) (answer : Call),
    let asked := ((triggerChallenge mid).run
      (Browser.exec ⟨stillEnv, LocalAgent.answer (some demoAgent), ""⟩) s').store.hub
    Ready stillEnv (some demoAgent) t "" s s' mid ∧
      ("socket-1", .challengeIssue payload) ∈ asked.store.gateway.sent ∧
      answersTo demoAgent.enrollment demoAgent.sign "socket-1" payload.text = [some answer] ∧
      statuses (asked.alone (hub stillEnv) answer).store mid =
        [("alice@troofai.com", .verified), ("ahmad@troofai.com", .failed),
          ("alice.baker.external@gmail.com", .failed)] := by
  let cfg := Sample.run stillEnv [.ensureDemoTenant,
    Sample.enroll (Sample.uuid 1) "laptop-1" "alice@troofai.com" "pem-1",
    .socket (.connection "socket-1"), .socket (.deviceConnect "socket-1" "laptop-1")]
  have hreach : Reachable stillEnv cfg := Sample.run_reachable _ _
  have hdemo : cfg.store.demoTenant stillEnv = some ⟨Sample.uuid 1, "TroofAI Demo"⟩ := by
    decide +kernel
  have hdevice : ((cfg.store.devices.find? "laptop-1").any fun device =>
      device.publicKeyPem = "pem-1" && device.status = .active &&
        device.lastHeartbeat = some 1700000000000) = true := by decide +kernel
  have hsocket : Gateway.mapGet cfg.store.gateway.deviceSockets "laptop-1" = some "socket-1" := by
    decide +kernel
  obtain ⟨device, hfound, hfields⟩ := (Option.any_eq_true _ _).mp hdevice
  simp only [Bool.and_eq_true, decide_eq_true_eq] at hfields
  obtain ⟨⟨hkey, hactive⟩, hbeat⟩ := hfields
  have hsigns (text : String) :
      stillEnv.verify device.publicKeyPem text (demoAgent.sign text) = .ok true := by
    rw [hkey]
    exact Sample.verify_sign 0 0 _ _
  -- the page sets the session up
  obtain ⟨meeting, hcreated⟩ :=
    exists_created (s := ⟨cfg, []⟩) hreach (fun _ => rfl) hdemo (meetingName "")
  let ready (s' : PageState) : Prop :=
    ∃ mid, Ready stillEnv (some demoAgent) ⟨Sample.uuid 1, "TroofAI Demo"⟩ "" ⟨cfg, []⟩ s' mid
  have hends := setup_ends (some demoAgent) (fun _ => "") "" (E := fun _ => ready) hcreated
  have hended := (Prog.ends_result (P := fun _ => ready)).mp
    (hends.mono (fun _ _ ⟨mid, _, h⟩ => ⟨mid, h⟩) fun _ _ h => h)
  obtain ⟨mid, hready⟩ := hended
  generalize (Prog.run _ _ _).store = s' at hready
  have hvouches (pid : String) : demoAgent.Vouches stillEnv cfg.store.devices
      (cfg.store.steps + 12) mid pid device := {
    found := hfound
    signs := by
      unfold checkSignature
      rw [hsigns]
    alive := Nat.le_add_right _ _ }
  obtain ⟨row, hrow, hmember, -, hbound⟩ := hready.row_bound hvouches
  have hpresent : Present stillEnv s'.hub.store demoAgent (Sample.uuid 1) "alice@troofai.com"
      "socket-1" device := {
    enrolled := rfl
    found := hready.devices ▸ hfound
    active := hactive
    signs := hsigns
    connected := hready.gateway ▸ hsocket
    inTime := Nat.le_add_right _ _
    fresh := by
      intro beat h
      cases hbeat.symm.trans h
      exact Nat.le_add_right _ _ }
  obtain ⟨payload, answer, hsent, hanswer, hstatuses⟩ := demo_shown hreach hready (fun _ => rfl)
    hpresent (by decide) hrow hmember hbound "" "socket-1"
  exact ⟨⟨cfg, []⟩, s', _, mid, payload, answer, hready, hsent, hanswer, hstatuses⟩

end TroofAI.Hub
