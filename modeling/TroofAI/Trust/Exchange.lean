import TroofAI.Agent.Texts
import TroofAI.Hub.Requests
import TroofAI.Trust.Atomicity
import TroofAI.Trust.Liveness
import TroofAI.Trust.Messages
import TroofAI.Web.BindRelay

/-!
The exchanges of the hub and an agent, text by text.

Whatever the hub sends or answers is read by the agent as it was meant, and the other way round:
the two programs spell JSON differently, and each reads the spelling of the other. So the answer to
the text of a challenge is a signature over the text that the hub checks (`challenge_exchange`), and
a bind request that passes through a dashboard is one too (`bind_exchange`).
-/

namespace TroofAI.Hub

open TroofAI.Await TroofAI.Agent ChallengeService
open TroofAI.Json (Value)

/-! ### Texts that are read as they were meant -/

/-- What an agent emits asks the hub for what it says. -/
theorem message_read (client : String) (m : AgentMessage) :
    Gateway.message client m.event m.text = some (deliver client m) := by
  unfold Gateway.message AgentMessage.text
  rw [Json.parse_print]
  cases m <;> rfl

/-- The agent reads the challenge that the hub sends. -/
theorem ChallengePayload.read (payload : ChallengePayload) :
    (Json.parse payload.text).bind ChallengeMessage.ofJson = some payload.message := by
  unfold ChallengePayload.text
  rw [Json.parse_print]
  rfl

/-! ### Challenges -/

variable {env : Env} {cfg : HubConfig} {socket : String} {payload : ChallengePayload}

/-- What the hub understands of the agent's answer to the text of a challenge. -/
def answersTo (enrollment : Enrollment) (sign : String → String) (client text : String) :
    List (Option Call) :=
  (WebSocketService.onChallengeText enrollment sign text).map fun m =>
    Gateway.message client m.event m.text

/-- The answer to a challenge signs what the agent reads in it. -/
theorem answersTo_signs {enrollment : Enrollment} (sign : String → String) (client : String)
    (hsigns : signChallenge enrollment payload.message =
      some (challengeString enrollment payload.message)) :
    answersTo enrollment sign client payload.text =
      [some (.verifyResponse payload.challengeId enrollment.deviceId
        (sign (challengeString enrollment payload.message)))] := by
  have hprefix : hasPrefix8 payload.message.challengeId = true := by
    unfold signChallenge at hsigns
    split at hsigns
    · next h =>
      simp only [Bool.and_eq_true] at h
      exact h.1.1
    · cases hsigns
  unfold answersTo WebSocketService.onChallengeText
  rw [ChallengePayload.read]
  simp only [WebSocketService.onChallengeIssue, hprefix, hsigns, ↓reduceIte, List.map_cons,
    List.map_nil, message_read]
  rfl

/-- That of the hub's challenges does. -/
theorem answersTo_stored (reach : Reachable env cfg) {later older : Trace} {s : HubEntry}
    {record : ChallengeRecord} {ttl : Nat} (ht : cfg.trace = later ++ s :: older)
    (hs : s.ev = ⟨.redisSet (.challenge record.challengeId) record ttl, .ok ()⟩)
    (enrollment : Enrollment) (sign : String → String) (client : String) :
    answersTo enrollment sign client record.toChallengePayload.text =
      [some (.verifyResponse record.challengeId enrollment.deviceId
        (sign (challengeString enrollment record.toChallengePayload.message)))] :=
  answersTo_signs sign client (issued_signs reach ht hs)

/-- An agent answers the text of every challenge that the hub has sent, and the hub understands the
answer. When the agent is enrolled with the tenant, the device and the user of the challenge, its
signature is over the text that the hub checks. In every later state in which the challenge is still
stored and not past its time, in which the device is ACTIVE with a fresh heartbeat and has the key
that the agent signs with, the answer makes the participant VERIFIED, if the stores answer. -/
theorem challenge_exchange (reach : Reachable env cfg)
    (hsent : (socket, .challengeIssue payload) ∈ cfg.store.gateway.sent) :
    ∃ record later s older, cfg.trace = later ++ s :: older ∧
      s.ev = ⟨.redisSet (.challenge record.challengeId) record 15, .ok ()⟩ ∧
      record.toChallengePayload = payload ∧
      ∀ enrollment sign client, ∃ signature,
        answersTo enrollment sign client payload.text =
          [some (.verifyResponse payload.challengeId enrollment.deviceId signature)] ∧
        (enrollment = ⟨record.tenantId, record.deviceId, record.userId⟩ →
          signature = sign (ChallengeService.signedMaterial record) ∧
          ∀ cfg' more device, Reachable env cfg' → cfg'.trace = more ++ s :: older →
            (∀ x ∈ more, x.ev ≠ ⟨.redisDel (.challenge record.challengeId), .ok ()⟩) →
            Timely env cfg'.store record (env.clock s.before.steps) device →
            (∀ text, env.verify device.publicKeyPem text (sign text) = .ok true) →
            (∃ reason, aloneResult env
              (.verifyResponse payload.challengeId enrollment.deviceId signature) cfg'.store =
                .ok (.verified ⟨true, .verified, reason⟩)) ∧
            (aloneStore env (.verifyResponse payload.challengeId enrollment.deviceId signature)
              cfg'.store).statusOf payload.participantId = some .verified) := by
  obtain ⟨later, e, earlier, ht, hsends⟩ := message_sent reach hsent
  generalize hop : e.ev.op = op at hsends
  cases hsends with
  | challenge hget =>
    obtain ⟨record, since, s, older, rfl, -, hs, rfl, rfl⟩ := sent_stored reach ht hop
    have hts : cfg.trace = (later ++ e :: since) ++ s :: older := by simp [ht]
    refine ⟨record, _, s, older, hts, hs, rfl, ?_⟩
    intro enrollment sign client
    refine ⟨_, answersTo_stored reach hts hs enrollment sign client, ?_⟩
    rintro rfl
    have htext : challengeString ⟨record.tenantId, record.deviceId, record.userId⟩
      record.toChallengePayload.message = ChallengeService.signedMaterial record := rfl
    refine ⟨congrArg sign htext, ?_⟩
    intro cfg' more device reach' ht' hkept htimely hsign
    rw [htext]
    exact honest_verified reach' ht' hs hkept ⟨htimely, hsign _⟩

/-- The event stores no challenge but `record`, at step `k`, and deletes none. -/
def storesOnly (record : ChallengeRecord) (k : Nat) (e : HubEntry) : Bool :=
  match e.ev.op with
  | .redisSet (.challenge _) value _ => (value : ChallengeRecord) = record && e.before.steps = k
  | .redisDel (.challenge _) => false
  | _ => true

/-- Alice's agent is connected when it is challenged. -/
def connectedRun : HubConfig :=
  Sample.run (Sample.env 0 0) (Sample.bound (Sample.env 0 0) ++ [.socket (.connection "agent"),
    .socket (.deviceConnect "agent" "laptop-1"), .issueChallenge (Sample.uuid 4)])

theorem challenge_exchange_sample : ∃ payload answer,
    ("agent", .challengeIssue payload) ∈ connectedRun.store.gateway.sent ∧
    answersTo aliceEnrollment (Sample.sign "pem-1") "agent" payload.text = [some answer] ∧
    ∃ reason, aloneResult (Sample.env 0 0) answer connectedRun.store =
      .ok (.verified ⟨true, .verified, reason⟩) := by
  let record := Sample.record (Sample.env 0 0) 24 "tenant-acme" (Sample.uuid 4) (Sample.uuid 7)
    "laptop-1" "alice"
  have hreach : Reachable (Sample.env 0 0) connectedRun := Sample.run_reachable _ _
  have hsent : ("agent", .challengeIssue record.toChallengePayload) ∈
      connectedRun.store.gateway.sent := by decide +kernel
  have honly : connectedRun.trace.all (storesOnly record 28) = true := by decide +kernel
  have htimely : timelyAt record 28 "pem-1" connectedRun.store = true := by decide +kernel
  obtain ⟨device, hkey, htimely⟩ := timely_of_timelyAt htimely
  obtain ⟨record', later, s, older, ht, hs, hpayload, hanswers⟩ := challenge_exchange hreach hsent
  rw [List.all_eq_true] at honly
  have hstored := honly s (ht ▸ by simp)
  simp only [storesOnly, hs, Bool.and_eq_true, decide_eq_true_eq] at hstored
  obtain ⟨rfl, hstep⟩ := hstored
  obtain ⟨signature, hanswer, hverified⟩ := hanswers aliceEnrollment (Sample.sign "pem-1") "agent"
  refine ⟨_, _, hsent, hanswer, ((hverified rfl).2 connectedRun later device hreach ht ?_ ?_ ?_).1⟩
  · intro x hx hdel
    have hnone := honly x (ht ▸ List.mem_append_left _ hx)
    simp [storesOnly, hdel] at hnone
  · rw [hstep]
    exact htimely
  · intro text
    rw [hkey]
    exact Sample.verify_sign 0 0 _ _

/-! ### Bindings -/

open MeetingService

variable {i : Nat} {m p : String} {issued : IssuedToken}

/-- The history of an `issueJoinToken` call that returned `issued`. -/
inductive TokenDone (meetingId participantId : String) : List Event → IssuedToken → Prop where
  | mk {row token t} : TokenDone meetingId participantId
      [⟨.redisSet (.joinToken token) ⟨meetingId, participantId, t + 30000⟩ 30, .ok ()⟩,
        ⟨.now, .ok t⟩, ⟨.randomUUID, .ok token⟩,
        ⟨.participantFindUnique participantId, .ok (some row)⟩]
      ⟨token, meetingId, participantId, t + 30000⟩

theorem issueJoinToken_done (meetingId participantId : String) :
    Prog.Obeys (fun _ _ => True) (TokenDone meetingId participantId) []
      (issueJoinToken meetingId participantId) := by
  refine Prog.obeys_perform_bind.mpr ⟨trivial, fun participant? => ?_⟩
  cases participant? with
  | none => trivial
  | some row =>
    refine Prog.obeys_perform_bind.mpr ⟨trivial, fun token => ?_⟩
    refine Prog.obeys_perform_bind.mpr ⟨trivial, fun t => ?_⟩
    exact Prog.obeys_perform_bind.mpr ⟨trivial, fun _ => .mk⟩

/-- A token that has been returned has been stored. -/
theorem returned_token (reach : Reachable env cfg)
    (hcall : cfg.calls[i]? = some (.issueJoinToken m p, .done (.ok (.joinToken issued)))) :
    issued.meetingId = m ∧ issued.participantId = p ∧
      ∃ later s older, cfg.trace = later ++ s :: older ∧
        s.ev = ⟨.redisSet (.joinToken issued.joinToken) ⟨m, p, issued.expiresAt⟩ 30, .ok ()⟩ := by
  let done (c : Call) (past : List Event) (reply : Reply) : Prop :=
    ∀ m p issued, c = .issueJoinToken m p → reply = .joinToken issued → TokenDone m p past issued
  have hbody : ∀ c, Prog.Obeys (fun _ _ => True) (done c) [] (Call.body env c) := by
    intro c
    cases c with
    | issueJoinToken meetingId participantId =>
      refine Prog.obeys_map.mpr (.mono (fun _ _ h => h) ?_ (issueJoinToken_done _ _))
      rintro past issued hdone m p issued' ⟨rfl, rfl⟩ ⟨rfl⟩
      exact hdone
    | _ =>
      refine .mono (fun _ _ h => h) ?_ (Prog.obeys_trivial _)
      rintro past reply - m p issued ⟨⟩
  have hdone := reach.final hbody hcall m p issued rfl rfl
  generalize hown : own i cfg.trace = past at hdone
  cases hdone with
  | mk =>
    obtain ⟨later, s, older, ht, -, hs, -⟩ := own_head hown
    exact ⟨rfl, rfl, later, s, older, ht, hs⟩

/-- The call answers with the row of the participant, bound to the device and VERIFIED, and that is
its row afterwards. -/
def EndsBound (env : Env) (w : World) (p d : String) (c : Call) : Prop :=
  ∃ row, aloneResult env c w = .ok (.participant row) ∧ row.id = p ∧ row.deviceId = some d ∧
    row.trustStatus = .verified ∧ (aloneStore env c w).participants.find? p = some row

/-- A bind that is accepted in a meeting that exists. -/
theorem binds_bound (reach : Reachable env cfg) {d token signature : String} {parsed : JoinToken}
    {device : Device} (h : BindsAlone env cfg.store m token d signature parsed device)
    (hmeeting : (cfg.store.meetings.find? m).isSome)
    (haccepted : ∀ k ∈ [5, 6], env.rejects (cfg.store.steps + k) = false) :
    EndsBound env cfg.store parsed.participantId d (.bindDevice m token d signature) := by
  obtain ⟨row, hrow⟩ := Option.isSome_iff_exists.mp h.row
  obtain ⟨meeting, hmeeting⟩ := Option.isSome_iff_exists.mp hmeeting
  have htenant := meeting_tenant reach hmeeting
  refine (alone_ends (P := fun reply w' => ∃ row, reply = .ok (.participant row) ∧
    row.id = parsed.participantId ∧ row.deviceId = some d ∧ row.trustStatus = .verified ∧
    w'.participants.find? parsed.participantId = some row) rfl).mpr ?_
  refine (bind_accepted_ends h hrow).mpr ((logBind_ends (w := bindStore env cfg.store token d parsed
    device) (haccepted 5 (by simp)) (haccepted 6 (by simp)) hmeeting htenant).mpr ?_)
  refine ⟨_, rfl, ?_, rfl, rfl, ?_⟩
  · exact (ParticipantUpdate.apply_id _ row).trans (Table.find?_key hrow)
  · show (bindStore env cfg.store token d parsed device).participants.find? _ = _
    unfold bindStore
    dsimp only
    rw [Table.find?_modify, if_pos rfl, hrow]
    rfl

/-- The agent's endpoint `/bind`, as the page calls it. -/
def bindEndpoint (enrollment : Enrollment) (sign : String → String) (message body : String) :
    String :=
  (BindingService.handleRequest enrollment sign message "POST" "/bind" body).2

/-- The agent does not throw on a token of the hub, for a meeting that exists. -/
theorem returned_signs (reach : Reachable env cfg)
    (hcall : cfg.calls[i]? = some (.issueJoinToken m p, .done (.ok (.joinToken issued))))
    (hmeeting : (cfg.store.meetings.find? m).isSome) :
    hasPrefix8 m = true ∧ hasPrefix8 p = true := by
  obtain ⟨-, -, later, s, older, ht, hs⟩ := returned_token reach hcall
  obtain ⟨meeting, hmeeting⟩ := Option.isSome_iff_exists.mp hmeeting
  obtain ⟨row, hread⟩ := token_read reach ht (stored_token reach ht hs)
  have hread' : ⟨.participantFindUnique p, .ok (some row)⟩ ∈ own s.id (s :: older) := by
    simp [own_cons_self, hread]
  obtain ⟨row', hrow', -⟩ := read_kept reach ht hread'
  obtain ⟨n, rfl⟩ := meeting_drawn reach hmeeting
  obtain ⟨n', rfl⟩ := participant_drawn reach hrow'
  exact ⟨hasPrefix8_uuid n, hasPrefix8_uuid n'⟩

/-- What the page makes of the text of a token of the hub. -/
theorem bindCall_returned (reach : Reachable env cfg)
    (hcall : cfg.calls[i]? = some (.issueJoinToken m p, .done (.ok (.joinToken issued))))
    (hmeeting : (cfg.store.meetings.find? m).isSome) (enrollment : Enrollment)
    (sign : String → String) (message : String) :
    Web.bindCall (bindEndpoint enrollment sign message) m (Json.stringify.print issued.json) =
      some (.bindDevice m issued.joinToken enrollment.deviceId (sign (signedMaterial
        issued.joinToken m p enrollment.deviceId (toISOString issued.expiresAt)))) := by
  obtain ⟨hm, hp, -⟩ := returned_token reach hcall
  obtain ⟨hmPrefix, hpPrefix⟩ := returned_signs reach hcall hmeeting
  refine Web.bindCall_iff.mpr ⟨issued.json, ⟨issued.joinToken, m, p, toISOString issued.expiresAt⟩,
    _, Json.parse_print _ _, ?_, rfl, ?_, rfl⟩
  · rw [← hm, ← hp]
    rfl
  · simp only [handleBind, hmPrefix, hpPrefix, Bool.and_self, ↓reduceIte]
    rfl

/-- A join token that the hub has returned for a meeting makes its way through the dashboard to the
agent and back: the hub is asked for a bind with the agent's signature over the text that it checks.
In time, and with a device whose key the signature is valid under, the participant is bound in every
later state in which the token is still stored, if the stores answer. -/
theorem bind_exchange (reach : Reachable env cfg)
    (hcall : cfg.calls[i]? = some (.issueJoinToken m p, .done (.ok (.joinToken issued))))
    (hmeeting : (cfg.store.meetings.find? m).isSome) :
    ∃ later s older, cfg.trace = later ++ s :: older ∧
      s.ev = ⟨.redisSet (.joinToken issued.joinToken) ⟨m, p, issued.expiresAt⟩ 30, .ok ()⟩ ∧
      ∀ enrollment sign message, ∃ c,
        Web.bindCall (bindEndpoint enrollment sign message) m (Json.stringify.print issued.json) =
          some c ∧
        ∀ cfg' more device, Reachable env cfg' → cfg'.trace = more ++ cfg.trace →
          (∀ x ∈ more ++ later, x.ev ≠ ⟨.redisDel (.joinToken issued.joinToken), .ok ()⟩) →
          env.clock cfg'.store.steps ≤ env.clock s.before.steps + 30000 →
          cfg'.store.devices.find? enrollment.deviceId = some device →
          (∀ text, env.verify device.publicKeyPem text (sign text) = .ok true) →
          (∀ k ∈ [0, 1, 2, 4, 5, 6], env.rejects (cfg'.store.steps + k) = false) →
          EndsBound env cfg'.store p enrollment.deviceId c := by
  obtain ⟨-, -, later, s, older, ht, hs⟩ := returned_token reach hcall
  refine ⟨later, s, older, ht, hs, ?_⟩
  intro enrollment sign message
  refine ⟨_, bindCall_returned reach hcall hmeeting enrollment sign message, ?_⟩
  intro cfg' more device reach' ht' hkept halive hfound hsign haccepted
  have hts : cfg'.trace = (more ++ later) ++ s :: older := by simp [ht', ht]
  have hlive : cfg'.store.redis.get (env.clock cfg'.store.steps) (.joinToken issued.joinToken) =
      some ⟨m, p, issued.expiresAt⟩ :=
    Expiring.get_eq_some.mpr ⟨_, record_kept reach' hts hs hkept, halive⟩
  have haccepted' : ∀ ks ⊆ [0, 1, 2, 4, 5, 6], ∀ k ∈ ks,
      env.rejects (cfg'.store.steps + k) = false := fun ks hks k hk => haccepted k (hks hk)
  have hbinds : BindsAlone env cfg'.store m issued.joinToken enrollment.deviceId
      (sign (signedMaterial issued.joinToken m p enrollment.deviceId
        (toISOString issued.expiresAt))) ⟨m, p, issued.expiresAt⟩ device := by
    refine ⟨hlive, rfl, hfound, ?_, ?_, haccepted' _ (by simp)⟩
    · unfold bindValid checkSignature
      rw [hsign]
    · obtain ⟨row, hrow⟩ := live_token_row reach' hlive
      rw [hrow]
      rfl
  have hmeeting' : (cfg'.store.meetings.find? m).isSome := by
    obtain ⟨e, rest, he⟩ := List.exists_cons_of_ne_nil (show cfg.trace ≠ [] by simp [ht])
    obtain ⟨meeting, hmeeting⟩ := Option.isSome_iff_exists.mp hmeeting
    rw [(grows_between reach reach' he ht').meetings m meeting hmeeting]
    rfl
  exact binds_bound reach' hbinds hmeeting' (haccepted' _ (by simp))

/-- Alice has been handed a join token. -/
def tokenRun : HubConfig := Sample.run (Sample.env 0 0) Sample.setUp

theorem bind_exchange_sample : ∃ issued c,
    tokenRun.calls[3]? = some (.issueJoinToken (Sample.uuid 4) (Sample.uuid 7),
      .done (.ok (.joinToken issued))) ∧
    Web.bindCall (bindEndpoint aliceEnrollment (Sample.sign "pem-1") "") (Sample.uuid 4)
      (Json.stringify.print issued.json) = some c ∧
    EndsBound (Sample.env 0 0) tokenRun.store (Sample.uuid 7) "laptop-1" c := by
  have hreach : Reachable (Sample.env 0 0) tokenRun := Sample.run_reachable _ _
  let issued : IssuedToken := ⟨Sample.uuid 10, Sample.uuid 4, Sample.uuid 7,
    (Sample.env 0 0).clock 11 + 30000⟩
  have hcall : tokenRun.calls[3]? = some (.issueJoinToken (Sample.uuid 4) (Sample.uuid 7),
      .done (.ok (.joinToken issued))) := Sample.calls_of_answered (by decide +kernel)
  have hmeeting : (tokenRun.store.meetings.find? (Sample.uuid 4)).isSome := by decide +kernel
  have hdevice : ((tokenRun.store.devices.find? "laptop-1").any fun device =>
      device.publicKeyPem = "pem-1") = true := by decide +kernel
  have hquiet : (tokenRun.trace.all fun e => match e.ev.op with
      | .redisDel _ => false
      | _ => true) = true := by decide +kernel
  have hsteps : (Sample.env 0 0).clock tokenRun.store.steps ≤ (Sample.env 0 0).clock 0 + 30000 := by
    decide +kernel
  obtain ⟨later, s, older, ht, -, hexchange⟩ := bind_exchange hreach hcall hmeeting
  obtain ⟨c, hc, hbound⟩ := hexchange aliceEnrollment (Sample.sign "pem-1") ""
  obtain ⟨device, hfound, hkey⟩ := (Option.any_eq_true _ _).mp hdevice
  refine ⟨issued, c, hcall, hc, hbound tokenRun [] device hreach rfl ?_ ?_ hfound ?_ ?_⟩
  · intro x hx hdel
    have hnone := List.all_eq_true.mp hquiet x (ht ▸ List.mem_append_left _ hx)
    simp [hdel] at hnone
  · exact Nat.le_trans hsteps
      (Nat.add_le_add_right ((Sample.env 0 0).clock_mono (Nat.zero_le _)) 30000)
  · intro text
    rw [of_decide_eq_true hkey]
    exact Sample.verify_sign 0 0 _ _
  · intro k _
    rfl

end TroofAI.Hub
