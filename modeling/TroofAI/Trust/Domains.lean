import TroofAI.Agent.Signing
import TroofAI.Trust.Authentic

/-!
The two texts that one device key signs: the answer to a challenge, ten lines, and the
binding of a join token, five lines with the device id at the same place.

The lines are not escaped. A request to the agent's `/bind` that brings five line feeds of
its own can spell out a challenge (`bind_signs_challenge`). `signing_domains` says when it
does: when the lines of the two are the same, one by one. The first line, the number of line
feeds and a join token that the hub has drawn each keep them apart.
-/

namespace TroofAI.Hub

open TroofAI.Await TroofAI.Agent

variable {env : Env} {ok : HubConfig → Nat → Op → Prop} {init : World → Prop} {cfg : HubConfig}

/-- The line feeds in the strings of a challenge, the device id apart. -/
def ChallengeRecord.lineFeeds (challenge : ChallengeRecord) : Nat :=
  TroofAI.lineFeeds challenge.challengeId + TroofAI.lineFeeds challenge.tenantId +
    TroofAI.lineFeeds challenge.userId + TroofAI.lineFeeds challenge.meetingId +
    TroofAI.lineFeeds challenge.participantId + TroofAI.lineFeeds challenge.nonce +
    TroofAI.lineFeeds (toISOString challenge.issuedAt) +
    TroofAI.lineFeeds (toISOString challenge.expiresAt)

/-- Ten lines without line feeds in the first. -/
theorem lineFeeds_ten {a : String} (ha : TroofAI.lineFeeds a = 0) (b c d e f g h i j : String) :
    TroofAI.lineFeeds (joinLines [a, b, c, d, e, f, g, h, i, j]) =
      9 + (TroofAI.lineFeeds b + TroofAI.lineFeeds c + TroofAI.lineFeeds e + TroofAI.lineFeeds f +
        TroofAI.lineFeeds g + TroofAI.lineFeeds h + TroofAI.lineFeeds i + TroofAI.lineFeeds j) +
      TroofAI.lineFeeds d := by
  rw [joinLines_count]
  simp only [List.length_cons, List.length_nil, List.map_cons, List.map_nil, List.sum_cons,
    List.sum_nil, ha]
  omega

theorem lineFeeds_signedMaterial (challenge : ChallengeRecord) :
    TroofAI.lineFeeds (ChallengeService.signedMaterial challenge) =
      9 + challenge.lineFeeds + TroofAI.lineFeeds challenge.deviceId :=
  lineFeeds_ten rfl ..

/-- A text with the wrong number of line feeds is not the text of a challenge. -/
theorem bindingString_ne_of_lineFeeds {enrollment : Enrollment} {body : BindRequest}
    {challenge : ChallengeRecord} (hdevice : challenge.deviceId = enrollment.deviceId)
    (hcount : body.lineFeeds ≠ 5 + challenge.lineFeeds) :
    bindingString enrollment body ≠ ChallengeService.signedMaterial challenge := by
  intro heq
  apply hcount
  have h := congrArg TroofAI.lineFeeds heq
  rw [lineFeeds_bindingString, lineFeeds_signedMaterial, hdevice] at h
  omega

/-- The lines of what is signed for a request. -/
def bindingLines (enrollment : Enrollment) (body : BindRequest) : List String :=
  [body.joinToken, body.meetingId, body.participantId, enrollment.deviceId,
    body.expiresAt].flatMap TroofAI.lines

/-- The lines of what is signed for a challenge: the version line first. -/
def ChallengeRecord.lines (challenge : ChallengeRecord) : List String :=
  "troofai-v1" :: [challenge.challengeId, challenge.tenantId, challenge.deviceId, challenge.userId,
    challenge.meetingId, challenge.participantId, challenge.nonce, toISOString challenge.issuedAt,
    toISOString challenge.expiresAt].flatMap TroofAI.lines

theorem bindingString_eq_iff {enrollment : Enrollment} {body : BindRequest}
    {challenge : ChallengeRecord} :
    bindingString enrollment body = ChallengeService.signedMaterial challenge ↔
      bindingLines enrollment body = challenge.lines := by
  have hversion : ∀ rest : List String, ("troofai-v1" :: rest).flatMap TroofAI.lines =
      "troofai-v1" :: rest.flatMap TroofAI.lines := by
    intro rest
    rw [List.flatMap_cons, lines_eq_singleton (by decide), List.singleton_append]
  unfold bindingString ChallengeService.signedMaterial bindingLines ChallengeRecord.lines
  rw [joinLines_eq_iff (by simp) (by simp), hversion]

/-- The first line of the text is that of the join token. -/
theorem lines_head (enrollment : Enrollment) (body : BindRequest) :
    (bindingLines enrollment body).head? = (TroofAI.lines body.joinToken).head? := by
  have hne : TroofAI.lines body.joinToken ≠ [] := by
    unfold TroofAI.lines
    simp
  unfold bindingLines
  rw [List.flatMap_cons, List.head?_append_of_ne_nil _ hne]

/-- An id has no line feed and does not start the text of a challenge. -/
theorem uuid_first_line (env : Env) (n : Nat) :
    '\n' ∉ (env.uuid n).toList ∧ env.uuid n ≠ "troofai-v1" := by
  refine ⟨env.uuid_lineFeed n, fun h => ?_⟩
  have := env.uuid_chars n 't' (h ▸ by decide)
  revert this
  decide

/-- The text of a challenge, from hub or agent, starts with the version line; the text of a
binding starts with the join token. -/
theorem joinLines_token_ne {n : Nat} {second second' : String} {rest rest' : List String} :
    joinLines (env.uuid n :: second :: rest) ≠ joinLines ("troofai-v1" :: second' :: rest') := by
  intro heq
  obtain ⟨hline, hne⟩ := uuid_first_line env n
  exact hne (joinLines_cons_inj hline (by decide) heq).1

/-- What `/bind` signs is the text of a challenge for the device exactly if the two have the same
lines. It is not when the join token does not begin with the version line, when the line feeds of
the body do not add up, or when its join token is one the hub has issued. And what `SignChallenge`
signs is not the text of a bind with such a token. -/
theorem signing_domains (reach : Reachable env cfg) (enrollment : Enrollment) :
    (∀ body challenge text, handleBind enrollment body = some text →
      challenge.deviceId = enrollment.deviceId →
      (text = ChallengeService.signedMaterial challenge ↔
        bindingLines enrollment body = challenge.lines) ∧
      ((TroofAI.lines body.joinToken).head? ≠ some "troofai-v1" ∨
          body.lineFeeds ≠ 5 + challenge.lineFeeds →
        text ≠ ChallengeService.signedMaterial challenge)) ∧
    (∀ s ∈ cfg.trace, ∀ token parsed ttl, s.ev.op = .redisSet (.joinToken token) parsed ttl →
      (∀ body challenge text, handleBind enrollment body = some text → body.joinToken = token →
        text ≠ ChallengeService.signedMaterial challenge) ∧
      ∀ message text meetingId deviceId, signChallenge enrollment message = some text →
        text ≠ MeetingService.signedMaterial token meetingId parsed.participantId deviceId
          (toISOString parsed.expiresAt)) := by
  constructor
  · intro body challenge text htext hdevice
    rw [eq_bindingString_of_handleBind htext]
    refine ⟨bindingString_eq_iff, ?_⟩
    rintro (hfirst | hcount)
    · intro heq
      apply hfirst
      rw [← lines_head enrollment body, bindingString_eq_iff.mp heq]
      rfl
    · exact bindingString_ne_of_lineFeeds hdevice hcount
  · intro s hs token parsed ttl hop
    obtain ⟨n, rfl⟩ := joinToken_drawn reach hs hop
    constructor
    · intro body challenge text htext htoken
      rw [eq_bindingString_of_handleBind htext]
      unfold bindingString
      rw [htoken]
      exact joinLines_token_ne
    · intro message text meetingId deviceId htext
      rw [eq_challengeString_of_signChallenge htext]
      exact fun heq => joinLines_token_ne heq.symm

section Sample

def aliceEnrollment : Enrollment := ⟨"tenant-acme", "laptop-1", "alice"⟩

/-- A body with the join token of step 10, on which the two texts differ both ways. -/
theorem signing_domains_sample :
    let challenge := Sample.challenge (Sample.env 0 0)
    let body : BindRequest := ⟨Sample.uuid 10, Sample.uuid 4, Sample.uuid 7, "soon"⟩
    bindingString aliceEnrollment body ≠ ChallengeService.signedMaterial challenge ∧
      bindingLines aliceEnrollment body ≠ challenge.lines ∧
      ∃ parsed : JoinToken, ∀ message text meetingId deviceId,
        signChallenge aliceEnrollment message = some text →
          text ≠ MeetingService.signedMaterial (Sample.uuid 10) meetingId parsed.participantId
            deviceId (toISOString parsed.expiresAt) := by
  intro challenge body
  have hrun := Sample.run_reachable (Sample.env 0 0) Sample.setUp
  have hany : (Sample.run (Sample.env 0 0) Sample.setUp).trace.any
      (Sample.storesToken (Sample.uuid 10)) = true := by decide +kernel
  obtain ⟨later, s, earlier, ht, hs⟩ := Sample.exists_event hany
  obtain ⟨parsed, ttl, hop⟩ := Sample.op_of_storesToken hs
  obtain ⟨hdomains, htokens⟩ := signing_domains hrun aliceEnrollment
  obtain ⟨hbind, hsign⟩ := htokens s (ht ▸ by simp) _ parsed ttl hop
  have hbody : handleBind aliceEnrollment body = some (bindingString aliceEnrollment body) := by
    decide +kernel
  have hne := hbind body challenge _ hbody rfl
  obtain ⟨hlines, -⟩ := hdomains body challenge _ hbody rfl
  exact ⟨hne, fun heq => hne (hlines.mpr heq), parsed, hsign⟩

/-- `/bind` signs the very text of the challenge that the hub has stored for alice's device. -/
theorem bind_signs_challenge : ∃ cfg s body, Reachable (Sample.env 0 0) cfg ∧ s ∈ cfg.trace ∧
    s.ev = ⟨.redisSet (.challenge (Sample.uuid 22)) (Sample.challenge (Sample.env 0 0)) 15,
      .ok ()⟩ ∧
    (Sample.challenge (Sample.env 0 0)).deviceId = aliceEnrollment.deviceId ∧
    handleBind aliceEnrollment body =
      some (ChallengeService.signedMaterial (Sample.challenge (Sample.env 0 0))) := by
  have hany : (Sample.run (Sample.env 0 0) (Sample.challenged (Sample.env 0 0))).trace.any
      (Sample.storesChallenge (Sample.challenge (Sample.env 0 0))) = true := by decide +kernel
  obtain ⟨later, s, earlier, ht, hs⟩ := Sample.exists_event hany
  have hbody : handleBind aliceEnrollment
      { joinToken := "troofai-v1"
        meetingId := Sample.uuid 22
        participantId := "tenant-acme"
        expiresAt := "alice\n" ++ Sample.uuid 4 ++ "\n" ++ Sample.uuid 7 ++ "\n" ++
          Sample.nonce 23 ++ "\n2023-11-14T22:13:22.400Z\n2023-11-14T22:13:32.500Z" } =
      some (ChallengeService.signedMaterial (Sample.challenge (Sample.env 0 0))) := by
    decide +kernel
  have hrun := Sample.run_reachable (Sample.env 0 0) (Sample.challenged (Sample.env 0 0))
  refine ⟨_, s, _, hrun, ?_, Sample.ev_of_storesChallenge hs, rfl, hbody⟩
  rw [ht]
  simp

end Sample

end TroofAI.Hub
