import TroofAI.History.Bindings
import TroofAI.Trust.Authentic

/-!
Binding authenticity: what stands behind a device id in a participant's row, in any
interleaving.

The text that the device signs puts its id, which the caller chooses, between four strings
that hold no line feed. So the text can be read back from both ends (`BindingText.text_inj`).
-/

namespace TroofAI.Hub

open TroofAI.Await MeetingService

/-- What the signature of a bind is about. -/
structure BindingText where
  joinToken : String
  meetingId : String
  participantId : String
  deviceId : String
  expiresAt : String
deriving DecidableEq, Repr

namespace BindingText

def text (b : BindingText) : String :=
  signedMaterial b.joinToken b.meetingId b.participantId b.deviceId b.expiresAt

/-- All but the device id are single lines. -/
structure SingleLined (b : BindingText) : Prop where
  joinToken : '\n' ∉ b.joinToken.toList
  meetingId : '\n' ∉ b.meetingId.toList
  participantId : '\n' ∉ b.participantId.toList
  expiresAt : '\n' ∉ b.expiresAt.toList

/-- The text determines what it is about. -/
theorem text_inj {b b' : BindingText} (h : b.SingleLined) (h' : b'.SingleLined)
    (heq : b.text = b'.text) : b = b' := by
  obtain ⟨token, meetingId, participantId, deviceId, expiresAt⟩ := b
  obtain ⟨token', meetingId', participantId', deviceId', expiresAt'⟩ := b'
  obtain ⟨rfl, heq⟩ := joinLines_cons_inj h.joinToken h'.joinToken heq
  obtain ⟨rfl, heq⟩ := joinLines_cons_inj h.meetingId h'.meetingId heq
  obtain ⟨rfl, heq⟩ := joinLines_cons_inj h.participantId h'.participantId heq
  obtain ⟨rfl, rfl⟩ := joinLines_pair_inj h.expiresAt h'.expiresAt heq
  rfl

end BindingText

variable {env : Env} {cfg : HubConfig} {p d : String}

/-- Whenever a participant `p` is bound to a device `d`, by `bindDevice`, the call had read the
join token live in Redis, where an earlier `issueJoinToken` call had stored it for the call's
meeting and `p`; and the signature is valid, under the key that the call read for `d`, over a
text that no other token, meeting, participant, device and expiry give. -/
theorem binding_authentic (reach : Reachable env cfg) {later earlier : Trace} {e : HubEntry}
    (ht : cfg.trace = later ++ e :: earlier) (hbinds : Binds p d e) :
    ∃ meetingId joinToken signature expiresAt device,
      e.call = .bindDevice meetingId joinToken d signature ∧
      (∃ between g since s older, earlier = between ++ g :: (since ++ s :: older) ∧
        g.id = e.id ∧
        g.ev = ⟨.redisGet (.joinToken joinToken), .ok (some ⟨meetingId, p, expiresAt⟩)⟩ ∧
        g.before.redis.get (env.clock g.before.steps) (.joinToken joinToken) =
          some ⟨meetingId, p, expiresAt⟩ ∧
        TokenIssued s joinToken meetingId p expiresAt) ∧
      ⟨.deviceFindUnique d, .ok (some device)⟩ ∈ own e.id earlier ∧
      let b : BindingText := ⟨joinToken, meetingId, p, d, toISOString expiresAt⟩
      env.verify device.publicKeyPem b.text signature = .ok true ∧
      ('\n' ∉ meetingId.toList →
        b.SingleLined ∧ ∀ b' : BindingText, b'.SingleLined → b'.text = b.text → b' = b) := by
  obtain ⟨meetingId, joinToken, signature, expiresAt, device, hcall, ⟨between, g, since, s, older,
    rfl, hid, hg, hissued⟩, hacc, hown⟩ := binds_token reach ht hbinds
  have hlive := exec_redisGet_ok (hub_did reach (ht ▸ by simp) hg)
  have hverify : env.verify device.publicKeyPem (signedMaterial joinToken meetingId p d
      (toISOString expiresAt)) signature = .ok true := checkSignature_eq_true hacc.valid
  refine ⟨meetingId, joinToken, signature, expiresAt, device, hcall,
    ⟨between, g, since, s, older, rfl, hid, hg, hlive, hissued⟩, hown, hverify, ?_⟩
  -- the token and the participant's id were drawn
  intro hmeeting
  have hmem : s ∈ cfg.trace := by
    rw [ht]
    simp
  obtain ⟨n, rfl⟩ := joinToken_drawn reach hmem (congrArg Ev.op hissued.event)
  obtain ⟨data, row, hev, -⟩ := hbinds
  obtain ⟨old, hold, -⟩ := exec_participantUpdate_ok (hub_did reach (ht ▸ by simp) hev)
  obtain ⟨pre, -, hpre, -, hstore, -⟩ := reach.cut ht
  rw [← hstore] at hold
  obtain ⟨k, rfl⟩ := participant_drawn hpre hold
  have hsingle : BindingText.SingleLined
      ⟨env.uuid n, meetingId, env.uuid k, d, toISOString expiresAt⟩ :=
    ⟨env.uuid_lineFeed n, hmeeting, env.uuid_lineFeed k, toISOString_lineFeed expiresAt⟩
  exact ⟨hsingle, fun b' hb' heq => BindingText.text_inj hb' hsingle heq⟩

/-- The bind of alice's device. -/
theorem binding_authentic_sample :
    let cfg := Sample.run (Sample.env 0 0) (Sample.bound (Sample.env 0 0))
    ∃ later e earlier text device signature, cfg.trace = later ++ e :: earlier ∧
      Binds (Sample.uuid 7) "laptop-1" e ∧
      ⟨.deviceFindUnique "laptop-1", .ok (some device)⟩ ∈ own e.id earlier ∧
      (Sample.env 0 0).verify device.publicKeyPem text signature = .ok true := by
  intro cfg
  have hany : (Sample.run (Sample.env 0 0) (Sample.bound (Sample.env 0 0))).trace.any
      (Sample.binds (Sample.uuid 7) "laptop-1") = true := by decide +kernel
  have hrun := Sample.run_reachable (Sample.env 0 0) (Sample.bound (Sample.env 0 0))
  obtain ⟨later, e, earlier, ht, hf⟩ := Sample.exists_event hany
  have hbinds := Sample.ev_of_binds hf
  obtain ⟨_, _, signature, _, device, -, -, hread, hverify, -⟩ := binding_authentic hrun ht hbinds
  exact ⟨later, e, earlier, _, device, signature, ht, hbinds, hread, hverify⟩

end TroofAI.Hub
