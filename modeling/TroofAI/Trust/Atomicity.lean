import TroofAI.History.Exact
import TroofAI.Trust.Confinement
import TroofAI.Trust.Latest

/-!
Whether `bindDevice` does all of its work or none.

The token is deleted and the participant's row written before the meeting is looked up, and
`issueJoinToken` does not ask whether the meeting exists. So a token for a meeting that does not
is used up by a call that fails after it has marked the participant VERIFIED
(`orphan_token_bound`). That is the only way: `bind_atomic_iff`.
-/

namespace TroofAI.Hub

open TroofAI.Await MeetingService

variable {env : Env} {cfg : HubConfig} {meetingId joinToken deviceId signature : String}
  {parsed : JoinToken} {device : Device}

/-- The participants, the audit log and the join token are as before. -/
structure BindUndone (w w' : World) (joinToken : String) : Prop where
  participants : w'.participants = w.participants
  audit : w'.audit = w.audit
  token : w'.redis.entry (.joinToken joinToken) = w.redis.entry (.joinToken joinToken)

/-- A bind that ends in an error changes nothing, and one that succeeds is logged once. -/
def BindAtomic (w : World) (joinToken : String) (reply : Except HubError Reply) (w' : World) :
    Prop :=
  (∀ e, reply = .error e → BindUndone w w' joinToken) ∧
    ∀ r, reply = .ok r → ∃ event, w'.audit = w.audit ++ [event] ∧ event.eventType = .deviceBound

/-- The participant of a live join token is there. -/
theorem live_token_row (reach : Reachable env cfg) {now : Date}
    (hget : cfg.store.redis.get now (.joinToken joinToken) = some parsed) :
    ∃ row, cfg.store.participants.find? parsed.participantId = some row := by
  obtain ⟨deadline, hentry, -⟩ := Expiring.get_eq_some.mp hget
  obtain ⟨since, s, older, ht, hstored⟩ := redis_stored reach hentry
  obtain ⟨ttl, hs, -⟩ := hstored.ev
  obtain ⟨row, hread⟩ := token_read reach ht (stored_token reach ht hs)
  have hread' : ⟨.participantFindUnique parsed.participantId, .ok (some row)⟩ ∈
      own s.id (s :: older) := by simp [own_cons_self, hread]
  obtain ⟨row', hrow', -⟩ := read_kept reach ht hread'
  exact ⟨row', hrow'⟩

/-- Handled alone while the stores answer, a bind is atomic exactly if, should it get as far as
its writes, the meeting exists. -/
theorem bind_atomic_iff (reach : Reachable env cfg) (h : Undisturbed env cfg.store)
    (meetingId joinToken deviceId signature : String) :
    BindAtomic cfg.store joinToken
        (aloneResult env (.bindDevice meetingId joinToken deviceId signature) cfg.store)
        (aloneStore env (.bindDevice meetingId joinToken deviceId signature) cfg.store) ↔
      ∀ parsed device,
        BindsAlone env cfg.store meetingId joinToken deviceId signature parsed device →
        (cfg.store.meetings.find? meetingId).isSome := by
  refine (alone_ends (P := BindAtomic cfg.store joinToken) rfl).trans ?_
  by_cases hbinds : ∃ parsed device,
      BindsAlone env cfg.store meetingId joinToken deviceId signature parsed device
  · obtain ⟨parsed, device, hbinds⟩ := hbinds
    obtain ⟨row, hrow⟩ := Option.isSome_iff_exists.mp hbinds.row
    rw [bind_accepted_ends hbinds hrow]
    have hall : (∀ parsed device,
        BindsAlone env cfg.store meetingId joinToken deviceId signature parsed device →
        (cfg.store.meetings.find? meetingId).isSome) ↔
        (cfg.store.meetings.find? meetingId).isSome :=
      ⟨fun hall => hall parsed device hbinds, fun hsome _ _ _ => hsome⟩
    rw [hall]
    cases hmeeting : cfg.store.meetings.find? meetingId with
    | none =>
      refine .trans (logBind_missing_ends (h 5) hmeeting) ?_
      -- the token is gone
      have hgone : ¬ BindUndone cfg.store
          { bindStore env cfg.store joinToken deviceId parsed device with
            steps := cfg.store.steps + 6 } joinToken := by
        intro hundone
        obtain ⟨deadline, hentry, -⟩ := Expiring.get_eq_some.mp hbinds.live
        have htoken := hundone.token
        rw [hentry] at htoken
        simp [bindStore] at htoken
      constructor
      · rintro ⟨hundone, -⟩
        exact absurd (hundone _ rfl) hgone
      · intro hsome
        cases hsome
    | some meeting =>
      have htenant := meeting_tenant reach hmeeting
      refine .trans (logBind_ends (h 5) (h 6) hmeeting htenant) ?_
      refine iff_of_true ⟨?_, ?_⟩ rfl
      · rintro e ⟨⟩
      · rintro r ⟨⟩
        exact ⟨_, rfl, rfl⟩
  · have hinvalid : ∀ parsed device,
        cfg.store.redis.get (env.clock cfg.store.steps) (.joinToken joinToken) = some parsed →
        parsed.meetingId = meetingId → cfg.store.devices.find? deviceId = some device →
        bindValid env meetingId joinToken deviceId signature parsed device = false := by
      intro parsed device hget hmeeting hfound
      by_contra hvalid
      obtain ⟨row, hrow⟩ := live_token_row reach hget
      refine hbinds ⟨parsed, device, hget, hmeeting, hfound, eq_true_of_ne_false hvalid,
        ?_, fun k _ => h k⟩
      rw [hrow]
      rfl
    refine iff_of_true ?_ fun parsed device hb => absurd ⟨parsed, device, hb⟩ hbinds
    obtain ⟨e, n, hrefused⟩ := bind_refused_ends (h 0) (h 1) hinvalid
    refine hrefused.mpr ⟨?_, ?_⟩
    · rintro _ ⟨⟩
      exact ⟨rfl, rfl, rfl⟩
    · rintro r ⟨⟩

section Sample

/-- The set-up of alice's bind, but with a join token for a meeting that does not exist. -/
def orphanSetUp : List Call :=
  [Sample.enroll "tenant-acme" "laptop-1" "alice" "pem-1", .create "tenant-acme" "Standup",
    .addParticipant (Sample.uuid 4) "alice" "Alice", .issueJoinToken "nowhere" (Sample.uuid 7)]

/-- The bind of alice's device with the token of step 10. -/
def aliceBind (meetingId : String) : Call :=
  Sample.bind (Sample.env 0 0) 10 meetingId (Sample.uuid 7) "laptop-1" "pem-1"

/-- In the meeting of the token the bind succeeds, and is atomic. -/
theorem bind_atomic_sample : ∃ cfg, Reachable (Sample.env 0 0) cfg ∧
    (aloneResult (Sample.env 0 0) (aliceBind (Sample.uuid 4)) cfg.store).isOk = true ∧
    (aloneStore (Sample.env 0 0) (aliceBind (Sample.uuid 4)) cfg.store).statusOf (Sample.uuid 7) =
      some .verified ∧
    BindAtomic cfg.store (Sample.uuid 10)
      (aloneResult (Sample.env 0 0) (aliceBind (Sample.uuid 4)) cfg.store)
      (aloneStore (Sample.env 0 0) (aliceBind (Sample.uuid 4)) cfg.store) := by
  have hrun := Sample.run_reachable (Sample.env 0 0) Sample.setUp
  have hreply : (aloneResult (Sample.env 0 0) (aliceBind (Sample.uuid 4))
      (Sample.run (Sample.env 0 0) Sample.setUp).store).isOk = true := by decide +kernel
  have hstatus : (aloneStore (Sample.env 0 0) (aliceBind (Sample.uuid 4))
      (Sample.run (Sample.env 0 0) Sample.setUp).store).statusOf (Sample.uuid 7) =
        some .verified := by decide +kernel
  have hmeeting : ((Sample.run (Sample.env 0 0) Sample.setUp).store.meetings.find?
      (Sample.uuid 4)).isSome = true := by decide +kernel
  generalize Sample.run (Sample.env 0 0) Sample.setUp = cfg at hrun hreply hstatus hmeeting
  exact ⟨cfg, hrun, hreply, hstatus,
    (bind_atomic_iff hrun (fun _ => rfl) (Sample.uuid 4) (Sample.uuid 10) "laptop-1" _).mpr
      fun _ _ _ => hmeeting⟩

/-- A bind with the token for the meeting that does not exist fails, and leaves the participant
VERIFIED. -/
theorem orphan_token_bound : ∃ cfg, Reachable (Sample.env 0 0) cfg ∧
    Undisturbed (Sample.env 0 0) cfg.store ∧
    aloneResult (Sample.env 0 0) (aliceBind "nowhere") cfg.store = .error .typeError ∧
    (aloneStore (Sample.env 0 0) (aliceBind "nowhere") cfg.store).statusOf (Sample.uuid 7) =
      some .verified ∧
    ¬ BindAtomic cfg.store (Sample.uuid 10)
      (aloneResult (Sample.env 0 0) (aliceBind "nowhere") cfg.store)
      (aloneStore (Sample.env 0 0) (aliceBind "nowhere") cfg.store) := by
  have hrun := Sample.run_reachable (Sample.env 0 0) orphanSetUp
  have hreply : aloneResult (Sample.env 0 0) (aliceBind "nowhere")
      (Sample.run (Sample.env 0 0) orphanSetUp).store = .error .typeError := by decide +kernel
  have hstatus : (aloneStore (Sample.env 0 0) (aliceBind "nowhere")
      (Sample.run (Sample.env 0 0) orphanSetUp).store).statusOf (Sample.uuid 7) =
        some .verified := by decide +kernel
  have hthere : ((Sample.run (Sample.env 0 0) orphanSetUp).store.redis.entry
      (.joinToken (Sample.uuid 10))).isSome = true := by decide +kernel
  have hgone : ((aloneStore (Sample.env 0 0) (aliceBind "nowhere")
      (Sample.run (Sample.env 0 0) orphanSetUp).store).redis.entry
      (.joinToken (Sample.uuid 10))).isSome = false := by decide +kernel
  generalize Sample.run (Sample.env 0 0) orphanSetUp = cfg at hrun hreply hstatus hthere hgone
  refine ⟨cfg, hrun, fun _ => rfl, hreply, hstatus, fun hatomic => ?_⟩
  rw [(hatomic.1 _ hreply).token, hthere] at hgone
  cases hgone

end Sample

end TroofAI.Hub
