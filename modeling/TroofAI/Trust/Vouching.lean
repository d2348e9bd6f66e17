import TroofAI.Trust.Authentic

/-!
One device in several rows.

Nothing keeps a device from being bound to a second participant of the same meeting
(`device_vouches_twice`): `bindDevice` asks only for a token and a signature, and the
schema has no constraint on the column. But a device is never bound to a participant it has
not signed for, and never to two at once: `shared_device` says that each row has a bind of
its own, and that the later of the two met the earlier.
-/

namespace TroofAI.Hub

open TroofAI.Await MeetingService

variable {env : Env} {cfg : HubConfig} {p q d : String}

/-- The event `b` is the newest bind of the participant `p`, to the device `d`: its call
presented `joinToken`, issued for `p` at `s`, and a signature of `d` over the id of `p`. -/
structure Vouched (env : Env) (trace : Trace) (p d joinToken : String) (b s : HubEntry) : Prop where
  newest : ∃ later earlier, trace = later ++ b :: earlier ∧ Binds p d b ∧
    ∀ x ∈ later, ∀ d', ¬ Binds p d' x
  issued : ∃ meetingId expiresAt signature device, s ∈ trace ∧
    b.call = .bindDevice meetingId joinToken d signature ∧
    TokenIssued s joinToken meetingId p expiresAt ∧
    env.verify device.publicKeyPem
      (signedMaterial joinToken meetingId p d (toISOString expiresAt)) signature = .ok true ∧
    ⟨.deviceFindUnique d, .ok (some device)⟩ ∈ own b.id trace

/-- A participant that is bound has been vouched for. -/
theorem bound_vouched (reach : Reachable env cfg) (h : cfg.store.BoundTo p d) :
    ∃ joinToken b s, Vouched env cfg.trace p d joinToken b s := by
  obtain ⟨later, b, earlier, ht, hbinds, hquiet⟩ := bound_by reach h
  obtain ⟨meetingId, joinToken, signature, expiresAt, device, hcall, ⟨between, g, since, s, older,
    rfl, -, -, hissued⟩, hacc, hread⟩ := binds_token reach ht hbinds
  refine ⟨joinToken, b, s, ⟨later, _, ht, hbinds, hquiet⟩, ?_⟩
  refine ⟨meetingId, expiresAt, signature, device, ht ▸ by simp, hcall, hissued,
    checkSignature_eq_true hacc.valid, ?_⟩
  rw [ht, own_append, own_cons_self]
  exact List.mem_append_right _ (List.mem_cons_of_mem _ hread)

/-- A token is issued for one participant. -/
theorem token_participant (reach : Reachable env cfg) {s s' : HubEntry} {joinToken m m' : String}
    {expiresAt expiresAt' : Date} (hs : s ∈ cfg.trace) (hs' : s' ∈ cfg.trace)
    (h : TokenIssued s joinToken m p expiresAt) (h' : TokenIssued s' joinToken m' q expiresAt') :
    p = q := by
  have heq := (redis_set_once reach (.joinToken joinToken)).eq hs hs'
    ⟨_, _, by rw [h.event]⟩ ⟨_, _, by rw [h'.event]⟩
  have hev := h.event
  rw [heq, h'.event] at hev
  cases hev
  rfl

/-- The older of two binds still stands where the newer one is written. -/
theorem older_bind_stands (reach : Reachable env cfg) {later between earlier later' : Trace}
    {b b' : HubEntry} (ht : cfg.trace = later ++ b' :: (between ++ b :: earlier))
    (hbinds : Binds p d b) (hlater : later' = later ++ b' :: between)
    (hquiet : ∀ x ∈ later', ∀ d', ¬ Binds p d' x) : b'.before.BoundTo p d := by
  obtain ⟨pre, -, hpre, htrace, hstore, -⟩ := reach.cut ht
  rw [← hstore]
  refine binds_kept hpre htrace hbinds fun x hx => hquiet x ?_
  rw [hlater]
  simp [hx]

/-- Two participants that are bound to one device were each vouched for, with tokens of their
own, and the later of the two binds was written when the other participant was bound to the
device already. -/
theorem shared_device (reach : Reachable env cfg) (hne : p ≠ q) (hp : cfg.store.BoundTo p d)
    (hq : cfg.store.BoundTo q d) :
    ∃ joinToken b s joinToken' b' s', Vouched env cfg.trace p d joinToken b s ∧
      Vouched env cfg.trace q d joinToken' b' s' ∧ joinToken ≠ joinToken' ∧
      (b'.before.BoundTo p d ∨ b.before.BoundTo q d) := by
  obtain ⟨joinToken, b, s, hv⟩ := bound_vouched reach hp
  obtain ⟨joinToken', b', s', hv'⟩ := bound_vouched reach hq
  refine ⟨joinToken, b, s, joinToken', b', s', hv, hv', ?_, ?_⟩
  · rintro rfl
    obtain ⟨m, expiresAt, -, -, hs, -, hissued, -⟩ := hv.issued
    obtain ⟨m', expiresAt', -, -, hs', -, hissued', -⟩ := hv'.issued
    exact hne (token_participant reach hs hs' hissued hissued')
  · obtain ⟨later, earlier, ht, hbinds, hquiet⟩ := hv.newest
    obtain ⟨later', earlier', ht', hbinds', hquiet'⟩ := hv'.newest
    rcases split_cases (ht.symm.trans ht') with ⟨m, hm, rfl⟩ | ⟨-, rfl, -⟩ | ⟨m, hm, rfl⟩
    · -- the bind of `q` is the later one
      subst hm
      exact .inl (older_bind_stands reach ht' hbinds rfl hquiet)
    · obtain ⟨data, row, hev, -⟩ := hbinds
      obtain ⟨data', row', hev', -⟩ := hbinds'
      rw [hev] at hev'
      cases hev'
      exact absurd rfl hne
    · subst hm
      exact .inr (older_bind_stands reach ht hbinds' rfl hquiet')

section Sample

/-- A second participant of alice's meeting, of step 21, is bound to alice's device with the
token of step 24. -/
def sharedRun : HubConfig :=
  let env := Sample.env 0 0
  Sample.run env (Sample.bound env ++ [.addParticipant (Sample.uuid 4) "mallory" "Alice",
    .issueJoinToken (Sample.uuid 4) (Sample.uuid 21),
    Sample.bind env 24 (Sample.uuid 4) (Sample.uuid 21) "laptop-1" "pem-1"])

theorem sharedRun_reachable : Reachable (Sample.env 0 0) sharedRun := Sample.run_reachable _ _

theorem sharedRun_bound : sharedRun.store.BoundTo (Sample.uuid 7) "laptop-1" ∧
    sharedRun.store.BoundTo (Sample.uuid 21) "laptop-1" := by
  decide +kernel

/-- Both binds used tokens of their own. -/
theorem shared_device_sample : ∃ joinToken b s joinToken' b' s',
    Vouched (Sample.env 0 0) sharedRun.trace (Sample.uuid 7) "laptop-1" joinToken b s ∧
    Vouched (Sample.env 0 0) sharedRun.trace (Sample.uuid 21) "laptop-1" joinToken' b' s' ∧
    joinToken ≠ joinToken' := by
  have hne : Sample.uuid 7 ≠ Sample.uuid 21 := fun h => by
    have := Sample.uuid_injective h
    cases this
  obtain ⟨hp, hq⟩ := sharedRun_bound
  obtain ⟨joinToken, b, s, joinToken', b', s', hv, hv', htokens, -⟩ :=
    shared_device sharedRun_reachable hne hp hq
  exact ⟨joinToken, b, s, joinToken', b', s', hv, hv', htokens⟩

/-- Two participants of one meeting are bound to one device, and both are VERIFIED. -/
theorem device_vouches_twice : ∃ cfg row row', Reachable (Sample.env 0 0) cfg ∧
    cfg.store.participants.find? (Sample.uuid 7) = some row ∧
    cfg.store.participants.find? (Sample.uuid 21) = some row' ∧ row.id ≠ row'.id ∧
    row.meetingId = row'.meetingId ∧ row.deviceId = some "laptop-1" ∧
    row'.deviceId = some "laptop-1" ∧ row.trustStatus = .verified ∧
    row'.trustStatus = .verified := by
  have hrows : (sharedRun.store.participants.find? (Sample.uuid 7)).isSome = true ∧
      (sharedRun.store.participants.find? (Sample.uuid 21)).isSome = true := by decide +kernel
  have hfields : (sharedRun.store.participants.find? (Sample.uuid 7)).all (fun row =>
      (sharedRun.store.participants.find? (Sample.uuid 21)).all fun row' => row.id ≠ row'.id ∧
        row.meetingId = row'.meetingId ∧ row.deviceId = some "laptop-1" ∧
        row'.deviceId = some "laptop-1" ∧ row.trustStatus = .verified ∧
        row'.trustStatus = .verified) = true := by decide +kernel
  obtain ⟨row, hrow⟩ := Option.isSome_iff_exists.mp hrows.1
  obtain ⟨row', hrow'⟩ := Option.isSome_iff_exists.mp hrows.2
  rw [hrow, hrow'] at hfields
  have hfields := of_decide_eq_true hfields
  exact ⟨sharedRun, row, row', sharedRun_reachable, hrow, hrow', hfields⟩

end Sample

end TroofAI.Hub
