import TroofAI.History.Bindings
import TroofAI.Trust.Authentic

/-!
The keys behind a binding and behind a verdict.

`bindDevice` and `verifyResponse` each read the device's row and check a signature under the
key they find there. Re-enrolment replaces that key, so the two checks may rest on different
keys (`verified_by_other_key`), but in no other way (`key_continuity`).
-/

namespace TroofAI.Hub

open TroofAI.Await MeetingService ChallengeService

variable {env : Env} {cfg : HubConfig} {p d : String}

/-- The call of the event `e` read the device `d` at the event `r` and found a signature valid
under the key of the row `device`; `earlier` are the events before `e`. -/
structure KeyUsed (env : Env) (earlier : Trace) (e : HubEntry) (d : String) (r : HubEntry)
    (device : Device) (signedMaterial signature : String) : Prop where
  mem : r ∈ earlier
  id : r.id = e.id
  event : r.ev = ⟨.deviceFindUnique d, .ok (some device)⟩
  valid : env.verify device.publicKeyPem signedMaterial signature = .ok true

/-- The key a bind uses. -/
theorem binds_key {ok : HubConfig → Nat → Op → Prop} {init : World → Prop}
    (reach : Reach (hub env) ok init cfg) {later earlier : Trace} {b : HubEntry}
    (ht : cfg.trace = later ++ b :: earlier) (h : Binds p d b) :
    ∃ meetingId joinToken signature expiresAt r device,
      b.call = .bindDevice meetingId joinToken d signature ∧
      KeyUsed env earlier b d r device (MeetingService.signedMaterial joinToken meetingId p d
        (toISOString expiresAt)) signature := by
  obtain ⟨meetingId, joinToken, signature, parsed, device, hcall, rfl, hacc, t, hown⟩ :=
    binds_by reach ht h
  have hread : ⟨.deviceFindUnique d, .ok (some device)⟩ ∈ own b.id earlier := by
    rw [hown]
    simp
  obtain ⟨r, hr, hid, hev⟩ := mem_own.mp hread
  have hvalid : checkSignature env device.publicKeyPem (MeetingService.signedMaterial joinToken
      meetingId parsed.participantId d (toISOString parsed.expiresAt)) signature = true :=
    hacc.valid
  exact ⟨meetingId, joinToken, signature, parsed.expiresAt, r, device, hcall, hr, hid, hev,
    checkSignature_eq_true hvalid⟩

/-- The key a verdict VERIFIED uses. -/
theorem verified_key {ok : HubConfig → Nat → Op → Prop} {init : World → Prop}
    (reach : Reach (hub env) ok init cfg) {later earlier : Trace} {e : HubEntry}
    {challengeId signature : String} {data : ParticipantUpdate}
    (ht : cfg.trace = later ++ e :: earlier)
    (hcall : e.call = .verifyResponse challengeId d signature)
    (hop : e.ev.op = .participantUpdate p data) (hverified : data.trustStatus = some .verified) :
    ∃ record r device, ⟨.redisGet (.challenge challengeId), .ok (some record)⟩ ∈ own e.id earlier ∧
      KeyUsed env earlier e d r device (ChallengeService.signedMaterial record) signature := by
  have hwrite := hub_write reach ht hop
  rw [hcall] at hwrite
  obtain ⟨record, device, checkedAt, now, t, -, -, rfl, hown⟩ := hwrite.answer
  have hv : (verdict env record device signature checkedAt now).status = .verified :=
    Option.some.inj hverified
  obtain ⟨-, -, hvalid, -⟩ := PolicyService.evaluate_verified_iff.mp hv
  have hread : ⟨.deviceFindUnique d, .ok (some device)⟩ ∈ own e.id earlier := by
    rw [hown]
    simp
  obtain ⟨r, hr, hid, hev⟩ := mem_own.mp hread
  refine ⟨record, r, device, ?_, hr, hid, hev, checkSignature_eq_true hvalid⟩
  rw [hown]
  simp

/-- When `verifyResponse` writes VERIFIED on a participant that is bound to the device, the
binding was written by a `bindDevice` call, and the keys under which the two calls verified
their signatures are the same, unless `enroll` gave the device another key between the two
reads of its row. -/
theorem key_continuity (reach : Reachable env cfg) {later earlier : Trace} {e : HubEntry}
    {challengeId signature : String} {data : ParticipantUpdate}
    (ht : cfg.trace = later ++ e :: earlier)
    (hcall : e.call = .verifyResponse challengeId d signature)
    (hop : e.ev.op = .participantUpdate p data) (hverified : data.trustStatus = some .verified)
    (hbound : e.before.BoundTo p d) :
    ∃ newer b older meetingId joinToken bindSignature expiresAt rb bound record r device,
      earlier = newer ++ b :: older ∧ Binds p d b ∧ (∀ x ∈ newer, ∀ d', ¬ Binds p d' x) ∧
      b.call = .bindDevice meetingId joinToken d bindSignature ∧
      KeyUsed env older b d rb bound (MeetingService.signedMaterial joinToken meetingId p d
        (toISOString expiresAt)) bindSignature ∧
      ⟨.redisGet (.challenge challengeId), .ok (some record)⟩ ∈ own e.id earlier ∧
      KeyUsed env earlier e d r device (ChallengeService.signedMaterial record) signature ∧
      (device.publicKeyPem = bound.publicKeyPem ∨
        EnrolledBetween cfg.trace d device.publicKeyPem rb r ∨
        EnrolledBetween cfg.trace d bound.publicKeyPem r rb) := by
  obtain ⟨record, r, device, hrecord, hkey⟩ := verified_key reach ht hcall hop hverified
  obtain ⟨pre, -, hpre, rfl, hstore, -⟩ := reach.cut ht
  rw [← hstore] at hbound
  obtain ⟨newer, b, older, htrace, hbinds, hquiet⟩ := bound_by hpre hbound
  obtain ⟨meetingId, joinToken, bindSignature, expiresAt, rb, bound, hbcall, hbkey⟩ :=
    binds_key hpre htrace hbinds
  refine ⟨newer, b, older, meetingId, joinToken, bindSignature, expiresAt, rb, bound, record, r,
    device, htrace, hbinds, hquiet, hbcall, hbkey, hrecord, hkey, ?_⟩
  have hr : r ∈ cfg.trace := ht ▸ by simp [hkey.mem]
  have hrb : rb ∈ cfg.trace := ht ▸ by simp [htrace, hbkey.mem]
  rcases Nat.lt_trichotomy rb.before.steps r.before.steps with hlt | heq | hlt
  · rcases key_read reach hrb hr hlt hbkey.event hkey.event with hsame | henrolled
    · exact .inl hsame
    · exact .inr (.inl henrolled)
  · -- the two reads belong to different calls
    exfalso
    have hsame := hub_step_eq reach hrb hr heq
    have hb : b ∈ cfg.trace := ht ▸ by simp [htrace]
    have hids : b.id = e.id := by rw [← hbkey.id, hsame, hkey.id]
    have hcalls := reach.same_call hb (ht ▸ by simp) hids
    rw [hbcall, hcall] at hcalls
    cases hcalls
  · rcases key_read reach hr hrb hlt hkey.event hbkey.event with hsame | henrolled
    · exact .inl hsame.symm
    · exact .inr (.inr henrolled)

section Sample

/-- After the bind, `laptop-1` is enrolled again with another key, and challenged; the
challenge is drawn at step 26. -/
def reKeyed : List Call :=
  let env := Sample.env 0 0
  Sample.bound env ++ [Sample.enroll "tenant-acme" "laptop-1" "mallory" "pem-2",
    .issueChallenge (Sample.uuid 4)]

/-- The answer that the other key signs. -/
def otherKeyAnswer : Call :=
  Sample.answer (Sample.record (Sample.env 0 0) 26 "tenant-acme" (Sample.uuid 4) (Sample.uuid 7)
    "laptop-1" "alice") "pem-2"

def reKeyedRun : HubConfig := Sample.run (Sample.env 0 0) (reKeyed ++ [otherKeyAnswer])

theorem reKeyedRun_reachable : Reachable (Sample.env 0 0) reKeyedRun := Sample.run_reachable _ _

/-- At `b` the participant is bound, by a call that read the key `pem-1`, and nothing in
`newer` writes its row. -/
def boundUnder (newer : Trace) (b : HubEntry) (older : Trace) : Bool :=
  Sample.binds (Sample.uuid 7) "laptop-1" b &&
    (own b.id older).any (Sample.readsKey "laptop-1" "pem-1") &&
    newer.all fun x => !Sample.updatesParticipant x

/-- At `e` the participant becomes VERIFIED, by a call that read the key `pem-2`, after it was
bound under `pem-1`. -/
def verifiedUnder (e : HubEntry) (earlier : Trace) : Bool :=
  Sample.writesStatus otherKeyAnswer (Sample.uuid 7) .verified e &&
    decide (e.before.BoundTo (Sample.uuid 7) "laptop-1") &&
    (own e.id earlier).any (Sample.readsKey "laptop-1" "pem-2") &&
    (Sample.positions earlier).any fun x => boundUnder x.1 x.2.1 x.2.2

theorem reKeyedRun_position : ∃ later e earlier, reKeyedRun.trace = later ++ e :: earlier ∧
    verifiedUnder e earlier = true := by
  have hany : ((Sample.positions reKeyedRun.trace).any fun x =>
      verifiedUnder x.2.1 x.2.2) = true := by decide +kernel
  exact Sample.exists_position (f := fun _ e earlier => verifiedUnder e earlier) hany

/-- There the keys differ, so the device was enrolled again between the two reads. -/
theorem key_continuity_reKeyed : ∃ rb bound r device,
    rb.ev = ⟨.deviceFindUnique "laptop-1", .ok (some bound)⟩ ∧
    r.ev = ⟨.deviceFindUnique "laptop-1", .ok (some device)⟩ ∧
    (device.publicKeyPem = bound.publicKeyPem ∨
      EnrolledBetween reKeyedRun.trace "laptop-1" device.publicKeyPem rb r ∨
      EnrolledBetween reKeyedRun.trace "laptop-1" bound.publicKeyPem r rb) := by
  obtain ⟨later, e, earlier, ht, hunder⟩ := reKeyedRun_position
  simp only [verifiedUnder, Bool.and_eq_true, decide_eq_true_eq] at hunder
  obtain ⟨⟨⟨hwrites, hbound⟩, -⟩, -⟩ := hunder
  obtain ⟨hcall, data, hop, hverified⟩ := Sample.writesStatus_iff.mp hwrites
  obtain ⟨_, _, _, _, _, _, _, rb, bound, _, r, device, -, -, -, -, hb, -, hr, hkeys⟩ :=
    key_continuity reKeyedRun_reachable ht hcall hop hverified hbound
  exact ⟨rb, bound, r, device, hb.event, hr.event, hkeys⟩

/-- The participant was bound under `pem-1` and is VERIFIED under `pem-2`. -/
theorem verified_by_other_key : ∃ cfg later e earlier newer b older bound device,
    Reachable (Sample.env 0 0) cfg ∧ cfg.trace = later ++ e :: earlier ∧
    Sample.writesStatus otherKeyAnswer (Sample.uuid 7) .verified e = true ∧
    e.before.BoundTo (Sample.uuid 7) "laptop-1" ∧
    earlier = newer ++ b :: older ∧ Binds (Sample.uuid 7) "laptop-1" b ∧
    (∀ x ∈ newer, ∀ d', ¬ Binds (Sample.uuid 7) d' x) ∧
    ⟨.deviceFindUnique "laptop-1", .ok (some bound)⟩ ∈ own b.id older ∧
    ⟨.deviceFindUnique "laptop-1", .ok (some device)⟩ ∈ own e.id earlier ∧
    device.publicKeyPem ≠ bound.publicKeyPem := by
  obtain ⟨later, e, earlier, ht, hunder⟩ := reKeyedRun_position
  simp only [verifiedUnder, Bool.and_eq_true, decide_eq_true_eq] at hunder
  obtain ⟨⟨⟨hwrites, hbound⟩, hread⟩, hany⟩ := hunder
  obtain ⟨newer, b, older, hsplit, hb⟩ := Sample.exists_position hany
  simp only [boundUnder, Bool.and_eq_true] at hb
  obtain ⟨⟨hbinds, hbread⟩, hquiet⟩ := hb
  obtain ⟨ev, hev, hkey⟩ := List.any_eq_true.mp hread
  obtain ⟨device, rfl, hpem⟩ := Sample.ev_of_readsKey hkey
  obtain ⟨ev, hbev, hbkey⟩ := List.any_eq_true.mp hbread
  obtain ⟨bound, rfl, hbpem⟩ := Sample.ev_of_readsKey hbkey
  refine ⟨reKeyedRun, later, e, earlier, newer, b, older, bound, device, reKeyedRun_reachable, ht,
    hwrites, hbound, hsplit, Sample.ev_of_binds hbinds, ?_, hbev, hev, ?_⟩
  · rintro x hx d' ⟨data, row, hxev, -⟩
    have hnone : Sample.updatesParticipant x = false := by
      simpa using List.all_eq_true.mp hquiet x hx
    exact Sample.op_ne_of_not_updatesParticipant hnone _ data (by rw [hxev])
  · rw [hpem, hbpem]
    decide

end Sample

end TroofAI.Hub
