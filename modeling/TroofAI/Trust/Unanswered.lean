import TroofAI.History.Bindings
import TroofAI.Trust.Authentic

/-!
A challenge that nobody answers.

`issueChallenge` leaves the row of a bound participant as it is, and nothing but a bind, a
judged answer or a round that finds no device touches it later. So a participant who was
VERIFIED when the challenge was issued is VERIFIED still when it has expired:
`unanswered_verified_iff` says that the last write since decides.
-/

namespace TroofAI.Hub

open TroofAI.Await MeetingService ChallengeService

variable {env : Env} {ok : HubConfig → Nat → Op → Prop} {init : World → Prop} {cfg : HubConfig}

/-- The trust status of a participant. -/
def World.statusOf (w : World) (p : String) : Option TrustStatus :=
  (w.participants.find? p).map (·.trustStatus)

/-- The event wrote a status to the row of `p`. -/
def WroteStatus (p : String) (e : HubEntry) : Prop :=
  ∃ data row, e.ev = ⟨.participantUpdate p data, .ok row⟩

instance (p : String) (e : HubEntry) : Decidable (WroteStatus p e) :=
  decidable_of_iff
    (((match e.ev.op with
      | .participantUpdate id _ => id = p
      | _ => false) && e.ev.res.isOk) = true) (by
      unfold WroteStatus
      obtain ⟨i, c, w, op, res⟩ := e
      cases op <;> cases res <;> simp [Except.isOk, Except.toBool])

/-- A status that has been written stays until the next write. -/
theorem status_kept (reach : Reach (hub env) ok init cfg) {later earlier : Trace} {e : HubEntry}
    {p : String} {status : TrustStatus} (ht : cfg.trace = later ++ e :: earlier)
    (hstatus : (exec env e.ev.op e.before).2.statusOf p = some status)
    (hquiet : ∀ x ∈ later, ¬ WroteStatus p x) : cfg.store.statusOf p = some status := by
  refine reach.carry (fun w => w.statusOf p = some status) ht hstatus fun x hx hw => ?_
  have hstep := hub_participant reach (ht ▸ List.mem_append_left _ hx) p
  obtain ⟨row, hrow, hst⟩ := Option.map_eq_some_iff.mp hw
  change ((exec env x.ev.op x.before).2.participants.find? p).map _ = _
  generalize (exec env x.ev.op x.before).2.participants.find? p = row' at hstep
  generalize hev : x.ev = ev at hstep
  cases hstep with
  | same => exact hw
  | update hold hdevice => exact absurd ⟨_, _, hev⟩ (hquiet x hx)
  | create hnone huuid hmeeting =>
    rw [hrow] at hnone
    cases hnone

/-- The status after a write is the one written. -/
theorem status_written (reach : Reach (hub env) ok init cfg) {later earlier : Trace} {e : HubEntry}
    {p : String} {data : ParticipantUpdate} {row : Participant}
    (ht : cfg.trace = later ++ e :: earlier)
    (hev : e.ev = ⟨.participantUpdate p data, .ok row⟩) :
    ∃ status, data.trustStatus = some status ∧
      (exec env e.ev.op e.before).2.statusOf p = some status := by
  obtain ⟨status, hstatus⟩ := (hub_write reach ht (congrArg Ev.op hev)).status
  obtain ⟨old, hold, -, -, heq⟩ := exec_participantUpdate_ok (hub_did reach (ht ▸ by simp) hev)
  refine ⟨status, hstatus, ?_⟩
  rw [hev]
  unfold World.statusOf
  rw [heq, Table.find?_modify, if_pos rfl, hold]
  simp [ParticipantUpdate.apply, hstatus]

/-- The participant a challenge is issued to has a row. -/
theorem issued_row (reach : Reachable env cfg) {later older : Trace} {s : HubEntry} {cid : String}
    {record : ChallengeRecord} {ttl : Nat} (ht : cfg.trace = later ++ s :: older)
    (hs : s.ev = ⟨.redisSet (.challenge cid) record ttl, .ok ()⟩) :
    ∃ status, s.before.statusOf record.participantId = some status := by
  obtain ⟨d, row, hrow, -⟩ := stored_bound reach ht hs
  exact ⟨row.trustStatus, by simp [World.statusOf, hrow]⟩

/-- A `verifyResponse` call judged an answer for `p` VERIFIED and wrote that to its row. -/
def JudgedVerified (p : String) (e : HubEntry) : Prop :=
  ∃ challengeId deviceId signature data row,
    e.call = .verifyResponse challengeId deviceId signature ∧
    e.ev = ⟨.participantUpdate p data, .ok row⟩ ∧ data.trustStatus = some .verified

/-- A write to the row of `p` that is no accepted answer writes VERIFIED exactly when it binds. -/
theorem verified_iff_binds (reach : Reach (hub env) ok init cfg) {later earlier : Trace}
    {e : HubEntry} {p : String} {data : ParticipantUpdate} {row : Participant}
    (ht : cfg.trace = later ++ e :: earlier) (hev : e.ev = ⟨.participantUpdate p data, .ok row⟩)
    (hjudged : ¬ JudgedVerified p e) :
    data.trustStatus = some .verified ↔ ∃ d, Binds p d e := by
  have hwrite := hub_write reach ht (congrArg Ev.op hev)
  generalize hcall : e.call = c at hwrite
  generalize own e.id earlier = past at hwrite
  constructor
  · intro hverified
    cases hwrite with
    | bind hacc => exact ⟨_, _, row, hev, rfl⟩
    | noDevice => cases hverified
    | verdict hacc => exact absurd ⟨_, _, _, _, row, hcall, hev, hverified⟩ hjudged
  · rintro ⟨d, data', row', hev', hd⟩
    rw [hev] at hev'
    cases hev'
    cases hwrite with
    | bind => rfl
    | noDevice => cases hd
    | verdict => cases hd

/-- After the event `s`, the last status written to the row of `p` was not that of a bind; or
none was written, and `p` was not VERIFIED at `s`. -/
def LastWriteUntrusted (p : String) (later : Trace) (s : HubEntry) : Prop :=
  match later.find? fun x => WroteStatus p x with
  | some x => ¬ ∃ d, Binds p d x
  | none => s.before.statusOf p ≠ some .verified

/-- A challenge was stored for `p` by the event `s`, and since then no answer for `p` has been
judged VERIFIED. Then, whatever time has passed, `p` is not VERIFIED if and only if the last
status written to its row since was not that of a bind, or none was written and `p` was not
VERIFIED when the challenge was stored. -/
theorem unanswered_verified_iff (reach : Reachable env cfg) {later older : Trace} {s : HubEntry}
    {cid : String} {record : ChallengeRecord} {ttl : Nat} (ht : cfg.trace = later ++ s :: older)
    (hs : s.ev = ⟨.redisSet (.challenge cid) record ttl, .ok ()⟩)
    (hquiet : ∀ x ∈ later, ¬ JudgedVerified record.participantId x) :
    cfg.store.statusOf record.participantId ≠ some .verified ↔
      LastWriteUntrusted record.participantId later s := by
  unfold LastWriteUntrusted
  cases hfind : later.find? fun x => WroteStatus record.participantId x with
  | some x =>
    -- the last write decides
    obtain ⟨hx, newer, rest, rfl, hnone⟩ := List.find?_eq_some_iff_append.mp hfind
    have hlast : ∀ y ∈ newer, ¬ WroteStatus record.participantId y := by simpa using hnone
    have htx : cfg.trace = newer ++ x :: (rest ++ s :: older) := by simp [ht]
    obtain ⟨data, row, hev⟩ := of_decide_eq_true hx
    obtain ⟨written, hdata, hafter⟩ := status_written reach htx hev
    rw [status_kept reach htx hafter hlast, ← hdata]
    exact not_congr (verified_iff_binds reach htx hev (hquiet x (by simp)))
  | none =>
    have hnever : ∀ x ∈ later, ¬ WroteStatus record.participantId x := by
      simpa using List.find?_eq_none.mp hfind
    obtain ⟨status, hstatus⟩ := issued_row reach ht hs
    have hsame : cfg.store.statusOf record.participantId = some status := by
      refine status_kept reach ht ?_ hnever
      unfold World.statusOf
      rw [hs, exec_participants (by simp [Op.part])]
      exact hstatus
    rw [hsame, hstatus]

section Sample

/-- Alice's device is bound and challenged and has no socket; a minute passes. -/
def lateEnv : Env := Sample.env 29 60000

theorem lateRun_trace : ∃ later s older,
    (Sample.run lateEnv (Sample.challenged lateEnv)).trace = later ++ s :: older ∧
      s.ev = ⟨.redisSet (.challenge (Sample.uuid 22)) (Sample.challenge lateEnv) 15, .ok ()⟩ ∧
      ∀ x ∈ later, ¬ WroteStatus (Sample.uuid 7) x := by
  have hfind : ((Sample.run lateEnv (Sample.challenged lateEnv)).trace.find? fun e =>
      Sample.storesChallenge (Sample.challenge lateEnv) e || Sample.updatesParticipant e).any
        (Sample.storesChallenge (Sample.challenge lateEnv)) = true := by decide +kernel
  obtain ⟨later, s, older, ht, hs, hquiet⟩ := Sample.exists_event_quiet hfind
  refine ⟨later, s, older, ht, Sample.ev_of_storesChallenge hs, ?_⟩
  rintro x hx ⟨data, row, hev⟩
  exact Sample.op_ne_of_not_updatesParticipant (hquiet x hx) _ data (by rw [hev])

/-- There the condition is decided by what the run did. -/
theorem unanswered_verified_iff_late :
    ∃ later s older, (Sample.run lateEnv (Sample.challenged lateEnv)).trace = later ++ s :: older ∧
      ((Sample.run lateEnv (Sample.challenged lateEnv)).store.statusOf (Sample.uuid 7) ≠
          some .verified ↔ LastWriteUntrusted (Sample.uuid 7) later s) := by
  obtain ⟨later, s, older, ht, hs, hquiet⟩ := lateRun_trace
  have hrun := Sample.run_reachable lateEnv (Sample.challenged lateEnv)
  have hjudged : ∀ x ∈ later, ¬ JudgedVerified (Sample.uuid 7) x := by
    rintro x hx ⟨-, -, -, data, row, -, hev, -⟩
    exact hquiet x hx ⟨data, row, hev⟩
  have hiff := unanswered_verified_iff hrun ht hs hjudged
  exact ⟨later, s, older, ht, hiff⟩

/-- Alice never answers, the challenge has expired, and alice is VERIFIED. -/
theorem unanswered_stays_verified : ∃ cfg later s older, Reachable lateEnv cfg ∧
    cfg.trace = later ++ s :: older ∧
    s.ev = ⟨.redisSet (.challenge (Sample.uuid 22)) (Sample.challenge lateEnv) 15, .ok ()⟩ ∧
    (Sample.challenge lateEnv).expiresAt < lateEnv.clock cfg.store.steps ∧
    (∀ x ∈ later, ¬ WroteStatus (Sample.uuid 7) x) ∧
    cfg.store.statusOf (Sample.uuid 7) = some .verified := by
  obtain ⟨later, s, older, ht, hs, hquiet⟩ := lateRun_trace
  have hlate : (Sample.challenge lateEnv).expiresAt <
      lateEnv.clock (Sample.run lateEnv (Sample.challenged lateEnv)).store.steps := by
    decide +kernel
  have hverified : (Sample.run lateEnv (Sample.challenged lateEnv)).store.statusOf
      (Sample.uuid 7) = some .verified := by
    decide +kernel
  exact ⟨_, later, s, older, Sample.run_reachable lateEnv (Sample.challenged lateEnv), ht, hs,
    hlate, hquiet, hverified⟩

end Sample

end TroofAI.Hub
