import TroofAI.History.Alone
import TroofAI.Trust.Unanswered

/-!
Several challenges for one participant.

The row of a participant does not say which challenge its status comes from. An answer that
is judged writes its verdict, however old the challenge is and whatever has been judged since
it was issued; an answer that is not judged writes nothing, and neither does a round of
challenges. So the status is that of the answer judged last (`latest_judged`), which may be an
answer to an earlier challenge (`superseded_answer`).
-/

namespace TroofAI.Hub

open TroofAI.Await MeetingService ChallengeService

/-- The call belongs to the challenge and response of a meeting. -/
def Call.Challenges : Call → Prop
  | .issueChallenge _ => True
  | .verifyResponse _ _ _ => True
  | _ => False

/-- Called on `w` and left alone, the call judges an answer for the participant `p`, with the
given status. -/
def Judges (env : Env) (w : World) (c : Call) (p : String) (status : TrustStatus) : Prop :=
  ∃ challengeId deviceId signature challenge device,
    c = .verifyResponse challengeId deviceId signature ∧
    AnswersAlone env w challengeId deviceId challenge device ∧ challenge.participantId = p ∧
    (answerResult env w challenge device signature).status = status

/-- None of the calls, one after the other, judges an answer for the participant `p`. -/
def NoneJudges (env : Env) (cfg : HubConfig) (p : String) (cs : List Call) : Prop :=
  ∀ cs₁ c cs₂, cs = cs₁ ++ c :: cs₂ →
    ∀ status, ¬ Judges env (cfg.sequence (hub env) cs₁).store c p status

variable {env : Env} {cfg : HubConfig} {w w' : World} {c : Call} {p d : String}
  {before after : List (World × Event)} {ev : Event}

theorem noneJudges_cons {cs : List Call} (h : ∀ status, ¬ Judges env cfg.store c p status)
    (hcs : NoneJudges env (cfg.alone (hub env) c) p cs) : NoneJudges env cfg p (c :: cs) := by
  intro cs₁ c' cs₂ hsplit
  cases cs₁ with
  | nil =>
    obtain ⟨rfl, -⟩ := List.cons.inj hsplit
    exact h
  | cons x cs₁ =>
    obtain ⟨rfl, hrest⟩ := List.cons.inj hsplit
    exact hcs cs₁ c' cs₂ hrest

/-! ### One step, and one call -/

/-- Only a write to the row of a participant changes its status, once it is there. -/
theorem statusOf_exec {op : Op}
    (hwrite : ∀ data row, (⟨op, (exec env op w).1⟩ : Event) ≠ ⟨.participantUpdate p data, .ok row⟩)
    (hcreate : ∀ data, op ≠ .participantCreate data) :
    (exec env op w).2.statusOf p = w.statusOf p := by
  have hstep : ParticipantStep env w p ⟨op, (exec env op w).1⟩
    ((exec env op w).2.participants.find? p) := exec_participant p
  unfold World.statusOf
  generalize (exec env op w).2.participants.find? p = new at hstep ⊢
  generalize hev : (⟨op, (exec env op w).1⟩ : Event) = ev at hstep
  cases hstep with
  | same => rfl
  | update => exact absurd hev (hwrite _ _)
  | create => exact absurd (congrArg Ev.op hev) (hcreate _)

theorem statusOf_update {data : ParticipantUpdate} {row : Participant} {status : TrustStatus}
    (h : (exec env (.participantUpdate p data) w).1 = .ok row)
    (hstatus : data.trustStatus = some status) :
    (exec env (.participantUpdate p data) w).2.statusOf p = some status := by
  obtain ⟨old, hold, -, -, heq⟩ := exec_participantUpdate_ok h
  unfold World.statusOf
  rw [heq, Table.find?_modify, if_pos rfl, hold]
  simp [ParticipantUpdate.apply, hstatus]

/-- Neither round nor answer creates a participant or binds one. -/
theorem challenges_write (hc : c.Challenges) {past : List Event} {op : Op}
    (h : c.Point env past op) : (∀ data, op ≠ .participantCreate data) ∧
      ∀ p data, op = .participantUpdate p data → data.deviceId = none := by
  constructor
  · rintro data rfl
    obtain ⟨_, _, _, _, rfl, -⟩ := point_participantCreate h
    exact hc
  · rintro p data rfl
    have hwrite := point_participantUpdate h
    cases hwrite with
    | bind => exact hc.elim
    | noDevice => rfl
    | verdict => rfl

/-- So a binding is as it was when the call has ended. -/
theorem challenges_bound (hc : c.Challenges) (h : w.BoundTo p d) :
    (aloneStore env c w).BoundTo p d := by
  refine Prog.run_keeps (K := fun w : World => w.BoundTo p d) h fun x hx hbound => ?_
  obtain ⟨before, after, hlog⟩ := List.append_of_mem hx
  obtain ⟨hcreate, hnone⟩ := challenges_write hc (alone_point hlog).1
  obtain ⟨row, hrow, hdevice⟩ := hbound
  have hstep : ParticipantStep env x.1 p ⟨x.2.op, (exec env x.2.op x.1).1⟩
    ((exec env x.2.op x.1).2.participants.find? p) := exec_participant p
  unfold World.BoundTo
  generalize (exec env x.2.op x.1).2.participants.find? p = new at hstep ⊢
  generalize hev : (⟨x.2.op, (exec env x.2.op x.1).1⟩ : Event) = ev at hstep
  cases hstep with
  | same => exact ⟨row, hrow, hdevice⟩
  | @update data old hold =>
    rw [hrow] at hold
    cases hold
    have hkeep := hnone p data (congrArg Ev.op hev)
    exact ⟨_, rfl, by simp [ParticipantUpdate.apply, hkeep, hdevice]⟩
  | create hnew =>
    rw [hrow] at hnew
    cases hnew

/-- An answer writes one row, six events after it began. -/
theorem answer_write_length {challengeId deviceId signature : String} {data : ParticipantUpdate}
    (hlog : aloneLog env (.verifyResponse challengeId deviceId signature) w =
      before ++ (w', ev) :: after) (hop : ev.op = .participantUpdate p data) :
    before.length = 6 := by
  have hpoint := (alone_point hlog).1
  rw [hop] at hpoint
  simpa using (VerifyPoint.stage hpoint rfl).1

theorem answer_write_last {challengeId deviceId signature q : String} {data : ParticipantUpdate}
    (hlog : aloneLog env (.verifyResponse challengeId deviceId signature) w =
      before ++ (w', ev) :: after) (hop : ev.op = .participantUpdate p data)
    {x : World × Event} (hx : x ∈ after) (data' : ParticipantUpdate) :
    x.2.op ≠ .participantUpdate q data' := by
  intro hxop
  obtain ⟨between, rest, rfl⟩ := List.append_of_mem hx
  have hlogx : aloneLog env (.verifyResponse challengeId deviceId signature) w =
      (before ++ (w', ev) :: between) ++ x :: rest := by
    rw [hlog]
    simp
  have hfirst := answer_write_length hlog hop
  have hsecond := answer_write_length hlogx hxop
  simp only [List.length_append, List.length_cons] at hsecond
  omega

/-- An event of a round or an answer that is no write to the row of `p` keeps its status. -/
theorem challenges_status (hc : c.Challenges) {x : World × Event} (hx : x ∈ aloneLog env c w)
    (hwrite : ∀ data row, x.2 ≠ ⟨.participantUpdate p data, .ok row⟩) :
    (exec env x.2.op x.1).2.statusOf p = x.1.statusOf p := by
  obtain ⟨before, after, hlog⟩ := List.append_of_mem hx
  have hev := alone_ev hlog
  refine statusOf_exec (fun data row heq => hwrite data row (hev.trans heq)) ?_
  exact (challenges_write hc (alone_point hlog).1).1

/-- An answer that is judged leaves its verdict. -/
theorem answer_status {challengeId deviceId : String} (signature : String)
    {challenge : ChallengeRecord} {device : Device}
    (h : AnswersAlone env w challengeId deviceId challenge device) :
    (aloneStore env (.verifyResponse challengeId deviceId signature) w).statusOf
        challenge.participantId =
      some (answerResult env w challenge device signature).status := by
  obtain ⟨before, w', row, after, hlog⟩ := answer_log signature h
  refine Prog.run_after (K := fun w : World => w.statusOf challenge.participantId = some
    (answerResult env _ challenge device signature).status) hlog
    (statusOf_update (alone_ok hlog).1 rfl) fun x hx hstatus => ?_
  have hmem : x ∈ aloneLog env (.verifyResponse challengeId deviceId signature) w := by
    rw [hlog]
    simp [hx]
  refine (challenges_status (c := .verifyResponse challengeId deviceId signature) trivial hmem
    fun data row' hev => ?_).trans hstatus
  exact answer_write_last hlog rfl hx data (by rw [hev])

/-- A call that judges no answer for `p`, and finds it bound, leaves its status alone. -/
theorem unjudged_status (reach : Reachable env cfg) (hc : c.Challenges)
    (hbound : cfg.store.BoundTo p d) (hd : d ≠ "")
    (hnone : ∀ status, ¬ Judges env cfg.store c p status) :
    (aloneStore env c cfg.store).statusOf p = cfg.store.statusOf p := by
  refine Prog.run_keeps (K := fun w : World => w.statusOf p = cfg.store.statusOf p) rfl
    fun x hx hstatus => ?_
  refine (challenges_status hc hx fun data row hev => ?_).trans hstatus
  obtain ⟨w', ev⟩ := x
  obtain rfl : ev = _ := hev
  obtain ⟨before, after, hlog⟩ := List.append_of_mem hx
  cases c with
  | verifyResponse challengeId deviceId signature =>
    obtain ⟨challenge, device, hanswers, rfl, -⟩ := answer_log_inv hlog
    exact hnone _ ⟨_, _, _, challenge, device, rfl, hanswers, rfl, rfl⟩
  | issueChallenge meetingId =>
    obtain ⟨read, hread, rfl, hunbound⟩ := issue_log_inv hlog
    have hsome := read_as_bound reach hread hbound hd
    rw [hunbound] at hsome
    cases hsome
  | _ => exact hc.elim

/-- Calls of `issueChallenge` and `verifyResponse`, one after the other, from a reachable state
in which `p` is bound: the status they leave is the verdict of the last answer for `p` that
was judged, whichever challenge it answers, and the status of before when none was. -/
theorem latest_judged (reach : Reachable env cfg) (hbound : cfg.store.BoundTo p d) (hd : d ≠ "")
    (cs : List Call) (hcs : ∀ c ∈ cs, c.Challenges) :
    (∃ cs₁ c cs₂ status, cs = cs₁ ++ c :: cs₂ ∧
      Judges env (cfg.sequence (hub env) cs₁).store c p status ∧
      NoneJudges env (cfg.sequence (hub env) (cs₁ ++ [c])) p cs₂ ∧
      (cfg.sequence (hub env) cs).store.statusOf p = some status) ∨
    (NoneJudges env cfg p cs ∧
      (cfg.sequence (hub env) cs).store.statusOf p = cfg.store.statusOf p) := by
  induction cs generalizing cfg with
  | nil => exact .inr ⟨by simp [NoneJudges], rfl⟩
  | cons c cs ih =>
    have hc := hcs c List.mem_cons_self
    have hbound' : (cfg.alone (hub env) c).store.BoundTo p d := challenges_bound hc hbound
    rcases ih (reach_alone c reach) hbound' fun c' hc' => hcs c' (List.mem_cons_of_mem _ hc') with
      ⟨cs₁, c', cs₂, status, rfl, hjudged, hnone, hstatus⟩ | ⟨hnone, hstatus⟩
    · exact .inl ⟨c :: cs₁, c', cs₂, status, rfl, hjudged, hnone, hstatus⟩
    · by_cases hjudges : ∃ status, Judges env cfg.store c p status
      · obtain ⟨status, hjudged⟩ := hjudges
        refine .inl ⟨[], c, cs, status, rfl, hjudged, hnone, hstatus.trans ?_⟩
        obtain ⟨challengeId, deviceId, signature, challenge, device, rfl, hanswers, rfl, rfl⟩ :=
          hjudged
        exact answer_status signature hanswers
      · have hquiet : ∀ status, ¬ Judges env cfg.store c p status :=
          fun status h => hjudges ⟨status, h⟩
        refine .inr ⟨noneJudges_cons hquiet hnone, hstatus.trans ?_⟩
        exact unjudged_status reach hc hbound hd hquiet

section Sample

/-- Alice's device is challenged twice; the challenges are drawn at steps 22 and 31. -/
def twice : HubConfig :=
  let env := Sample.env 0 0
  Sample.run env (Sample.challenged env ++ [.issueChallenge (Sample.uuid 4)])

def secondChallenge : ChallengeRecord :=
  Sample.record (Sample.env 0 0) 31 "tenant-acme" (Sample.uuid 4) (Sample.uuid 7) "laptop-1" "alice"

/-- The second challenge is answered, and then the first one, with a signature that is not one. -/
def secondThenFirst : List Call :=
  [Sample.answer secondChallenge "pem-1", .verifyResponse (Sample.uuid 22) "laptop-1" "forged"]

theorem twice_reachable : Reachable (Sample.env 0 0) twice := Sample.run_reachable _ _

theorem twice_bound : twice.store.BoundTo (Sample.uuid 7) "laptop-1" := by
  decide +kernel

/-- There the status is that of the answer judged last. -/
theorem latest_judged_twice :
    let env := Sample.env 0 0
    (∃ cs₁ c cs₂ status, secondThenFirst = cs₁ ++ c :: cs₂ ∧
      Judges env (twice.sequence (hub env) cs₁).store c (Sample.uuid 7) status ∧
      NoneJudges env (twice.sequence (hub env) (cs₁ ++ [c])) (Sample.uuid 7) cs₂ ∧
      (twice.sequence (hub env) secondThenFirst).store.statusOf (Sample.uuid 7) = some status) ∨
    (NoneJudges env twice (Sample.uuid 7) secondThenFirst ∧
      (twice.sequence (hub env) secondThenFirst).store.statusOf (Sample.uuid 7) =
        twice.store.statusOf (Sample.uuid 7)) := by
  refine latest_judged twice_reachable twice_bound (by decide) secondThenFirst ?_
  intro c hc
  simp only [secondThenFirst, List.mem_cons, List.not_mem_nil, or_false] at hc
  rcases hc with rfl | rfl <;> trivial

/-- The second challenge has been judged VERIFIED; a later answer to the first makes the
participant FAILED. -/
theorem superseded_answer :
    let env := Sample.env 0 0
    let judged := twice.sequence (hub env) [Sample.answer secondChallenge "pem-1"]
    Reachable env twice ∧
    (∃ later s₂ between s₁ earlier, twice.trace = later ++ s₂ :: (between ++ s₁ :: earlier) ∧
      s₁.ev = ⟨.redisSet (.challenge (Sample.uuid 22)) (Sample.challenge env) 15, .ok ()⟩ ∧
      s₂.ev = ⟨.redisSet (.challenge (Sample.uuid 31)) secondChallenge 15, .ok ()⟩) ∧
    (∃ e ∈ judged.trace, Sample.writesStatus (Sample.answer secondChallenge "pem-1")
      (Sample.uuid 7) .verified e = true) ∧
    judged.store.statusOf (Sample.uuid 7) = some .verified ∧
    (judged.sequence (hub env)
      [.verifyResponse (Sample.uuid 22) "laptop-1" "forged"]).store.statusOf (Sample.uuid 7) =
      some .failed := by
  intro env judged
  have hany : ((Sample.positions twice.trace).any fun x =>
      Sample.storesChallenge secondChallenge x.2.1 &&
        x.2.2.any (Sample.storesChallenge (Sample.challenge (Sample.env 0 0)))) = true := by
    decide +kernel
  have hverdict : (twice.sequence (hub (Sample.env 0 0))
      [Sample.answer secondChallenge "pem-1"]).trace.any (Sample.writesStatus
        (Sample.answer secondChallenge "pem-1") (Sample.uuid 7) .verified) = true := by
    decide +kernel
  have hverified : (twice.sequence (hub (Sample.env 0 0))
      [Sample.answer secondChallenge "pem-1"]).store.statusOf (Sample.uuid 7) =
        some .verified := by
    decide +kernel
  have hfailed : ((twice.sequence (hub (Sample.env 0 0))
      [Sample.answer secondChallenge "pem-1"]).sequence (hub (Sample.env 0 0))
        [.verifyResponse (Sample.uuid 22) "laptop-1" "forged"]).store.statusOf (Sample.uuid 7) =
          some .failed := by
    decide +kernel
  obtain ⟨later, s₂, earlier, ht, hf⟩ := Sample.exists_position (f := fun _ e earlier =>
    Sample.storesChallenge secondChallenge e &&
      earlier.any (Sample.storesChallenge (Sample.challenge (Sample.env 0 0)))) hany
  obtain ⟨hs₂, hearlier⟩ := Bool.and_eq_true_iff.mp hf
  obtain ⟨between, s₁, older, rfl, hs₁⟩ := Sample.exists_event hearlier
  exact ⟨twice_reachable, ⟨later, s₂, between, s₁, older, ht, Sample.ev_of_storesChallenge hs₁,
    Sample.ev_of_storesChallenge hs₂⟩, List.any_eq_true.mp hverdict, hverified, hfailed⟩

end Sample

end TroofAI.Hub
