import TroofAI.Trust.Authentic

/-!
Binds that are lost to a round of challenges.

`issueChallenge` reads the participants once and then goes through them, awaiting several
store calls for each. A participant that is bound in the meantime is still marked FAILED, for
the lack of a device binding, when its turn comes (`lost_bind`). `KeepsBinds` forbids just
that: a bind of a participant whom a running call has read as unbound and not yet marked. In
runs without it no bound participant carries that mark (`binds_not_lost`).
-/

namespace TroofAI.Hub

open TroofAI.Await MeetingService ChallengeService

/-! ### What a round writes -/

/-- The writes of a history are to rows in `seen`. -/
def WroteOnly (seen : List (Participant × Option Device)) (past : List Event) : Prop :=
  ∀ ev ∈ past, ∀ p data, ev.op = .participantUpdate p data → p ∈ seen.map (·.1.id)

/-- The participant `p` is the next of those the call has read, was unbound when it was read,
and only those before it have been written. -/
def FreshWrite (meetingId : String) (past : List Event) (p : String) : Prop :=
  ∃ seen row rest, ⟨.participantFindMany meetingId, .ok (seen ++ row :: rest)⟩ ∈ past ∧
    row.1.id = p ∧ boundDevice row = none ∧ WroteOnly seen past

/-- What is asked of an operation of `issueChallenge`. -/
def WritesFresh (meetingId : String) (past : List Event) (op : Op) : Prop :=
  ∀ p data, op = .participantUpdate p data → FreshWrite meetingId past p

variable {meetingId : String} {m : Meeting} {past : List Event}
  {seen rest : List (Participant × Option Device)} {row : Participant × Option Device}

theorem WroteOnly.cons (h : WroteOnly seen past) {ev : Event}
    (hev : ∀ p data, ev.op = .participantUpdate p data → p ∈ seen.map (·.1.id)) :
    WroteOnly seen (ev :: past) := by
  intro x hx
  rcases List.mem_cons.mp hx with rfl | hx
  · exact hev
  · exact h x hx

theorem WroteOnly.more (h : WroteOnly seen past) : WroteOnly (seen ++ [row]) past := by
  intro ev hev p data hop
  rw [List.map_append]
  exact List.mem_append_left _ (h ev hev p data hop)

/-- The row that is next in a snapshot is not among those that have been written. -/
theorem WroteOnly.next (h : WroteOnly seen past) {w : World} {order : AnyOrder Participant}
    (hrows : w.participantsOf order meetingId = seen ++ row :: rest) {ev : Event} (hev : ev ∈ past)
    (data : ParticipantUpdate) : ev.op ≠ .participantUpdate row.1.id data := by
  intro hop
  have hseen := h ev hev _ data hop
  have hnodup := World.participantsOf_nodup order w meetingId
  rw [hrows, List.map_append, List.map_cons] at hnodup
  exact (List.nodup_append.mp hnodup).2.2 _ hseen _ List.mem_cons_self rfl

/-- A turn of the loop. -/
theorem issueOne_fresh
    (hread : ⟨.participantFindMany meetingId, .ok (seen ++ row :: rest)⟩ ∈ past)
    (h : WroteOnly seen past) :
    Prog.Obeys (WritesFresh meetingId)
      (fun past' _ => ⟨.participantFindMany meetingId, .ok (seen ++ row :: rest)⟩ ∈ past' ∧
        WroteOnly (seen ++ [row]) past') past (issueOne m meetingId row) := by
  unfold issueOne
  cases hbound : boundDevice row with
  | none =>
    refine Prog.obeys_perform_bind.mpr ⟨by rintro _ _ ⟨⟩, fun t => ?_⟩
    refine Prog.obeys_perform_bind.mpr ⟨?_, fun p => ?_⟩
    · rintro _ _ ⟨⟩
      exact ⟨seen, row, rest, List.mem_cons_of_mem _ hread, rfl, hbound,
        h.cons (by rintro _ _ ⟨⟩)⟩
    · refine Prog.obeys_perform_bind.mpr ⟨by rintro _ _ ⟨⟩, fun _ => ?_⟩
      refine Prog.obeys_perform_bind.mpr ⟨by rintro _ _ ⟨⟩, fun _ => ?_⟩
      refine ⟨by simp [hread], .cons (.cons (.cons (.cons h.more ?_) ?_) ?_) ?_⟩
      · rintro _ _ ⟨⟩
      · rintro _ _ ⟨⟩
        simp
      · rintro _ _ ⟨⟩
      · rintro _ _ ⟨⟩
  | some deviceId =>
    refine Prog.obeys_perform_bind.mpr ⟨by rintro _ _ ⟨⟩, fun _ => ?_⟩
    refine Prog.obeys_perform_bind.mpr ⟨by rintro _ _ ⟨⟩, fun _ => ?_⟩
    refine Prog.obeys_perform_bind.mpr ⟨by rintro _ _ ⟨⟩, fun _ => ?_⟩
    refine Prog.obeys_perform_bind.mpr ⟨by rintro _ _ ⟨⟩, fun _ => ?_⟩
    refine Prog.obeys_perform_bind.mpr ⟨by rintro _ _ ⟨⟩, fun _ => ?_⟩
    refine Prog.obeys_perform_bind.mpr ⟨by rintro _ _ ⟨⟩, fun _ => ?_⟩
    refine Prog.obeys_perform_bind.mpr ⟨by rintro _ _ ⟨⟩, fun _ => ?_⟩
    refine ⟨by simp [hread], ?_⟩
    intro ev hev p data hop
    simp only [List.mem_cons] at hev
    rcases hev with rfl | rfl | rfl | rfl | rfl | rfl | rfl | hev
    case inr.inr.inr.inr.inr.inr.inr => exact h.more ev hev p data hop
    all_goals cases hop

theorem issueChallenge_fresh (meetingId : String) :
    Prog.Obeys (WritesFresh meetingId) (fun _ _ => True) [] (issueChallenge meetingId) := by
  refine Prog.obeys_perform_bind.mpr ⟨by rintro _ _ ⟨⟩, fun meeting? => ?_⟩
  cases meeting? with
  | none => trivial
  | some m =>
    refine Prog.obeys_perform_bind.mpr ⟨by rintro _ _ ⟨⟩, fun rows => ?_⟩
    refine .mono (fun _ _ hop => hop) (fun _ _ _ => trivial) (Prog.obeys_collect_seen
      (I := fun seen past => ⟨.participantFindMany meetingId, .ok rows⟩ ∈ past ∧
        WroteOnly seen past) ?_ ?_)
    · rintro seen row rest rfl past ⟨hread, hwrote⟩
      exact issueOne_fresh hread hwrote
    · refine ⟨by simp, ?_⟩
      rintro ev hev p data hop
      simp only [List.mem_cons, List.not_mem_nil, or_false] at hev
      rcases hev with rfl | rfl <;> cases hop

/-- The same of the whole hub, where nothing is asked of the other calls. -/
def Call.FreshWrites : Call → List Event → Op → Prop
  | .issueChallenge meetingId => WritesFresh meetingId
  | _ => fun _ _ => True

theorem body_fresh (env : Env) (c : Call) :
    Prog.Obeys c.FreshWrites (fun _ _ => True) [] (c.body env) := by
  cases c with
  | issueChallenge meetingId => exact Prog.obeys_map.mpr (issueChallenge_fresh meetingId)
  | _ => exact Prog.obeys_trivial _

/-! ### Binds during a round -/

/-- Call `j` goes through the participants of a meeting, has read `p` as unbound, and has not
yet written to its row. -/
def AwaitsFailure (cfg : HubConfig) (j : Nat) (p : String) : Prop :=
  ∃ meetingId op k rows row, cfg.calls[j]? = some (.issueChallenge meetingId, .await op k) ∧
    ⟨.participantFindMany meetingId, .ok rows⟩ ∈ own j cfg.trace ∧ row ∈ rows ∧ row.1.id = p ∧
    boundDevice row = none ∧
    ∀ ev ∈ own j cfg.trace, ∀ data, ev.op ≠ .participantUpdate p data

/-- A step may bind a participant only to a device with an id, and only while no call awaits
its failure. -/
def KeepsBinds (cfg : HubConfig) (_ : Nat) (op : Op) : Prop :=
  ∀ p data d, op = .participantUpdate p data → data.deviceId = some d →
    d ≠ "" ∧ ∀ j, ¬ AwaitsFailure cfg j p

/-- The row is bound to a device and marked as having none. -/
def Participant.BindLost (row : Participant) : Prop :=
  row.deviceId.isSome ∧ row.trustStatus = .failed ∧
    row.statusReason = some "No device binding — cannot verify"

variable {env : Env} {cfg : HubConfig} {p : String}

/-- In runs where binds are kept, a participant is not bound when a round marks it. -/
theorem failure_unbound (reach : Reach (hub env) KeepsBinds World.IsInit cfg)
    {later earlier : Trace} {x : HubEntry} {data : ParticipantUpdate}
    (ht : cfg.trace = later ++ x :: earlier) (hcall : x.call = .issueChallenge meetingId)
    (hop : x.ev.op = .participantUpdate p data) : ¬ x.before.Bound p := by
  rintro ⟨d, hbound⟩
  have hfresh : x.call.FreshWrites (own x.id earlier) x.ev.op := reach.point (body_fresh env) ht
  rw [hcall] at hfresh
  obtain ⟨seen, row, rest, hread, rfl, hnone, hwrote⟩ := hfresh p data hop
  obtain ⟨pre, -, hpre, rfl, hstore, -⟩ := reach.cut ht
  rw [← hstore] at hbound
  obtain ⟨newer, b, older, htb, hbinds, hquiet⟩ := bound_by hpre hbound
  obtain ⟨f, hf, hfid, hfev⟩ := mem_own.mp hread
  have hrows := exec_participantFindMany_ok (hub_did hpre hf hfev)
  have hcut : cfg.trace = (later ++ x :: newer) ++ b :: older := by simp [ht, htb]
  obtain ⟨mid, -, hmid, hmtrace, hmstore, -, -, hok, hdone⟩ := reach.cut_done hcut
  obtain ⟨bdata, brow, hbev, hbd⟩ := id hbinds
  rw [hbev] at hok
  obtain ⟨hd, hawaits⟩ := hok _ bdata d rfl hbd
  obtain ⟨l, l', htf⟩ := List.append_of_mem hf
  rcases split_cases (htb.symm.trans htf) with ⟨m', hm', rfl⟩ | ⟨-, rfl, -⟩ | ⟨m', rfl, rfl⟩
  · -- the bind came first, so it was in the snapshot
    obtain ⟨snap, -, hsnap, hstrace, hsstore, -⟩ := hpre.cut htf
    have hstands : snap.store.BoundTo row.1.id d := by
      refine binds_kept hsnap hstrace hbinds fun y hy => hquiet y ?_
      rw [hm']
      simp [hy]
    have hrow : row ∈
        snap.store.participantsOf (env.participantOrder snap.store.steps) meetingId := by
      rw [hsstore, hrows]
      simp
    have hsome := read_as_bound hsnap hrow hstands hd
    rw [hnone] at hsome
    cases hsome
  · rw [hbev] at hfev
    cases hfev
  · -- the snapshot came first, so the call awaited the failure when the bind was written
    apply hawaits x.id
    have hfmid : f ∈ mid.trace := by simp [hmtrace]
    obtain ⟨prog, hprog⟩ := hmid.entry_call f hfmid
    have hfcall : f.call = .issueChallenge meetingId := by
      rw [← hcall]
      exact reach.same_call (ht ▸ by simp [hf]) (ht ▸ by simp) hfid
    rw [hfid, hfcall] at hprog
    cases prog with
    | done r => exact absurd rfl ((hdone _ _ _ hprog).2 x (by simp))
    | await op k =>
      refine ⟨meetingId, op, k, _, row, hprog, mem_own.mpr ⟨f, hfmid, hfid, hfev⟩, by simp, rfl,
        hnone, fun ev hev data' hev' => ?_⟩
      have hold : ev ∈ own x.id pre.trace := by
        rw [htb, own_append, ← List.singleton_append (l := m' ++ f :: l'), own_append, ← hmtrace]
        simp [hev]
      exact hwrote.next hrows hold data' hev'

/-- In runs where binds are kept, no row is bound and marked as having no device. -/
theorem binds_not_lost (reach : Reach (hub env) KeepsBinds World.IsInit cfg) {row : Participant}
    (hrow : cfg.store.participants.find? p = some row) : ¬ row.BindLost := by
  refine reach.throughout (fun w => ∀ row, w.participants.find? p = some row → ¬ row.BindLost)
    ?_ ?_ row hrow
  · rintro w ⟨tenants, rfl⟩ row hnone
    cases hnone
  · intro x hx ih row' hrow'
    have hstep : ParticipantStep env x.before p x.ev (some row') :=
      hrow' ▸ hub_participant reach hx p
    generalize hev : x.ev = ev at hstep
    generalize hnew : some row' = new at hstep
    cases hstep with
    | same => exact ih row' hnew.symm
    | @update data old hold =>
      cases hnew
      obtain ⟨later, earlier, ht⟩ := List.append_of_mem hx
      have hwrite := hub_write reach ht (congrArg Ev.op hev)
      generalize hcall : x.call = c at hwrite
      generalize own x.id earlier = past at hwrite
      rintro ⟨hdevice, hfailed, hreason⟩
      cases hwrite with
      | bind => cases hfailed
      | noDevice =>
        -- the row is not bound, and the write does not bind it
        obtain ⟨d, hd⟩ := Option.isSome_iff_exists.mp hdevice
        exact failure_unbound reach ht hcall (by rw [hev]) ⟨d, old, hold, hd⟩
      | verdict =>
        have hmem := PolicyService.evaluate_failed_reason hfailed
        have hmark : (PolicyService.evaluate _ _).reason = _ := Option.some.inj hreason
        rw [hmark] at hmem
        revert hmem
        decide
    | create =>
      cases hnew
      rintro ⟨hdevice, -⟩
      cases hdevice

/-- Binds to devices with ids, by calls that run one after the other, are kept. -/
theorem keepsBinds_of_onlyRunning {ok : HubConfig → Nat → Op → Prop} {init : World → Prop}
    {i : Nat} {c : Call} {op : Op} {k : Except HubError op.Resp → Service Reply}
    (reach : Reach (hub env) ok init cfg) (hcall : cfg.calls[i]? = some (c, .await op k))
    (honly : cfg.OnlyRunning i) (hc : ∀ m t d s, c = .bindDevice m t d s → d ≠ "") :
    KeepsBinds cfg i op := by
  rintro p data d rfl hd
  have hpoint := (reach.obeys (body_obeys env) i c _ hcall).1
  have hwrite := point_participantUpdate hpoint
  generalize own i cfg.trace = past at hwrite
  cases hwrite with
  | noDevice => cases hd
  | verdict => cases hd
  | bind =>
    cases hd
    refine ⟨hc _ _ _ _ rfl, ?_⟩
    rintro j ⟨meetingId, op', k', rows, row, hj, -⟩
    by_cases hij : j = i
    · rw [hij, hcall] at hj
      cases hj
    · obtain ⟨r, hr⟩ := honly j _ _ hj hij
      cases hr

section Sample

/-- Alice's device is bound and then challenged: the row is as the bind left it. -/
theorem binds_not_lost_sample :
    let cfg := Sample.run (Sample.env 0 0) (Sample.challenged (Sample.env 0 0))
    ∃ row, cfg.store.participants.find? (Sample.uuid 7) = some row ∧
      row.deviceId = some "laptop-1" ∧ ¬ row.BindLost := by
  intro cfg
  have hreach : Reach (hub (Sample.env 0 0)) KeepsBinds World.IsInit cfg := by
    refine reach_sequence_ok _ ?_ (by simp [Sample.start]) (.init ⟨_, rfl⟩)
    intro cfg i c op k hc reach _ hcall honly
    refine keepsBinds_of_onlyRunning reach hcall honly ?_
    rintro m t d s rfl
    simp [Sample.challenged, Sample.bound, Sample.setUp, Sample.bind, Sample.enroll] at hc
    simp [hc]
  have hbound : cfg.store.BoundTo (Sample.uuid 7) "laptop-1" := by decide +kernel
  obtain ⟨row, hrow, hdevice⟩ := hbound
  exact ⟨row, hrow, hdevice, binds_not_lost hreach hrow⟩

/-- Alice's device is bound, and the bind returns, while a round that has read the participants
before goes on: the round marks the bound row. -/
theorem lost_bind : ∃ cfg row r, Reachable (Sample.env 0 0) cfg ∧
    cfg.calls[4]? = some (.issueChallenge (Sample.uuid 4), .done (.ok r)) ∧
    (∃ r', cfg.calls[5]? = some (Sample.bind (Sample.env 0 0) 10 (Sample.uuid 4) (Sample.uuid 7)
      "laptop-1" "pem-1", .done (.ok r'))) ∧
    cfg.store.participants.find? (Sample.uuid 7) = some row ∧ row.deviceId = some "laptop-1" ∧
    row.BindLost := by
  let bind := Sample.bind (Sample.env 0 0) 10 (Sample.uuid 4) (Sample.uuid 7) "laptop-1" "pem-1"
  let schedule : List (Sched Call) :=
    [.start (.issueChallenge (Sample.uuid 4)), .step 4, .step 4, .start bind] ++
      List.replicate 7 (.step 5) ++ List.replicate 4 (.step 4)
  have hrun := reach_play schedule (Sample.run_reachable (Sample.env 0 0) Sample.setUp)
  have h₁ : Sample.returned ((Sample.run (Sample.env 0 0) Sample.setUp).play
      (hub (Sample.env 0 0)) schedule) 4 (.issueChallenge (Sample.uuid 4)) = true := by
    decide +kernel
  have h₂ : Sample.returned ((Sample.run (Sample.env 0 0) Sample.setUp).play
      (hub (Sample.env 0 0)) schedule) 5 bind = true := by decide +kernel
  have hrow : (((Sample.run (Sample.env 0 0) Sample.setUp).play (hub (Sample.env 0 0))
      schedule).store.participants.find? (Sample.uuid 7)).any (fun row =>
        row.deviceId = some "laptop-1" && row.trustStatus = .failed &&
        row.statusReason = some "No device binding — cannot verify") = true := by decide +kernel
  obtain ⟨r, hr⟩ := Sample.calls_of_returned h₁
  obtain ⟨r', hr'⟩ := Sample.calls_of_returned h₂
  obtain ⟨row, hfind, hfields⟩ := (Option.any_eq_true _ _).mp hrow
  simp only [Bool.and_eq_true, decide_eq_true_eq] at hfields
  obtain ⟨⟨hdevice, hfailed⟩, hreason⟩ := hfields
  refine ⟨_, row, r, hrun, hr, ⟨r', hr'⟩, hfind, hdevice, ?_, hfailed, hreason⟩
  rw [hdevice]
  rfl

end Sample

end TroofAI.Hub
