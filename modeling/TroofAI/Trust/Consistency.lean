import TroofAI.Hub.Stats
import TroofAI.Trust.Authentic

/-!
The statistics under load.

The eight queries of a `getStats` run at the same time and in no transaction, so each of them
meets a state of its own while other calls go on. What is returned is then consistent up to what
the calls did between the reads (`stats_consistent`).
-/

namespace TroofAI.Hub

open TroofAI.Await StatsController

/-! ### A run with the queries -/

/-- A run in which the queries of one `getStats` are answered, with the state each query has met
so far. A query changes nothing. -/
inductive Reading (env : Env) : HubConfig → (StatsQuery → Option World) → Prop where
  | begin {cfg : HubConfig} : Reachable env cfg → Reading env cfg fun _ => none
  | query {cfg seen} (q : StatsQuery) : Reading env cfg seen → seen q = none →
      Reading env cfg (Function.update seen q (some cfg.store))
  | start {cfg seen} (c : Call) : Reading env cfg seen → Reading env (cfg.start (hub env) c) seen
  | perform {cfg seen} {i : Nat} {c : Call} {op : Op}
      {k : Except HubError op.Resp → Service Reply} : Reading env cfg seen →
      cfg.calls[i]? = some (c, .await op k) → Reading env (cfg.perform (hub env) i c op k) seen

variable {env : Env} {cfg : HubConfig} {seen : StatsQuery → Option World}

theorem Reading.reachable (h : Reading env cfg seen) : Reachable env cfg := by
  induction h with
  | begin h => exact h
  | query _ _ _ ih => exact ih
  | start c _ ih => exact .start c ih
  | perform _ hcall ih => exact .perform ih hcall trivial

theorem Reading.met (h : Reading env cfg seen) : ∀ q w, seen q = some w → cfg.Met w := by
  induction h with
  | begin _ => exact fun _ _ h => nomatch h
  | @query cfg seen q _ _ ih =>
    intro q' w hw
    by_cases hq : q' = q
    · subst hq
      rw [Function.update_self] at hw
      exact .inl (Option.some.inj hw).symm
    · rw [Function.update_of_ne hq] at hw
      exact ih q' w hw
  | start c _ ih => exact ih
  | perform _ _ ih => exact fun q w hw => (ih q w hw).perform

/-! ### What happens between two reads -/

/-- The event has created a device that the queries count. -/
def enrolled (tenantId : Option String) (e : HubEntry) : Bool :=
  match e.ev with
  | ⟨.deviceCreate data, .ok _⟩ => within tenantId data.tenantId
  | _ => false

/-- The event has created a participant. -/
def joined (e : HubEntry) : Bool :=
  match e.ev with
  | ⟨.participantCreate _, .ok _⟩ => true
  | _ => false

/-- The event has written the status on a participant. -/
def turned (status : TrustStatus) (e : HubEntry) : Bool :=
  match e.ev with
  | ⟨.participantUpdate _ data, .ok _⟩ => data.trustStatus = some status
  | _ => false

/-- The participant for which the event has stored a join token. -/
def tokenFor (e : HubEntry) : Option String :=
  match e.call, e.ev with
  | .issueJoinToken _ participantId, ⟨.redisSet (.joinToken _) _ _, .ok _⟩ => some participantId
  | _, _ => none

/-- The participants that are missing in the state `w` and got a join token from there to `w'`. -/
def newcomers (w w' : World) (trace : Trace) : List String :=
  (((during World.steps w w' trace).filterMap tokenFor).filter fun p =>
    (w.participants.find? p).isNone).dedup

/-! ### How the counts move -/

section Counts

variable {x : HubEntry}

theorem devices_step (reach : Reachable env cfg) (hx : x ∈ cfg.trace) (tenantId : Option String) :
    StatsQuery.count tenantId x.before .totalDevices ≤
      StatsQuery.count tenantId (exec env x.ev.op x.before).2 .totalDevices ∧
    StatsQuery.count tenantId (exec env x.ev.op x.before).2 .totalDevices ≤
      StatsQuery.count tenantId x.before .totalDevices + if enrolled tenantId x then 1 else 0 := by
  have hcount : ∀ w : World, StatsQuery.count tenantId w .totalDevices =
      (w.devices.rows.map Device.tenantId).countP (within tenantId) := by
    intro w
    rw [List.countP_map]
    rfl
  rw [hcount, hcount]
  have hcases : (exec env x.ev.op x.before).2.devices.rows.map Device.tenantId = _ ∨ _ :=
    exec_device_tenants_cases
  rw [← hub_ev reach hx] at hcases
  rcases hcases with hsame | ⟨data, row, hev, hgrown⟩
  · rw [hsame]
    omega
  · rw [hgrown, List.countP_append, List.countP_singleton]
    unfold enrolled
    rw [hev]
    exact ⟨Nat.le_add_right _ _, Nat.le_refl _⟩

theorem participants_step (reach : Reachable env cfg) (hx : x ∈ cfg.trace) :
    x.before.participants.rows.length ≤ (exec env x.ev.op x.before).2.participants.rows.length ∧
    (exec env x.ev.op x.before).2.participants.rows.length ≤
      x.before.participants.rows.length + if joined x then 1 else 0 := by
  have hcases : (exec env x.ev.op x.before).2.participants = _ ∨ _ := exec_participants_cases
  rw [← hub_ev reach hx] at hcases
  rcases hcases with hsame | ⟨data, row, hev, -, hgrown⟩ | ⟨p, data, row, -, hchanged⟩
  · rw [hsame]
    omega
  · rw [hgrown, List.length_append]
    unfold joined
    rw [hev]
    exact ⟨Nat.le_add_right _ _, Nat.le_refl _⟩
  · rw [hchanged, Table.modify, List.length_map]
    omega

/-- Participants start as UNKNOWN, so only a write of the status makes more have it. -/
theorem status_step (reach : Reachable env cfg) (hx : x ∈ cfg.trace) {status : TrustStatus}
    (hstatus : status ≠ .unknown) :
    (exec env x.ev.op x.before).2.participants.rows.countP (·.trustStatus = status) ≤
      x.before.participants.rows.countP (·.trustStatus = status) +
        if turned status x then 1 else 0 := by
  obtain ⟨later, earlier, ht⟩ := List.append_of_mem hx
  have hpoint := hub_point reach ht
  have hcases : (exec env x.ev.op x.before).2.participants = _ ∨ _ := exec_participants_cases
  rw [← hub_ev reach hx] at hcases
  rcases hcases with hsame | ⟨data, row, hev, hrow, hgrown⟩ | ⟨p, data, row, hev, hchanged⟩
  · rw [hsame]
    omega
  · rw [hev] at hpoint
    obtain ⟨_, _, _, _, -, rfl, -⟩ := point_participantCreate hpoint
    have hnone : ¬ (row.trustStatus = status) := by
      rw [hrow]
      exact hstatus.symm
    rw [hgrown, List.countP_append, List.countP_singleton]
    simp [hnone]
  · rw [hchanged]
    unfold turned
    rw [hev]
    by_cases hdata : data.trustStatus = some status
    · simpa [hdata] using x.before.participants.countP_modify_le p data.apply_id _
    · simp only [hdata, decide_false, Bool.false_eq_true, if_false, Nat.add_zero]
      apply Table.countP_modify_le_of_imp
      intro r hr
      have hwrite := hub_write reach ht (congrArg Ev.op hev)
      obtain ⟨status', hsome⟩ := hwrite.status
      simp only [ParticipantUpdate.apply, hsome, Option.getD_some, decide_eq_true_eq] at hr
      exact absurd (hr ▸ hsome) hdata

end Counts

/-! ### Who is VERIFIED -/

variable {p : String}

/-- A participant that is VERIFIED is bound. -/
theorem verified_bound (reach : Reachable env cfg) {row : Participant}
    (hrow : cfg.store.participants.find? p = some row) (h : row.trustStatus = .verified) :
    cfg.store.Bound p := by
  refine reach.throughout (fun w => ∀ row, w.participants.find? p = some row →
    row.trustStatus = .verified → w.Bound p) ?_ ?_ row hrow h
  · rintro w ⟨tenants, rfl⟩ row hnone
    cases hnone
  · intro x hx ih row hrow hverified
    obtain ⟨later, earlier, ht⟩ := List.append_of_mem hx
    have hstep : ParticipantStep env x.before p x.ev (some row) := hrow ▸ hub_participant reach hx p
    have hkeep : x.before.Bound p → (exec env x.ev.op x.before).2.Bound p := bound_step reach hx
    show (exec env x.ev.op x.before).2.Bound p
    generalize hnew : some row = new at hstep
    generalize hev : x.ev = ev at hstep hkeep ⊢
    cases hstep with
    | same => exact hkeep (ih row hnew.symm hverified)
    | @update data old hold hdevice =>
      cases hnew
      have hwrite := hub_write reach ht (congrArg Ev.op hev)
      have hstatus : data.trustStatus = some .verified := by
        obtain ⟨status, hsome⟩ := hwrite.status
        change data.trustStatus.getD old.trustStatus = .verified at hverified
        rw [hsome] at hverified ⊢
        exact congrArg some hverified
      have hdid := hub_did reach hx hev
      generalize x.call = c at hwrite
      generalize hown : own x.id earlier = past at hwrite
      cases hwrite with
      | bind hacc => exact ⟨_, (boundTo_update hdid).mpr (.inl rfl)⟩
      | noDevice => cases hstatus
      | @verdict challengeId _ _ challenge _ _ _ _ _ hacc =>
        -- the challenge was stored while the participant was bound
        rw [hacc.past_eq] at hown
        have hget : own x.id earlier = [_, _, _, _, _] ++ _ :: [] := hown
        obtain ⟨between, g, rest, rfl, -, hg, -⟩ := own_split hget
        obtain ⟨pre, -, hpre, htrace, hstore, -⟩ := reach.cut ht
        obtain ⟨since, s, older, deadline, rfl, hstored, -⟩ := read_stored hpre htrace hg
        obtain ⟨ttl, hs, -⟩ := hstored.ev
        have hts : pre.trace = (between ++ g :: since) ++ s :: older := by simp [htrace]
        have hbound := bound_stays hpre hts (stored_bound hpre hts hs)
        rw [hstore] at hbound
        exact hkeep hbound
    | create =>
      cases hnew
      have hpoint := hub_point reach ht
      rw [hev] at hpoint
      obtain ⟨_, _, _, _, -, rfl, -⟩ := point_participantCreate hpoint
      cases hverified

/-- So it got a join token, at a time when its row was there. -/
theorem verified_token (reach : Reachable env cfg) {row : Participant}
    (hrow : cfg.store.participants.find? p = some row) (h : row.trustStatus = .verified) :
    ∃ s ∈ cfg.trace, tokenFor s = some p ∧ (s.before.participants.find? p).isSome := by
  obtain ⟨d, hbound⟩ := verified_bound reach hrow h
  obtain ⟨later, e, earlier, ht, hbinds, -⟩ := bound_by reach hbound
  obtain ⟨meetingId, joinToken, signature, expiresAt, device, -,
    ⟨between, g, since, s, older, rfl, -, -, hissued⟩, -⟩ := binds_token reach ht hbinds
  have hts : cfg.trace = (later ++ e :: between ++ g :: since) ++ s :: older := by simp [ht]
  refine ⟨s, hts ▸ by simp, ?_, ?_⟩
  · unfold tokenFor
    rw [hissued.call, hissued.event]
  · have hset := hub_set reach hts (congrArg Ev.op hissued.event)
    rw [hissued.call] at hset
    generalize hown : own s.id older = past at hset
    cases hset with
    | @joinToken _ _ row' =>
      obtain ⟨pre, -, hpre, rfl, hstore, -⟩ := reach.cut hts
      have hread : ⟨.participantFindUnique p, .ok (some row')⟩ ∈ own s.id pre.trace := by
        rw [hown]
        simp
      obtain ⟨r, hr, -, hrev⟩ := mem_own.mp hread
      obtain ⟨l, l', htr⟩ := List.append_of_mem hr
      have hfound := exec_participantFindUnique_ok (hub_did hpre hr hrev)
      obtain ⟨row'', hrow'', -⟩ := participant_kept hpre htr hfound
      rw [← hstore, hrow'']
      rfl

/-- A participant that is VERIFIED in one state and missing in another is a newcomer. -/
theorem verified_newcomer (reach : Reachable env cfg) {w w' : World} (hw : cfg.Met w)
    (hw' : cfg.Met w') {row : Participant} (hmem : row ∈ w'.participants.rows)
    (hverified : row.trustStatus = .verified) (hmissing : w.participants.find? row.id = none) :
    row.id ∈ newcomers w w' cfg.trace := by
  obtain ⟨pre, newer, hpre, rfl, htrace⟩ := reach.of_met hw'
  obtain ⟨s, hs, htoken, hthere⟩ := verified_token hpre
    (Table.find?_eq_some.mpr ⟨hmem, rfl⟩) hverified
  have hs' : s ∈ cfg.trace := htrace ▸ List.mem_append_right _ hs
  have hbefore := (hpre.steps World.steps fun _ _ => exec_steps).2 s hs
  -- a row that was there when the token was issued is there from then on
  have hafter : w.steps ≤ s.before.steps := by
    by_contra hlt
    have hfound := reach.met_keeps World.steps (fun _ _ => exec_steps)
      (fun w => (w.participants.find? row.id).isSome)
      (fun x _ hx => by
        obtain ⟨old, hold⟩ := Option.isSome_iff_exists.mp hx
        obtain ⟨old', hold', -⟩ := participant_step hold
        exact Option.isSome_iff_exists.mpr ⟨old', hold'⟩)
      (.inr ⟨s, hs', rfl⟩) hw (Nat.le_of_lt (not_le.mp hlt)) hthere
    rw [hmissing] at hfound
    cases hfound
  unfold newcomers during
  rw [List.mem_dedup, List.mem_filter, List.mem_filterMap]
  exact ⟨⟨s, List.mem_filter.mpr ⟨hs', by simp [hafter, hbefore]⟩, htoken⟩, by simp [hmissing]⟩

/-- Between two states, only newcomers become VERIFIED that were not there before. -/
theorem verified_le (reach : Reachable env cfg) {w w' : World} (hw : cfg.Met w) (hw' : cfg.Met w') :
    w'.participants.rows.countP (·.trustStatus = .verified) ≤
      w.participants.rows.length + (newcomers w w' cfg.trace).length := by
  have hnodup : ((w'.participants.rows.filter (·.trustStatus = .verified)).map
      Participant.id).Nodup := w'.participants.nodup.sublist (List.filter_sublist.map _)
  have hsub : (w'.participants.rows.filter (·.trustStatus = .verified)).map Participant.id ⊆
      w.participants.rows.map Participant.id ++ newcomers w w' cfg.trace := by
    intro p hp
    obtain ⟨row, hrow, rfl⟩ := List.mem_map.mp hp
    obtain ⟨hmem, hverified⟩ := List.mem_filter.mp hrow
    rw [List.mem_append]
    cases hold : w.participants.find? row.id with
    | some old =>
      obtain ⟨hold, hid⟩ := Table.find?_eq_some.mp hold
      exact .inl (List.mem_map.mpr ⟨old, hold, hid⟩)
    | none => exact .inr (verified_newcomer reach hw hw' hmem (of_decide_eq_true hverified) hold)
  have hlen := (List.subperm_of_subset hnodup hsub).length_le
  rw [List.length_map, ← List.countP_eq_length_filter, List.length_append, List.length_map] at hlen
  exact hlen

/-! ### What is returned -/

/-- The inequalities between the counts, up to what happened between the reads: `read q` is the
state that the query `q` has met. -/
structure Accounted (tenantId : Option String) (trace : Trace) (read : StatsQuery → World)
    (stats : Stats) : Prop where
  active : stats.devices.active ≤ stats.devices.total +
    (during World.steps (read .totalDevices) (read .activeDevices) trace).countP
      (enrolled tenantId)
  hardwareBound : stats.devices.hardwareBound ≤ stats.devices.total +
    (during World.steps (read .totalDevices) (read .hwBoundDevices) trace).countP
      (enrolled tenantId)
  verified : stats.participants.verified ≤ stats.participants.total +
    (newcomers (read .totalParticipants) (read .verifiedParticipants) trace).length
  verifiedRate : newcomers (read .totalParticipants) (read .verifiedParticipants) trace = [] →
    stats.participants.verifiedRate ≤ 100
  failed : stats.participants.verified + stats.participants.failed ≤ stats.participants.total +
    min ((during World.steps (read .totalParticipants) (read .verifiedParticipants) trace).countP
        joined)
      ((during World.steps (read .totalParticipants) (read .failedParticipants) trace).countP
        joined) +
    (during World.steps (read .verifiedParticipants) (read .failedParticipants) trace).countP
      (turned .failed) +
    (during World.steps (read .failedParticipants) (read .verifiedParticipants) trace).countP
      (turned .verified)

/-- The calls of a meeting that has its tokens, and the enrolments. -/
def Attends : Call → Prop
  | .addParticipant _ _ _ | .bindDevice _ _ _ _ | .issueChallenge _ | .verifyResponse _ _ _
  | .enroll _ => True
  | _ => False

/-- None of these calls issues a join token. -/
theorem newcomers_attends {w w' : World} {trace : Trace}
    (h : ∀ e ∈ during World.steps w w' trace, Attends e.call) : newcomers w w' trace = [] := by
  have hnone : (during World.steps w w' trace).filterMap tokenFor = [] := by
    rw [List.filterMap_eq_nil_iff]
    intro e he
    have hcall := h e he
    unfold tokenFor
    split
    · rename_i hissue _
      rw [hissue] at hcall
      exact hcall.elim
    · rfl
  simp [newcomers, hnone]

/-- So while only such calls go on, no more participants are VERIFIED than there are. -/
theorem Accounted.attends {tenantId : Option String} {trace : Trace} {read : StatsQuery → World}
    {stats : Stats} (h : Accounted tenantId trace read stats)
    (hcalls : ∀ e ∈ during World.steps (read .totalParticipants) (read .verifiedParticipants) trace,
      Attends e.call) :
    stats.participants.verified ≤ stats.participants.total ∧
      stats.participants.verifiedRate ≤ 100 := by
  have hnone := newcomers_attends hcalls
  have hverified := h.verified
  rw [hnone] at hverified
  exact ⟨hverified, h.verifiedRate hnone⟩

section Bounds

variable {w w' : World}

/-- Devices with a property, counted after or before all devices. -/
theorem devices_le (reach : Reachable env cfg) (hw : cfg.Met w) (hw' : cfg.Met w')
    (tenantId : Option String) (p : Device → Bool) :
    (w'.devices.rows.countP fun row => within tenantId row.tenantId && p row) ≤
      StatsQuery.count tenantId w .totalDevices +
        (during World.steps w w' cfg.trace).countP (enrolled tenantId) := by
  calc (w'.devices.rows.countP fun row => within tenantId row.tenantId && p row)
      ≤ StatsQuery.count tenantId w' .totalDevices :=
        List.countP_mono_left fun row _ h => (Bool.and_eq_true_iff.mp h).1
    _ ≤ _ := reach.met_le_of_mono World.steps (fun _ _ => exec_steps)
        (fun w => StatsQuery.count tenantId w .totalDevices) (enrolled tenantId)
        (fun x hx => (devices_step reach hx tenantId).2)
        (fun x hx => (devices_step reach hx tenantId).1) hw hw'

theorem participants_le (reach : Reachable env cfg) (hw : cfg.Met w) (hw' : cfg.Met w') :
    w'.participants.rows.length ≤ w.participants.rows.length +
      (during World.steps w w' cfg.trace).countP joined :=
  reach.met_le_of_mono World.steps (fun _ _ => exec_steps)
    (fun w => w.participants.rows.length) joined
    (fun _ hx => (participants_step reach hx).2) (fun _ hx => (participants_step reach hx).1) hw hw'

/-- No participant has two statuses. -/
theorem statuses_le (w : World) {status status' : TrustStatus} (h : status ≠ status') :
    w.participants.rows.countP (·.trustStatus = status) +
      w.participants.rows.countP (·.trustStatus = status') ≤ w.participants.rows.length := by
  induction w.participants.rows with
  | nil => simp
  | cons row rows ih =>
    simp only [List.countP_cons, List.length_cons, decide_eq_true_eq]
    split <;> split <;> first | omega | (exfalso; simp_all)

/-- Two statuses, counted one after the other. -/
theorem statuses_later_le (reach : Reachable env cfg) (hw : cfg.Met w) (hw' : cfg.Met w')
    (hle : w.steps ≤ w'.steps) {status status' : TrustStatus} (h : status ≠ status')
    (hstatus' : status' ≠ .unknown) :
    w.participants.rows.countP (·.trustStatus = status) +
      w'.participants.rows.countP (·.trustStatus = status') ≤ w.participants.rows.length +
        (during World.steps w w' cfg.trace).countP (turned status') := by
  have hlater := reach.met_le World.steps (fun _ _ => exec_steps)
    (fun w => w.participants.rows.countP (·.trustStatus = status')) (turned status')
    (fun x hx => status_step reach hx hstatus') hw hw' hle
  have hnow := statuses_le w h
  omega

end Bounds

/-- Whatever runs while the queries are answered, the counts are consistent up to that. -/
theorem stats_consistent {read : StatsQuery → World} (h : Reading env cfg seen)
    (hall : ∀ q, seen q = some (read q)) (tenantId : Option String) :
    Accounted tenantId cfg.trace read (collect fun q => q.count tenantId (read q)) := by
  have reach := h.reachable
  have hmet : ∀ q, cfg.Met (read q) := fun q => h.met q _ (hall q)
  have hverified := verified_le reach (hmet .totalParticipants) (hmet .verifiedParticipants)
  refine ⟨?_, ?_, hverified, ?_, ?_⟩
  · exact devices_le reach (hmet _) (hmet _) tenantId _
  · exact devices_le reach (hmet _) (hmet _) tenantId _
  · intro hnone
    rw [hnone] at hverified
    exact verifiedRate_le hverified
  · have hv := participants_le reach (hmet .totalParticipants) (hmet .verifiedParticipants)
    have hf := participants_le reach (hmet .totalParticipants) (hmet .failedParticipants)
    show (read .verifiedParticipants).participants.rows.countP _ +
      (read .failedParticipants).participants.rows.countP _ ≤
        (read .totalParticipants).participants.rows.length + _ + _ + _
    rcases Nat.le_total (read .verifiedParticipants).steps (read .failedParticipants).steps
      with hle | hle
    · have hmono := during_mono (s := read .totalParticipants) hle joined cfg.trace
      have hsum := statuses_later_le reach (hmet _) (hmet _) hle
        (by decide : TrustStatus.verified ≠ .failed) (by decide)
      omega
    · have hmono := during_mono (s := read .totalParticipants) hle joined cfg.trace
      have hsum := statuses_later_le reach (hmet _) (hmet _) hle
        (by decide : TrustStatus.failed ≠ .verified) (by decide)
      omega

theorem Reading.sequence (h : Reading env cfg seen) (cs : List Call) :
    Reading env (cfg.sequence (hub env) cs) seen :=
  sequence_keeps (P := fun cfg => Reading env cfg seen) (fun _ c h => .start c h)
    (fun _ _ _ _ _ h hcall => .perform h hcall) cs h

/-! ### Queries while devices enroll and a device answers -/

section Sample

/-- Two hardware-bound devices are enrolled, and alice's device answers with a false signature. -/
def load : List Call :=
  [.enroll ⟨"tenant-acme", "laptop-2", "alice", "alice", "pem-2", .missing, .value true⟩,
    .enroll ⟨"tenant-acme", "laptop-3", "alice", "alice", "pem-3", .missing, .value true⟩,
    .verifyResponse (Sample.uuid 22) "laptop-1" "forged"]

/-- Alice is VERIFIED and challenged. -/
def calm : HubConfig := Sample.run (Sample.env 0 0) (Sample.challenged (Sample.env 0 0))

def loaded : HubConfig := calm.sequence (hub (Sample.env 0 0)) load

/-- The totals and the VERIFIED participants are counted before, the others after. -/
def readAround : StatsQuery → World
  | .totalDevices | .totalParticipants | .verifiedParticipants => calm.store
  | _ => loaded.store

theorem reading_around : ∃ seen, Reading (Sample.env 0 0) loaded seen ∧
    ∀ q, seen q = some (readAround q) := by
  have hstart : Reading (Sample.env 0 0) calm fun _ => none := .begin (Sample.run_reachable _ _)
  have hbefore := ((hstart.query .totalDevices rfl).query .totalParticipants rfl).query
    .verifiedParticipants rfl
  have hafter := ((((hbefore.sequence load).query .activeDevices rfl).query .hwBoundDevices
    rfl).query .totalMeetings rfl).query .failedParticipants rfl
  refine ⟨_, hafter.query .totalAuditEvents rfl, fun q => ?_⟩
  cases q <;> rfl

theorem stats_consistent_sample : Accounted none loaded.trace readAround
    (collect fun q => q.count none (readAround q)) := by
  obtain ⟨seen, hreading, hall⟩ := reading_around
  exact stats_consistent hreading hall none

/-- More devices are active than there are, more are hardware-bound than there are, and one
participant is counted as VERIFIED and as FAILED. -/
theorem stats_mixed : ∃ seen, Reading (Sample.env 0 0) loaded seen ∧
    (∀ q, seen q = some (readAround q)) ∧
    collect (fun q => q.count none (readAround q)) =
      ⟨⟨1, 3, 2⟩, 1, ⟨1, 1, 1, 100⟩, 8, 1⟩ := by
  obtain ⟨seen, hreading, hall⟩ := reading_around
  exact ⟨seen, hreading, hall, by decide +kernel⟩

end Sample

end TroofAI.Hub
