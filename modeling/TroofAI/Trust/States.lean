import TroofAI.Trust.Authentic

/-!
What holds of every participant's row, whatever interleaving has led there.

A verdict VERIFIED or STALE is written on the strength of a challenge record, which may be
older than the last bind. It was stored for a participant that was bound, and a participant
that is bound stays bound: that is all the row needs (`trust_state`).
-/

namespace TroofAI.Hub

open TroofAI.Await MeetingService ChallengeService

/-- The fields of a participant's row fit together, and its device exists in `w`. -/
structure Participant.Sound (w : World) (row : Participant) : Prop where
  boundAt : row.deviceId.isSome ↔ row.boundAt.isSome
  device : ∀ d, row.deviceId = some d → (w.devices.find? d).isSome
  trusted : row.trustStatus = .verified ∨ row.trustStatus = .stale → row.deviceId.isSome
  status : row.trustStatus ∈ [.unknown, .verified, .stale, .failed]

variable {env : Env} {cfg : HubConfig} {p : String}

/-- Where `verifyResponse` writes a status, the participant is bound. -/
theorem verdict_bound (reach : Reachable env cfg) {later earlier : Trace} {e : HubEntry}
    {challengeId deviceId signature : String} {data : ParticipantUpdate}
    (ht : cfg.trace = later ++ e :: earlier)
    (hcall : e.call = .verifyResponse challengeId deviceId signature)
    (hop : e.ev.op = .participantUpdate p data) : e.before.Bound p := by
  have hwrite := hub_write reach ht hop
  rw [hcall] at hwrite
  obtain ⟨record, device, checkedAt, now, t, -, rfl, -, hown⟩ := hwrite.answer
  obtain ⟨pre, -, hpre, rfl, hstore, -⟩ := reach.cut ht
  have hget : own e.id pre.trace = [_, _, _, _, _] ++ _ :: [] := hown
  obtain ⟨between, g, rest, htg, -, hg, -⟩ := own_split hget
  obtain ⟨since, s, older, deadline, rfl, hstored, -⟩ := read_stored hpre htg hg
  obtain ⟨ttl, hs, -⟩ := hstored.ev
  have hts : pre.trace = (between ++ g :: since) ++ s :: older := by simp [htg]
  rw [← hstore]
  exact bound_stays hpre hts (stored_bound hpre hts hs)

/-- The fields that a write to the row sets fit together, if they did before. -/
theorem ParticipantWrite.sound {c : Call} {past : List Event} {data : ParticipantUpdate}
    (h : ParticipantWrite env c past p data) {row : Participant}
    (hboundAt : row.deviceId.isSome ↔ row.boundAt.isSome)
    (hverdict : (∃ challengeId deviceId signature,
      c = .verifyResponse challengeId deviceId signature) → row.deviceId.isSome) :
    ((data.apply row).deviceId.isSome ↔ (data.apply row).boundAt.isSome) ∧
      ((data.apply row).trustStatus = .verified ∨ (data.apply row).trustStatus = .stale →
        (data.apply row).deviceId.isSome) ∧
      (data.apply row).trustStatus ∈ [.unknown, .verified, .stale, .failed] := by
  cases h with
  | bind hacc => simp [ParticipantUpdate.apply, bindData]
  | noDevice hloop hrow hbound => simpa [ParticipantUpdate.apply, noDeviceData] using hboundAt
  | verdict hacc =>
    refine ⟨hboundAt, fun _ => hverdict ⟨_, _, _, rfl⟩, ?_⟩
    exact PolicyService.evaluate_status_mem

/-- In every reachable state every participant's row is sound, and a participant that was
bound when some event of the run took place is bound. -/
theorem trust_state (reach : Reachable env cfg) :
    (∀ p row, cfg.store.participants.find? p = some row → row.Sound cfg.store) ∧
    ∀ later e earlier p, cfg.trace = later ++ e :: earlier → e.before.Bound p →
      cfg.store.Bound p := by
  refine ⟨fun p row hfind => ?_, fun later e earlier p ht hbound => bound_stays reach ht hbound⟩
  have hfields : (row.deviceId.isSome ↔ row.boundAt.isSome) ∧
      (row.trustStatus = .verified ∨ row.trustStatus = .stale → row.deviceId.isSome) ∧
      row.trustStatus ∈ [.unknown, .verified, .stale, .failed] := by
    refine reach.throughout (fun w => ∀ row, w.participants.find? p = some row →
      (row.deviceId.isSome ↔ row.boundAt.isSome) ∧
      (row.trustStatus = .verified ∨ row.trustStatus = .stale → row.deviceId.isSome) ∧
      row.trustStatus ∈ [.unknown, .verified, .stale, .failed]) ?_ ?_ row hfind
    · rintro w ⟨tenants, rfl⟩ row hnone
      cases hnone
    · intro x hx ih row' hrow'
      have hstep : ParticipantStep env x.before p x.ev (some row') :=
        hrow' ▸ hub_participant reach hx p
      generalize hev : x.ev = ev at hstep
      generalize hnew : some row' = new at hstep
      cases hstep with
      | same => exact ih row' hnew.symm
      | @update data old hold =>
        cases hnew
        obtain ⟨later, earlier, ht⟩ := List.append_of_mem hx
        refine (hub_write reach ht (congrArg Ev.op hev)).sound (ih old hold).1 ?_
        rintro ⟨challengeId, deviceId, signature, hcall⟩
        obtain ⟨d, r, hr, hd⟩ := verdict_bound reach ht hcall (by rw [hev])
        rw [hold] at hr
        cases hr
        rw [hd]
        rfl
      | @create data =>
        cases hnew
        obtain ⟨later, earlier, ht⟩ := List.append_of_mem hx
        have hpoint := hub_point reach ht
        rw [hev] at hpoint
        obtain ⟨_, _, _, _, -, rfl, -⟩ := point_participantCreate hpoint
        simp [ParticipantCreate.row]
  refine ⟨hfields.1, fun d hd => ?_, hfields.2.1, hfields.2.2⟩
  exact Option.isSome_iff_exists.mpr (bound_device reach ⟨row, hfind, hd⟩)

/-- Alice's participant, challenged: its row is sound, and it is bound as it was when the
challenge was issued. -/
theorem trust_state_challenged :
    let cfg := Sample.run (Sample.env 0 0) (Sample.challenged (Sample.env 0 0))
    ∃ row, cfg.store.participants.find? (Sample.uuid 7) = some row ∧ row.Sound cfg.store ∧
      cfg.store.Bound (Sample.uuid 7) := by
  intro cfg
  have hreach : Reachable (Sample.env 0 0) cfg := Sample.run_reachable _ _
  have hrow : (cfg.store.participants.find? (Sample.uuid 7)).isSome = true := by decide +kernel
  have hany : cfg.trace.any (fun e => decide (e.before.BoundTo (Sample.uuid 7) "laptop-1")) =
      true := by decide +kernel
  obtain ⟨row, hrow⟩ := Option.isSome_iff_exists.mp hrow
  obtain ⟨later, e, earlier, ht, he⟩ := Sample.exists_event hany
  obtain ⟨hsound, hstays⟩ := trust_state hreach
  exact ⟨row, hrow, hsound _ row hrow, hstays later e earlier _ ht ⟨_, of_decide_eq_true he⟩⟩

end TroofAI.Hub
