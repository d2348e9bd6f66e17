import TroofAI.History.Provenance
import TroofAI.Hub.Sample

/-!
The demo tenant.

`ensureDemoTenant` looks the tenant up by its name and creates it when it is missing. Calls at the
same time can each find it missing. But the hub seeds it when it starts, before it serves any request
(`AppModule.onModuleInit`). Once the tenant is there and no call is about to create one, none is
created any more, and every request for the demo tenant is answered with that one
(`demo_tenant_stays`).
-/

namespace TroofAI.Hub

open TroofAI.Await

variable {env : Env} {cfg : HubConfig} {t : Tenant} {i : Nat}

/-- The row that a lookup of the demo tenant finds. -/
def World.demoTenant (env : Env) (w : World) : Option Tenant :=
  w.tenantNamed env.tenantOrder "TroofAI Demo"

/-- Call `i` has found the demo tenant missing, and has not yet tried to create it. -/
def AboutToSeed (i : Nat) (trace : Trace) : Prop :=
  own i trace = [⟨.tenantFindFirst "TroofAI Demo", .ok none⟩]

/-- The history of an `ensureDemoTenant` call that returned `reply`. -/
inductive DemoTenantDone : List Event → Reply → Prop where
  | found {row} :
      DemoTenantDone [⟨.tenantFindFirst "TroofAI Demo", .ok (some row)⟩] (.tenant row)
  | created {row} :
      DemoTenantDone [⟨.tenantCreate "TroofAI Demo", .ok row⟩,
        ⟨.tenantFindFirst "TroofAI Demo", .ok none⟩] (.tenant row)

theorem demoTenant_returned (reach : Reachable env cfg) {reply : Reply}
    (hcall : cfg.calls[i]? = some (.ensureDemoTenant, .done (.ok reply))) :
    DemoTenantDone (own i cfg.trace) reply := by
  let done (c : Call) (past : List Event) (reply : Reply) : Prop :=
    c = .ensureDemoTenant → DemoTenantDone past reply
  have hbody : ∀ c, Prog.Obeys (fun _ _ => True) (done c) [] (Call.body env c) := by
    intro c
    cases c with
    | ensureDemoTenant =>
      refine Prog.obeys_map.mpr (Prog.obeys_perform_bind.mpr ⟨trivial, fun existing => ?_⟩)
      cases existing with
      | some row => exact fun _ => .found
      | none =>
        show Prog.Obeys _ _ _ (call (.tenantCreate "TroofAI Demo"))
        refine (Prog.obeys_perform (P := fun _ _ => True)).mpr ⟨trivial, ?_⟩
        intro row _
        exact DemoTenantDone.created
    | _ =>
      refine .mono (fun _ _ h => h) ?_ (Prog.obeys_trivial _)
      rintro past reply - ⟨⟩
  exact reach.final hbody hcall rfl

/-- Only the creation of a tenant changes the tenants. -/
theorem exec_keeps_tenants {op : Op} {w : World} (h : ∀ name, op ≠ .tenantCreate name) :
    (exec env op w).2.tenants = w.tenants := by
  apply exec_tenants
  intro hpart
  cases op <;> cases hpart
  exact h _ rfl

/-- A lookup answers with the tenant that is there. -/
theorem find_demoTenant {e : HubEntry} {found : Option Tenant} (reach : Reachable env cfg)
    (he : e ∈ cfg.trace) (hev : e.ev = ⟨.tenantFindFirst "TroofAI Demo", .ok found⟩) :
    e.before.demoTenant env = found := by
  have hdid := hub_did reach he hev
  rcases @exec_cases env e.before (.tenantFindFirst "TroofAI Demo") with hx | hx
  · rw [hx] at hdid
    cases hdid
  · rw [hx] at hdid
    exact (Except.ok.inj hdid.symm).symm

/-- Nobody who looks the tenant up while it is there creates it. -/
theorem no_seed {later newer older : Trace} {x : HubEntry} {name : String}
    (reach : Reachable env cfg) (ht : cfg.trace = later ++ x :: (newer ++ older))
    (hquiet : ∀ i, ¬ AboutToSeed i older)
    (hmet : ∀ y ∈ newer, y.before.demoTenant env = some t) : x.ev.op ≠ .tenantCreate name := by
  intro hop
  have hpoint := hub_point reach ht
  rw [hop] at hpoint
  have hown : own x.id (newer ++ older) = [⟨.tenantFindFirst "TroofAI Demo", .ok none⟩] := by
    generalize own x.id (newer ++ older) = past at hpoint
    generalize x.call = c at hpoint
    cases c <;> cases hpoint
    case ensureDemoTenant.create => rfl
    case issueChallenge.turn hturn => cases hturn
    all_goals contradiction
  rw [own_append] at hown
  rcases List.append_eq_singleton_iff.mp hown with ⟨-, hold⟩ | ⟨hnew, -⟩
  · exact hquiet x.id hold
  · obtain ⟨f, hf, -, hfev⟩ := mem_own.mp (hnew ▸ List.mem_singleton_self _)
    have hmem : f ∈ cfg.trace := by
      rw [ht]
      simp [hf]
    have hnone := find_demoTenant reach hmem hfev
    rw [hmet f hf] at hnone
    cases hnone

/-- The tenants that the events after `e` have met, and that are there now. -/
theorem tenants_stay {later earlier : Trace} {e : HubEntry} (reach : Reachable env cfg)
    (ht : cfg.trace = later ++ e :: earlier)
    (hfound : (exec env e.ev.op e.before).2.demoTenant env = some t)
    (hquiet : ∀ i, ¬ AboutToSeed i (e :: earlier)) :
    cfg.store.tenants = (exec env e.ev.op e.before).2.tenants ∧
      ∀ y ∈ later, y.before.tenants = (exec env e.ev.op e.before).2.tenants := by
  induction later generalizing cfg with
  | nil =>
    refine ⟨?_, fun _ hy => absurd hy List.not_mem_nil⟩
    exact reach.carry (fun w => w.tenants = (exec env e.ev.op e.before).2.tenants) ht rfl
      fun _ hy => absurd hy List.not_mem_nil
  | cons x later ih =>
    obtain ⟨mid, -, hmid, htrace, hstore, -⟩ := reach.cut (show cfg.trace = [] ++ x :: _ from ht)
    obtain ⟨hnow, hmet⟩ := ih hmid htrace
    rw [hstore] at hnow
    have hdemo : ∀ y ∈ later, y.before.demoTenant env = some t := by
      intro y hy
      unfold World.demoTenant World.tenantNamed at hfound ⊢
      rw [hmet y hy, hfound]
    have hkeeps : (exec env x.ev.op x.before).2.tenants = x.before.tenants :=
      exec_keeps_tenants fun name =>
        no_seed reach (show cfg.trace = [] ++ x :: _ from ht) hquiet hdemo
    constructor
    · refine reach.carry (fun w => w.tenants = (exec env e.ev.op e.before).2.tenants)
        (show cfg.trace = [] ++ x :: _ from ht) (hkeeps.trans hnow) ?_
      exact fun _ hy => absurd hy List.not_mem_nil
    · intro y hy
      rcases List.mem_cons.mp hy with rfl | hy
      · exact hnow
      · exact hmet y hy

/-- After an event that left the demo tenant there, with no call about to create one, the tenants
stay as they are, and every request for the demo tenant that begins later is answered with it. -/
theorem demo_tenant_stays {later earlier : Trace} {e : HubEntry} (reach : Reachable env cfg)
    (ht : cfg.trace = later ++ e :: earlier)
    (hfound : (exec env e.ev.op e.before).2.demoTenant env = some t)
    (hquiet : ∀ i, ¬ AboutToSeed i (e :: earlier)) :
    cfg.store.tenants = (exec env e.ev.op e.before).2.tenants ∧
      ∀ i reply, cfg.calls[i]? = some (.ensureDemoTenant, .done (.ok reply)) →
        own i (e :: earlier) = [] → reply = .tenant t := by
  obtain ⟨hnow, hmet⟩ := tenants_stay reach ht hfound hquiet
  have hdemo : ∀ y ∈ later, y.before.demoTenant env = some t := by
    intro y hy
    unfold World.demoTenant World.tenantNamed at hfound ⊢
    rw [hmet y hy, hfound]
  refine ⟨hnow, ?_⟩
  intro i reply hcall hnew
  have hdone := demoTenant_returned reach hcall
  have hown : own i cfg.trace = own i later := by
    rw [ht, own_append, hnew, List.append_nil]
  rw [hown] at hdone
  generalize hpast : own i later = past at hdone
  cases hdone with
  | @found row =>
    obtain ⟨f, hf, -, hfev⟩ := mem_own.mp (hpast ▸ List.mem_singleton_self _)
    have hmem : f ∈ cfg.trace := by
      rw [ht]
      simp [hf]
    have hrow := find_demoTenant reach hmem hfev
    rw [hdemo f hf] at hrow
    rw [Option.some.inj hrow]
  | @created row =>
    obtain ⟨last, f, first, rfl, -, hfev, -, -⟩ := own_head hpast
    have hcut : cfg.trace = last ++ f :: (first ++ e :: earlier) := by
      simp [ht]
    exact absurd (congrArg Ev.op hfev)
      (no_seed reach hcut hquiet fun y hy => hdemo y (by simp [hy]))

/-- A call that ran alone so far and has done two operations is not about to create the tenant, nor
is any other. -/
theorem not_aboutToSeed {trace : Trace} (hboot : ∀ e ∈ trace, e.id = 0) (htwo : trace.length = 2) :
    ¬ AboutToSeed i trace := by
  intro hseed
  unfold AboutToSeed own at hseed
  have hone := congrArg List.length hseed
  rw [List.length_map, List.length_singleton] at hone
  by_cases hi : i = 0
  · rw [List.filter_eq_self.mpr (by simpa [hi] using hboot), htwo] at hone
    omega
  · rw [List.filter_eq_nil_iff.mpr fun e he => by simp [hboot e he, Ne.symm hi]] at hone
    cases hone

/-- The hub seeds the tenant and is asked for it again after a meeting was created. -/
theorem demo_tenant_stays_sample : ∃ (cfg : HubConfig) (t : Tenant) (later earlier : Trace)
    (e : HubEntry), Reachable (Sample.env 0 0) cfg ∧ cfg.trace = later ++ e :: earlier ∧
    cfg.calls[2]? = some (.ensureDemoTenant, .done (.ok (.tenant t))) ∧
    (cfg.store.tenants = (exec (Sample.env 0 0) e.ev.op e.before).2.tenants ∧
      ∀ i reply, cfg.calls[i]? = some (.ensureDemoTenant, .done (.ok reply)) →
        own i (e :: earlier) = [] → reply = .tenant t) := by
  let env := Sample.env 0 0
  let cfg := Sample.run env [.ensureDemoTenant, .create "tenant-acme" "Standup", .ensureDemoTenant]
  let t : Tenant := ⟨Sample.uuid 1, "TroofAI Demo"⟩
  have hreach : Reachable env cfg := Sample.run_reachable _ _
  let seeded (_ : Trace) (e : HubEntry) (earlier : Trace) : Bool :=
    (e :: earlier).all (·.id = 0) && (e :: earlier).length = 2 &&
      (exec env e.ev.op e.before).2.demoTenant env = some t
  have hany : ((Sample.positions cfg.trace).any fun x => seeded x.1 x.2.1 x.2.2) = true := by
    decide +kernel
  obtain ⟨later, e, earlier, ht, hseeded⟩ := Sample.exists_position hany
  obtain ⟨⟨hboot, htwo⟩, hfound⟩ := by simpa [seeded] using hseeded
  have hlast : Sample.answered cfg 2 .ensureDemoTenant (.tenant t) = true := by
    decide +kernel
  refine ⟨cfg, t, later, earlier, e, hreach, ht, Sample.calls_of_answered hlast, ?_⟩
  apply demo_tenant_stays hreach ht hfound
  intro i
  exact not_aboutToSeed (by simpa using hboot) (by simpa using htwo)

end TroofAI.Hub
