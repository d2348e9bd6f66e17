import TroofAI.Agent.Program
import TroofAI.History.Alone
import TroofAI.History.Growth
import TroofAI.Hub.Requests
import TroofAI.Hub.Sample
import Mathlib.Logic.Relation

/-!
An agent that is started again and again, and the hub.

The first start that succeeds writes down the device id and the tenant, and every later one goes on
under these: the agent stays the same device of the same tenant for good, whatever happens to the
hub (`identity_kept`). The key may be another one at every start, but each start enrols the key it
signs with. So a running agent and the hub's row of its device agree on the tenant, the user and the
key (`launches_agree`), unless somebody else enrols the device, or the request of an earlier start,
ended before it was answered, is carried out when a newer one has been.
-/

namespace TroofAI.Hub

open TroofAI.Await TroofAI.Agent TroofAI.Agent.Program DeviceService

/-! ### The hub and the starts of one agent -/

inductive Phase where
  | off
  /-- the request of the attempt is the call with that number -/
  | enrolling (i : Nat) (a : Attempt)
  | running (a : Attempt)

/-- The machine of the agent: the file, the keys, the process, and the requests its starts have sent,
newest first, each with the number of its call. -/
structure AgentState where
  file : Option String
  keys : CngStore
  requests : List (Nat × Attempt)
  phase : Phase

/-- The operation sets the key of the device `d`. -/
def Op.SetsKey (d : String) : Op → Prop
  | .deviceCreate data => data.id = d
  | .deviceUpdate id data => id = d ∧ (data.publicKeyPem.isSome ∨ data.hardwareBound.isSome)
  | _ => False

/-- One step of the hub or of the agent. The calls of the hub run in any interleaving, and the request
of a start that has ended goes on in the hub. -/
inductive LaunchStep (env : Env) : HubConfig × AgentState → HubConfig × AgentState → Prop where
  /-- A start sends its request. -/
  | launch {cfg agent} (start : Start) {a keys c} : agent.phase = .off →
      attempt agent.file agent.keys start = (some a, keys) →
      post ["devices", "enroll"] a.text = some c →
      LaunchStep env (cfg, agent) (cfg.start (hub env) c,
        ⟨agent.file, keys, (cfg.calls.length, a) :: agent.requests, .enrolling cfg.calls.length a⟩)
  /-- Or does not get as far. -/
  | stopped {cfg agent} (start : Start) {keys} : agent.phase = .off →
      attempt agent.file agent.keys start = (none, keys) →
      LaunchStep env (cfg, agent) (cfg, { agent with keys, phase := .off })
  | enrolled {cfg agent i a c r} : agent.phase = .enrolling i a →
      cfg.calls[i]? = some (c, .done (.ok r)) →
      LaunchStep env (cfg, agent) (cfg, { agent with
        file := a.enrolled.config.map EnrollmentService.saveConfig
        phase := .running a })
  /-- The enrolment has failed, as the agent sees it, or the process is ended. -/
  | exit {cfg agent} : LaunchStep env (cfg, agent) (cfg, { agent with phase := .off })
  | start {cfg agent} (c : Call) : LaunchStep env (cfg, agent) (cfg.start (hub env) c, agent)
  | perform {cfg agent i c op k} : cfg.calls[i]? = some (c, .await op k) →
      LaunchStep env (cfg, agent) (cfg.perform (hub env) i c op k, agent)

/-- A hub in any reachable state and an agent that has never been started. -/
def Unlaunched (env : Env) (s : HubConfig × AgentState) : Prop :=
  ∃ cfg keys, Reachable env cfg ∧ s = (cfg, ⟨none, keys, [], .off⟩)

/-- What becomes of them. -/
def Launched (env : Env) (s : HubConfig × AgentState) : Prop :=
  ∃ s₀, Unlaunched env s₀ ∧ Relation.ReflTransGen (LaunchStep env) s₀ s

/-! ### Nobody else enrols the device -/

variable {env : Env}

/-- The agent is enrolled as the device `d`, or is about to be. -/
def AgentState.Uses (agent : AgentState) (d : String) : Prop :=
  (∃ config, EnrollmentService.loadConfig agent.file = some (some config) ∧ config.deviceId = d) ∨
    ∃ i a, agent.phase = .enrolling i a ∧ a.deviceId = d

/-- The call `i` has set the key of the device `d`. -/
def HasSetKey (cfg : HubConfig) (i : Nat) (d : String) : Prop :=
  ∃ ev ∈ own i cfg.trace, ev.op.SetsKey d ∧ ev.res.isOk

/-- The hub has no device `d`, and no call enrols one. -/
structure NewDevice (cfg : HubConfig) (d : String) : Prop where
  absent : cfg.store.devices.find? d = none
  unasked : ∀ x ∈ cfg.calls, ∀ dto, x.1 = .enroll dto → dto.deviceId ≠ d

/-- What a step may do to the agent's device: an id that a start draws is new, a call that sets the
key of the device is one of the agent's own requests, and none that was sent later has set it. -/
structure Undisputed (s s' : HubConfig × AgentState) : Prop where
  drawn : ∀ i a, s.2.phase = .off → s.2.file = none → s'.2.phase = .enrolling i a →
    NewDevice s.1 a.deviceId
  written : ∀ e d, s'.1.trace = e :: s.1.trace → s.2.Uses d → e.ev.op.SetsKey d →
    (∃ a, (e.id, a) ∈ s.2.requests) ∧
      ∀ r ∈ s.2.requests, e.id < r.1 → ¬ HasSetKey s.1 r.1 d

def UndisputedStep (env : Env) (s s' : HubConfig × AgentState) : Prop :=
  LaunchStep env s s' ∧ Undisputed s s'

theorem UndisputedStep.launches {s s' : HubConfig × AgentState}
    (h : Relation.ReflTransGen (UndisputedStep env) s s') :
    Relation.ReflTransGen (LaunchStep env) s s' := by
  induction h with
  | refl => exact .refl
  | tail _ hstep ih => exact ih.tail hstep.1

/-- What becomes of a hub and an agent by such steps. -/
def LaunchedAlone (env : Env) (s : HubConfig × AgentState) : Prop :=
  ∃ s₀, Unlaunched env s₀ ∧ Relation.ReflTransGen (UndisputedStep env) s₀ s

/-! ### The rows of the device -/

variable {w : World} {op : Op} {a : Attempt} {d t u : String}

/-- The row of the device has the key of the attempt. -/
def World.HasKey (w : World) (a : Attempt) : Prop :=
  ∃ row, w.devices.find? a.deviceId = some row ∧ row.publicKeyPem = a.key.getPublicKeyPem ∧
    row.hardwareBound = a.key.hardwareBound

/-- The row of the device, if there is one, belongs to the tenant and the user. -/
def World.Owned (w : World) (d tenantId userId : String) : Prop :=
  ∀ row, w.devices.find? d = some row → row.tenantId = tenantId ∧ row.userId = userId

theorem exec_hasKey (h : w.HasKey a) (hop : ¬ op.SetsKey a.deviceId) :
    (exec env op w).2.HasKey a := by
  obtain ⟨row, hrow, hkey, hhardware⟩ := h
  have hstep : DeviceStep env w a.deviceId ⟨op, (exec env op w).1⟩
    ((exec env op w).2.devices.find? a.deviceId) := exec_device a.deviceId
  unfold World.HasKey
  generalize (exec env op w).2.devices.find? a.deviceId = new at hstep ⊢
  generalize (exec env op w).1 = res at hstep
  generalize hev : (⟨op, res⟩ : Ev Op.Resp HubError) = ev at hstep
  cases hstep with
  | same => exact ⟨row, hrow, hkey, hhardware⟩
  | @update data old hold =>
    cases hev
    rw [hrow] at hold
    cases hold
    simp only [Op.SetsKey, true_and, not_or, Bool.not_eq_true, Option.isSome_eq_false_iff,
      Option.isNone_iff_eq_none] at hop
    refine ⟨_, rfl, ?_, ?_⟩
    · simpa [DeviceUpdate.apply, hop.1] using hkey
    · simpa [DeviceUpdate.apply, hop.2] using hhardware
  | create hnone =>
    rw [hrow] at hnone
    cases hnone
  | @revoke old hold =>
    rw [hrow] at hold
    cases hold
    exact ⟨_, rfl, hkey, hhardware⟩

/-- The owner of a row stays, and a row that is created has the owner that is given. -/
theorem exec_owned (h : w.Owned d t u)
    (hop : ∀ data, op = .deviceCreate data → data.id = d → data.tenantId = t ∧ data.userId = u) :
    (exec env op w).2.Owned d t u := by
  have hstep : DeviceStep env w d ⟨op, (exec env op w).1⟩
    ((exec env op w).2.devices.find? d) := exec_device d
  intro row hrow
  rw [hrow] at hstep
  generalize hnew : some row = new at hstep
  generalize (exec env op w).1 = res at hstep
  generalize hev : (⟨op, res⟩ : Ev Op.Resp HubError) = ev at hstep
  cases hstep with
  | same => exact h row hnew.symm
  | update hold =>
    cases hnew
    have howned := h _ hold
    exact howned
  | @create data _ hid =>
    cases hev
    cases hnew
    exact hop data rfl hid.symm
  | revoke hold =>
    cases hnew
    have howned := h _ hold
    exact howned

/-! ### The agent's own enrolment -/

/-- The hub understands the request. -/
theorem post_attempt (a : Attempt) : post ["devices", "enroll"] a.text = some (.enroll a.dto) := by
  unfold Attempt.text EnrollmentService.payloadText post
  simp only [Json.parse_print]
  rfl

/-- A write of the enrolment gives the row the key of the attempt. -/
theorem enroll_hasKey {past : List Event} (hpoint : EnrollPoint a.dto past op)
    (hop : op.SetsKey a.deviceId) (hok : (exec env op w).1.isOk) : (exec env op w).2.HasKey a := by
  cases hpoint with
  | @update device t =>
    cases hres : (exec env (.deviceUpdate a.dto.deviceId (reEnrollData a.dto t)) w).1 with
    | error e =>
      rw [hres] at hok
      cases hok
    | ok row' =>
      obtain ⟨row, hrow, rfl, heq⟩ := exec_deviceUpdate_ok hres
      refine ⟨(reEnrollData a.dto t).apply row, ?_, rfl, rfl⟩
      rw [heq, Table.find?_modify]
      exact (if_pos rfl).trans (congrArg _ hrow)
  | @create t =>
    cases hres : (exec env (.deviceCreate (enrollData a.dto t)) w).1 with
    | error e =>
      rw [hres] at hok
      cases hok
    | ok row =>
      obtain ⟨rfl, -, devices, hinsert, heq⟩ := exec_deviceCreate_ok hres
      refine ⟨(enrollData a.dto t).row (env.clock w.steps), ?_, rfl, rfl⟩
      rw [heq, Table.find?_insert? hinsert]
      exact if_pos rfl
  | find | clock | updateLog | createLog => cases hop

/-- It writes the row once. -/
theorem enroll_sets_once {dto : EnrollDeviceDto} {past : List Event} {ev : Event}
    (hpoint : EnrollPoint dto past op) (hev : ev ∈ past) (hsets : ev.op.SetsKey d) :
    ¬ op.SetsKey d := by
  intro hop
  cases hpoint with
  | update | create =>
    simp only [List.mem_cons, List.not_mem_nil, or_false] at hev
    rcases hev with rfl | rfl <;> cases hsets
  | find | clock | updateLog | createLog => cases hop

/-- It sets the key of no other device. -/
theorem enroll_sets {dto : EnrollDeviceDto} {past : List Event} (hpoint : EnrollPoint dto past op)
    (hop : op.SetsKey d) : dto.deviceId = d := by
  cases hpoint with
  | update => exact hop.1
  | create => exact hop
  | find | clock | updateLog | createLog => cases hop

/-- A row that it creates belongs to the attempt. -/
theorem enroll_owned {past : List Event} (hpoint : EnrollPoint a.dto past op)
    (h : w.Owned a.deviceId a.tenantId USER_ID) :
    (exec env op w).2.Owned a.deviceId a.tenantId USER_ID := by
  refine exec_owned h ?_
  rintro data rfl -
  cases hpoint with
  | create => exact ⟨rfl, rfl⟩

/-- An enrolment that returns has written the row. -/
theorem enroll_returned {cfg : HubConfig} (reach : Reachable env cfg) {i : Nat} {r : Reply}
    (hcall : cfg.calls[i]? = some (.enroll a.dto, .done (.ok r))) : HasSetKey cfg i a.deviceId := by
  obtain ⟨row, -, hdone⟩ := reach.final (body_obeys env) hcall
  unfold HasSetKey
  generalize own i cfg.trace = past at hdone
  cases hdone with
  | updated => exact ⟨_, List.mem_cons_of_mem _ List.mem_cons_self, ⟨rfl, .inl rfl⟩, rfl⟩
  | created => exact ⟨_, List.mem_cons_of_mem _ List.mem_cons_self, rfl, rfl⟩

/-! ### The file -/

variable {cfg : HubConfig} {agent : AgentState} {config : DeviceConfig}

/-- A saved file is the one it was saved as. -/
theorem saveConfig_inj {config config' : DeviceConfig}
    (h : some (EnrollmentService.saveConfig config) = some (EnrollmentService.saveConfig config')) :
    config = config' := by
  have hload := congrArg EnrollmentService.loadConfig h
  rw [EnrollmentService.loadConfig_saveConfig, EnrollmentService.loadConfig_saveConfig] at hload
  exact Option.some.inj (Option.some.inj hload)

/-- What the agent knows of itself: the file, where there is one, names it, and it goes by the file. -/
structure SelfKnown (agent : AgentState) : Prop where
  file : agent.file = none ∨ ∃ config, agent.file = some (EnrollmentService.saveConfig config) ∧
    config.tenantId ≠ "" ∧ config.userId = USER_ID
  enrolling : ∀ i a, agent.phase = .enrolling i a → a.tenantId ≠ "" ∧
    ∀ config, agent.file = some (EnrollmentService.saveConfig config) →
      a.deviceId = config.deviceId ∧ a.tenantId = config.tenantId
  running : ∀ a, agent.phase = .running a →
    agent.file = some (EnrollmentService.saveConfig ⟨a.deviceId, a.tenantId, USER_ID⟩)

theorem SelfKnown.saved (h : SelfKnown agent)
    (hfile : agent.file = some (EnrollmentService.saveConfig config)) :
    config.tenantId ≠ "" ∧ config.userId = USER_ID := by
  rcases h.file with hnone | ⟨config', hfile', hsaved⟩
  · rw [hnone] at hfile
    cases hfile
  · obtain rfl := saveConfig_inj (hfile'.symm.trans hfile)
    exact hsaved

theorem SelfKnown.of_off (hphase : agent.phase = .off)
    (hfile : agent.file = none ∨ ∃ config,
      agent.file = some (EnrollmentService.saveConfig config) ∧ config.tenantId ≠ "" ∧
        config.userId = USER_ID) : SelfKnown agent := by
  refine ⟨hfile, ?_, ?_⟩ <;> rw [hphase]
  · rintro i a ⟨⟩
  · rintro a ⟨⟩

theorem SelfKnown.step {s s' : HubConfig × AgentState} (h : SelfKnown s.2)
    (hstep : LaunchStep env s s') : SelfKnown s'.2 := by
  cases hstep with
  | @launch _ agent start a keys c hoff hattempt hpost =>
    refine ⟨h.file, ?_, by rintro a' ⟨⟩⟩
    rintro i a' ⟨⟩
    refine ⟨attempt_tenantId hattempt, fun config hfile => ?_⟩
    change agent.file = _ at hfile
    rw [hfile] at hattempt
    exact attempt_saved (h.saved hfile).1 hattempt
  | stopped start hoff hattempt => exact .of_off rfl h.file
  | @enrolled _ agent i a c r hphase hdone =>
    have hconfig : a.enrolled.config.map EnrollmentService.saveConfig =
        some (EnrollmentService.saveConfig ⟨a.deviceId, a.tenantId, USER_ID⟩) := by
      rw [a.enrolled_config]
      rfl
    refine ⟨.inr ⟨_, hconfig, (h.enrolling i a hphase).1, rfl⟩, by rintro j a' ⟨⟩, ?_⟩
    rintro a' ⟨⟩
    exact hconfig
  | exit => exact .of_off rfl h.file
  | start c => exact h
  | perform hcall => exact h

theorem SelfKnown.steps {s s' : HubConfig × AgentState} (h : SelfKnown s.2)
    (hsteps : Relation.ReflTransGen (LaunchStep env) s s') : SelfKnown s'.2 := by
  induction hsteps with
  | refl => exact h
  | tail _ hstep ih => exact ih.step hstep

theorem Unlaunched.self {s : HubConfig × AgentState} (h : Unlaunched env s) : SelfKnown s.2 := by
  obtain ⟨cfg, keys, -, rfl⟩ := h
  exact .of_off rfl (.inl rfl)

/-- Once there is a file it is never written otherwise. -/
theorem SelfKnown.file_kept {s s' : HubConfig × AgentState} (h : SelfKnown s.2)
    (hfile : s.2.file = some (EnrollmentService.saveConfig config))
    (hstep : LaunchStep env s s') : s'.2.file = s.2.file := by
  cases hstep with
  | @enrolled _ agent i a c r hphase _ =>
    obtain ⟨hdevice, htenant⟩ := (h.enrolling i a hphase).2 config hfile
    change agent.file = _ at hfile
    show a.enrolled.config.map EnrollmentService.saveConfig = agent.file
    rw [a.enrolled_config, hdevice, htenant, ← (h.saved hfile).2, hfile]
    rfl
  | _ => rfl

theorem SelfKnown.file_steps {s s' : HubConfig × AgentState} (h : SelfKnown s.2)
    (hfile : s.2.file = some (EnrollmentService.saveConfig config))
    (hsteps : Relation.ReflTransGen (LaunchStep env) s s') : s'.2.file = s.2.file := by
  induction hsteps with
  | refl => rfl
  | tail hbefore hstep ih =>
    exact ((h.steps hbefore).file_kept (ih.trans hfile) hstep).trans ih

/-- An agent that has once been enrolled remains the same device of the same tenant and user through
all its later starts, whatever is typed in at the console and whatever calls the hub serves. -/
theorem identity_kept {s s' : HubConfig × AgentState} {a' : Attempt} (h : Launched env s)
    (hrunning : s.2.phase = .running a) (hsteps : Relation.ReflTransGen (LaunchStep env) s s')
    (hrunning' : s'.2.phase = .running a') : a'.enrolled.identity = a.enrolled.identity := by
  obtain ⟨s₀, hnew, hbefore⟩ := h
  have hknown := hnew.self.steps hbefore
  have hfile := hknown.running a hrunning
  have hkept := hknown.file_steps hfile hsteps
  have hfile' := (hknown.steps hsteps).running a' hrunning'
  have hsame := saveConfig_inj (hfile.symm.trans (hkept.symm.trans hfile'))
  rw [a.enrolled_identity, a'.enrolled_identity, Enrollment.mk.injEq]
  simp only [DeviceConfig.mk.injEq] at hsame
  exact ⟨hsame.2.1.symm, hsame.1.symm, rfl⟩

/-! ### The device in the hub -/

/-- `i` is the number of the newest request of the agent, the attempt `a`. -/
structure NewestRequest (cfg : HubConfig) (agent : AgentState) (i : Nat) (a : Attempt) : Prop where
  call : ∃ p, cfg.calls[i]? = some (.enroll a.dto, p)
  sent : (i, a) ∈ agent.requests
  newest : ∀ r ∈ agent.requests, r.1 ≤ i

/-- The attempt `a` is under way as call `i`. Without a file no other request is for its device. -/
structure Enrolling (cfg : HubConfig) (agent : AgentState) (i : Nat) (a : Attempt) : Prop where
  newest : NewestRequest cfg agent i a
  only : agent.file = none → ∀ r ∈ agent.requests, r.2.deviceId = a.deviceId → r.1 = i
  owned : cfg.store.Owned a.deviceId a.tenantId USER_ID
  written : HasSetKey cfg i a.deviceId → cfg.store.HasKey a

structure Running (cfg : HubConfig) (agent : AgentState) (a : Attempt) : Prop where
  newest : ∃ i, NewestRequest cfg agent i a ∧ HasSetKey cfg i a.deviceId
  key : cfg.store.HasKey a

/-- The file names a device of the hub, with its tenant and its user. -/
structure Enrolled (w : World) (config : DeviceConfig) : Prop where
  row : ∃ row, w.devices.find? config.deviceId = some row
  owned : w.Owned config.deviceId config.tenantId USER_ID

structure AgentKnown (env : Env) (cfg : HubConfig) (agent : AgentState) : Prop where
  reach : Reachable env cfg
  self : SelfKnown agent
  requests : ∀ r ∈ agent.requests, ∃ p, cfg.calls[r.1]? = some (.enroll r.2.dto, p)
  file : ∀ config, agent.file = some (EnrollmentService.saveConfig config) →
    Enrolled cfg.store config
  enrolling : ∀ i a, agent.phase = .enrolling i a → Enrolling cfg agent i a
  running : ∀ a, agent.phase = .running a → Running cfg agent a

theorem World.Grows.owned {w w' : World} (h : w.Grows w')
    (hrow : ∃ row, w.devices.find? d = some row) (howned : w.Owned d t u) : w'.Owned d t u := by
  obtain ⟨row, hrow⟩ := hrow
  obtain ⟨row', hrow', hgrows⟩ := h.devices d row hrow
  intro row'' hrow''
  rw [hrow'] at hrow''
  cases hrow''
  rw [hgrows.tenantId, hgrows.userId]
  exact howned row hrow

theorem Enrolled.grows {w w' : World} (h : Enrolled w config) (hgrows : w.Grows w') :
    Enrolled w' config where
  row := by
    obtain ⟨row, hrow⟩ := h.row
    obtain ⟨row', hrow', -⟩ := hgrows.devices _ row hrow
    exact ⟨row', hrow'⟩
  owned := hgrows.owned h.row h.owned

/-- A call that has been started keeps its number. -/
theorem start_listed {i : Nat} {c' : Call} (c : Call) (h : ∃ p, cfg.calls[i]? = some (c', p)) :
    ∃ p, (cfg.start (hub env) c).calls[i]? = some (c', p) :=
  h.imp fun _ hp => start_calls.mpr (.inl hp)

theorem perform_listed {i j : Nat} {c c' : Call} {k : Except HubError op.Resp → Service Reply}
    (hcall : cfg.calls[j]? = some (c, .await op k)) (h : ∃ p, cfg.calls[i]? = some (c', p)) :
    ∃ p, (cfg.perform (hub env) j c op k).calls[i]? = some (c', p) := by
  obtain ⟨p, hp⟩ := h
  by_cases hij : i = j
  · subst hij
    rw [hp] at hcall
    cases hcall
    exact ⟨_, (perform_calls hp).mpr (.inl ⟨rfl, rfl, rfl⟩)⟩
  · exact ⟨p, (perform_calls hcall).mpr (.inr ⟨hij, hp⟩)⟩

theorem hasSetKey_perform {i j : Nat} {c : Call} {k : Except HubError op.Resp → Service Reply} :
    HasSetKey (cfg.perform (hub env) j c op k) i d ↔
      HasSetKey cfg i d ∨ i = j ∧ op.SetsKey d ∧ (exec env op cfg.store).1.isOk := by
  by_cases hij : i = j
  · subst hij
    have hown : own i (cfg.perform (hub env) i c op k).trace =
        ⟨op, (exec env op cfg.store).1⟩ :: own i cfg.trace := own_cons_self ..
    unfold HasSetKey
    rw [hown]
    simp [or_comm]
  · have hown : own i (cfg.perform (hub env) j c op k).trace = own i cfg.trace :=
      own_cons_ne (Ne.symm hij) _
    unfold HasSetKey
    rw [hown]
    simp [hij]

/-- An own request that sets the key of the device finds it not yet set by the newest one; it is the
newest one or an earlier one for the same device. -/
theorem AgentKnown.own_write {i j : Nat} {c : Call} {k : Except HubError op.Resp → Service Reply}
    (h : AgentKnown env cfg agent) (hnewest : NewestRequest cfg agent i a)
    (hcall : cfg.calls[j]? = some (c, .await op k)) (hsets : op.SetsKey a.deviceId)
    (hsent : ∃ b, (j, b) ∈ agent.requests)
    (hlate : ∀ r ∈ agent.requests, j < r.1 → ¬ HasSetKey cfg r.1 a.deviceId) :
    ¬ HasSetKey cfg i a.deviceId ∧ ((i = j ∧ ∃ past, EnrollPoint a.dto past op) ∨
      i ≠ j ∧ ∃ b, (j, b) ∈ agent.requests ∧ b.deviceId = a.deviceId) := by
  obtain ⟨b, hb⟩ := hsent
  have hpoint : c.Point env (own j cfg.trace) op := (h.reach.obeys (body_obeys env) j _ _ hcall).1
  rcases Nat.lt_or_eq_of_le (hnewest.newest _ hb) with hlt | heq
  · obtain ⟨p, hp⟩ := h.requests _ hb
    rw [hcall] at hp
    obtain ⟨rfl, -⟩ := Prod.mk.inj (Option.some.inj hp)
    exact ⟨hlate _ hnewest.sent hlt, .inr ⟨hlt.ne', b, hb, enroll_sets hpoint hsets⟩⟩
  · obtain rfl : j = i := heq
    obtain ⟨p, hp⟩ := hnewest.call
    rw [hcall] at hp
    obtain ⟨rfl, -⟩ := Prod.mk.inj (Option.some.inj hp)
    refine ⟨?_, .inl ⟨rfl, _, hpoint⟩⟩
    rintro ⟨ev, hev, hset, -⟩
    exact enroll_sets_once hpoint hev hset hsets

theorem NewestRequest.start {i : Nat} (h : NewestRequest cfg agent i a) (c : Call) :
    NewestRequest (cfg.start (hub env) c) agent i a :=
  ⟨start_listed c h.call, h.sent, h.newest⟩

theorem NewestRequest.perform {i j : Nat} {c : Call}
    {k : Except HubError op.Resp → Service Reply} (h : NewestRequest cfg agent i a)
    (hcall : cfg.calls[j]? = some (c, .await op k)) :
    NewestRequest (cfg.perform (hub env) j c op k) agent i a :=
  ⟨perform_listed hcall h.call, h.sent, h.newest⟩

/-- A step of the hub while the enrolment is under way: of the enrolment itself, of an earlier
request, or of a call that does not set the key. -/
theorem AgentKnown.enrolling_perform {i j : Nat} {c : Call}
    {k : Except HubError op.Resp → Service Reply} (h : AgentKnown env cfg agent)
    (hphase : agent.phase = .enrolling i a) (hcall : cfg.calls[j]? = some (c, .await op k))
    (hop : op.SetsKey a.deviceId → (∃ b, (j, b) ∈ agent.requests) ∧
      ∀ r ∈ agent.requests, j < r.1 → ¬ HasSetKey cfg r.1 a.deviceId) :
    Enrolling (cfg.perform (hub env) j c op k) agent i a := by
  have henrolling := h.enrolling i a hphase
  have hnewest := henrolling.newest
  by_cases hsets : op.SetsKey a.deviceId
  · obtain ⟨hsent, hlate⟩ := hop hsets
    obtain ⟨hfirst, ⟨rfl, past, hpoint⟩ | ⟨hne, b, hb, hdevice⟩⟩ :=
      h.own_write hnewest hcall hsets hsent hlate
    · -- the enrolment itself
      refine ⟨hnewest.perform hcall, henrolling.only, enroll_owned hpoint henrolling.owned, ?_⟩
      intro hset
      obtain ⟨-, -, hok⟩ := (hasSetKey_perform.mp hset).resolve_left hfirst
      exact enroll_hasKey hpoint hsets hok
    · -- an earlier request: there is a file, and the row has its owner
      refine ⟨hnewest.perform hcall, henrolling.only, ?_, ?_⟩
      · rcases h.self.file with hnone | ⟨config, hfile, -⟩
        · exact absurd (henrolling.only hnone _ hb hdevice).symm hne
        · obtain ⟨hid, htenant⟩ := (h.self.enrolling i a hphase).2 config hfile
          have howned := ((h.file config hfile).grows (exec_grows env op cfg.store)).owned
          rwa [← hid, ← htenant] at howned
      · intro hset
        rcases hasSetKey_perform.mp hset with hbefore | ⟨rfl, -⟩
        · exact absurd hbefore hfirst
        · exact absurd rfl hne
  · refine ⟨hnewest.perform hcall, henrolling.only, ?_, ?_⟩
    · refine exec_owned henrolling.owned ?_
      rintro data rfl hid
      exact absurd hid hsets
    · intro hset
      rcases hasSetKey_perform.mp hset with hbefore | ⟨-, hnow, -⟩
      · exact exec_hasKey (henrolling.written hbefore) hsets
      · exact absurd hnow hsets

/-- And while the agent runs. -/
theorem AgentKnown.running_perform {j : Nat} {c : Call}
    {k : Except HubError op.Resp → Service Reply} (h : AgentKnown env cfg agent)
    (hphase : agent.phase = .running a) (hcall : cfg.calls[j]? = some (c, .await op k))
    (hop : op.SetsKey a.deviceId → (∃ b, (j, b) ∈ agent.requests) ∧
      ∀ r ∈ agent.requests, j < r.1 → ¬ HasSetKey cfg r.1 a.deviceId) :
    Running (cfg.perform (hub env) j c op k) agent a := by
  obtain ⟨⟨i, hnewest, hset⟩, hkey⟩ := h.running a hphase
  refine ⟨⟨i, hnewest.perform hcall, hasSetKey_perform.mpr (.inl hset)⟩, exec_hasKey hkey ?_⟩
  intro hsets
  obtain ⟨hsent, hlate⟩ := hop hsets
  exact (h.own_write hnewest hcall hsets hsent hlate).1 hset

/-- A start sends its request. -/
theorem AgentKnown.launch {start : Start} {keys : CngStore} (h : AgentKnown env cfg agent)
    (hattempt : attempt agent.file agent.keys start = (some a, keys))
    (hdrawn : agent.file = none → NewDevice cfg a.deviceId) :
    Enrolling (cfg.start (hub env) (.enroll a.dto))
      ⟨agent.file, keys, (cfg.calls.length, a) :: agent.requests, .enrolling cfg.calls.length a⟩
      cfg.calls.length a := by
  refine ⟨⟨⟨_, start_calls.mpr (.inr ⟨rfl, rfl, rfl⟩)⟩, List.mem_cons_self, ?_⟩, ?_, ?_, ?_⟩
  · intro r hr
    rcases List.mem_cons.mp hr with rfl | hr
    · exact le_rfl
    · obtain ⟨p, hp⟩ := h.requests r hr
      exact (List.getElem?_eq_some_iff.mp hp).1.le
  · intro hnone r hr hdevice
    rcases List.mem_cons.mp hr with rfl | hr
    · rfl
    · obtain ⟨p, hp⟩ := h.requests r hr
      exact absurd hdevice ((hdrawn hnone).unasked _ (List.mem_of_getElem? hp) _ rfl)
  · rcases h.self.file with hnone | ⟨config, hfile, hsaved, -⟩
    · intro row hrow
      change cfg.store.devices.find? a.deviceId = some row at hrow
      rw [(hdrawn hnone).absent] at hrow
      cases hrow
    · rw [hfile] at hattempt
      obtain ⟨hdevice, htenant⟩ := attempt_saved hsaved hattempt
      rw [hdevice, htenant]
      exact (h.file config hfile).owned
  · rintro ⟨ev, hev, -⟩
    have hnew : own cfg.calls.length cfg.trace = [] := h.reach.own_new
    change ev ∈ own cfg.calls.length cfg.trace at hev
    rw [hnew] at hev
    cases hev

theorem AgentKnown.of_off (reach : Reachable env cfg) (hself : SelfKnown agent)
    (hphase : agent.phase = .off)
    (hrequests : ∀ r ∈ agent.requests, ∃ p, cfg.calls[r.1]? = some (.enroll r.2.dto, p))
    (hfile : ∀ config, agent.file = some (EnrollmentService.saveConfig config) →
      Enrolled cfg.store config) : AgentKnown env cfg agent := by
  refine ⟨reach, hself, hrequests, hfile, ?_, ?_⟩ <;> rw [hphase]
  · rintro i a ⟨⟩
  · rintro a ⟨⟩

theorem AgentKnown.step {s s' : HubConfig × AgentState} (h : AgentKnown env s.1 s.2)
    (hstep : LaunchStep env s s') (halone : Undisputed s s') : AgentKnown env s'.1 s'.2 := by
  have hself := h.self.step hstep
  cases hstep with
  | @launch cfg agent start a keys c hoff hattempt hpost =>
    rw [post_attempt] at hpost
    cases hpost
    refine ⟨.start _ h.reach, hself, ?_, h.file, ?_, by rintro a' ⟨⟩⟩
    · intro r hr
      rcases List.mem_cons.mp hr with rfl | hr
      · exact ⟨_, start_calls.mpr (.inr ⟨rfl, rfl, rfl⟩)⟩
      · exact start_listed _ (h.requests r hr)
    · rintro i a' ⟨⟩
      exact h.launch hattempt fun hnone => halone.drawn _ _ hoff hnone rfl
  | stopped start hoff hattempt => exact .of_off h.reach hself rfl h.requests h.file
  | @enrolled cfg agent i a c r hphase hdone =>
    have henrolling := h.enrolling i a hphase
    obtain ⟨p, hp⟩ := henrolling.newest.call
    change cfg.calls[i]? = some (.enroll a.dto, p) at hp
    rw [hp] at hdone
    cases hdone
    have hset := enroll_returned h.reach hp
    have hkey := henrolling.written hset
    refine ⟨h.reach, hself, h.requests, ?_, by rintro j a' ⟨⟩, ?_⟩
    · intro config hfile
      rw [a.enrolled_config] at hfile
      obtain rfl := saveConfig_inj hfile
      exact ⟨hkey.imp fun _ h => h.1, henrolling.owned⟩
    · rintro a' ⟨⟩
      have hnewest := henrolling.newest
      exact ⟨⟨i, ⟨hnewest.call, hnewest.sent, hnewest.newest⟩, hset⟩, hkey⟩
  | exit => exact .of_off h.reach hself rfl h.requests h.file
  | start c =>
    refine ⟨.start c h.reach, hself, fun r hr => start_listed c (h.requests r hr), h.file, ?_, ?_⟩
    · intro i a hphase
      have henrolling := h.enrolling i a hphase
      exact ⟨henrolling.newest.start c, henrolling.only, henrolling.owned, henrolling.written⟩
    · intro a hphase
      obtain ⟨⟨i, hnewest, hset⟩, hkey⟩ := h.running a hphase
      exact ⟨⟨i, hnewest.start c, hset⟩, hkey⟩
  | @perform cfg agent j c op k hcall =>
    refine ⟨.perform h.reach hcall trivial, hself,
      fun r hr => perform_listed hcall (h.requests r hr),
      fun config hfile => (h.file config hfile).grows (exec_grows env op cfg.store), ?_, ?_⟩
    · intro i a hphase
      refine h.enrolling_perform hphase hcall fun hsets => ?_
      exact halone.written _ _ rfl (.inr ⟨i, a, hphase, rfl⟩) hsets
    · intro a hphase
      refine h.running_perform hphase hcall fun hsets => ?_
      refine halone.written _ _ rfl (.inl ⟨⟨a.deviceId, a.tenantId, USER_ID⟩, ?_, rfl⟩) hsets
      rw [h.self.running a hphase]
      exact EnrollmentService.loadConfig_saveConfig _

theorem LaunchedAlone.known {s : HubConfig × AgentState} (h : LaunchedAlone env s) :
    AgentKnown env s.1 s.2 := by
  obtain ⟨s₀, hnew, hsteps⟩ := h
  induction hsteps with
  | refl =>
    have hself := hnew.self
    obtain ⟨cfg, keys, reach, rfl⟩ := hnew
    exact .of_off reach hself rfl (by simp) (by rintro config ⟨⟩)
  | tail _ hstep ih => exact ih.step hstep.1 hstep.2

/-- While an agent runs, the hub's row of its device has its tenant, its user and the key it signs
with, whatever became of the earlier starts and whatever other calls the hub has served. -/
theorem launches_agree (h : LaunchedAlone env (cfg, agent)) (hrunning : agent.phase = .running a) :
    ∃ row, cfg.store.devices.find? a.enrolled.identity.deviceId = some row ∧
      row.tenantId = a.enrolled.identity.tenantId ∧ row.userId = a.enrolled.identity.userId ∧
      row.publicKeyPem = a.key.getPublicKeyPem ∧ row.hardwareBound = a.key.hardwareBound := by
  obtain ⟨row, hrow, hkey, hhardware⟩ := (h.known.running a hrunning).key
  have henrolled := h.known.file _ (h.known.self.running a hrunning)
  obtain ⟨htenant, huser⟩ := henrolled.owned row hrow
  rw [a.enrolled_identity]
  exact ⟨row, hrow, htenant, huser, hkey, hhardware⟩

section Sample

/-- A step that is not one of the hub writes nothing there. -/
theorem Undisputed.quiet {s s' : HubConfig × AgentState} (ht : s'.1.trace = s.1.trace)
    (hdrawn : ∀ i a, s.2.phase = .off → s.2.file = none → s'.2.phase = .enrolling i a →
      NewDevice s.1 a.deviceId) : Undisputed s s' := by
  refine ⟨hdrawn, fun e d hcons => ?_⟩
  rw [ht] at hcons
  exact absurd (congrArg List.length hcons) (by simp)

/-- A start whose enrolment runs alone and succeeds. -/
theorem launch_alone {start : Start} {keys : CngStore} {file : Option String} {stored : CngStore}
    {requests : List (Nat × Attempt)}
    (hattempt : attempt file stored start = (some a, keys))
    (hdrawn : file = none → NewDevice cfg a.deviceId)
    (hearlier : ∀ r ∈ requests, r.1 < cfg.calls.length)
    (hresult : (aloneResult env (.enroll a.dto) cfg.store).isOk = true) :
    Relation.ReflTransGen (UndisputedStep env)
      (cfg, ⟨file, stored, requests, .off⟩)
      (cfg.alone (hub env) (.enroll a.dto),
        ⟨some (EnrollmentService.saveConfig ⟨a.deviceId, a.tenantId, USER_ID⟩), keys,
          (cfg.calls.length, a) :: requests, .running a⟩) := by
  have hrun : Relation.ReflTransGen (UndisputedStep env)
      (cfg, ⟨file, stored, requests, .off⟩) (cfg.alone (hub env) (.enroll a.dto),
        ⟨file, keys, (cfg.calls.length, a) :: requests, .enrolling cfg.calls.length a⟩) := by
    refine run_last (P := fun cfg' => Relation.ReflTransGen
      (UndisputedStep env) (cfg, ⟨file, stored, requests, .off⟩)
      (cfg', ⟨file, keys, (cfg.calls.length, a) :: requests, .enrolling cfg.calls.length a⟩))
      cfg.trace ?_ (Call.body env (.enroll a.dto)) [] ?_
    · intro s op k newer hbefore
      refine hbefore.tail ⟨.perform (by simp), by rintro i a' ⟨⟩, ?_⟩
      intro e d ht _ _
      obtain rfl := (List.cons.inj ht).1
      refine ⟨⟨a, List.mem_cons_self⟩, fun r hr hlate => ?_⟩
      rcases List.mem_cons.mp hr with rfl | hr
      · exact absurd hlate (lt_irrefl _)
      · exact absurd hlate (hearlier r hr).asymm
    · refine .single ⟨.launch start rfl hattempt (post_attempt a), .quiet rfl ?_⟩
      rintro i a' - hnone ⟨⟩
      exact hdrawn hnone
  refine hrun.tail ⟨?_, .quiet rfl (by rintro i a' ⟨⟩)⟩
  rw [← Option.map_some (f := EnrollmentService.saveConfig), ← a.enrolled_config]
  cases hr : aloneResult env (.enroll a.dto) cfg.store with
  | error e =>
    rw [hr] at hresult
    cases hresult
  | ok r =>
    refine .enrolled (c := .enroll a.dto) (r := r) rfl ?_
    rw [← hr]
    exact List.getElem?_concat_length

/-- The TPM is there at the first start, and has gone at the second. -/
def firstStart : Start := ⟨some "tenant-acme", (true, true), (⟨"key-1"⟩, ⟨"key-2"⟩), "laptop-1"⟩

def secondStart : Start := ⟨none, (false, false), (⟨"key-3"⟩, ⟨"key-4"⟩), "laptop-2"⟩

def firstAttempt : Attempt := ⟨.start none, ⟨⟨"key-1"⟩, true⟩, "laptop-1", "tenant-acme"⟩

def secondAttempt : Attempt :=
  ⟨.start (some ⟨"laptop-1", "tenant-acme", USER_ID⟩), ⟨⟨"key-4"⟩, false⟩, "laptop-2",
    "tenant-acme"⟩

/-- The agent is started, ended and started again. -/
theorem started_twice : ∃ cfg cfg' agent agent', LaunchedAlone (Sample.env 0 0) (cfg, agent) ∧
    agent.phase = .running firstAttempt ∧
    Relation.ReflTransGen (UndisputedStep (Sample.env 0 0))
      (cfg, agent) (cfg', agent') ∧
    agent'.phase = .running secondAttempt := by
  let config : DeviceConfig := ⟨"laptop-1", "tenant-acme", USER_ID⟩
  let after := Sample.start.alone (hub (Sample.env 0 0)) (.enroll firstAttempt.dto)
  have hfirst : Relation.ReflTransGen
      (UndisputedStep (Sample.env 0 0))
      (Sample.start, ⟨none, ⟨none, none⟩, [], .off⟩)
      (after, ⟨some (EnrollmentService.saveConfig config), ⟨some ⟨"key-1"⟩, none⟩,
        [(0, firstAttempt)], .running firstAttempt⟩) :=
    launch_alone (rfl : attempt none _ firstStart = _) (fun _ => ⟨rfl, nofun⟩) (by simp)
      (by decide +kernel)
  have hattempt : attempt (some (EnrollmentService.saveConfig config)) ⟨some ⟨"key-1"⟩, none⟩
      secondStart = (some secondAttempt, ⟨some ⟨"key-1"⟩, none⟩) :=
    (attempt_saveConfig (by decide) _ _).trans rfl
  have hsecond : Relation.ReflTransGen
      (UndisputedStep (Sample.env 0 0))
      (after, ⟨some (EnrollmentService.saveConfig config), ⟨some ⟨"key-1"⟩, none⟩,
        [(0, firstAttempt)], .off⟩)
      (after.alone (hub (Sample.env 0 0)) (.enroll secondAttempt.dto),
        ⟨some (EnrollmentService.saveConfig config), ⟨some ⟨"key-1"⟩, none⟩,
          [(1, secondAttempt), (0, firstAttempt)], .running secondAttempt⟩) := by
    refine launch_alone hattempt nofun ?_ (by decide +kernel)
    rintro r hr
    obtain rfl := List.mem_singleton.mp hr
    exact Nat.zero_lt_one
  exact ⟨_, _, _, _, ⟨_, ⟨Sample.start, _, Sample.start_reachable _, rfl⟩, hfirst⟩, rfl,
    .head ⟨.exit, .quiet rfl (by rintro i a' ⟨⟩)⟩ hsecond, rfl⟩

/-- The hub has the key of the second start. -/
theorem launches_agree_sample : ∃ cfg agent row, LaunchedAlone (Sample.env 0 0) (cfg, agent) ∧
    agent.phase = .running secondAttempt ∧ cfg.store.devices.find? "laptop-1" = some row ∧
    row.publicKeyPem = secondAttempt.key.getPublicKeyPem := by
  obtain ⟨cfg, cfg', agent, agent', ⟨s₀, hnew, hbefore⟩, -, hsteps, hrunning⟩ := started_twice
  have hlaunched : LaunchedAlone (Sample.env 0 0) (cfg', agent') :=
    ⟨s₀, hnew, hbefore.trans hsteps⟩
  obtain ⟨row, hrow, -, -, hkey, -⟩ := launches_agree hlaunched hrunning
  exact ⟨cfg', agent', row, hlaunched, hrunning, hrow, hkey⟩

theorem identity_kept_sample : ∃ s s', Launched (Sample.env 0 0) s ∧
    Relation.ReflTransGen (LaunchStep (Sample.env 0 0)) s s' ∧
    secondAttempt.enrolled.identity = firstAttempt.enrolled.identity := by
  obtain ⟨cfg, cfg', agent, agent', ⟨s₀, hnew, hbefore⟩, hrunning, hsteps, hrunning'⟩ :=
    started_twice
  have hlaunched : Launched (Sample.env 0 0) (cfg, agent) :=
    ⟨s₀, hnew, UndisputedStep.launches hbefore⟩
  have hafter := UndisputedStep.launches hsteps
  exact ⟨_, _, hlaunched, hafter, identity_kept hlaunched hrunning hafter hrunning'⟩

end Sample

end TroofAI.Hub
