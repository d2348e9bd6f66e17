import TroofAI.History.Served
import TroofAI.Trust.DemoTenant
import TroofAI.Trust.Exchange
import TroofAI.Web.Setup

/-!
The meeting page sets a session up, with the hub and the agent.

The page is run alone on a hub that serves nobody else. What it awaits is read back as it was
written, so each of its requests is one call of the hub: `addParticipant_ends` and
`bindParticipant_ends` are the turns of its two loops, and `page_ready` is the whole setup. The page
does not look at what its bind was answered, so it shows a device as bound also where the hub has
refused it (`BindOutcome`, `boundText`).
-/

namespace TroofAI.Hub

open TroofAI.Await TroofAI.Agent Web
open TroofAI.Json (Value)

variable {browser : Browser} {s start : PageState} {α : Type} {R : α → PageState → Prop}
  {E : PageError → PageState → Prop}

/-! ### What the page awaits -/

theorem post_meetings (tenantId name : String) :
    post ["meetings"] (body [("tenant_id", tenantId), ("name", name)]) =
      some (.create tenantId name) := by
  unfold post body
  simp only [Json.parse_print, Option.bind_some]
  rfl

theorem post_participants (mid userId displayName : String) :
    post ["meetings", mid, "participants"]
        (body [("user_id", userId), ("display_name", displayName)]) =
      some (.addParticipant mid userId displayName) := by
  unfold post body
  simp only [Json.parse_print, Option.bind_some]
  rfl

theorem post_joinToken (mid pid : String) :
    post ["meetings", mid, "join-token"] (body [("participant_id", pid)]) =
      some (.issueJoinToken mid pid) := by
  unfold post body
  simp only [Json.parse_print, Option.bind_some]
  rfl

theorem ends_addLog {msg : String} {f : Unit → Page α} :
    Prog.Ends browser.exec R E (addLog msg >>= f) s ↔
      Prog.Ends browser.exec R E (f ()) { s with setupLog := s.setupLog ++ [msg] } :=
  Prog.ends_ok_bind rfl

theorem json_of_parse {text : String} {v : Value} (h : Json.parse text = some v) :
    json text = pure v := by
  unfold json
  rw [h]

/-- A text of the hub is read back. -/
theorem json_print (style : Json.Style) (v : Value) : json (style.print v) = pure v :=
  json_of_parse (Json.parse_print style v)

/-- Its members are asked for. -/
theorem members_read {v : Value} (h : v ≠ .null) (f : Value → Page α) :
    (pure v >>= members) >>= f = f v := by
  cases v with
  | null => exact absurd rfl h
  | _ => rfl

/-- A request that the hub serves. -/
theorem ends_post {path : List String} {text : String} {c : Call} {reply : Except HubError Reply}
    {f : String → Page α} (hpost : post path text = some c)
    (hreply : aloneResult browser.env c s.hub.store = reply) :
    Prog.Ends browser.exec R E (fetch (.post path text) >>= f) s ↔
      Prog.Ends browser.exec R E (f (answerText reply))
        { s with hub := s.hub.alone (hub browser.env) c } := by
  apply Prog.ends_ok_bind
  show browser.request (post path text) s = _
  rw [hpost, ← hreply]
  rfl

theorem ends_get {path : List String} {c : Call} {reply : Except HubError Reply}
    {f : String → Page α} (hget : get path = some c)
    (hreply : aloneResult browser.env c s.hub.store = reply) :
    Prog.Ends browser.exec R E (fetch (.get path) >>= f) s ↔
      Prog.Ends browser.exec R E (f (answerText reply))
        { s with hub := s.hub.alone (hub browser.env) c } := by
  apply Prog.ends_ok_bind
  show browser.request (get path) s = _
  rw [hget, ← hreply]
  rfl

/-- The agent answers. -/
theorem ends_agent {text answer : String} {f : String → Page α}
    (h : browser.agent text = some answer) :
    Prog.Ends browser.exec R E (fetch (.agent text) >>= f) s ↔
      Prog.Ends browser.exec R E (f answer) s := by
  apply Prog.ends_ok_bind
  simp only [Browser.exec, h]

/-- Or it does not run. -/
theorem ends_no_agent {text : String} {f : String → Page α} (h : browser.agent text = none) :
    Prog.Ends browser.exec R E (fetch (.agent text) >>= f) s ↔ E .failedToFetch s := by
  apply Prog.ends_error_bind
  simp only [Browser.exec, h]

/-! ### Participants -/

/-- The row is that of the preset `p`, in the meeting `mid`, without a device. -/
structure Entered (mid : String) (p : DemoParticipant) (row : Participant) : Prop where
  meeting : row.meetingId = mid
  user : row.userId = p.userId
  name : row.displayName = p.displayName
  device : row.deviceId = none
  status : row.trustStatus = .unknown

/-- What the page keeps of a row. -/
def kept (p : DemoParticipant) (row : Participant) : Option String :=
  if p.isEnrolled then some row.id else none

/-- What the page shows then. -/
def joinedText (p : DemoParticipant) : String := "+ " ++ p.displayName ++ " (" ++ p.userId ++ ")"

/-- Since `start` the hub has served the page alone, and has added `rows` to the meeting. -/
structure Adding (env : Env) (meeting : Meeting) (start s : PageState) (rows : List Participant) :
    Prop where
  reach : Reachable env s.hub
  found : start.hub.store.meetings.find? meeting.id = some meeting
  quiet : Undisturbed env start.hub.store
  world : ∃ participants audit, participants.rows = start.hub.store.participants.rows ++ rows ∧
    s.hub.store = { start.hub.store with
      steps := start.hub.store.steps + 3 * rows.length, participants, audit }

variable {meeting : Meeting} {rows : List Participant}

theorem Adding.undisturbed (h : Adding browser.env meeting start s rows) :
    Undisturbed browser.env s.hub.store := by
  obtain ⟨participants, audit, -, hworld⟩ := h.world
  exact h.quiet.later (congrArg World.steps hworld)

theorem Adding.meeting_found (h : Adding browser.env meeting start s rows) :
    s.hub.store.meetings.find? meeting.id = some meeting := by
  obtain ⟨participants, audit, -, hworld⟩ := h.world
  rw [congrArg World.meetings hworld]
  exact h.found

/-- The page reads the id of a participant that it has added. -/
theorem participantId_read (row : Participant) {f : String → Page α} :
    (objectMember (Reply.participant row).json "participant" >>= fun participant =>
      stringMember participant "id" >>= f) = f row.id := rfl

/-- One turn of the loop over the presets. -/
theorem addParticipant_ends (h : Adding browser.env meeting start s rows) (p : DemoParticipant) :
    Prog.Ends browser.exec (fun pid s' => ∃ row, Entered meeting.id p row ∧ pid = kept p row ∧
        s'.setupLog = s.setupLog ++ [joinedText p] ∧
        Adding browser.env meeting start s' (rows ++ [row])) E
      (addParticipant meeting.id p) s := by
  have hfree := (ids_free h.reach (Nat.le_add_right _ 1)).2
  have htenant := meeting_tenant h.reach h.meeting_found
  obtain ⟨hreply, participants, audit, hinsert, hstore⟩ :=
    served_add p.userId p.displayName h.undisturbed h.meeting_found htenant hfree
  unfold addParticipant
  rw [ends_post (post_participants _ _ _) hreply, answerText, json_print]
  apply ends_addLog.mpr
  -- the row, and what is left of the world
  obtain ⟨before, log, hrows, hworld⟩ := h.world
  set row := (⟨meeting.id, p.userId, p.displayName, .unknown⟩ : ParticipantCreate).row
    (browser.env.uuid (s.hub.store.steps + 1)) (browser.env.clock (s.hub.store.steps + 1))
  have hentered : Entered meeting.id p row := ⟨rfl, rfl, rfl, rfl, rfl⟩
  have hadding : Adding browser.env meeting start
      ⟨s.hub.alone (hub browser.env) (.addParticipant meeting.id p.userId p.displayName),
        s.setupLog ++ [joinedText p]⟩ (rows ++ [row]) := by
    refine ⟨reach_alone _ h.reach, h.found, h.quiet, participants, audit, ?_, ?_⟩
    · rw [Table.insert?_rows hinsert, congrArg World.participants hworld, hrows, List.append_assoc]
    · refine hstore.trans ?_
      rw [hworld, List.length_append, List.length_singleton]
      congr 1
  by_cases henrolled : p.isEnrolled
  · have hid : kept p row = some row.id := if_pos henrolled
    rw [if_pos henrolled, participantId_read]
    exact ⟨row, hentered, hid.symm, rfl, hadding⟩
  · have hid : kept p row = none := if_neg henrolled
    rw [if_neg henrolled]
    exact ⟨row, hentered, hid.symm, rfl, hadding⟩

/-- All its turns. -/
theorem addParticipants_ends (h : Adding browser.env meeting start s [])
    (ps : List DemoParticipant) :
    Prog.Ends browser.exec (fun pids s' => ∃ rows, List.Forall₂ (Entered meeting.id) ps rows ∧
        pids = List.zipWith kept ps rows ∧ s'.setupLog = s.setupLog ++ ps.map joinedText ∧
        Adding browser.env meeting start s' rows) E
      (Prog.collect (addParticipant meeting.id) ps) s := by
  let added (pairs : List (DemoParticipant × Option String)) (s' : PageState) : Prop :=
    ∃ rows, List.Forall₂ (Entered meeting.id) (pairs.map Prod.fst) rows ∧
      pairs.map Prod.snd = List.zipWith kept (pairs.map Prod.fst) rows ∧
      s'.setupLog = s.setupLog ++ pairs.map (joinedText ∘ Prod.fst) ∧
      Adding browser.env meeting start s' rows
  have hturn : ∀ p ∈ ps, ∀ pairs s', added pairs s' →
      Prog.Ends browser.exec (fun pid s'' => added (pairs ++ [(p, pid)]) s'') E
        (addParticipant meeting.id p) s' := by
    rintro p - pairs s' ⟨rows, hentered, hpids, hlog, hadding⟩
    refine (addParticipant_ends hadding p).mono ?_ fun _ _ he => he
    rintro _ s'' ⟨row, hrow, rfl, hlog', hadding'⟩
    refine ⟨rows ++ [row], ?_, ?_, ?_, hadding'⟩
    · rw [List.map_append]
      exact List.rel_append hentered (.cons hrow .nil)
    · rw [List.map_append, List.map_append, hpids, List.zipWith_append hentered.length_eq]
      rfl
    · rw [hlog', hlog, List.map_append, List.append_assoc]
      rfl
  have hnone : added [] s := ⟨[], .nil, rfl, (List.append_nil _).symm, h⟩
  refine (Prog.ends_collect_done hturn hnone).mono ?_ fun _ _ he => he
  rintro pids s' ⟨hlength, rows, hentered, hpids, hlog, hadding⟩
  rw [List.map_fst_zip hlength.ge] at hentered hpids
  rw [List.map_snd_zip hlength.le] at hpids
  rw [← List.map_map, List.map_fst_zip hlength.ge] at hlog
  exact ⟨rows, hentered, hpids, hlog, hadding⟩

/-! ### The bind -/

/-- The agent on the machine of the page. -/
structure LocalAgent where
  enrollment : Enrollment
  sign : String → String
  /-- what it says of an exception -/
  message : String

/-- What the page is answered at `/bind`, if the agent runs. -/
def LocalAgent.answer (agent? : Option LocalAgent) (text : String) : Option String :=
  agent?.map fun agent => bindEndpoint agent.enrollment agent.sign agent.message text

/-- What the agent signs for a token that the hub is asked for at step `n`. -/
def LocalAgent.text (agent : LocalAgent) (env : Env) (n : Nat) (mid pid : String) : String :=
  MeetingService.signedMaterial (env.uuid (n + 1)) mid pid agent.enrollment.deviceId
    (toISOString (env.clock (n + 2) + 30000))

/-- The device of the agent is enrolled with the key that it signs with, and the hub reads the token
before it expires. -/
structure LocalAgent.Vouches (agent : LocalAgent) (env : Env) (devices : Table Device.id) (n : Nat)
    (mid pid : String) (device : Device) : Prop where
  found : devices.find? agent.enrollment.deviceId = some device
  signs : checkSignature env device.publicKeyPem (agent.text env n mid pid)
    (agent.sign (agent.text env n mid pid)) = true
  alive : env.clock (n + 4) ≤ env.clock (n + 3) + 30000

/-- What becomes of the row that the page wants bound. -/
inductive BindOutcome (env : Env) (devices : Table Device.id) (n : Nat) (mid : String)
    (agent? : Option LocalAgent) (row : Participant) : Participant → Prop where
  | bound {agent device t} : agent? = some agent → agent.Vouches env devices n mid row.id device →
      BindOutcome env devices n mid agent? row
        ((MeetingService.bindData agent.enrollment.deviceId device t).apply row)
  | refused :
      (∀ agent device, agent? = some agent → ¬ agent.Vouches env devices n mid row.id device) →
      BindOutcome env devices n mid agent? row row

/-- What the page shows then. -/
def boundText (agent? : Option LocalAgent) (pid : String) : String :=
  match agent? with
  | some _ => "🔒 Device bound (TPM) for " ++ slice8 pid ++ "..."
  | none => "⚠ Agent not reachable — skipping bind for " ++ slice8 pid ++ "..."

/-- One turn of the loop over the participants that the page wants bound. -/
structure BindTurn (env : Env) (agent? : Option LocalAgent) (mid : String) (row : Participant)
    (s s' : PageState) : Prop where
  reach : Reachable env s'.hub
  log : s'.setupLog = s.setupLog ++ [boundText agent? row.id]
  world : ∃ f hf n redis audit,
    BindOutcome env s.hub.store.devices s.hub.store.steps mid agent? row (f row) ∧
      s'.hub.store = { s.hub.store with
        steps := s.hub.store.steps + n
        redis, audit
        participants := s.hub.store.participants.modify row.id f hf }

variable {env : Env} {w : World} {agent : LocalAgent} {mid : String} {row : Participant}
  {device : Device}

/-- The world in which the token is stored. -/
def tokenStore (env : Env) (w : World) (mid pid : String) : World :=
  { w with
    steps := w.steps + 4
    redis := w.redis.set (.joinToken (env.uuid (w.steps + 1)))
      ⟨mid, pid, env.clock (w.steps + 2) + 30000⟩ (env.clock (w.steps + 3) + 30 * 1000) }

/-- The bind that the page asks for then is accepted exactly if the agent vouches. -/
theorem token_get {pid : String} {parsed : JoinToken} :
    (tokenStore env w mid pid).redis.get (env.clock (w.steps + 4))
        (.joinToken (env.uuid (w.steps + 1))) = some parsed ↔
      parsed = ⟨mid, pid, env.clock (w.steps + 2) + 30000⟩ ∧
        env.clock (w.steps + 4) ≤ env.clock (w.steps + 3) + 30000 := by
  rw [Expiring.get_eq_some]
  unfold tokenStore
  simp only [Expiring.set_entry_self, Option.some.injEq, Prod.mk.injEq]
  constructor
  · rintro ⟨deadline, ⟨rfl, rfl⟩, hle⟩
    exact ⟨rfl, hle⟩
  · rintro ⟨rfl, hle⟩
    exact ⟨_, ⟨rfl, rfl⟩, hle⟩

theorem bind_turn (agent : LocalAgent) (hquiet : Undisturbed env w)
    (hmeeting : w.meetings.find? mid = some meeting)
    (htenant : (w.tenants.find? meeting.tenantId).isSome)
    (hrow : w.participants.find? row.id = some row) :
    ∃ f hf n redis audit,
      BindOutcome env w.devices w.steps mid (some agent) row (f row) ∧
      aloneStore env (.bindDevice mid (env.uuid (w.steps + 1)) agent.enrollment.deviceId
          (agent.sign (agent.text env w.steps mid row.id))) (tokenStore env w mid row.id) =
        { w with
          steps := w.steps + n
          redis, audit
          participants := w.participants.modify row.id f hf } := by
  have hquiet' : Undisturbed env (tokenStore env w mid row.id) := hquiet.later (k := 4) rfl
  by_cases hvouches : ∃ device, agent.Vouches env w.devices w.steps mid row.id device
  · obtain ⟨device, hvouches⟩ := hvouches
    have hbinds : BindsAlone env (tokenStore env w mid row.id) mid (env.uuid (w.steps + 1))
        agent.enrollment.deviceId (agent.sign (agent.text env w.steps mid row.id))
        ⟨mid, row.id, env.clock (w.steps + 2) + 30000⟩ device := {
      live := token_get.mpr ⟨rfl, hvouches.alive⟩
      meeting := rfl
      found := hvouches.found
      valid := hvouches.signs
      row := by
        show (w.participants.find? row.id).isSome = true
        rw [hrow]
        rfl
      accepted := fun k _ => hquiet' k }
    obtain ⟨-, audit, hstore⟩ := served_bind hquiet' hbinds hrow hmeeting htenant
    exact ⟨_, _, 11, _, audit, .bound rfl hvouches, hstore⟩
  · have hrefused : ∀ agent' device, some agent = some agent' →
        ¬ agent'.Vouches env w.devices w.steps mid row.id device := by
      rintro _ device ⟨⟩ h
      exact hvouches ⟨device, h⟩
    obtain ⟨e, n, -, hstore⟩ := refused_bind mid (env.uuid (w.steps + 1)) agent.enrollment.deviceId
        (agent.sign (agent.text env w.steps mid row.id)) hquiet' (by
      intro parsed device hget _ hfound
      obtain ⟨rfl, halive⟩ := token_get.mp hget
      rw [Bool.eq_false_iff]
      exact fun hvalid => hrefused agent device rfl ⟨hfound, hvalid, halive⟩)
    refine ⟨id, fun _ => rfl, 4 + n, (tokenStore env w mid row.id).redis, w.audit,
      .refused hrefused, hstore.trans ?_⟩
    rw [Table.modify_id, ← Nat.add_assoc]
    rfl

variable {cfg : HubConfig} {i : Nat} {m p : String} {issued : MeetingService.IssuedToken}

/-- The page finds its way from the token to the bind. -/
theorem bind_asked (agent : LocalAgent) (reach : Reachable env cfg)
    (hcall : cfg.calls[i]? = some (.issueJoinToken m p, .done (.ok (.joinToken issued))))
    (hmeeting : (cfg.store.meetings.find? m).isSome) :
    ∃ bindData ≠ Value.null,
      Json.parse (bindEndpoint agent.enrollment agent.sign agent.message
        (Json.stringify.print (bindRequest issued.json))) = some bindData ∧
      post ["meetings", m, "bind"] (Json.stringify.print (bindBody bindData)) =
        some (.bindDevice m issued.joinToken agent.enrollment.deviceId (agent.sign
          (MeetingService.signedMaterial issued.joinToken m p agent.enrollment.deviceId
            (toISOString issued.expiresAt)))) := by
  have hasked := bindCall_returned reach hcall hmeeting agent.enrollment agent.sign agent.message
  generalize issued.json = tokenData at hasked ⊢
  unfold bindCall at hasked
  simp only [Json.parse_print, Option.bind_eq_bind, Option.bind_some] at hasked
  obtain ⟨bindData, hparse, hpost⟩ := Option.bind_eq_some_iff.mp hasked
  refine ⟨bindData, ?_, hparse, hpost⟩
  rintro rfl
  rw [post_bind] at hpost
  cases hpost

theorem issued_ne_null : issued.json ≠ .null := nofun

/-- One turn of the loop over the participants that the page wants bound. -/
theorem bindParticipant_ends {refusal : String} {agent? : Option LocalAgent}
    {E : PageError → PageState → Prop} (reach : Reachable env s.hub)
    (hquiet : Undisturbed env s.hub.store)
    (hmeeting : s.hub.store.meetings.find? mid = some meeting)
    (hrow : s.hub.store.participants.find? row.id = some row) :
    Prog.Ends (Browser.exec ⟨env, LocalAgent.answer agent?, refusal⟩)
      (fun _ s' => BindTurn env agent? mid row s s') E (bindParticipant mid row.id) s := by
  have htenant := meeting_tenant reach hmeeting
  have hsome : (s.hub.store.participants.find? row.id).isSome := by
    rw [hrow]
    rfl
  obtain ⟨hreply, hstore⟩ := served_token mid hquiet hsome
  have hreach := reach_alone (.issueJoinToken mid row.id) reach
  set token := s.hub.alone (hub env) (.issueJoinToken mid row.id) with htoken
  change token.store = tokenStore env s.hub.store mid row.id at hstore
  cases agent? with
  | none =>
    have hstore' : token.store = { s.hub.store with
        steps := s.hub.store.steps + 4
        redis := (tokenStore env s.hub.store mid row.id).redis
        participants := s.hub.store.participants.modify row.id id fun _ => rfl } := by
      rw [Table.modify_id]
      exact hstore
    apply Prog.ends_tryCatch
    rw [ends_post (post_joinToken _ _) hreply, answerText, Reply.json, json_print,
      members_read issued_ne_null, ends_no_agent rfl]
    apply (ends_addLog (f := pure)).mpr
    exact ⟨hreach, rfl, id, fun _ => rfl, 4, _, _, .refused nofun, hstore'⟩
  | some agent =>
    have hcall : token.calls[s.hub.calls.length]? = some (.issueJoinToken mid row.id,
        .done (aloneResult env (.issueJoinToken mid row.id) s.hub.store)) := by
      simp [htoken, Config.alone, aloneResult, hub]
    rw [hreply] at hcall
    have hfound : (token.store.meetings.find? mid).isSome := by
      rw [hstore]
      show (s.hub.store.meetings.find? mid).isSome = true
      rw [hmeeting]
      rfl
    obtain ⟨bindData, hne, hparse, hpost⟩ := bind_asked agent hreach hcall hfound
    obtain ⟨f, hf, n, redis, audit, houtcome, hbound⟩ :=
      bind_turn agent hquiet hmeeting htenant hrow
    rw [← hstore] at hbound
    apply Prog.ends_tryCatch
    rw [ends_post (post_joinToken _ _) hreply, answerText, Reply.json, json_print,
      members_read issued_ne_null, ends_agent rfl, json_of_parse hparse, members_read hne,
      ends_post hpost rfl]
    apply (ends_addLog (f := pure)).mpr
    exact ⟨reach_alone _ hreach, rfl, f, hf, n, redis, audit, houtcome, hbound⟩

/-! ### The setup -/

theorem tenantId_read (t : Tenant) {f : String → Page α} :
    (pure (Reply.tenant t).json >>= fun td => stringMember td "tenant_id" >>= f) = f t.id := rfl

theorem meetingId_read (row : Meeting) {f : String → Page α} :
    (pure (Reply.meeting row).json >>= fun md => objectMember md "meeting" >>= fun meeting =>
      stringMember meeting "id" >>= f) = f row.id := rfl

/-- What the page shows of a setup that ends well. -/
def readyLog (t : Tenant) (mid pid : String) (agent? : Option LocalAgent) : List String :=
  ["Connecting to TroofAI Hub...", "Tenant: " ++ slice8 t.id ++ "...",
      "Creating verified meeting session...", "Meeting: " ++ slice8 mid ++ "..."] ++
    DEMO_PARTICIPANTS.map joinedText ++
    [boundText agent? pid, "✓ Meeting ready — click \"Go Live\" to start verification"]

/-- The session that the page leaves in `s'`: a meeting of its own in the demo tenant, the
participants of the demonstration in it, and no other row touched. The device of the first is bound
if the agent vouches for it, but the page shows so whenever there is an agent. -/
structure Ready (env : Env) (agent? : Option LocalAgent) (t : Tenant) (zoomNumber : String)
    (s s' : PageState) (mid : String) : Prop where
  reach : Reachable env s'.hub
  meeting : ∃ createdAt, s'.hub.store.meetings.rows =
    s.hub.store.meetings.rows ++ [⟨mid, t.id, meetingName zoomNumber, createdAt⟩]
  participants : ∃ alice alice' ahmad external,
    List.Forall₂ (Entered mid) DEMO_PARTICIPANTS [alice, ahmad, external] ∧
      BindOutcome env s.hub.store.devices (s.hub.store.steps + 12) mid agent? alice alice' ∧
      s'.hub.store.participants.rows =
        s.hub.store.participants.rows ++ [alice', ahmad, external] ∧
      s'.setupLog = s.setupLog ++ readyLog t mid alice.id agent?
  tenants : s'.hub.store.tenants = s.hub.store.tenants
  devices : s'.hub.store.devices = s.hub.store.devices
  gateway : s'.hub.store.gateway = s.hub.store.gateway

variable {log : List String} {t : Tenant} {zoomNumber : String} {agent? : Option LocalAgent}

/-- The page has been answered with the demo tenant, and then with a meeting of its own. -/
structure Created (env : Env) (t : Tenant) (name : String) (s : PageState) (meeting : Meeting) :
    Prop where
  answersTenant : aloneResult env .ensureDemoTenant s.hub.store = .ok (.tenant t)
  answersMeeting : aloneResult env (.create t.id name)
    (s.hub.alone (hub env) .ensureDemoTenant).store = .ok (.meeting meeting)
  named : meeting.tenantId = t.id ∧ meeting.name = name
  adding : ∀ log, Adding env meeting
    ⟨s.hub.sequence (hub env) [.ensureDemoTenant, .create t.id name], log⟩
    ⟨s.hub.sequence (hub env) [.ensureDemoTenant, .create t.id name], log⟩ []
  world : ∃ meetings audit, meetings.rows = s.hub.store.meetings.rows ++ [meeting] ∧
    (s.hub.sequence (hub env) [.ensureDemoTenant, .create t.id name]).store =
      { s.hub.store with steps := s.hub.store.steps + 3, meetings, audit }

theorem exists_created (reach : Reachable env s.hub) (hquiet : Undisturbed env s.hub.store)
    (hdemo : s.hub.store.demoTenant env = some t) (name : String) :
    ∃ meeting, Created env t name s meeting := by
  have htenant : (s.hub.store.tenants.find? t.id).isSome := by
    rw [Table.find?_eq_some.mpr ⟨World.mem_of_tenantNamed hdemo, rfl⟩]
    rfl
  obtain ⟨htenantReply, htenantStore⟩ := served_tenant hquiet hdemo
  have htenantReach := reach_alone .ensureDemoTenant reach
  set seeded := s.hub.alone (hub env) .ensureDemoTenant with hseeded
  change seeded.store = s.hub.store.tick at htenantStore
  have hquiet' : Undisturbed env seeded.store :=
    hquiet.later (k := 1) (congrArg World.steps htenantStore)
  obtain ⟨hreply, meetings, audit, hinsert, hstore⟩ := served_create name hquiet'
    (by rw [htenantStore]; exact htenant) (ids_free htenantReach (Nat.le_refl _)).1
  have hworld : (seeded.alone (hub env) (.create t.id name)).store =
      { s.hub.store with steps := s.hub.store.steps + 3, meetings, audit } := by
    refine hstore.trans ?_
    rw [htenantStore]
    rfl
  refine ⟨_, htenantReply, hreply, ⟨rfl, rfl⟩, ?_, meetings, audit, ?_, hworld⟩
  · intro log
    refine ⟨reach_alone _ htenantReach, ?_, ?_, ?_⟩
    · show (seeded.alone (hub env) (.create t.id name)).store.meetings.find? _ = _
      rw [hworld, Table.find?_insert? hinsert, if_pos rfl]
    · exact hquiet.later (k := 3) (congrArg World.steps hworld)
    · exact ⟨_, _, (List.append_nil _).symm, rfl⟩
  · rw [Table.insert?_rows hinsert, htenantStore]
    rfl

/-- The row of a participant that the page has added. -/
theorem Adding.row_found (h : Adding env meeting start s rows) {row : Participant}
    (hrow : row ∈ rows) : s.hub.store.participants.find? row.id = some row := by
  obtain ⟨participants, audit, hrows, hworld⟩ := h.world
  rw [congrArg World.participants hworld]
  refine Table.find?_eq_some.mpr ⟨?_, rfl⟩
  show row ∈ participants.rows
  rw [hrows]
  exact List.mem_append_right _ hrow

/-- What the steps of the setup add up to. -/
theorem ready_of_turn {alice ahmad external : Participant} {s₁ s₂ s₃ : PageState}
    (h : Created env t (meetingName zoomNumber) s meeting)
    (hentered : List.Forall₂ (Entered meeting.id) DEMO_PARTICIPANTS [alice, ahmad, external])
    (hadding : Adding env meeting
      ⟨s.hub.sequence (hub env) [.ensureDemoTenant, .create t.id (meetingName zoomNumber)], log⟩ s₁
      [alice, ahmad, external])
    (hturn : BindTurn env agent? meeting.id alice s₁ s₂) (hhub : s₃.hub = s₂.hub)
    (hlog : s₃.setupLog = s.setupLog ++ readyLog t meeting.id alice.id agent?) :
    Ready env agent? t zoomNumber s s₃ meeting.id := by
  obtain ⟨meetings, audit, hmeetings, hcreated⟩ := h.world
  obtain ⟨participants, audit', hrows, hadded⟩ := hadding.world
  obtain ⟨f, hf, n, redis, audit'', houtcome, hbound⟩ := hturn.world
  simp only [hcreated] at hrows hadded
  simp only [hadded] at houtcome hbound
  rw [← hhub] at hbound
  have hrows' := Table.modify_rows hf hrows
  refine ⟨hhub ▸ hturn.reach, ⟨meeting.createdAt, ?_⟩, ⟨alice, f alice, ahmad, external, hentered,
    houtcome, ?_, hlog⟩, ?_, ?_, ?_⟩
  · rw [hbound, ← h.named.1, ← h.named.2]
    exact hmeetings
  · rw [hbound]
    exact hrows'
  · rw [hbound]
  · rw [hbound]
  · rw [hbound]

theorem three_entered (h : List.Forall₂ (Entered mid) DEMO_PARTICIPANTS rows) :
    ∃ alice ahmad external, rows = [alice, ahmad, external] := by
  obtain ⟨alice, two, -, htwo, rfl⟩ := List.forall₂_cons_left_iff.mp h
  obtain ⟨ahmad, one, -, hone, rfl⟩ := List.forall₂_cons_left_iff.mp htwo
  obtain ⟨external, none, -, hnone, rfl⟩ := List.forall₂_cons_left_iff.mp hone
  cases hnone
  exact ⟨alice, ahmad, external, rfl⟩

/-- The setup ends with the session. -/
theorem setup_ends (agent? : Option LocalAgent) (message : PageError → String) (refusal : String)
    {E : PageError → PageState → Prop}
    (h : Created env t (meetingName zoomNumber) s meeting) :
    Prog.Ends (Browser.exec ⟨env, LocalAgent.answer agent?, refusal⟩)
      (fun mid? s' => ∃ mid, mid? = some mid ∧ Ready env agent? t zoomNumber s s' mid) E
      (setup message zoomNumber) s := by
  unfold setup
  apply Prog.ends_tryCatch
  apply ends_addLog.mpr
  rw [ends_get rfl h.answersTenant, answerText, json_print, tenantId_read]
  apply ends_addLog.mpr
  apply ends_addLog.mpr
  rw [ends_post (post_meetings _ _) h.answersMeeting, answerText, json_print, meetingId_read]
  apply ends_addLog.mpr
  apply Prog.ends_bind.mpr
  refine (addParticipants_ends (h.adding _) DEMO_PARTICIPANTS).mono ?_ fun _ _ he => he
  rintro pids s₁ ⟨rows, hentered, rfl, hlog, hadding⟩
  obtain ⟨alice, ahmad, external, rfl⟩ := three_entered hentered
  have hpids : (List.zipWith kept DEMO_PARTICIPANTS [alice, ahmad, external]).filterMap id =
    [alice.id] := rfl
  rw [hpids]
  apply Prog.ends_bind.mpr
  apply Prog.ends_bind.mpr
  refine (bindParticipant_ends hadding.reach hadding.undisturbed hadding.meeting_found
    (hadding.row_found List.mem_cons_self)).mono ?_ fun _ _ he => he
  intro _ s₂ hturn
  apply ends_addLog.mpr
  refine ⟨meeting.id, rfl, ready_of_turn h hentered hadding hturn rfl ?_⟩
  show s₂.setupLog ++ [_] = _
  rw [hturn.log, hlog]
  simp [readyLog]

/-- In a hub that serves nobody else and whose stores answer, the page becomes ready whatever the
hub has been used for before and whether or not an agent runs, and leaves the session of `Ready`. -/
theorem page_ready (agent? : Option LocalAgent) (message : PageError → String)
    (refusal zoomNumber : String) (reach : Reachable env s.hub)
    (hquiet : Undisturbed env s.hub.store) (hdemo : s.hub.store.demoTenant env = some t) :
    let ran := (setup message zoomNumber).run
      (Browser.exec ⟨env, LocalAgent.answer agent?, refusal⟩) s
    ∃ mid, ran.result = .ok (some mid) ∧ Ready env agent? t zoomNumber s ran.store mid := by
  obtain ⟨meeting, hcreated⟩ := exists_created reach hquiet hdemo (meetingName zoomNumber)
  let ready (result : Except PageError (Option String)) (s' : PageState) : Prop :=
    ∃ mid, result = .ok (some mid) ∧ Ready env agent? t zoomNumber s s' mid
  have hends := setup_ends agent? message refusal (E := fun e => ready (.error e)) hcreated
  have hready : ∀ mid? s', (∃ mid, mid? = some mid ∧ Ready env agent? t zoomNumber s s' mid) →
      ready (.ok mid?) s' := by
    rintro _ s' ⟨mid, rfl, h⟩
    exact ⟨mid, rfl, h⟩
  exact (Prog.ends_result (P := ready)).mp (hends.mono hready fun _ _ he => he)

/-- The participant that the page wants bound is bound to the device of an agent that vouches. -/
theorem Ready.row_bound (h : Ready env (some agent) t zoomNumber s s' mid) (hvouches : ∀ pid,
      agent.Vouches env s.hub.store.devices (s.hub.store.steps + 12) mid pid device) :
    ∃ row ∈ s'.hub.store.participants.rows, row.meetingId = mid ∧ row.trustStatus = .verified ∧
      row.deviceId = some agent.enrollment.deviceId := by
  obtain ⟨alice, alice', ahmad, external, hentered, houtcome, hrows, -⟩ := h.participants
  refine ⟨alice', by simp [hrows], ?_⟩
  cases hentered with
  | cons halice _ =>
  cases houtcome with
  | bound hagent =>
    cases hagent
    exact ⟨halice.meeting, rfl, rfl⟩
  | refused hrefused => exact absurd (hvouches alice.id) (hrefused agent device rfl)

/-- Alice's agent, on the laptop that is enrolled with the key "pem-1". -/
def demoAgent : LocalAgent :=
  ⟨⟨Sample.uuid 1, "laptop-1", "alice@troofai.com"⟩, Sample.sign "pem-1", ""⟩

/-- The agent runs, and the laptop is enrolled with its key. -/
theorem page_ready_sample : ∃ (s : PageState) (t : Tenant) (agent : LocalAgent) (mid : String)
    (row : Participant),
    let ran := (setup (fun _ => "") "").run
      (Browser.exec ⟨Sample.env 0 0, LocalAgent.answer (some agent), ""⟩) s
    Reachable (Sample.env 0 0) s.hub ∧ s.hub.store.demoTenant (Sample.env 0 0) = some t ∧
      ran.result = .ok (some mid) ∧ Ready (Sample.env 0 0) (some agent) t "" s ran.store mid ∧
      row ∈ ran.store.hub.store.participants.rows ∧ row.meetingId = mid ∧
      row.trustStatus = .verified := by
  let env := Sample.env 0 0
  let cfg := Sample.run env [.ensureDemoTenant,
    Sample.enroll (Sample.uuid 1) "laptop-1" "alice@troofai.com" "pem-1"]
  have hreach : Reachable env cfg := Sample.run_reachable _ _
  have hquiet : Undisturbed env cfg.store := fun _ => rfl
  have hdemo : cfg.store.demoTenant env = some ⟨Sample.uuid 1, "TroofAI Demo"⟩ := by decide +kernel
  have hdevice : ((cfg.store.devices.find? "laptop-1").any fun device =>
      device.publicKeyPem = "pem-1") = true := by decide +kernel
  obtain ⟨device, hfound, hkey⟩ := (Option.any_eq_true _ _).mp hdevice
  obtain ⟨mid, hresult, hready⟩ := page_ready (s := ⟨cfg, []⟩) (some demoAgent) (fun _ => "")
    "" "" hreach hquiet hdemo
  have hvouches (pid : String) : demoAgent.Vouches env cfg.store.devices (cfg.store.steps + 12) mid
      pid device := {
    found := hfound
    signs := by
      unfold checkSignature demoAgent
      rw [of_decide_eq_true hkey, Sample.verify_sign]
    alive := by
      show Sample.clock 0 0 _ ≤ Sample.clock 0 0 _ + 30000
      simp only [Sample.clock, Nat.zero_le, ↓reduceIte]
      omega }
  obtain ⟨row, hrow, hmember, hstatus, -⟩ := hready.row_bound hvouches
  exact ⟨⟨cfg, []⟩, _, demoAgent, mid, row, hreach, hdemo, hresult, hready, hrow, hmember, hstatus⟩

end TroofAI.Hub
