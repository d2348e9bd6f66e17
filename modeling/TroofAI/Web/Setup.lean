import TroofAI.History.Alone
import TroofAI.Web.BindRelay

/-!
How the meeting page sets a session up.

When it is opened, the page asks the hub for the demo tenant, creates a meeting, adds the three
participants of the demonstration and has the one with a device bound through the agent. Each
request is made of what the answers before it said. An answer without the member that is asked for
ends the setup, but the page looks into no answer that it asks nothing of: a participant that the
hub has not added, and a bind that it has refused, leave the page as content as before.
-/

namespace TroofAI.Web

open TroofAI.Await
open TroofAI.Json (Value)

/-- What the page awaits, and what it shows. -/
inductive Fetch where
  | get (path : List String)
  | post (path : List String) (body : String)
  /-- the agent on the same machine -/
  | agent (body : String)
  | addLog (msg : String)

abbrev Fetch.Resp : Fetch → Type
  | .addLog _ => Unit
  | _ => String

inductive PageError where
  | failedToFetch
  | syntaxError
  /-- a member of `undefined` is asked for -/
  | typeError
deriving DecidableEq, Repr

abbrev Page (α : Type) := Prog Fetch.Resp PageError α

abbrev fetch (f : Fetch) : Page f.Resp := Prog.perform f

def addLog (msg : String) : Page Unit := fetch (.addLog msg)

/-- `await res.json()` -/
def json (text : String) : Page Value :=
  match Json.parse text with
  | some v => pure v
  | none => Prog.throw .syntaxError

/-- A member of which a member is asked for. -/
def objectMember (v : Value) (name : String) : Page Value :=
  match v.get name with
  | some member => pure member
  | none => Prog.throw .typeError

/-- A member that is cut to eight characters. -/
def stringMember (v : Value) (name : String) : Page String :=
  match v.getString name with
  | some s => pure s
  | none => Prog.throw .typeError

/-- A value of which members are asked for: anything but `null`. -/
def members : Value → Page Value
  | .null => Prog.throw .typeError
  | v => pure v

/-- `s.slice(0, 8)` -/
def slice8 (s : String) : String := String.ofList (s.toList.take 8)

structure DemoParticipant where
  userId : String
  displayName : String
  isEnrolled : Bool

def DEMO_PARTICIPANTS : List DemoParticipant :=
  [⟨"alice@troofai.com", "Alice Baker", true⟩, ⟨"ahmad@troofai.com", "Ahmad Baker", false⟩,
    ⟨"alice.baker.external@gmail.com", "Alice Baker (External)", false⟩]

def meetingName (zoomNumber : String) : String :=
  if zoomNumber = "" then "TroofAI Demo Meeting" else "Zoom " ++ zoomNumber

/-- The body of a request with text members. -/
@[irreducible] def body (members : List (String × String)) : String :=
  Json.stringify.print (.ofStrings members)

/-- One turn of the loop over `DEMO_PARTICIPANTS`: the id that is pushed, if any. -/
def addParticipant (mid : String) (p : DemoParticipant) : Page (Option String) := do
  let pRes ← fetch (.post ["meetings", mid, "participants"]
    (body [("user_id", p.userId), ("display_name", p.displayName)]))
  let pd ← json pRes
  addLog ("+ " ++ p.displayName ++ " (" ++ p.userId ++ ")")
  if p.isEnrolled then do
    let participant ← objectMember pd "participant"
    let pid ← stringMember participant "id"
    return some pid
  else return none

/-- One turn of the loop over `enrolledParticipantIds`. -/
def bindParticipant (mid pid : String) : Page Unit :=
  Prog.tryCatch (do
      let tokenRes ← fetch (.post ["meetings", mid, "join-token"] (body [("participant_id", pid)]))
      let tokenData ← json tokenRes >>= members
      let bindRes ← fetch (.agent (Json.stringify.print (bindRequest tokenData)))
      let bindData ← json bindRes >>= members
      let _ ← fetch (.post ["meetings", mid, "bind"] (Json.stringify.print (bindBody bindData)))
      addLog ("🔒 Device bound (TPM) for " ++ slice8 pid ++ "..."))
    fun _ => addLog ("⚠ Agent not reachable — skipping bind for " ++ slice8 pid ++ "...")

/-- The setup, up to where the page is ready: the id of the meeting it is ready with. `message` is
what the browser says of an error. -/
@[irreducible] def setup (message : PageError → String) (zoomNumber : String) :
    Page (Option String) :=
  Prog.tryCatch (do
      addLog "Connecting to TroofAI Hub..."
      let tenantRes ← fetch (.get ["tenants", "demo"])
      let td ← json tenantRes
      let tenantId ← stringMember td "tenant_id"
      addLog ("Tenant: " ++ slice8 tenantId ++ "...")
      addLog "Creating verified meeting session..."
      let meetingRes ← fetch (.post ["meetings"]
        (body [("tenant_id", tenantId), ("name", meetingName zoomNumber)]))
      let md ← json meetingRes
      let meeting ← objectMember md "meeting"
      let mid ← stringMember meeting "id"
      addLog ("Meeting: " ++ slice8 mid ++ "...")
      let added ← Prog.collect (addParticipant mid) DEMO_PARTICIPANTS
      let _ ← Prog.collect (bindParticipant mid) (added.filterMap id)
      addLog "✓ Meeting ready — click \"Go Live\" to start verification"
      return some mid)
    fun e => do
      addLog ("Error: " ++ message e)
      return none

/-- `triggerChallenge`; the page fetches the rows two seconds later. -/
def triggerChallenge (meetingId : String) : Page Unit :=
  Prog.tryCatch (fetch (.post ["challenges", "meeting", meetingId] "") >>= fun _ => pure ())
    fun _ => pure ()

/-! ### The page and a hub that serves nobody else -/

/-- What the page shows, and the hub. -/
structure PageState where
  hub : Hub.HubConfig
  setupLog : List String

/-- The answers of the others. `refusal` is what the hub says of a request that it does not take. -/
structure Browser where
  env : Hub.Env
  agent : String → Option String
  refusal : String

namespace Browser

variable (browser : Browser)

/-- A request to the hub, which is served alone. -/
def request (c? : Option Hub.Call) (s : PageState) : Except PageError String × PageState :=
  match c? with
  | some c => (.ok (Hub.answerText (Hub.aloneResult browser.env c s.hub.store)),
      { s with hub := s.hub.alone (Hub.hub browser.env) c })
  | none => (.ok browser.refusal, s)

def exec : (f : Fetch) → PageState → Except PageError f.Resp × PageState
  | .get path, s => browser.request (Hub.get path) s
  | .post path text, s => browser.request (Hub.post path text) s
  | .agent text, s =>
      (match browser.agent text with
        | some answer => .ok answer
        | none => .error .failedToFetch, s)
  | .addLog msg, s => (.ok (), { s with setupLog := s.setupLog ++ [msg] })

end Browser

end TroofAI.Web
