import TroofAI.Agent.Texts
import TroofAI.Hub.Requests

/-!
How the meeting page has a device bound.

The page passes the hub's join token on to the agent that listens on the same machine, and the
agent's answer on to the hub. It looks into neither and does not ask whether they are answers of
success: a member that is missing is left out of the next request. What comes out is a bind with
the agent's signature over the members of the token, or a request that the hub refuses
(`bindCall_iff`).
-/

namespace TroofAI.Web

open TroofAI.Agent
open TroofAI.Json (Value)

/-- The body of the request to the agent. -/
def bindRequest (tokenData : Value) : Value :=
  tokenData.pick ["join_token", "meeting_id", "participant_id", "expires_at"]

/-- The body of the request to the hub. -/
def bindBody (bindData : Value) : Value := bindData.pick ["join_token", "device_id", "signature"]

/-- What the hub is asked for in the end, when it has answered the request for a join token with
`tokenText`. `agent` answers the body of a request to `/bind`. -/
def bindCall (agent : String → String) (mid tokenText : String) : Option Hub.Call := do
  let tokenData ← Json.parse tokenText
  let bindData ← Json.parse (agent (Json.stringify.print (bindRequest tokenData)))
  Hub.post ["meetings", mid, "bind"] (Json.stringify.print (bindBody bindData))

variable {enrollment : Enrollment} {sign : String → String} {message mid tokenText : String}

/-- The agent reads the token as the hub has spelled it. -/
theorem bindRequest_ofJson (tokenData : Value) :
    BindRequest.ofJson (bindRequest tokenData) = BindRequest.ofJson tokenData := by
  have hread : ∀ name ∈ ["join_token", "meeting_id", "participant_id", "expires_at"],
      getProperty (bindRequest tokenData) name = getProperty tokenData name := by
    intro name hname
    unfold getProperty bindRequest
    rw [Value.get_pick hname]
  simp only [List.mem_cons, forall_eq_or_imp] at hread
  simp only [BindRequest.ofJson, hread]

/-- And the hub reads the agent's answer. -/
theorem post_bind (bindData : Value) :
    Hub.post ["meetings", mid, "bind"] (Json.stringify.print (bindBody bindData)) =
      (Hub.BindDeviceDto.ofJson bindData).map fun dto =>
        .bindDevice mid dto.joinToken dto.deviceId dto.signature := by
  have hread : ∀ name ∈ ["join_token", "device_id", "signature"],
      (bindBody bindData).getString name = bindData.getString name := by
    intro name hname
    unfold Value.getString bindBody
    rw [Value.get_pick hname]
  simp only [List.mem_cons, forall_eq_or_imp] at hread
  simp only [Hub.post, Json.parse_print, Option.bind_some, Hub.BindDeviceDto.ofJson, hread]

/-- The agent answers in JSON, whether it signs or not. -/
theorem parse_handleRequest (body : String) :
    Json.parse (BindingService.handleRequest enrollment sign message "POST" "/bind" body).2 =
      some ((BindingService.response enrollment sign body).getD
        (.ofStrings [("error", message)])) := by
  unfold BindingService.handleRequest
  cases BindingService.response enrollment sign body with
  | none => exact Json.parse_print _ _
  | some response => exact Json.parse_print _ _

/-- The dto of what the agent answers when it has signed. -/
theorem ofJson_signed (tokenData : Value) (signature : String) :
    Hub.BindDeviceDto.ofJson (.obj [("join_token", (tokenData.get "join_token").getD .null),
        ("device_id", .str enrollment.deviceId), ("signature", .str signature)]) =
      (tokenData.getString "join_token").map fun joinToken =>
        ⟨joinToken, enrollment.deviceId, signature⟩ := by
  unfold Value.getString
  cases tokenData.get "join_token" with
  | none => rfl
  | some v => cases v <;> rfl

/-- The agent and the hub read the same join token. -/
theorem joinToken_eq {tokenData : Value} {request : BindRequest} {joinToken : String}
    (hrequest : BindRequest.ofJson tokenData = some request)
    (hjoin : tokenData.getString "join_token" = some joinToken) :
    joinToken = request.joinToken := by
  have hread := getProperty_of_getString hjoin
  simp only [BindRequest.ofJson, Option.bind_eq_bind, Option.bind_eq_some_iff, pure,
    Option.some.injEq, hread] at hrequest
  obtain ⟨_, rfl, _, _, _, _, _, _, rfl⟩ := hrequest
  rfl

/-- What the two programs make of a token, without the texts between them. -/
theorem bindCall_eq (tokenData : Value) (htoken : Json.parse tokenText = some tokenData) :
    bindCall (fun body => (BindingService.handleRequest enrollment sign message "POST" "/bind"
        body).2) mid tokenText = do
      let request ← BindRequest.ofJson tokenData
      let text ← handleBind enrollment request
      let joinToken ← tokenData.getString "join_token"
      return .bindDevice mid joinToken enrollment.deviceId (sign text) := by
  have hresponse : BindingService.response enrollment sign
      (Json.stringify.print (bindRequest tokenData)) = do
        let request ← BindRequest.ofJson tokenData
        let text ← handleBind enrollment request
        return .obj [("join_token", (tokenData.get "join_token").getD .null),
          ("device_id", .str enrollment.deviceId), ("signature", .str (sign text))] := by
    have hget : (bindRequest tokenData).get "join_token" = tokenData.get "join_token" :=
      Value.get_pick (by simp)
    unfold BindingService.response
    simp only [Json.parse_print, bindRequest_ofJson, hget, Option.bind_eq_bind, Option.bind_some]
  unfold bindCall
  simp only [htoken, Option.bind_eq_bind, Option.bind_some, parse_handleRequest, hresponse,
    post_bind]
  cases BindRequest.ofJson tokenData with
  | none => rfl
  | some request =>
    simp only [Option.bind_some]
    cases handleBind enrollment request with
    | none => rfl
    | some text =>
      simp only [Option.bind_some, pure, Option.getD_some, ofJson_signed, Option.map_map]
      cases tokenData.getString "join_token" <;> rfl

/-- Whatever the page is given for a token, the hub gets a bind exactly if the agent has signed for
it: the token and the agent's device are named, and the signature is over the members of the token. -/
theorem bindCall_iff {call : Hub.Call} :
    bindCall (fun body => (BindingService.handleRequest enrollment sign message "POST" "/bind"
        body).2) mid tokenText = some call ↔
      ∃ tokenData request text, Json.parse tokenText = some tokenData ∧
        BindRequest.ofJson tokenData = some request ∧
        tokenData.getString "join_token" = some request.joinToken ∧
        handleBind enrollment request = some text ∧
        call = .bindDevice mid request.joinToken enrollment.deviceId (sign text) := by
  constructor
  · intro h
    obtain ⟨tokenData, htoken, -⟩ := Option.bind_eq_some_iff.mp h
    rw [bindCall_eq tokenData htoken] at h
    simp only [Option.bind_eq_bind, Option.bind_eq_some_iff, pure, Option.some.injEq] at h
    obtain ⟨request, hrequest, text, htext, joinToken, hjoin, rfl⟩ := h
    obtain rfl := joinToken_eq hrequest hjoin
    exact ⟨tokenData, request, text, htoken, hrequest, hjoin, htext, rfl⟩
  · rintro ⟨tokenData, request, text, htoken, hrequest, hjoin, htext, rfl⟩
    rw [bindCall_eq tokenData htoken, hrequest]
    simp [htext, hjoin]

end TroofAI.Web
