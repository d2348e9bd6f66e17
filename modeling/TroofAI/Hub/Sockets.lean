import TroofAI.Hub.Gateway
import Mathlib.Data.List.Induction
import Mathlib.Data.List.Nodup

/-!
Histories of the socket gateway.

`dispatched` runs the handlers on any sequence of events, `run` on one in which messages of
clients without a connection do not arrive. `Tidy` is what every run keeps: the maps have no
key twice, and a client in a meeting's set is connected. `handleDisconnect_loops` says that
the handler's two loops, which delete from the maps they go through, have the effect that
`handleDisconnect` states.
-/

namespace TroofAI.Hub.Gateway

/-! ### Maps -/

section Map

variable {V : Type} {m : List (String × V)} {k j : String} {v w : V}

/-- `Map.prototype.delete`. -/
def mapDelete (m : List (String × V)) (k : String) : List (String × V) := m.filter (·.1 ≠ k)

theorem mapGet_mem (h : mapGet m k = some v) : (k, v) ∈ m := by
  obtain ⟨⟨key, value⟩, hfind, rfl⟩ := Option.map_eq_some_iff.mp h
  obtain rfl : key = k := by simpa using List.find?_some hfind
  exact List.mem_of_find?_eq_some hfind

theorem mapGet_eq_some_iff (hm : (m.map (·.1)).Nodup) : mapGet m k = some v ↔ (k, v) ∈ m := by
  refine ⟨mapGet_mem, fun hmem => ?_⟩
  cases hget : mapGet m k with
  | none =>
    have hnone := List.find?_eq_none.mp (Option.map_eq_none_iff.mp hget) _ hmem
    simp at hnone
  | some w =>
    have heq := List.inj_on_of_nodup_map hm (mapGet_mem hget) hmem rfl
    rw [(Prod.mk.inj heq).2]

theorem mapGet_isSome_iff : (mapGet m k).isSome = true ↔ k ∈ m.map (·.1) := by
  simp [mapGet, List.mem_map]

/-- Replacing the value of an entry leaves the keys. -/
theorem keyed_replace : ((fun q : String × V => decide (q.1 = j)) ∘
    fun q => if q.1 = k then (k, v) else q) = fun q => decide (q.1 = j) := by
  funext q
  by_cases hq : q.1 = k <;> simp [hq]

@[simp] theorem mapGet_mapSet_self : mapGet (mapSet m k v) k = some v := by
  unfold mapGet mapSet
  split
  · next hany =>
    obtain ⟨p, hp, hk⟩ := List.any_eq_true.mp hany
    rw [List.find?_map, keyed_replace]
    cases hfind : m.find? fun q => decide (q.1 = k) with
    | none => exact absurd hk (List.find?_eq_none.mp hfind p hp)
    | some q =>
      have hq : q.1 = k := by simpa using List.find?_some hfind
      simp [hq]
  · next hany =>
    have hnone : m.find? (fun q => decide (q.1 = k)) = none := by
      refine List.find?_eq_none.mpr fun q hq hk => hany (List.any_eq_true.mpr ⟨q, hq, hk⟩)
    simp [List.find?_append, hnone]

theorem mapGet_mapSet_ne (h : j ≠ k) : mapGet (mapSet m k v) j = mapGet m j := by
  unfold mapGet mapSet
  split
  · rw [List.find?_map, keyed_replace]
    cases hfind : m.find? fun q => decide (q.1 = j) with
    | none => rfl
    | some q =>
      have hq : q.1 ≠ k := by
        have : q.1 = j := by simpa using List.find?_some hfind
        rwa [this]
      simp [hq]
  · simp [List.find?_append, Ne.symm h]

theorem mem_mapSet {p : String × V} : p ∈ mapSet m k v ↔ p = (k, v) ∨ p.1 ≠ k ∧ p ∈ m := by
  obtain ⟨key, value⟩ := p
  unfold mapSet
  split
  · next hany =>
    obtain ⟨q, hq, hk⟩ := List.any_eq_true.mp hany
    constructor
    · intro h
      obtain ⟨r, hr, hrp⟩ := List.mem_map.mp h
      split at hrp
      · exact .inl hrp.symm
      · next hne => exact .inr (hrp ▸ ⟨hne, hr⟩)
    · rintro (h | ⟨hne, hmem⟩)
      · exact List.mem_map.mpr ⟨q, hq, by rw [if_pos (by simpa using hk), h]⟩
      · exact List.mem_map.mpr ⟨_, hmem, if_neg hne⟩
  · next hany =>
    rw [List.mem_append, List.mem_singleton]
    constructor
    · rintro (hmem | h)
      · refine .inr ⟨fun hk => hany (List.any_eq_true.mpr ⟨_, hmem, ?_⟩), hmem⟩
        simpa using hk
      · exact .inl h
    · rintro (h | ⟨-, hmem⟩)
      · exact .inr h
      · exact .inl hmem

theorem nodup_mapSet (hm : (m.map (·.1)).Nodup) : ((mapSet m k v).map (·.1)).Nodup := by
  unfold mapSet
  split
  · have hkeys : (m.map fun p => if p.1 = k then (k, v) else p).map (·.1) = m.map (·.1) := by
      rw [List.map_map]
      refine List.map_congr_left fun p _ => ?_
      show (if p.1 = k then (k, v) else p).1 = p.1
      split
      · next hp => exact hp.symm
      · rfl
    rw [hkeys]
    exact hm
  · next hany =>
    rw [List.map_append, List.nodup_append]
    refine ⟨hm, by simp, ?_⟩
    intro a ha b hb heq
    obtain ⟨p, hp, rfl⟩ := List.mem_map.mp ha
    rw [List.map_singleton, List.mem_singleton] at hb
    exact hany (List.any_eq_true.mpr ⟨p, hp, by simpa using heq.trans hb⟩)

/-- Deleting an entry leaves every other entry where a reader finds it. -/
theorem mapGet_eraseP {p : String × V → Bool} (h : mapGet m k = some v) (hp : p (k, v) = false) :
    mapGet (m.eraseP p) k = some v := by
  induction m with
  | nil => cases h
  | cons q m ih =>
    obtain ⟨key, value⟩ := q
    by_cases hq : p (key, value) = true
    · rw [List.eraseP_cons_of_pos hq]
      by_cases hkey : key = k
      · obtain rfl : value = v := by simpa [mapGet, hkey] using h
        rw [← hkey, hq] at hp
        cases hp
      · simpa [mapGet, hkey] using h
    · rw [List.eraseP_cons_of_neg hq]
      by_cases hkey : key = k
      · simpa [mapGet, hkey] using h
      · have hrest : mapGet m k = some v := by simpa [mapGet, hkey] using h
        simpa [mapGet, hkey] using ih hrest

/-- `Set.prototype.add` keeps a set. -/
theorem nodup_setAdd {s : List String} {a : String} (h : s.Nodup) :
    (if a ∈ s then s else s ++ [a]).Nodup := by
  split
  · exact h
  · next hnew =>
    refine List.nodup_append.mpr ⟨h, by simp, ?_⟩
    intro b hb c hc hbc
    rw [List.mem_singleton.mp hc] at hbc
    exact hnew (hbc ▸ hb)

end Map

/-! ### The loops of `handleDisconnect` -/

/-- The first loop goes through the entries up to its `break`. -/
def forgetDevice (client : String) :
    List (String × String) → List (String × String) → List (String × String)
  | [], deviceSockets => deviceSockets
  | (deviceId, socket) :: entries, deviceSockets =>
      if socket = client then mapDelete deviceSockets deviceId
      else forgetDevice client entries deviceSockets

/-- The second loop takes the client out of every set and drops the sets that become empty. -/
def leaveMeetings (client : String) :
    List (String × List String) → List (String × List String) → List (String × List String)
  | [], meetingSockets => meetingSockets
  | (meetingId, sockets) :: entries, meetingSockets =>
      let sockets := sockets.filter (· ≠ client)
      let meetingSockets := mapSet meetingSockets meetingId sockets
      leaveMeetings client entries
        (if sockets.isEmpty then mapDelete meetingSockets meetingId else meetingSockets)

section Loops

variable {V : Type} {before after : List (String × V)} {k : String} {v w : V}

/-- With no key twice, deleting an entry takes it out of its place. -/
theorem mapDelete_append (h : ((before ++ (k, v) :: after).map (·.1)).Nodup) :
    mapDelete (before ++ (k, v) :: after) k = before ++ after := by
  rw [List.map_append, List.map_cons, List.nodup_append] at h
  obtain ⟨-, hafter, hbefore⟩ := h
  unfold mapDelete
  rw [List.filter_append, List.filter_cons_of_neg (by simp)]
  congr 1 <;> refine List.filter_eq_self.mpr fun p hp => decide_eq_true ?_
  · exact hbefore p.1 (List.mem_map_of_mem hp) k List.mem_cons_self
  · rintro rfl
    exact (List.nodup_cons.mp hafter).1 (List.mem_map.mpr ⟨p, hp, rfl⟩)

/-- And setting it changes it in its place. -/
theorem mapSet_append (h : ((before ++ (k, v) :: after).map (·.1)).Nodup) :
    mapSet (before ++ (k, v) :: after) k w = before ++ (k, w) :: after := by
  rw [List.map_append, List.map_cons, List.nodup_append] at h
  obtain ⟨-, hafter, hbefore⟩ := h
  unfold mapSet
  rw [if_pos (by simp), List.map_append, List.map_cons, if_pos rfl]
  congr 1
  · refine (List.map_congr_left fun p hp => if_neg ?_).trans (List.map_id _)
    exact hbefore p.1 (List.mem_map_of_mem hp) k List.mem_cons_self
  · congr 1
    refine (List.map_congr_left fun p hp => if_neg ?_).trans (List.map_id _)
    rintro rfl
    exact (List.nodup_cons.mp hafter).1 (List.mem_map.mpr ⟨p, hp, rfl⟩)

end Loops

theorem forgetDevice_eq {client : String} {before entries : List (String × String)}
    (h : ((before ++ entries).map (·.1)).Nodup) :
    forgetDevice client entries (before ++ entries) =
      before ++ entries.eraseP (·.2 = client) := by
  induction entries generalizing before with
  | nil => rfl
  | cons p entries ih =>
    obtain ⟨deviceId, socket⟩ := p
    unfold forgetDevice
    by_cases hs : socket = client
    · rw [if_pos hs, mapDelete_append h, List.eraseP_cons_of_pos (by simpa using hs)]
    · rw [if_neg hs, List.eraseP_cons_of_neg (by simpa using hs)]
      have hsplit : before ++ (deviceId, socket) :: entries =
          (before ++ [(deviceId, socket)]) ++ entries := by simp
      rw [hsplit] at h ⊢
      rw [ih h, List.append_assoc, List.singleton_append]

theorem leaveMeetings_eq {client : String} {before entries : List (String × List String)}
    (h : ((before ++ entries).map (·.1)).Nodup) :
    leaveMeetings client entries (before ++ entries) =
      before ++ (entries.map fun p => (p.1, p.2.filter (· ≠ client))).filter (!·.2.isEmpty) := by
  induction entries generalizing before with
  | nil => simp [leaveMeetings]
  | cons p entries ih =>
    obtain ⟨meetingId, sockets⟩ := p
    unfold leaveMeetings
    dsimp only
    rw [mapSet_append h, List.map_cons]
    have hkept : ((before ++ (meetingId, sockets.filter (· ≠ client)) :: entries).map
        (·.1)).Nodup := by simpa using h
    split
    · next hempty =>
      have hrest : ((before ++ entries).map (·.1)).Nodup :=
        h.sublist ((List.sublist_cons_self _ _).append_left before |>.map _)
      rw [mapDelete_append hkept, ih hrest, List.filter_cons_of_neg (by simpa using hempty)]
    · next hempty =>
      have hsplit : before ++ (meetingId, sockets.filter (· ≠ client)) :: entries =
          (before ++ [(meetingId, sockets.filter (· ≠ client))]) ++ entries := by simp
      rw [hsplit] at hkept ⊢
      rw [ih hkept, List.filter_cons_of_pos (by simpa using hempty), List.append_assoc,
        List.singleton_append]

/-- The handler's loops delete from the maps they go through, and have the effect stated. -/
theorem handleDisconnect_loops {client : String} {g : Gateway}
    (hdevices : (g.deviceSockets.map (·.1)).Nodup)
    (hmeetings : (g.meetingSockets.map (·.1)).Nodup) :
    g.handleDisconnect client = { g with
      connected := g.connected.filter (· ≠ client)
      deviceSockets := forgetDevice client g.deviceSockets g.deviceSockets
      meetingSockets := leaveMeetings client g.meetingSockets g.meetingSockets } := by
  have hd := @forgetDevice_eq client [] _ hdevices
  have hm := @leaveMeetings_eq client [] _ hmeetings
  simp only [List.nil_append] at hd hm
  rw [hd, hm]
  rfl

/-! ### Histories -/

def isDeviceConnected (deviceId : String) (g : Gateway) : Bool :=
  (mapGet g.deviceSockets deviceId).isSome

def getConnectedDeviceIds (g : Gateway) : List String := g.deviceSockets.map (·.1)

/-- The sockets that `emitMeetingUpdate` finds for a meeting. -/
def subscribers (meetingId : String) (g : Gateway) : List String :=
  (mapGet g.meetingSockets meetingId).getD []

/-- The handler of an event, whoever it comes from. -/
def dispatch (g : Gateway) : SocketEvent → Gateway
  | .connection client => g.handleConnection client
  | .disconnect client => g.handleDisconnect client
  | .deviceConnect client deviceId => g.handleDeviceConnect client deviceId
  | .meetingSubscribe client meetingId => g.handleMeetingSubscribe client meetingId

/-- The gateway after any sequence of events. -/
def dispatched (events : List SocketEvent) : Gateway := events.foldl dispatch empty

/-- The gateway after a sequence of events in which only connected clients are heard. -/
def run (events : List SocketEvent) : Gateway := events.foldl handle empty

@[simp] theorem dispatched_snoc (events : List SocketEvent) (event : SocketEvent) :
    dispatched (events ++ [event]) = (dispatched events).dispatch event := by
  simp [dispatched]

@[simp] theorem run_snoc (events : List SocketEvent) (event : SocketEvent) :
    run (events ++ [event]) = (run events).handle event := by
  simp [run]

variable {g : Gateway} {client meetingId : String}

theorem handle_cases (g : Gateway) (event : SocketEvent) :
    g.handle event = g.dispatch event ∨ g.handle event = g := by
  cases event with
  | connection client => exact .inl rfl
  | disconnect client => exact .inl rfl
  | deviceConnect client deviceId => exact ite_eq_or_eq ..
  | meetingSubscribe client meetingId => exact ite_eq_or_eq ..

/-- The maps have no key twice, the sets no element twice, and no set is empty. -/
structure Tidy (g : Gateway) : Prop where
  clients : g.connected.Nodup
  devices : (g.deviceSockets.map (·.1)).Nodup
  meetings : (g.meetingSockets.map (·.1)).Nodup
  sockets : ∀ p ∈ g.meetingSockets, p.2.Nodup
  nonempty : ∀ p ∈ g.meetingSockets, p.2 ≠ []

theorem Tidy.empty : Tidy empty := by
  constructor <;> simp [Gateway.empty]

theorem Tidy.subscribers (h : Tidy g) : (g.subscribers meetingId).Nodup := by
  unfold Gateway.subscribers
  cases hget : mapGet g.meetingSockets meetingId with
  | none => exact List.nodup_nil
  | some sockets => exact h.sockets _ (mapGet_mem hget)

theorem Tidy.handleDisconnect (h : Tidy g) : Tidy (g.handleDisconnect client) where
  clients := h.clients.sublist List.filter_sublist
  devices := h.devices.sublist ((List.eraseP_sublist ..).map _)
  meetings := by
    refine List.Nodup.sublist (List.filter_sublist.map _) ?_
    simpa [List.map_map, Function.comp_def] using h.meetings
  sockets := by
    intro p hp
    obtain ⟨q, hq, rfl⟩ := List.mem_map.mp (List.mem_filter.mp hp).1
    exact (h.sockets q hq).sublist List.filter_sublist
  nonempty := by
    intro p hp
    simpa using (List.mem_filter.mp hp).2

theorem Tidy.handleMeetingSubscribe (h : Tidy g) :
    Tidy (g.handleMeetingSubscribe client meetingId) where
  clients := h.clients
  devices := h.devices
  meetings := nodup_mapSet h.meetings
  sockets := by
    intro p hp
    rcases mem_mapSet.mp hp with rfl | ⟨-, hp⟩
    · exact nodup_setAdd h.subscribers
    · exact h.sockets p hp
  nonempty := by
    intro p hp
    rcases mem_mapSet.mp hp with rfl | ⟨-, hp⟩
    · show (if client ∈ g.subscribers meetingId then _ else _ : List String) ≠ []
      split
      · next hmem => exact List.ne_nil_of_mem hmem
      · simp
    · exact h.nonempty p hp

theorem Tidy.dispatch (h : Tidy g) (event : SocketEvent) : Tidy (g.dispatch event) := by
  cases event with
  | connection client => exact { h with clients := nodup_setAdd h.clients }
  | disconnect client => exact h.handleDisconnect
  | deviceConnect client deviceId => exact { h with devices := nodup_mapSet h.devices }
  | meetingSubscribe client meetingId => exact h.handleMeetingSubscribe

theorem dispatched_tidy (events : List SocketEvent) : Tidy (dispatched events) := by
  induction events using List.reverseRecOn with
  | nil => exact Tidy.empty
  | append_singleton events event ih =>
    rw [dispatched_snoc]
    exact ih.dispatch event

theorem run_tidy (events : List SocketEvent) : Tidy (run events) := by
  induction events using List.reverseRecOn with
  | nil => exact Tidy.empty
  | append_singleton events event ih =>
    rw [run_snoc]
    rcases handle_cases (run events) event with h | h <;> rw [h]
    · exact ih.dispatch event
    · exact ih

/-! ### Subscribers -/

theorem exists_of_mem_subscribers (h : client ∈ g.subscribers meetingId) :
    ∃ sockets, (meetingId, sockets) ∈ g.meetingSockets ∧ client ∈ sockets := by
  unfold subscribers at h
  cases hget : mapGet g.meetingSockets meetingId with
  | none => simp [hget] at h
  | some sockets =>
    rw [hget, Option.getD_some] at h
    exact ⟨sockets, mapGet_mem hget, h⟩

theorem subscribers_handleMeetingSubscribe (m : String) :
    (g.handleMeetingSubscribe client meetingId).subscribers m =
      if m = meetingId ∧ client ∉ g.subscribers m then g.subscribers m ++ [client]
      else g.subscribers m := by
  by_cases hm : m = meetingId
  · subst hm
    show (mapGet (mapSet _ m _) m).getD [] = _
    rw [mapGet_mapSet_self, Option.getD_some]
    show (if client ∈ g.subscribers m then g.subscribers m else g.subscribers m ++ [client]) = _
    by_cases hc : client ∈ g.subscribers m <;> simp [hc]
  · show (mapGet (mapSet _ meetingId _) m).getD [] = _
    rw [mapGet_mapSet_ne hm, if_neg (fun h => hm h.1)]
    rfl

theorem mem_subscribers_handleMeetingSubscribe {other m : String} :
    other ∈ (g.handleMeetingSubscribe client meetingId).subscribers m ↔
      other ∈ g.subscribers m ∨ client = other ∧ meetingId = m := by
  rw [subscribers_handleMeetingSubscribe]
  split
  · next hnew =>
    rw [List.mem_append, List.mem_singleton]
    exact or_congr_right ⟨fun h => ⟨h.symm, hnew.1.symm⟩, fun h => h.1.symm⟩
  · next hold =>
    refine ⟨.inl, ?_⟩
    rintro (h | ⟨rfl, rfl⟩)
    · exact h
    · by_contra hmem
      exact hold ⟨rfl, hmem⟩

theorem subscribers_handleDisconnect (h : Tidy g) (m : String) :
    (g.handleDisconnect client).subscribers m = (g.subscribers m).filter (· ≠ client) := by
  have hafter : Tidy (g.handleDisconnect client) := h.handleDisconnect
  -- the entries after the loop, read off its closed form
  have hentry : ∀ sockets, (m, sockets) ∈ (g.handleDisconnect client).meetingSockets ↔
      sockets ≠ [] ∧ ∃ old, (m, old) ∈ g.meetingSockets ∧ old.filter (· ≠ client) = sockets := by
    intro sockets
    simp [Gateway.handleDisconnect, and_comm]
  unfold Gateway.subscribers
  cases hget : mapGet g.meetingSockets m with
  | none =>
    cases hget' : mapGet (g.handleDisconnect client).meetingSockets m with
    | none => rfl
    | some sockets =>
      obtain ⟨-, old, hold, -⟩ := (hentry sockets).mp (mapGet_mem hget')
      rw [(mapGet_eq_some_iff h.meetings).mpr hold] at hget
      cases hget
  | some old =>
    rw [Option.getD_some]
    by_cases hempty : old.filter (· ≠ client) = []
    · rw [hempty]
      cases hget' : mapGet (g.handleDisconnect client).meetingSockets m with
      | none => rfl
      | some sockets =>
        obtain ⟨hne, old', hold', hsockets⟩ := (hentry sockets).mp (mapGet_mem hget')
        rw [(mapGet_eq_some_iff h.meetings).mpr hold'] at hget
        cases hget
        exact absurd (hsockets.symm.trans hempty) hne
    · have hmem := (hentry _).mpr ⟨hempty, old, mapGet_mem hget, rfl⟩
      rw [(mapGet_eq_some_iff hafter.meetings).mpr hmem, Option.getD_some]

/-! ### Messages -/

/-- One message to each socket of a list, one after the other. -/
theorem foldl_emit (sockets : List String) (message : Message) :
    sockets.foldl (fun g socket => g.emit socket message) g =
      { g with sent := g.sent ++ sockets.map fun socket => (socket, message) } := by
  induction sockets generalizing g with
  | nil => simp
  | cons socket sockets ih =>
    rw [List.foldl_cons, ih]
    simp [emit]

/-- Both deliveries of a status update, in order. -/
theorem emitMeetingUpdate_eq (payload : MeetingUpdate) : g.emitMeetingUpdate meetingId payload =
    { g with sent := g.sent ++
        (g.subscribers meetingId).map (fun socket => (socket, .meetingStatusUpdate none payload)) ++
        g.connected.map fun socket =>
          (socket, .meetingStatusUpdate (some meetingId) payload) } := by
  unfold emitMeetingUpdate
  dsimp only
  rw [foldl_emit, foldl_emit]
  rfl

end TroofAI.Hub.Gateway
