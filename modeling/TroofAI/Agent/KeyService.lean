import TroofAI.Agent.Enrollment

/-!
Where the companion agent has its key from: `KeyService`.

A key can be in the store of the platform provider (the TPM) or in that of the default software
provider, each time under the name `TroofAI-DeviceKey`. `Initialize` looks there first and else
creates a key with the platform provider, which persists it; when that fails it makes one with
`RSA.Create`, which the process forgets when it ends. The platform provider can be unavailable
at any call; asking it for anything then throws.
-/

namespace TroofAI.Agent

/-- The public part of a key pair, as the base64 text of its SubjectPublicKeyInfo. -/
structure RsaKey where
  spki : String
deriving DecidableEq, Repr

/-- What the two providers keep under the name of the key. -/
structure CngStore where
  platform : Option RsaKey
  software : Option RsaKey
deriving DecidableEq, Repr

/-- `_rsa` and `_hardwareBound` after a call of `Initialize`. -/
structure LoadedKey where
  rsa : RsaKey
  hardwareBound : Bool
deriving DecidableEq, Repr

namespace LoadedKey

def getPublicKeyPem (key : LoadedKey) : String :=
  "-----BEGIN PUBLIC KEY-----\n" ++ key.rsa.spki ++ "\n-----END PUBLIC KEY-----"

/-- What `EnrollAsync` asks the service for. -/
def keyService (key : LoadedKey) : KeyService := ⟨key.getPublicKeyPem, key.hardwareBound⟩

/-- The text names the key. -/
theorem getPublicKeyPem_inj {key key' : LoadedKey} :
    key.getPublicKeyPem = key'.getPublicKeyPem ↔ key.rsa = key'.rsa := by
  unfold getPublicKeyPem
  rw [String.append_left_inj, String.append_right_inj]
  exact ⟨congrArg RsaKey.mk, congrArg RsaKey.spki⟩

end LoadedKey

namespace CngStore

/-- `TryLoadExistingKey`, with the exceptions of the platform provider caught. -/
def tryLoadExistingKey (store : CngStore) (available : Bool) : Option LoadedKey :=
  match if available then store.platform else none with
  | some key => some ⟨key, true⟩
  | none => store.software.map fun key => ⟨key, false⟩

/-- `CngKey.Create` with the platform provider: it throws when the provider is unavailable and
when the name is taken. -/
def createPlatformKey (store : CngStore) (available : Bool) (key : RsaKey) : Option CngStore :=
  if available ∧ store.platform = none then some { store with platform := some key } else none

/-- `Initialize`, with the key pair that is drawn if one is made. -/
def initializeKey (store : CngStore) (available : Bool) (newKey : RsaKey) : LoadedKey × CngStore :=
  match store.tryLoadExistingKey available with
  | some loaded => (loaded, store)
  | none =>
    match store.createPlatformKey available newKey with
    | some store => (⟨newKey, true⟩, store)
    | none => (⟨newKey, false⟩, store)

end CngStore

namespace CngStore

variable {store : CngStore} {newKey key : RsaKey}

/-! ### One call of `Initialize` -/

theorem initializeKey_platform (h : store.platform = some key) :
    store.initializeKey true newKey = (⟨key, true⟩, store) := by
  simp [initializeKey, tryLoadExistingKey, h]

/-- Beside a software key nothing is created, and the platform key is preferred. -/
theorem initializeKey_software (available : Bool) (h : store.software = some key) :
    store.initializeKey available newKey =
      (⟨if available then store.platform.getD key else key, available && store.platform.isSome⟩,
        store) := by
  cases available with
  | false => simp [initializeKey, tryLoadExistingKey, h]
  | true => cases hp : store.platform <;> simp [initializeKey, tryLoadExistingKey, h, hp]

/-- A key that the platform provider creates is there to stay. -/
theorem initializeKey_created (hplatform : store.platform = none) (h : store.software = none) :
    store.initializeKey true newKey =
      (⟨newKey, true⟩, { store with platform := some newKey }) := by
  simp [initializeKey, tryLoadExistingKey, createPlatformKey, h, hplatform]

/-- The fallback leaves nothing behind. -/
theorem initializeKey_fallback (h : store.software = none) :
    store.initializeKey false newKey = (⟨newKey, false⟩, store) := by
  simp [initializeKey, tryLoadExistingKey, createPlatformKey, h]

/-- The key is one of the store's or the new one, which at most becomes the platform's. -/
theorem initializeKey_spec (store : CngStore) (available : Bool) (newKey : RsaKey) :
    let (loaded, after) := store.initializeKey available newKey
    (store.platform = some loaded.rsa ∨ store.software = some loaded.rsa ∨ loaded.rsa = newKey) ∧
      after.software = store.software ∧
      (after.platform = store.platform ∨ after.platform = some newKey) := by
  cases hs : store.software with
  | some key =>
    rw [initializeKey_software available hs]
    refine ⟨?_, hs, .inl rfl⟩
    cases available with
    | false => exact .inr (.inl rfl)
    | true =>
      cases hp : store.platform with
      | some key' => exact .inl rfl
      | none => exact .inr (.inl rfl)
  | none =>
    cases available with
    | false =>
      rw [initializeKey_fallback hs]
      exact ⟨.inr (.inr rfl), hs, .inl rfl⟩
    | true =>
      cases hp : store.platform with
      | some key =>
        rw [initializeKey_platform hp]
        exact ⟨.inl rfl, hs, .inl hp⟩
      | none =>
        rw [initializeKey_created hp hs]
        exact ⟨.inr (.inr rfl), hs, .inr rfl⟩

end CngStore

/-! ### Starts of the agent -/

/-- A machine before the agent is started on it. The key pairs that are drawn there never
repeat, and none of them is in a store already. -/
structure Machine where
  store : CngStore
  newKey : Nat → RsaKey
  newKey_injective : Function.Injective newKey
  platform_old : ∀ n, store.platform ≠ some (newKey n)
  software_old : ∀ n, store.software ≠ some (newKey n)

namespace Machine

/-- The keys held after each of some calls of `Initialize`, the first of which is the `n`-th,
and the store they leave. For each call it is given whether the platform provider was available. -/
def initializeAll (newKey : Nat → RsaKey) :
    Nat → List Bool → CngStore → List LoadedKey × CngStore
  | _, [], store => ([], store)
  | n, available :: calls, store =>
      let (loaded, store) := store.initializeKey available (newKey n)
      let (rest, store) := initializeAll newKey (n + 1) calls store
      (loaded :: rest, store)

/-- Starts of the agent, one process after the other, each with its calls of `Initialize`. -/
def startAll (newKey : Nat → RsaKey) :
    Nat → List (List Bool) → CngStore → List LoadedKey × CngStore
  | _, [], store => ([], store)
  | n, calls :: starts, store =>
      let (loaded, store) := initializeAll newKey n calls store
      let (rest, store) := startAll newKey (n + calls.length) starts store
      (loaded ++ rest, store)

/-- What the agent can export in the course of its starts. -/
def exports (m : Machine) (starts : List (List Bool)) : List KeyService :=
  (startAll m.newKey 0 starts m.store).1.map LoadedKey.keyService

variable {newKey : Nat → RsaKey} {n : Nat} {store : CngStore}

theorem initializeAll_append (calls calls' : List Bool) :
    initializeAll newKey n (calls ++ calls') store =
      let (loaded, store) := initializeAll newKey n calls store
      let (rest, store) := initializeAll newKey (n + calls.length) calls' store
      (loaded ++ rest, store) := by
  induction calls generalizing n store with
  | nil => rfl
  | cons available calls ih =>
    simp only [List.cons_append, initializeAll, ih, List.length_cons]
    rw [Nat.add_assoc n 1, Nat.add_comm 1]

/-- `Initialize` keeps nothing in the process that it reads again, so the starts are one
sequence of calls. -/
theorem startAll_eq (starts : List (List Bool)) :
    startAll newKey n starts store = initializeAll newKey n starts.flatten store := by
  induction starts generalizing n store with
  | nil => rfl
  | cons calls starts ih =>
    rw [List.flatten_cons, initializeAll_append, startAll]
    simp only [ih]

end Machine

end TroofAI.Agent
