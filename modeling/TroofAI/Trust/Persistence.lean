import TroofAI.Agent.KeyService

/-!
Whether the agent keeps its key.

The specification has a named key, in software where there is no TPM. The fallback of
`Initialize` makes a key without a name, which nothing loads again: every call that falls back
holds a key that no other call holds. So the key persists exactly where no call falls back, and
where a software key of that name does not stand beside a platform key that comes and goes
(`device_key_persists_iff`).
-/

namespace TroofAI.Agent.Machine

variable {m : Machine} {newKey : Nat → RsaKey} {n : Nat} {store : CngStore} {key : RsaKey}
  {calls : List Bool}

/-- A key that is held was in a store already or is drawn by one of the calls. -/
theorem held_cases {loaded : LoadedKey} (h : loaded ∈ (initializeAll newKey n calls store).1) :
    store.platform = some loaded.rsa ∨ store.software = some loaded.rsa ∨
      ∃ k, n ≤ k ∧ loaded.rsa = newKey k := by
  induction calls generalizing n store with
  | nil => cases h
  | cons available calls ih =>
    obtain ⟨hheld, hsoftware, hplatform⟩ := store.initializeKey_spec available (newKey n)
    rcases List.mem_cons.mp h with rfl | hmem
    · exact hheld.imp_right (Or.imp_right fun h => ⟨n, le_rfl, h⟩)
    · rcases ih hmem with h | h | ⟨k, hk, h⟩
      · rcases hplatform with hp | hp
        · exact .inl (hp.symm.trans h)
        · exact .inr (.inr ⟨n, le_rfl, (Option.some.inj (hp.symm.trans h)).symm⟩)
      · exact .inr (.inl (hsoftware.symm.trans h))
      · exact .inr (.inr ⟨k, by omega, h⟩)

/-- With a platform key in the store and no software key, a call holds the platform key exactly
if the provider is available. -/
theorem all_platform_iff (hplatform : store.platform = some key) (hsoftware : store.software = none)
    (hold : ∀ k, n ≤ k → key ≠ newKey k) :
    (∀ loaded ∈ (initializeAll newKey n calls store).1, loaded.rsa = key) ↔
      ∀ available ∈ calls, available = true := by
  induction calls generalizing n with
  | nil => simp [initializeAll]
  | cons available calls ih =>
    have ih := ih (n := n + 1) fun k hk => hold k (by omega)
    cases available with
    | true =>
      simp only [initializeAll, CngStore.initializeKey_platform hplatform, List.forall_mem_cons, ih,
        true_and]
    | false =>
      simp only [initializeAll, CngStore.initializeKey_fallback hsoftware, List.forall_mem_cons,
        (hold n le_rfl).symm, Bool.false_eq_true, false_and]

/-- With a software key in the store, a call holds it unless a platform key is available. -/
theorem held_software {key' : RsaKey} (hsoftware : store.software = some key) :
    (∀ loaded ∈ (initializeAll newKey n calls store).1, loaded.rsa = key') ↔
      ∀ available ∈ calls,
        (if available then store.platform.getD key else key) = key' := by
  induction calls generalizing n with
  | nil => simp [initializeAll]
  | cons available calls ih =>
    simp only [initializeAll, CngStore.initializeKey_software available hsoftware,
      List.forall_mem_cons, ih]

/-- A key made by the first call without a store to keep it in is not held by any later call. -/
theorem fallback_alone :
    (∀ loaded ∈ (initializeAll m.newKey 1 calls m.store).1, loaded.rsa = m.newKey 0) ↔
      calls = [] := by
  constructor
  · intro h
    cases calls with
    | nil => rfl
    | cons available calls =>
      have hmem : (m.store.initializeKey available (m.newKey 1)).1 ∈
          (initializeAll m.newKey 1 (available :: calls) m.store).1 := List.mem_cons_self
      have hrsa := h _ hmem
      rcases held_cases hmem with hp | hp | ⟨k, hk, hp⟩
      · exact absurd (hp.trans (congrArg some hrsa)) (m.platform_old 0)
      · exact absurd (hp.trans (congrArg some hrsa)) (m.software_old 0)
      · have := m.newKey_injective (hp.symm.trans hrsa)
        omega
  · rintro rfl loaded hmem
    cases hmem

/-- With no software key, the calls after one that had the provider need it too. -/
theorem available_stays (hs : m.store.software = none) :
    (∀ loaded ∈ (initializeAll m.newKey 1 calls (m.store.initializeKey true (m.newKey 0)).2).1,
      loaded.rsa = (m.store.initializeKey true (m.newKey 0)).1.rsa) ↔
      ∀ available ∈ calls, available = true := by
  cases hp : m.store.platform with
  | some key =>
    rw [CngStore.initializeKey_platform hp]
    refine all_platform_iff hp hs fun k _ hk => ?_
    exact m.platform_old k (hk ▸ hp)
  | none =>
    rw [CngStore.initializeKey_created hp hs]
    refine all_platform_iff rfl hs fun k hk heq => ?_
    have := m.newKey_injective heq
    omega

/-- No call has to fall back, or there is only one; or a software key is in the store, and no
other key of the platform is, or that is never available. -/
def Keeps (m : Machine) (calls : List Bool) : Prop :=
  calls.length ≤ 1 ∨ (∀ available ∈ calls, available = true) ∨
    ∃ key, m.store.software = some key ∧
      (m.store.platform = none ∨ m.store.platform = some key ∨
        ∀ available ∈ calls, available = false)

/-- The later calls hold the key of the first. -/
theorem later_iff {available : Bool} :
    (∀ loaded ∈ (initializeAll m.newKey 1 calls
        (m.store.initializeKey available (m.newKey 0)).2).1,
      loaded.rsa = (m.store.initializeKey available (m.newKey 0)).1.rsa) ↔
      m.Keeps (available :: calls) := by
  unfold Keeps
  cases hs : m.store.software with
  | none =>
    cases available with
    | true =>
      rw [available_stays hs]
      constructor
      · exact fun h => .inr (.inl (List.forall_mem_cons.mpr ⟨rfl, h⟩))
      · rintro (h | h | ⟨key, hnone, -⟩)
        · simp [List.eq_nil_iff_length_eq_zero.mpr (Nat.le_zero.mp (Nat.le_of_succ_le_succ h))]
        · exact (List.forall_mem_cons.mp h).2
        · cases hnone
    | false =>
      rw [CngStore.initializeKey_fallback hs, fallback_alone]
      simp
  | some key =>
    rw [CngStore.initializeKey_software available hs, held_software hs]
    cases hp : m.store.platform with
    | none => simp
    | some key' =>
      by_cases heq : key' = key
      · simp [heq]
      · -- two calls hold the same key exactly if the provider answers both or neither
        have hsame : ∀ a : Bool, (if a then (some key').getD key else key) =
            (if available then (some key').getD key else key) ↔ a = available := by
          intro a
          cases a <;> cases available <;> simp [heq, Ne.symm heq]
        simp only [hsame]
        cases available <;> cases calls <;> simp [heq]

/-- Every public key that the agent exports is the first one it exports, in whatever starts and
whether or not the platform provider is available at each call, if and only if `Keeps` holds. -/
theorem device_key_persists_iff (m : Machine) (starts : List (List Bool)) :
    (∀ first rest, m.exports starts = first :: rest →
      ∀ keys ∈ rest, keys.publicKeyPem = first.publicKeyPem) ↔ m.Keeps starts.flatten := by
  unfold exports
  rw [startAll_eq]
  cases starts.flatten with
  | nil => simp [Keeps, initializeAll]
  | cons available calls =>
    rw [← later_iff]
    constructor
    · intro h loaded hmem
      exact LoadedKey.getPublicKeyPem_inj.mp (h _ _ rfl _ (List.mem_map_of_mem hmem))
    · rintro h first rest heq keys hkeys
      obtain ⟨rfl, rfl⟩ := List.cons.inj heq
      obtain ⟨loaded, hmem, rfl⟩ := List.mem_map.mp hkeys
      exact LoadedKey.getPublicKeyPem_inj.mpr (h loaded hmem)

/-- A machine that has never had the agent on it. -/
def fresh : Machine where
  store := ⟨none, none⟩
  newKey n := ⟨Hub.padNat 4 n⟩
  newKey_injective := fun _ _ h => Hub.padNat_injective 4 (RsaKey.mk.inj h)
  platform_old := by simp
  software_old := by simp

/-- Without a TPM, the two calls of one start already hold different keys, and so do all later
ones. -/
theorem device_key_lost :
    ¬ ∀ (m : Machine) (starts : List (List Bool)) first rest, m.exports starts = first :: rest →
      ∀ keys ∈ rest, keys.publicKeyPem = first.publicKeyPem := by
  intro h
  have hsame := h fresh [[false, false], [false, false]] _ _ rfl _ List.mem_cons_self
  have hdrawn : fresh.newKey 1 = fresh.newKey 0 := LoadedKey.getPublicKeyPem_inj.mp hsame
  exact absurd (fresh.newKey_injective hdrawn) (by decide)

end TroofAI.Agent.Machine
