import Mathlib.Data.List.Basic
import Mathlib.Data.List.Nodup
import Mathlib.Data.List.Perm.Basic
import Mathlib.Logic.Function.Basic

/-!
Two kinds of store, over arbitrary rows, keys and values.

* `Table`: rows in insertion order with a primary key. That no two rows share a key
  is a field, so every table value satisfies it.
* `RowOrder`: the order in which a query lists rows.
* `Expiring`: values under keys, each with the last instant it is readable at.
-/

namespace TroofAI

/-! ### The order of rows -/

/-- An order that a query asks for. How rows stand that it does not tell apart is left to the
database. -/
structure RowOrder {Row : Type} (before : Row → Row → Prop) where
  sort : List Row → List Row
  perm : ∀ rows, (sort rows).Perm rows
  sorted : ∀ rows, (sort rows).Pairwise before

/-- The order of a query that asks for none. -/
abbrev AnyOrder (Row : Type) := RowOrder fun _ _ : Row => True

/-- Rows may be listed as they were inserted. -/
instance {Row : Type} : Inhabited (AnyOrder Row) where
  default := {
    sort := id
    perm := fun _ => .rfl
    sorted := fun _ => List.pairwise_of_forall fun _ _ => trivial }

/-! ### Tables with a primary key -/

/-- Rows in insertion order, no two with one key. -/
structure Table {Row K : Type} (key : Row → K) where
  rows : List Row
  nodup : (rows.map key).Nodup

namespace Table

variable {Row K : Type} {key : Row → K}

def empty : Table key := ⟨[], List.nodup_nil⟩

variable [DecidableEq K]

/-- The row with key `k`. -/
def find? (t : Table key) (k : K) : Option Row := t.rows.find? fun r => key r = k

theorem find?_eq_some {t : Table key} {k : K} {r : Row} :
    t.find? k = some r ↔ r ∈ t.rows ∧ key r = k := by
  constructor
  · intro h
    exact ⟨List.mem_of_find?_eq_some h, by simpa using List.find?_some h⟩
  · rintro ⟨hmem, rfl⟩
    cases h : t.find? (key r) with
    | none =>
      have := List.find?_eq_none.mp h r hmem
      simp at this
    | some r' =>
      have hkey : key r' = key r := by simpa using List.find?_some h
      rw [List.inj_on_of_nodup_map t.nodup (List.mem_of_find?_eq_some h) hmem hkey]

theorem find?_key {t : Table key} {k : K} {r : Row} (h : t.find? k = some r) : key r = k :=
  (find?_eq_some.mp h).2

theorem find?_eq_none {t : Table key} {k : K} :
    t.find? k = none ↔ ∀ r ∈ t.rows, key r ≠ k := by
  simp [find?]

/-- Add a row; `none` when its key is taken. -/
def insert? (t : Table key) (r : Row) : Option (Table key) :=
  if h : t.find? (key r) = none then
    some ⟨t.rows ++ [r], by
      rw [List.map_append, List.nodup_append]
      refine ⟨t.nodup, by simp, ?_⟩
      intro k hk k' hk' heq
      obtain ⟨r', hr', rfl⟩ := List.mem_map.mp hk
      rw [List.map_singleton, List.mem_singleton] at hk'
      exact find?_eq_none.mp h r' hr' (heq.trans hk')⟩
  else none

theorem exists_insert? {t : Table key} {r : Row} (h : t.find? (key r) = none) :
    ∃ t', t.insert? r = some t' := by
  unfold insert?
  rw [dif_pos h]
  exact ⟨_, rfl⟩

theorem insert?_rows {t t' : Table key} {r : Row} (h : t.insert? r = some t') :
    t'.rows = t.rows ++ [r] := by
  unfold insert? at h
  split at h
  · cases h
    rfl
  · cases h

theorem insert?_fresh {t t' : Table key} {r : Row} (h : t.insert? r = some t') :
    t.find? (key r) = none := by
  unfold insert? at h
  split at h
  · next hnone => exact hnone
  · cases h

theorem find?_insert? {t t' : Table key} {r : Row} (h : t.insert? r = some t') (k : K) :
    t'.find? k = if key r = k then some r else t.find? k := by
  unfold find?
  rw [insert?_rows h, List.find?_append]
  by_cases hk : key r = k
  · have hnone : t.rows.find? (fun r' => decide (key r' = k)) = none := hk ▸ insert?_fresh h
    simp [hnone, hk]
  · simp [hk]

/-- Change the row with key `k`, if there is one, keeping its key. -/
def modify (t : Table key) (k : K) (f : Row → Row) (hf : ∀ r, key (f r) = key r) : Table key where
  rows := t.rows.map fun r => if key r = k then f r else r
  nodup := by
    have hkeys : (t.rows.map fun r => if key r = k then f r else r).map key = t.rows.map key := by
      rw [List.map_map]
      refine List.map_congr_left fun r _ => ?_
      show key (if key r = k then f r else r) = key r
      split
      · exact hf r
      · rfl
    rw [hkeys]
    exact t.nodup

theorem find?_modify {t : Table key} {k : K} {f : Row → Row} {hf : ∀ r, key (f r) = key r}
    (j : K) : (t.modify k f hf).find? j = if j = k then (t.find? j).map f else t.find? j := by
  by_cases hj : j = k
  · subst hj
    rw [if_pos rfl]
    cases h : t.find? j with
    | none =>
      refine find?_eq_none.mpr fun r hr => ?_
      obtain ⟨r', hr', rfl⟩ := List.mem_map.mp hr
      have hne := find?_eq_none.mp h r' hr'
      rwa [if_neg hne]
    | some r =>
      obtain ⟨hmem, hkey⟩ := find?_eq_some.mp h
      refine find?_eq_some.mpr ⟨List.mem_map.mpr ⟨r, hmem, if_pos hkey⟩, ?_⟩
      rw [hf, hkey]
  · rw [if_neg hj]
    cases h : t.find? j with
    | none =>
      refine find?_eq_none.mpr fun r hr => ?_
      obtain ⟨r', hr', rfl⟩ := List.mem_map.mp hr
      have hne := find?_eq_none.mp h r' hr'
      split
      · rwa [hf]
      · exact hne
    | some r =>
      obtain ⟨hmem, hkey⟩ := find?_eq_some.mp h
      refine find?_eq_some.mpr ⟨List.mem_map.mpr ⟨r, hmem, if_neg ?_⟩, hkey⟩
      rw [hkey]
      exact hj

/-- A change that leaves the row with key `k` as it is. -/
theorem modify_self {t : Table key} {k : K} {f : Row → Row} (hf : ∀ r, key (f r) = key r)
    (h : ∀ r, t.find? k = some r → f r = r) : t.modify k f hf = t := by
  have hrows : (t.modify k f hf).rows = t.rows := by
    refine (List.map_congr_left fun r hr => ?_).trans (List.map_id t.rows)
    show (if key r = k then f r else r) = r
    split
    · next hk => exact h r (find?_eq_some.mpr ⟨hr, hk⟩)
    · rfl
  generalize t.modify k f hf = t' at hrows
  cases t
  cases t'
  cases hrows
  rfl

theorem modify_id (t : Table key) (k : K) : t.modify k id (fun _ => rfl) = t :=
  modify_self _ fun _ _ => rfl

/-- The change concerns the one row with the key. -/
theorem modify_rows {t : Table key} {before after : List Row} {r : Row} {f : Row → Row}
    (hf : ∀ r, key (f r) = key r) (h : t.rows = before ++ r :: after) :
    (t.modify (key r) f hf).rows = before ++ f r :: after := by
  have hnodup : ((before ++ r :: after).map key).Nodup := h ▸ t.nodup
  rw [List.map_append, List.map_cons, List.nodup_append, List.nodup_cons] at hnodup
  obtain ⟨-, ⟨hafter, -⟩, hbefore⟩ := hnodup
  have hkept : ∀ rows : List Row, key r ∉ rows.map key →
      (rows.map fun r' => if key r' = key r then f r' else r') = rows := by
    intro rows hrows
    refine (List.map_congr_left fun r' hr' => if_neg fun heq => ?_).trans (List.map_id rows)
    exact hrows (heq ▸ List.mem_map_of_mem hr')
  have hfirst : key r ∉ before.map key := fun hmem => hbefore _ hmem _ List.mem_cons_self rfl
  show (t.rows.map fun r' => if key r' = key r then f r' else r') = _
  rw [h, List.map_append, List.map_cons, hkept before hfirst, hkept after hafter, if_pos rfl]

/-- What the change keeps of every row. -/
theorem map_modify {V : Type} (t : Table key) (k : K) {f : Row → Row}
    (hf : ∀ r, key (f r) = key r) {g : Row → V} (hg : ∀ r, g (f r) = g r) :
    (t.modify k f hf).rows.map g = t.rows.map g := by
  show (t.rows.map fun r => if key r = k then f r else r).map g = _
  rw [List.map_map]
  refine List.map_congr_left fun r _ => ?_
  show g (if key r = k then f r else r) = g r
  split
  · exact hg r
  · rfl

/-- It counts once at most. -/
theorem countP_modify_le (t : Table key) (k : K) {f : Row → Row} (hf : ∀ r, key (f r) = key r)
    (p : Row → Bool) : (t.modify k f hf).rows.countP p ≤ t.rows.countP p + 1 := by
  have hone : (t.rows.map key).count k ≤ 1 := List.nodup_iff_count_le_one.mp t.nodup k
  have hsum : ∀ rows : List Row, (rows.map fun r => if key r = k then f r else r).countP p ≤
      rows.countP p + (rows.map key).count k := by
    intro rows
    induction rows with
    | nil => simp
    | cons r rows ih =>
      simp only [List.map_cons, List.countP_cons, List.count_cons]
      by_cases hk : key r = k
      · simp only [hk, if_true, beq_self_eq_true]
        split <;> omega
      · simp only [hk, if_false]
        omega
  calc (t.modify k f hf).rows.countP p ≤ t.rows.countP p + (t.rows.map key).count k := hsum t.rows
    _ ≤ t.rows.countP p + 1 := Nat.add_le_add_left hone _

/-- No row gains a property by the change. -/
theorem countP_modify_le_of_imp (t : Table key) (k : K) {f : Row → Row}
    (hf : ∀ r, key (f r) = key r) {p : Row → Bool} (hp : ∀ r, p (f r) = true → p r = true) :
    (t.modify k f hf).rows.countP p ≤ t.rows.countP p := by
  show (t.rows.map fun r => if key r = k then f r else r).countP p ≤ _
  rw [List.countP_map]
  refine List.countP_mono_left fun r _ hr => ?_
  change p (if key r = k then f r else r) = true at hr
  split at hr
  · exact hp r hr
  · exact hr

end Table

/-! ### Values that expire -/

/-- Values under keys, each with the last instant it is readable at. -/
structure Expiring (K : Type) (V : K → Type) where
  entry : (k : K) → Option (V k × Nat)

namespace Expiring

variable {K : Type} {V : K → Type}

def empty : Expiring K V := ⟨fun _ => none⟩

/-- What a reader finds under `k` at the instant `now`. -/
def get (s : Expiring K V) (now : Nat) (k : K) : Option (V k) :=
  match s.entry k with
  | some (v, deadline) => if now ≤ deadline then some v else none
  | none => none

theorem get_eq_some {s : Expiring K V} {now : Nat} {k : K} {v : V k} :
    s.get now k = some v ↔ ∃ deadline, s.entry k = some (v, deadline) ∧ now ≤ deadline := by
  unfold get
  cases s.entry k with
  | none => simp
  | some p =>
    obtain ⟨w, deadline⟩ := p
    by_cases h : now ≤ deadline
    · simp [h]
    · simp only [if_neg h]
      constructor
      · intro hnone
        cases hnone
      · rintro ⟨d, hd, hle⟩
        cases hd
        exact absurd hle h

variable [DecidableEq K]

def set (s : Expiring K V) (k : K) (v : V k) (deadline : Nat) : Expiring K V :=
  ⟨Function.update s.entry k (some (v, deadline))⟩

def del (s : Expiring K V) (k : K) : Expiring K V := ⟨Function.update s.entry k none⟩

@[simp] theorem set_entry_self (s : Expiring K V) (k : K) (v : V k) (deadline : Nat) :
    (s.set k v deadline).entry k = some (v, deadline) := Function.update_self ..

theorem set_entry_ne (s : Expiring K V) {k j : K} (v : V k) (deadline : Nat) (h : j ≠ k) :
    (s.set k v deadline).entry j = s.entry j := Function.update_of_ne h ..

@[simp] theorem del_entry_self (s : Expiring K V) (k : K) : (s.del k).entry k = none :=
  Function.update_self ..

theorem del_entry_ne (s : Expiring K V) {k j : K} (h : j ≠ k) :
    (s.del k).entry j = s.entry j := Function.update_of_ne h ..

end Expiring

end TroofAI
