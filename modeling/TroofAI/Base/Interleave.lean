import TroofAI.Base.Prog
import Mathlib.Data.List.Induction
import Mathlib.Data.List.Nodup
import Mathlib.Order.Basic
import Mathlib.Tactic.Common

/-!
Calls that run at the same time on one store.

A `System` gives every call its program and every operation its effect. A
configuration holds the shared store, the calls in the order they started, each
with the rest of its program, and the trace of all events so far, newest first.
`Reach` is the set of configurations that any interleaving leads to; its `ok`
restricts which call may step where, and is `fun _ _ _ => True` for all runs.

* `Reach.cut`: every event of a trace was performed from a reachable configuration.
* `Reach.point`: what the history logic says of a call's text holds of its events.
* `Reach.throughout`, `Reach.carry`: the induction over a run: what every event keeps, from the
  start or from an event on.
* `Reach.met_le`: what an event raises by one at most, a run raises by its number of events.
* `once_per_draw`: a use that always follows a fresh draw happens once per value.
* `reach_play`, `reach_alone`: schedules and calls run alone are such runs. `sequence_keeps` is the
  same for any property of configurations that single steps keep.
-/

namespace TroofAI.Await

variable {Op : Type} {Resp : Op → Type} {Err Out Call S : Type}

/-- The calls a system accepts, with their programs, and the effect of each operation. -/
structure System (Call S : Type) (Resp : Op → Type) (Err Out : Type) where
  body : Call → Prog Resp Err Out
  exec : (op : Op) → S → Except Err (Resp op) × S

/-- One event of a run: which call performed it and the store it met. -/
structure Entry (Call S : Type) (Resp : Op → Type) (Err : Type) where
  id : Nat
  call : Call
  before : S
  ev : Ev Resp Err

structure Config (Call S : Type) (Resp : Op → Type) (Err Out : Type) where
  store : S
  /-- the calls in the order they started, each with the rest of its program -/
  calls : List (Call × Prog Resp Err Out)
  /-- all events, newest first -/
  trace : List (Entry Call S Resp Err)

/-- The events call `i` performed itself, newest first. -/
def own (i : Nat) (trace : List (Entry Call S Resp Err)) : List (Ev Resp Err) :=
  (trace.filter (·.id = i)).map (·.ev)

@[simp] theorem own_nil (i : Nat) : own i ([] : List (Entry Call S Resp Err)) = [] := rfl

@[simp] theorem own_cons_self (e : Entry Call S Resp Err) (trace : List (Entry Call S Resp Err)) :
    own e.id (e :: trace) = e.ev :: own e.id trace := by
  simp [own]

theorem own_cons_ne {i : Nat} {e : Entry Call S Resp Err} (h : e.id ≠ i)
    (trace : List (Entry Call S Resp Err)) : own i (e :: trace) = own i trace := by
  simp [own, h]

theorem mem_own {i : Nat} {trace : List (Entry Call S Resp Err)} {ev : Ev Resp Err} :
    ev ∈ own i trace ↔ ∃ e ∈ trace, e.id = i ∧ e.ev = ev := by
  simp [own, and_assoc]

theorem own_append (i : Nat) (l l' : List (Entry Call S Resp Err)) :
    own i (l ++ l') = own i l ++ own i l' := by
  simp [own]

/-- An event of a call's own history sits somewhere in the trace. -/
theorem own_split {i : Nat} {trace : List (Entry Call S Resp Err)}
    {newer older : List (Ev Resp Err)} {ev : Ev Resp Err} (h : own i trace = newer ++ ev :: older) :
    ∃ later e earlier, trace = later ++ e :: earlier ∧ e.id = i ∧ e.ev = ev ∧
      own i later = newer ∧ own i earlier = older := by
  induction trace generalizing newer with
  | nil => simp at h
  | cons x trace ih =>
    by_cases hx : x.id = i
    · subst hx
      rw [own_cons_self] at h
      cases newer with
      | nil =>
        obtain ⟨hev, hold⟩ := List.cons.inj h
        exact ⟨[], x, trace, rfl, rfl, hev, rfl, hold⟩
      | cons ev' newer =>
        obtain ⟨hev', hrest⟩ := List.cons.inj h
        obtain ⟨later, e, earlier, rfl, hid, hev, hnew, hold⟩ := ih hrest
        exact ⟨x :: later, e, earlier, rfl, hid, hev, by rw [own_cons_self, hev', hnew], hold⟩
    · rw [own_cons_ne hx] at h
      obtain ⟨later, e, earlier, rfl, hid, hev, hnew, hold⟩ := ih h
      exact ⟨x :: later, e, earlier, rfl, hid, hev, by rw [own_cons_ne hx, hnew], hold⟩

/-- The newest event of a call's own history. -/
theorem own_head {i : Nat} {trace : List (Entry Call S Resp Err)} {older : List (Ev Resp Err)}
    {ev : Ev Resp Err} (h : own i trace = ev :: older) :
    ∃ later e earlier, trace = later ++ e :: earlier ∧ e.id = i ∧ e.ev = ev ∧
      own i later = [] ∧ own i earlier = older :=
  own_split (show own i trace = [] ++ ev :: older from h)

/-- Two places of one list: the first comes later, they are the same, or it comes earlier. -/
theorem split_cases {α : Type} {l l' r r' : List α} {a b : α} (h : l ++ a :: r = l' ++ b :: r') :
    (∃ m, l = l' ++ b :: m ∧ r' = m ++ a :: r) ∨ (l = l' ∧ a = b ∧ r = r') ∨
      ∃ m, l' = l ++ a :: m ∧ r = m ++ b :: r' := by
  rcases List.append_eq_append_iff.mp h with ⟨m, rfl, hm⟩ | ⟨m, rfl, hm⟩
  · cases m with
    | nil =>
      obtain ⟨rfl, rfl⟩ := List.cons.inj hm
      exact .inr (.inl ⟨(List.append_nil l).symm, rfl, rfl⟩)
    | cons x m =>
      obtain ⟨rfl, rfl⟩ := List.cons.inj hm
      exact .inr (.inr ⟨m, rfl, rfl⟩)
  · cases m with
    | nil =>
      obtain ⟨rfl, rfl⟩ := List.cons.inj hm
      exact .inr (.inl ⟨List.append_nil l', rfl, rfl⟩)
    | cons x m =>
      obtain ⟨rfl, rfl⟩ := List.cons.inj hm
      exact .inl ⟨m, rfl, rfl⟩

/-- The newest event with a property. -/
theorem exists_newest {Use : Entry Call S Resp Err → Prop} {trace : List (Entry Call S Resp Err)}
    (h : ∃ e ∈ trace, Use e) :
    ∃ later e earlier, trace = later ++ e :: earlier ∧ Use e ∧ ∀ x ∈ later, ¬ Use x := by
  classical
  obtain ⟨e, he, hu⟩ := h
  cases hfind : trace.find? fun e => decide (Use e) with
  | none => exact absurd hu (by simpa using List.find?_eq_none.mp hfind e he)
  | some x =>
    obtain ⟨hx, later, earlier, ht, hlater⟩ := List.find?_eq_some_iff_append.mp hfind
    exact ⟨later, x, earlier, ht, by simpa using hx, by simpa using hlater⟩

/-- No two positions of the trace hold an event with the property `Use`. -/
def AtMostOnce (Use : Entry Call S Resp Err → Prop) (trace : List (Entry Call S Resp Err)) : Prop :=
  ∀ later e between e' earlier, trace = later ++ e :: (between ++ e' :: earlier) →
    Use e → ¬ Use e'

theorem AtMostOnce.eq {Use : Entry Call S Resp Err → Prop} {trace : List (Entry Call S Resp Err)}
    (h : AtMostOnce Use trace) {e e' : Entry Call S Resp Err} (he : e ∈ trace) (he' : e' ∈ trace)
    (hu : Use e) (hu' : Use e') : e = e' := by
  obtain ⟨later, earlier, ht⟩ := List.append_of_mem he
  obtain ⟨later', earlier', ht'⟩ := List.append_of_mem he'
  rcases split_cases (ht.symm.trans ht') with ⟨m, rfl, rfl⟩ | ⟨-, heq, -⟩ | ⟨m, rfl, rfl⟩
  · exact absurd hu (h later' e' m e earlier ht' hu')
  · exact heq
  · exact absurd hu' (h later e m e' earlier' ht hu)

/-- An event that happens at a fixed length of its call's own history, in one call only,
happens at most once. -/
theorem atMostOnce_of_length {Use : Entry Call S Resp Err → Prop}
    {trace : List (Entry Call S Resp Err)} (n : Nat)
    (hlen : ∀ later e earlier, trace = later ++ e :: earlier → Use e →
      (own e.id earlier).length = n)
    (hcall : ∀ e ∈ trace, ∀ e' ∈ trace, Use e → Use e' → e.id = e'.id) :
    AtMostOnce Use trace := by
  intro later e between e' earlier ht hu hu'
  have hid := hcall e (ht ▸ by simp) e' (ht ▸ by simp) hu hu'
  have hn := hlen _ _ _ ht hu
  have hn' := hlen (later ++ e :: between) e' earlier (by simp [ht]) hu'
  rw [hid, own_append, own_cons_self, List.length_append, List.length_cons] at hn
  omega

namespace Config

variable (sys : System Call S Resp Err Out)

/-- A new call enters; nothing has happened in it yet. -/
def start (c : Call) (cfg : Config Call S Resp Err Out) : Config Call S Resp Err Out :=
  { cfg with calls := cfg.calls ++ [(c, sys.body c)] }

/-- Call `i` performs the operation it waits for. -/
def perform (i : Nat) (c : Call) (op : Op) (k : Except Err (Resp op) → Prog Resp Err Out)
    (cfg : Config Call S Resp Err Out) : Config Call S Resp Err Out where
  store := (sys.exec op cfg.store).2
  calls := cfg.calls.set i (c, k (sys.exec op cfg.store).1)
  trace := ⟨i, c, cfg.store, ⟨op, (sys.exec op cfg.store).1⟩⟩ :: cfg.trace

end Config

/-- The configurations reached from the stores in `init` by starting calls and
performing single operations in any order, where `ok` allows the operation. -/
inductive Reach (sys : System Call S Resp Err Out)
    (ok : Config Call S Resp Err Out → Nat → Op → Prop) (init : S → Prop) :
    Config Call S Resp Err Out → Prop where
  | init {s : S} : init s → Reach sys ok init ⟨s, [], []⟩
  | start {cfg} (c : Call) : Reach sys ok init cfg → Reach sys ok init (cfg.start sys c)
  | perform {cfg} {i : Nat} {c : Call} {op : Op} {k : Except Err (Resp op) → Prog Resp Err Out} :
      Reach sys ok init cfg → cfg.calls[i]? = some (c, .await op k) → ok cfg i op →
      Reach sys ok init (cfg.perform sys i c op k)

section Runs

variable {sys : System Call S Resp Err Out}
  {ok : Config Call S Resp Err Out → Nat → Op → Prop} {init : S → Prop}
  {cfg : Config Call S Resp Err Out}

/-- Call `i` of a performed step: the stepping call goes on, the others wait. -/
theorem perform_calls {i j : Nat} {c c' : Call} {op : Op} {k p}
    (hcall : cfg.calls[i]? = some (c, .await op k)) :
    (cfg.perform sys i c op k).calls[j]? = some (c', p) ↔
      (j = i ∧ c' = c ∧ p = k (sys.exec op cfg.store).1) ∨
      (j ≠ i ∧ cfg.calls[j]? = some (c', p)) := by
  have hlt : i < cfg.calls.length := (List.getElem?_eq_some_iff.mp hcall).1
  by_cases hij : i = j
  · subst hij
    simp [Config.perform, hlt, eq_comm]
  · simp [Config.perform, hij, Ne.symm hij]

theorem start_calls {j : Nat} {c c' : Call} {p} :
    (cfg.start sys c).calls[j]? = some (c', p) ↔
      cfg.calls[j]? = some (c', p) ∨ (j = cfg.calls.length ∧ c' = c ∧ p = sys.body c) := by
  simp only [Config.start]
  rcases Nat.lt_trichotomy j cfg.calls.length with hj | hj | hj
  · rw [List.getElem?_append_left hj]
    simp [Nat.ne_of_lt hj]
  · subst hj
    simp [eq_comm]
  · rw [List.getElem?_eq_none (by simp; omega), List.getElem?_eq_none (by omega)]
    simp [(Nat.ne_of_gt hj : j ≠ cfg.calls.length)]

/-- Every event belongs to a call that is still listed under its number. -/
theorem Reach.entry_call (h : Reach sys ok init cfg) :
    ∀ e ∈ cfg.trace, ∃ p, cfg.calls[e.id]? = some (e.call, p) := by
  induction h with
  | init _ => simp
  | start c _ ih =>
    intro e he
    obtain ⟨p, hp⟩ := ih e he
    exact ⟨p, start_calls.mpr (.inl hp)⟩
  | @perform cfg i c op k _ hcall _ ih =>
    intro e he
    rcases List.mem_cons.mp he with rfl | he
    · exact ⟨_, (perform_calls hcall).mpr (.inl ⟨rfl, rfl, rfl⟩)⟩
    · obtain ⟨p, hp⟩ := ih e he
      by_cases hi : e.id = i
      · rw [hi, hcall] at hp
        obtain ⟨rfl, -⟩ := Prod.mk.inj (Option.some.inj hp)
        exact ⟨_, (perform_calls hcall).mpr (.inl ⟨hi, rfl, rfl⟩)⟩
      · exact ⟨p, (perform_calls hcall).mpr (.inr ⟨hi, hp⟩)⟩

theorem Reach.same_call (h : Reach sys ok init cfg) {e e' : Entry Call S Resp Err}
    (he : e ∈ cfg.trace) (he' : e' ∈ cfg.trace) (hid : e.id = e'.id) : e.call = e'.call := by
  obtain ⟨p, hp⟩ := h.entry_call e he
  obtain ⟨p', hp'⟩ := h.entry_call e' he'
  rw [hid, hp'] at hp
  exact (Prod.mk.inj (Option.some.inj hp)).1.symm

/-- Every event of a trace was performed from a reachable configuration: the run so
far has trace `earlier`, its store is the one the event met, the call was waiting
for that operation, and the answer is the effect of the operation there. A call that
had ended there performs none of the later events. -/
theorem Reach.cut_done {later earlier : List (Entry Call S Resp Err)} {e : Entry Call S Resp Err}
    (h : Reach sys ok init cfg) (ht : cfg.trace = later ++ e :: earlier) :
    ∃ pre k, Reach sys ok init pre ∧ pre.trace = earlier ∧ pre.store = e.before ∧
      pre.calls[e.id]? = some (e.call, .await e.ev.op k) ∧
      e.ev.res = (sys.exec e.ev.op e.before).1 ∧ ok pre e.id e.ev.op ∧
      ∀ (j : Nat) (c : Call) (r : Except Err Out), pre.calls[j]? = some (c, .done r) →
        cfg.calls[j]? = some (c, .done r) ∧ ∀ x ∈ later, x.id ≠ j := by
  induction h generalizing later with
  | init _ => simp at ht
  | start c _ ih =>
    obtain ⟨pre, k, hpre, htrace, hstore, hcall, hres, hok, hdone⟩ := ih ht
    refine ⟨pre, k, hpre, htrace, hstore, hcall, hres, hok, fun j c' r hj => ?_⟩
    obtain ⟨hstill, hnone⟩ := hdone j c' r hj
    exact ⟨start_calls.mpr (.inl hstill), hnone⟩
  | @perform cfg i c op k hr hcall hop ih =>
    -- the performing call waits, so it is none of those that have ended
    have hne : ∀ (j : Nat) (c' : Call) (r : Except Err Out),
        cfg.calls[j]? = some (c', .done r) → j ≠ i := by
      rintro j c' r hj rfl
      rw [hcall] at hj
      cases hj
    cases later with
    | nil =>
      obtain ⟨rfl, rfl⟩ := List.cons.inj ht
      refine ⟨cfg, k, hr, rfl, rfl, hcall, rfl, hop, fun j c' r hj => ⟨?_, by simp⟩⟩
      exact (perform_calls hcall).mpr (.inr ⟨hne j c' r hj, hj⟩)
    | cons x later =>
      obtain ⟨hx, htail⟩ := List.cons.inj ht
      obtain ⟨pre, k', hpre, htrace, hstore, hpcall, hres, hok, hdone⟩ := ih htail
      refine ⟨pre, k', hpre, htrace, hstore, hpcall, hres, hok, fun j c' r hj => ?_⟩
      obtain ⟨hstill, hnone⟩ := hdone j c' r hj
      refine ⟨(perform_calls hcall).mpr (.inr ⟨hne j c' r hstill, hstill⟩), fun y hy => ?_⟩
      rcases List.mem_cons.mp hy with rfl | hy
      · rw [← hx]
        exact (hne j c' r hstill).symm
      · exact hnone y hy

theorem Reach.cut {later earlier : List (Entry Call S Resp Err)} {e : Entry Call S Resp Err}
    (h : Reach sys ok init cfg) (ht : cfg.trace = later ++ e :: earlier) :
    ∃ pre k, Reach sys ok init pre ∧ pre.trace = earlier ∧ pre.store = e.before ∧
      pre.calls[e.id]? = some (e.call, .await e.ev.op k) ∧
      e.ev.res = (sys.exec e.ev.op e.before).1 ∧ ok pre e.id e.ev.op := by
  obtain ⟨pre, k, hpre, htrace, hstore, hcall, hres, hok, -⟩ := h.cut_done ht
  exact ⟨pre, k, hpre, htrace, hstore, hcall, hres, hok⟩

/-- What holds after an event and is kept by every later one still holds. -/
theorem Reach.carry (K : S → Prop) {later earlier : List (Entry Call S Resp Err)}
    {e : Entry Call S Resp Err} (h : Reach sys ok init cfg)
    (ht : cfg.trace = later ++ e :: earlier) (hK : K (sys.exec e.ev.op e.before).2)
    (hkeep : ∀ x ∈ later, K x.before → K (sys.exec x.ev.op x.before).2) : K cfg.store := by
  induction h generalizing later with
  | init _ => simp at ht
  | start c _ ih => exact ih ht hkeep
  | @perform cfg i c op k hr hcall hop ih =>
    cases later with
    | nil =>
      obtain ⟨rfl, -⟩ := List.cons.inj ht
      exact hK
    | cons x later =>
      obtain ⟨rfl, htail⟩ := List.cons.inj ht
      exact hkeep _ List.mem_cons_self
        (ih htail fun x hx => hkeep x (List.mem_cons_of_mem _ hx))

/-- What holds at the start and is kept by every event holds. -/
theorem Reach.throughout (K : S → Prop) (h : Reach sys ok init cfg) (hinit : ∀ s, init s → K s)
    (hkeep : ∀ x ∈ cfg.trace, K x.before → K (sys.exec x.ev.op x.before).2) : K cfg.store := by
  induction h with
  | init hs => exact hinit _ hs
  | start c _ ih => exact ih hkeep
  | @perform cfg i c op k hr hcall hop ih =>
    exact hkeep _ List.mem_cons_self (ih fun x hx => hkeep x (List.mem_cons_of_mem _ hx))

theorem Reach.carry_iff (K : S → Prop) {later earlier : List (Entry Call S Resp Err)}
    {e : Entry Call S Resp Err} (h : Reach sys ok init cfg)
    (ht : cfg.trace = later ++ e :: earlier)
    (hkeep : ∀ x ∈ later, (K (sys.exec x.ev.op x.before).2 ↔ K x.before)) :
    K cfg.store ↔ K (sys.exec e.ev.op e.before).2 := by
  constructor
  · intro hK
    by_contra hnot
    exact h.carry (fun s => ¬ K s) ht hnot (fun x hx => mt (hkeep x hx).mp) hK
  · intro hK
    exact h.carry K ht hK fun x hx => (hkeep x hx).mpr

/-- The newest of the events that are in `Sets` is in `Good`; where there is none, `base` holds. -/
def Newest (Sets Good : Entry Call S Resp Err → Prop) (base : Prop)
    (events : List (Entry Call S Resp Err)) : Prop :=
  (∃ l x l', events = l ++ x :: l' ∧ Sets x ∧ Good x ∧ ∀ y ∈ l, ¬ Sets y) ∨
    (∀ x ∈ events, ¬ Sets x) ∧ base

theorem newest_append_iff {Sets Good : Entry Call S Resp Err → Prop} {base : Prop}
    {l l' : List (Entry Call S Resp Err)} {x : Entry Call S Resp Err} (hx : Sets x)
    (hquiet : ∀ y ∈ l, ¬ Sets y) : Newest Sets Good base (l ++ x :: l') ↔ Good x := by
  constructor
  · rintro (⟨m, y, m', heq, hy, hgood, hquiet'⟩ | ⟨hnone, -⟩)
    · rcases split_cases heq with ⟨k, rfl, -⟩ | ⟨-, rfl, -⟩ | ⟨k, rfl, -⟩
      · exact absurd hy (hquiet y (by simp))
      · exact hgood
      · exact absurd hx (hquiet' x (by simp))
    · exact absurd hx (hnone x (by simp))
  · intro hgood
    exact .inl ⟨l, x, l', rfl, hx, hgood, hquiet⟩

/-- The last write decides: what the events in `Sets` set and the others keep holds exactly if the
newest of them says so, or if it has held at `e` and none has come since. -/
theorem Reach.newest_iff (K : S → Prop) {Sets Good : Entry Call S Resp Err → Prop}
    {events earlier : List (Entry Call S Resp Err)} {e : Entry Call S Resp Err}
    (h : Reach sys ok init cfg) (ht : cfg.trace = events ++ e :: earlier)
    (hset : ∀ x ∈ events, Sets x → (K (sys.exec x.ev.op x.before).2 ↔ Good x))
    (hkeep : ∀ x ∈ events, ¬ Sets x → (K (sys.exec x.ev.op x.before).2 ↔ K x.before)) :
    K cfg.store ↔ Newest Sets Good (K (sys.exec e.ev.op e.before).2) events := by
  by_cases hany : ∃ x ∈ events, Sets x
  · obtain ⟨l, x, l', rfl, hx, hquiet⟩ := exists_newest hany
    have htx : cfg.trace = l ++ x :: (l' ++ e :: earlier) := by simp [ht]
    rw [newest_append_iff hx hquiet, ← hset x (by simp) hx]
    exact h.carry_iff K htx fun y hy => hkeep y (by simp [hy]) (hquiet y hy)
  · have hnone : ∀ x ∈ events, ¬ Sets x := fun x hx hs => hany ⟨x, hx, hs⟩
    have hbase : Newest Sets Good (K (sys.exec e.ev.op e.before).2) events ↔
        K (sys.exec e.ev.op e.before).2 := by
      constructor
      · rintro (⟨l, x, l', rfl, hx, -⟩ | ⟨-, hK⟩)
        · exact absurd hx (hnone x (by simp))
        · exact hK
      · intro hK
        exact .inr ⟨hnone, hK⟩
    rw [hbase]
    exact h.carry_iff K ht fun x hx => hkeep x hx (hnone x hx)

/-- A call that enters now has no events. -/
theorem Reach.own_new (h : Reach sys ok init cfg) : own cfg.calls.length cfg.trace = [] := by
  refine List.eq_nil_iff_forall_not_mem.mpr fun ev hev => ?_
  obtain ⟨e, he, hid, -⟩ := mem_own.mp hev
  obtain ⟨p, hp⟩ := h.entry_call e he
  rw [hid] at hp
  simp at hp

/-! ### The history logic under interleaving -/

variable {P : Call → List (Ev Resp Err) → Op → Prop} {R : Call → List (Ev Resp Err) → Out → Prop}

/-- A call's own events are a history of its program: what is left of the program
obeys the rest of its specification. -/
theorem Reach.obeys (hbody : ∀ c, Prog.Obeys (P c) (R c) [] (sys.body c))
    (h : Reach sys ok init cfg) :
    ∀ i c p, cfg.calls[i]? = some (c, p) → Prog.Obeys (P c) (R c) (own i cfg.trace) p := by
  induction h with
  | init _ => simp
  | @start cfg c hr ih =>
    intro i c' p hp
    rcases start_calls.mp hp with hp | ⟨rfl, rfl, rfl⟩
    · exact ih i c' p hp
    · show Prog.Obeys _ _ (own _ cfg.trace) (sys.body c')
      rw [hr.own_new]
      exact hbody c'
  | @perform cfg i c op k hr hcall hop ih =>
    intro j c' p hp
    rcases (perform_calls hcall).mp hp with ⟨rfl, rfl, rfl⟩ | ⟨hne, hp⟩
    · have := (ih j c' _ hcall).2 (sys.exec op cfg.store).1
      simpa [Config.perform, own] using this
    · have := ih j c' p hp
      simpa [Config.perform, own, Ne.symm hne] using this

/-- Every event happens at a point its call's specification allows. -/
theorem Reach.point (hbody : ∀ c, Prog.Obeys (P c) (R c) [] (sys.body c))
    {later earlier : List (Entry Call S Resp Err)} {e : Entry Call S Resp Err}
    (h : Reach sys ok init cfg) (ht : cfg.trace = later ++ e :: earlier) :
    P e.call (own e.id earlier) e.ev.op := by
  obtain ⟨pre, k, hpre, rfl, -, hcall, -, -⟩ := h.cut ht
  exact (hpre.obeys hbody e.id e.call _ hcall).1

/-- A finished call returned where its specification allows it. -/
theorem Reach.final (hbody : ∀ c, Prog.Obeys (P c) (R c) [] (sys.body c))
    (h : Reach sys ok init cfg) {i : Nat} {c : Call} {out : Out}
    (hdone : cfg.calls[i]? = some (c, .done (.ok out))) : R c (own i cfg.trace) out :=
  h.obeys hbody i c _ hdone

/-! ### Distinct positions -/

/-- Where every operation counts one step, the events of a trace have distinct
step numbers, falling from newest to oldest. -/
theorem Reach.steps (idx : S → Nat) (hidx : ∀ op s, idx (sys.exec op s).2 = idx s + 1)
    (h : Reach sys ok init cfg) :
    cfg.trace.Pairwise (fun e e' => idx e'.before < idx e.before) ∧
      ∀ e ∈ cfg.trace, idx e.before < idx cfg.store := by
  induction h with
  | init _ => simp
  | start c _ ih => exact ih
  | @perform cfg i c op k hr hcall hop ih =>
    obtain ⟨hpair, hlt⟩ := ih
    refine ⟨List.pairwise_cons.mpr ⟨fun e he => hlt e he, hpair⟩, fun e he => ?_⟩
    show idx e.before < idx (sys.exec op cfg.store).2
    rw [hidx]
    rcases List.mem_cons.mp he with rfl | he
    · exact Nat.lt_succ_self _
    · exact Nat.lt_succ_of_lt (hlt e he)

/-- A use that comes a fixed number of own events after a draw happens at most once
for each drawn value, when no two events of the trace draw the same value. -/
theorem once_per_draw {trace : List (Entry Call S Resp Err)}
    {Use D : Entry Call S Resp Err → Prop} (n : Nat) (hnodup : trace.Nodup)
    (huse : ∀ later e earlier, trace = later ++ e :: earlier → Use e →
      ∃ d, (earlier.filter (·.id = e.id))[n]? = some d ∧ D d)
    (hdraw : ∀ d ∈ trace, ∀ d' ∈ trace, D d → D d' → d = d') : AtMostOnce Use trace := by
  intro l₁ e₁ l₂ e₂ l₃ ht h₁ h₂
  obtain ⟨d₁, hd₁, hD₁⟩ := huse _ _ _ ht h₁
  obtain ⟨d₂, hd₂, hD₂⟩ := huse (l₁ ++ e₁ :: l₂) e₂ l₃ (by simp [ht]) h₂
  have mem₁ := List.mem_of_getElem? hd₁
  have mem₂ := List.mem_of_getElem? hd₂
  have hd : d₁ = d₂ := hdraw _ (ht ▸ by simp [List.mem_of_mem_filter mem₁])
    _ (ht ▸ by simp [List.mem_of_mem_filter mem₂]) hD₁ hD₂
  have hid : e₁.id = e₂.id := by
    have i₁ : d₁.id = e₁.id := by simpa using (List.mem_filter.mp mem₁).2
    have i₂ : d₂.id = e₂.id := by simpa using (List.mem_filter.mp mem₂).2
    rw [← i₁, ← i₂, hd]
  -- `d₂` sits `n` events behind `e₂`, and `e₂` is itself behind `e₁`: two positions.
  rw [hid, List.filter_append, List.filter_cons_of_pos (by simp)] at hd₁
  have hnd : ((l₂.filter (·.id = e₂.id)) ++ e₂ :: l₃.filter (·.id = e₂.id)).Nodup := by
    rw [ht] at hnodup
    have htail := (List.nodup_cons.mp (List.nodup_append.mp hnodup).2.1).2
    have := htail.filter (fun e => decide (e.id = e₂.id))
    rwa [List.filter_append, List.filter_cons_of_pos (by simp)] at this
  have hd₂' : (l₂.filter (·.id = e₂.id) ++ e₂ :: l₃.filter (·.id = e₂.id))[
      (l₂.filter (·.id = e₂.id)).length + 1 + n]? = some d₂ := by
    rw [List.getElem?_append_right (by omega)]
    have : (l₂.filter (·.id = e₂.id)).length + 1 + n - (l₂.filter (·.id = e₂.id)).length
        = n + 1 := by omega
    rw [this, List.getElem?_cons_succ]
    exact hd₂
  rw [hd] at hd₁
  have hlt : n < (l₂.filter (·.id = e₂.id) ++ e₂ :: l₃.filter (·.id = e₂.id)).length :=
    (List.getElem?_eq_some_iff.mp hd₁).1
  have := (List.getElem?_inj hlt hnd).mp (hd₁.trans hd₂'.symm)
  omega

/-- Two events with one step number are one. -/
theorem Reach.step_inj (idx : S → Nat) (hidx : ∀ op s, idx (sys.exec op s).2 = idx s + 1)
    (h : Reach sys ok init cfg) {e e' : Entry Call S Resp Err} (he : e ∈ cfg.trace)
    (he' : e' ∈ cfg.trace) (heq : idx e.before = idx e'.before) : e = e' := by
  have hnodup : (cfg.trace.map fun e => idx e.before).Nodup :=
    List.pairwise_map.mpr ((h.steps idx hidx).1.imp Nat.ne_of_gt)
  exact List.inj_on_of_nodup_map hnodup he he' heq

/-- The events between two events of a trace have step numbers between theirs. -/
theorem Reach.between (idx : S → Nat) (hidx : ∀ op s, idx (sys.exec op s).2 = idx s + 1)
    (h : Reach sys ok init cfg) {e e' : Entry Call S Resp Err} (he : e ∈ cfg.trace)
    (he' : e' ∈ cfg.trace) (hlt : idx e'.before < idx e.before) :
    ∃ later between earlier, cfg.trace = later ++ e :: (between ++ e' :: earlier) ∧
      ∀ x ∈ between, idx e'.before < idx x.before ∧ idx x.before < idx e.before := by
  have hpair := (h.steps idx hidx).1
  obtain ⟨later, rest, ht⟩ := List.append_of_mem he
  obtain ⟨later', earlier, ht'⟩ := List.append_of_mem he'
  rcases split_cases (ht.symm.trans ht') with ⟨m, rfl, rfl⟩ | ⟨-, rfl, -⟩ | ⟨between, rfl, rfl⟩
  · rw [ht'] at hpair
    obtain ⟨hfirst, -⟩ := List.pairwise_cons.mp (List.pairwise_append.mp hpair).2.1
    exact absurd (hfirst e (by simp)) (Nat.lt_asymm hlt)
  · exact absurd hlt (Nat.lt_irrefl _)
  · rw [ht] at hpair
    obtain ⟨hfirst, hrest⟩ := List.pairwise_cons.mp (List.pairwise_append.mp hpair).2.1
    obtain ⟨-, -, hbetween⟩ := List.pairwise_append.mp hrest
    refine ⟨later, between, earlier, ht, fun x hx => ?_⟩
    exact ⟨hbetween x hx e' List.mem_cons_self, hfirst x (List.mem_append_left _ hx)⟩

theorem Reach.trace_nodup (idx : S → Nat) (hidx : ∀ op s, idx (sys.exec op s).2 = idx s + 1)
    (h : Reach sys ok init cfg) : cfg.trace.Nodup :=
  (h.steps idx hidx).1.imp fun hlt heq => by
    subst heq
    exact Nat.lt_irrefl _ hlt

end Runs

/-! ### States met -/

/-- The states a run has gone through. -/
def Config.Met (cfg : Config Call S Resp Err Out) (s : S) : Prop :=
  s = cfg.store ∨ ∃ e ∈ cfg.trace, e.before = s

/-- The events from the state `s` to the state `s'`. -/
def during (idx : S → Nat) (s s' : S) (trace : List (Entry Call S Resp Err)) :
    List (Entry Call S Resp Err) :=
  trace.filter fun x => idx s ≤ idx x.before && idx x.before < idx s'

theorem during_mono {idx : S → Nat} {s s' s'' : S} (h : idx s' ≤ idx s'')
    (p : Entry Call S Resp Err → Bool) (trace : List (Entry Call S Resp Err)) :
    (during idx s s' trace).countP p ≤ (during idx s s'' trace).countP p := by
  simp only [during, List.countP_filter]
  refine List.countP_mono_left fun x _ hx => ?_
  simp only [Bool.and_eq_true, decide_eq_true_eq] at hx ⊢
  exact ⟨hx.1, hx.2.1, Nat.lt_of_lt_of_le hx.2.2 h⟩

theorem during_cons {idx : S → Nat} {s s' : S} {x : Entry Call S Resp Err}
    (h : idx s ≤ idx x.before) (h' : idx x.before < idx s') (p : Entry Call S Resp Err → Bool)
    (trace : List (Entry Call S Resp Err)) : (during idx s s' (x :: trace)).countP p =
      (during idx s s' trace).countP p + if p x then 1 else 0 := by
  have hin : (idx s ≤ idx x.before && idx x.before < idx s' : Bool) = true := by simp [h, h']
  unfold during
  rw [List.filter_cons_of_pos (by exact hin), List.countP_cons]

section Met

variable {sys : System Call S Resp Err Out}
  {ok : Config Call S Resp Err Out → Nat → Op → Prop} {init : S → Prop}
  {cfg : Config Call S Resp Err Out} {s s' : S}

theorem Config.Met.perform {i : Nat} {c : Call} {op : Op}
    {k : Except Err (Resp op) → Prog Resp Err Out} (h : cfg.Met s) :
    (cfg.perform sys i c op k).Met s := by
  right
  rcases h with rfl | ⟨e, he, rfl⟩
  · exact ⟨_, List.mem_cons_self, rfl⟩
  · exact ⟨e, List.mem_cons_of_mem _ he, rfl⟩

theorem Reach.met_idx (idx : S → Nat) (hidx : ∀ op s, idx (sys.exec op s).2 = idx s + 1)
    (h : Reach sys ok init cfg) (hs : cfg.Met s) : idx s ≤ idx cfg.store := by
  rcases hs with rfl | ⟨e, he, rfl⟩
  · exact Nat.le_refl _
  · exact Nat.le_of_lt ((h.steps idx hidx).2 e he)

/-- A value that an event raises by at most one, and only an event with the property `raises`,
rises from one state to a later one by no more than there are such events in between. -/
theorem Reach.met_le (idx : S → Nat) (hidx : ∀ op s, idx (sys.exec op s).2 = idx s + 1)
    (f : S → Nat) (raises : Entry Call S Resp Err → Bool) (h : Reach sys ok init cfg)
    (hstep : ∀ x ∈ cfg.trace, f (sys.exec x.ev.op x.before).2 ≤
      f x.before + if raises x then 1 else 0)
    (hs : cfg.Met s) (hs' : cfg.Met s') (hle : idx s ≤ idx s') :
    f s' ≤ f s + (during idx s s' cfg.trace).countP raises := by
  induction h generalizing s s' with
  | init _ =>
    obtain rfl := hs.resolve_right (by simp)
    obtain rfl := hs'.resolve_right (by simp)
    omega
  | start c _ ih => exact ih hstep hs hs' hle
  | @perform cfg i c op k hr hcall hop ih =>
    have hrest := fun x hx => hstep x (List.mem_cons_of_mem _ hx)
    -- a state is the new one, or was met before
    have hcases {s : S} (hs : (cfg.perform sys i c op k).Met s) :
        s = (sys.exec op cfg.store).2 ∨ cfg.Met s := by
      rcases hs with rfl | ⟨e, he, rfl⟩
      · exact .inl rfl
      · rcases List.mem_cons.mp he with rfl | he
        · exact .inr (.inl rfl)
        · exact .inr (.inr ⟨e, he, rfl⟩)
    have hnew : idx (sys.exec op cfg.store).2 = idx cfg.store + 1 := hidx op cfg.store
    rcases hcases hs with rfl | hs
    · rcases hcases hs' with rfl | hs'
      · omega
      · have := hr.met_idx idx hidx hs'
        omega
    · have hmet := hr.met_idx idx hidx hs
      rcases hcases hs' with rfl | hs'
      · -- the last event is one of those in between
        have hlast : f (sys.exec op cfg.store).2 ≤ f cfg.store + _ := hstep _ List.mem_cons_self
        have hbefore := ih hrest hs (.inl rfl) hmet
        have hlater : idx cfg.store < idx (sys.exec op cfg.store).2 := by omega
        have hmono := during_mono (s := s) (Nat.le_of_lt hlater) raises cfg.trace
        have hcount : (during idx s (sys.exec op cfg.store).2
            (cfg.perform sys i c op k).trace).countP raises = _ + _ :=
          during_cons hmet hlater raises cfg.trace
        by_cases hraises :
            raises ⟨i, c, cfg.store, ⟨op, (sys.exec op cfg.store).1⟩⟩ = true
        · rw [if_pos hraises] at hlast hcount
          omega
        · rw [if_neg hraises] at hlast hcount
          omega
      · have hbefore := ih hrest hs hs' hle
        have hcons : (during idx s s' cfg.trace).countP raises ≤
            (during idx s s' (cfg.perform sys i c op k).trace).countP raises :=
          ((List.sublist_cons_self _ _).filter _).countP_le
        omega

/-- What every event keeps holds of the later states. -/
theorem Reach.met_keeps (idx : S → Nat) (hidx : ∀ op s, idx (sys.exec op s).2 = idx s + 1)
    (K : S → Prop) (h : Reach sys ok init cfg)
    (hkeep : ∀ x ∈ cfg.trace, K x.before → K (sys.exec x.ev.op x.before).2) (hs : cfg.Met s)
    (hs' : cfg.Met s') (hle : idx s ≤ idx s') (hK : K s) : K s' := by
  classical
  have hfalls := h.met_le idx hidx (fun s => if K s then 0 else 1) (fun _ => false)
    (fun x hx => by
      have := hkeep x hx
      split <;> split <;> simp_all) hs hs' hle
  by_contra hnot
  simp [hK, hnot] at hfalls

/-- A value that never falls and rises with some events only, at two states in any order. -/
theorem Reach.met_le_of_mono (idx : S → Nat) (hidx : ∀ op s, idx (sys.exec op s).2 = idx s + 1)
    (f : S → Nat) (raises : Entry Call S Resp Err → Bool) (h : Reach sys ok init cfg)
    (hstep : ∀ x ∈ cfg.trace, f (sys.exec x.ev.op x.before).2 ≤
      f x.before + if raises x then 1 else 0)
    (hmono : ∀ x ∈ cfg.trace, f x.before ≤ f (sys.exec x.ev.op x.before).2)
    (hs : cfg.Met s) (hs' : cfg.Met s') :
    f s' ≤ f s + (during idx s s' cfg.trace).countP raises := by
  rcases Nat.le_total (idx s) (idx s') with hle | hle
  · exact h.met_le idx hidx f raises hstep hs hs' hle
  · have hkept := h.met_keeps idx hidx (fun t => f s' ≤ f t)
      (fun x hx hbefore => Nat.le_trans hbefore (hmono x hx)) hs' hs hle (Nat.le_refl _)
    exact Nat.le_trans hkept (Nat.le_add_right _ _)

/-- A state that was met is the store of an earlier configuration. -/
theorem Reach.of_met (h : Reach sys ok init cfg) (hs : cfg.Met s) :
    ∃ pre newer, Reach sys ok init pre ∧ pre.store = s ∧ cfg.trace = newer ++ pre.trace := by
  rcases hs with rfl | ⟨e, he, rfl⟩
  · exact ⟨cfg, [], h, rfl, rfl⟩
  · obtain ⟨later, earlier, ht⟩ := List.append_of_mem he
    obtain ⟨pre, -, hpre, rfl, hstore, -⟩ := h.cut ht
    exact ⟨pre, later ++ [e], hpre, hstore, by simp [ht]⟩

end Met

/-! ### Executable runs -/

/-- One entry of a schedule: a call starts, or a call performs its next operation. -/
inductive Sched (Call : Type) where
  | start (c : Call)
  | step (i : Nat)

namespace Config

variable (sys : System Call S Resp Err Out)

/-- Follow one entry of a schedule; a finished call has nothing to perform. -/
def act (cfg : Config Call S Resp Err Out) : Sched Call → Config Call S Resp Err Out
  | .start c => cfg.start sys c
  | .step i =>
      match cfg.calls[i]? with
      | some (c, .await op k) => cfg.perform sys i c op k
      | _ => cfg

def play (cfg : Config Call S Resp Err Out) (schedule : List (Sched Call)) :
    Config Call S Resp Err Out :=
  schedule.foldl (act sys) cfg

/-- A call enters and runs to its end with no other call in between. -/
def alone (cfg : Config Call S Resp Err Out) (c : Call) : Config Call S Resp Err Out :=
  let ran := (sys.body c).run sys.exec cfg.store
  { store := ran.store
    calls := cfg.calls ++ [(c, .done ran.result)]
    trace := (ran.log.map fun x => ⟨cfg.calls.length, c, x.1, x.2⟩).reverse ++ cfg.trace }

/-- Calls that run one after the other. -/
def sequence (cfg : Config Call S Resp Err Out) (cs : List Call) : Config Call S Resp Err Out :=
  cs.foldl (alone sys) cfg

end Config

section Executable

variable {sys : System Call S Resp Err Out} {init : S → Prop} {cfg : Config Call S Resp Err Out}

/-- Every schedule leads to a reachable configuration. -/
theorem reach_play (schedule : List (Sched Call))
    (h : Reach sys (fun _ _ _ => True) init cfg) :
    Reach sys (fun _ _ _ => True) init (cfg.play sys schedule) := by
  induction schedule generalizing cfg with
  | nil => exact h
  | cons x xs ih =>
    show Reach sys _ init ((cfg.act sys x).play sys xs)
    apply ih
    cases x with
    | start c => exact .start c h
    | step i =>
      simp only [Config.act]
      split
      · next hcall => exact .perform h hcall trivial
      · exact h

/-- The last call of a configuration, left alone, reaches the end of its program: what each of
its steps keeps is kept. -/
theorem run_last {P : Config Call S Resp Err Out → Prop} {calls : List (Call × Prog Resp Err Out)}
    {c : Call} (base : List (Entry Call S Resp Err))
    (hstep : ∀ s op k newer, P ⟨s, calls ++ [(c, .await op k)], newer ++ base⟩ →
      P (Config.perform sys calls.length c op k
        ⟨s, calls ++ [(c, .await op k)], newer ++ base⟩))
    (p : Prog Resp Err Out) (newer : List (Entry Call S Resp Err)) {s : S}
    (h : P ⟨s, calls ++ [(c, p)], newer ++ base⟩) :
    P ⟨(p.run sys.exec s).store, calls ++ [(c, .done (p.run sys.exec s).result)],
      ((p.run sys.exec s).log.map fun x => ⟨calls.length, c, x.1, x.2⟩).reverse ++
        (newer ++ base)⟩ := by
  induction p generalizing s newer with
  | done r => exact h
  | await op k ih =>
    have hset : (calls ++ [(c, Prog.await op k)]).set calls.length (c, k (sys.exec op s).1)
        = calls ++ [(c, k (sys.exec op s).1)] := by
      simp
    have hperform := hstep s op k newer h
    simp only [Config.perform, hset, ← List.cons_append] at hperform
    simpa [Prog.run] using ih _ _ hperform

/-- What holds when calls start and is kept by each of their steps is kept by a call that runs
alone. -/
theorem alone_keeps {P : Config Call S Resp Err Out → Prop}
    (hstart : ∀ cfg c, P cfg → P (cfg.start sys c))
    (hperform : ∀ cfg i c op k, P cfg → cfg.calls[i]? = some (c, .await op k) →
      P (cfg.perform sys i c op k)) (c : Call) (h : P cfg) : P (cfg.alone sys c) := by
  refine run_last cfg.trace ?_ (sys.body c) [] (hstart cfg c h)
  intro s op k newer hP
  exact hperform _ _ _ _ _ hP (by simp)

/-- And by calls that run one after the other. -/
theorem sequence_keeps {P : Config Call S Resp Err Out → Prop}
    (hstart : ∀ cfg c, P cfg → P (cfg.start sys c))
    (hperform : ∀ cfg i c op k, P cfg → cfg.calls[i]? = some (c, .await op k) →
      P (cfg.perform sys i c op k)) (cs : List Call) (h : P cfg) : P (cfg.sequence sys cs) := by
  induction cs generalizing cfg with
  | nil => exact h
  | cons c cs ih => exact ih (alone_keeps hstart hperform c h)

/-- The last call of a configuration, left alone, is a run when it may perform every operation
on the way. -/
theorem reach_run_last {ok : Config Call S Resp Err Out → Nat → Op → Prop}
    {calls : List (Call × Prog Resp Err Out)} {c : Call} (base : List (Entry Call S Resp Err))
    (hstep : ∀ s op k newer, Reach sys ok init ⟨s, calls ++ [(c, .await op k)], newer ++ base⟩ →
      ok ⟨s, calls ++ [(c, .await op k)], newer ++ base⟩ calls.length op)
    (p : Prog Resp Err Out) (newer : List (Entry Call S Resp Err)) {s : S}
    (h : Reach sys ok init ⟨s, calls ++ [(c, p)], newer ++ base⟩) :
    Reach sys ok init
      ⟨(p.run sys.exec s).store, calls ++ [(c, .done (p.run sys.exec s).result)],
        ((p.run sys.exec s).log.map fun x => ⟨calls.length, c, x.1, x.2⟩).reverse ++
          (newer ++ base)⟩ := by
  apply run_last base _ p newer h
  intro s op k newer hreach
  exact .perform hreach (by simp) (hstep s op k newer hreach)

/-- A call that runs alone is a run. -/
theorem reach_alone (c : Call) (h : Reach sys (fun _ _ _ => True) init cfg) :
    Reach sys (fun _ _ _ => True) init (cfg.alone sys c) :=
  alone_keeps (fun _ c h => .start c h) (fun _ _ _ _ _ h hcall => .perform h hcall trivial) c h

/-- Calls that run one after the other are a run. -/
theorem reach_sequence (cs : List Call) (h : Reach sys (fun _ _ _ => True) init cfg) :
    Reach sys (fun _ _ _ => True) init (cfg.sequence sys cs) :=
  sequence_keeps (fun _ c h => .start c h) (fun _ _ _ _ _ h hcall => .perform h hcall trivial) cs h

theorem sequence_append (cs cs' : List Call) :
    cfg.sequence sys (cs ++ cs') = (cfg.sequence sys cs).sequence sys cs' := by
  simp [Config.sequence]

theorem sequence_trace (sys : System Call S Resp Err Out) (cfg : Config Call S Resp Err Out)
    (cs : List Call) : ∃ newer, (cfg.sequence sys cs).trace = newer ++ cfg.trace := by
  induction cs generalizing cfg with
  | nil => exact ⟨[], rfl⟩
  | cons c cs ih =>
    obtain ⟨newer, ht⟩ := ih (cfg.alone sys c)
    exact ⟨_, ht.trans (List.append_assoc ..).symm⟩

/-- The events of a call that runs alone, read off the trace. -/
theorem own_alone (h : Reach sys (fun _ _ _ => True) init cfg) (c : Call)
    (log : List (S × Ev Resp Err)) :
    own cfg.calls.length ((log.map fun x => ⟨cfg.calls.length, c, x.1, x.2⟩).reverse ++ cfg.trace) =
      (log.map Prod.snd).reverse := by
  rw [own_append, h.own_new, List.append_nil]
  simp [own, List.filter_reverse, List.filter_map, Function.comp_def]

/-- An event of calls that run one after the other is an event of one of them, run alone
from where the calls before it lead. -/
theorem sequence_event (h : Reach sys (fun _ _ _ => True) init cfg) {cs : List Call}
    {later since : List (Entry Call S Resp Err)} {e : Entry Call S Resp Err}
    (ht : (cfg.sequence sys cs).trace = later ++ e :: (since ++ cfg.trace)) :
    ∃ cs₁ cs₂ before after, cs = cs₁ ++ e.call :: cs₂ ∧
      ((sys.body e.call).run sys.exec (cfg.sequence sys cs₁).store).log =
        before ++ (e.before, e.ev) :: after ∧
      own e.id (since ++ cfg.trace) = (before.map Prod.snd).reverse := by
  induction cs using List.reverseRecOn generalizing later with
  | nil =>
    change cfg.trace = _ at ht
    have hlen := congrArg List.length ht
    simp only [List.length_append, List.length_cons] at hlen
    omega
  | append_singleton cs c ih =>
    have hcut := reach_sequence cs h
    rw [sequence_append] at ht
    generalize hmid : cfg.sequence sys cs = mid at ht hcut
    change ((((sys.body c).run sys.exec mid.store).log.map fun x =>
      (⟨mid.calls.length, c, x.1, x.2⟩ : Entry Call S Resp Err)).reverse ++ mid.trace) = _ at ht
    have hbefore : ∀ later', mid.trace = later' ++ e :: (since ++ cfg.trace) →
        ∃ cs₁ cs₂ before after, cs ++ [c] = cs₁ ++ e.call :: cs₂ ∧
          ((sys.body e.call).run sys.exec (cfg.sequence sys cs₁).store).log =
            before ++ (e.before, e.ev) :: after ∧
          own e.id (since ++ cfg.trace) = (before.map Prod.snd).reverse := by
      intro later' htail
      obtain ⟨cs₁, cs₂, before, after, rfl, hlog, hown⟩ := ih (hmid ▸ htail)
      exact ⟨cs₁, cs₂ ++ [c], before, after, by simp, hlog, hown⟩
    rcases List.append_eq_append_iff.mp ht with ⟨newer, -, htail⟩ | ⟨between, hnew, hold⟩
    · exact hbefore newer htail
    · cases between with
      | nil => exact hbefore [] hold.symm
      | cons x between =>
        obtain ⟨rfl, hrest⟩ := List.cons.inj hold
        rw [List.reverse_eq_iff, List.reverse_append, List.reverse_cons, List.append_assoc] at hnew
        obtain ⟨before, rest, hlog, hbetween, htail⟩ := List.map_eq_append_iff.mp hnew
        obtain ⟨y, after, rfl, hy, -⟩ := List.map_eq_cons_iff.mp htail
        subst hy
        refine ⟨cs, [], before, after, rfl, by rw [hmid]; exact hlog, ?_⟩
        rw [hrest, ← List.reverse_reverse between, ← hbetween]
        exact own_alone hcut c before

/-- And every event of a call of the sequence is found in the trace. -/
theorem sequence_log (h : Reach sys (fun _ _ _ => True) init cfg) {cs₁ : List Call} {c : Call}
    (cs₂ : List Call)
    {before after : List (S × Ev Resp Err)} {s : S} {ev : Ev Resp Err}
    (hlog : ((sys.body c).run sys.exec (cfg.sequence sys cs₁).store).log =
      before ++ (s, ev) :: after) :
    ∃ later e since,
      (cfg.sequence sys (cs₁ ++ c :: cs₂)).trace = later ++ e :: (since ++ cfg.trace) ∧
      e.call = c ∧ e.before = s ∧ e.ev = ev ∧
      own e.id (since ++ cfg.trace) = (before.map Prod.snd).reverse := by
  have hcut := reach_sequence cs₁ h
  obtain ⟨old, hold⟩ := sequence_trace sys cfg cs₁
  rw [sequence_append]
  generalize cfg.sequence sys cs₁ = mid at hlog hcut hold
  obtain ⟨newer, ht⟩ := sequence_trace sys (mid.alone sys c) cs₂
  refine ⟨newer ++ (after.map fun x => ⟨mid.calls.length, c, x.1, x.2⟩).reverse,
    ⟨mid.calls.length, c, s, ev⟩,
    (before.map fun x => ⟨mid.calls.length, c, x.1, x.2⟩).reverse ++ old,
    ?_, rfl, rfl, rfl, ?_⟩
  · refine ht.trans ?_
    simp only [Config.alone, hlog]
    simp [hold]
  · rw [List.append_assoc, ← hold]
    exact own_alone hcut c before

/-- So a property of the events of a sequence is one of the calls that run alone. -/
theorem sequence_forall_iff (h : Reach sys (fun _ _ _ => True) init cfg) (cs : List Call)
    (Q : Call → List (Ev Resp Err) → S → Ev Resp Err → Prop) :
    (∀ later e since, (cfg.sequence sys cs).trace = later ++ e :: (since ++ cfg.trace) →
      Q e.call (own e.id (since ++ cfg.trace)) e.before e.ev) ↔
    ∀ cs₁ c cs₂, cs = cs₁ ++ c :: cs₂ → ∀ before s ev after,
      ((sys.body c).run sys.exec (cfg.sequence sys cs₁).store).log = before ++ (s, ev) :: after →
      Q c (before.map Prod.snd).reverse s ev := by
  constructor
  · rintro hall cs₁ c cs₂ rfl before s ev after hlog
    obtain ⟨later, e, since, ht, rfl, rfl, rfl, hown⟩ := sequence_log h cs₂ hlog
    rw [← hown]
    exact hall later e since ht
  · intro hall later e since ht
    obtain ⟨cs₁, cs₂, before, after, hcs, hlog, hown⟩ := sequence_event h ht
    rw [hown]
    exact hall cs₁ e.call cs₂ hcs before e.before e.ev after hlog

/-- Every call but `i` has ended. -/
def Config.OnlyRunning (cfg : Config Call S Resp Err Out) (i : Nat) : Prop :=
  ∀ j c p, cfg.calls[j]? = some (c, p) → j ≠ i → ∃ r, p = .done r

/-- When `ok` holds of the steps of some calls wherever no other call is running, these calls,
one after the other, from a configuration where all have ended, are a run under `ok`. -/
theorem reach_sequence_ok {ok : Config Call S Resp Err Out → Nat → Op → Prop} (cs : List Call)
    (hok : ∀ cfg' i c op k, c ∈ cs → Reach sys ok init cfg' →
      (∃ newer, cfg'.trace = newer ++ cfg.trace) → cfg'.calls[i]? = some (c, .await op k) →
      cfg'.OnlyRunning i → ok cfg' i op)
    (hended : ∀ x ∈ cfg.calls, ∃ r, x.2 = .done r) (h : Reach sys ok init cfg) :
    Reach sys ok init (cfg.sequence sys cs) := by
  induction cs generalizing cfg with
  | nil => exact h
  | cons c cs ih =>
    show Reach sys ok init ((cfg.alone sys c).sequence sys cs)
    apply ih
    · rintro cfg' i c' op k hc' hr ⟨newer, ht⟩
      exact hok cfg' i c' op k (List.mem_cons_of_mem _ hc') hr
        ⟨_, ht.trans (List.append_assoc ..).symm⟩
    · intro x hx
      rcases List.mem_append.mp hx with hx | hx
      · exact hended x hx
      · rw [List.mem_singleton.mp hx]
        exact ⟨_, rfl⟩
    · refine reach_run_last cfg.trace (fun s op k newer hr => ?_) (sys.body c) [] (.start c h)
      apply hok _ _ c op k List.mem_cons_self hr ⟨newer, rfl⟩ (by simp)
      intro j c' p hj hne
      have hlt : j < cfg.calls.length := by
        have := (List.getElem?_eq_some_iff.mp hj).1
        simp only [List.length_append, List.length_singleton] at this
        omega
      rw [List.getElem?_append_left hlt] at hj
      exact hended _ (List.mem_of_getElem? hj)

end Executable

end TroofAI.Await
