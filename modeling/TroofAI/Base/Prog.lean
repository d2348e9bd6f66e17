import Mathlib.Logic.Basic
import Mathlib.Data.List.Basic

/-!
Programs that await.

A program performs operations of a signature one at a time: it hands an operation
to whoever runs it and goes on with the answer, which may be an error. An error
that is not caught ends the program, so the program is its own exception monad.
`Prog.run` runs a program alone on a store; `TroofAI.Base.Interleave` runs many of
them step by step on a shared one.

* `Prog.Obeys P R past p` is the history logic: after the events `past`, `p`
  performs an operation only where `P` allows it and returns normally only where
  `R` allows it, whatever the answers are. It speaks about the program text alone,
  so it holds under every interleaving.
* `obeys_bind`, `obeys_perform_bind`, `obeys_collect_turns` are its rules for sequencing,
  for one operation and for a loop.
-/

namespace TroofAI.Await

variable {Op : Type} {Resp : Op → Type} {Err α β S : Type}

/-- A program over the operations `Op`: finished with a result, or waiting for the
answer to one operation. -/
inductive Prog (Resp : Op → Type) (Err α : Type) : Type where
  | done (result : Except Err α)
  | await (op : Op) (k : Except Err (Resp op) → Prog Resp Err α)

namespace Prog

/-- Sequencing: an error of the first program skips the second. -/
def bind : Prog Resp Err α → (α → Prog Resp Err β) → Prog Resp Err β
  | .done (.ok a), f => f a
  | .done (.error e), _ => .done (.error e)
  | .await op k, f => .await op fun r => (k r).bind f

instance : Monad (Prog Resp Err) where
  pure a := .done (.ok a)
  bind := Prog.bind

/-- `throw` of the source. -/
def throw (e : Err) : Prog Resp Err α := .done (.error e)

/-- `try p catch h`: the handler runs only if `p` ends in an error. -/
def tryCatch : Prog Resp Err α → (Err → Prog Resp Err α) → Prog Resp Err α
  | .done (.ok a), _ => .done (.ok a)
  | .done (.error e), h => h e
  | .await op k, h => .await op fun r => (k r).tryCatch h

/-- Perform one operation and return its answer, raising its error. -/
def perform (op : Op) : Prog Resp Err (Resp op) := .await op .done

/-- A loop over a list that collects one result for each element, in order. -/
def collect (f : α → Prog Resp Err β) : List α → Prog Resp Err (List β)
  | [] => pure []
  | x :: xs => do
      let y ← f x
      let ys ← collect f xs
      return y :: ys

end Prog

/-- An event: an operation with the answer it got. -/
structure Ev (Resp : Op → Type) (Err : Type) where
  op : Op
  res : Except Err (Resp op)

namespace Prog

/-! ### The history logic -/

/-- After the events `past` (newest first), `p` performs operations only where `P`
allows them and returns normally only where `R` allows it. -/
def Obeys (P : List (Ev Resp Err) → Op → Prop) (R : List (Ev Resp Err) → α → Prop) :
    List (Ev Resp Err) → Prog Resp Err α → Prop
  | past, .done (.ok a) => R past a
  | _, .done (.error _) => True
  | past, .await op k => P past op ∧ ∀ r, Obeys P R (⟨op, r⟩ :: past) (k r)

variable {P : List (Ev Resp Err) → Op → Prop} {past : List (Ev Resp Err)}

/-- Sequencing in the history logic: the first program returns only where the
second may take over. -/
theorem obeys_bind {R : List (Ev Resp Err) → β → Prop} {f : α → Prog Resp Err β}
    {p : Prog Resp Err α} :
    Obeys P R past (p >>= f) ↔ Obeys P (fun past' a => Obeys P R past' (f a)) past p := by
  show Obeys P R past (p.bind f) ↔ _
  induction p generalizing past with
  | done r => cases r <;> exact Iff.rfl
  | await op k ih =>
    simp only [bind, Obeys]
    exact and_congr_right fun _ => forall_congr' fun r => ih r

/-- One operation, then the rest. A failed operation ends the program. -/
theorem obeys_perform_bind {R : List (Ev Resp Err) → β → Prop} {op : Op}
    {f : Resp op → Prog Resp Err β} :
    Obeys P R past (perform op >>= f) ↔
      P past op ∧ ∀ a, Obeys P R (⟨op, .ok a⟩ :: past) (f a) := by
  rw [obeys_bind]
  constructor
  · rintro ⟨hop, hk⟩
    exact ⟨hop, fun a => hk (.ok a)⟩
  · rintro ⟨hop, hk⟩
    refine ⟨hop, fun r => ?_⟩
    cases r with
    | ok a => exact hk a
    | error e => trivial

/-- The last operation of a program. -/
theorem obeys_perform {op : Op} {R : List (Ev Resp Err) → Resp op → Prop} :
    Obeys P R past (perform op) ↔ P past op ∧ ∀ a, R (⟨op, .ok a⟩ :: past) a := by
  constructor
  · rintro ⟨hop, hk⟩
    exact ⟨hop, fun a => hk (.ok a)⟩
  · rintro ⟨hop, hk⟩
    refine ⟨hop, fun r => ?_⟩
    cases r with
    | ok a => exact hk a
    | error e => trivial

theorem Obeys.mono {R R' : List (Ev Resp Err) → α → Prop} {P' : List (Ev Resp Err) → Op → Prop}
    (hP : ∀ past op, P past op → P' past op) (hR : ∀ past a, R past a → R' past a)
    {p : Prog Resp Err α} (h : Obeys P R past p) : Obeys P' R' past p := by
  induction p generalizing past with
  | done r =>
    cases r with
    | ok a => exact hR past a h
    | error e => trivial
  | await op k ih => exact ⟨hP past op h.1, fun r => ih r (h.2 r)⟩

/-- Handing on what a program returns. -/
theorem obeys_map {R : List (Ev Resp Err) → β → Prop} {f : α → β} {p : Prog Resp Err α} :
    Obeys P R past (p >>= fun a => pure (f a)) ↔
      Obeys P (fun past' a => R past' (f a)) past p := obeys_bind

/-- A handler that is right after any error. -/
theorem obeys_tryCatch {R : List (Ev Resp Err) → α → Prop} {p : Prog Resp Err α}
    {h : Err → Prog Resp Err α} (hp : Obeys P R past p)
    (hh : ∀ past' e, Obeys P R past' (h e)) : Obeys P R past (p.tryCatch h) := by
  induction p generalizing past with
  | done r =>
    cases r with
    | ok a => exact hp
    | error e => exact hh past e
  | await op k ih => exact ⟨hp.1, fun r => ih r (hp.2 r)⟩

/-- The loop rule: the invariant may speak of the turns that have been taken, each element with
what came of it. -/
theorem obeys_collect_turns {I : List (α × β) → List (Ev Resp Err) → Prop}
    {f : α → Prog Resp Err β} {xs : List α}
    (hturn : ∀ turns x rest, xs = turns.map Prod.fst ++ x :: rest → ∀ past, I turns past →
      Obeys P (fun past' y => I (turns ++ [(x, y)]) past') past (f x))
    (h : I [] past) : Obeys P (fun past' ys =>
      ∃ turns, turns.map Prod.fst = xs ∧ turns.map Prod.snd = ys ∧ I turns past') past
        (collect f xs) := by
  have hloop : ∀ rest turns past, xs = turns.map Prod.fst ++ rest → I turns past →
      Obeys P (fun past' ys => ∃ all, all.map Prod.fst = xs ∧
        all.map Prod.snd = turns.map Prod.snd ++ ys ∧ I all past') past (collect f rest) := by
    intro rest
    induction rest with
    | nil =>
      intro turns past hxs hI
      exact ⟨turns, by simp [hxs], by simp, hI⟩
    | cons x rest ih =>
      intro turns past hxs hI
      refine obeys_bind.mpr (.mono (fun _ _ hop => hop) (fun past' y h' => ?_)
        (hturn turns x rest hxs past hI))
      refine obeys_map.mpr (.mono (fun _ _ hop => hop) (fun past'' ys => ?_)
        (ih (turns ++ [(x, y)]) past' (by simp [hxs]) h'))
      rintro ⟨all, hfst, hsnd, hall⟩
      exact ⟨all, hfst, by simp [hsnd], hall⟩
  exact hloop xs [] past rfl h

/-- Where it speaks of the elements only. -/
theorem obeys_collect_seen {I : List α → List (Ev Resp Err) → Prop} {f : α → Prog Resp Err β}
    {xs : List α}
    (hturn : ∀ seen x rest, xs = seen ++ x :: rest → ∀ past, I seen past →
      Obeys P (fun past' _ => I (seen ++ [x]) past') past (f x))
    (h : I [] past) : Obeys P (fun past' _ => I xs past') past (collect f xs) := by
  refine .mono (fun _ _ hop => hop) ?_
    (obeys_collect_turns (I := fun turns past => I (turns.map Prod.fst) past) ?_ h)
  · rintro past' _ ⟨turns, rfl, -, hI⟩
    exact hI
  · intro turns x rest hxs past hI
    simp only [List.map_append, List.map_cons, List.map_nil]
    exact hturn _ x rest hxs past hI

/-- What every turn keeps, the loop keeps. -/
theorem obeys_collect {I : List (Ev Resp Err) → Prop} {f : α → Prog Resp Err β} {xs : List α}
    (hturn : ∀ x ∈ xs, ∀ past, I past → Obeys P (fun past' _ => I past') past (f x))
    (h : I past) : Obeys P (fun past' _ => I past') past (collect f xs) := by
  refine obeys_collect_seen (I := fun _ past => I past) (fun seen x rest hxs past hI => ?_) h
  exact hturn x (by simp [hxs]) past hI

/-- A specification that asks for nothing. -/
theorem obeys_trivial (p : Prog Resp Err α) :
    Obeys (fun _ _ => True) (fun _ _ => True) past p := by
  induction p generalizing past with
  | done r => cases r <;> trivial
  | await op k ih => exact ⟨trivial, fun r => ih r⟩

/-! ### Running alone -/

/-- What a program leaves behind when it runs alone: its result, the store, and
its events in order, each with the store it met. -/
structure Ran (S : Type) (Resp : Op → Type) (Err α : Type) where
  result : Except Err α
  store : S
  log : List (S × Ev Resp Err)

/-- Run a program to its end, every operation answered by `exec`. -/
def run (exec : (op : Op) → S → Except Err (Resp op) × S) :
    Prog Resp Err α → S → Ran S Resp Err α
  | .done r, s => ⟨r, s, []⟩
  | .await op k, s =>
      let rest := run exec (k (exec op s).1) (exec op s).2
      { rest with log := (s, ⟨op, (exec op s).1⟩) :: rest.log }

variable {exec : (op : Op) → S → Except Err (Resp op) × S} {s : S}

/-- Running one operation that succeeds, and then the rest. -/
theorem run_perform_bind_ok {op : Op} {f : Resp op → Prog Resp Err β} {a : Resp op}
    (h : (exec op s).1 = .ok a) :
    run exec (perform op >>= f) s =
      { run exec (f a) (exec op s).2 with
        log := (s, ⟨op, .ok a⟩) :: (run exec (f a) (exec op s).2).log } := by
  show run exec ((perform op).bind f) s = _
  simp only [perform, bind, run, h]

/-- Every event of a run is one the specification allows, and its answer is the effect of
the operation on the store it met. -/
theorem run_point {R : List (Ev Resp Err) → α → Prop} {p : Prog Resp Err α}
    (h : Obeys P R past p) {before after : List (S × Ev Resp Err)} {s' : S} {ev : Ev Resp Err}
    (hlog : (run exec p s).log = before ++ (s', ev) :: after) :
    P ((before.map Prod.snd).reverse ++ past) ev.op ∧ ev.res = (exec ev.op s').1 := by
  induction p generalizing s past before with
  | done r => simp [run] at hlog
  | await op k ih =>
    cases before with
    | nil =>
      obtain ⟨hhead, -⟩ := List.cons.inj hlog
      cases hhead
      exact ⟨h.1, rfl⟩
    | cons x before =>
      obtain ⟨rfl, htail⟩ := List.cons.inj hlog
      have hrest := ih _ (h.2 _) htail
      rwa [List.map_cons, List.reverse_cons, List.append_assoc]

/-- Handing on what a program returns performs nothing. -/
theorem run_map {f : α → β} {p : Prog Resp Err α} :
    run exec (p >>= fun a => pure (f a)) s =
      { run exec p s with result := (run exec p s).result.map f } := by
  show run exec (p.bind fun a => pure (f a)) s = _
  induction p generalizing s with
  | done r => cases r <;> rfl
  | await op k ih =>
    simp only [bind, run]
    rw [ih]

/-- Where every operation counts one step, an event meets a store as many steps on as
there were events before it. -/
theorem run_count (idx : S → Nat) (hidx : ∀ op s, idx (exec op s).2 = idx s + 1)
    {p : Prog Resp Err α} {before after : List (S × Ev Resp Err)} {s' : S} {ev : Ev Resp Err}
    (hlog : (run exec p s).log = before ++ (s', ev) :: after) :
    idx s' = idx s + before.length := by
  induction p generalizing s before with
  | done r => simp [run] at hlog
  | await op k ih =>
    cases before with
    | nil =>
      obtain ⟨hhead, -⟩ := List.cons.inj hlog
      cases hhead
      rfl
    | cons x before =>
      obtain ⟨rfl, htail⟩ := List.cons.inj hlog
      have hrest := ih _ htail
      rw [hidx] at hrest
      rw [hrest, List.length_cons]
      omega

/-- What the earlier events of a run do not change is as it was at the start. -/
theorem run_frame {V : Type} (f : S → V) {p : Prog Resp Err α}
    {before after : List (S × Ev Resp Err)} {s' : S} {ev : Ev Resp Err}
    (hlog : (run exec p s).log = before ++ (s', ev) :: after)
    (hkeep : ∀ x ∈ before, f (exec x.2.op x.1).2 = f x.1) : f s' = f s := by
  induction p generalizing s before with
  | done r => simp [run] at hlog
  | await op k ih =>
    cases before with
    | nil =>
      obtain ⟨hhead, -⟩ := List.cons.inj hlog
      cases hhead
      rfl
    | cons x before =>
      obtain ⟨rfl, htail⟩ := List.cons.inj hlog
      exact (ih _ htail fun y hy => hkeep y (List.mem_cons_of_mem _ hy)).trans
        (hkeep _ List.mem_cons_self)

/-- What holds at the start and is kept by every event of a run holds of the store it leaves. -/
theorem run_keeps {K : S → Prop} {p : Prog Resp Err α} (hK : K s)
    (hkeep : ∀ x ∈ (run exec p s).log, K x.1 → K (exec x.2.op x.1).2) :
    K (run exec p s).store := by
  induction p generalizing s with
  | done r => exact hK
  | await op k ih =>
    apply ih
    · exact hkeep _ List.mem_cons_self hK
    · exact fun x hx => hkeep x (List.mem_cons_of_mem _ hx)

/-- And so is what holds after one event and is kept by the later ones. -/
theorem run_after {K : S → Prop} {p : Prog Resp Err α} {before after : List (S × Ev Resp Err)}
    {s' : S} {ev : Ev Resp Err} (hlog : (run exec p s).log = before ++ (s', ev) :: after)
    (hK : K (exec ev.op s').2) (hkeep : ∀ x ∈ after, K x.1 → K (exec x.2.op x.1).2) :
    K (run exec p s).store := by
  induction p generalizing s before with
  | done r => simp [run] at hlog
  | await op k ih =>
    cases before with
    | nil =>
      obtain ⟨hhead, hrest⟩ := List.cons.inj hlog
      cases hhead
      subst hrest
      show K (run exec (k (exec op s').1) (exec op s').2).store
      exact run_keeps hK hkeep
    | cons x before =>
      obtain ⟨rfl, htail⟩ := List.cons.inj hlog
      exact ih _ htail

end Prog

end TroofAI.Await
