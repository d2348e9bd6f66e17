import TroofAI.Base.Interleave

/-!
One system carried out by another.

A `Lowering` replaces every operation by one of another signature and decodes its answer. It takes
programs along (`Prog.lower`): the lowered program performs the other operations and goes on with the
decoded answers. When `rep` gives for each store the store of the other level that stands for it, and
the operations that the programs perform keep to it (`Lowering.Sound`), the runs of the two systems
correspond under every interleaving: `reach_lower_iff`.

The operations correspond one to one, so the two levels have the same steps to interleave.
-/

namespace TroofAI.Await

variable {Op Op' : Type} {Resp : Op → Type} {Resp' : Op' → Type} {Err α Out Call S S' : Type}

/-- Operations carried out by others, whose answers are decoded. -/
structure Lowering (Resp : Op → Type) (Resp' : Op' → Type) (Err : Type) where
  op : Op → Op'
  answer : (o : Op) → Except Err (Resp' (op o)) → Except Err (Resp o)

/-- The program over the other operations. -/
def Prog.lower (L : Lowering Resp Resp' Err) : Prog Resp Err α → Prog Resp' Err α
  | .done r => .done r
  | .await o k => .await (L.op o) fun r => (k (L.answer o r)).lower L

section Programs

variable (L : Lowering Resp Resp' Err)

/-- A lowered program waits for an operation that the program itself waits for. -/
theorem Prog.lower_eq_await {p : Prog Resp Err α} {op' : Op'}
    {k' : Except Err (Resp' op') → Prog Resp' Err α} (h : p.lower L = .await op' k') :
    ∃ o k, p = .await o k ∧ Prog.await (L.op o) (fun r => (k (L.answer o r)).lower L) =
      .await op' k' := by
  cases p with
  | done r => cases h
  | await o k => exact ⟨o, k, rfl, h⟩

end Programs

/-! ### Systems -/

/-- The system of the lowered programs. -/
def System.lower (sys : System Call S Resp Err Out) (L : Lowering Resp Resp' Err)
    (exec' : (op : Op') → S' → Except Err (Resp' op) × S') : System Call S' Resp' Err Out where
  body c := (sys.body c).lower L
  exec := exec'

section Runs

variable (sys : System Call S Resp Err Out) (L : Lowering Resp Resp' Err)
  (exec' : (op : Op') → S' → Except Err (Resp' op) × S') (rep : S → S')

/-- What an operation does to a store, the other one does to the store that stands for it. -/
structure Lowering.Sound (o : Op) (s : S) : Prop where
  answer : L.answer o (exec' (L.op o) (rep s)).1 = (sys.exec o s).1
  store : (exec' (L.op o) (rep s)).2 = rep (sys.exec o s).2

/-- The event of the other operation. -/
def Entry.lower (e : Entry Call S Resp Err) : Entry Call S' Resp' Err :=
  ⟨e.id, e.call, rep e.before, ⟨L.op e.ev.op, (exec' (L.op e.ev.op) (rep e.before)).1⟩⟩

/-- The configuration of the other system that stands for one of this system. -/
def Config.lower (cfg : Config Call S Resp Err Out) : Config Call S' Resp' Err Out where
  store := rep cfg.store
  calls := cfg.calls.map fun x => (x.1, x.2.lower L)
  trace := cfg.trace.map (Entry.lower L exec' rep)

variable {sys L exec' rep} {cfg : Config Call S Resp Err Out}

theorem lower_start (c : Call) :
    (cfg.start sys c).lower L exec' rep =
      (cfg.lower L exec' rep).start (sys.lower L exec') c := by
  simp [Config.lower, Config.start, System.lower]

theorem lower_perform {i : Nat} {c : Call} {o : Op} {k : Except Err (Resp o) → Prog Resp Err Out}
    (h : L.Sound sys exec' rep o cfg.store) :
    (cfg.perform sys i c o k).lower L exec' rep =
      (cfg.lower L exec' rep).perform (sys.lower L exec') i c (L.op o)
        fun r => (k (L.answer o r)).lower L := by
  simp only [Config.lower, Config.perform, System.lower, List.map_cons, List.map_set, Entry.lower,
    h.store, h.answer]

/-- The runs of the lowered system are the lowered runs. -/
theorem reach_lower_iff {init : S → Prop}
    (hsound : ∀ (cfg : Config Call S Resp Err Out) (i : Nat) (c : Call) (o : Op)
      (k : Except Err (Resp o) → Prog Resp Err Out), Reach sys (fun _ _ _ => True) init cfg →
      cfg.calls[i]? = some (c, .await o k) → L.Sound sys exec' rep o cfg.store)
    {cfg' : Config Call S' Resp' Err Out} :
    Reach (sys.lower L exec') (fun _ _ _ => True) (fun s' => ∃ s, init s ∧ s' = rep s) cfg' ↔
      ∃ cfg, Reach sys (fun _ _ _ => True) init cfg ∧ cfg' = cfg.lower L exec' rep := by
  constructor
  · intro h
    induction h with
    | init hs =>
      obtain ⟨s, hs, rfl⟩ := hs
      exact ⟨⟨s, [], []⟩, .init hs, rfl⟩
    | start c _ ih =>
      obtain ⟨cfg, hr, rfl⟩ := ih
      exact ⟨cfg.start sys c, .start c hr, (lower_start c).symm⟩
    | @perform cfg' i c op' k' _ hcall _ ih =>
      obtain ⟨cfg, hr, rfl⟩ := ih
      -- the call waits for the same operation at both levels
      simp only [Config.lower, List.getElem?_map, Option.map_eq_some_iff, Prod.mk.injEq] at hcall
      obtain ⟨⟨c', p⟩, hp, rfl, hlower⟩ := hcall
      obtain ⟨o, k, rfl, heq⟩ := Prog.lower_eq_await L hlower
      injection heq with hop hk
      subst hop
      obtain rfl := eq_of_heq hk
      refine ⟨cfg.perform sys i c' o k, .perform hr hp trivial, ?_⟩
      exact (lower_perform (hsound cfg i c' o k hr hp)).symm
  · rintro ⟨cfg, h, rfl⟩
    induction h with
    | init hs => exact .init ⟨_, hs, rfl⟩
    | start c _ ih =>
      rw [lower_start]
      exact .start c ih
    | @perform cfg i c o k hr hcall _ ih =>
      rw [lower_perform (hsound cfg i c o k hr hcall)]
      refine .perform ih ?_ trivial
      simp only [Config.lower, List.getElem?_map, hcall]
      rfl

end Runs

end TroofAI.Await
