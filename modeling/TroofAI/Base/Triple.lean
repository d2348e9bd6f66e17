import TroofAI.Base.Prog

/-!
Pre- and postconditions of programs that run alone.

`Prog.Ends exec R E p s` is the weakest precondition: run alone from `s`, the program `p` ends
normally with a result and a store that `R` allows, or in an error with a store that `E`
allows. It is computed along the program, and `ends_run` says it is true of `Prog.run`.

* `ends_perform_bind`, `ends_bind`, `ends_map` are its rules for one operation, for sequencing
  and for handing on a result, `ends_tryCatch` the one for a handler. `ends_ok_bind` and
  `ends_error_bind` step over an operation whose answer is known.
* `Ends.frame` adds what every operation keeps.
* `ends_collect` is the loop rule. Its invariant speaks of the elements that are still to come, the
  one of `ends_collect_done` of those that have had their turn.
-/

namespace TroofAI.Await.Prog

variable {Op : Type} {Resp : Op → Type} {Err α β S : Type}

/-- Run alone from the store, the program ends as `R` or `E` allows. -/
def Ends (exec : (op : Op) → S → Except Err (Resp op) × S) (R : α → S → Prop)
    (E : Err → S → Prop) : Prog Resp Err α → S → Prop
  | .done (.ok a), s => R a s
  | .done (.error e), s => E e s
  | .await op k, s => Ends exec R E (k (exec op s).1) (exec op s).2

variable {exec : (op : Op) → S → Except Err (Resp op) × S} {E : Err → S → Prop} {s : S}

/-- What `Ends` says is true of the run. -/
theorem ends_run {R : α → S → Prop} {p : Prog Resp Err α} :
    Ends exec R E p s ↔
      (∀ a, (run exec p s).result = .ok a → R a (run exec p s).store) ∧
        ∀ e, (run exec p s).result = .error e → E e (run exec p s).store := by
  induction p generalizing s with
  | done r => cases r <;> simp [Ends, run]
  | await op k ih => exact ih _

/-- The same for a postcondition of the result and the store together. -/
theorem ends_result {P : Except Err α → S → Prop} {p : Prog Resp Err α} :
    Ends exec (fun a => P (.ok a)) (fun e => P (.error e)) p s ↔
      P (run exec p s).result (run exec p s).store := by
  induction p generalizing s with
  | done r => cases r <;> exact Iff.rfl
  | await op k ih => exact ih _

theorem Ends.mono {R R' : α → S → Prop} {E' : Err → S → Prop} {p : Prog Resp Err α}
    (hR : ∀ a s, R a s → R' a s) (hE : ∀ e s, E e s → E' e s) (h : Ends exec R E p s) :
    Ends exec R' E' p s := by
  induction p generalizing s with
  | done r =>
    cases r with
    | ok a => exact hR a s h
    | error e => exact hE e s h
  | await op k ih => exact ih _ h

/-- The frame rule: what every operation keeps holds at the end if it holds at the start. -/
theorem Ends.frame {R : α → S → Prop} {K : S → Prop} {p : Prog Resp Err α}
    (hkeep : ∀ op s, K s → K (exec op s).2) (hK : K s) (h : Ends exec R E p s) :
    Ends exec (fun a s' => R a s' ∧ K s') (fun e s' => E e s' ∧ K s') p s := by
  induction p generalizing s with
  | done r => cases r <;> exact ⟨h, hK⟩
  | await op k ih => exact ih _ (hkeep op s hK) h

/-- Sequencing: an error of the first program is one of the whole. -/
theorem ends_bind {R : β → S → Prop} {f : α → Prog Resp Err β} {p : Prog Resp Err α} :
    Ends exec R E (p >>= f) s ↔ Ends exec (fun a s' => Ends exec R E (f a) s') E p s := by
  show Ends exec R E (p.bind f) s ↔ _
  induction p generalizing s with
  | done r => cases r <;> exact Iff.rfl
  | await op k ih => exact ih _

theorem ends_map {R : β → S → Prop} {f : α → β} {p : Prog Resp Err α} :
    Ends exec R E (p >>= fun a => pure (f a)) s ↔ Ends exec (fun a s' => R (f a) s') E p s :=
  ends_bind

/-- One operation. -/
theorem ends_perform {op : Op} {R : Resp op → S → Prop} :
    Ends exec R E (perform op) s ↔
      (∀ a, (exec op s).1 = .ok a → R a (exec op s).2) ∧
        ∀ e, (exec op s).1 = .error e → E e (exec op s).2 := by
  show Ends exec R E (.done (exec op s).1) (exec op s).2 ↔ _
  cases (exec op s).1 <;> simp [Ends]

/-- One operation, then the rest. -/
theorem ends_perform_bind {R : β → S → Prop} {op : Op} {f : Resp op → Prog Resp Err β} :
    Ends exec R E (perform op >>= f) s ↔
      (∀ a, (exec op s).1 = .ok a → Ends exec R E (f a) (exec op s).2) ∧
        ∀ e, (exec op s).1 = .error e → E e (exec op s).2 := by
  rw [ends_bind, ends_perform]

/-- One operation whose answer is known, then the rest. -/
theorem ends_ok_bind {R : β → S → Prop} {op : Op} {f : Resp op → Prog Resp Err β} {a : Resp op}
    {s' : S} (h : exec op s = (.ok a, s')) :
    Ends exec R E (perform op >>= f) s ↔ Ends exec R E (f a) s' := by
  show Ends exec R E ((perform op).bind f) s ↔ _
  simp only [perform, bind, Ends, h]

/-- One operation that is known to fail. -/
theorem ends_error_bind {R : β → S → Prop} {op : Op} {f : Resp op → Prog Resp Err β} {e : Err}
    {s' : S} (h : exec op s = (.error e, s')) :
    Ends exec R E (perform op >>= f) s ↔ E e s' := by
  show Ends exec R E ((perform op).bind f) s ↔ _
  simp only [perform, bind, Ends, h]

/-- A handler takes over where the program ends in an error. -/
theorem ends_tryCatch {R : α → S → Prop} {p : Prog Resp Err α} {h : Err → Prog Resp Err α}
    (hp : Ends exec R (fun e s' => Ends exec R E (h e) s') p s) :
    Ends exec R E (p.tryCatch h) s := by
  induction p generalizing s with
  | done r => cases r <;> exact hp
  | await op k ih => exact ih _ hp

/-- The loop rule. -/
theorem ends_collect {I : List α → S → Prop} {f : α → Prog Resp Err β}
    (hturn : ∀ x rest s, I (x :: rest) s → Ends exec (fun _ s' => I rest s') E (f x) s)
    {xs : List α} (h : I xs s) : Ends exec (fun _ s' => I [] s') E (collect f xs) s := by
  induction xs generalizing s with
  | nil => exact h
  | cons x xs ih =>
    refine ends_bind.mpr ((hturn x xs s h).mono (fun y s' hrest => ?_) fun _ _ he => he)
    exact ends_map.mpr (ih hrest)

/-- The same with an invariant that speaks of the elements that have had their turn, each with its
result. -/
theorem ends_collect_done {I : List (α × β) → S → Prop} {f : α → Prog Resp Err β} {xs : List α}
    (hturn : ∀ x ∈ xs, ∀ pairs s, I pairs s →
      Ends exec (fun y s' => I (pairs ++ [(x, y)]) s') E (f x) s)
    (h : I [] s) : Ends exec (fun ys s' => ys.length = xs.length ∧ I (xs.zip ys) s') E
      (collect f xs) s := by
  have hloop : ∀ rest ⊆ xs, ∀ pairs s, I pairs s →
      Ends exec (fun ys s' => ys.length = rest.length ∧ I (pairs ++ rest.zip ys) s') E
        (collect f rest) s := by
    intro rest
    induction rest with
    | nil =>
      intro _ pairs s hI
      show _ ∧ I (pairs ++ []) s
      rw [List.append_nil]
      exact ⟨rfl, hI⟩
    | cons x rest ih =>
      intro hsub pairs s hI
      obtain ⟨hx, hrest⟩ := List.cons_subset.mp hsub
      refine ends_bind.mpr ((hturn x hx pairs s hI).mono ?_ fun _ _ he => he)
      intro y s' hI'
      refine ends_map.mpr ((ih hrest _ s' hI').mono ?_ fun _ _ he => he)
      rintro ys s'' ⟨hlength, hI''⟩
      refine ⟨by simp [hlength], ?_⟩
      rwa [List.append_assoc] at hI''
  exact hloop xs (List.Subset.refl xs) [] s h

end TroofAI.Await.Prog
