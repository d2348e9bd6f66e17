import Mathlib.Data.List.Basic
import Mathlib.Algebra.BigOperators.Group.List.Basic
import Mathlib.Algebra.GroupWithZero.Nat

/-!
Strings put together from lines.

`joinLines` is `join("\n")`: it puts a line feed between its pieces and does not
look into them, so a piece that contains line feeds itself gives a text that other
pieces give too. `joinLines_count` counts the line feeds of the text;
`joinLines_cons_inj` reads off the first piece when it holds none, and
`joinLines_pair_inj` the last of two. `joinLines_between_iff` cancels pieces that two
texts share at both ends, whatever they hold. `joinLines_eq_iff` is what is left of the pieces
in general: their `lines`, one piece after the other.
-/

namespace TroofAI

/-- `pieces.join("\n")`. -/
def joinLines : List String → String
  | [] => ""
  | [s] => s
  | s :: s' :: rest => s ++ "\n" ++ joinLines (s' :: rest)

/-- The number of line feeds in a text. -/
def lineFeeds (s : String) : Nat := s.toList.count '\n'

@[simp] theorem lineFeeds_append (s t : String) :
    lineFeeds (s ++ t) = lineFeeds s + lineFeeds t := by
  simp [lineFeeds]

theorem lineFeeds_eq_zero_iff {s : String} : lineFeeds s = 0 ↔ '\n' ∉ s.toList :=
  List.count_eq_zero

/-- A text with a line feed falls into two. -/
theorem exists_lines {s : String} (h : '\n' ∈ s.toList) : ∃ a b, s = a ++ "\n" ++ b := by
  obtain ⟨a, b, hab⟩ := List.append_of_mem h
  refine ⟨String.ofList a, String.ofList b, String.toList_inj.mp ?_⟩
  rw [hab]
  simp

theorem ne_of_lines {a b : String} : a ≠ a ++ "\n" ++ b := by
  intro h
  have hlength := congrArg String.length h
  have hsep : "\n".length = 1 := rfl
  rw [String.length_append, String.length_append, hsep] at hlength
  omega

/-- The pieces' own line feeds, and one between any two. -/
theorem joinLines_count : ∀ (s : String) (rest : List String),
    lineFeeds (joinLines (s :: rest)) = rest.length + ((s :: rest).map lineFeeds).sum
  | s, [] => by simp [joinLines]
  | s, s' :: rest => by
      have hsep : lineFeeds "\n" = 1 := rfl
      simp only [joinLines, lineFeeds_append, hsep, joinLines_count s' rest, List.map_cons,
        List.sum_cons, List.length_cons]
      omega

/-- Two lists split at the first occurrence of one element agree before and after it. -/
theorem split_inj {α : Type} {c : α} {a a' b b' : List α} (ha : c ∉ a) (ha' : c ∉ a')
    (h : a ++ c :: b = a' ++ c :: b') : a = a' ∧ b = b' := by
  induction a generalizing a' with
  | nil =>
    cases a' with
    | nil => exact ⟨rfl, (List.cons.inj h).2⟩
    | cons c' a' => exact absurd ((List.cons.inj h).1 ▸ List.mem_cons_self) ha'
  | cons c' a ih =>
    cases a' with
    | nil => exact absurd ((List.cons.inj h).1 ▸ List.mem_cons_self) ha
    | cons c'' a' =>
      obtain ⟨rfl, htail⟩ := List.cons.inj h
      obtain ⟨rfl, rfl⟩ := ih (fun hm => ha (List.mem_cons_of_mem _ hm))
        (fun hm => ha' (List.mem_cons_of_mem _ hm)) htail
      exact ⟨rfl, rfl⟩

/-- Two texts with a separator after a first piece that does not hold it. -/
theorem piece_inj {c : Char} {sep s s' rest rest' : String} (hsep : sep.toList = [c])
    (hs : c ∉ s.toList) (hs' : c ∉ s'.toList)
    (h : s ++ (sep ++ rest) = s' ++ (sep ++ rest')) : s = s' ∧ rest = rest' := by
  have hl := congrArg String.toList h
  simp only [String.toList_append, hsep, List.singleton_append] at hl
  obtain ⟨h₁, h₂⟩ := split_inj hs hs' hl
  exact ⟨String.toList_inj.mp h₁, String.toList_inj.mp h₂⟩

/-- When the first pieces hold no line feed, the text determines them, and what
follows them. -/
theorem joinLines_cons_inj {s s' t t' : String} {rest rest' : List String}
    (hs : '\n' ∉ s.toList) (hs' : '\n' ∉ s'.toList)
    (h : joinLines (s :: t :: rest) = joinLines (s' :: t' :: rest')) :
    s = s' ∧ joinLines (t :: rest) = joinLines (t' :: rest') := by
  simp only [joinLines, String.append_assoc] at h
  exact piece_inj rfl hs hs' h

/-- And two lists split at its last occurrence. -/
theorem split_last_inj {α : Type} {c : α} {a a' b b' : List α} (hb : c ∉ b) (hb' : c ∉ b')
    (h : a ++ c :: b = a' ++ c :: b') : a = a' ∧ b = b' := by
  have hrev := congrArg List.reverse h
  simp only [List.reverse_append, List.reverse_cons, List.append_assoc, List.singleton_append]
    at hrev
  obtain ⟨h₁, h₂⟩ := split_inj (by simpa using hb) (by simpa using hb') hrev
  exact ⟨List.reverse_injective h₂, List.reverse_injective h₁⟩

/-- Two pieces are read off from the end when the last one holds no line feed, whatever the
other holds. -/
theorem joinLines_pair_inj {s s' t t' : String} (ht : '\n' ∉ t.toList) (ht' : '\n' ∉ t'.toList)
    (h : joinLines [s, t] = joinLines [s', t']) : s = s' ∧ t = t' := by
  have hl := congrArg String.toList h
  simp only [joinLines, String.toList_append] at hl
  have hsep : "\n".toList = ['\n'] := rfl
  rw [hsep, List.append_assoc, List.append_assoc] at hl
  obtain ⟨h₁, h₂⟩ := split_last_inj ht ht' hl
  exact ⟨String.toList_inj.mp h₁, String.toList_inj.mp h₂⟩

/-! ### Lines -/

/-- The lines of a text: what stands before, between and after its line feeds. -/
def lines (s : String) : List String := (s.toList.splitOn '\n').map String.ofList

theorem lines_injective : Function.Injective lines := by
  intro s t h
  have hsplit := List.map_injective_iff.mpr (fun _ _ => String.ofList_injective) h
  have hjoin := congrArg (['\n'].intercalate ·) hsplit
  simp only [List.intercalate_splitOn] at hjoin
  exact String.toList_inj.mp hjoin

/-- A text without line feeds is its only line. -/
theorem lines_eq_singleton {s : String} (h : '\n' ∉ s.toList) : lines s = [s] := by
  unfold lines
  rw [List.splitOn_eq_singleton h, List.map_singleton, String.ofList_toList]

theorem lines_append (s t : String) : lines (s ++ "\n" ++ t) = lines s ++ lines t := by
  have hlist : (s ++ "\n" ++ t).toList = s.toList ++ '\n' :: t.toList := by simp
  unfold lines
  rw [hlist, List.splitOn_append_cons_self, List.map_append]

theorem lines_joinLines : ∀ {pieces : List String}, pieces ≠ [] →
    lines (joinLines pieces) = pieces.flatMap lines
  | [], h => absurd rfl h
  | [s], _ => by simp [joinLines]
  | s :: s' :: rest, _ => by
      rw [joinLines, lines_append, lines_joinLines (List.cons_ne_nil s' rest)]
      rfl

/-- Two lists of pieces give one text exactly if they have the same lines. -/
theorem joinLines_eq_iff {pieces pieces' : List String} (h : pieces ≠ []) (h' : pieces' ≠ []) :
    joinLines pieces = joinLines pieces' ↔ pieces.flatMap lines = pieces'.flatMap lines := by
  rw [← lines_joinLines h, ← lines_joinLines h']
  exact lines_injective.eq_iff.symm

/-! ### Pieces in common -/

theorem joinLines_eq_intercalate : ∀ pieces, joinLines pieces = "\n".intercalate pieces
  | [] => String.intercalate_nil.symm
  | [_] => String.intercalate_singleton.symm
  | s :: s' :: rest => by
      rw [joinLines, joinLines_eq_intercalate (s' :: rest), String.intercalate_cons_cons]

theorem joinLines_append {pieces more : List String} (h : pieces ≠ []) (hmore : more ≠ []) :
    joinLines (pieces ++ more) = joinLines pieces ++ "\n" ++ joinLines more := by
  simp only [joinLines_eq_intercalate]
  exact String.intercalate_append_of_ne_nil h hmore

/-- Texts that share their first and their last pieces are one text exactly if the pieces
between give one text. -/
theorem joinLines_between_iff {front mid mid' back : List String} (hfront : front ≠ [])
    (hmid : mid ≠ []) (hmid' : mid' ≠ []) (hback : back ≠ []) :
    joinLines (front ++ (mid ++ back)) = joinLines (front ++ (mid' ++ back)) ↔
      joinLines mid = joinLines mid' := by
  have hrest : ∀ m : List String, m ++ back ≠ [] := by simp [hback]
  rw [joinLines_append hfront (hrest mid), joinLines_append hfront (hrest mid'),
    String.append_right_inj, joinLines_append hmid hback, joinLines_append hmid' hback,
    String.append_left_inj, String.append_left_inj]

/-- The same of three pieces, when the first ones hold no line feed. -/
theorem joinLines_outer_iff {s s' t u u' : String} (hs : '\n' ∉ s.toList) (hs' : '\n' ∉ s'.toList) :
    joinLines [s, t, u] = joinLines [s', t, u'] ↔ s = s' ∧ u = u' := by
  constructor
  · intro h
    obtain ⟨rfl, hrest⟩ := joinLines_cons_inj hs hs' h
    exact ⟨rfl, (String.append_right_inj _).mp hrest⟩
  · rintro ⟨rfl, rfl⟩
    rfl

end TroofAI
