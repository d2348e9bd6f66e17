import Mathlib.Data.List.Nodup
import Mathlib.Tactic.Common

/-!
JSON texts.

`parse` reads the grammar of JSON. What the grammar leaves to a writer is a `Style`: how each
character of a string is spelled, and the white space between the tokens. Whatever the style,
`parse` reads back the value that was printed (`parse_print`), so a text may be written by one
program and read by another.

* Texts are Unicode. An escape that names half of a surrogate pair is refused unless the other
  half follows, since no text holds half a pair.
* A number is kept as it is spelled. Nothing here computes with it.
* `Value.get` takes the last of several members with one name, as readers of JSON do.
-/

namespace TroofAI.Json

/-! ### Values -/

def isNumeralChar (c : Char) : Bool :=
  c.isDigit || c = '-' || c = '+' || c = '.' || c = 'e' || c = 'E'

/-- One digit or more, and what follows them. -/
def dropDigits : List Char → Option (List Char)
  | [] => none
  | c :: rest => if c.isDigit then some (rest.dropWhile Char.isDigit) else none

/-- No leading zero. -/
def dropInteger : List Char → Option (List Char)
  | '0' :: rest => some rest
  | s => dropDigits s

def dropFraction : List Char → Option (List Char)
  | '.' :: rest => dropDigits rest
  | s => some s

def dropExponent : List Char → Option (List Char)
  | 'e' :: '+' :: rest | 'e' :: '-' :: rest | 'e' :: rest
  | 'E' :: '+' :: rest | 'E' :: '-' :: rest | 'E' :: rest => dropDigits rest
  | s => some s

/-- The spelling of a number. -/
def isNumeral (s : List Char) : Bool :=
  let unsigned := if s.head? = some '-' then s.tail else s
  s.all isNumeralChar && ((dropInteger unsigned).bind fun s => (dropFraction s).bind dropExponent) =
    some []

abbrev Numeral := { s : List Char // isNumeral s = true }

inductive Value where
  | null
  | bool (b : Bool)
  | num (n : Numeral)
  | str (s : String)
  | arr (items : List Value)
  | obj (members : List (String × Value))

namespace Value

/-- The member of an object with that name, the last one if there are several. -/
def get (v : Value) (name : String) : Option Value :=
  match v with
  | .obj members => (members.reverse.find? (·.1 = name)).map (·.2)
  | _ => none

/-- The value is a string. -/
def asString : Value → Option String
  | .str s => some s
  | _ => none

/-- A member that is a string. -/
def getString (v : Value) (name : String) : Option String := (v.get name).bind asString

theorem get_of_unique {members : List (String × Value)} {name : String} {v : Value}
    (hunique : ∀ p ∈ members, p.1 = name → p = (name, v)) (h : (name, v) ∈ members) :
    (obj members).get name = some v := by
  show (members.reverse.find? (·.1 = name)).map (·.2) = some v
  cases hfind : members.reverse.find? (·.1 = name) with
  | none =>
    have hnone := List.find?_eq_none.mp hfind (name, v) (List.mem_reverse.mpr h)
    simp at hnone
  | some p =>
    have hname : p.1 = name := by simpa using List.find?_some hfind
    have hmem := List.mem_reverse.mp (List.mem_of_find?_eq_some hfind)
    rw [hunique p hmem hname]
    rfl

theorem get_of_not_mem {members : List (String × Value)} {name : String}
    (h : ∀ p ∈ members, p.1 ≠ name) : (obj members).get name = none := by
  show (members.reverse.find? (·.1 = name)).map (·.2) = none
  rw [Option.map_eq_none_iff, List.find?_eq_none]
  intro p hp
  simpa using h p (List.mem_reverse.mp hp)

/-- Where no name occurs twice every member is found. -/
theorem get_of_mem {members : List (String × Value)} {name : String} {v : Value}
    (hnames : (members.map (·.1)).Nodup) (h : (name, v) ∈ members) :
    (obj members).get name = some v := by
  refine get_of_unique ?_ h
  intro p hp hname
  exact List.inj_on_of_nodup_map hnames hp h hname

/-- The object with the members `name: v.name`, those that are `undefined` left out. -/
def pick (v : Value) (names : List String) : Value :=
  obj (names.filterMap fun name => (v.get name).map (name, ·))

theorem get_pick {v : Value} {names : List String} {name : String} (h : name ∈ names) :
    (v.pick names).get name = v.get name := by
  have hmember : ∀ p ∈ names.filterMap fun name => (v.get name).map (name, ·),
      v.get p.1 = some p.2 := by
    intro p hp
    obtain ⟨n, -, hn⟩ := List.mem_filterMap.mp hp
    obtain ⟨x, hx, rfl⟩ := Option.map_eq_some_iff.mp hn
    exact hx
  cases hget : v.get name with
  | none =>
    apply get_of_not_mem
    rintro p hp rfl
    rw [hmember p hp] at hget
    cases hget
  | some x =>
    apply get_of_unique
    · rintro ⟨n, y⟩ hp rfl
      rw [hmember _ hp] at hget
      cases hget
      rfl
    · exact List.mem_filterMap.mpr ⟨name, h, by rw [hget]; rfl⟩

/-- An object whose members are strings. -/
def ofStrings (members : List (String × String)) : Value :=
  obj (members.map fun p => (p.1, str p.2))

theorem getString_ofStrings {members : List (String × String)} {p : String × String}
    (hnames : (members.map (·.1)).Nodup) (h : p ∈ members) :
    (ofStrings members).getString p.1 = some p.2 := by
  have hmem : (p.1, str p.2) ∈ members.map fun p => (p.1, str p.2) := List.mem_map_of_mem h
  unfold getString ofStrings
  rw [get_of_mem (by simpa [Function.comp_def] using hnames) hmem]
  rfl

end Value

/-! ### Reading -/

def isSpace (c : Char) : Bool := c = ' ' || c = '\t' || c = '\n' || c = '\r'

def skipSpace (s : List Char) : List Char := s.dropWhile isSpace

def hexValue (c : Char) : Option Nat :=
  if '0' ≤ c && c ≤ '9' then some (c.toNat - 48)
  else if 'a' ≤ c && c ≤ 'f' then some (c.toNat - 87)
  else if 'A' ≤ c && c ≤ 'F' then some (c.toNat - 55)
  else none

/-- Four hexadecimal digits. -/
def readHex4 : List Char → Option (Nat × List Char)
  | a :: b :: c :: d :: rest => do
      let a ← hexValue a
      let b ← hexValue b
      let c ← hexValue c
      let d ← hexValue d
      return (((a * 16 + b) * 16 + c) * 16 + d, rest)
  | _ => none

/-- The second half of a surrogate pair. -/
def readLowSurrogate (high : Nat) : List Char → Option (Char × List Char)
  | '\\' :: 'u' :: rest => do
      let (low, rest) ← readHex4 rest
      if 0xDC00 ≤ low && low ≤ 0xDFFF then
        return (Char.ofNat (0x10000 + (high - 0xD800) * 0x400 + (low - 0xDC00)), rest)
      else none
  | _ => none

/-- What an escape names, after its backslash. -/
def readEscape : List Char → Option (Char × List Char)
  | '"' :: rest => some ('"', rest)
  | '\\' :: rest => some ('\\', rest)
  | '/' :: rest => some ('/', rest)
  | 'b' :: rest => some ('\x08', rest)
  | 'f' :: rest => some ('\x0c', rest)
  | 'n' :: rest => some ('\n', rest)
  | 'r' :: rest => some ('\r', rest)
  | 't' :: rest => some ('\t', rest)
  | 'u' :: rest => do
      let (n, rest) ← readHex4 rest
      if n < 0xD800 || 0xDFFF < n then return (Char.ofNat n, rest)
      else if n < 0xDC00 then readLowSurrogate n rest
      else none
  | _ => none

/-- One character of a string; the quotation mark that ends it is none. -/
def readChar : List Char → Option (Char × List Char)
  | [] => none
  | c :: rest =>
      if c = '"' || c.toNat < 0x20 then none
      else if c = '\\' then readEscape rest
      else some (c, rest)

/-- The characters up to the closing quotation mark. -/
def readChars : Nat → List Char → Option (List Char × List Char)
  | 0, _ => none
  | fuel + 1, s =>
      match readChar s with
      | some (c, rest) => (readChars fuel rest).map fun p => (c :: p.1, p.2)
      | none => if s.head? = some '"' then some ([], s.tail) else none

/-- A string after its opening quotation mark. Every turn of the loop consumes a character. -/
def readString (s : List Char) : Option (String × List Char) :=
  (readChars (s.length + 1) s).map fun p => (String.ofList p.1, p.2)

def readNumber (s : List Char) : Option (Value × List Char) :=
  if h : isNumeral (s.takeWhile isNumeralChar) = true then
    some (.num ⟨s.takeWhile isNumeralChar, h⟩, s.dropWhile isNumeralChar)
  else none

def readWord (word : String) (v : Value) (s : List Char) : Option (Value × List Char) :=
  if word.toList.isPrefixOf s then some (v, s.drop word.length) else none

/-- The three values that are spelled as a word. -/
def readLiteral (s : List Char) : Option (Value × List Char) :=
  readWord "null" .null s <|> readWord "true" (.bool true) s <|> readWord "false" (.bool false) s

mutual

/-- A value, after any white space. -/
def readValue : Nat → List Char → Option (Value × List Char)
  | 0, _ => none
  | fuel + 1, s =>
      match skipSpace s with
      | [] => none
      | c :: rest =>
          if c = '"' then (readString rest).map fun p => (.str p.1, p.2)
          else if c = '[' then
            if (skipSpace rest).head? = some ']' then some (.arr [], (skipSpace rest).tail)
            else (readItems fuel rest).map fun p => (.arr p.1, p.2)
          else if c = '{' then
            if (skipSpace rest).head? = some '}' then some (.obj [], (skipSpace rest).tail)
            else (readMembers fuel rest).map fun p => (.obj p.1, p.2)
          else if isNumeralChar c then readNumber (c :: rest)
          else readLiteral (c :: rest)

/-- The items of an array and its closing bracket. -/
def readItems : Nat → List Char → Option (List Value × List Char)
  | 0, _ => none
  | fuel + 1, s => do
      let (v, rest) ← readValue fuel s
      match skipSpace rest with
      | ']' :: rest => return ([v], rest)
      | ',' :: rest => (readItems fuel rest).map fun p => (v :: p.1, p.2)
      | _ => none

/-- The members of an object and its closing bracket. -/
def readMembers : Nat → List Char → Option (List (String × Value) × List Char)
  | 0, _ => none
  | fuel + 1, s =>
      match skipSpace s with
      | '"' :: rest => do
          let (name, rest) ← readString rest
          match skipSpace rest with
          | ':' :: rest => do
              let (v, rest) ← readValue fuel rest
              match skipSpace rest with
              | '}' :: rest => return ([(name, v)], rest)
              | ',' :: rest => (readMembers fuel rest).map fun p => ((name, v) :: p.1, p.2)
              | _ => none
          | _ => none
      | _ => none

end

/-- A text that is one value. Every call of a reader consumes a character before the next, so the
length of the text is enough fuel. -/
def parse (text : String) : Option Value :=
  match readValue (text.toList.length + 1) text.toList with
  | some (v, rest) => if skipSpace rest = [] then some v else none
  | none => none

/-! ### Writing -/

/-- What the grammar leaves to a writer. -/
structure Style where
  /-- the spelling of a character in a string -/
  escape : Char → List Char
  /-- the white space before an item at that depth, and before a closing bracket -/
  line : Nat → List Char
  /-- the white space after a colon -/
  colon : List Char
  escape_read : ∀ c rest, readChar (escape c ++ rest) = some (c, rest)
  line_space : ∀ depth, ∀ c ∈ line depth, isSpace c = true
  colon_space : ∀ c ∈ colon, isSpace c = true

namespace Style

variable (style : Style)

def quote (s : String) : List Char := '"' :: (s.toList.flatMap style.escape ++ ['"'])

mutual

def printAt (depth : Nat) : Value → List Char
  | .null => "null".toList
  | .bool true => "true".toList
  | .bool false => "false".toList
  | .num n => n.1
  | .str s => style.quote s
  | .arr [] => ['[', ']']
  | .arr (v :: items) =>
      '[' :: (style.line (depth + 1) ++ (printAt (depth + 1) v ++ printItems depth items))
  | .obj [] => ['{', '}']
  | .obj ((name, v) :: members) =>
      '{' :: (style.line (depth + 1) ++ (style.quote name ++ (':' :: (style.colon ++
        (printAt (depth + 1) v ++ printMembers depth members)))))

/-- The items after the first, and the closing bracket. -/
def printItems (depth : Nat) : List Value → List Char
  | [] => style.line depth ++ [']']
  | v :: items => ',' :: (style.line (depth + 1) ++ (printAt (depth + 1) v ++
      printItems depth items))

/-- The members after the first, and the closing bracket. -/
def printMembers (depth : Nat) : List (String × Value) → List Char
  | [] => style.line depth ++ ['}']
  | (name, v) :: members => ',' :: (style.line (depth + 1) ++ (style.quote name ++ (':' ::
      (style.colon ++ (printAt (depth + 1) v ++ printMembers depth members)))))

end

def print (v : Value) : String := String.ofList (style.printAt 0 v)

end Style

/-! ### What is printed is read back -/

theorem skipSpace_append {gap s : List Char} (h : ∀ c ∈ gap, isSpace c = true) :
    skipSpace (gap ++ s) = skipSpace s := by
  induction gap with
  | nil => rfl
  | cons c gap ih =>
    have hc : isSpace c = true := h c List.mem_cons_self
    rw [List.cons_append, skipSpace, List.dropWhile_cons_of_pos hc]
    exact ih fun c' hc' => h c' (List.mem_cons_of_mem c hc')

theorem skipSpace_cons {c : Char} {s : List Char} (h : isSpace c = false) :
    skipSpace (c :: s) = c :: s := by
  unfold skipSpace
  rw [List.dropWhile_cons_of_neg (by simp [h])]

/-- What may follow a number: the text ends there, or goes on with a character that is in no
number. -/
def Follows (rest : List Char) : Prop := ∀ c ∈ rest.head?, isNumeralChar c = false

theorem follows_cons {c : Char} {s : List Char} (h : isNumeralChar c = false) :
    Follows (c :: s) := by
  rintro c' ⟨⟩
  exact h

theorem isNumeralChar_of_isSpace {c : Char} (h : isSpace c = true) : isNumeralChar c = false := by
  simp only [isSpace, Bool.or_eq_true, decide_eq_true_eq] at h
  rcases h with ((rfl | rfl) | rfl) | rfl <;> decide

theorem follows_append {gap s : List Char} (h : ∀ c ∈ gap, isSpace c = true) (hs : Follows s) :
    Follows (gap ++ s) := by
  cases gap with
  | nil => exact hs
  | cons c gap => exact follows_cons (isNumeralChar_of_isSpace (h c List.mem_cons_self))

/-! #### Numbers -/

theorem Numeral.chars (n : Numeral) : ∀ c ∈ n.1, isNumeralChar c = true := by
  have h := n.2
  unfold isNumeral at h
  simp only [Bool.and_eq_true, List.all_eq_true] at h
  exact h.1

theorem Numeral.exists_cons (n : Numeral) : ∃ c s, n.1 = c :: s ∧ isNumeralChar c = true := by
  cases hn : n.1 with
  | nil =>
    have h := n.2
    rw [hn] at h
    exact absurd h (by decide)
  | cons c s => exact ⟨c, s, rfl, n.chars c (hn ▸ List.mem_cons_self)⟩

theorem readNumber_append {n : Numeral} {rest : List Char} (h : Follows rest) :
    readNumber (n.1 ++ rest) = some (.num n, rest) := by
  have htake : rest.takeWhile isNumeralChar = [] := by
    cases rest with
    | nil => rfl
    | cons c s => rw [List.takeWhile_cons_of_neg (by simp [h c rfl])]
  have hdrop : rest.dropWhile isNumeralChar = rest := by
    cases rest with
    | nil => rfl
    | cons c s => rw [List.dropWhile_cons_of_neg (by simp [h c rfl])]
  have hspelled : (n.1 ++ rest).takeWhile isNumeralChar = n.1 := by
    rw [List.takeWhile_append_of_pos n.chars, htake, List.append_nil]
  have hrest : (n.1 ++ rest).dropWhile isNumeralChar = rest := by
    rw [List.dropWhile_append_of_pos n.chars, hdrop]
  unfold readNumber
  simp only [hspelled, hrest, n.2, ↓reduceDIte]

/-! #### Strings -/

section Strings

variable (style : Style)

theorem Style.escape_ne_nil (c : Char) : style.escape c ≠ [] := by
  intro h
  have hread := style.escape_read c []
  rw [h] at hread
  cases hread

theorem Style.length_le_escaped (cs : List Char) :
    cs.length ≤ (cs.flatMap style.escape).length := by
  induction cs with
  | nil => exact Nat.le_refl 0
  | cons c cs ih =>
    have hc := List.length_pos_iff.mpr (style.escape_ne_nil c)
    rw [List.flatMap_cons, List.length_append, List.length_cons]
    omega

theorem readChars_escaped {rest : List Char} (cs : List Char) {fuel : Nat}
    (h : cs.length < fuel) :
    readChars fuel (cs.flatMap style.escape ++ '"' :: rest) = some (cs, rest) := by
  induction cs generalizing fuel with
  | nil =>
    obtain ⟨n, rfl⟩ := Nat.exists_eq_add_of_lt h
    rfl
  | cons c cs ih =>
    cases fuel with
    | zero => cases h
    | succ fuel =>
      rw [List.flatMap_cons, List.append_assoc]
      unfold readChars
      rw [style.escape_read]
      simp only [ih (Nat.lt_of_succ_lt_succ h), Option.map_some]

theorem readString_quoted (s : String) (rest : List Char) :
    readString (s.toList.flatMap style.escape ++ '"' :: rest) = some (s, rest) := by
  unfold readString
  have hfuel : s.toList.length < (s.toList.flatMap style.escape ++ '"' :: rest).length + 1 := by
    have := style.length_le_escaped s.toList
    rw [List.length_append]
    omega
  rw [readChars_escaped style s.toList hfuel, Option.map_some, String.ofList_toList]

end Strings

/-! #### Values -/

section Values

variable (style : Style)

/-- A value begins with a character that is neither white space nor a closing bracket. -/
theorem Style.printAt_head (depth : Nat) (v : Value) :
    ∃ c s, style.printAt depth v = c :: s ∧ isSpace c = false ∧ c ≠ ']' := by
  match v with
  | .null | .bool true | .bool false | .str _ | .arr [] | .arr (_ :: _) | .obj []
  | .obj (_ :: _) =>
    unfold printAt
    exact ⟨_, _, rfl, by decide, by decide⟩
  | .num n =>
    obtain ⟨c, s, hn, hc⟩ := n.exists_cons
    refine ⟨c, s, by unfold printAt; exact hn, ?_, ?_⟩
    · cases hspace : isSpace c with
      | false => rfl
      | true => rw [isNumeralChar_of_isSpace hspace] at hc; cases hc
    · rintro rfl
      exact absurd hc (by decide)

theorem Style.follows_items (depth : Nat) (items : List Value) (rest : List Char) :
    Follows (style.printItems depth items ++ rest) := by
  cases items with
  | nil =>
    unfold printItems
    rw [List.append_assoc]
    exact follows_append (style.line_space depth) (follows_cons (by decide))
  | cons v items =>
    unfold printItems
    exact follows_cons (by decide)

theorem Style.follows_members (depth : Nat) (members : List (String × Value))
    (rest : List Char) : Follows (style.printMembers depth members ++ rest) := by
  cases members with
  | nil =>
    unfold printMembers
    rw [List.append_assoc]
    exact follows_append (style.line_space depth) (follows_cons (by decide))
  | cons v members =>
    unfold printMembers
    exact follows_cons (by decide)

/-- White space before a value is skipped. -/
theorem readValue_skip {gap s : List Char} (h : ∀ c ∈ gap, isSpace c = true) (fuel : Nat) :
    readValue fuel (gap ++ s) = readValue fuel s := by
  cases fuel with
  | zero => unfold readValue; rfl
  | succ fuel => unfold readValue; rw [skipSpace_append h]

/-- A value is read back, and so is what follows it. -/
def ReadsBack (depth : Nat) (v : Value) : Prop :=
  ∀ fuel rest, (style.printAt depth v).length ≤ fuel → Follows rest →
    readValue fuel (style.printAt depth v ++ rest) = some (v, rest)

/-- One turn of a loop over items or members reads a value that is read back. -/
theorem ReadsBack.turn {depth : Nat} {v : Value} (h : ReadsBack style depth v)
    {gap after : List Char} (hgap : ∀ c ∈ gap, isSpace c = true) (hafter : Follows after)
    {fuel : Nat} (hfuel : (style.printAt depth v).length ≤ fuel) :
    readValue fuel (gap ++ (style.printAt depth v ++ after)) = some (v, after) := by
  rw [readValue_skip hgap]
  exact h fuel after hfuel hafter

/-- An array that has been opened does not end before its first item. -/
theorem Style.head_items (depth : Nat) (v : Value) {gap : List Char}
    (hgap : ∀ c ∈ gap, isSpace c = true) (after : List Char) :
    (skipSpace (gap ++ (style.printAt depth v ++ after))).head? ≠ some ']' := by
  obtain ⟨c, s, hprint, hspace, hne⟩ := style.printAt_head depth v
  rw [skipSpace_append hgap, hprint, List.cons_append, skipSpace_cons hspace]
  intro h
  exact hne (Option.some.inj h)

/-- A closing bracket after white space. -/
theorem Style.skip_line (depth : Nat) {c : Char} (hc : isSpace c = false) (rest : List Char) :
    skipSpace (style.line depth ++ [c] ++ rest) = c :: rest := by
  rw [List.append_assoc, skipSpace_append (style.line_space depth)]
  exact skipSpace_cons hc

mutual

theorem readsBack (depth : Nat) : ∀ v : Value, ReadsBack style depth v
  | v, 0, rest, hfuel, hrest => by
    obtain ⟨c, s, hprint, -⟩ := style.printAt_head depth v
    rw [hprint] at hfuel
    cases hfuel
  | .null, fuel + 1, rest, hfuel, hrest => by
    unfold Style.printAt readValue
    rfl
  | .bool true, fuel + 1, rest, hfuel, hrest => by
    unfold Style.printAt readValue
    rfl
  | .bool false, fuel + 1, rest, hfuel, hrest => by
    unfold Style.printAt readValue
    rfl
  | .num n, fuel + 1, rest, hfuel, hrest => by
    obtain ⟨c, s, hn, hc⟩ := n.exists_cons
    have hspace : isSpace c = false := by
      cases hspace : isSpace c with
      | false => rfl
      | true => rw [isNumeralChar_of_isSpace hspace] at hc; cases hc
    have hquote : c ≠ '"' := by rintro rfl; exact absurd hc (by decide)
    have hopen : c ≠ '[' := by rintro rfl; exact absurd hc (by decide)
    have hbrace : c ≠ '{' := by rintro rfl; exact absurd hc (by decide)
    unfold Style.printAt readValue
    rw [hn, List.cons_append, skipSpace_cons hspace]
    simp only [hquote, hopen, hbrace, hc, ↓reduceIte]
    rw [← List.cons_append, ← hn]
    exact readNumber_append hrest
  | .str s, fuel + 1, rest, hfuel, hrest => by
    unfold Style.printAt readValue Style.quote
    rw [List.cons_append, skipSpace_cons (by decide), List.append_assoc]
    simp only [↓reduceIte, List.singleton_append, readString_quoted, Option.map_some]
  | .arr [], fuel + 1, rest, hfuel, hrest => by
    unfold Style.printAt readValue
    rfl
  | .arr (v :: items), fuel + 1, rest, hfuel, hrest => by
    have hitems := readsBack_items depth items v (readsBack (depth + 1) v) fuel rest (by
      unfold Style.printAt at hfuel
      simp only [List.length_cons, List.length_append] at hfuel
      omega)
    have hopen := style.head_items (depth + 1) v (style.line_space (depth + 1))
      (style.printItems depth items ++ rest)
    unfold Style.printAt readValue
    rw [List.cons_append, skipSpace_cons (by decide), List.append_assoc, List.append_assoc]
    simp only [Char.reduceEq, ↓reduceIte, hopen, hitems, Option.map_some]
  | .obj [], fuel + 1, rest, hfuel, hrest => by
    unfold Style.printAt readValue
    rfl
  | .obj ((name, v) :: members), fuel + 1, rest, hfuel, hrest => by
    have hmembers := readsBack_members depth members name v (readsBack (depth + 1) v) fuel rest (by
      unfold Style.printAt at hfuel
      simp only [List.length_cons, List.length_append] at hfuel
      omega)
    unfold Style.printAt readValue
    rw [List.cons_append, skipSpace_cons (by decide)]
    simp only [List.append_assoc, List.cons_append, Char.reduceEq, ↓reduceIte]
    rw [if_neg, hmembers, Option.map_some]
    rw [skipSpace_append (style.line_space _), Style.quote, List.cons_append,
      skipSpace_cons (by decide)]
    simp

/-- The first item is read back, and the others by induction. -/
theorem readsBack_items (depth : Nat) : ∀ (items : List Value) (v : Value),
    ReadsBack style (depth + 1) v → ∀ fuel rest,
      (style.printAt (depth + 1) v).length + (style.printItems depth items).length ≤ fuel →
      readItems fuel (style.line (depth + 1) ++ (style.printAt (depth + 1) v ++
        (style.printItems depth items ++ rest))) = some (v :: items, rest)
  | items, v, hv, 0, rest, hfuel => by
    obtain ⟨c, s, hprint, -⟩ := style.printAt_head (depth + 1) v
    rw [hprint, List.length_cons] at hfuel
    omega
  | [], v, hv, fuel + 1, rest, hfuel => by
    unfold Style.printItems at hfuel
    simp only [List.length_append, List.length_singleton] at hfuel
    unfold readItems
    rw [hv.turn style (style.line_space _) (style.follows_items depth [] rest) (by omega)]
    unfold Style.printItems
    simp only [Option.bind_eq_bind, Option.bind_some,
      style.skip_line depth (by decide : isSpace ']' = false)]
    rfl
  | v' :: items, v, hv, fuel + 1, rest, hfuel => by
    unfold Style.printItems at hfuel
    simp only [List.length_append, List.length_cons] at hfuel
    have hrest := readsBack_items depth items v' (readsBack (depth + 1) v') fuel rest (by omega)
    unfold readItems
    rw [hv.turn style (style.line_space _) (style.follows_items depth _ rest) (by omega)]
    unfold Style.printItems
    simp only [Option.bind_eq_bind, Option.bind_some, List.cons_append, List.append_assoc,
      skipSpace_cons (by decide : isSpace ',' = false), hrest, Option.map_some]

theorem readsBack_members (depth : Nat) : ∀ (members : List (String × Value)) (name : String)
    (v : Value), ReadsBack style (depth + 1) v → ∀ fuel rest,
      (style.printAt (depth + 1) v).length + (style.printMembers depth members).length ≤ fuel →
      readMembers fuel (style.line (depth + 1) ++ (style.quote name ++ (':' :: (style.colon ++
        (style.printAt (depth + 1) v ++ (style.printMembers depth members ++ rest)))))) =
        some ((name, v) :: members, rest)
  | members, name, v, hv, 0, rest, hfuel => by
    obtain ⟨c, s, hprint, -⟩ := style.printAt_head (depth + 1) v
    rw [hprint, List.length_cons] at hfuel
    omega
  | [], name, v, hv, fuel + 1, rest, hfuel => by
    unfold Style.printMembers at hfuel
    simp only [List.length_append, List.length_singleton] at hfuel
    unfold readMembers Style.quote
    rw [skipSpace_append (style.line_space _), List.cons_append, skipSpace_cons (by decide)]
    simp only [List.append_assoc, List.singleton_append, readString_quoted, Option.bind_eq_bind,
      Option.bind_some, skipSpace_cons (by decide : isSpace ':' = false)]
    rw [hv.turn style style.colon_space (style.follows_members depth [] rest) (by omega)]
    unfold Style.printMembers
    simp only [Option.bind_some, style.skip_line depth (by decide : isSpace '}' = false)]
    rfl
  | (name', v') :: members, name, v, hv, fuel + 1, rest, hfuel => by
    unfold Style.printMembers at hfuel
    simp only [List.length_append, List.length_cons] at hfuel
    have hrest := readsBack_members depth members name' v' (readsBack (depth + 1) v') fuel rest
      (by omega)
    unfold readMembers
    rw [skipSpace_append (style.line_space _), Style.quote, List.cons_append,
      skipSpace_cons (by decide)]
    simp only [List.append_assoc, List.singleton_append, readString_quoted, Option.bind_eq_bind,
      Option.bind_some, skipSpace_cons (by decide : isSpace ':' = false)]
    rw [hv.turn style style.colon_space (style.follows_members depth _ rest) (by omega)]
    unfold Style.printMembers
    simp only [Option.bind_some, List.cons_append, List.append_assoc,
      skipSpace_cons (by decide : isSpace ',' = false), hrest, Option.map_some]

end

/-- Every text that a writer prints is read back as the value it printed. -/
theorem parse_print (v : Value) : parse (style.print v) = some v := by
  have hread := readsBack style 0 v ((style.printAt 0 v).length + 1) [] (Nat.le_succ _)
    (by rintro c ⟨⟩)
  rw [List.append_nil] at hread
  unfold parse Style.print
  rw [String.toList_ofList, hread]
  rfl

end Values

/-! ### Two writers -/

def hexDigit (upper : Bool) (n : Nat) : Char :=
  Char.ofNat (n + if n < 10 then 48 else if upper then 55 else 87)

def hex4 (upper : Bool) (n : Nat) : List Char :=
  [hexDigit upper (n / 4096), hexDigit upper (n / 256 % 16), hexDigit upper (n / 16 % 16),
    hexDigit upper (n % 16)]

/-- The escape of a character by its number, or by those of its surrogate pair. -/
def unicodeEscape (upper : Bool) (c : Char) : List Char :=
  if c.toNat < 0x10000 then '\\' :: 'u' :: hex4 upper c.toNat
  else
    '\\' :: 'u' :: (hex4 upper (0xD800 + (c.toNat - 0x10000) / 0x400) ++
      '\\' :: 'u' :: hex4 upper (0xDC00 + (c.toNat - 0x10000) % 0x400))

/-- The letter of the control characters that have an escape of their own, and the backslash. -/
def controlLetter (c : Char) : Option Char :=
  if c = '\x08' then some 'b'
  else if c = '\t' then some 't'
  else if c = '\n' then some 'n'
  else if c = '\x0c' then some 'f'
  else if c = '\r' then some 'r'
  else if c = '\\' then some '\\'
  else none

/-- `JSON.stringify` of JavaScript: the text stays as it is but for quotation marks, backslashes and
control characters. -/
def stringifyEscape (c : Char) : List Char :=
  match controlLetter c with
  | some letter => ['\\', letter]
  | none =>
      if c = '"' then ['\\', '"']
      else if c.toNat < 0x20 then unicodeEscape false c
      else [c]

/-- The printable characters of ASCII that .NET escapes for the sake of HTML, and the two that JSON
has escaped. -/
def dotnetEscaped : List Nat := [0x22, 0x26, 0x27, 0x2B, 0x3C, 0x3E, 0x5C, 0x60]

/-- `JsonSerializer.Serialize` of .NET: nothing but printable ASCII stays as it is. -/
def dotnetEscape (c : Char) : List Char :=
  match controlLetter c with
  | some letter => ['\\', letter]
  | none =>
      if 0x20 ≤ c.toNat && c.toNat < 0x7F && !dotnetEscaped.contains c.toNat then [c]
      else unicodeEscape true c

theorem hexValue_hexDigit : ∀ upper : Bool, ∀ n < 16, hexValue (hexDigit upper n) = some n := by
  decide

theorem readHex4_hex4 {upper : Bool} {n : Nat} (h : n < 0x10000) (rest : List Char) :
    readHex4 (hex4 upper n ++ rest) = some (n, rest) := by
  have ha := hexValue_hexDigit upper (n / 4096) (by omega)
  have hb := hexValue_hexDigit upper (n / 256 % 16) (by omega)
  have hc := hexValue_hexDigit upper (n / 16 % 16) (by omega)
  have hd := hexValue_hexDigit upper (n % 16) (by omega)
  have hn : ((n / 4096 * 16 + n / 256 % 16) * 16 + n / 16 % 16) * 16 + n % 16 = n := by omega
  simp only [hex4, List.cons_append, List.nil_append, readHex4, Option.bind_eq_bind, ha, hb, hc, hd,
    Option.bind_some, hn]
  rfl

/-- The escape of a character of the basic plane. -/
theorem readEscape_basic {upper : Bool} {n : Nat} (h : n < 0x10000)
    (hsingle : n < 0xD800 ∨ 0xDFFF < n) (rest : List Char) :
    readEscape ('u' :: (hex4 upper n ++ rest)) = some (Char.ofNat n, rest) := by
  have hcond : (n < 0xD800 || 0xDFFF < n : Bool) = true := by simpa using hsingle
  simp only [readEscape, readHex4_hex4 h, Option.bind_eq_bind, Option.bind_some, hcond, ↓reduceIte]
  rfl

/-- The two escapes of a surrogate pair. -/
theorem readEscape_pair {upper : Bool} {high low : Nat} (hhigh : 0xD800 ≤ high)
    (hhigh' : high < 0xDC00) (hlow : 0xDC00 ≤ low) (hlow' : low < 0xE000) (rest : List Char) :
    readEscape ('u' :: (hex4 upper high ++ ('\\' :: 'u' :: (hex4 upper low ++ rest)))) =
      some (Char.ofNat (0x10000 + (high - 0xD800) * 0x400 + (low - 0xDC00)), rest) := by
  have hcond : (high < 0xD800 || 0xDFFF < high : Bool) = false := by simp; omega
  have hcond' : (0xDC00 ≤ low && low ≤ 0xDFFF : Bool) = true := by simp; omega
  simp only [readEscape, readHex4_hex4 (show high < 0x10000 by omega), Option.bind_eq_bind,
    Option.bind_some, hcond, Bool.false_eq_true, hhigh', readLowSurrogate,
    readHex4_hex4 (show low < 0x10000 by omega), hcond', ↓reduceIte]
  rfl

/-- Every character has a number that is no surrogate. -/
theorem char_number (c : Char) : c.toNat < 0xD800 ∨ 0xDFFF < c.toNat ∧ c.toNat < 0x110000 :=
  c.valid

theorem readChar_unicodeEscape (upper : Bool) (c : Char) (rest : List Char) :
    readChar (unicodeEscape upper c ++ rest) = some (c, rest) := by
  have hescape : ∀ s, readChar ('\\' :: s) = readEscape s := fun _ => rfl
  have hvalid := char_number c
  unfold unicodeEscape
  split
  · next hbasic =>
    rw [List.cons_append, List.cons_append, hescape, readEscape_basic hbasic (by omega),
      Char.ofNat_toNat]
  · next hastral =>
    generalize hhigh : 0xD800 + (c.toNat - 0x10000) / 0x400 = high
    generalize hlow : 0xDC00 + (c.toNat - 0x10000) % 0x400 = low
    have hnumber : 0x10000 + (high - 0xD800) * 0x400 + (low - 0xDC00) = c.toNat := by omega
    rw [List.cons_append, List.cons_append, hescape, List.append_assoc, List.cons_append,
      List.cons_append, readEscape_pair (by omega) (by omega) (by omega) (by omega), hnumber,
      Char.ofNat_toNat]

theorem readChar_controlLetter {c letter : Char} (h : controlLetter c = some letter)
    (rest : List Char) : readChar (['\\', letter] ++ rest) = some (c, rest) := by
  unfold controlLetter at h
  repeat' split at h
  all_goals cases h
  all_goals subst_vars
  all_goals rfl

/-- A character that stands for itself. -/
theorem readChar_plain {c : Char} (hcontrol : 0x20 ≤ c.toNat) (hquote : c ≠ '"')
    (hbackslash : c ≠ '\\') (rest : List Char) : readChar ([c] ++ rest) = some (c, rest) := by
  have hnot : ¬ (c = '"' || c.toNat < 0x20 : Bool) = true := by simpa [hquote] using hcontrol
  show (if (c = '"' || c.toNat < 0x20 : Bool) = true then _ else _) = _
  rw [if_neg hnot, if_neg hbackslash]
  rfl

theorem ne_backslash_of_controlLetter {c : Char} (h : controlLetter c = none) : c ≠ '\\' := by
  rintro rfl
  cases h

/-- `JSON.stringify`, which leaves out all white space. -/
def stringify : Style where
  escape := stringifyEscape
  line _ := []
  colon := []
  escape_read c rest := by
    unfold stringifyEscape
    split
    · next letter hletter => exact readChar_controlLetter hletter rest
    · next hletter =>
      split
      · next hquote => subst hquote; rfl
      · next hquote =>
        split
        · exact readChar_unicodeEscape false c rest
        · next hcontrol =>
          exact readChar_plain (by omega) hquote (ne_backslash_of_controlLetter hletter) rest
  line_space _ _ h := by cases h
  colon_space _ h := by cases h

/-- `JsonSerializer.Serialize` without options, or indented: two blanks for every level, and the line
ends of Windows. -/
def dotnet (writeIndented : Bool) : Style where
  escape := dotnetEscape
  line depth := if writeIndented then '\r' :: '\n' :: List.replicate (2 * depth) ' ' else []
  colon := if writeIndented then [' '] else []
  escape_read c rest := by
    unfold dotnetEscape
    split
    · next letter hletter => exact readChar_controlLetter hletter rest
    · next hletter =>
      split
      · next hplain =>
        simp only [Bool.and_eq_true, decide_eq_true_eq] at hplain
        refine readChar_plain hplain.1.1 ?_ (ne_backslash_of_controlLetter hletter) rest
        rintro rfl
        exact absurd hplain.2 (by decide)
      · exact readChar_unicodeEscape true c rest
  line_space depth c h := by
    cases writeIndented with
    | false => cases h
    | true =>
      simp only [↓reduceIte, List.mem_cons, List.mem_replicate] at h
      rcases h with rfl | rfl | ⟨-, rfl⟩ <;> rfl
  colon_space c h := by
    cases writeIndented with
    | false => cases h
    | true =>
      rw [List.mem_singleton.mp h]
      rfl

end TroofAI.Json
