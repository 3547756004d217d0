import Flexi.Common.Json
import Mathlib.Data.List.Infix
import Mathlib.Tactic

/-!
# JSON text

`JSON.stringify` with and without indentation, and `JSON.parse`. How a finite number is
written and read is a parameter. A text of this development has no lone surrogates, so the
reader refuses an escape that is one.
-/

namespace Flexi.JsonText

/-- `Number::toString` on finite numbers, and the value of a number literal. -/
structure NumberText where
  write : ℚ → List Char
  read : List Char → Option JsNumber

/-! ### Writing -/

def hexDigit (n : ℕ) : Char := if n < 10 then Char.ofNat (48 + n) else Char.ofNat (87 + n)

def escapeChar (c : Char) : List Char :=
  if c = '"' then ['\\', '"']
  else if c = '\\' then ['\\', '\\']
  else if c.toNat = 8 then ['\\', 'b']
  else if c.toNat = 9 then ['\\', 't']
  else if c.toNat = 10 then ['\\', 'n']
  else if c.toNat = 12 then ['\\', 'f']
  else if c.toNat = 13 then ['\\', 'r']
  else if c.toNat < 32 then ['\\', 'u', '0', '0', hexDigit (c.toNat / 16), hexDigit (c.toNat % 16)]
  else [c]

def quote (s : String) : List Char := '"' :: (s.toList.flatMap escapeChar ++ ['"'])

/-- `indent` is the third argument of `JSON.stringify`; with 0 everything is on one line. -/
def lineBreak (indent depth : ℕ) : List Char :=
  if indent = 0 then [] else '\n' :: List.replicate (indent * depth) ' '

def colon (indent : ℕ) : List Char := if indent = 0 then [':'] else [':', ' ']

section Write

variable (nt : NumberText) (indent : ℕ)

mutual

/-- `JSON.stringify`; an infinity is written `null`. -/
def writeValue (depth : ℕ) : Json → List Char
  | .null => ['n', 'u', 'l', 'l']
  | .bool true => ['t', 'r', 'u', 'e']
  | .bool false => ['f', 'a', 'l', 's', 'e']
  | .num (.finite q) => nt.write q
  | .num (.infinite _) => ['n', 'u', 'l', 'l']
  | .str s => quote s
  | .arr [] => ['[', ']']
  | .arr (x :: xs) =>
    '[' :: (lineBreak indent (depth + 1) ++ (writeValue (depth + 1) x ++ writeItems depth xs))
  | .obj [] => ['\x7b', '\x7d']
  | .obj (kv :: ms) => '\x7b' :: (writeMember depth kv ++ writeMembers depth ms)

/-- What follows an item of an array. -/
def writeItems (depth : ℕ) : List Json → List Char
  | [] => lineBreak indent depth ++ [']']
  | x :: xs =>
    ',' :: (lineBreak indent (depth + 1) ++ (writeValue (depth + 1) x ++ writeItems depth xs))

def writeMember (depth : ℕ) : String × Json → List Char
  | (key, v) =>
    lineBreak indent (depth + 1) ++ (quote key ++ (colon indent ++ writeValue (depth + 1) v))

/-- What follows a member of an object. -/
def writeMembers (depth : ℕ) : List (String × Json) → List Char
  | [] => lineBreak indent depth ++ ['\x7d']
  | kv :: ms => ',' :: (writeMember depth kv ++ writeMembers depth ms)

end

end Write

/-! ### Reading -/

def isJsonSpace (c : Char) : Bool := c == ' ' || c == '\n' || c == '\r' || c == '\t'

def skipSpace (cs : List Char) : List Char := cs.dropWhile isJsonSpace

def hexValue (c : Char) : Option ℕ :=
  if c.isDigit then some (c.toNat - 48)
  else if 'a' ≤ c ∧ c ≤ 'f' then some (c.toNat - 87)
  else if 'A' ≤ c ∧ c ≤ 'F' then some (c.toNat - 55)
  else none

/-- Four hexadecimal digits and the text behind them. -/
def readUnit : List Char → Option (ℕ × List Char)
  | a :: b :: c :: d :: cs => do
    let a ← hexValue a
    let b ← hexValue b
    let c ← hexValue c
    let d ← hexValue d
    pure (4096 * a + 256 * b + 16 * c + d, cs)
  | _ => none

/-- The second half of a surrogate pair. -/
def readLowSurrogate : List Char → Option (ℕ × List Char)
  | '\\' :: 'u' :: cs => (readUnit cs).filter fun r => 0xDC00 ≤ r.1 ∧ r.1 < 0xE000
  | _ => none

/-- The character an escape stands for, behind its backslash. -/
def unescape : List Char → Option (Char × List Char)
  | '"' :: cs => some ('"', cs)
  | '\\' :: cs => some ('\\', cs)
  | '/' :: cs => some ('/', cs)
  | 'b' :: cs => some (Char.ofNat 8, cs)
  | 't' :: cs => some (Char.ofNat 9, cs)
  | 'n' :: cs => some (Char.ofNat 10, cs)
  | 'f' :: cs => some (Char.ofNat 12, cs)
  | 'r' :: cs => some (Char.ofNat 13, cs)
  | 'u' :: cs => (readUnit cs).bind fun r =>
    if r.1 < 0xD800 ∨ 0xE000 ≤ r.1 then some (Char.ofNat r.1, r.2)
    else if r.1 < 0xDC00 then (readLowSurrogate r.2).map fun low =>
      (Char.ofNat (0x10000 + 1024 * (r.1 - 0xD800) + (low.1 - 0xDC00)), low.2)
    else none
  | _ => none

/-- The text up to the closing quote; the first argument bounds its length. -/
def readString : ℕ → List Char → Option (List Char × List Char)
  | 0, _ => none
  | _ + 1, [] => none
  | n + 1, c :: cs =>
    if c = '"' then some ([], cs)
    else if c = '\\' then
      (unescape cs).bind fun r => (readString n r.2).map fun p => (r.1 :: p.1, p.2)
    else if c.toNat < 32 then none
    else (readString n cs).map fun p => (c :: p.1, p.2)

/-- A key that is there already keeps its place. -/
def assignMember (ms : List (String × Json)) (kv : String × Json) : List (String × Json) :=
  if ms.any fun m => m.1 == kv.1 then ms.map fun m => if m.1 == kv.1 then kv else m
  else ms ++ [kv]

def isNumberChar (c : Char) : Bool :=
  c.isDigit || c == '-' || c == '+' || c == '.' || c == 'e' || c == 'E'

def readWord (word : List Char) (v : Json) (cs : List Char) : Option (Json × List Char) :=
  if word <+: cs then some (v, cs.drop word.length) else none

/-- A key with its colon. -/
def readKey : List Char → Option (String × List Char)
  | [] => none
  | c :: cs =>
    if c = '"' then (readString (cs.length + 1) cs).bind fun p =>
      if (skipSpace p.2).head? = some ':' then some (String.ofList p.1, (skipSpace p.2).tail)
      else none
    else none

section Read

variable (nt : NumberText)

def readNumber (cs : List Char) : Option (Json × List Char) :=
  if cs.takeWhile isNumberChar = [] then none
  else (nt.read (cs.takeWhile isNumberChar)).map fun x => (.num x, cs.dropWhile isNumberChar)

mutual

/-- A value and the text behind it; the first argument bounds how deep and how long it is. -/
def readValue : ℕ → List Char → Option (Json × List Char)
  | 0, _ => none
  | n + 1, cs =>
    match skipSpace cs with
    | [] => none
    | c :: cs =>
      if c = '"' then (readString (cs.length + 1) cs).map fun p => (.str (String.ofList p.1), p.2)
      else if c = '[' then
        if (skipSpace cs).head? = some ']' then some (.arr [], (skipSpace cs).tail)
        else (readItems n cs).map fun p => (.arr p.1, p.2)
      else if c = '\x7b' then
        if (skipSpace cs).head? = some '\x7d' then some (.obj [], (skipSpace cs).tail)
        else (readMembers n cs).map fun p => (.obj (p.1.foldl assignMember []), p.2)
      else if c = 'n' then readWord ['u', 'l', 'l'] .null cs
      else if c = 't' then readWord ['r', 'u', 'e'] (.bool true) cs
      else if c = 'f' then readWord ['a', 'l', 's', 'e'] (.bool false) cs
      else readNumber nt (c :: cs)

def readItems : ℕ → List Char → Option (List Json × List Char)
  | 0, _ => none
  | n + 1, cs => (readValue n cs).bind fun p =>
    match skipSpace p.2 with
    | [] => none
    | c :: cs =>
      if c = ',' then (readItems n cs).map fun q => (p.1 :: q.1, q.2)
      else if c = ']' then some ([p.1], cs)
      else none

def readMembers : ℕ → List Char → Option (List (String × Json) × List Char)
  | 0, _ => none
  | n + 1, cs => (readKey (skipSpace cs)).bind fun key => (readValue n key.2).bind fun p =>
    match skipSpace p.2 with
    | [] => none
    | c :: cs =>
      if c = ',' then (readMembers n cs).map fun q => ((key.1, p.1) :: q.1, q.2)
      else if c = '\x7d' then some ([(key.1, p.1)], cs)
      else none

end

/-- `JSON.parse`. -/
def parse (text : String) : Option Json :=
  (readValue nt (2 * text.toList.length + 2) text.toList).bind fun p =>
    if skipSpace p.2 = [] then some p.1 else none

end Read

/-- `JSON.stringify(value, null, indent)` -/
def stringify (nt : NumberText) (indent : ℕ) (v : Json) : String :=
  String.ofList (writeValue nt indent 0 v)

/-! ### Reading what was written -/

section Strings

variable {n : ℕ} {cs rest : List Char}

theorem readUnit_control {k : ℕ} (hk : k < 32) :
    readUnit ('0' :: '0' :: hexDigit (k / 16) :: hexDigit (k % 16) :: cs) = some (k, cs) := by
  have hdigits : ∀ j < 32, (hexValue (hexDigit (j / 16))).bind (fun a =>
      (hexValue (hexDigit (j % 16))).bind fun b => some (16 * a + b)) = some j := by decide
  have hzero : hexValue '0' = some 0 := by decide
  have hk' := hdigits k hk
  obtain ⟨a, ha, hk'⟩ := Option.bind_eq_some_iff.mp hk'
  obtain ⟨b, hb, hk'⟩ := Option.bind_eq_some_iff.mp hk'
  have hsum : 16 * a + b = k := Option.some.inj hk'
  simp only [readUnit, hzero, ha, hb, Option.bind_eq_bind, Option.bind_some, Option.pure_def,
    Nat.mul_zero, Nat.zero_add, hsum]

theorem readString_escape {c : Char} {es : List Char} (h : unescape es = some (c, cs)) :
    readString (n + 1) ('\\' :: es) = (readString n cs).map fun p => (c :: p.1, p.2) := by
  have hquote : ¬('\\' = '"') := by decide
  rw [readString, if_neg hquote, if_pos rfl, h]
  rfl

theorem readString_escapeChar (c : Char) :
    readString (n + 1) (escapeChar c ++ cs) = (readString n cs).map fun p => (c :: p.1, p.2) := by
  have hof {k : ℕ} (hk : c.toNat = k) : Char.ofNat k = c := by rw [← hk, Char.ofNat_toNat]
  unfold escapeChar
  split
  · rename_i hc
    rw [hc]
    exact readString_escape rfl
  split
  · rename_i hc
    rw [hc]
    exact readString_escape rfl
  split
  · rename_i hc
    rw [← hof hc]
    exact readString_escape rfl
  split
  · rename_i hc
    rw [← hof hc]
    exact readString_escape rfl
  split
  · rename_i hc
    rw [← hof hc]
    exact readString_escape rfl
  split
  · rename_i hc
    rw [← hof hc]
    exact readString_escape rfl
  split
  · rename_i hc
    rw [← hof hc]
    exact readString_escape rfl
  split
  · rename_i hc
    refine readString_escape ?_
    have hlow : c.toNat < 0xD800 ∨ 0xE000 ≤ c.toNat := .inl (by omega)
    show unescape ('u' :: '0' :: '0' :: hexDigit (c.toNat / 16) :: hexDigit (c.toNat % 16) :: cs) =
      some (c, cs)
    rw [unescape, readUnit_control hc, Option.bind_some, if_pos hlow, Char.ofNat_toNat]
  · rename_i hquote hbackslash _ _ _ _ _ hcontrol
    rw [List.cons_append, List.nil_append, readString, if_neg hquote, if_neg hbackslash,
      if_neg hcontrol]

theorem readString_quote (s : List Char) (hn : s.length < n) :
    readString n (s.flatMap escapeChar ++ '"' :: rest) = some (s, rest) := by
  induction s generalizing n with
  | nil =>
    cases n with
    | zero => exact absurd hn (Nat.not_lt_zero _)
    | succ n => rfl
  | cons c s ih =>
    cases n with
    | zero => exact absurd hn (Nat.not_lt_zero _)
    | succ n =>
      rw [List.flatMap_cons, List.append_assoc, readString_escapeChar,
        ih (Nat.lt_of_succ_lt_succ hn)]
      rfl

end Strings

/-- The number `q` comes back from its text. -/
structure NumberText.Reads (nt : NumberText) (q : ℚ) : Prop where
  nonempty : nt.write q ≠ []
  chars : ∀ c ∈ nt.write q, isNumberChar c = true
  read : nt.read (nt.write q) = some (.finite q)

/-- A value of finite numbers that are read back, whose objects name each key once. -/
inductive Stable (nt : NumberText) : Json → Prop
  | null : Stable nt .null
  | bool (b : Bool) : Stable nt (.bool b)
  | num (q : ℚ) (h : nt.Reads q) : Stable nt (.num (.finite q))
  | str (s : String) : Stable nt (.str s)
  | arr (xs : List Json) (h : ∀ x ∈ xs, Stable nt x) : Stable nt (.arr xs)
  | obj (ms : List (String × Json)) (keys : (ms.map Prod.fst).Nodup)
      (h : ∀ kv ∈ ms, Stable nt kv.2) : Stable nt (.obj ms)

section Values

variable {nt : NumberText} {indent : ℕ} {rest : List Char}

/-- The text goes on with no character of a number. -/
def Ends (rest : List Char) : Prop := rest.head?.any isNumberChar = false

theorem skipSpace_cons {c : Char} (h : isJsonSpace c = false) (cs : List Char) :
    skipSpace (c :: cs) = c :: cs := by
  rw [skipSpace, List.dropWhile_cons, h]
  rfl

theorem skipSpace_lineBreak (depth : ℕ) (cs : List Char) :
    skipSpace (lineBreak indent depth ++ cs) = skipSpace cs := by
  unfold lineBreak
  split
  · rfl
  · have hspaces (k : ℕ) : skipSpace (List.replicate k ' ' ++ cs) = skipSpace cs := by
      induction k with
      | zero => rfl
      | succ k ih => exact ih
    exact hspaces (indent * depth)

theorem readNumber_write {q : ℚ} (h : nt.Reads q) (hrest : Ends rest) :
    readNumber nt (nt.write q ++ rest) = some (.num (.finite q), rest) := by
  have hhead : rest.takeWhile isNumberChar = [] ∧ rest.dropWhile isNumberChar = rest := by
    cases rest with
    | nil => exact ⟨rfl, rfl⟩
    | cons c cs =>
      have hc : isNumberChar c = false := hrest
      rw [List.takeWhile_cons, List.dropWhile_cons, hc]
      exact ⟨rfl, rfl⟩
  have htake : (nt.write q ++ rest).takeWhile isNumberChar = nt.write q := by
    rw [List.takeWhile_append_of_pos h.chars, hhead.1, List.append_nil]
  have hdrop : (nt.write q ++ rest).dropWhile isNumberChar = rest := by
    rw [List.dropWhile_append_of_pos h.chars, hhead.2]
  rw [readNumber, htake, hdrop, if_neg h.nonempty, h.read]
  rfl

theorem readWord_append (word : List Char) (v : Json) :
    readWord word v (word ++ rest) = some (v, rest) := by
  rw [readWord, if_pos (List.prefix_append word rest), List.drop_left]

theorem assignMembers_nodup (ms own : List (String × Json))
    (h : ((own ++ ms).map Prod.fst).Nodup) : ms.foldl assignMember own = own ++ ms := by
  induction ms generalizing own with
  | nil => rw [List.foldl_nil, List.append_nil]
  | cons kv ms ih =>
    have hnew : (own.any fun m => m.1 == kv.1) = false := by
      refine List.any_eq_false.mpr fun m hm heq => ?_
      rw [List.map_append, List.nodup_append] at h
      exact h.2.2 m.1 (List.mem_map_of_mem hm) kv.1 (List.mem_map_of_mem List.mem_cons_self)
        (beq_iff_eq.mp heq)
    have hassign : assignMember own kv = own ++ [kv] := by
      rw [assignMember, hnew]
      rfl
    rw [List.foldl_cons, hassign, ih _ (by simpa using h), List.append_assoc]
    rfl

theorem numberChar_ne {c d : Char} (hc : isNumberChar c = true) (hd : isNumberChar d = false) :
    c ≠ d := by
  rintro rfl
  rw [hc] at hd
  cases hd

theorem numberChar_notSpace {c : Char} (hc : isNumberChar c = true) : isJsonSpace c = false := by
  have hne {d : Char} (hd : isNumberChar d = false) : (c == d) = false :=
    beq_eq_false_iff_ne.mpr (numberChar_ne hc hd)
  rw [isJsonSpace, hne (by decide), hne (by decide), hne (by decide), hne (by decide)]
  rfl

theorem writeValue_head {v : Json} (hv : Stable nt v) (depth : ℕ) :
    ∃ c cs, writeValue nt indent depth v = c :: cs ∧ isJsonSpace c = false ∧ c ≠ ']' := by
  cases hv with
  | null => exact ⟨_, _, by rw [writeValue], by decide, by decide⟩
  | bool b => cases b <;> exact ⟨_, _, by rw [writeValue], by decide, by decide⟩
  | num q h =>
    rw [writeValue]
    cases hq : nt.write q with
    | nil => exact absurd hq h.nonempty
    | cons c cs =>
      have hc := h.chars c (hq ▸ List.mem_cons_self)
      exact ⟨c, cs, rfl, numberChar_notSpace hc, numberChar_ne hc (by decide)⟩
  | str s => exact ⟨_, _, by rw [writeValue, quote], by decide, by decide⟩
  | arr xs => cases xs <;> exact ⟨_, _, by rw [writeValue], by decide, by decide⟩
  | obj ms => cases ms <;> exact ⟨_, _, by rw [writeValue], by decide, by decide⟩

def ReadBack (nt : NumberText) (indent : ℕ) (v : Json) : Prop :=
  ∀ depth n rest, 2 * (writeValue nt indent depth v).length ≤ n → Ends rest →
    readValue nt n (writeValue nt indent depth v ++ rest) = some (v, rest)

theorem readValue_skip {cs cs' : List Char} (h : skipSpace cs = skipSpace cs') (n : ℕ) :
    readValue nt n cs = readValue nt n cs' := by
  cases n with
  | zero => rw [readValue, readValue]
  | succ n => rw [readValue, readValue, h]

theorem ends_writeItems (depth : ℕ) (xs : List Json) :
    Ends (writeItems nt indent depth xs ++ rest) := by
  cases xs with
  | nil =>
    rw [writeItems, lineBreak]
    split <;> rfl
  | cons x xs =>
    rw [writeItems]
    rfl

theorem ends_writeMembers (depth : ℕ) (ms : List (String × Json)) :
    Ends (writeMembers nt indent depth ms ++ rest) := by
  cases ms with
  | nil =>
    rw [writeMembers, lineBreak]
    split <;> rfl
  | cons x xs =>
    rw [writeMembers]
    rfl

theorem readItems_write {xs : List Json} (x : Json)
    (hread : ∀ y ∈ x :: xs, ReadBack nt indent y) (depth n : ℕ)
    (hn : 2 * (writeValue nt indent (depth + 1) x ++ writeItems nt indent depth xs).length + 1 ≤
      n) :
    readItems nt n (lineBreak indent (depth + 1) ++
      (writeValue nt indent (depth + 1) x ++ writeItems nt indent depth xs) ++ rest) =
      some (x :: xs, rest) := by
  induction xs generalizing x n with
  | nil =>
    cases n with
    | zero => omega
    | succ n =>
      rw [List.length_append] at hn
      have hx := hread x List.mem_cons_self (depth + 1) n (writeItems nt indent depth [] ++ rest)
        (by omega) (ends_writeItems depth [])
      have hclose : skipSpace (writeItems nt indent depth [] ++ rest) = ']' :: rest := by
        rw [writeItems, List.append_assoc, skipSpace_lineBreak]
        exact skipSpace_cons (by decide) rest
      rw [List.append_assoc, List.append_assoc, readItems,
        readValue_skip (skipSpace_lineBreak (depth + 1) _), hx, Option.bind_some]
      dsimp only
      rw [hclose]
      rfl
  | cons y ys ih =>
    cases n with
    | zero => omega
    | succ n =>
      rw [List.length_append, writeItems, List.length_cons, List.length_append] at hn
      have hx := hread x List.mem_cons_self (depth + 1) n
        (writeItems nt indent depth (y :: ys) ++ rest) (by omega) (ends_writeItems depth (y :: ys))
      have hys := ih y (fun z hz => hread z (List.mem_cons_of_mem x hz)) n (by omega)
      have hcomma : skipSpace (writeItems nt indent depth (y :: ys) ++ rest) =
          ',' :: (lineBreak indent (depth + 1) ++
            (writeValue nt indent (depth + 1) y ++ writeItems nt indent depth ys) ++ rest) := by
        rw [writeItems, List.cons_append]
        exact skipSpace_cons (by decide) _
      rw [List.append_assoc, List.append_assoc, readItems,
        readValue_skip (skipSpace_lineBreak (depth + 1) _), hx, Option.bind_some]
      dsimp only
      rw [hcomma]
      dsimp only
      rw [if_pos rfl, hys]
      rfl

theorem length_le_escaped (s : List Char) : s.length ≤ (s.flatMap escapeChar).length := by
  have hone (c : Char) : 1 ≤ (escapeChar c).length := by
    unfold escapeChar
    split_ifs <;> exact Nat.succ_le_succ (Nat.zero_le _)
  induction s with
  | nil => exact Nat.le_refl 0
  | cons c s ih =>
    have hc := hone c
    rw [List.flatMap_cons, List.length_append, List.length_cons]
    omega

theorem readKey_quote (key : String) (cs : List Char) :
    readKey (quote key ++ (colon indent ++ cs)) = some (key, (colon indent).tail ++ cs) := by
  have hlength : key.toList.length <
      (key.toList.flatMap escapeChar ++ '"' :: (colon indent ++ cs)).length + 1 := by
    have hle := length_le_escaped key.toList
    rw [List.length_append]
    omega
  have hquote : quote key ++ (colon indent ++ cs) =
      '"' :: (key.toList.flatMap escapeChar ++ '"' :: (colon indent ++ cs)) := by
    rw [quote, List.cons_append, List.append_assoc]
    rfl
  have hcolon : skipSpace (colon indent ++ cs) = ':' :: ((colon indent).tail ++ cs) := by
    unfold colon
    split <;> exact skipSpace_cons (by decide) _
  rw [hquote, readKey, if_pos rfl, readString_quote key.toList hlength, Option.bind_some]
  dsimp only
  rw [hcolon, String.ofList_toList]
  rfl

theorem skipSpace_colon (cs : List Char) :
    skipSpace ((colon indent).tail ++ cs) = skipSpace cs := by
  unfold colon
  split <;> rfl

theorem readKey_write (key : String) (v : Json) (depth : ℕ) (cs : List Char) :
    readKey (skipSpace (writeMember nt indent depth (key, v) ++ cs)) =
      some (key, (colon indent).tail ++ (writeValue nt indent (depth + 1) v ++ cs)) := by
  have hquote (cs : List Char) : skipSpace (quote key ++ cs) = quote key ++ cs :=
    skipSpace_cons (by decide) _
  rw [writeMember, List.append_assoc, List.append_assoc, List.append_assoc, skipSpace_lineBreak,
    hquote, readKey_quote]

theorem readMembers_write {ms : List (String × Json)} (kv : String × Json)
    (hread : ∀ m ∈ kv :: ms, ReadBack nt indent m.2) (depth n : ℕ)
    (hn : 2 * (writeMember nt indent depth kv ++ writeMembers nt indent depth ms).length + 1 ≤ n) :
    readMembers nt n (writeMember nt indent depth kv ++ writeMembers nt indent depth ms ++ rest) =
      some (kv :: ms, rest) := by
  induction ms generalizing kv n with
  | nil =>
    obtain ⟨key, v⟩ := kv
    cases n with
    | zero => omega
    | succ n =>
      rw [List.length_append, writeMember] at hn
      simp only [List.length_append] at hn
      have hv := hread (key, v) List.mem_cons_self (depth + 1) n
        (writeMembers nt indent depth [] ++ rest) (by dsimp only; omega)
        (ends_writeMembers depth [])
      have hclose : skipSpace (writeMembers nt indent depth [] ++ rest) = '\x7d' :: rest := by
        rw [writeMembers, List.append_assoc, skipSpace_lineBreak]
        exact skipSpace_cons (by decide) rest
      rw [List.append_assoc, readMembers, readKey_write, Option.bind_some,
        readValue_skip (skipSpace_colon _), hv, Option.bind_some]
      dsimp only
      rw [hclose]
      rfl
  | cons m ms ih =>
    obtain ⟨key, v⟩ := kv
    cases n with
    | zero => omega
    | succ n =>
      rw [List.length_append, writeMember, writeMembers] at hn
      simp only [List.length_append, List.length_cons] at hn
      have hv := hread (key, v) List.mem_cons_self (depth + 1) n
        (writeMembers nt indent depth (m :: ms) ++ rest) (by dsimp only; omega)
        (ends_writeMembers depth (m :: ms))
      have hms := ih m (fun z hz => hread z (List.mem_cons_of_mem _ hz)) n
        (by rw [List.length_append]; omega)
      have hcomma : skipSpace (writeMembers nt indent depth (m :: ms) ++ rest) =
          ',' :: (writeMember nt indent depth m ++ writeMembers nt indent depth ms ++ rest) := by
        rw [writeMembers, List.cons_append]
        exact skipSpace_cons (by decide) _
      rw [List.append_assoc, readMembers, readKey_write, Option.bind_some,
        readValue_skip (skipSpace_colon _), hv, Option.bind_some]
      dsimp only
      rw [hcomma]
      dsimp only
      rw [if_pos rfl, hms]
      rfl

/-- A value whose text starts with `c` is read by the branch of `c`. -/
theorem readValue_succ {c : Char} (hc : isJsonSpace c = false) (n : ℕ) (cs : List Char) :
    readValue nt (n + 1) (c :: cs) =
      if c = '"' then (readString (cs.length + 1) cs).map fun p => (.str (String.ofList p.1), p.2)
      else if c = '[' then
        if (skipSpace cs).head? = some ']' then some (.arr [], (skipSpace cs).tail)
        else (readItems nt n cs).map fun p => (.arr p.1, p.2)
      else if c = '\x7b' then
        if (skipSpace cs).head? = some '\x7d' then some (.obj [], (skipSpace cs).tail)
        else (readMembers nt n cs).map fun p => (.obj (p.1.foldl assignMember []), p.2)
      else if c = 'n' then readWord ['u', 'l', 'l'] .null cs
      else if c = 't' then readWord ['r', 'u', 'e'] (.bool true) cs
      else if c = 'f' then readWord ['a', 'l', 's', 'e'] (.bool false) cs
      else readNumber nt (c :: cs) := by
  rw [readValue, skipSpace_cons hc]

/-- Every value is read back from its text, whatever follows that is no part of a number. -/
theorem readBack {v : Json} (hv : Stable nt v) : ReadBack nt indent v := by
  have hfuel {w : Json} (hw : Stable nt w) {depth n : ℕ}
      (hn : 2 * (writeValue nt indent depth w).length ≤ n) : ∃ m, n = m + 1 := by
    obtain ⟨c, cs, hhead, -⟩ := @writeValue_head nt indent w hw depth
    rw [hhead, List.length_cons] at hn
    exact ⟨n - 1, by omega⟩
  induction hv with
  | null =>
    intro depth n rest hn _
    obtain ⟨n, rfl⟩ := hfuel .null hn
    rw [writeValue]
    exact readWord_append ['u', 'l', 'l'] .null
  | bool b =>
    intro depth n rest hn _
    obtain ⟨n, rfl⟩ := hfuel (.bool b) hn
    cases b with
    | true =>
      rw [writeValue]
      exact readWord_append ['r', 'u', 'e'] (.bool true)
    | false =>
      rw [writeValue]
      exact readWord_append ['a', 'l', 's', 'e'] (.bool false)
  | num q h =>
    intro depth n rest hn hrest
    obtain ⟨n, rfl⟩ := hfuel (.num q h) hn
    have hread := readNumber_write h hrest
    rw [writeValue]
    cases hq : nt.write q with
    | nil => exact absurd hq h.nonempty
    | cons c cs =>
      have hc := h.chars c (hq ▸ List.mem_cons_self)
      rw [hq] at hread
      rw [List.cons_append, readValue_succ (numberChar_notSpace hc),
        if_neg (numberChar_ne hc (by decide)), if_neg (numberChar_ne hc (by decide)),
        if_neg (numberChar_ne hc (by decide)), if_neg (numberChar_ne hc (by decide)),
        if_neg (numberChar_ne hc (by decide)), if_neg (numberChar_ne hc (by decide))]
      exact hread
  | str s =>
    intro depth n rest hn _
    obtain ⟨n, rfl⟩ := hfuel (.str s) hn
    have hlength : s.toList.length < (s.toList.flatMap escapeChar ++ '"' :: rest).length + 1 := by
      have hle := length_le_escaped s.toList
      rw [List.length_append]
      omega
    have hquote : quote s ++ rest = '"' :: (s.toList.flatMap escapeChar ++ '"' :: rest) := by
      rw [quote, List.cons_append, List.append_assoc]
      rfl
    rw [writeValue, hquote, readValue_succ (by decide), if_pos rfl,
      readString_quote s.toList hlength, Option.map_some, String.ofList_toList]
  | arr xs h ih =>
    intro depth n rest hn _
    obtain ⟨n, rfl⟩ := hfuel (.arr xs h) hn
    cases xs with
    | nil =>
      rw [writeValue]
      rfl
    | cons x xs =>
      rw [writeValue, List.length_cons, List.length_append] at hn
      have hitems := @readItems_write nt indent rest xs x ih depth n (by omega)
      obtain ⟨c, cs, hhead, hspace, hne⟩ :=
        @writeValue_head nt indent x (h x List.mem_cons_self) (depth + 1)
      have hopen : (skipSpace (lineBreak indent (depth + 1) ++
          (writeValue nt indent (depth + 1) x ++ writeItems nt indent depth xs) ++ rest)).head? ≠
          some ']' := by
        rw [List.append_assoc, skipSpace_lineBreak, hhead, List.cons_append, List.cons_append,
          skipSpace_cons hspace]
        exact fun heq => hne (Option.some.inj heq)
      rw [writeValue, List.cons_append, readValue_succ (by decide), if_neg (by decide), if_pos rfl,
        if_neg hopen, hitems]
      rfl
  | obj ms keys h ih =>
    intro depth n rest hn _
    obtain ⟨n, rfl⟩ := hfuel (.obj ms keys h) hn
    cases ms with
    | nil =>
      rw [writeValue]
      rfl
    | cons m ms =>
      rw [writeValue, List.length_cons] at hn
      have hmembers := @readMembers_write nt indent rest ms m ih depth n (by omega)
      have hopen : (skipSpace (writeMember nt indent depth m ++ writeMembers nt indent depth ms ++
          rest)).head? ≠ some '\x7d' := by
        obtain ⟨key, v⟩ := m
        rw [writeMember, List.append_assoc, List.append_assoc, skipSpace_lineBreak]
        exact fun heq => absurd (Option.some.inj heq) (by decide)
      rw [writeValue, List.cons_append, readValue_succ (by decide), if_neg (by decide),
        if_neg (by decide), if_pos rfl, if_neg hopen, hmembers, Option.map_some,
        assignMembers_nodup _ [] keys]
      rfl

/-- `JSON.parse` undoes `JSON.stringify`. -/
theorem parse_stringify {v : Json} (hv : Stable nt v) :
    parse nt (stringify nt indent v) = some v := by
  have hread := @readBack nt indent v hv 0 (2 * (writeValue nt indent 0 v).length + 2) []
    (by omega) rfl
  rw [List.append_nil] at hread
  rw [parse, stringify, String.toList_ofList, hread]
  rfl

end Values

end Flexi.JsonText
