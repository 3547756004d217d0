import Mathlib.Tactic

/-!
# Identifiers in SQL text

How Postgres reads a quoted identifier: a doubled quote stands for one, the name must not
be empty, and a name beyond the cap is cut after the last character that fits.
-/

namespace Flexi.Library

/-- The bytes of a text in UTF-8. -/
def byteCount (cs : List Char) : ℕ := (cs.map Char.utf8Size).sum

/-- The characters that fit into `cap` bytes. -/
def clip : ℕ → List Char → List Char
  | _, [] => []
  | cap, c :: cs => if c.utf8Size ≤ cap then c :: clip (cap - c.utf8Size) cs else []

theorem clip_eq_self {cap : ℕ} {cs : List Char} (h : byteCount cs ≤ cap) : clip cap cs = cs := by
  induction cs generalizing cap with
  | nil => rfl
  | cons c cs ih =>
    have hsum : byteCount (c :: cs) = c.utf8Size + byteCount cs := rfl
    rw [clip, if_pos (by omega), ih (by omega)]

/-- A text with every quote doubled. -/
def escapeQuotes (cs : List Char) : List Char := cs.flatMap fun c => if c = '"' then ['"', '"'] else [c]

/-- What stands between quotes, and the text after the closing one. -/
def readQuoted : List Char → Option (List Char × List Char)
  | [] => none
  | '"' :: '"' :: cs => (readQuoted cs).map fun r => ('"' :: r.1, r.2)
  | '"' :: cs => some ([], cs)
  | c :: cs => (readQuoted cs).map fun r => (c :: r.1, r.2)

/-- The name that a quoted identifier denotes, and the text after it. -/
def readIdentifier (cap : ℕ) : List Char → Option (List Char × List Char)
  | '"' :: cs => (readQuoted cs).bind fun r => if r.1 = [] then none else some (clip cap r.1, r.2)
  | _ => none

section Plain

variable {cs rest : List Char}

theorem escapeQuotes_eq_self (hplain : '"' ∉ cs) : escapeQuotes cs = cs := by
  induction cs with
  | nil => rfl
  | cons c cs ih =>
    rw [List.mem_cons, not_or] at hplain
    have hc : c ≠ '"' := fun h => hplain.1 h.symm
    have htail := ih hplain.2
    rw [escapeQuotes] at htail ⊢
    rw [List.flatMap_cons, if_neg hc, htail]
    rfl

theorem readQuoted_plain (hplain : '"' ∉ cs) (hrest : rest.head? ≠ some '"') :
    readQuoted (cs ++ '"' :: rest) = some (cs, rest) := by
  induction cs with
  | nil =>
    cases rest with
    | nil => rfl
    | cons d rest =>
      have hd : d ≠ '"' := fun h => hrest (by rw [h]; rfl)
      simp [readQuoted, hd]
  | cons c cs ih =>
    rw [List.mem_cons, not_or] at hplain
    have hc : c ≠ '"' := fun h => hplain.1 h.symm
    have htail := ih hplain.2
    simp [readQuoted, hc, htail]

/-- A name without quotes that fits stands for itself between quotes. -/
theorem readIdentifier_plain {cap : ℕ} (hplain : '"' ∉ cs) (hne : cs ≠ []) (hcap : byteCount cs ≤ cap)
    (hrest : rest.head? ≠ some '"') :
    readIdentifier cap ('"' :: (cs ++ '"' :: rest)) = some (cs, rest) := by
  rw [readIdentifier, readQuoted_plain hplain hrest, Option.bind_some, if_neg hne,
    clip_eq_self hcap]

end Plain

theorem byteCount_ascii {cs : List Char} (h : ∀ c ∈ cs, c.toNat < 128) :
    byteCount cs = cs.length := by
  induction cs with
  | nil => rfl
  | cons c cs ih =>
    have hc : c.utf8Size = 1 := by
      have hlt := h c List.mem_cons_self
      rw [Char.utf8Size_eq_one_iff]
      exact UInt32.le_iff_toNat_le.mpr (Nat.le_of_lt_succ hlt)
    have hsum : byteCount (c :: cs) = c.utf8Size + byteCount cs := rfl
    have htail := ih fun d hd => h d (List.mem_cons_of_mem c hd)
    rw [hsum, hc, htail, List.length_cons, Nat.add_comm]

end Flexi.Library
