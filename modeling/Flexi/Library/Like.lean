import Mathlib.Tactic

/-!
# LIKE patterns

Patterns with an escape character, over any alphabet and any way of comparing letters. A
keyword whose special characters are escaped matches itself and nothing else.
-/

namespace Flexi.Library

/-- The special characters of a pattern. -/
structure LikeSyntax (α : Type) where
  escape : α
  many : α
  one : α
  escape_ne_many : escape ≠ many

inductive LikeToken (α : Type) where
  | lit (c : α)
  | one
  | many

variable {α : Type}

namespace LikeSyntax

variable [DecidableEq α] (syn : LikeSyntax α)

def special (c : α) : Bool := c == syn.escape || c == syn.many || c == syn.one

def token (c : α) : LikeToken α :=
  if c = syn.many then .many else if c = syn.one then .one else .lit c

/-- The tokens of a pattern; a pattern must not end with the escape character. -/
def tokens : List α → Option (List (LikeToken α))
  | [] => some []
  | [c] => if c = syn.escape then none else some [syn.token c]
  | c :: d :: cs =>
    if c = syn.escape then (tokens cs).map (.lit d :: ·) else (tokens (d :: cs)).map (syn.token c :: ·)

/-- A text with every special character escaped. -/
def quote (cs : List α) : List α := cs.flatMap fun c => if syn.special c then [syn.escape, c] else [c]

end LikeSyntax

def matchTokens (same : α → α → Bool) : List (LikeToken α) → List α → Bool
  | [], s => s.isEmpty
  | .many :: ts, s => s.tails.any fun rest => matchTokens same ts rest
  | .one :: _, [] => false
  | .one :: ts, _ :: s => matchTokens same ts s
  | .lit _ :: _, [] => false
  | .lit c :: ts, d :: s => same c d && matchTokens same ts s

/-- `s LIKE pattern`; `none` is the error of a bad pattern. -/
def like [DecidableEq α] (syn : LikeSyntax α) (same : α → α → Bool) (pattern s : List α) : Option Bool :=
  (syn.tokens pattern).map fun ts => matchTokens same ts s

variable {same : α → α → Bool}

/-! ### Patterns of a quoted text -/

theorem LikeSyntax.tokens_quote [DecidableEq α] (syn : LikeSyntax α) (cs rest : List α) :
    syn.tokens (syn.quote cs ++ rest) = (syn.tokens rest).map (cs.map .lit ++ ·) := by
  induction cs with
  | nil => simp [quote]
  | cons c cs ih =>
    have hquote : syn.quote (c :: cs) =
        (if syn.special c then [syn.escape, c] else [c]) ++ syn.quote cs := List.flatMap_cons
    rw [hquote]
    cases hc : syn.special c with
    | true =>
      show syn.tokens (syn.escape :: c :: (syn.quote cs ++ rest)) = _
      rw [tokens, if_pos rfl, ih, Option.map_map]
      rfl
    | false =>
      simp only [special, Bool.or_eq_false_iff, beq_eq_false_iff_ne] at hc
      obtain ⟨⟨hescape, hmany⟩, hone⟩ := hc
      have htoken : syn.token c = .lit c := by rw [token, if_neg hmany, if_neg hone]
      show syn.tokens (c :: (syn.quote cs ++ rest)) = _
      cases htail : syn.quote cs ++ rest with
      | nil =>
        rw [htail] at ih
        obtain ⟨ts, hts, heq⟩ := Option.map_eq_some_iff.mp ih.symm
        rw [tokens, if_neg hescape, htoken, hts, List.map_cons]
        simpa using heq
      | cons d ds =>
        rw [tokens, if_neg hescape, htoken, ← htail, ih, Option.map_map]
        rfl

theorem LikeSyntax.tokens_many [DecidableEq α] (syn : LikeSyntax α) (rest : List α) :
    syn.tokens (syn.many :: rest) = (syn.tokens rest).map (.many :: ·) := by
  have htoken : syn.token syn.many = .many := if_pos rfl
  have hescape : syn.many ≠ syn.escape := syn.escape_ne_many.symm
  cases rest with
  | nil =>
    show (if syn.many = syn.escape then none else some [syn.token syn.many]) = _
    rw [if_neg hescape, htoken]
    rfl
  | cons d ds => rw [tokens, if_neg hescape, htoken]

/-! ### What a match is -/

theorem matchTokens_many {ts : List (LikeToken α)} {s : List α} :
    matchTokens same (.many :: ts) s = true ↔ ∃ u v, s = u ++ v ∧ matchTokens same ts v = true := by
  rw [matchTokens, List.any_eq_true]
  constructor
  · rintro ⟨v, hv, h⟩
    obtain ⟨u, hu⟩ := (List.mem_tails _ _).mp hv
    exact ⟨u, v, hu.symm, h⟩
  · rintro ⟨u, v, rfl, h⟩
    exact ⟨v, (List.mem_tails _ _).mpr ⟨u, rfl⟩, h⟩

theorem matchTokens_lits {cs : List α} {ts : List (LikeToken α)} {s : List α} :
    matchTokens same (cs.map .lit ++ ts) s = true ↔
      ∃ u v, s = u ++ v ∧ List.Forall₂ (fun c d => same c d = true) cs u ∧
        matchTokens same ts v = true := by
  induction cs generalizing s with
  | nil => simp
  | cons c cs ih =>
    rw [List.map_cons, List.cons_append]
    cases s with
    | nil =>
      rw [matchTokens]
      constructor
      · intro h
        cases h
      · rintro ⟨u, v, huv, hmatch, -⟩
        obtain ⟨rfl, -⟩ := List.nil_eq_append_iff.mp huv
        cases hmatch
    | cons d s =>
      rw [matchTokens, Bool.and_eq_true, ih]
      constructor
      · rintro ⟨hd, u, v, rfl, hmatch, hrest⟩
        exact ⟨d :: u, v, rfl, hmatch.cons hd, hrest⟩
      · rintro ⟨u, v, huv, hmatch, hrest⟩
        cases hmatch with
        | cons hd hmatch =>
          obtain ⟨rfl, rfl⟩ := List.cons_eq_cons.mp huv
          exact ⟨hd, _, v, rfl, hmatch, hrest⟩

/-- Between two wildcards a quoted text is looked for literally. -/
theorem like_quote [DecidableEq α] (syn : LikeSyntax α) (same : α → α → Bool) (cs s : List α) :
    ∃ found, like syn same (syn.many :: (syn.quote cs ++ [syn.many])) s = some found ∧
      (found = true ↔ ∃ u m v, s = u ++ m ++ v ∧ List.Forall₂ (fun c d => same c d = true) cs m) := by
  have hlast : syn.tokens [syn.many] = some [.many] := syn.tokens_many []
  have htokens : syn.tokens (syn.many :: (syn.quote cs ++ [syn.many])) =
      some (.many :: (cs.map .lit ++ [.many])) := by
    rw [LikeSyntax.tokens_many, LikeSyntax.tokens_quote, hlast]
    rfl
  refine ⟨_, by rw [like, htokens]; rfl, ?_⟩
  rw [matchTokens_many]
  constructor
  · rintro ⟨u, rest, rfl, h⟩
    obtain ⟨m, v, rfl, hmatch, -⟩ := matchTokens_lits.mp h
    exact ⟨u, m, v, (List.append_assoc u m v).symm, hmatch⟩
  · rintro ⟨u, m, v, rfl, hmatch⟩
    refine ⟨u, m ++ v, List.append_assoc u m v, matchTokens_lits.mpr ⟨m, v, rfl, hmatch, ?_⟩⟩
    exact matchTokens_many.mpr ⟨v, [], (List.append_nil v).symm, rfl⟩

end Flexi.Library
