import Flexi.Library.Like
import Flexi.Tenants.Payload

/-!
# Keyword filters (tenants.service.ts, users-admin.service.ts)

What a keyword of the tenant list and of the user list looks for. Prisma puts `%` around the
argument of `contains`; `fold` is the case folding of the database, letter by letter.
-/

namespace Flexi.Listings
open Flexi.Library Flexi.Tenants

/-- The pattern characters of Postgres. -/
def postgresLike : LikeSyntax Char where
  escape := '\\'
  many := '%'
  one := '_'
  escape_ne_many := by decide

/-- `text ILIKE pattern` -/
def ilike (fold : Char → Char) (text pattern : String) : Option Bool :=
  like postgresLike (fun c d => fold c == fold d) pattern.toList text.toList

/-- `{ contains: argument, mode: 'insensitive' }` -/
def containsInsensitive (fold : Char → Char) (text argument : String) : Option Bool :=
  ilike fold text ("%" ++ argument ++ "%")

/-- `keyword.replace(/[\\%_]/g, (match) => '\\' + match)` -/
def escapeLikeKeyword (keyword : String) : String :=
  String.ofList (keyword.toList.flatMap fun c =>
    if c = '\\' ∨ c = '%' ∨ c = '_' then ['\\', c] else [c])

/-- A keyword of nothing but blanks filters nothing. -/
def parseKeyword (keyword : Option String) : Option String :=
  match keyword.map trim with
  | some trimmed => if trimmed = "" then none else some (escapeLikeKeyword trimmed)
  | none => none

/-- `text` has `keyword` in it, up to case. -/
def ContainsUpToCase (fold : Char → Char) (keyword text : String) : Prop :=
  ∃ u m v, text.toList = u ++ m ++ v ∧ m.map fold = keyword.toList.map fold

theorem escapeLikeKeyword_toList (keyword : String) :
    (escapeLikeKeyword keyword).toList = postgresLike.quote keyword.toList := by
  rw [escapeLikeKeyword, String.toList_ofList, LikeSyntax.quote]
  refine List.flatMap_congr fun c _ => ?_
  by_cases hspecial : c = '\\' ∨ c = '%' ∨ c = '_'
  · have hspec : postgresLike.special c = true := by
      simpa [LikeSyntax.special, postgresLike, or_assoc] using hspecial
    rw [if_pos hspecial, if_pos hspec]
    rfl
  · have hspec : ¬postgresLike.special c = true := by
      simpa [LikeSyntax.special, postgresLike, or_assoc] using hspecial
    rw [if_neg hspecial, if_neg hspec]

theorem forall₂_fold (fold : Char → Char) (cs ds : List Char) :
    List.Forall₂ (fun c d => (fold c == fold d) = true) cs ds ↔ ds.map fold = cs.map fold := by
  rw [eq_comm, ← List.forall₂_eq_eq_eq, List.forall₂_map_left_iff, List.forall₂_map_right_iff]
  simp only [beq_iff_eq]

theorem containsInsensitive_escaped (fold : Char → Char) (keyword text : String) :
    ∃ found, containsInsensitive fold text (escapeLikeKeyword keyword) = some found ∧
      (found = true ↔ ContainsUpToCase fold keyword text) := by
  have hpattern : ("%" ++ escapeLikeKeyword keyword ++ "%").toList =
      postgresLike.many :: (postgresLike.quote keyword.toList ++ [postgresLike.many]) := by
    rw [String.toList_append, String.toList_append, escapeLikeKeyword_toList]
    rfl
  obtain ⟨found, hfound, hiff⟩ := like_quote postgresLike (fun c d => fold c == fold d)
    keyword.toList text.toList
  refine ⟨found, by rw [containsInsensitive, ilike, hpattern, hfound], hiff.trans ?_⟩
  simp only [forall₂_fold]
  rfl

/-- Both escapings make the search literal: the pattern matches what has the keyword in it, up
to case. -/
theorem keyword_search_literal (fold : Char → Char) (keyword text : String) :
    (∃ found, ilike fold text ("%" ++ escapeLikeKeyword keyword ++ "%") = some found ∧
        (found = true ↔ ContainsUpToCase fold keyword text)) ∧
      (parseKeyword (some keyword) = none ↔ trim keyword = "") ∧
      ∀ pattern, parseKeyword (some keyword) = some pattern →
        ∃ found, ilike fold text ("%" ++ pattern ++ "%") = some found ∧
          (found = true ↔ ContainsUpToCase fold (trim keyword) text) := by
  have hparse : parseKeyword (some keyword) =
      if trim keyword = "" then none else some (escapeLikeKeyword (trim keyword)) := rfl
  refine ⟨containsInsensitive_escaped fold keyword text, ?_, ?_⟩
  · rw [hparse]
    split
    · rename_i hblank
      exact iff_of_true rfl hblank
    · rename_i hblank
      exact iff_of_false (fun h => Option.some_ne_none _ h) hblank
  · intro pattern hpattern
    rw [hparse] at hpattern
    split at hpattern
    · cases hpattern
    · rw [← Option.some.inj hpattern]
      exact containsInsensitive_escaped fold (trim keyword) text

example : containsInsensitive Char.toLower "50%_OFF" (escapeLikeKeyword "%_o") = some true := by
  decide +kernel

end Flexi.Listings
