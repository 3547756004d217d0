import Mathlib.Data.List.Basic

/-!
# Searching a joined text

A reader looks for its label at the start of a text and after every separator, with the
spaces there skipped. On parts joined by the separator and a space it finds what it finds
first in one of the parts, if it never reads over a separator.
-/

namespace Flexi.Library

variable {α β : Type*} [DecidableEq α]

/-- The first thing `here` reads behind a separator and spaces. -/
def searchAfter (sep : α) (isSpace : α → Bool) (here : List α → Option β) : List α → Option β
  | [] => none
  | c :: cs =>
    if c = sep then (here (cs.dropWhile isSpace)).or (searchAfter sep isSpace here cs)
    else searchAfter sep isSpace here cs

/-- The first thing `here` reads at the start or behind a separator and spaces. -/
def search (sep : α) (isSpace : α → Bool) (here : List α → Option β) (cs : List α) : Option β :=
  (here cs).or (searchAfter sep isSpace here cs)

section Joined

variable {sep space : α} {isSpace : α → Bool} {here : List α → Option β}

theorem searchAfter_sep (cs : List α) : searchAfter sep isSpace here (sep :: cs) =
    (here (cs.dropWhile isSpace)).or (searchAfter sep isSpace here cs) :=
  if_pos rfl

theorem searchAfter_ne {c : α} (h : c ≠ sep) (cs : List α) :
    searchAfter sep isSpace here (c :: cs) = searchAfter sep isSpace here cs :=
  if_neg h

omit [DecidableEq α] in
theorem dropWhile_append_sep (hsep : isSpace sep = false) (cs rest : List α) :
    (cs ++ sep :: rest).dropWhile isSpace = cs.dropWhile isSpace ++ sep :: rest := by
  induction cs with
  | nil =>
    rw [List.nil_append, List.dropWhile_cons, hsep]
    rfl
  | cons c cs ih =>
    rw [List.cons_append, List.dropWhile_cons, List.dropWhile_cons]
    split
    · exact ih
    · rfl

omit [DecidableEq α] in
theorem takeWhile_append_sep {p : α → Bool} (hsep : p sep = false) (cs rest : List α) :
    (cs ++ sep :: rest).takeWhile p = cs.takeWhile p := by
  induction cs with
  | nil =>
    rw [List.nil_append, List.takeWhile_cons, hsep]
    rfl
  | cons c cs ih =>
    rw [List.cons_append, List.takeWhile_cons, List.takeWhile_cons, ih]

theorem searchAfter_append_sep (hsep : isSpace sep = false)
    (hlocal : ∀ cs rest, here (cs ++ sep :: rest) = here cs) (cs rest : List α) :
    searchAfter sep isSpace here (cs ++ sep :: rest) =
      (searchAfter sep isSpace here cs).or (searchAfter sep isSpace here (sep :: rest)) := by
  induction cs with
  | nil => rfl
  | cons c cs ih =>
    rw [List.cons_append]
    by_cases hc : c = sep
    · rw [hc, searchAfter_sep cs, searchAfter_sep (cs ++ sep :: rest), ih,
        dropWhile_append_sep hsep, hlocal, Option.or_assoc]
    · rw [searchAfter_ne hc, searchAfter_ne hc, ih]

omit [DecidableEq α] in
theorem dropWhile_append_self {cs rest : List α} (hcs : cs.dropWhile isSpace = cs)
    (hrest : rest.dropWhile isSpace = rest) : (cs ++ rest).dropWhile isSpace = cs ++ rest := by
  cases cs with
  | nil => exact hrest
  | cons c cs =>
    rw [List.dropWhile_cons] at hcs
    split at hcs
    · have hle := (List.dropWhile_sublist isSpace (l := cs)).length_le
      rw [hcs, List.length_cons] at hle
      omega
    · rename_i hc
      rw [List.cons_append, List.dropWhile_cons, if_neg hc]

omit [DecidableEq α] in
theorem dropWhile_intercalate (hsep : isSpace sep = false) {parts : List (List α)}
    (hparts : ∀ part ∈ parts, part.dropWhile isSpace = part) :
    ([sep, space].intercalate parts).dropWhile isSpace = [sep, space].intercalate parts := by
  cases parts with
  | nil => rfl
  | cons part parts =>
    have hpart := hparts part List.mem_cons_self
    cases parts with
    | nil =>
      rw [List.intercalate_singleton]
      exact hpart
    | cons next parts =>
      rw [List.intercalate_cons_cons, List.append_assoc]
      refine dropWhile_append_self hpart ?_
      rw [List.cons_append, List.dropWhile_cons, hsep]
      rfl

/-- A search of joined parts is a search of one part after the other. -/
theorem search_intercalate (hsep : isSpace sep = false) (hspace : isSpace space = true)
    (hlocal : ∀ cs rest, here (cs ++ sep :: rest) = here cs) {parts : List (List α)}
    (hne : parts ≠ []) (hparts : ∀ part ∈ parts, part.dropWhile isSpace = part) :
    search sep isSpace here ([sep, space].intercalate parts) =
      parts.findSome? (search sep isSpace here) := by
  induction parts with
  | nil => exact absurd rfl hne
  | cons part parts ih =>
    cases hrest : parts with
    | nil =>
      rw [List.intercalate_singleton, List.findSome?_singleton]
    | cons next parts' =>
      have hne' : parts ≠ [] := by rw [hrest]; exact List.cons_ne_nil next parts'
      have htail := ih hne' fun p hp => hparts p (List.mem_cons_of_mem part hp)
      have hjoin : [sep, space].intercalate (part :: parts) =
          part ++ sep :: space :: [sep, space].intercalate parts := by
        rw [hrest, List.intercalate_cons_cons]
        simp only [List.append_assoc, List.cons_append, List.nil_append]
      have hdrop : ([sep, space].intercalate parts).dropWhile isSpace =
          [sep, space].intercalate parts :=
        dropWhile_intercalate hsep fun p hp => hparts p (List.mem_cons_of_mem part hp)
      have hskip : space ≠ sep := by
        rintro rfl
        rw [hspace] at hsep
        cases hsep
      rw [← hrest, hjoin, search, hlocal, searchAfter_append_sep hsep hlocal, searchAfter_sep,
        List.dropWhile_cons, if_pos hspace, hdrop, searchAfter_ne hskip, List.findSome?_cons, ← htail]
      cases hpart : search sep isSpace here part with
      | none =>
        rw [search, Option.or_eq_none_iff] at hpart
        rw [hpart.1, hpart.2]
        rfl
      | some b =>
        rw [← Option.or_assoc, ← search, hpart]
        rfl

end Joined

end Flexi.Library
