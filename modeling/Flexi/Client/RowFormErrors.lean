import Flexi.Library.JoinedText
import Flexi.DynamicTables.RelationNames
import Flexi.DynamicTables.RowPayload
import Flexi.DynamicTables.SafeNames
import Flexi.Tenants.Payload
import Mathlib.Data.List.TakeWhile

/-!
# Field errors on their way to the form

The service throws one text `slug: reason` per violation, the exception filter joins them
(http-exception.filter.ts), and the row form looks for each slug in the joined message
(DynamicRowForm.tsx). A reason may hold commas, since the options of `enum` are printed as
they are.
-/

namespace Flexi.Client
open Flexi.Library Flexi.Tenancy Flexi.Tenants Flexi.DynamicTables

/-! ### The filter -/

/-- The message of `resolveErrorPayload` for an `HttpException`. -/
def resolveErrorMessage (error : HttpError) : String := ", ".intercalate error.message

/-! ### The pattern of a slug -/

/-- `[.*+?^${}()|[\\]` -/
def escapedChars : List Char :=
  ['.', '*', '+', '?', '^', '$', '\x7b', '\x7d', '(', ')', '|', '[', '\\']

/-- `slug.replace(/[.*+?^${}()|[\\]\\\\]/g, '\\$&')`. The class ends at the first `]`: what is
escaped is one of its characters before two backslashes and a `]`. -/
def escapeSlug : List Char → List Char
  | [] => []
  | c :: cs =>
    if c ∈ escapedChars ∧ ['\\', '\\', ']'] <+: cs then '\\' :: c :: escapeSlug cs
    else c :: escapeSlug cs

/-- The text behind a pattern of plain characters and `$`, the end of the text. -/
def matchPlain : List Char → List Char → Option (List Char)
  | [], cs => some cs
  | p :: ps, [] => if p = '$' then matchPlain ps [] else none
  | p :: ps, c :: cs => if p = c ∧ p ≠ '$' then matchPlain ps cs else none

def untilComma (cs : List Char) : List Char := cs.takeWhile fun c => c ≠ ','

/-- `\s*([^,]+)`: with nothing but spaces before a comma, the last of them is what is captured. -/
def captureText (cs : List Char) : Option (List Char) :=
  if untilComma (cs.dropWhile isJsSpace) ≠ [] then some (untilComma (cs.dropWhile isJsSpace))
  else (cs.takeWhile isJsSpace).getLast?.map fun c => [c]

def matchReason (pattern cs : List Char) : Option (List Char) :=
  (matchPlain (pattern ++ [':']) cs).bind captureText

/-- `message.match(new RegExp(...))?.[1]`, for a slug that is an identifier. -/
def findReason (slug message : String) : Option String :=
  (search ',' isJsSpace (matchReason (escapeSlug slug.toList)) message.toList).map String.ofList

/-- `result[slug] = match[1]`; assigning a string to `__proto__` does nothing. -/
def assignError (message : String) (result : String → Option String) (slug : String) :
    String → Option String :=
  match findReason slug message with
  | some reason => if slug = PROTO then result else Function.update result slug (some reason)
  | none => result

/-- The `FieldErrors` object. -/
def serverErrors (message : String) (fields : List String) : String → Option String :=
  fields.foldl (assignError message) fun _ => none

/-! ### Accepted slugs -/

section Slugs

variable {slug : String} {cs rest : List Char}

theorem isJsSpace_identifierPart {c : Char} (h : identifierPart c = true) :
    isJsSpace c = false := by
  obtain ⟨hlow, hhigh⟩ := toNat_of_identifierPart h
  simp only [isJsSpace, List.mem_cons, List.not_mem_nil, or_false, Bool.or_eq_false_iff,
    decide_eq_false_iff_not, Bool.and_eq_false_iff, not_or]
  omega

/-- What an accepted slug is for the pattern. -/
structure Plain (cs : List Char) : Prop where
  ne_nil : cs ≠ []
  comma : ',' ∉ cs
  colon : ':' ∉ cs
  bracket : ']' ∉ cs
  space : ∀ c ∈ cs, isJsSpace c = false

theorem plain_of_sanitized (h : sanitizeIdentifier slug = .ok slug) : Plain slug.toList := by
  obtain ⟨hne, hpart⟩ := identifierPart_of_matches (sanitizeIdentifier_ok h).2.1
  have hnot {c : Char} (hc : identifierPart c = false) : c ∉ slug.toList := by
    intro hmem
    have hpart := hpart c hmem
    rw [hc] at hpart
    cases hpart
  exact ⟨fun heq => hne (String.toList_eq_nil_iff.mp heq), hnot (by decide), hnot (by decide),
    hnot (by decide), fun c hc => isJsSpace_identifierPart (hpart c hc)⟩

theorem escapeSlug_plain (h : ']' ∉ cs) : escapeSlug cs = cs := by
  induction cs with
  | nil => rfl
  | cons c cs ih =>
    rw [List.mem_cons, not_or] at h
    have hstart : ¬['\\', '\\', ']'] <+: cs := fun hstart =>
      h.2 (hstart.subset (by decide))
    rw [escapeSlug, if_neg (fun hand => hstart hand.2), ih h.2]

/-! ### The matcher -/

theorem matchPlain_colon_nil (ps : List Char) : matchPlain (ps ++ [':']) [] = none := by
  induction ps with
  | nil => rfl
  | cons p ps ih =>
    rw [List.cons_append, matchPlain, ih, ite_self]

theorem matchPlain_dollar {ps : List Char} (h : '$' ∈ ps) (cs : List Char) :
    matchPlain (ps ++ [':']) cs = none := by
  induction ps generalizing cs with
  | nil => cases h
  | cons p ps ih =>
    cases cs with
    | nil => exact matchPlain_colon_nil (p :: ps)
    | cons c cs =>
      rw [List.cons_append, matchPlain]
      split
      · rename_i hand
        rcases List.mem_cons.mp h with rfl | h
        · exact absurd rfl hand.2
        · exact ih h cs
      · rfl

theorem matchPlain_append {ps : List Char} (h : '$' ∉ ps) (cs : List Char) :
    matchPlain ps (ps ++ cs) = some cs := by
  induction ps with
  | nil => rfl
  | cons p ps ih =>
    rw [List.mem_cons, not_or] at h
    rw [List.cons_append, matchPlain, if_pos ⟨rfl, Ne.symm h.1⟩, ih h.2]

theorem eq_append_of_matchPlain {ps : List Char} (h : '$' ∉ ps)
    (hmatch : matchPlain ps cs = some rest) : cs = ps ++ rest := by
  induction ps generalizing cs with
  | nil => exact Option.some.inj hmatch
  | cons p ps ih =>
    rw [List.mem_cons, not_or] at h
    cases cs with
    | nil =>
      rw [matchPlain, if_neg (Ne.symm h.1)] at hmatch
      cases hmatch
    | cons c cs =>
      obtain ⟨hand, hmatch⟩ := Option.ite_none_right_eq_some.mp hmatch
      rw [hand.1, ih h.2 hmatch, List.cons_append]

/-- A pattern without a comma does not look over one. -/
theorem matchPlain_local {ps : List Char} (hdollar : '$' ∉ ps) (hcomma : ',' ∉ ps)
    (cs rest : List Char) :
    matchPlain ps (cs ++ ',' :: rest) = (matchPlain ps cs).map fun r => r ++ ',' :: rest := by
  induction ps generalizing cs with
  | nil => rfl
  | cons p ps ih =>
    rw [List.mem_cons, not_or] at hdollar hcomma
    cases cs with
    | nil =>
      rw [List.nil_append, matchPlain, matchPlain, if_neg (Ne.symm hdollar.1),
        if_neg fun hand => hcomma.1 hand.1.symm]
      rfl
    | cons c cs =>
      rw [List.cons_append, matchPlain, matchPlain, ih hdollar.2 hcomma.2]
      split <;> rfl

theorem captureText_local (cs rest : List Char) :
    captureText (cs ++ ',' :: rest) = captureText cs := by
  have hspace : isJsSpace ',' = false := by decide
  have htext : untilComma ((cs ++ ',' :: rest).dropWhile isJsSpace) =
      untilComma (cs.dropWhile isJsSpace) := by
    rw [dropWhile_append_sep hspace, untilComma, takeWhile_append_sep (by decide)]
    rfl
  rw [captureText, htext, takeWhile_append_sep hspace]
  rfl

theorem matchReason_local {ps : List Char} (hcomma : ',' ∉ ps) (cs rest : List Char) :
    matchReason ps (cs ++ ',' :: rest) = matchReason ps cs := by
  unfold matchReason
  by_cases hdollar : '$' ∈ ps
  · rw [matchPlain_dollar hdollar, matchPlain_dollar hdollar]
  · rw [matchPlain_local (by simpa using hdollar) (by simpa using hcomma)]
    cases matchPlain (ps ++ [':']) cs with
    | none => rfl
    | some r => exact captureText_local r rest

end Slugs

/-! ### One error -/

section OneError

variable {slug other : String} {reason : String}

/-- A reason as the service words it. -/
structure Worded (reason : List Char) : Prop where
  starts : reason.dropWhile isJsSpace = reason
  nonempty : untilComma reason ≠ []

theorem toList_error : (slug ++ ": " ++ reason).toList =
    slug.toList ++ ':' :: ' ' :: reason.toList := by
  rw [String.toList_append, String.toList_append, List.append_assoc]
  rfl

theorem append_colon_inj {xs ys xs' ys' : List Char} (hxs : ':' ∉ xs) (hys : ':' ∉ ys)
    (h : xs ++ ':' :: xs' = ys ++ ':' :: ys') : xs = ys ∧ xs' = ys' := by
  induction xs generalizing ys with
  | nil =>
    cases ys with
    | nil => exact ⟨rfl, (List.cons.inj h).2⟩
    | cons y ys => exact absurd (List.cons.inj h).1 fun heq => hys (heq ▸ List.mem_cons_self)
  | cons x xs ih =>
    rw [List.mem_cons, not_or] at hxs
    cases ys with
    | nil => exact absurd (List.cons.inj h).1.symm hxs.1
    | cons y ys =>
      rw [List.mem_cons, not_or] at hys
      obtain ⟨hhead, htail⟩ := List.cons.inj h
      obtain ⟨hinit, hrest⟩ := ih hxs.2 hys.2 htail
      exact ⟨by rw [hhead, hinit], hrest⟩

theorem error_inj {reason' : String} (hslug : Plain slug.toList) (hother : Plain other.toList)
    (h : slug ++ ": " ++ reason = other ++ ": " ++ reason') : slug = other ∧ reason = reason' := by
  have hlist := congrArg String.toList h
  rw [toList_error, toList_error] at hlist
  obtain ⟨hslugs, hreasons⟩ := append_colon_inj hslug.colon hother.colon hlist
  exact ⟨String.toList_injective hslugs, String.toList_injective (List.cons.inj hreasons).2⟩

/-- What the pattern of `slug` finds behind a comma of `error`. -/
def quoted (slug error : String) : Option String :=
  (searchAfter ',' isJsSpace (matchReason slug.toList) error.toList).map String.ofList

theorem findReason_eq (hslug : Plain slug.toList) (message : String) :
    findReason slug message =
      (search ',' isJsSpace (matchReason slug.toList) message.toList).map String.ofList := by
  rw [findReason, escapeSlug_plain hslug.bracket]

theorem findReason_own (hslug : Plain slug.toList) (hdollar : '$' ∉ slug.toList)
    (hreason : Worded reason.toList) :
    findReason slug (slug ++ ": " ++ reason) = some (String.ofList (untilComma reason.toList)) := by
  have hmatch : matchReason slug.toList (slug ++ ": " ++ reason).toList =
      some (untilComma reason.toList) := by
    have hplain : matchPlain (slug.toList ++ [':']) (slug ++ ": " ++ reason).toList =
        some (' ' :: reason.toList) := by
      have happend : matchPlain (slug.toList ++ [':'])
          (slug.toList ++ [':'] ++ ' ' :: reason.toList) = some (' ' :: reason.toList) :=
        matchPlain_append (by simpa using hdollar) _
      rw [toList_error, ← happend, List.append_assoc]
      rfl
    have hspace : (' ' :: reason.toList).dropWhile isJsSpace = reason.toList := by
      rw [List.dropWhile_cons, if_pos (by decide), hreason.starts]
    rw [matchReason, hplain, Option.bind_some, captureText, hspace, if_pos hreason.nonempty]
  rw [findReason_eq hslug, search, hmatch]
  rfl

theorem findReason_other (hslug : Plain slug.toList) (hother : Plain other.toList)
    (h : slug = other → '$' ∈ slug.toList) :
    findReason slug (other ++ ": " ++ reason) = quoted slug (other ++ ": " ++ reason) := by
  have hmatch : matchReason slug.toList (other ++ ": " ++ reason).toList = none := by
    unfold matchReason
    by_cases hdollar : '$' ∈ slug.toList
    · rw [matchPlain_dollar hdollar]
      rfl
    · cases hplain : matchPlain (slug.toList ++ [':']) (other ++ ": " ++ reason).toList with
      | none => rfl
      | some rest =>
        have heq := eq_append_of_matchPlain (by simpa using hdollar) hplain
        rw [toList_error, List.append_assoc] at heq
        have hslugs := (append_colon_inj hother.colon hslug.colon heq).1
        exact absurd (h (String.toList_injective hslugs.symm)) hdollar
  rw [findReason_eq hslug, search, hmatch, Option.none_or]
  rfl

theorem quoted_dollar (hdollar : '$' ∈ slug.toList) (error : String) :
    quoted slug error = none := by
  have hnone : ∀ cs, searchAfter ',' isJsSpace (matchReason slug.toList) cs = none := by
    intro cs
    induction cs with
    | nil => rfl
    | cons c cs ih =>
      rw [searchAfter, ih, matchReason, matchPlain_dollar hdollar]
      exact ite_self none
  rw [quoted, hnone]
  rfl

/-- The filter's comma and space keep the errors apart: the message is searched one error after
the other. -/
theorem findReason_message {error : HttpError} (hslug : Plain slug.toList)
    (hne : error.message ≠ [])
    (hstarts : ∀ e ∈ error.message, e.toList.dropWhile isJsSpace = e.toList) :
    findReason slug (resolveErrorMessage error) = error.message.findSome? (findReason slug) := by
  have hsearch : search ',' isJsSpace (matchReason slug.toList)
      ([',', ' '].intercalate (error.message.map String.toList)) =
      (error.message.map String.toList).findSome?
        (search ',' isJsSpace (matchReason slug.toList)) :=
    search_intercalate (by decide) (by decide) (matchReason_local hslug.comma)
      (by simpa using hne) (by simpa using hstarts)
  have hsep : ", ".toList = [',', ' '] := rfl
  rw [findReason_eq hslug, resolveErrorMessage, String.toList_intercalate, hsep, hsearch,
    List.findSome?_map, List.map_findSome?]
  exact congrArg error.message.findSome? (funext fun e => (findReason_eq hslug e).symm)

end OneError

/-! ### What the service reports -/

section Reports

variable {js : JsRuntime} {rule : FieldValidationRule} {slug : String}

/-- What tells the reasons of one field apart. -/
def head (reason : String) : List Char := reason.toList.take 10

/-- The heads of all reasons, in the order in which one field reports them. -/
def heads : List (List Char) :=
  ["is required", "must be a string", "must be an integer id", "must be at least ",
    "must not exceed ", "must be one of "].map head

/-- The errors are reasons under the slug, with some of these heads. -/
def Reports (slug : String) (hs : List (List Char)) (errors : List String) : Prop :=
  ∃ reasons : List String, errors = reasons.map (fun reason => slug ++ ": " ++ reason) ∧
    (reasons.map head).Sublist hs

theorem reports_nil (hs : List (List Char)) : Reports slug hs [] :=
  ⟨[], rfl, List.nil_sublist hs⟩

theorem reports_one {hs : List (List Char)} {reason : String} (h : head reason ∈ hs) :
    Reports slug hs [slug ++ ": " ++ reason] :=
  ⟨[reason], rfl, List.singleton_sublist.mpr h⟩

theorem Reports.append {hs hs' : List (List Char)} {errors errors' : List String}
    (h : Reports slug hs errors) (h' : Reports slug hs' errors') :
    Reports slug (hs ++ hs') (errors ++ errors') := by
  obtain ⟨reasons, rfl, hsub⟩ := h
  obtain ⟨reasons', rfl, hsub'⟩ := h'
  refine ⟨reasons ++ reasons', List.map_append.symm, ?_⟩
  rw [List.map_append]
  exact hsub.append hsub'

theorem Reports.mono {hs hs' : List (List Char)} {errors : List String}
    (h : Reports slug hs errors) (hsub : hs.Sublist hs') : Reports slug hs' errors := by
  obtain ⟨reasons, heq, hreasons⟩ := h
  exact ⟨reasons, heq, hreasons.trans hsub⟩

theorem head_append {start rest : String} (h : 10 ≤ start.toList.length) :
    head (start ++ rest) = head start := by
  rw [head, String.toList_append, List.take_append_of_le_length h]
  rfl

theorem head_append_append {start rest ending : String} (h : 10 ≤ start.toList.length) :
    head (start ++ rest ++ ending) = head start := by
  rw [String.append_assoc, head_append h]

theorem reports_if {start reason : String} {p : Prop} [Decidable p] (h : head reason = head start) :
    Reports slug [head start] (if p then [slug ++ ": " ++ reason] else []) := by
  split
  · exact reports_one (List.mem_singleton.mpr h)
  · exact reports_nil _

/-- A length is of a text and a bound of a number: one of the first two pairs is silent. -/
theorem checkFieldConstraints_reports (value : Json) :
    Reports rule.slug (heads.drop 3) (checkFieldConstraints js rule value) := by
  have henum (options : List Json) : Reports rule.slug [head "must be one of "]
      (if (options.any fun o => o.sameValueZero value) = true then []
        else [rule.slug ++ ": must be one of " ++ js.stringify options]) := by
    have htext : rule.slug ++ ": must be one of " ++ js.stringify options =
        rule.slug ++ ": " ++ ("must be one of " ++ js.stringify options) := by
      have hcolon : ": must be one of " = ": " ++ "must be one of " := rfl
      rw [hcolon]
      simp only [String.append_assoc]
    rw [← ite_not, htext]
    exact reports_if (head_append (by decide))
  unfold checkFieldConstraints
  cases value with
  | str s =>
    show Reports rule.slug ([head "must be at least "] ++ [head "must not exceed "] ++ [] ++ [] ++
      [head "must be one of "]) _
    refine ((((Reports.append ?_ ?_).append (reports_nil [])).append (reports_nil [])).append ?_)
    · cases rule.minLength with
      | none => exact reports_nil _
      | some bound => exact reports_if (head_append_append (by decide))
    · cases rule.maxLength with
      | none => exact reports_nil _
      | some bound => exact reports_if (head_append_append (by decide))
    · cases rule.enum with
      | none => exact reports_nil _
      | some options => exact henum options
  | num n =>
    show Reports rule.slug ([] ++ [] ++ [head "must be at least "] ++ [head "must not exceed "] ++
      [head "must be one of "]) _
    refine (((((reports_nil []).append (reports_nil [])).append ?_).append ?_).append ?_)
    · cases rule.min with
      | none => exact reports_nil _
      | some bound => exact reports_if (head_append (by decide))
    · cases rule.max with
      | none => exact reports_nil _
      | some bound => exact reports_if (head_append (by decide))
    · cases rule.enum with
      | none => exact reports_nil _
      | some options => exact henum options
  | _ =>
    have hsub : [head "must be one of "].Sublist (heads.drop 3) :=
      List.singleton_sublist.mpr (by decide)
    refine Reports.mono ?_ hsub
    show Reports rule.slug ([] ++ [] ++ [] ++ [] ++ [head "must be one of "]) _
    refine ((((reports_nil []).append (reports_nil [])).append (reports_nil [])).append
      (reports_nil [])).append ?_
    cases rule.enum with
    | none => exact reports_nil _
    | some options => exact henum options

theorem checkFieldType_head {value : Json} {typeError : String}
    (h : checkFieldType js rule value = some typeError) : head typeError ∈ heads := by
  unfold checkFieldType at h
  split at h
  all_goals try split at h
  all_goals cases h
  all_goals decide

theorem checkField_reports (data : List (String × Json)) (isPartial : Bool) :
    Reports rule.slug heads (checkField js data isPartial rule) := by
  have hrequired : Reports rule.slug heads [rule.slug ++ ": is required"] := by
    have hcolon : ": is required" = ": " ++ "is required" := rfl
    rw [hcolon, ← String.append_assoc]
    exact reports_one (by decide)
  unfold checkField
  split
  · split
    · exact hrequired
    · exact reports_nil _
  · split
    · exact hrequired
    · exact reports_nil _
  · split
    · rename_i typeError htype
      exact reports_one (checkFieldType_head htype)
    · exact (checkFieldConstraints_reports _).mono (List.drop_sublist 3 heads)

end Reports

/-! ### A list of errors that is thrown -/

/-- A reason that starts like one of the service. -/
structure Told (slug error reason : String) : Prop where
  error_eq : error = slug ++ ": " ++ reason
  slug_plain : Plain slug.toList
  head_mem : head reason ∈ heads

/-- What is known of the errors: their shape, and that no two of a field start alike. -/
structure Thrown (errors : List String) : Prop where
  ne_nil : errors ≠ []
  told : ∀ error ∈ errors, ∃ slug reason, Told slug error reason
  distinct : ∀ slug reason reason', Plain slug.toList → slug ++ ": " ++ reason ∈ errors →
    slug ++ ": " ++ reason' ∈ errors → head reason = head reason' → reason = reason'

section Heads

variable {reason : String} (h : head reason ∈ heads)
include h

theorem reason_eq_append :
    ∃ rest, reason.toList = head reason ++ rest ∧ (head reason).length = 10 := by
  have hlength : ∀ hd ∈ heads, hd.length = 10 := by decide
  exact ⟨reason.toList.drop 10, (List.take_append_drop 10 reason.toList).symm, hlength _ h⟩

theorem worded_of_head : Worded reason.toList := by
  have hfirst : ∀ hd ∈ heads,
      hd.head?.elim false (fun c => !isJsSpace c && c != ',') = true := by decide
  have hc := hfirst _ h
  obtain ⟨rest, heq, -⟩ := reason_eq_append h
  rw [heq]
  cases hhead : head reason with
  | nil =>
    rw [hhead] at hc
    cases hc
  | cons c cs =>
    rw [hhead, List.head?_cons, Option.elim_some, Bool.and_eq_true, Bool.not_eq_true',
      bne_iff_ne] at hc
    constructor
    · rw [List.cons_append, List.dropWhile_cons, hc.1]
      rfl
    · rw [untilComma, List.cons_append, List.takeWhile_cons, if_pos (by simpa using hc.2)]
      exact List.cons_ne_nil _ _

theorem head_untilComma : head (String.ofList (untilComma reason.toList)) = head reason := by
  have hcomma : (heads.all fun hd => hd.all fun c => decide (c ≠ ',')) = true := by decide
  have hplain := List.all_eq_true.mp (List.all_eq_true.mp hcomma _ h)
  obtain ⟨rest, heq, hlength⟩ := reason_eq_append h
  have huntil : untilComma reason.toList = head reason ++ untilComma rest := by
    rw [untilComma, heq, List.takeWhile_append_of_pos hplain]
    rfl
  rw [head, String.toList_ofList, huntil, List.take_left' hlength]

end Heads

section Schema

variable {js : JsRuntime} {db : TenantSchema} {tableId : Uuid}

theorem schema_fields : ((buildValidationSchema db tableId).fields.map Prod.fst).Nodup ∧
    ∀ kv ∈ (buildValidationSchema db tableId).fields, kv.1 = kv.2.slug ∧ kv.1 ≠ PROTO ∧
      ∃ f ∈ db.fieldsOf tableId, f.slug = kv.2.slug := by
  have hfold (rules : List FieldValidationRule) (own : List (String × FieldValidationRule))
      (hrules : ∀ rule ∈ rules, ∃ f ∈ db.fieldsOf tableId, f.slug = rule.slug)
      (hnodup : (own.map Prod.fst).Nodup)
      (hown : ∀ kv ∈ own, kv.1 = kv.2.slug ∧ kv.1 ≠ PROTO ∧
        ∃ f ∈ db.fieldsOf tableId, f.slug = kv.2.slug) :
      ((rules.foldl assignRule own).map Prod.fst).Nodup ∧ ∀ kv ∈ rules.foldl assignRule own,
        kv.1 = kv.2.slug ∧ kv.1 ≠ PROTO ∧ ∃ f ∈ db.fieldsOf tableId, f.slug = kv.2.slug := by
    induction rules generalizing own with
    | nil => exact ⟨hnodup, hown⟩
    | cons rule rules ih =>
      refine ih _ (fun r hr => hrules r (List.mem_cons_of_mem rule hr)) (nodup_assignRule hnodup) ?_
      intro kv hkv
      by_cases hproto : rule.slug = PROTO
      · have hassign : assignRule own rule = own := if_pos hproto
        rw [hassign] at hkv
        exact hown kv hkv
      · rcases FieldsObject.mem_assignRule hkv with hkv | rfl
        · exact hown kv hkv
        · exact ⟨rfl, hproto, hrules rule List.mem_cons_self⟩
  refine hfold _ [] ?_ List.nodup_nil fun kv hkv => absurd hkv List.not_mem_nil
  intro rule hrule
  obtain ⟨f, hf, rfl⟩ := List.mem_map.mp hrule
  exact ⟨f, hf, rfl⟩

theorem message_of_validate {schema : TableValidationSchema} {data : List (String × Json)}
    {isPartial : Bool} {error : HttpError}
    (h : validateRowPayload js schema data isPartial = .error error) :
    error.message = schema.fields.flatMap (fun kv => checkField js data isPartial kv.2) ∧
      error.message ≠ [] := by
  unfold validateRowPayload at h
  split at h
  · cases h
  · rename_i hne
    cases h
    exact ⟨rfl, hne⟩

/-- The errors of a payload of a table with accepted slugs. -/
theorem thrown_of_validate {data : List (String × Json)} {isPartial : Bool} {error : HttpError}
    (hslugs : ∀ f ∈ db.fieldsOf tableId, sanitizeIdentifier f.slug = .ok f.slug)
    (h : validateRowPayload js (buildValidationSchema db tableId) data isPartial = .error error) :
    Thrown error.message := by
  obtain ⟨hmessage, hne⟩ := message_of_validate h
  obtain ⟨hnodup, hfields⟩ := @schema_fields db tableId
  have hplain : ∀ kv ∈ (buildValidationSchema db tableId).fields, Plain kv.2.slug.toList := by
    intro kv hkv
    obtain ⟨-, -, f, hf, heq⟩ := hfields kv hkv
    exact heq ▸ plain_of_sanitized (hslugs f hf)
  refine ⟨hne, ?_, ?_⟩
  · intro e he
    rw [hmessage] at he
    obtain ⟨kv, hkv, he⟩ := List.mem_flatMap.mp he
    obtain ⟨reasons, heq, hsub⟩ := @checkField_reports js kv.2 data isPartial
    rw [heq] at he
    obtain ⟨reason, hreason, rfl⟩ := List.mem_map.mp he
    exact ⟨kv.2.slug, reason, rfl, hplain kv hkv, hsub.subset (List.mem_map_of_mem hreason)⟩
  · intro slug reason reason' hslug hmem hmem' hhead
    rw [hmessage] at hmem hmem'
    obtain ⟨kv, hkv, hmem⟩ := List.mem_flatMap.mp hmem
    obtain ⟨kv', hkv', hmem'⟩ := List.mem_flatMap.mp hmem'
    obtain ⟨reasons, heq, hsub⟩ := @checkField_reports js kv.2 data isPartial
    have hof {kv₂ : String × FieldValidationRule} {r : String}
        (hkv₂ : kv₂ ∈ (buildValidationSchema db tableId).fields)
        (hr : slug ++ ": " ++ r ∈ checkField js data isPartial kv₂.2) : slug = kv₂.1 := by
      obtain ⟨reasons, heq, -⟩ := @checkField_reports js kv₂.2 data isPartial
      rw [heq] at hr
      obtain ⟨r₂, -, hr₂⟩ := List.mem_map.mp hr
      rw [(hfields kv₂ hkv₂).1]
      exact (error_inj (hplain kv₂ hkv₂) hslug hr₂).1.symm
    obtain rfl : kv = kv' :=
      List.inj_on_of_nodup_map hnodup hkv hkv' ((hof hkv hmem).symm.trans (hof hkv' hmem'))
    rw [heq] at hmem hmem'
    obtain ⟨r, hr, hreq⟩ := List.mem_map.mp hmem
    obtain ⟨r', hr', hreq'⟩ := List.mem_map.mp hmem'
    obtain rfl := (error_inj (hplain kv hkv) hslug hreq).2
    obtain rfl := (error_inj (hplain kv hkv) hslug hreq').2
    exact List.inj_on_of_nodup_map (hsub.nodup (by decide)) hr hr' hhead

theorem not_reported_proto {data : List (String × Json)} {isPartial : Bool} {error : HttpError}
    (hslugs : ∀ f ∈ db.fieldsOf tableId, sanitizeIdentifier f.slug = .ok f.slug)
    (h : validateRowPayload js (buildValidationSchema db tableId) data isPartial = .error error)
    (hproto : Plain PROTO.toList) (reason : String) : PROTO ++ ": " ++ reason ∉ error.message := by
  intro hmem
  rw [(message_of_validate h).1] at hmem
  obtain ⟨kv, hkv, hmem⟩ := List.mem_flatMap.mp hmem
  obtain ⟨hkey, hne, f, hf, hslug⟩ := (@schema_fields db tableId).2 kv hkv
  obtain ⟨reasons, heq, -⟩ := @checkField_reports js kv.2 data isPartial
  rw [heq] at hmem
  obtain ⟨r, -, hr⟩ := List.mem_map.mp hmem
  have hplain : Plain kv.2.slug.toList := hslug ▸ plain_of_sanitized (hslugs f hf)
  exact hne (hkey.trans (error_inj hplain hproto hr).1)

end Schema

/-! ### What the form makes of it -/

/-- `error` is of the field `slug`. -/
def IsOf (slug error : String) : Prop := ∃ reason, error = slug ++ ": " ++ reason

/-- A field with an error is given one of its reasons, in full, and any other none. -/
structure Attributed (errors : List String) (result : String → Option String) (slug : String) :
    Prop where
  given : (∃ reason, slug ++ ": " ++ reason ∈ errors) →
    ∃ reason, slug ++ ": " ++ reason ∈ errors ∧ result slug = some reason
  silent : (∀ reason, slug ++ ": " ++ reason ∉ errors) → result slug = none

/-- When the joined errors can be told apart again for `slug`: nothing names it, or the first to
name it is an error of its own without a comma, or quotes, by chance, one of its reasons. -/
inductive Legible (errors : List String) (slug : String) : Prop
  | unnamed (h : ∀ e ∈ errors, ¬IsOf slug e ∧ quoted slug e = none)
  | own (before after : List String) (reason : String)
      (split : errors = before ++ (slug ++ ": " ++ reason) :: after)
      (first : ∀ e ∈ before, ¬IsOf slug e ∧ quoted slug e = none)
      (dollar : '$' ∉ slug.toList) (comma : ',' ∉ reason.toList)
  | chance (before after : List String) (other text : String)
      (split : errors = before ++ other :: after)
      (first : ∀ e ∈ before, ¬IsOf slug e ∧ quoted slug e = none)
      (notOf : ¬IsOf slug other) (quotes : quoted slug other = some text)
      (reported : slug ++ ": " ++ text ∈ errors)

theorem assignError_apply (message : String) (result : String → Option String)
    (slug name : String) :
    assignError message result slug name =
      if name = slug ∧ name ≠ PROTO then (findReason name message).or (result name)
      else result name := by
  unfold assignError
  cases hfind : findReason slug message with
  | none =>
    dsimp only
    split
    · rename_i hand
      rw [hand.1, hfind]
      rfl
    · rfl
  | some reason =>
    dsimp only
    by_cases hproto : slug = PROTO
    · rw [if_pos hproto, if_neg fun hand => hand.2 (hand.1.trans hproto)]
    · rw [if_neg hproto]
      by_cases hname : name = slug
      · rw [hname, Function.update_self, if_pos ⟨rfl, hproto⟩, hfind]
        rfl
      · rw [Function.update_of_ne hname, if_neg fun hand => hname hand.1]

theorem serverErrors_apply (message : String) (fields : List String) (name : String) :
    serverErrors message fields name =
      if name ∈ fields ∧ name ≠ PROTO then findReason name message else none := by
  have hfold (result : String → Option String) :
      fields.foldl (assignError message) result name =
        if name ∈ fields ∧ name ≠ PROTO then (findReason name message).or (result name)
        else result name := by
    induction fields generalizing result with
    | nil => rw [if_neg fun hand => List.not_mem_nil hand.1, List.foldl_nil]
    | cons slug fields ih =>
      rw [List.foldl_cons, ih, assignError_apply]
      by_cases hproto : name = PROTO
      · simp [hproto]
      · by_cases hslug : name = slug
        · subst hslug
          simp [hproto, ← Option.or_assoc]
        · simp [hslug, hproto]
  rw [serverErrors, hfold]
  split
  · exact Option.or_none
  · rfl

section Thrown

variable {errors : List String} {slug error : String}

theorem Thrown.findReason_notOf (h : Thrown errors) (hslug : Plain slug.toList)
    (hmem : error ∈ errors) (hnot : ¬IsOf slug error ∨ '$' ∈ slug.toList) :
    findReason slug error = quoted slug error := by
  obtain ⟨other, reason, rfl, hother, -⟩ := h.told error hmem
  refine findReason_other hslug hother ?_
  rintro rfl
  exact hnot.resolve_left fun hnot => hnot ⟨reason, rfl⟩

theorem Thrown.findReason_isOf (h : Thrown errors) (hslug : Plain slug.toList)
    (hdollar : '$' ∉ slug.toList) {reason : String} (hmem : slug ++ ": " ++ reason ∈ errors) :
    head reason ∈ heads ∧ findReason slug (slug ++ ": " ++ reason) =
      some (String.ofList (untilComma reason.toList)) := by
  obtain ⟨other, reason', heq, hother, hhead⟩ := h.told _ hmem
  obtain ⟨-, rfl⟩ := error_inj hslug hother heq
  exact ⟨hhead, findReason_own hslug hdollar (worded_of_head hhead)⟩

theorem Thrown.unnamed (h : Thrown errors) (hslug : Plain slug.toList) (hdollar : '$' ∉ slug.toList)
    (hmem : error ∈ errors) (hnone : findReason slug error = none) :
    ¬IsOf slug error ∧ quoted slug error = none := by
  have hnot : ¬IsOf slug error := by
    rintro ⟨reason, rfl⟩
    rw [(h.findReason_isOf hslug hdollar hmem).2] at hnone
    cases hnone
  exact ⟨hnot, (h.findReason_notOf hslug hmem (.inl hnot)).symm.trans hnone⟩

theorem legible_iff (h : Thrown errors) (hslug : Plain slug.toList)
    (result : String → Option String) (hresult : result slug = errors.findSome? (findReason slug)) :
    Attributed errors result slug ↔ Legible errors slug := by
  constructor
  · intro hattributed
    by_cases hreported : ∃ reason, slug ++ ": " ++ reason ∈ errors
    · obtain ⟨reason, hmem, hgiven⟩ := hattributed.given hreported
      rw [hresult] at hgiven
      obtain ⟨before, error, after, hsplit, hfound, hbefore⟩ := List.findSome?_eq_some_iff.mp hgiven
      have herror : error ∈ errors := by rw [hsplit]; simp
      have hdollar : '$' ∉ slug.toList := by
        intro hdollar
        rw [h.findReason_notOf hslug herror (.inr hdollar), quoted_dollar hdollar] at hfound
        cases hfound
      have hfirst : ∀ e ∈ before, ¬IsOf slug e ∧ quoted slug e = none := by
        intro e he
        refine h.unnamed hslug hdollar ?_ (hbefore e he)
        rw [hsplit]
        exact List.mem_append_left _ he
      by_cases hof : IsOf slug error
      · obtain ⟨reason', rfl⟩ := hof
        obtain ⟨hhead, hown⟩ := h.findReason_isOf hslug hdollar herror
        have htext := Option.some.inj (hown.symm.trans hfound)
        have hsame : reason' = reason := by
          refine h.distinct slug reason' reason hslug herror hmem ?_
          rw [← htext, head_untilComma hhead]
        have hall : untilComma reason'.toList = reason'.toList := by
          rw [← String.toList_ofList (l := untilComma reason'.toList), htext, hsame]
        refine .own before after reason' hsplit hfirst hdollar fun hcomma => ?_
        exact absurd (List.takeWhile_eq_self_iff.mp hall ',' hcomma) (by decide)
      · rw [h.findReason_notOf hslug herror (.inl hof)] at hfound
        exact .chance before after error reason hsplit hfirst hof hfound hmem
    · have hnone := hattributed.silent fun reason hmem => hreported ⟨reason, hmem⟩
      rw [hresult, List.findSome?_eq_none_iff] at hnone
      refine .unnamed fun e he => ?_
      have hnot : ¬IsOf slug e := by
        rintro ⟨reason, rfl⟩
        exact hreported ⟨reason, he⟩
      exact ⟨hnot, (h.findReason_notOf hslug he (.inl hnot)).symm.trans (hnone e he)⟩
  · have hskip {e : String} (he : e ∈ errors) (hunnamed : ¬IsOf slug e ∧ quoted slug e = none) :
        findReason slug e = none :=
      (h.findReason_notOf hslug he (.inl hunnamed.1)).trans hunnamed.2
    have hfound {before after : List String} {error reason : String}
        (hsplit : errors = before ++ error :: after)
        (hfirst : ∀ e ∈ before, ¬IsOf slug e ∧ quoted slug e = none)
        (herror : findReason slug error = some reason) : result slug = some reason := by
      rw [hresult, List.findSome?_eq_some_iff]
      refine ⟨before, error, after, hsplit, herror, fun e he => hskip ?_ (hfirst e he)⟩
      rw [hsplit]
      exact List.mem_append_left _ he
    intro hlegible
    cases hlegible with
    | unnamed hall =>
      have hnone : result slug = none := by
        rw [hresult, List.findSome?_eq_none_iff]
        exact fun e he => hskip he (hall e he)
      exact ⟨fun ⟨reason, hmem⟩ => absurd ⟨reason, rfl⟩ (hall _ hmem).1, fun _ => hnone⟩
    | own before after reason hsplit hfirst hdollar hcomma =>
      have hmem : slug ++ ": " ++ reason ∈ errors := by rw [hsplit]; simp
      have hwhole : String.ofList (untilComma reason.toList) = reason := by
        rw [untilComma, List.takeWhile_eq_self_iff.mpr, String.ofList_toList]
        exact fun c hc => decide_eq_true fun heq => hcomma (heq ▸ hc)
      have hgiven := hfound hsplit hfirst (h.findReason_isOf hslug hdollar hmem).2
      rw [hwhole] at hgiven
      exact ⟨fun _ => ⟨reason, hmem, hgiven⟩, fun hnone => absurd hmem (hnone reason)⟩
    | chance before after other text hsplit hfirst hnot hquotes hreported =>
      have hmem : other ∈ errors := by rw [hsplit]; simp
      have hgiven := hfound hsplit hfirst
        ((h.findReason_notOf hslug hmem (.inl hnot)).trans hquotes)
      exact ⟨fun _ => ⟨text, hreported, hgiven⟩, fun hnone => absurd hreported (hnone text)⟩

end Thrown

/-- The form shows the errors of a refused payload as they were thrown exactly if they are
legible for every field; `__proto__` never has one and is never given one. -/
theorem server_errors_survive {js : JsRuntime} {db : TenantSchema} {tableId : Uuid}
    {data : List (String × Json)} {isPartial : Bool} {error : HttpError}
    (hslugs : ∀ f ∈ db.fieldsOf tableId, sanitizeIdentifier f.slug = .ok f.slug)
    (h : validateRowPayload js (buildValidationSchema db tableId) data isPartial = .error error) :
    (∀ f ∈ db.fieldsOf tableId, Attributed error.message
        (serverErrors (resolveErrorMessage error) ((db.fieldsOf tableId).map MetaField.slug))
        f.slug) ↔
      ∀ f ∈ db.fieldsOf tableId, f.slug ≠ PROTO → Legible error.message f.slug := by
  have hthrown := thrown_of_validate hslugs h
  have hstarts : ∀ e ∈ error.message, e.toList.dropWhile isJsSpace = e.toList := by
    intro e he
    obtain ⟨slug, reason, rfl, hslug, -⟩ := hthrown.told e he
    rw [toList_error]
    cases hcs : slug.toList with
    | nil => exact absurd hcs hslug.ne_nil
    | cons c cs =>
      rw [List.cons_append, List.dropWhile_cons, hslug.space c (hcs ▸ List.mem_cons_self)]
      rfl
  refine forall₂_congr fun f hf => ?_
  have hslug := plain_of_sanitized (hslugs f hf)
  by_cases hproto : f.slug = PROTO
  · refine ⟨fun _ hne => absurd hproto hne, fun _ => ⟨?_, fun _ => ?_⟩⟩
    · rintro ⟨reason, hmem⟩
      rw [hproto] at hmem hslug
      exact absurd hmem (not_reported_proto hslugs h hslug reason)
    · rw [serverErrors_apply, if_neg fun hand => hand.2 hproto]
  · rw [legible_iff hthrown hslug]
    · exact ⟨fun hlegible _ => hlegible, fun hlegible => hlegible hproto⟩
    · rw [serverErrors_apply, if_pos ⟨List.mem_map_of_mem hf, hproto⟩,
        findReason_message hslug hthrown.ne_nil hstarts]

/-- A text without quotes in it, in JSON. -/
def printText : Json → String
  | .str s => "\"" ++ s ++ "\""
  | _ => "null"

/-- A runtime that prints arrays of such texts. -/
def textsRuntime : JsRuntime where
  dateParse _ := none
  numberToString _ := ""
  stringify xs := "[" ++ ",".intercalate (xs.map printText) ++ "]"

def oneField (field : MetaField) : TenantSchema where
  schema := "tenant_acme"
  tables := ∅
  metaTables := []
  metaFields := [field]
  metaMigrations := []

def statusField : MetaField where
  tableId := 1
  name := "Status"
  slug := "status"
  dataType := .SELECT
  required := true
  config := some (.obj [("enum", .arr [.str "a", .str "b"])])
  relationTargetTableId := none

/-- The error of a missing value is shown. -/
theorem server_errors_survive_required : ∃ error,
    validateRowPayload textsRuntime (buildValidationSchema (oneField statusField) 1) [] false =
      .error error ∧
    ∀ f ∈ (oneField statusField).fieldsOf 1, Attributed error.message
      (serverErrors (resolveErrorMessage error)
        (((oneField statusField).fieldsOf 1).map MetaField.slug)) f.slug := by
  have hthrown : validateRowPayload textsRuntime (buildValidationSchema (oneField statusField) 1) []
      false = .error (.badRequest "VALIDATION_ERROR" ["status: is required"]) := rfl
  refine ⟨_, hthrown, (server_errors_survive ?_ hthrown).mpr ?_⟩
  · intro f hf
    obtain rfl := List.mem_singleton.mp hf
    decide
  · intro f hf _
    obtain rfl := List.mem_singleton.mp hf
    exact .own [] [] "is required" rfl (fun e he => absurd he List.not_mem_nil) (by decide)
      (by decide)

/-- The options of a field are cut at their first comma. -/
theorem options_are_cut : ∃ error,
    (∀ f ∈ (oneField statusField).fieldsOf 1, sanitizeIdentifier f.slug = .ok f.slug) ∧
    validateRowPayload textsRuntime (buildValidationSchema (oneField statusField) 1)
      [("status", .str "c")] false = .error error ∧
    error.message = ["status: must be one of [\"a\",\"b\"]"] ∧
    serverErrors (resolveErrorMessage error) ["status"] "status" =
      some "must be one of [\"a\"" ∧
    ¬Attributed error.message (serverErrors (resolveErrorMessage error) ["status"]) "status" := by
  refine ⟨.badRequest "VALIDATION_ERROR" ["status: must be one of [\"a\",\"b\"]"],
    ?_, ?_, rfl, ?_, ?_⟩
  · intro f hf
    obtain rfl := List.mem_singleton.mp hf
    decide
  · rfl
  · decide +kernel
  · intro hattributed
    have hcut : serverErrors (resolveErrorMessage (.badRequest "VALIDATION_ERROR"
        ["status: must be one of [\"a\",\"b\"]"])) ["status"] "status" =
        some "must be one of [\"a\"" := by decide +kernel
    obtain ⟨reason, hmem, hgiven⟩ := hattributed.given
      ⟨"must be one of [\"a\",\"b\"]", List.mem_singleton.mpr rfl⟩
    rw [hcut] at hgiven
    obtain rfl := Option.some.inj hgiven
    revert hmem
    decide +kernel

end Flexi.Client
