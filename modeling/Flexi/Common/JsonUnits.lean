import Flexi.Common.Json
import Flexi.Library.Utf16

/-!
# JSON values with the strings of JavaScript

`JSON.parse` reads an escaped surrogate as it stands, so a string is a sequence of UTF-16
units. What leaves the process in UTF-8 is its well-formed text, in which U+FFFD stands for a
surrogate by itself.
-/

namespace Flexi
open Library

inductive JsonUnits where
  | null
  | bool (b : Bool)
  | num (n : JsNumber)
  | str (units : List UInt16)
  | arr (xs : List JsonUnits)
  | obj (fields : List (List UInt16 × JsonUnits))

/-- `String.prototype.toWellFormed`. -/
def wellFormedText (units : List UInt16) : String := String.ofList (Utf16.decode units)

def textUnits (s : String) : List UInt16 := Utf16.encode s.toList

theorem textUnits_eq_iff {s : String} {units : List UInt16} :
    textUnits s = units ↔ Utf16.wellFormed units = true ∧ s = wellFormedText units := by
  rw [textUnits, Utf16.encode_eq_iff, wellFormedText, ← String.toList_inj, String.toList_ofList]

theorem utf16Length_wellFormedText (units : List UInt16) :
    utf16Length (wellFormedText units) = units.length := by
  have hwidth (cs : List Char) : (Utf16.encode cs).length =
      (cs.map fun c => if c.toNat < 65536 then 1 else 2).sum := by
    induction cs with
    | nil => rfl
    | cons c cs ih =>
      rw [Utf16.encode_cons, List.length_append, ih, List.map_cons, List.sum_cons, Utf16.unitsOf]
      split <;> rfl
  rw [utf16Length, wellFormedText, String.toList_ofList, ← hwidth, Utf16.length_encode_decode]

namespace JsonUnits

mutual
/-- The value with its well-formed texts. -/
def toWellFormed : JsonUnits → Json
  | .null => .null
  | .bool b => .bool b
  | .num n => .num n
  | .str units => .str (wellFormedText units)
  | .arr xs => .arr (toWellFormedList xs)
  | .obj fields => .obj (toWellFormedFields fields)

def toWellFormedList : List JsonUnits → List Json
  | [] => []
  | x :: xs => x.toWellFormed :: toWellFormedList xs

def toWellFormedFields : List (List UInt16 × JsonUnits) → List (String × Json)
  | [] => []
  | (key, x) :: fields => (wellFormedText key, x.toWellFormed) :: toWellFormedFields fields
end

mutual
/-- In none of the strings, keys included, a surrogate stands alone. -/
def wellFormed : JsonUnits → Bool
  | .str units => Utf16.wellFormed units
  | .arr xs => wellFormedList xs
  | .obj fields => wellFormedFields fields
  | .null | .bool _ | .num _ => true

def wellFormedList : List JsonUnits → Bool
  | [] => true
  | x :: xs => x.wellFormed && wellFormedList xs

def wellFormedFields : List (List UInt16 × JsonUnits) → Bool
  | [] => true
  | (key, x) :: fields => Utf16.wellFormed key && x.wellFormed && wellFormedFields fields
end

end JsonUnits

namespace Json

mutual
def units : Json → JsonUnits
  | .null => .null
  | .bool b => .bool b
  | .num n => .num n
  | .str s => .str (textUnits s)
  | .arr xs => .arr (unitsOfList xs)
  | .obj fields => .obj (unitsOfFields fields)

def unitsOfList : List Json → List JsonUnits
  | [] => []
  | x :: xs => x.units :: unitsOfList xs

def unitsOfFields : List (String × Json) → List (List UInt16 × JsonUnits)
  | [] => []
  | (key, x) :: fields => (textUnits key, x.units) :: unitsOfFields fields
end

mutual
/-- A value in texts is the value in units when those are well formed and it has their texts. -/
theorem units_eq_iff : ∀ (v : Json) (u : JsonUnits),
    v.units = u ↔ u.wellFormed = true ∧ v = u.toWellFormed
  | .null, u => by cases u <;> simp [units, JsonUnits.wellFormed, JsonUnits.toWellFormed]
  | .bool b, u => by cases u <;> simp [units, JsonUnits.wellFormed, JsonUnits.toWellFormed]
  | .num n, u => by cases u <;> simp [units, JsonUnits.wellFormed, JsonUnits.toWellFormed]
  | .str s, u => by
    cases u <;> simp [units, JsonUnits.wellFormed, JsonUnits.toWellFormed, textUnits_eq_iff]
  | .arr xs, u => by
    cases u with
    | arr us => simp [units, JsonUnits.wellFormed, JsonUnits.toWellFormed, unitsOfList_eq_iff xs us]
    | _ => simp [units, JsonUnits.toWellFormed]
  | .obj fields, u => by
    cases u with
    | obj us =>
      simp [units, JsonUnits.wellFormed, JsonUnits.toWellFormed, unitsOfFields_eq_iff fields us]
    | _ => simp [units, JsonUnits.toWellFormed]

theorem unitsOfList_eq_iff : ∀ (xs : List Json) (us : List JsonUnits),
    unitsOfList xs = us ↔ JsonUnits.wellFormedList us = true ∧ xs = JsonUnits.toWellFormedList us
  | [], us => by
    cases us <;> simp [unitsOfList, JsonUnits.wellFormedList, JsonUnits.toWellFormedList]
  | x :: xs, us => by
    cases us with
    | nil => simp [unitsOfList, JsonUnits.toWellFormedList]
    | cons u us =>
      simp only [unitsOfList, JsonUnits.wellFormedList, JsonUnits.toWellFormedList, List.cons.injEq,
        Bool.and_eq_true, units_eq_iff x u, unitsOfList_eq_iff xs us]
      tauto

theorem unitsOfFields_eq_iff : ∀ (fields : List (String × Json))
    (us : List (List UInt16 × JsonUnits)), unitsOfFields fields = us ↔
      JsonUnits.wellFormedFields us = true ∧ fields = JsonUnits.toWellFormedFields us
  | [], us => by
    cases us <;> simp [unitsOfFields, JsonUnits.wellFormedFields, JsonUnits.toWellFormedFields]
  | (key, x) :: fields, us => by
    cases us with
    | nil => simp [unitsOfFields, JsonUnits.toWellFormedFields]
    | cons u us =>
      obtain ⟨key', u⟩ := u
      simp only [unitsOfFields, JsonUnits.wellFormedFields, JsonUnits.toWellFormedFields,
        List.cons.injEq, Prod.mk.injEq, Bool.and_eq_true, textUnits_eq_iff, units_eq_iff x u,
        unitsOfFields_eq_iff fields us]
      tauto
end

end Json

end Flexi
