import Mathlib.Algebra.GroupWithZero.Nat
import Mathlib.Data.Rat.Defs
import Mathlib.Tactic.DeriveFintype

/-!
# JSON values as JavaScript sees them

`JSON.parse` never yields `NaN`, but it does yield an infinity for a literal
past the double range, so a number is a rational or an infinity. A finite
double is the rational it denotes.
-/

namespace Flexi

inductive JsNumber where
  | finite (q : ℚ)
  | infinite (negative : Bool)
  deriving DecidableEq

namespace JsNumber

/-- The `<` operator of JavaScript. -/
def lt : JsNumber → JsNumber → Bool
  | .finite a, .finite b => decide (a < b)
  | .finite _, .infinite neg => !neg
  | .infinite neg, .finite _ => neg
  | .infinite a, .infinite b => a && !b

/-- `Number.isInteger`. -/
def isInteger : JsNumber → Bool
  | .finite q => q.den == 1
  | .infinite _ => false

end JsNumber

inductive Json where
  | null
  | bool (b : Bool)
  | num (n : JsNumber)
  | str (s : String)
  | arr (xs : List Json)
  | obj (fields : List (String × Json))

namespace Json

/-- `hasOwnProperty` followed by the property read; arrays and primitives have
none of the keys this code looks up. -/
def get? : Json → String → Option Json
  | .obj fields, key => (fields.find? fun kv => kv.1 == key).map (·.2)
  | _, _ => none

/-- The comparison of `Array.prototype.includes` on parsed values: primitives
by value, two parsed objects never. -/
def sameValueZero : Json → Json → Bool
  | .null, .null => true
  | .bool a, .bool b => a == b
  | .num a, .num b => decide (a = b)
  | .str a, .str b => a == b
  | _, _ => false

end Json

/-- `String.prototype.length`: UTF-16 code units. -/
def utf16Length (s : String) : ℕ :=
  (s.toList.map fun c => if c.toNat < 65536 then 1 else 2).sum

/-- Parts of the JavaScript runtime whose result this development never needs
to compute: date parsing and the two ways a value is printed into a message. -/
structure JsRuntime where
  /-- `Date.parse`, `none` for `NaN`. -/
  dateParse : String → Option ℚ
  /-- A number inside a template literal. -/
  numberToString : JsNumber → String
  /-- `JSON.stringify` of an array. -/
  stringify : List Json → String

end Flexi
