import Flexi.Common.Json

/-!
# Values of any type

What a `catch` receives or a configuration holds, as `typeof` tells values apart.
-/

namespace Flexi

/-- A number is `none` when it is `NaN`; `other` is a function, a symbol or a
bigint. An object has its properties and whether it is an instance of the class the
code asks for. -/
inductive JsValue where
  | undefined
  | null
  | boolean (b : Bool)
  | number (n : Option JsNumber)
  | string (s : String)
  | object (known : Bool) (properties : List (String × JsValue))
  | other

namespace JsValue

/-- The value of a property, when there is one to read. -/
def property : JsValue → String → JsValue
  | object _ properties, name =>
    match properties.find? fun entry => entry.1 == name with
    | some entry => entry.2
    | none => undefined
  | _, _ => undefined

/-- `value === s` -/
def isString (s : String) : JsValue → Bool
  | string t => t == s
  | _ => false

/-- `String(value)` of a string or a number. -/
def text? (numberToString : JsNumber → String) : JsValue → Option String
  | string s => some s
  | number (some n) => some (numberToString n)
  | number none => some "NaN"
  | _ => none

theorem text?_of_isString (numberToString : JsNumber → String) {s : String} {value : JsValue}
    (h : value.isString s = true) : value.text? numberToString = some s := by
  cases value with
  | string t =>
    have ht : t = s := by simpa [isString] using h
    rw [ht]
    rfl
  | undefined => cases h
  | null => cases h
  | boolean b => cases h
  | number n => cases h
  | object known properties => cases h
  | other => cases h

end JsValue

end Flexi
