import DelegateSafety.Json.Value
import DelegateSafety.Text.Digits

/-! # Taking JSON apart

How a structure, a choice between names and a tagged choice are written in JSON. `depth` is the
number of arrays and objects that may still be opened. A value whose shape depends on a tag has to
be read as a whole first; inside of such a value (`whole`) tags may also be given by number.
-/
namespace DelegateSafety.Json

structure Place where
  depth : Nat
  whole : Bool

/-- The place of the parts of an array or object. -/
def Place.inside? (place : Place) : Option Place :=
  match place.depth with
  | 0 => none
  | depth + 1 => some { place with depth }

/-- The value of a key: `none` if the key is repeated, `some none` if it is absent. -/
def member? (members : List (String × Json)) (key : String) : Option (Option Json) :=
  match members.filter (·.1 == key) with
  | [] => some none
  | [(_, value)] => some (some value)
  | _ => none

/-- The fields of a structure. An object has them by name and in any order, next to others that do
not count; an array has them by position and may stop early. -/
def fields? (names : List String) : Json → Option (List (Option Json))
  | object members => names.mapM (member? members)
  | array items =>
    if items.length ≤ names.length then
      some (items.map some ++ List.replicate (names.length - items.length) none)
    else none
  | _ => none

def required {α : Type} (decode : Json → Option α) (value : Option Json) : Option α :=
  value.bind decode

def orElse {α : Type} (default : α) (decode : Json → Option α) : Option Json → Option α
  | none => some default
  | some value => decode value

def nullable {α : Type} (decode : Json → Option α) : Json → Option (Option α)
  | null => some none
  | value => (decode value).map some

def string? : Json → Option String
  | string value => some value
  | _ => none

def bool? : Json → Option Bool
  | bool value => some value
  | _ => none

def nat? : Json → Option Nat
  | integer value => if 0 ≤ value then some value.toNat else none
  | _ => none

def uint32? : Json → Option UInt32
  | integer value =>
    if 0 ≤ value ∧ value < wordSize 32 then some (UInt32.ofNat value.toNat) else none
  | _ => none

def int64? : Json → Option Int64
  | integer value =>
    if -wordSize 63 ≤ value ∧ value < wordSize 63 then some (Int64.ofInt value) else none
  | _ => none

def list? {α : Type} (decode : Place → Json → Option α) (place : Place) : Json → Option (List α)
  | array items => place.inside?.bind fun inside => items.mapM (decode inside)
  | _ => none

/-- A choice between names, written as the name or as an object with the name as its only key. -/
def choice? {α : Type} (names : List (String × α)) (place : Place) : Json → Option α
  | string name => names.lookup name
  | object [(name, null)] => if place.depth = 0 then none else names.lookup name
  | object [(name, object [])] =>
    if place.whole && place.depth != 0 then names.lookup name else none
  | _ => none

def tag? (names : List String) (whole : Bool) : Json → Option String
  | string name => if names.contains name then some name else none
  | integer i => if whole && 0 ≤ i then names[i.toNat]? else none
  | _ => none

/-- What a tag stands for. -/
def tagMeaning? {α : Type} (meanings : List (String × α)) (whole : Bool) (tag : Json) : Option α :=
  (tag? (meanings.map (·.1)) whole tag).bind (meanings.lookup ·)

/-- A tagged choice, `kind` being its tag: the tag's name and the rest, which has the fields. -/
def tagged? (names : List String) (place : Place) : Json → Option (String × Json)
  | object members =>
    if place.whole || (object members).isKeepable place.depth then do
      let tag ← (member? members "kind").bind (required (tag? names place.whole))
      some (tag, object members)
    else none
  | array (first :: rest) =>
    if place.whole || (array (first :: rest)).isKeepable place.depth then
      (tag? names place.whole first).map (·, array rest)
    else none
  | _ => none

end DelegateSafety.Json
