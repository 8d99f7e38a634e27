/-! # JSON values

Members keep their order and may repeat a key. Integers that fit 64 bits, signed or not, are told
apart from all other numbers. `unreadable` stands for text that follows the grammar and still names
no value: a string with half of a surrogate pair, or a number beyond every double.
-/
namespace DelegateSafety

inductive Json where
  | null
  | bool (value : Bool)
  | integer (value : Int)
  | real (spelling : String)
  | string (value : String)
  | array (items : List Json)
  | object (members : List (String × Json))
  | unreadable

namespace Json

def ofNat (n : Nat) : Json := integer n

def ofOption (f : α → Json) (value : Option α) : Json := value.elim null f

def ofStrings (values : List String) : Json := array (values.map string)

mutual

/-- All of a value has a meaning. -/
def isReadable : Json → Bool
  | array items => allReadable items
  | object members => membersReadable members
  | unreadable => false
  | null | bool _ | integer _ | real _ | string _ => true

def allReadable : List Json → Bool
  | [] => true
  | item :: rest => isReadable item && allReadable rest

def membersReadable : List (String × Json) → Bool
  | [] => true
  | (_, value) :: rest => isReadable value && membersReadable rest

end

mutual

/-- How many arrays and objects are open at once. -/
def nesting : Json → Nat
  | array items => nestingOfAll items + 1
  | object members => nestingOfMembers members + 1
  | unreadable | null | bool _ | integer _ | real _ | string _ => 0

def nestingOfAll : List Json → Nat
  | [] => 0
  | item :: rest => max (nesting item) (nestingOfAll rest)

def nestingOfMembers : List (String × Json) → Nat
  | [] => 0
  | (_, value) :: rest => max (nesting value) (nestingOfMembers rest)

end

/-- Whether a value can be kept where so many arrays and objects may still be opened. -/
def isKeepable (depth : Nat) (j : Json) : Bool := j.isReadable && j.nesting ≤ depth

end Json

end DelegateSafety
