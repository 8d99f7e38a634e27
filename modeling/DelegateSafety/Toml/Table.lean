import DelegateSafety.Json.Value

/-! # Tables under construction

A table may be stated by a header of its own, be implied by the header of a table inside, or come
from a key with dots. Each allows other things to be added, and nothing is ever overwritten.
-/
namespace DelegateSafety.Toml

inductive Origin where
  | stated | implied | dotted

inductive Node where
  /-- A value that nothing can be added to. -/
  | value (v : Json)
  | table (origin : Origin) (members : List (String × Node))
  /-- Tables with one header, the latest first. -/
  | tables (elements : List (List (String × Node)))

abbrev Members := List (String × Node)

namespace Members

/-- Gives a key a node, in the place of the one it has. -/
def put (key : String) (node : Node) : Members → Members
  | [] => [(key, node)]
  | (k, n) :: rest => if k = key then (key, node) :: rest else (k, n) :: put key node rest

/-- Assigns a value to a key with dots. The table with the last part must come from such a key
too. -/
def assign (v : Json) : List String → Members → Option Members
  | [], _ => none
  | [key], members =>
    if (members.lookup key).isSome then none else some (members ++ [(key, .value v)])
  | key :: next :: rest, members =>
    match members.lookup key with
    | none => (assign v (next :: rest) []).map fun inner => put key (.table .dotted inner) members
    | some (.table .dotted inner) =>
      (assign v (next :: rest) inner).map fun inner => put key (.table .dotted inner) members
    | some (.table .implied inner) =>
      if rest.isEmpty then none
      else (assign v (next :: rest) inner).map fun inner => put key (.table .implied inner) members
    | some (.tables (inner :: older)) =>
      if rest.isEmpty then none
      else (assign v (next :: rest) inner).map fun inner =>
        put key (.tables (inner :: older)) members
    | some _ => none

/-- Changes the node of a header. -/
def enter (change : Option Node → Option Node) : List String → Members → Option Members
  | [], _ => none
  | [key], members => (change (members.lookup key)).map (put key · members)
  | key :: next :: rest, members =>
    match members.lookup key with
    | none => (enter change (next :: rest) []).map fun inner =>
      put key (.table .implied inner) members
    | some (.table origin inner) => (enter change (next :: rest) inner).map fun inner =>
      put key (.table origin inner) members
    | some (.tables (inner :: older)) => (enter change (next :: rest) inner).map fun inner =>
      put key (.tables (inner :: older)) members
    | some _ => none

end Members

namespace Node

/-- A table with a header of its own. -/
def stated? : Option Node → Option Node
  | none => some (.table .stated [])
  | some (.table .implied members) => some (.table .stated members)
  | some _ => none

/-- One more table with the same header. -/
def element? : Option Node → Option Node
  | none => some (.tables [[]])
  | some (.tables elements) => some (.tables ([] :: elements))
  | some _ => none

/-- The table of the latest header with one more assignment. -/
def assigned? (path : List String) (v : Json) : Option Node → Option Node
  | some (.table origin members) => (Members.assign v path members).map (.table origin)
  | some (.tables (members :: older)) =>
    (Members.assign v path members).map fun members => .tables (members :: older)
  | _ => none

mutual

def toJson : Node → Json
  | value v => v
  | table _ members => .object (membersJson members)
  | tables elements => .array (elementsJson elements).reverse

def membersJson : List (String × Node) → List (String × Json)
  | [] => []
  | (key, node) :: rest => (key, toJson node) :: membersJson rest

def elementsJson : List (List (String × Node)) → List Json
  | [] => []
  | members :: rest => .object (membersJson members) :: elementsJson rest

end

end Node

end DelegateSafety.Toml
