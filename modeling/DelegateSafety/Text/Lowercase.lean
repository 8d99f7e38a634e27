import DelegateSafety.Text.CaseTable

/-! # Lowercasing

Full lowercasing without regard to language. The one letter that looks around itself is capital
sigma: at the end of a word it becomes `ς`, elsewhere `σ`.
-/
namespace DelegateSafety

def inRanges (ranges : List (Nat × Nat)) (c : Char) : Bool :=
  ranges.any fun (first, last) => first ≤ c.toNat && c.toNat ≤ last

def lowercaseChar (c : Char) : List Char :=
  if c.toNat < 128 then [c.toLower]
  else if c = 'İ' then ['i', '\u0307']
  else
    let run? := CaseTable.lowercase.find? fun (first, last, step, _) =>
      first ≤ c.toNat && c.toNat ≤ last && (c.toNat - first) % step == 0
    match run? with
    | some (_, _, _, shift) => [Char.ofNat (c.toNat + shift).toNat]
    | none => [c]

/-- Whether the next character that counts is a letter with case. -/
def leadsToLetter (cs : List Char) : Bool :=
  (cs.dropWhile (inRanges CaseTable.ignorable)).head?.any (inRanges CaseTable.cased)

/-- Lowercases what follows the characters `before`, which come nearest first. -/
def lowercaseAfter (before : List Char) : List Char → List Char
  | [] => []
  | c :: rest =>
    let lowered :=
      if c = 'Σ' then
        if leadsToLetter before && !leadsToLetter rest then ['ς'] else ['σ']
      else lowercaseChar c
    lowered ++ lowercaseAfter (c :: before) rest

def lowercase (s : String) : String := String.ofList (lowercaseAfter [] s.toList)

end DelegateSafety
