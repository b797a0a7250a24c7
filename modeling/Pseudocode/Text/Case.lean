import Pseudocode.Text.CaseTable

/-!
Upper and lower case of texts, by the full Unicode mappings: one character may
become several, and a capital sigma at the end of a word has a lower case form
of its own.
-/

namespace Pseudocode.Text

/-- Membership in a table of inclusive ranges. -/
def inRanges (table : Array (Nat × Nat)) (c : Char) : Bool :=
  table.any fun r => r.1 ≤ c.toNat && c.toNat ≤ r.2

def isCased (c : Char) : Bool := inRanges casedRanges c

def isCaseIgnorable (c : Char) : Bool := inRanges caseIgnorableRanges c

/-- The image of a character under a table of expansions and a table of runs. -/
def caseImage (expansions : List (Nat × List Nat)) (runs : Array CaseRun) (c : Char) : List Char :=
  match expansions.lookup c.toNat with
  | some codes => codes.map Char.ofNat
  | none => match runs.findSome? fun r => r.image? c.toNat with
    | some code => [Char.ofNat code]
    | none => [c]

/-- The full upper case mapping of one character. -/
def upperChar (c : Char) : List Char := caseImage upperExpansions upperRuns c

/-- The full lower case mapping of one character, its surroundings ignored. -/
def lowerChar (c : Char) : List Char := caseImage lowerExpansions lowerRuns c

/-- The first character that is not case-ignorable is cased. -/
def leadsToCased (cs : List Char) : Bool :=
  match cs.dropWhile isCaseIgnorable with
  | [] => false
  | c :: _ => isCased c

/-- Lower case of what follows `before` (given in reverse): a capital sigma that
ends a word, that is, with a cased letter before it and none after it, becomes
the final form. -/
def lowerAfter : List Char → List Char → List Char
  | _, [] => []
  | before, c :: rest =>
      let image :=
        if c = 'Σ' then [if leadsToCased before && !leadsToCased rest then 'ς' else 'σ']
        else lowerChar c
      image ++ lowerAfter (c :: before) rest

/-- The text in upper case. -/
def upper (s : String) : String := String.ofList (s.toList.flatMap upperChar)

/-- The text in lower case. -/
def lower (s : String) : String := String.ofList (lowerAfter [] s.toList)

end Pseudocode.Text
