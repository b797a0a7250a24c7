/-!
How much two words look alike.

Equal letters that stand close enough are paired off, each letter of the first
word with the first free one of the second. The similarity is the mean of three
ratios: the share of paired letters in either word, and the share of pairs that
are in order. It is compared as a fraction, so nothing is rounded.
-/

namespace Pseudocode.Text

/-- Takes the first free letter `c` at a position from `lo` to `hi`; `at_` is the
position of the first letter listed. -/
def takeLetter? (c : Char) (lo hi : Nat) (at_ : Nat) :
    List (Char × Bool) → Option (List (Char × Bool))
  | [] => none
  | (d, taken) :: rest =>
      if lo ≤ at_ && at_ ≤ hi && !taken && c == d then some ((d, true) :: rest)
      else (takeLetter? c lo hi (at_ + 1) rest).map ((d, taken) :: ·)

/-- Pairs the letters of a word, the first of which is at `at_`, with letters at
most `reach` positions away: the letters that found a partner, and the other
word with its partners marked. -/
def pairLetters (reach at_ : Nat) : List Char → List (Char × Bool) → List Char × List (Char × Bool)
  | [], other => ([], other)
  | c :: cs, other =>
      match takeLetter? c (at_ - reach) (at_ + reach) 0 other with
      | none => pairLetters reach (at_ + 1) cs other
      | some other =>
          let (paired, other) := pairLetters reach (at_ + 1) cs other
          (c :: paired, other)

/-- The number of positions at which two words differ. -/
def countDifferences (xs ys : List Char) : Nat := (xs.zip ys).countP fun p => p.1 != p.2

/-- How far apart letters may stand to be paired. -/
def pairingReach (m n : Nat) : Nat := max m n / 2 - 1

/-- The similarity of two words is at least seven tenths. -/
def areSimilar (first second : String) : Bool :=
  let xs := first.toList
  let ys := second.toList
  let m := xs.length
  let n := ys.length
  let (paired, marked) := pairLetters (pairingReach m n) 0 xs (ys.map (·, false))
  let pairs := paired.length
  let partners := (marked.filter Prod.snd).map Prod.fst
  let inOrder := pairs - countDifferences paired partners / 2
  0 < pairs && 21 * (m * n * pairs) ≤ 10 * (pairs * pairs * n + pairs * pairs * m + inOrder * (m * n))

end Pseudocode.Text
