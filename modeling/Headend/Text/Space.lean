/-!
# White space

White space as Unicode defines it.
-/

namespace Headend

def isWhiteSpace (c : Char) : Bool :=
  let n := c.toNat
  (0x9 ≤ n && n ≤ 0xd) || n == 0x20 || n == 0x85 || n == 0xa0 || n == 0x1680
    || (0x2000 ≤ n && n ≤ 0x200a) || n == 0x2028 || n == 0x2029 || n == 0x202f || n == 0x205f
    || n == 0x3000

def trimChars (cs : List Char) : List Char :=
  ((cs.dropWhile isWhiteSpace).reverse.dropWhile isWhiteSpace).reverse

/-- The text without white space at its ends. -/
def trimSpace (s : String) : String := String.ofList (trimChars s.toList)

def isBlank (s : String) : Bool := s.toList.all isWhiteSpace

/-- The words between white space. -/
def wordsOf : List Char → List Char → List (List Char)
  | word, [] => if word.isEmpty then [] else [word.reverse]
  | word, c :: cs =>
    if isWhiteSpace c then (if word.isEmpty then [] else [word.reverse]) ++ wordsOf [] cs
    else wordsOf (c :: word) cs

def words (s : String) : List String := (wordsOf [] s.toList).map String.ofList

end Headend
