import Headend.Net.Punycode
import Headend.Text.Alphanumeric
import Headend.Text.Hidden
import Headend.Text.Mark
import Headend.Text.Split

/-!
# Domain names

Names of hosts, with the characters of any script. Letters may have any case or width, and what does
not show is left out; after that a name may hold no character that would be mistaken for another
part of an address. A label in Punycode has to be what it stands for.
-/

namespace Headend.Net.Domain

/-! ## Characters -/

/-- ASCII characters that no name holds. -/
def isForbidden (c : Char) : Bool :=
  c ≤ ' ' || c == '\x7f' || "%#/:<>?@[\\]^|".contains c

/-- Characters that are left out. -/
def isIgnored (c : Char) : Bool :=
  [(0xad, 0xad), (0x34f, 0x34f), (0x180b, 0x180d), (0x180f, 0x180f), (0x200b, 0x200b),
    (0x2060, 0x2060), (0x2064, 0x2064), (0xfe00, 0xfe0f), (0xfeff, 0xfeff), (0x1bca0, 0x1bca3),
    (0xe0100, 0xe01ef)].any fun (lo, hi) => lo ≤ c.toNat && c.toNat ≤ hi

def isJoiner (c : Char) : Bool := c.toNat == 0x200c || c.toNat == 0x200d

/-- Characters that show and are no part of names all the same, most of them because they stand for
a character next to a space or a stop. -/
def excluded : List (Nat × Nat) := [
  (0xa8, 0xa8), (0xaf, 0xaf), (0xb4, 0xb4), (0xb8, 0xb8), (0x2d8, 0x2dd), (0x37a, 0x37a),
  (0x384, 0x385), (0x1806, 0x1806), (0x1fbd, 0x1fbd), (0x1fbf, 0x1fc1), (0x1fcd, 0x1fcf),
  (0x1fdd, 0x1fdf), (0x1fed, 0x1fee), (0x1ffd, 0x1ffe), (0x2017, 0x2017), (0x2024, 0x2026),
  (0x203e, 0x203e), (0x2047, 0x2049), (0x2100, 0x2101), (0x2105, 0x2106), (0x2488, 0x249b),
  (0x2a74, 0x2a74), (0x2ff0, 0x2ffb), (0x309b, 0x309c), (0x33c2, 0x33c2), (0x33c7, 0x33c7),
  (0x33d8, 0x33d8), (0xfc5e, 0xfc63), (0xfdfa, 0xfdfb), (0xfe12, 0xfe13), (0xfe16, 0xfe16),
  (0xfe19, 0xfe19), (0xfe30, 0xfe30), (0xfe47, 0xfe4c), (0xfe52, 0xfe52), (0xfe55, 0xfe56),
  (0xfe5f, 0xfe5f), (0xfe64, 0xfe65), (0xfe68, 0xfe68), (0xfe6a, 0xfe6b), (0xfe70, 0xfe70),
  (0xfe72, 0xfe72), (0xfe74, 0xfe74), (0xfe76, 0xfe76), (0xfe78, 0xfe78), (0xfe7a, 0xfe7a),
  (0xfe7c, 0xfe7c), (0xfe7e, 0xfe7e), (0xffe3, 0xffe3), (0xfffc, 0xfffd), (0x1f100, 0x1f100)]

def isAllowed (c : Char) : Bool :=
  if c.toNat < 0x80 then !isForbidden c
  else isJoiner c || isMark c || !((Quote.hidden ++ excluded).any fun (lo, hi) =>
    lo ≤ c.toNat && c.toNat ≤ hi)

/-- The form of a character in a name: lower case for the letters of ASCII, and ASCII for the full
width. -/
def fold (c : Char) : Char :=
  if [0x3002, 0xff61].contains c.toNat then '.'
  else if 0xff01 ≤ c.toNat && c.toNat ≤ 0xff5e then (Char.ofNat (c.toNat - 0xfee0)).toLower
  else c.toLower

/-! ## Directions -/

/-- What a character does to the direction of writing. -/
inductive Course where
  | left
  | right
  | number
  | arabicNumber
  | mark
  | neutral
  deriving Repr, DecidableEq

def isWithin (c : Char) (ranges : List (Nat × Nat)) : Bool :=
  ranges.any fun (lo, hi) => lo ≤ c.toNat && c.toNat ≤ hi

def courseOf (c : Char) : Course :=
  if isMark c then .mark
  else if c.isDigit || isWithin c [(0x6f0, 0x6f9)] then .number
  else if isWithin c [(0x600, 0x605), (0x660, 0x669), (0x66b, 0x66c), (0x6dd, 0x6dd),
      (0x890, 0x891), (0x8e2, 0x8e2), (0x10d30, 0x10d39), (0x10e60, 0x10e7e)] then .arabicNumber
  else if isWithin c [(0x5be, 0x5ff), (0x608, 0x8ff), (0xfb1d, 0xfdff), (0xfe70, 0xfefc),
      (0x10800, 0x10fff), (0x1e800, 0x1efff)] && isAlphanumeric c then .right
  else if isAlphanumeric c then .left
  else .neutral

def runsRight (c : Char) : Bool := courseOf c == .right || courseOf c == .arabicNumber

/-- Whether a label can be read in one direction only, when there are labels that run to the right
of their beginning and others that do not. -/
def isOneWay (label : List Char) : Bool :=
  let courses := label.map courseOf
  let last := (courses.reverse.dropWhile (· == .mark)).head?
  match courses with
  | [] => true
  | .right :: _ =>
    !courses.contains .left && !(courses.contains .number && courses.contains .arabicNumber)
      && last.any [.right, .number, .arabicNumber].contains
  | .left :: _ =>
    !courses.contains .right && !courses.contains .arabicNumber
      && last.any [.left, .number].contains
  | _ => false

/-! ## Labels -/

/-- Marks that join the letters around them. -/
def joiningMarks : List Nat := [
  0x94d, 0x9cd, 0xa4d, 0xacd, 0xb4d, 0xbcd, 0xc4d, 0xccd, 0xd3b, 0xd3c, 0xd4d, 0xdca, 0xe3a, 0xeba,
  0xf84, 0x1039, 0x103a, 0x1714, 0x1734, 0x17d2, 0x1a60, 0x1b44, 0x1baa, 0x1bab, 0x1bf2, 0x1bf3,
  0x2d7f, 0xa806, 0xa8c4, 0xa953, 0xa9c0, 0xaaf6, 0xabed]

/-- Joiners stand after such a mark only. -/
def areJoined : List Char → Bool
  | c :: d :: cs => (!isJoiner d || joiningMarks.contains c.toNat) && areJoined (d :: cs)
  | _ => true

def isProper (label : List Char) : Bool :=
  label.all isAllowed && !label.head?.any (fun c => isMark c || isJoiner c) && areJoined label

/-- What a label stands for. -/
def label? (label : List Char) : Option (List Char) :=
  match label with
  | 'x' :: 'n' :: '-' :: '-' :: code =>
    (Punycode.decode code).filter fun cs =>
      isProper cs && cs.any (fun c => 0x80 ≤ c.toNat)
        && cs.all fun c => fold c == c && !isIgnored c && c != '.'
  | _ => if isProper label then some label else none

/-- The labels of a name. -/
def labels? (name : String) : Option (List (List Char)) := do
  let cs := (name.toList.filter fun c => !isIgnored c).map fold
  let labels ← (partsFrom '.' [] cs).mapM label?
  if !labels.any (·.any runsRight) || labels.all isOneWay then return labels else none

end Headend.Net.Domain
