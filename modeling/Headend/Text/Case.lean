/-!
# Upper and lower case

The case of letters, as far as it tells whether a text is some ASCII text. Beyond ASCII three
characters have an ASCII letter as their other case; all others stay as they are.
-/

namespace Headend

/-- Lower case. The Kelvin sign is the one character beyond ASCII that becomes ASCII. -/
def lowerCase (s : String) : String := s.map fun c => if c == '\u212a' then 'k' else c.toLower

/-- Upper case. The long s and the dotless i become ASCII. -/
def upperCase (s : String) : String :=
  s.map fun c => if c == '\u017f' then 'S' else if c == '\u0131' then 'I' else c.toUpper

end Headend
