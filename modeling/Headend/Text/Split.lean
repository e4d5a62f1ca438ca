/-!
# Splitting text

Text between separators. There is one part more than there are separators, and parts may be empty.
-/

namespace Headend

/-- The parts that follow, the first of which has begun and is held in reverse. -/
def partsFrom (sep : Char) : List Char → List Char → List (List Char)
  | part, [] => [part.reverse]
  | part, c :: cs =>
    if c = sep then part.reverse :: partsFrom sep [] cs else partsFrom sep (c :: part) cs

def splitParts (sep : Char) (s : String) : List String :=
  (partsFrom sep [] s.toList).map String.ofList

/-- The text before the first separator, and what comes after it if there is one. -/
def splitFirst (sep : Char) (s : String) : String × Option String :=
  let first := String.ofList (s.toList.takeWhile (· != sep))
  match s.toList.dropWhile (· != sep) with
  | [] => (first, none)
  | _ :: rest => (first, some (String.ofList rest))

theorem length_partsFrom (sep : Char) (part cs : List Char) :
    (partsFrom sep part cs).length = cs.count sep + 1 := by
  induction cs generalizing part with
  | nil => rfl
  | cons c cs ih =>
    by_cases h : c = sep <;> simp [partsFrom, h, ih]

theorem partsFrom_append (sep : Char) (part cs ds : List Char) :
    partsFrom sep part (cs ++ sep :: ds) = partsFrom sep part cs ++ partsFrom sep [] ds := by
  induction cs generalizing part with
  | nil => simp [partsFrom]
  | cons c cs ih =>
    by_cases h : c = sep <;> simp [partsFrom, h, ih]

theorem partsFrom_of_not_mem {sep : Char} {cs : List Char} (h : sep ∉ cs) (part : List Char) :
    partsFrom sep part cs = [part.reverse ++ cs] := by
  induction cs generalizing part with
  | nil => simp [partsFrom]
  | cons c cs ih =>
    obtain ⟨hother, hrest⟩ := List.ne_and_not_mem_of_not_mem_cons h
    rw [partsFrom, if_neg hother.symm, ih hrest, List.reverse_cons, List.append_assoc]
    rfl

end Headend
