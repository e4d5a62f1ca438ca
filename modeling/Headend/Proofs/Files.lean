import Mathlib.Data.List.Basic
import Headend.Files

/-!
# What a tree of files holds

A path is clear if nothing is there and nothing below it. It stays clear whatever is removed, and
whatever is made in directories that are there, as long as nobody makes the path itself.
-/

namespace Headend.Files

variable {fs fs' : Files} {p q d : Path} {n : Node}

theorem bind_eq_ok {ε α β : Type} {x : Except ε α} {f : α → Except ε β} {b : β} :
    x >>= f = .ok b ↔ ∃ a, x = .ok a ∧ f a = .ok b := by
  cases x <;> simp [bind, Except.bind]

/-! ## Nodes -/

theorem node?_of_ne_nil (hnamed : p ≠ []) : fs.node? p = fs.entries.lookup p := by
  rw [node?, if_neg (by simpa using hnamed)]

theorem ne_nil_of_node? (h : fs.node? p = none) : p ≠ [] := by
  rintro rfl
  cases h

theorem node?_put_self (h : fs.node? p = none) : (fs.put p n).node? p = some n := by
  have hnamed := ne_nil_of_node? h
  rw [node?_of_ne_nil hnamed] at h ⊢
  simp [put, List.lookup_append, h]

theorem node?_put_ne (hother : p ≠ q) : (fs.put q n).node? p = fs.node? p := by
  by_cases hnamed : p = []
  · rw [hnamed]
    rfl
  · rw [node?_of_ne_nil hnamed, node?_of_ne_nil hnamed]
    simp [put, List.lookup_append, List.lookup_cons, beq_eq_false_iff_ne.mpr hother]

theorem eq_put_of_putNew (hok : fs.putNew p n = .ok fs') :
    fs.node? p.dropLast = some .dir ∧ fs' = fs.put p n := by
  rw [putNew] at hok
  split at hok
  case h_5 hparent hfree =>
    cases hok
    exact ⟨hparent, rfl⟩
  all_goals cases hok

/-! ## Directories -/

theorem node?_makeChain {rest : Path} {name : String} (h : fs.node? (p ++ name :: rest) = none) :
    (fs.makeChain p (name :: rest)).node? (p ++ name :: rest) = some .dir := by
  induction rest generalizing fs p name with
  | nil => exact node?_put_self h
  | cons next rest ih =>
    rw [List.append_cons] at h ⊢
    refine ih ?_
    rw [node?_put_ne (by simp), h]

/-- A directory that was not there is there once it was made. -/
theorem node?_makeDirs {rest : Path} (hmade : fs.makeDirs p rest = .ok fs')
    (h : fs.node? (p ++ rest) = none) (hthere : fs.node? p = some .dir) :
    fs'.node? (p ++ rest) = some .dir := by
  induction rest generalizing p with
  | nil =>
    rw [List.append_nil, hthere] at h
    cases h
  | cons name rest ih =>
    rw [makeDirs] at hmade
    split at hmade
    case isTrue => cases hmade
    case isFalse =>
      split at hmade
      case h_1 hmissing =>
        split at hmade
        case isTrue => cases hmade
        case isFalse =>
          cases hmade
          exact node?_makeChain h
      case h_2 hthere =>
        rw [List.append_cons] at h ⊢
        exact ih hmade h hthere
      case h_3 => cases hmade

theorem node?_makePath (hmade : fs.makePath p = .ok fs') (h : fs.node? p = none) :
    fs'.node? p = some .dir := by
  obtain ⟨_, -, hmade⟩ := bind_eq_ok.mp hmade
  exact node?_makeDirs hmade h rfl

/-! ## Clear paths -/

/-- Nothing is at a path or below it. -/
def Clear (fs : Files) (d : Path) : Prop := ∀ e ∈ fs.entries, ¬ d <+: e.1

theorem Clear.node? (h : fs.Clear d) (hnamed : d ≠ []) (hbelow : d <+: p) : fs.node? p = none := by
  have hfurther : p ≠ [] := fun hempty => hnamed (List.prefix_nil.mp (hempty ▸ hbelow))
  rw [node?_of_ne_nil hfurther, List.lookup_eq_none_iff]
  intro e hmem
  have hother : p ≠ e.1 := by
    rintro rfl
    exact h e hmem hbelow
  simpa using hother

theorem clear_removeTree (fs : Files) (d : Path) : (fs.removeTree d).Clear d := by
  intro e hmem hbelow
  have hkept := (List.mem_filter.mp hmem).2
  rw [List.isPrefixOf_iff_prefix.mpr hbelow] at hkept
  cases hkept

theorem Clear.of_entries (h : fs.Clear d) (hfewer : ∀ e ∈ fs'.entries, e ∈ fs.entries) :
    fs'.Clear d :=
  fun e hmem => h e (hfewer e hmem)

theorem mem_of_mem_erase {e : Path × Node} (hmem : e ∈ (fs.erase p).entries) : e ∈ fs.entries :=
  List.mem_of_mem_filter hmem

theorem mem_of_mem_removeTree {e : Path × Node} (hmem : e ∈ (fs.removeTree p).entries) :
    e ∈ fs.entries :=
  List.mem_of_mem_filter hmem

/-- What is not there cannot get anything below it before it is made itself. -/
theorem Clear.putNew (h : fs.Clear d) (hnamed : d ≠ []) (hother : p ≠ d)
    (hok : fs.putNew p n = .ok fs') : fs'.Clear d := by
  obtain ⟨hparent, rfl⟩ := eq_put_of_putNew hok
  intro e hmem hbelow
  obtain hmem | hmem := List.mem_append.mp hmem
  · exact h e hmem hbelow
  · cases List.mem_singleton.mp hmem
    obtain ⟨rest, rfl⟩ := hbelow
    have hfurther : rest ≠ [] := by
      rintro rfl
      exact hother (List.append_nil d)
    rw [List.dropLast_append_of_ne_nil hfurther] at hparent
    rw [h.node? hnamed (List.prefix_append ..)] at hparent
    cases hparent

/-! ## Paths as text -/

/-- The directory that the names lead to, from the root. -/
def walk (fs : Files) (names : List String) : Except Fault Path := names.foldlM fs.enter []

theorem walk_concat (fs : Files) (names : List String) (name : String) :
    fs.walk (names ++ [name]) = fs.walk names >>= fun dir => fs.enter dir name := by
  rw [walk, List.foldlM_append]
  simp [walk]

/-- A slash at the end makes no difference. -/
theorem walk_concat_empty (fs : Files) (names : List String) :
    fs.walk (names ++ [""]) = fs.walk names := by
  rw [walk_concat]
  cases fs.walk names <;> rfl

theorem parts_slash (dir name : String) (hplain : '/' ∉ name.toList) :
    Path.parts (dir ++ "/" ++ name) = Path.parts dir ++ [name] := by
  have htext : (dir ++ "/" ++ name).toList = dir.toList ++ '/' :: name.toList := by simp
  rw [Path.parts, splitParts, htext, partsFrom_append, partsFrom_of_not_mem hplain, List.map_append]
  simp [Path.parts, splitParts]

theorem endsWith_iff {text ending : String} :
    text.endsWith ending = true ↔ ending.toList <:+ text.toList := by
  simpa using @String.Slice.endsWith_string_iff ending text.toSlice

theorem join_eq {dir name : String} (hthere : dir ≠ "") (hplain : '/' ∉ name.toList) :
    Path.join dir name = if dir.endsWith "/" then dir ++ name else dir ++ "/" ++ name := by
  have hrelative : name.startsWith "/" = false := by
    rw [Bool.eq_false_iff, Ne, String.startsWith_string_iff]
    exact fun hstart => hplain (hstart.subset (by simp))
  simp [Path.join, hrelative, String.isEmpty_iff, hthere]

/-- A name without slashes comes last in the path that it is joined to. -/
theorem parts_join (fs : Files) {dir name : String} (hthere : dir ≠ "")
    (hplain : '/' ∉ name.toList) :
    ∃ names, Path.parts (Path.join dir name) = names ++ [name] ∧
      fs.walk names = fs.walk (Path.parts dir) := by
  rw [join_eq hthere hplain]
  split
  case isTrue hslash =>
    obtain ⟨front, hsplit⟩ := endsWith_iff.mp hslash
    have htrimmed : dir = String.ofList front ++ "/" := by
      rw [← String.toList_inj]
      simpa using hsplit.symm
    refine ⟨Path.parts (String.ofList front), ?_, ?_⟩
    · rw [htrimmed, parts_slash _ _ hplain]
    · have hempty := parts_slash (String.ofList front) "" (by simp)
      rw [String.append_empty] at hempty
      rw [htrimmed, hempty, walk_concat_empty]
  case isFalse => exact ⟨_, parts_slash dir name hplain, rfl⟩

theorem permit_eq_ok {path : String} :
    permit path = .ok () ↔ '\x00' ∉ path.toList ∧ path.utf8ByteSize ≤ pathLimit := by
  rw [permit, String.contains_char_eq]
  split
  case isTrue hended => simp [of_decide_eq_true hended]
  case isFalse hopen_ =>
    split <;> simp_all

theorem permit_of_append {path rest : String} (h : permit (path ++ rest) = .ok ()) :
    permit path = .ok () := by
  obtain ⟨hwhole, hshort⟩ := permit_eq_ok.mp h
  rw [String.toList_append, List.mem_append, not_or] at hwhole
  rw [String.utf8ByteSize_append] at hshort
  exact permit_eq_ok.mpr ⟨hwhole.1, Nat.le_of_add_right_le hshort⟩

theorem parts_eq_concat (path : String) : ∃ names last, Path.parts path = names ++ [last] := by
  have hsome : Path.parts path ≠ [] := by
    intro h
    have hlength := length_partsFrom '/' [] path.toList
    rw [List.map_eq_nil_iff.mp h] at hlength
    cases hlength
  exact ⟨_, _, (List.dropLast_concat_getLast hsome).symm⟩

/-- Names that stand for a directory, whatever there is. -/
def IsSpecial (name : String) : Prop := name = "" ∨ name = "." ∨ name = ".."
  deriving Decidable

theorem locate_eq (fs : Files) {path : String} {names : List String} {last : String}
    (hthere : path ≠ "") (hparts : Path.parts path = names ++ [last]) : fs.locate path = (do
      permit path
      let dir ← fs.walk names
      if IsSpecial last then return (← fs.enter dir last, none)
      if nameLimit < last.utf8ByteSize then .error .nameTooLong else .ok (dir, some last)) := by
  simp [locate, hparts, hthere, walk, IsSpecial, or_assoc]
  rfl

theorem enter_of_plain {dir : Path} {name : String} (hplain : ¬ IsSpecial name) :
    fs.enter dir name = .ok d ↔
      name.utf8ByteSize ≤ nameLimit ∧ fs.node? (dir ++ [name]) = some .dir ∧ d = dir ++ [name] := by
  obtain ⟨hnamed, hdot, hdots⟩ := (not_or.mp hplain).imp_right not_or.mp
  simp only [enter, String.isEmpty_iff, hnamed, hdot, hdots, beq_iff_eq, Bool.or_eq_true, or_self,
    if_false]
  split
  case isTrue hlong => simp [Nat.not_le.mpr hlong]
  case isFalse hshort =>
    split
    case h_1 hmissing => simp [hmissing]
    case h_2 hthere => simp [hthere, Nat.not_lt.mp hshort, eq_comm]
    case h_3 hother hthere => simp_all

/-- What a path leads to: a directory on the way, or what has its last name there. -/
inductive Leads (fs : Files) (path : String) : Path → Node → Prop where
  | dir {names : List String} {last : String} {d : Path}
      (hparts : Path.parts path = names ++ [last]) (hspecial : IsSpecial last)
      (hwalked : fs.walk (names ++ [last]) = .ok d) : Leads fs path d .dir
  | child {names : List String} {last : String} {d : Path} {n : Node}
      (hparts : Path.parts path = names ++ [last]) (hplain : ¬ IsSpecial last)
      (hwalked : fs.walk names = .ok d) (hshort : last.utf8ByteSize ≤ nameLimit)
      (hthere : fs.node? (d ++ [last]) = some n) : Leads fs path (d ++ [last]) n

theorem leads_of_find {path : String} (hfound : fs.find path = .ok (p, n)) :
    permit path = .ok () ∧ path ≠ "" ∧ fs.Leads path p n := by
  have hthere : path ≠ "" := by
    rintro rfl
    have hallowed : permit "" = .ok () := permit_eq_ok.mpr ⟨by simp, by decide⟩
    rw [find, locate, hallowed] at hfound
    cases hfound
  obtain ⟨names, last, hsplit⟩ := parts_eq_concat path
  rw [find, locate_eq fs hthere hsplit, bind_eq_ok] at hfound
  obtain ⟨⟨d, last?⟩, hlocated, hfound⟩ := hfound
  obtain ⟨_, hallowed, hlocated⟩ := bind_eq_ok.mp hlocated
  obtain ⟨dir, hwalked, hlocated⟩ := bind_eq_ok.mp hlocated
  refine ⟨hallowed, hthere, ?_⟩
  by_cases hspecial : IsSpecial last
  · rw [if_pos hspecial] at hlocated
    obtain ⟨_, hentered, ⟨⟩⟩ := bind_eq_ok.mp hlocated
    cases hfound
    refine .dir hsplit hspecial ?_
    rw [walk_concat, hwalked]
    exact hentered
  · rw [if_neg hspecial] at hlocated
    split at hlocated
    case isTrue => cases hlocated
    case isFalse hshort =>
      cases hlocated
      cases hnode : fs.node? (d ++ [last]) <;> simp only [hnode] at hfound <;> cases hfound
      exact .child hsplit hspecial hwalked (Nat.not_lt.mp hshort) hnode

theorem Leads.find {path : String} (hleads : fs.Leads path p n) (hallowed : permit path = .ok ())
    (hthere : path ≠ "") : fs.find path = .ok (p, n) := by
  rw [Files.find]
  cases hleads with
  | dir hparts hspecial hwalked =>
    rw [walk_concat] at hwalked
    obtain ⟨dir, hfirst, hentered⟩ := bind_eq_ok.mp hwalked
    rw [locate_eq fs hthere hparts, hallowed, hfirst]
    simp only [bind, Except.bind, if_pos hspecial, hentered]
    rfl
  | child hparts hplain hwalked hshort hthere' =>
    rw [locate_eq fs hthere hparts, hallowed, hwalked]
    simp only [bind, Except.bind, if_neg hplain, if_neg (Nat.not_lt.mpr hshort), hthere']
    rfl

theorem find_eq_ok {path : String} :
    fs.find path = .ok (p, n) ↔ permit path = .ok () ∧ path ≠ "" ∧ fs.Leads path p n :=
  ⟨leads_of_find, fun ⟨hallowed, hthere, hleads⟩ => hleads.find hallowed hthere⟩

theorem leads_dir_iff {path : String} :
    fs.Leads path d .dir ↔ fs.walk (Path.parts path) = .ok d := by
  constructor
  · rintro (⟨hparts, hspecial, hwalked⟩ | ⟨hparts, hplain, hwalked, hshort, hthere⟩)
    · rw [hparts, hwalked]
    · rw [hparts, walk_concat, hwalked]
      exact (enter_of_plain hplain).mpr ⟨hshort, hthere, rfl⟩
  · intro hwalked
    obtain ⟨names, last, hsplit⟩ := parts_eq_concat path
    rw [hsplit] at hwalked
    by_cases hspecial : IsSpecial last
    · exact .dir hsplit hspecial hwalked
    · rw [walk_concat] at hwalked
      obtain ⟨dir, hfirst, hentered⟩ := bind_eq_ok.mp hwalked
      obtain ⟨hshort, hthere, rfl⟩ := (enter_of_plain hspecial).mp hentered
      exact .child hsplit hspecial hfirst hshort hthere

/-- What is found under a plain name in a directory is its child of that name. -/
theorem find_join {dir name : String} (hthere : dir ≠ "") (hplain : '/' ∉ name.toList)
    (hnamed : ¬ IsSpecial name) : fs.find (Path.join dir name) = .ok (p, n) ↔
      permit (Path.join dir name) = .ok () ∧ name.utf8ByteSize ≤ nameLimit ∧
      ∃ d, fs.find dir = .ok (d, .dir) ∧ p = d ++ [name] ∧ fs.node? p = some n := by
  obtain ⟨names, hparts, hwalks⟩ := parts_join fs hthere hplain
  obtain ⟨rest, hjoined⟩ : ∃ rest, Path.join dir name = dir ++ rest := by
    rw [join_eq hthere hplain]
    split
    case isTrue => exact ⟨name, rfl⟩
    case isFalse => exact ⟨"/" ++ name, String.append_assoc⟩
  have hwhole : Path.join dir name ≠ "" := by simp [hjoined, hthere]
  rw [find_eq_ok]
  constructor
  · rintro ⟨hallowed, -, hleads⟩
    have hsame {front : List String} {last : String}
        (hsplit : Path.parts (Path.join dir name) = front ++ [last]) :
        names = front ∧ name = last := by
      rw [hparts] at hsplit
      exact List.append_inj' hsplit rfl |>.imp_right fun h => by simpa using h
    refine ⟨hallowed, ?_⟩
    cases hleads with
    | dir hsplit hspecial =>
      obtain ⟨rfl, rfl⟩ := hsame hsplit
      exact absurd hspecial hnamed
    | child hsplit hplain hwalked hshort hthere' =>
      obtain ⟨rfl, rfl⟩ := hsame hsplit
      have hleads := leads_dir_iff.mpr (hwalks ▸ hwalked)
      have hfound := hleads.find (permit_of_append (hjoined ▸ hallowed)) hthere
      exact ⟨hshort, _, hfound, rfl, hthere'⟩
  · rintro ⟨hallowed, hshort, d, hfound, rfl, hthere'⟩
    refine ⟨hallowed, hwhole, .child hparts hnamed ?_ hshort hthere'⟩
    rw [hwalks]
    exact leads_dir_iff.mp (find_eq_ok.mp hfound).2.2

end Headend.Files
