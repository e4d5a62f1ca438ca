import Headend.Proofs.Ebml.Reader

/-!
# Trees of elements

A tree of elements is written from the inside out: the size of an element is known once its children
are written. Main statement: `nodes_encodeAll`, the reader gets the trees back.
-/

namespace Headend.Ebml

/-- Each value is got back from what was made of it. -/
theorem mapM_map_eq_some {α β : Type} {f : β → Option α} {g : α → β} {l : List α}
    (h : ∀ a ∈ l, f (g a) = some a) : (l.map g).mapM f = some l := by
  induction l with
  | nil => rfl
  | cons a l ih =>
    rw [List.map_cons, List.mapM_cons, h a List.mem_cons_self,
      ih fun b hb => h b (List.mem_cons_of_mem _ hb)]
    rfl

namespace Node

mutual

def encode : Node → Bytes
  | leaf id body => binary id body
  | parent id children => binary id (encodeAll children)

def encodeAll : List Node → Bytes
  | [] => []
  | n :: ns => n.encode ++ encodeAll ns

end

/-- The element, with all that is in it as its body. -/
def item : Node → Item
  | leaf id body => .element id body
  | parent id children => .element id (encodeAll children)

theorem encode_eq (n : Node) : n.encode = n.item.encode := by
  cases n <;> rfl

theorem encodeAll_eq (ns : List Node) : encodeAll ns = (ns.map item).flatMap Item.encode := by
  induction ns with
  | nil => rfl
  | cons n ns ih => rw [encodeAll, ih, encode_eq, List.map_cons, List.flatMap_cons]

/-- The elements that have children are those that `holds` names, on so many levels at most. -/
def Nests (holds : Id → Bool) : (depth : Nat) → Node → Prop
  | _, leaf id _ => id.Readable ∧ holds id = false
  | 0, parent _ _ => False
  | depth + 1, parent id children =>
    id.Readable ∧ holds id = true ∧ ∀ c ∈ children, c.Nests holds depth

variable {holds : Id → Bool} {depth : Nat} {n : Node} {ns : List Node}

theorem Nests.exists_item (h : n.Nests holds depth) :
    ∃ id body, n.item = .element id body ∧ id.Readable := by
  cases n with
  | leaf id body =>
    unfold Nests at h
    exact ⟨id, body, rfl, h.1⟩
  | parent id children =>
    cases depth with
    | zero => exact h.elim
    | succ depth => exact ⟨id, _, rfl, h.1⟩

theorem items_encodeAll (h : ∀ n ∈ ns, n.Nests holds depth)
    (hsize : (encodeAll ns).length < Vint.sizeLimit) :
    items (encodeAll ns) = some (ns.map item) := by
  rw [encodeAll_eq] at hsize ⊢
  refine items_flatMap_encode (Item.readable_of_length (fun t ht => ?_) hsize)
  obtain ⟨n, hn, rfl⟩ := List.mem_map.1 ht
  exact (h n hn).exists_item

theorem length_encodeAll_le {id : Id} {children : List Node} (h : parent id children ∈ ns) :
    (encodeAll children).length ≤ (encodeAll ns).length := by
  rw [encodeAll_eq ns]
  have hmem := Item.length_encode_le_of_mem (List.mem_map_of_mem (f := item) h)
  exact Nat.le_trans (Item.length_body_le id (encodeAll children)) hmem

end Node

/-- Whatever trees are written, the reader gets them back. By induction on the levels: the children
of an element are what its body is read as. -/
theorem nodes_encodeAll {holds : Id → Bool} {depth : Nat} {ns : List Node}
    (h : ∀ n ∈ ns, n.Nests holds depth) (hsize : (Node.encodeAll ns).length < Vint.sizeLimit) :
    nodes holds (depth + 1) (Node.encodeAll ns) = some ns := by
  induction depth generalizing ns with
  | zero =>
    rw [nodes, Node.items_encodeAll h hsize]
    refine mapM_map_eq_some fun n hn => ?_
    cases n with
    | leaf id body =>
      obtain ⟨-, hvalue⟩ := h _ hn
      simp only [Node.item, hvalue, Bool.false_eq_true, if_false]
    | parent id children => exact (h _ hn).elim
  | succ depth ih =>
    rw [nodes, Node.items_encodeAll h hsize]
    refine mapM_map_eq_some fun n hn => ?_
    cases n with
    | leaf id body =>
      obtain ⟨-, hvalue⟩ := h _ hn
      simp only [Node.item, hvalue, Bool.false_eq_true, if_false]
    | parent id children =>
      obtain ⟨-, hholds, hchildren⟩ := h _ hn
      have hfits := Nat.lt_of_le_of_lt (Node.length_encodeAll_le hn) hsize
      simp only [Node.item, hholds, if_true, ih hchildren hfits, Option.map_some]

end Headend.Ebml
