/-!
A heap that adjusts itself: every merge swaps the two sides of the nodes on its way. `elements`
lists what the heap holds, and an `Ordered` heap has at its root an element that comes after none
of the others. The main statements: merging loses and invents nothing (`elements_merge`) and keeps
the order (`ordered_merge`), and so does leaving out elements (`elements_filter`,
`ordered_filter`).
-/

namespace Billiard

/-- A binary tree whose root is meant to be its first element. -/
inductive Heap (α : Type) where
  | empty
  | node (root : α) (left right : Heap α)
deriving Repr

namespace Heap

variable {α : Type} (notAfter : α → α → Bool)

/-- All elements, the root first. -/
def elements : Heap α → List α
  | .empty => []
  | .node root left right => root :: (left.elements ++ right.elements)

/-- How many elements there are. -/
def size : Heap α → Nat
  | .empty => 0
  | .node _ left right => left.size + right.size + 1

/-- Merges a tree into another one, given how to merge the first one's right side. -/
def mergeNode (root : α) (left right : Heap α) (mergeRight : Heap α → Heap α) : Heap α → Heap α
  | .empty => .node root left right
  | .node root' left' right' =>
    if notAfter root root' then .node root (mergeRight (.node root' left' right')) left
    else .node root' (mergeNode root left right mergeRight right') left'

/-- Both heaps in one. -/
def merge : Heap α → Heap α → Heap α
  | .empty, other => other
  | .node root left right, other => mergeNode notAfter root left right (merge right) other

/-- Adds an element. -/
def insert (x : α) (heap : Heap α) : Heap α := merge notAfter (.node x .empty .empty) heap

/-- The first element. -/
def root? : Heap α → Option α
  | .empty => none
  | .node root _ _ => some root

/-- The first element and the heap without it. -/
def pop? : Heap α → Option (α × Heap α)
  | .empty => none
  | .node root left right => some (root, merge notAfter left right)

/-- The heap without the elements that `keep` refuses. -/
def filter (keep : α → Bool) : Heap α → Heap α
  | .empty => .empty
  | .node root left right =>
    if keep root then .node root (left.filter keep) (right.filter keep)
    else merge notAfter (left.filter keep) (right.filter keep)

/-- The elements in order. -/
def toList : Heap α → List α
  | .empty => []
  | .node root left right => root :: List.merge left.toList right.toList notAfter

/-- No element comes after one below it. -/
def Ordered : Heap α → Prop
  | .empty => True
  | .node root left right =>
    (∀ x ∈ left.elements ++ right.elements, notAfter root x) ∧ Ordered left ∧ Ordered right

variable {notAfter}

theorem size_eq_length (heap : Heap α) : heap.size = heap.elements.length := by
  induction heap with
  | empty => rfl
  | node root left right ihLeft ihRight => simp [size, elements, ihLeft, ihRight]

theorem elements_mergeNode {root : α} {left right : Heap α} {mergeRight : Heap α → Heap α}
    (merges : ∀ other, (mergeRight other).elements.Perm (right.elements ++ other.elements))
    (other : Heap α) :
    (mergeNode notAfter root left right mergeRight other).elements.Perm
      ((Heap.node root left right).elements ++ other.elements) := by
  induction other with
  | empty => simp [mergeNode, elements]
  | node root' left' right' _ ihRight =>
    unfold mergeNode
    split
    · refine List.Perm.cons root ?_
      refine List.perm_append_comm.trans ?_
      refine List.Perm.trans ?_ (List.Perm.of_eq (List.append_assoc ..).symm)
      exact List.Perm.append_left _ (merges _)
    · refine (List.Perm.cons root' ((ihRight.append_right left'.elements))).trans ?_
      refine List.Perm.trans ?_ List.perm_middle.symm
      refine List.Perm.cons root' ?_
      rw [List.append_assoc]
      exact List.Perm.append_left _ List.perm_append_comm

/-- Merging loses and invents nothing. -/
theorem elements_merge (heap other : Heap α) :
    (merge notAfter heap other).elements.Perm (heap.elements ++ other.elements) := by
  induction heap generalizing other with
  | empty => exact List.Perm.refl _
  | node root left right _ ihRight => exact elements_mergeNode ihRight other

theorem elements_insert (x : α) (heap : Heap α) :
    (insert notAfter x heap).elements.Perm (x :: heap.elements) :=
  elements_merge _ heap

theorem ordered_mergeNode
    (total : ∀ a b, notAfter a b ∨ notAfter b a)
    (passes : ∀ {a b c}, notAfter a b → notAfter b c → notAfter a c)
    {root : α} {left right : Heap α} {mergeRight : Heap α → Heap α}
    (merges : ∀ other, (mergeRight other).elements.Perm (right.elements ++ other.elements))
    (keeps : ∀ other, Ordered notAfter other → Ordered notAfter (mergeRight other))
    (ordered : Ordered notAfter (.node root left right))
    (other : Heap α) (ordered' : Ordered notAfter other) :
    Ordered notAfter (mergeNode notAfter root left right mergeRight other) := by
  induction other with
  | empty => exact ordered
  | node root' left' right' _ ihRight =>
    unfold mergeNode
    split
    · next first =>
      refine ⟨?_, keeps _ ordered', ordered.2.1⟩
      intro x member
      rcases List.mem_append.1 member with member | member
      · rcases List.mem_append.1 ((merges _).mem_iff.1 member) with member | member
        · exact ordered.1 x (by simp [member])
        · rcases List.mem_cons.1 member with same | member
          · exact same ▸ first
          · exact passes first (ordered'.1 x member)
      · exact ordered.1 x (by simp [member])
    · next second =>
      have first : notAfter root' root := (total root root').resolve_left second
      refine ⟨?_, ihRight ordered'.2.2, ordered'.2.1⟩
      intro x member
      rcases List.mem_append.1 member with member | member
      · rcases List.mem_append.1 ((elements_mergeNode merges right').mem_iff.1 member)
          with member | member
        · rcases List.mem_cons.1 member with same | member
          · exact same ▸ first
          · exact passes first (ordered.1 x member)
        · exact ordered'.1 x (by simp [member])
      · exact ordered'.1 x (by simp [member])

/-- Merging keeps the order. -/
theorem ordered_merge
    (total : ∀ a b, notAfter a b ∨ notAfter b a)
    (passes : ∀ {a b c}, notAfter a b → notAfter b c → notAfter a c)
    {heap other : Heap α} (ordered : Ordered notAfter heap) (ordered' : Ordered notAfter other) :
    Ordered notAfter (merge notAfter heap other) := by
  induction heap generalizing other with
  | empty => exact ordered'
  | node root left right _ ihRight =>
    exact ordered_mergeNode total passes (elements_merge right)
      (fun other => ihRight ordered.2.2) ordered other ordered'

theorem ordered_insert
    (total : ∀ a b, notAfter a b ∨ notAfter b a)
    (passes : ∀ {a b c}, notAfter a b → notAfter b c → notAfter a c)
    {heap : Heap α} (ordered : Ordered notAfter heap) (x : α) :
    Ordered notAfter (insert notAfter x heap) :=
  ordered_merge total passes ⟨by simp [elements], trivial, trivial⟩ ordered

/-- What `filter` leaves is what `keep` accepts. -/
theorem elements_filter (keep : α → Bool) (heap : Heap α) :
    (filter notAfter keep heap).elements.Perm (heap.elements.filter keep) := by
  induction heap with
  | empty => exact List.Perm.refl _
  | node root left right ihLeft ihRight =>
    unfold filter
    have both := ihLeft.append ihRight
    split
    · next kept => simpa [elements, kept] using both
    · next refused =>
      simpa [elements, refused] using (elements_merge _ _).trans both

/-- Leaving out elements keeps the order. -/
theorem ordered_filter
    (total : ∀ a b, notAfter a b ∨ notAfter b a)
    (passes : ∀ {a b c}, notAfter a b → notAfter b c → notAfter a c)
    (keep : α → Bool) {heap : Heap α} (ordered : Ordered notAfter heap) :
    Ordered notAfter (filter notAfter keep heap) := by
  induction heap with
  | empty => trivial
  | node root left right ihLeft ihRight =>
    unfold filter
    split
    · refine ⟨?_, ihLeft ordered.2.1, ihRight ordered.2.2⟩
      intro x member
      refine ordered.1 x ?_
      rcases List.mem_append.1 member with member | member
      · have := (elements_filter keep left).mem_iff.1 member
        exact List.mem_append_left _ ((List.mem_filter.1 this).1)
      · have := (elements_filter keep right).mem_iff.1 member
        exact List.mem_append_right _ ((List.mem_filter.1 this).1)
    · exact ordered_merge total passes (ihLeft ordered.2.1) (ihRight ordered.2.2)

/-- The list in order holds the same elements. -/
theorem toList_perm (heap : Heap α) : (toList notAfter heap).Perm heap.elements := by
  induction heap with
  | empty => exact List.Perm.refl _
  | node root left right ihLeft ihRight =>
    exact List.Perm.cons root ((List.merge_perm_append _).trans (ihLeft.append ihRight))

/-- The list of an ordered heap is in order. -/
theorem pairwise_toList
    (total : ∀ a b, notAfter a b ∨ notAfter b a)
    (passes : ∀ {a b c}, notAfter a b → notAfter b c → notAfter a c)
    {heap : Heap α} (ordered : Ordered notAfter heap) :
    (toList notAfter heap).Pairwise fun a b => notAfter a b := by
  induction heap with
  | empty => exact List.Pairwise.nil
  | node root left right ihLeft ihRight =>
    refine List.Pairwise.cons ?_ ?_
    · intro x member
      rcases List.mem_merge.1 member with member | member
      · exact ordered.1 x (List.mem_append_left _ ((toList_perm left).mem_iff.1 member))
      · exact ordered.1 x (List.mem_append_right _ ((toList_perm right).mem_iff.1 member))
    · have eitherWay : ∀ a b, (notAfter a b || notAfter b a) = true :=
        fun a b => (Bool.or_eq_true ..).mpr (total a b)
      exact @List.pairwise_merge _ notAfter (fun _ _ _ => passes) eitherWay _ _
        (ihLeft ordered.2.1) (ihRight ordered.2.2)

end Heap

end Billiard
