import EntityFlow.Tree.Basic

/-!
# The nodes of a tree

All nodes of a tree in the order of the source, a node before its parts. Statements about nodes at
any depth are statements about the members of `Node.subtrees`. `Node.postorder` has the same nodes,
each after its parts.
-/

namespace EntityFlow.Node

mutual

/-- A node and all nodes below it. -/
def subtrees : Node → List Node
  | ⟨k, text, span, parts⟩ => ⟨k, text, span, parts⟩ :: subtreesOf parts

/-- Some nodes and all nodes below them. -/
def subtreesOf : List Node → List Node
  | [] => []
  | n :: rest => n.subtrees ++ subtreesOf rest

end

theorem subtrees_eq (n : Node) : n.subtrees = n :: subtreesOf n.children := by
  cases n
  rw [subtrees]

@[simp] theorem subtreesOf_nil : subtreesOf [] = [] := by rw [subtreesOf]

@[simp] theorem subtreesOf_cons (n : Node) (rest : List Node) :
    subtreesOf (n :: rest) = n.subtrees ++ subtreesOf rest := by rw [subtreesOf]

@[simp] theorem subtreesOf_append (ms ns : List Node) :
    subtreesOf (ms ++ ns) = subtreesOf ms ++ subtreesOf ns := by
  induction ms with
  | nil => simp
  | cons m ms ih => simp [ih]

theorem mem_subtreesOf {m : Node} {ns : List Node} :
    m ∈ subtreesOf ns ↔ ∃ n ∈ ns, m ∈ n.subtrees := by
  induction ns with
  | nil => simp
  | cons n rest ih => simp [ih]

theorem self_mem_subtrees (n : Node) : n ∈ n.subtrees := by
  rw [subtrees_eq]
  exact List.mem_cons_self

theorem mem_subtrees_of_below {m n : Node} (below : m ∈ subtreesOf n.children) :
    m ∈ n.subtrees := by
  rw [subtrees_eq]
  exact List.mem_cons_of_mem _ below

/-- Among some nodes and the nodes below them are the nodes themselves. -/
theorem mem_subtreesOf_self {n : Node} {ns : List Node} (member : n ∈ ns) : n ∈ subtreesOf ns :=
  mem_subtreesOf.mpr ⟨n, member, n.self_mem_subtrees⟩

theorem mem_subtrees_of_part {m n : Node} (isPart : m ∈ n.children) : m ∈ n.subtrees :=
  mem_subtrees_of_below (mem_subtreesOf_self isPart)

theorem forall_mem_subtrees {p : Node → Prop} {n : Node} :
    (∀ m ∈ n.subtrees, p m) ↔ p n ∧ ∀ m ∈ subtreesOf n.children, p m := by
  rw [subtrees_eq, List.forall_mem_cons]

theorem forall_mem_subtreesOf_singleton {p : Node → Prop} {n : Node} :
    (∀ m ∈ subtreesOf [n], p m) ↔ p n ∧ ∀ m ∈ subtreesOf n.children, p m := by
  rw [subtreesOf_cons, subtreesOf_nil, List.append_nil, forall_mem_subtrees]

theorem forall_mem_subtreesOf_append {p : Node → Prop} {ms ns : List Node} :
    (∀ m ∈ subtreesOf (ms ++ ns), p m) ↔
      (∀ m ∈ subtreesOf ms, p m) ∧ ∀ m ∈ subtreesOf ns, p m := by
  rw [subtreesOf_append, List.forall_mem_append]

mutual

/-- A node below another one is a part of a node there. -/
theorem mem_subtrees_cases {m : Node} :
    (n : Node) → m ∈ n.subtrees → m = n ∨ ∃ p ∈ n.subtrees, m ∈ p.children
  | ⟨k, text, span, parts⟩, member => by
      rw [subtrees_eq] at member ⊢
      rcases List.mem_cons.mp member with equal | member
      · exact Or.inl equal
      · rcases mem_subtreesOf_cases parts member with member | ⟨p, inner, member⟩
        · exact Or.inr ⟨_, List.mem_cons_self, member⟩
        · exact Or.inr ⟨p, List.mem_cons_of_mem _ inner, member⟩

theorem mem_subtreesOf_cases {m : Node} :
    (ns : List Node) → m ∈ subtreesOf ns → m ∈ ns ∨ ∃ p ∈ subtreesOf ns, m ∈ p.children
  | [], member => by
      rw [subtreesOf_nil] at member
      cases member
  | n :: rest, member => by
      rw [subtreesOf_cons] at member ⊢
      rcases List.mem_append.mp member with member | member
      · rcases mem_subtrees_cases n member with rfl | ⟨p, inner, member⟩
        · exact Or.inl List.mem_cons_self
        · exact Or.inr ⟨p, List.mem_append_left _ inner, member⟩
      · rcases mem_subtreesOf_cases rest member with member | ⟨p, inner, member⟩
        · exact Or.inl (List.mem_cons_of_mem _ member)
        · exact Or.inr ⟨p, List.mem_append_right _ inner, member⟩

end

/-- The nodes below fewer nodes are fewer. -/
theorem subtreesOf_subset {ms ns : List Node} (subset : ms ⊆ ns) :
    subtreesOf ms ⊆ subtreesOf ns := by
  intro m member
  obtain ⟨n, inner, below⟩ := mem_subtreesOf.mp member
  exact mem_subtreesOf.mpr ⟨n, subset inner, below⟩

theorem getLast?_toList_subset (ns : List Node) : ns.getLast?.toList ⊆ ns := by
  intro n member
  exact List.mem_of_getLast? (Option.mem_toList.mp member)

mutual

/-- The nodes below a node that is below another one are below that one, too. -/
theorem subtrees_subset {m : Node} : (n : Node) → m ∈ n.subtrees → m.subtrees ⊆ n.subtrees
  | ⟨k, text, span, parts⟩, member => by
      rw [subtrees_eq ⟨k, text, span, parts⟩] at member
      rcases List.mem_cons.mp member with rfl | member
      · exact List.Subset.refl _
      · intro x below
        exact mem_subtrees_of_below (subtreesOf_subset_of_mem parts member below)

theorem subtreesOf_subset_of_mem {m : Node} :
    (ns : List Node) → m ∈ subtreesOf ns → m.subtrees ⊆ subtreesOf ns
  | [], member => by
      rw [subtreesOf_nil] at member
      cases member
  | n :: rest, member => by
      rw [subtreesOf_cons] at member ⊢
      rcases List.mem_append.mp member with member | member
      · exact List.subset_append_of_subset_left _ (subtrees_subset n member)
      · exact List.subset_append_of_subset_right _ (subtreesOf_subset_of_mem rest member)

end

/-! ## Properties of all nodes -/

/-- A property of a node and of all nodes below it. -/
def Everywhere (p : Node → Prop) (n : Node) : Prop := ∀ m ∈ n.subtrees, p m

theorem Everywhere.here {p : Node → Prop} {n : Node} (all : n.Everywhere p) : p n :=
  all n n.self_mem_subtrees

theorem Everywhere.part {p : Node → Prop} {n part : Node} (all : n.Everywhere p)
    (member : part ∈ n.children) : part.Everywhere p := by
  intro m below
  exact all m (mem_subtrees_of_below (mem_subtreesOf.mpr ⟨part, member, below⟩))

/-! ## Properties that parts take over -/

mutual

/-- A property that parts take over from the node that they are parts of holds of all nodes below,
too. -/
theorem forall_subtrees_of_step {p : Node → Prop} :
    (n : Node) → p n → (∀ m ∈ n.subtrees, p m → ∀ part ∈ m.children, p part) →
      ∀ m ∈ n.subtrees, p m
  | ⟨k, text, span, parts⟩, top, step => by
      rw [forall_mem_subtrees]
      refine ⟨top, forall_subtreesOf_of_step parts ?_ ?_⟩
      · exact step _ (self_mem_subtrees _) top
      · intro m member
        exact step m (mem_subtrees_of_below member)

theorem forall_subtreesOf_of_step {p : Node → Prop} :
    (ns : List Node) → (∀ n ∈ ns, p n) →
      (∀ m ∈ subtreesOf ns, p m → ∀ part ∈ m.children, p part) → ∀ m ∈ subtreesOf ns, p m
  | [], _, _ => by
      intro m member
      rw [subtreesOf_nil] at member
      cases member
  | n :: rest, top, step => by
      rw [subtreesOf_cons, List.forall_mem_append] at step ⊢
      obtain ⟨stepFirst, stepRest⟩ := step
      exact ⟨forall_subtrees_of_step n (top n List.mem_cons_self) stepFirst,
        forall_subtreesOf_of_step rest (fun m member => top m (List.mem_cons_of_mem _ member))
          stepRest⟩

end

/-! ## Parts first -/

mutual

/-- All nodes below a node, each after its parts, and the node itself. -/
def postorder : Node → List Node
  | ⟨k, text, span, parts⟩ => postorderOf parts ++ [⟨k, text, span, parts⟩]

/-- Some nodes and all nodes below them, each after its parts. -/
def postorderOf : List Node → List Node
  | [] => []
  | n :: rest => n.postorder ++ postorderOf rest

end

theorem postorder_eq (n : Node) : n.postorder = postorderOf n.children ++ [n] := by
  cases n
  rw [postorder]

@[simp] theorem postorderOf_nil : postorderOf [] = [] := by rw [postorderOf]

@[simp] theorem postorderOf_cons (n : Node) (rest : List Node) :
    postorderOf (n :: rest) = n.postorder ++ postorderOf rest := by rw [postorderOf]

mutual

/-- In post-order there is every node once. -/
theorem postorder_perm : (n : Node) → n.postorder.Perm n.subtrees
  | ⟨k, text, span, parts⟩ => by
      rw [postorder, subtrees]
      exact List.perm_append_comm.trans ((postorderOf_perm parts).cons _)

theorem postorderOf_perm : (ns : List Node) → (postorderOf ns).Perm (subtreesOf ns)
  | [] => by rw [postorderOf, subtreesOf]
  | n :: rest => by
      rw [postorderOf, subtreesOf]
      exact (postorder_perm n).append (postorderOf_perm rest)

end

end EntityFlow.Node
