import SourceChunks.Arena.ParseCopy
import SourceChunks.Proofs.Arena.Numbering

/-!
# The copy of a parser's tree

A parser's tree is copied with a stack, and a node's children are entered one by one, long
after the node.  Two facts about the stack carry the copy to its end.

* `ParseCopy.Filed`: under each number those are entered that record it as their parent, in
  order (`Filed.add`, `Filed.addAll`).
* `ParseCopy.records_addAll`: what waits is recorded in the order of the document, tree by
  tree from the top of the stack.

In an arena that is numbered in the order of the document, the same nodes are the children of
a number; so the copy is the arena of the tree (`copyParse_eq`), and `copyParse_isNumbering`
says what there is to say of it.
-/

namespace SourceChunks

namespace Forest

variable {α β : Type}

/-- The labels in the order of the document, each with the number of its parent.  The first
label has number `first`, and the roots get the given parent. -/
def parented (parent : Option Nat) (first : Nat) : Forest α → List (α × Option Nat)
  | nil => []
  | cons label children siblings =>
    (label, parent) :: (children.parented (some first) (first + 1) ++
      siblings.parented parent (first + children.size + 1))

theorem parented_map (f : α → β) (parent : Option Nat) (first : Nat) (forest : Forest α) :
    (forest.map f).parented parent first = (forest.parented parent first).map (Prod.map f id) := by
  induction forest generalizing parent first with
  | nil => rfl
  | cons label children siblings ihChildren ihSiblings =>
    rw [map, parented, parented, size_map, ihChildren, ihSiblings, List.map_cons, List.map_append]
    rfl

end Forest

/-- The layout of a forest records the parents of its nodes. -/
theorem Arena.map_layout (parent : Option Nat) (first : Nat) (forest : Forest Element) :
    (layout parent first forest).map (fun node => (node.element, node.parent)) =
      forest.parented parent first := by
  induction forest generalizing parent first with
  | nil => rfl
  | cons element children siblings ihChildren ihSiblings =>
    rw [layout, List.map_cons, List.map_append, ihChildren, ihSiblings, Forest.parented]

/-! ## What is recorded -/

/-- What the trees that wait will be recorded as, the first of them from the given number. -/
def PendingParse.parented (first : Nat) : List PendingParse → List (Symbol × Option Nat)
  | [] => []
  | pending :: stack =>
    (pending.tree.label, pending.parent) ::
      (pending.tree.children.parented (some first) (first + 1) ++
        parented (first + pending.tree.size) stack)

theorem PendingParse.parented_ofForest_append (parent first : Nat) (forest : Forest Symbol)
    (stack : List PendingParse) :
    parented first (ofForest parent forest ++ stack) =
      forest.parented (some parent) first ++ parented (first + forest.size) stack := by
  induction forest generalizing first with
  | nil => rfl
  | cons symbol children siblings _ ih =>
    have hsize : first + (children.size + 1) + siblings.size =
        first + (children.size + siblings.size + 1) := by omega
    show (symbol, some parent) :: (children.parented (some first) (first + 1) ++
      parented (first + (children.size + 1)) (ofForest parent siblings ++ stack)) = _
    rw [ih, Forest.parented, Forest.size, hsize, List.cons_append, List.append_assoc]
    rfl

namespace ParseCopy

variable {copy : ParseCopy}

@[simp] theorem records_add (copy : ParseCopy) (symbol : Symbol) (parent : Option Nat) :
    (copy.add symbol parent).records = copy.records.push (symbol, parent) := rfl

/-- What waits is recorded in the order of the document. -/
theorem records_addAll (copy : ParseCopy) (stack : List PendingParse) :
    (copy.addAll stack).records.toList =
      copy.records.toList ++ PendingParse.parented copy.records.size stack := by
  induction copy, stack using addAll.induct with
  | case1 copy => rw [addAll, PendingParse.parented, List.append_nil]
  | case2 copy pending stack ih =>
    have hsize : copy.records.size + 1 + pending.tree.children.size =
        copy.records.size + pending.tree.size := by
      rw [Tree.size]
      omega
    rw [addAll, ih, records_add, Array.size_push, PendingParse.parented_ofForest_append, hsize,
      Array.toList_push, List.append_assoc]
    rfl

/-! ## What is entered as children -/

/-- The parent that a number records. -/
def parent? (copy : ParseCopy) (index : Nat) : Option Nat :=
  copy.records[index]?.bind Prod.snd

/-- The numbers that record a number as their parent, in order. -/
def under (copy : ParseCopy) (upper : Nat) : List Nat :=
  (List.range copy.records.size).filter fun index => copy.parent? index = some upper

theorem mem_under {upper index : Nat} : index ∈ copy.under upper ↔
    ∃ symbol, copy.records[index]? = some (symbol, some upper) := by
  rw [under, List.mem_filter, List.mem_range, decide_eq_true_iff, parent?]
  constructor
  · rintro ⟨hlt, hparent⟩
    rw [Array.getElem?_eq_getElem hlt, Option.bind_some] at hparent
    exact ⟨copy.records[index].1, by rw [Array.getElem?_eq_getElem hlt, ← hparent]⟩
  · rintro ⟨symbol, hrecord⟩
    exact ⟨(Array.getElem?_eq_some_iff.1 hrecord).1, by rw [hrecord]; rfl⟩

theorem pairwise_under (copy : ParseCopy) (upper : Nat) : (copy.under upper).Pairwise (· < ·) :=
  List.pairwise_lt_range.filter _

/-- A new number is the last under its parent, and under no other. -/
theorem under_add (copy : ParseCopy) (symbol : Symbol) (parent : Option Nat) (upper : Nat) :
    (copy.add symbol parent).under upper =
      copy.under upper ++ if parent = some upper then [copy.records.size] else [] := by
  have hold : ∀ index ∈ List.range copy.records.size,
      decide ((copy.add symbol parent).parent? index = some upper) =
        decide (copy.parent? index = some upper) := by
    intro index hmem
    rw [parent?, records_add, Array.getElem?_push, if_neg (Nat.ne_of_lt (List.mem_range.1 hmem)),
      parent?]
  have hnew : (copy.add symbol parent).parent? copy.records.size = parent := by
    rw [parent?, records_add, Array.getElem?_push_size]
    rfl
  rw [under, records_add, Array.size_push, List.range_succ, List.filter_append,
    List.filter_congr hold, ← under, List.filter_singleton, hnew]
  by_cases hparent : parent = some upper <;> simp [hparent]

/-- The children that are entered are those whose records say so. -/
structure Filed (copy : ParseCopy) : Prop where
  parents : ∀ record ∈ copy.records, ∀ upper ∈ record.2, upper < copy.records.size
  size : copy.children.size = copy.records.size
  children : ∀ index < copy.records.size, copy.children[index]? = some (copy.under index)

/-- A number that is not given out yet has no children. -/
theorem Filed.under_size (h : copy.Filed) : copy.under copy.records.size = [] := by
  refine List.eq_nil_iff_forall_not_mem.2 fun index hmem => ?_
  obtain ⟨symbol, hrecord⟩ := mem_under.1 hmem
  exact Nat.lt_irrefl _ (h.parents _ (Array.mem_of_getElem? hrecord) _ rfl)

/-- Where a number is given out below one that is, the children stay filed. -/
theorem Filed.add (h : copy.Filed) (symbol : Symbol) {parent : Option Nat}
    (hparent : ∀ upper ∈ parent, upper < copy.records.size) : (copy.add symbol parent).Filed where
  parents record hrecord upper hupper := by
    rw [records_add, Array.size_push]
    rw [records_add, Array.mem_push] at hrecord
    rcases hrecord with hrecord | rfl
    · exact Nat.lt_succ_of_lt (h.parents record hrecord upper hupper)
    · exact Nat.lt_succ_of_lt (hparent upper hupper)
  size := by
    cases parent <;> simp [ParseCopy.add, h.size]
  children index hlt := by
    have hpushed : (copy.children.push [])[index]? = some (copy.under index) := by
      rw [records_add, Array.size_push] at hlt
      rw [Array.getElem?_push, h.size]
      split
      · next heq => rw [heq, h.under_size]
      · exact h.children index (by omega)
    rw [under_add]
    cases parent with
    | none => simpa [ParseCopy.add] using hpushed
    | some upper =>
      rw [ParseCopy.add, Array.getElem?_modify, hpushed]
      by_cases heq : upper = index <;> simp [heq]

/-- **The copy keeps its children filed.** -/
theorem Filed.addAll (h : copy.Filed) {stack : List PendingParse}
    (hstack : ∀ pending ∈ stack, ∀ upper ∈ pending.parent, upper < copy.records.size) :
    (copy.addAll stack).Filed := by
  induction copy, stack using addAll.induct with
  | case1 copy =>
    rw [ParseCopy.addAll]
    exact h
  | case2 copy pending stack ih =>
    rw [ParseCopy.addAll]
    obtain ⟨htop, hrest⟩ := List.forall_mem_cons.1 hstack
    refine ih (h.add pending.tree.label htop) fun other hother upper hupper => ?_
    rw [records_add, Array.size_push]
    rcases List.mem_append.1 hother with hother | hother
    · obtain ⟨child, -, rfl⟩ := List.mem_map.1 hother
      obtain rfl : copy.records.size = upper := Option.some.inj hupper
      exact Nat.lt_succ_self _
    · exact Nat.lt_succ_of_lt (hrest other hother upper hupper)

/-! ## The copy is the arena of the tree -/

/-- The copy has recorded the nodes of an arena. -/
def Records (copy : ParseCopy) (arena : Arena) : Prop :=
  ∀ index : Nat, copy.records[index]?.map (Prod.map Symbol.element id) =
    arena.nodes[index]?.map fun node : Node => (node.element, node.parent)

theorem records_iff {arena : Arena} : copy.Records arena ↔
    copy.records.toList.map (Prod.map Symbol.element id) =
      arena.nodes.toList.map fun node : Node => (node.element, node.parent) := by
  rw [List.ext_getElem?_iff]
  simp only [List.getElem?_map, Array.getElem?_toList, Records]

variable {arena : Arena} {tree : Tree (Nat × Node)}

/-- In the order of the document, the nodes that record a number are its children. -/
theorem Records.under_eq_children (hrecords : copy.Records arena) (h : arena.Numbered tree)
    {index : Nat} {node : Node} (found : arena.nodes[index]? = some node) :
    copy.under index = node.children := by
  refine (copy.pairwise_under index).eq_of_mem_iff (h.pairwise_children found) fun lower => ?_
  have hlower := hrecords lower
  rw [mem_under, ← Arena.child_iff found]
  constructor
  · rintro ⟨symbol, hrecord⟩
    rw [hrecord, eq_comm, Option.map_some, Option.map_eq_some_iff] at hlower
    obtain ⟨other, hother, hparent⟩ := hlower
    exact (h.parent_eq_some_iff hother).1 (congrArg Prod.snd hparent)
  · intro hchild
    obtain ⟨other, hother⟩ := h.exists_node_of_listed hchild
    rw [hother, Option.map_some, Option.map_eq_some_iff] at hlower
    obtain ⟨⟨symbol, parent⟩, hrecord, hparent⟩ := hlower
    have hown : parent = some index :=
      (congrArg Prod.snd hparent).trans ((h.parent_eq_some_iff hother).2 hchild)
    exact ⟨symbol, by rw [hrecord, hown]⟩

/-- What was copied are the nodes of the arena, their children among them. -/
theorem Filed.nodes_eq (h : copy.Filed) (hrecords : copy.Records arena)
    (hnumbered : arena.Numbered tree) : copy.nodes = arena.nodes.toList := by
  refine List.ext_getElem? fun index => ?_
  have hrecord := hrecords index
  rw [nodes, List.getElem?_zipWith, Array.getElem?_toList, Array.getElem?_toList,
    Array.getElem?_toList]
  cases hnode : arena.nodes[index]? with
  | none =>
    rw [hnode, Option.map_none, Option.map_eq_none_iff] at hrecord
    rw [hrecord]
  | some node =>
    rw [hnode, Option.map_some, Option.map_eq_some_iff] at hrecord
    obtain ⟨⟨symbol, parent⟩, hfound, heq⟩ := hrecord
    obtain ⟨helement, hparent⟩ := Prod.mk.inj heq
    have hlt := (Array.getElem?_eq_some_iff.1 hfound).1
    rw [hfound, h.children index hlt, hrecords.under_eq_children hnumbered hnode]
    show some ({ element := symbol.element, children := node.children, parent } : Node) = some node
    rw [helement, show parent = node.parent from hparent]

end ParseCopy

namespace Arena

/-- **The copy of a parser's tree is the arena of the tree.** -/
theorem copyParse_eq (source : Bytes) (parse : Tree Symbol) :
    copyParse source parse = .ok (ofParse source parse) := by
  let copy := ParseCopy.addAll {} [⟨parse, none⟩]
  obtain ⟨tree, hnumbered, -⟩ := exists_numbered_ofTree source (parse.map Symbol.element)
  have hfiled : copy.Filed := by
    have hempty : ({} : ParseCopy).Filed := ⟨by simp, rfl, by simp⟩
    exact hempty.addAll (by simp)
  have hrecords : copy.Records (ofParse source parse) := by
    have hlayout := map_layout none 0 (parse.forest.map Symbol.element)
    rw [Forest.parented_map] at hlayout
    have hadded := ParseCopy.records_addAll {} [⟨parse, none⟩]
    rw [ParseCopy.records_iff, hadded]
    exact hlayout.symm
  have hnodes : copy.nodes.toArray = (ofParse source parse).nodes := by
    rw [hfiled.nodes_eq hrecords hnumbered]
  rw [copyParse, hnodes]
  exact dif_pos ⟨Int.le_refl 0, (ofParse source parse).root_lt⟩

/-! ## Faithful numberings -/

/-- The arena is a parser's tree, with its nodes numbered in the order of the document. -/
structure IsNumbering (arena : Arena) (parse : Tree Symbol) : Prop where
  root : arena.root = 0
  size : arena.size = parse.size
  /-- The nodes are those of the parser in the order of the document. -/
  elements : arena.nodes.toList.map Node.element = parse.toList.map Symbol.element
  /-- The tree that hangs from the root is that of the parser. -/
  tree : ∃ tree, arena.HasTree tree ∧ tree.map (·.2.element) = parse.map Symbol.element
  increasing : ∀ node ∈ arena.nodes, node.children.Pairwise (· < ·)
  head : ∀ (index : Nat) (node : Node) (child : Nat), arena.nodes[index]? = some node →
    node.children.head? = some child → child = index + 1
  parent : ∀ (index : Nat) (node : Node) (upper : Nat), arena.nodes[index]? = some node →
    (node.parent = some upper ↔ arena.Child upper index)
  orphan : ∀ (index : Nat) (node : Node), arena.nodes[index]? = some node →
    (node.parent = none ↔ index = arena.root)
  walk : arena.walk = .ok (List.range arena.size)
  /-- What is reached from a number are as many numbers as its tree has nodes, one after the
  other. -/
  block : ∀ (index : Nat) (subtree : Tree Symbol), parse.subtrees[index]? = some subtree →
    arena.walkFrom index = .ok (List.range' index subtree.size) ∧
      ∀ lower, arena.Reaches index lower ↔ lower ∈ List.range' index subtree.size

theorem Numbered.isNumbering {arena : Arena} {tree : Tree (Nat × Node)} {parse : Tree Symbol}
    (h : arena.Numbered tree) (hroot : arena.root = 0)
    (htree : tree.map (·.2.element) = parse.map Symbol.element) : arena.IsNumbering parse where
  root := hroot
  size := by
    have hsize := congrArg Tree.size htree
    rw [Tree.size_map, Tree.size_map] at hsize
    exact h.size_eq.trans hsize
  elements := by
    have hlabels := congrArg Tree.toList htree
    rw [Tree.toList_map, Tree.toList_map] at hlabels
    rw [← hlabels, h.nodes_eq, List.map_map]
    rfl
  tree := ⟨tree, h.hasTree, htree⟩
  increasing node hmem := by
    obtain ⟨index, found⟩ := Array.getElem?_of_mem hmem
    exact h.pairwise_children found
  head index node child found hchild := h.head_children found hchild
  parent index node upper found := h.parent_eq_some_iff found
  orphan index node found := h.parent_eq_none_iff found
  walk := by rw [h.hasTree.walk_eq, h.order]
  block index subtree hsubtree := by
    have hsubtrees := congrArg (·.subtrees[index]?) htree
    simp only [Tree.subtrees_map, List.getElem?_map, hsubtree, Option.map_some,
      Option.map_eq_some_iff] at hsubtrees
    obtain ⟨own, hown, hlabels⟩ := hsubtrees
    obtain ⟨hunfolds, hblock⟩ := h.unfolds_at hown
    have hsize := congrArg Tree.size hlabels
    rw [Tree.size_map, Tree.size_map] at hsize
    rw [hsize] at hblock
    refine ⟨?_, fun lower => ?_⟩
    · rw [walkFrom_eq hunfolds, Tree.toList_forest, hblock]
    · rw [hunfolds.reaches_iff, Tree.toList_forest, hblock]

/-- **Copying a parser's tree numbers it faithfully.**  The copy never fails.  It is the arena
over the given source in which the nodes of the tree are numbered in the order of the
document. -/
theorem copyParse_isNumbering (source : Bytes) (parse : Tree Symbol) :
    ∃ arena, copyParse source parse = .ok arena ∧ arena.source = source ∧
      arena.IsNumbering parse := by
  obtain ⟨tree, h, htree⟩ := exists_numbered_ofTree source (parse.map Symbol.element)
  exact ⟨_, copyParse_eq source parse, rfl, h.isNumbering rfl htree⟩

end Arena

end SourceChunks
