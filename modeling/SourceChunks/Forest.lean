/-!
# Trees without numbers

A forest is a list of ordered trees.  It is given by its first tree's label, the forest of
that tree's children and the forest of its later siblings, so that one recursion goes both
down and across.  A tree is a label over a forest.

Reading a label, then the children, then the siblings is the order in which a document is
written; `toList` lists the labels in that order.
-/

namespace SourceChunks

/-- A list of ordered trees. -/
inductive Forest (α : Type) where
  | nil
  | cons (label : α) (children siblings : Forest α)
  deriving DecidableEq, Repr

/-- An ordered tree. -/
structure Tree (α : Type) where
  label : α
  children : Forest α
  deriving DecidableEq, Repr

namespace Forest

variable {α β γ : Type}

/-- The number of nodes. -/
def size : Forest α → Nat
  | nil => 0
  | cons _ children siblings => children.size + siblings.size + 1

/-- The labels, each before those of its children and of its later siblings. -/
def toList : Forest α → List α
  | nil => []
  | cons label children siblings => label :: (children.toList ++ siblings.toList)

/-- The same shape with other labels. -/
def map (f : α → β) : Forest α → Forest β
  | nil => nil
  | cons label children siblings => cons (f label) (children.map f) (siblings.map f)

/-- The trees of one forest followed by those of another. -/
def append : Forest α → Forest α → Forest α
  | nil, later => later
  | cons label children siblings, later => cons label children (siblings.append later)

instance : Append (Forest α) where
  append := append

/-- The forest of the trees of a list. -/
def ofTrees : List (Tree α) → Forest α
  | [] => nil
  | tree :: trees => cons tree.label tree.children (ofTrees trees)

/-- The trees of a forest. -/
def trees : Forest α → List (Tree α)
  | nil => []
  | cons label children siblings => ⟨label, children⟩ :: siblings.trees

@[simp] theorem size_nil : (nil : Forest α).size = 0 := rfl

@[simp] theorem toList_nil : (nil : Forest α).toList = [] := rfl

@[simp] theorem nil_append (forest : Forest α) : nil ++ forest = forest := rfl

@[simp] theorem cons_append (label : α) (children siblings later : Forest α) :
    cons label children siblings ++ later = cons label children (siblings ++ later) := rfl

@[simp] theorem length_toList (forest : Forest α) : forest.toList.length = forest.size := by
  induction forest with
  | nil => rfl
  | cons _ children siblings ihc ihs => simp [toList, size, ihc, ihs]

@[simp] theorem size_map (f : α → β) (forest : Forest α) : (forest.map f).size = forest.size := by
  induction forest with
  | nil => rfl
  | cons _ children siblings ihc ihs => simp [map, size, ihc, ihs]

@[simp] theorem toList_map (f : α → β) (forest : Forest α) :
    (forest.map f).toList = forest.toList.map f := by
  induction forest with
  | nil => rfl
  | cons _ children siblings ihc ihs => simp [map, toList, ihc, ihs]

@[simp] theorem toList_append (forest later : Forest α) :
    (forest ++ later).toList = forest.toList ++ later.toList := by
  induction forest with
  | nil => rfl
  | cons _ children siblings _ ihs => simp [toList, ihs]

@[simp] theorem size_append (forest later : Forest α) :
    (forest ++ later).size = forest.size + later.size := by
  rw [← length_toList, toList_append, List.length_append, length_toList, length_toList]

theorem append_assoc (first second third : Forest α) :
    first ++ second ++ third = first ++ (second ++ third) := by
  induction first with
  | nil => rfl
  | cons label children siblings _ ihs => simp [ihs]

theorem map_append (f : α → β) (forest later : Forest α) :
    (forest ++ later).map f = forest.map f ++ later.map f := by
  induction forest with
  | nil => rfl
  | cons label children siblings _ ihs => simp [map, ihs]

@[simp] theorem map_id (forest : Forest α) : forest.map id = forest := by
  induction forest with
  | nil => rfl
  | cons label children siblings ihc ihs => simp [map, ihc, ihs]

theorem map_map (f : α → β) (g : β → γ) (forest : Forest α) :
    (forest.map f).map g = forest.map (g ∘ f) := by
  induction forest with
  | nil => rfl
  | cons label children siblings ihc ihs => simp [map, ihc, ihs]

@[simp] theorem ofTrees_trees (forest : Forest α) : ofTrees forest.trees = forest := by
  induction forest with
  | nil => rfl
  | cons _ children siblings _ ihs => simp [trees, ofTrees, ihs]

@[simp] theorem trees_ofTrees (list : List (Tree α)) : (ofTrees list).trees = list := by
  induction list with
  | nil => rfl
  | cons tree list ih => simp [trees, ofTrees, ih]

end Forest

namespace Tree

variable {α β γ : Type}

/-- The number of nodes. -/
def size (tree : Tree α) : Nat :=
  tree.children.size + 1

/-- The labels, each before those of its children. -/
def toList (tree : Tree α) : List α :=
  tree.label :: tree.children.toList

/-- The same shape with other labels. -/
def map (f : α → β) (tree : Tree α) : Tree β :=
  ⟨f tree.label, tree.children.map f⟩

@[simp] theorem size_map (f : α → β) (tree : Tree α) : (tree.map f).size = tree.size := by
  rw [size, map, Forest.size_map, size]

@[simp] theorem toList_map (f : α → β) (tree : Tree α) :
    (tree.map f).toList = tree.toList.map f := by
  rw [toList, map, Forest.toList_map, toList, List.map_cons]

theorem map_map (f : α → β) (g : β → γ) (tree : Tree α) :
    (tree.map f).map g = tree.map (g ∘ f) := by
  rw [map, map, map, Forest.map_map]
  rfl

end Tree

end SourceChunks
