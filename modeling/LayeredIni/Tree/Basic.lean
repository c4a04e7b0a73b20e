/-
# Configuration trees

A configuration tree is an ordered list of entries, each of which gives a key
either a text or a further tree. At every level a key has one entry, and
entries keep the position at which their key was first inserted.

The entries are one plain inductive type, so that functions on trees are
structural recursions and statements about them are inductions without any
auxiliary type. That no key has two entries at any level is part of the type
`Tree`.
-/

import LayeredIni.Bindings

namespace LayeredIni

/-- The entries of a tree in order. -/
inductive Entries
  /-- No entries. -/
  | nil
  /-- An entry that gives a key a text, and the entries after it. -/
  | scalar (key text : String) (rest : Entries)
  /-- An entry that gives a key a tree, and the entries after it. -/
  | branch (key : String) (children rest : Entries)
deriving DecidableEq, Repr

namespace Entries

/-- The keys of the entries, in order. -/
def keys : Entries → List String
  | nil => []
  | scalar key _ rest => key :: rest.keys
  | branch key _ rest => key :: rest.keys

/-- At every level no key has two entries. -/
def Distinct : Entries → Prop
  | nil => True
  | scalar key _ rest => key ∉ rest.keys ∧ rest.Distinct
  | branch key children rest => key ∉ rest.keys ∧ children.Distinct ∧ rest.Distinct

/-- Distinctness is decided by comparing the keys of each level. -/
instance decidableDistinct : (entries : Entries) → Decidable entries.Distinct
  | nil => inferInstanceAs (Decidable True)
  | scalar key _ rest =>
    have := decidableDistinct rest
    inferInstanceAs (Decidable (key ∉ rest.keys ∧ rest.Distinct))
  | branch key children rest =>
    have := decidableDistinct children
    have := decidableDistinct rest
    inferInstanceAs (Decidable (key ∉ rest.keys ∧ children.Distinct ∧ rest.Distinct))

end Entries

/-- A configuration tree. -/
@[ext]
structure Tree where
  /-- The entries in the order of the first insertion of their keys. -/
  entries : Entries
  /-- No key has two entries at any level. -/
  distinct : entries.Distinct
deriving DecidableEq, Repr

/-- What a key stands for. -/
inductive Node
  /-- A text. -/
  | scalar (text : String)
  /-- A tree of its own. -/
  | tree (tree : Tree)
deriving DecidableEq, Repr

namespace Entries

/-- The keys with what they stand for, in order. -/
def toList : (entries : Entries) → entries.Distinct → Bindings Node
  | nil, _ => []
  | scalar key text rest, h => (key, .scalar text) :: rest.toList h.2
  | branch key children rest, h => (key, .tree ⟨children, h.2.1⟩) :: rest.toList h.2.2

/-- An entry in front of others. -/
def cons (key : String) (node : Node) (rest : Entries) : Entries :=
  match node with
  | .scalar text => scalar key text rest
  | .tree subtree => branch key subtree.entries rest

/-- Gives a key a node: in place if the key has an entry, else at the end. -/
def insert (key : String) (node : Node) : Entries → Entries
  | nil => cons key node nil
  | scalar k text rest =>
    if k = key then cons key node rest else scalar k text (rest.insert key node)
  | branch k children rest =>
    if k = key then cons key node rest else branch k children (rest.insert key node)

@[simp]
theorem keys_cons (key : String) (node : Node) (rest : Entries) :
    (cons key node rest).keys = key :: rest.keys := by
  cases node <;> rfl

theorem distinct_cons {key : String} {rest : Entries} (hkey : key ∉ rest.keys)
    (hrest : rest.Distinct) (node : Node) : (cons key node rest).Distinct := by
  cases node with
  | scalar text => exact ⟨hkey, hrest⟩
  | tree subtree => exact ⟨hkey, subtree.distinct, hrest⟩

/-- Inserting adds at most the inserted key. -/
theorem mem_keys_insert {k key : String} {node : Node} {entries : Entries} :
    k ∈ (entries.insert key node).keys ↔ k = key ∨ k ∈ entries.keys := by
  induction entries with
  | nil => simp [insert, keys]
  | scalar head text rest ih =>
    by_cases h : head = key <;> simp [insert, keys, h, ih, or_left_comm]
  | branch head children rest _ ih =>
    by_cases h : head = key <;> simp [insert, keys, h, ih, or_left_comm]

/-- Inserting keeps the keys distinct. -/
theorem Distinct.insert {entries : Entries} (h : entries.Distinct) (key : String) (node : Node) :
    (entries.insert key node).Distinct := by
  induction entries with
  | nil => exact distinct_cons (by simp [keys]) h node
  | scalar head text rest ih =>
    by_cases heq : head = key
    · subst heq
      simpa [Entries.insert] using distinct_cons h.1 h.2 node
    · simpa [Entries.insert, heq, Distinct, mem_keys_insert] using And.intro h.1 (ih h.2)
  | branch head children rest _ ih =>
    by_cases heq : head = key
    · subst heq
      simpa [Entries.insert] using distinct_cons h.1 h.2.2 node
    · simpa [Entries.insert, heq, Distinct, mem_keys_insert] using
        And.intro h.1 (And.intro h.2.1 (ih h.2.2))

theorem toList_cons (key : String) (node : Node) {rest : Entries} (hrest : rest.Distinct)
    (h : (cons key node rest).Distinct) :
    (cons key node rest).toList h = (key, node) :: rest.toList hrest := by
  cases node <;> rfl

/-- Seen as a list of bindings, inserting is inserting into that list. -/
theorem toList_insert (entries : Entries) (key : String) (node : Node)
    (hentries : entries.Distinct) (h : (entries.insert key node).Distinct) :
    (entries.insert key node).toList h = Bindings.insert key node (entries.toList hentries) := by
  induction entries with
  | nil => exact toList_cons key node hentries h
  | scalar head text rest ih =>
    by_cases heq : head = key
    · subst heq
      simp only [Entries.insert, if_true] at h ⊢
      rw [toList_cons _ _ hentries.2]
      simp [toList, Bindings.insert]
    · simp only [Entries.insert, heq, if_false] at h ⊢
      simp [toList, Bindings.insert, heq, ih hentries.2 h.2]
  | branch head children rest _ ih =>
    by_cases heq : head = key
    · subst heq
      simp only [Entries.insert, if_true] at h ⊢
      rw [toList_cons _ _ hentries.2.2]
      simp [toList, Bindings.insert]
    · simp only [Entries.insert, heq, if_false] at h ⊢
      simp [toList, Bindings.insert, heq, ih hentries.2.2 h.2.2]

end Entries

namespace Tree

/-- The tree without entries. -/
def empty : Tree :=
  ⟨.nil, trivial⟩

/-- The keys with what they stand for, in order. -/
def toList (tree : Tree) : Bindings Node :=
  tree.entries.toList tree.distinct

/-- The keys, in order. -/
def keys (tree : Tree) : List String :=
  tree.entries.keys

/-- The number of entries. -/
def size (tree : Tree) : Nat :=
  tree.keys.length

/-- Whether the tree has no entries. -/
def isEmpty (tree : Tree) : Bool :=
  tree.keys.isEmpty

/-- What a key stands for, if it has an entry. -/
def get? (tree : Tree) (key : String) : Option Node :=
  tree.toList.lookup key

/-- The tree that a key stands for, empty if it stands for none. -/
def child (tree : Tree) (key : String) : Tree :=
  match tree.get? key with
  | some (.tree child) => child
  | _ => empty

/-- Gives a key a node: in place if the key has an entry, else at the end. -/
def insert (tree : Tree) (key : String) (node : Node) : Tree :=
  ⟨tree.entries.insert key node, tree.distinct.insert key node⟩

@[simp]
theorem toList_insert (tree : Tree) (key : String) (node : Node) :
    (tree.insert key node).toList = tree.toList.insert key node :=
  Entries.toList_insert _ _ _ _ _

/-- Gives a key another node if it has one. -/
def replace? (tree : Tree) (key : String) (node : Node) : Option Tree :=
  if key ∈ tree.keys then some (tree.insert key node) else none

/-- The tree that inserting the given nodes in order makes. -/
def ofList (nodes : Bindings Node) : Tree :=
  nodes.foldl (fun tree (key, node) => tree.insert key node) empty

/-- The entries that are texts, in order. -/
def scalars (tree : Tree) : Bindings String :=
  tree.toList.filterMap fun
    | (key, .scalar text) => some (key, text)
    | (_, .tree _) => none

end Tree

end LayeredIni
