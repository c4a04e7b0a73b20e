/-
# Paths and dotted keys

A path leads through the levels of a tree, one key at a time. Keys of a
section are written with a separator between the segments of a path, and
`writeAll` puts the texts of a section at their paths in order.
-/

import LayeredIni.Text.Basic
import LayeredIni.Text.Split
import LayeredIni.Tree.Basic

namespace LayeredIni

open LayeredIni.Text

/-- The segments of a dotted key. Without a separator a key is one segment. -/
def segments (separator key : String) : List String :=
  match separator.toList with
  | [] => [key]
  | first :: more => (pieces first more key.toList).map String.ofList

/-- What a path leads to from a node. The empty path leads to the node itself,
and no path leads through a text. -/
def Node.at? : Node → List String → Option Node
  | node, [] => some node
  | .scalar _, _ :: _ => none
  | .tree subtree, key :: path =>
    match subtree.get? key with
    | none => none
    | some node => node.at? path

namespace Tree

/-- What a path leads to from the root of a tree. -/
def at? (tree : Tree) (path : List String) : Option Node :=
  (Node.tree tree).at? path

/-- What a dotted key leads to. -/
def getDotted? (tree : Tree) (separator key : String) : Option Node :=
  tree.at? (segments separator key)

/-- Writes a text to a path. Levels that the path leads through are made where
there are none, also in place of a text. -/
def write (tree : Tree) (text : String) : List String → Tree
  | [] => tree
  | [key] => tree.insert key (.scalar text)
  | key :: next :: path => tree.insert key (.tree ((tree.child key).write text (next :: path)))

/-- Writes each text, without the blanks at its ends, to the path that its key
spells out, one after the other. -/
def writeAll (tree : Tree) (separator : String) (values : Bindings String) : Tree :=
  values.foldl (fun tree (key, text) => tree.write (trimmed text) (segments separator key)) tree

end Tree

end LayeredIni
