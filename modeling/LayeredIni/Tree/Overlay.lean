/-
# Laying one tree over another

A layer adds its entries to a base. Where both have a tree under a key, the
layer's tree is laid over the base's; anywhere else the layer's entry takes
the place of the base's.
-/

import LayeredIni.Tree.Basic

namespace LayeredIni

/-- Lays entries over a base. A tree in the layer is laid over the base's tree
under the same key, or over the empty tree if the base has none there. -/
def Entries.over : Entries → Tree → Tree
  | nil, base => base
  | scalar key text rest, base => rest.over (base.insert key (.scalar text))
  | branch key children rest, base =>
    rest.over (base.insert key (.tree (children.over (base.child key))))

namespace Tree

/-- The base with a layer laid over it. -/
def overlay (base layer : Tree) : Tree :=
  layer.entries.over base

/-- All layers laid over each other, the first at the bottom. -/
def overlayAll (layers : List Tree) : Tree :=
  layers.foldl overlay empty

end Tree

end LayeredIni
