/-
# What paths lead to

A path is followed one key at a time. Writing a text to a path changes what
other paths lead to only where one of the two paths continues the other: paths
towards the text then lead to trees, and paths beyond it lead nowhere. Of many
texts that are written, the last one whose path meets a given path therefore
decides what is there.
-/

import LayeredIni.Proofs.Text.Split
import LayeredIni.Proofs.Tree.Lookup
import LayeredIni.Tree.Path

namespace LayeredIni

open LayeredIni.Text

/-- Two paths meet if one of them continues the other. -/
def Meets (first second : List String) : Prop :=
  first <+: second ∨ second <+: first

instance (first second : List String) : Decidable (Meets first second) :=
  inferInstanceAs (Decidable (first <+: second ∨ second <+: first))

theorem meets_cons_iff {first second : List String} (key : String) :
    Meets (key :: first) (key :: second) ↔ Meets first second := by
  simp [Meets]

theorem ne_nil_of_not_meets {first second : List String} (h : ¬ Meets first second) :
    first ≠ [] ∧ second ≠ [] := by
  constructor
  · intro hnil
    exact h (.inl (hnil ▸ List.nil_prefix))
  · intro hnil
    exact h (.inr (hnil ▸ List.nil_prefix))

namespace Tree

@[simp]
theorem at?_nil (tree : Tree) : tree.at? [] = some (.tree tree) := rfl

theorem at?_cons (tree : Tree) (key : String) (path : List String) :
    tree.at? (key :: path) = (tree.get? key).bind fun node => node.at? path := by
  rw [at?, Node.at?]
  cases tree.get? key <;> rfl

theorem at?_append (tree : Tree) (front back : List String) :
    tree.at? (front ++ back) = (tree.at? front).bind fun node => node.at? back := by
  induction front generalizing tree with
  | nil => rfl
  | cons key front ih =>
    rw [List.cons_append, at?_cons, at?_cons]
    cases tree.get? key with
    | none => rfl
    | some node => cases node with
      | scalar text =>
        cases front <;> rfl
      | tree found => exact ih found

theorem at?_empty {path : List String} (hpath : path ≠ []) : empty.at? path = none := by
  obtain ⟨key, more, rfl⟩ := List.exists_cons_of_ne_nil hpath
  rfl

theorem get?_eq_at? (tree : Tree) (key : String) : tree.get? key = tree.at? [key] := by
  rw [at?_cons]
  cases tree.get? key with
  | none => rfl
  | some node => cases node <;> rfl

@[simp]
theorem at?_insert_self (tree : Tree) (key : String) (node : Node) (path : List String) :
    (tree.insert key node).at? (key :: path) = node.at? path := by
  rw [at?_cons, get?_insert_self, Option.bind_some]

theorem at?_insert_of_ne {key name : String} (h : name ≠ key) (tree : Tree) (node : Node)
    (path : List String) :
    (tree.insert key node).at? (name :: path) = tree.at? (name :: path) := by
  rw [at?_cons, get?_insert_of_ne h, at?_cons]

theorem at?_child {path : List String} (hpath : path ≠ []) (tree : Tree) (key : String) :
    (tree.child key).at? path = tree.at? (key :: path) := by
  rw [at?_cons, child]
  obtain ⟨next, more, rfl⟩ := List.exists_cons_of_ne_nil hpath
  cases tree.get? key with
  | none => rfl
  | some node => cases node <;> rfl

/-- The tree that a path leads to, empty if it leads to none. -/
def subtree (tree : Tree) (path : List String) : Tree :=
  match tree.at? path with
  | some (.tree found) => found
  | _ => empty

@[simp]
theorem subtree_nil (tree : Tree) : tree.subtree [] = tree := rfl

theorem subtree_cons (tree : Tree) (key : String) (path : List String) :
    tree.subtree (key :: path) = (tree.child key).subtree path := by
  cases path with
  | nil =>
    rw [subtree_nil, child, get?_eq_at?]
    rfl
  | cons next more => rw [subtree, subtree, at?_child (List.cons_ne_nil next more)]

theorem write_cons {path : List String} (hpath : path ≠ []) (tree : Tree) (text key : String) :
    tree.write text (key :: path) =
      tree.insert key (.tree ((tree.child key).write text path)) := by
  obtain ⟨next, more, rfl⟩ := List.exists_cons_of_ne_nil hpath
  rfl

/-- Below a common beginning of two paths, writing to one of them is writing
into the tree that the beginning leads to. -/
theorem at?_write_append {rest : List String} (hrest : rest ≠ []) (tree : Tree) (text : String)
    (front other : List String) :
    (tree.write text (front ++ rest)).at? (front ++ other) =
      ((tree.subtree front).write text rest).at? other := by
  induction front generalizing tree with
  | nil => rfl
  | cons key front ih =>
    have hmore : front ++ rest ≠ [] := List.append_ne_nil_of_right_ne_nil front hrest
    calc
      (tree.write text (key :: (front ++ rest))).at? (key :: (front ++ other)) =
          ((tree.child key).write text (front ++ rest)).at? (front ++ other) := by
        rw [write_cons hmore, at?_insert_self]
        rfl
      _ = ((tree.subtree (key :: front)).write text rest).at? other := by
        rw [ih, subtree_cons]

/-- The text is where it was written, and nothing is beyond it. -/
theorem at?_write_beyond {path : List String} (hpath : path ≠ []) (tree : Tree) (text : String)
    (more : List String) :
    (tree.write text path).at? (path ++ more) = (Node.scalar text).at? more := by
  -- Down to the last key this is the lemma above, and the last key is an insertion.
  have hsplit : path = path.dropLast ++ [path.getLast hpath] :=
    (List.dropLast_concat_getLast hpath).symm
  calc
    (tree.write text path).at? (path ++ more) =
        ((tree.subtree path.dropLast).write text [path.getLast hpath]).at?
          (path.getLast hpath :: more) := by
      rw [← at?_write_append (List.cons_ne_nil _ _), ← hsplit, List.append_cons, ← hsplit]
    _ = (Node.scalar text).at? more := at?_insert_self _ _ _ _

/-- On the way to the text there are trees. -/
theorem at?_write_towards {rest : List String} (hrest : rest ≠ []) (tree : Tree) (text : String)
    (front : List String) :
    (tree.write text (front ++ rest)).at? front =
      some (.tree ((tree.subtree front).write text rest)) := by
  have hfront := at?_write_append hrest tree text front []
  rw [List.append_nil] at hfront
  exact hfront

theorem at?_write_of_not_meets {target path : List String} (h : ¬ Meets target path)
    (tree : Tree) (text : String) : (tree.write text target).at? path = tree.at? path := by
  induction target generalizing path tree with
  | nil => exact absurd rfl (ne_nil_of_not_meets h).1
  | cons key rest ih =>
    obtain ⟨name, other, rfl⟩ := List.exists_cons_of_ne_nil (ne_nil_of_not_meets h).2
    by_cases hname : name = key
    · subst hname
      rw [meets_cons_iff] at h
      have hne := ne_nil_of_not_meets h
      rw [write_cons hne.1, at?_insert_self]
      exact (ih h (tree.child name)).trans (at?_child hne.2 tree name)
    · cases rest with
      | nil => exact at?_insert_of_ne hname tree _ other
      | cons next more => exact at?_insert_of_ne hname tree _ other

/-- What a path leads to as long as nothing that meets it is written after the
text at `target`. Nothing is claimed if the two paths do not meet. -/
structure ShowsWrite (tree : Tree) (target : List String) (text : String)
    (path : List String) : Prop where
  /-- The text is where it was written. -/
  same : target = path → tree.at? path = some (.scalar text)
  /-- No path leads through the text. -/
  beyond : target <+: path → target ≠ path → tree.at? path = none
  /-- On the way to the text there are trees. -/
  towards : path <+: target → path ≠ target → ∃ subtree, tree.at? path = some (.tree subtree)

/-- A text that was written is seen from every path. -/
theorem showsWrite_write {target : List String} (htarget : target ≠ []) (tree : Tree)
    (text : String) (path : List String) :
    (tree.write text target).ShowsWrite target text path where
  same := by
    intro hsame
    subst hsame
    have hself := at?_write_beyond htarget tree text []
    rw [List.append_nil] at hself
    exact hself
  beyond := by
    rintro ⟨more, rfl⟩ hne
    have hmore : more ≠ [] := mt List.self_eq_append_right.mpr hne
    obtain ⟨key, rest, rfl⟩ := List.exists_cons_of_ne_nil hmore
    exact at?_write_beyond htarget tree text (key :: rest)
  towards := by
    rintro ⟨rest, rfl⟩ hne
    have hrest : rest ≠ [] := mt List.self_eq_append_right.mpr hne
    exact ⟨_, at?_write_towards hrest tree text path⟩

theorem ShowsWrite.of_at?_eq {tree other : Tree} {target path : List String} {text : String}
    (h : tree.ShowsWrite target text path) (heq : other.at? path = tree.at? path) :
    other.ShowsWrite target text path where
  same hsame := heq.trans (h.same hsame)
  beyond hprefix hne := heq.trans (h.beyond hprefix hne)
  towards hprefix hne := heq ▸ h.towards hprefix hne

theorem writeAll_cons (tree : Tree) (separator key text : String)
    (values : Bindings String) :
    tree.writeAll separator ((key, text) :: values) =
      (tree.write (trimmed text) (segments separator key)).writeAll separator values := rfl

theorem writeAll_append (tree : Tree) (separator : String) (first second : Bindings String) :
    tree.writeAll separator (first ++ second) =
      (tree.writeAll separator first).writeAll separator second :=
  List.foldl_append

theorem at?_writeAll_of_forall_not_meets {separator : String} {values : Bindings String}
    {path : List String} (h : ∀ key ∈ values.keys, ¬ Meets (segments separator key) path)
    (tree : Tree) : (tree.writeAll separator values).at? path = tree.at? path := by
  induction values generalizing tree with
  | nil => rfl
  | cons binding values ih =>
    obtain ⟨key, text⟩ := binding
    obtain ⟨hkey, hvalues⟩ := List.forall_mem_cons.mp h
    calc
      (tree.writeAll separator ((key, text) :: values)).at? path =
          (tree.write (trimmed text) (segments separator key)).at? path := by
        rw [writeAll_cons, ih hvalues]
      _ = tree.at? path := at?_write_of_not_meets hkey tree _

end Tree

theorem segments_ne_nil (separator key : String) : segments separator key ≠ [] := by
  unfold segments
  split
  · exact List.cons_ne_nil _ _
  · next first more _ =>
    rw [Ne, List.map_eq_nil_iff]
    exact pieces_ne_nil first more key.toList

namespace Tree

variable {separator key text : String} {before after : Bindings String}

/-- Of all texts whose paths meet a path, the last one written decides what
the path leads to. -/
theorem showsWrite_writeAll {path : List String}
    (h : ∀ later ∈ after.keys, ¬ Meets (segments separator later) path) (tree : Tree) :
    (tree.writeAll separator (before ++ (key, text) :: after)).ShowsWrite
      (segments separator key) (trimmed text) path := by
  rw [writeAll_append, writeAll_cons]
  exact (showsWrite_write (segments_ne_nil separator key) _ _ path).of_at?_eq
    (at?_writeAll_of_forall_not_meets h _)

/-- A dotted key gives the text that was written under it, as long as no later
text meets its path. -/
theorem getDotted?_writeAll
    (h : ∀ later ∈ after.keys, ¬ Meets (segments separator later) (segments separator key))
    (tree : Tree) :
    (tree.writeAll separator (before ++ (key, text) :: after)).getDotted? separator key =
      some (.scalar (trimmed text)) :=
  (showsWrite_writeAll h tree).same rfl

/-- The last text that meets a path decides. A path that no text meets leads
where it led before, to a text, to a whole tree or nowhere. Otherwise the last
text whose path meets it is at the end of the path, or ends the path on its way,
or makes the path lead to a tree. A dotted key reads the path of its segments, so
it gives the text that was written under it last. -/
theorem last_text_decides (tree : Tree) (separator : String) (values : Bindings String) :
    (∀ path, (∀ key ∈ values.keys, ¬ Meets (segments separator key) path) →
      (tree.writeAll separator values).at? path = tree.at? path) ∧
    (∀ (before after : Bindings String) (key text : String) (path : List String),
      values = before ++ (key, text) :: after → Meets (segments separator key) path →
      (∀ later ∈ after.keys, ¬ Meets (segments separator later) path) →
      (tree.writeAll separator values).ShowsWrite (segments separator key) (trimmed text) path) ∧
    (∀ key, (tree.writeAll separator values).getDotted? separator key =
      (tree.writeAll separator values).at? (segments separator key)) ∧
    ∀ (before after : Bindings String) (key text : String),
      values = before ++ (key, text) :: after →
      (∀ later ∈ after.keys, ¬ Meets (segments separator later) (segments separator key)) →
      (tree.writeAll separator values).getDotted? separator key =
        some (.scalar (trimmed text)) := by
  refine ⟨?_, ?_, fun _ => rfl, ?_⟩
  · exact fun path hvalues => at?_writeAll_of_forall_not_meets hvalues tree
  · intro before after key text path hvalues _ hlater
    subst hvalues
    exact showsWrite_writeAll hlater tree
  · intro before after key text hvalues hlater
    subst hvalues
    exact getDotted?_writeAll hlater tree

/-- A text in the place of a tree, a text through another one, and one that meets
neither of them. -/
theorem last_text_decides_among_three :
    let tree : Tree := ⟨.branch "a" (.scalar "b" "0" (.branch "c" (.scalar "d" "1" .nil) .nil))
      (.branch "e" (.scalar "f" "2" .nil) .nil), by decide⟩
    let values : Bindings String := [("a.b.x", " 3 "), ("a.c", "4"), ("g", "5")]
    (∀ key ∈ values.keys, ¬ Meets (segments "." key) ["e"]) ∧
      (tree.writeAll "." values).at? ["e"] = tree.at? ["e"] ∧
      Meets (segments "." "a.c") ["a", "c", "d"] ∧
      (tree.writeAll "." values).at? ["a", "c", "d"] = none ∧
      Meets (segments "." "a.b.x") ["a", "b"] ∧
      (∃ subtree, (tree.writeAll "." values).at? ["a", "b"] = some (.tree subtree)) ∧
      (tree.writeAll "." values).getDotted? "." "a.b.x" = some (.scalar "3") := by
  intro tree values
  have htrimmed : trimmed " 3 " = "3" := by decide +kernel
  obtain ⟨hframe, hlast, -, hdotted⟩ := last_text_decides tree "." values
  have hnone : ∀ key ∈ values.keys, ¬ Meets (segments "." key) ["e"] := by decide +kernel
  have hbeyond := hlast [("a.b.x", " 3 ")] [("g", "5")] "a.c" "4" ["a", "c", "d"] rfl
    (by decide +kernel) (by decide +kernel)
  have htowards := hlast [] [("a.c", "4"), ("g", "5")] "a.b.x" " 3 " ["a", "b"] rfl
    (by decide +kernel) (by decide +kernel)
  have hread := hdotted [] [("a.c", "4"), ("g", "5")] "a.b.x" " 3 " rfl (by decide +kernel)
  rw [htrimmed] at hread
  refine ⟨hnone, hframe ["e"] hnone, by decide +kernel, ?_, by decide +kernel, ?_, hread⟩
  · exact hbeyond.beyond (by decide +kernel) (by decide +kernel)
  · exact htowards.towards (by decide +kernel) (by decide +kernel)

/-- Without a separator a key is not cut. -/
example : (empty.writeAll "" [("a.b", "1")]).getDotted? "" "a.b" = some (.scalar "1") := by
  decide +kernel

end Tree

end LayeredIni
