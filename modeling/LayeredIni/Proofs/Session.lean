/-
# Sessions on one tree

A session changes one tree by any operations, one after the other, and goes on
after an operation that fails. An operation runs on the tree as a state that
outlives a failure, so that it could leave half of its work behind. None does:
an operation that fails, or that reports that it has nothing to do, leaves the
tree as it was.

Whatever the operations are, keys stay where they first came up. Which keys an
operation lets come up is settled by the operation alone (`Operation.named`),
so the order of the keys after a session can be read off its operations.
-/

import LayeredIni.Proofs.Context.Placement
import LayeredIni.Proofs.Tree.Order

namespace LayeredIni

/-- What an operation reports when it does not fail. -/
inductive Report
  /-- What a header came to. -/
  | resolved (resolution : Resolution)
  /-- What a key stood for before. -/
  | previous (node : Option Node)
  /-- Whether there was something to replace. -/
  | replaced (found : Bool)
  /-- Nothing in particular. -/
  | done

/-- Whether an operation says that it has done nothing. -/
def Refused : Except ParseError Report → Prop
  | .error _ => True
  | .ok (.resolved .skip) => True
  | .ok (.replaced false) => True
  | .ok _ => False

/-- An operation on the tree of a session. -/
inductive Operation
  /-- Applies a header. -/
  | resolve (scope : Scope) (raw : String)
  /-- Gives a key a node. -/
  | insert (key : String) (node : Node)
  /-- Gives a key that is there another node. -/
  | replace (key : String) (node : Node)
  /-- Writes texts at dotted keys. -/
  | merge (separator : String) (values : Bindings String)
  /-- Lays a tree over the tree. -/
  | overlay (layer : Tree)
  /-- Reads a document and lays its tree over the tree. -/
  | overlayText (context : Context) (text : String)

namespace Operation

/-- Runs an operation. What is done to the tree before a failure stays done. -/
def perform : Operation → ExceptT ParseError (StateM Tree) Report
  | resolve scope raw => do
    let header ← MonadExcept.ofExcept ((Header.parse raw).mapError ParseError.invalidHeader)
    let (resolution, after) := header.resolve scope (← get)
    set after
    return .resolved resolution
  | insert key node => do
    let tree ← get
    set (tree.insert key node)
    return .previous (tree.get? key)
  | replace key node => do
    match (← get).replace? key node with
    | none => return .replaced false
    | some after =>
      set after
      return .replaced true
  | merge separator values => do
    modify (·.writeAll separator values)
    return .done
  | overlay layer => do
    modify (·.overlay layer)
    return .done
  | overlayText context text => do
    let layer ← MonadExcept.ofExcept (context.parse text)
    modify (·.overlay layer)
    return .done

/-- What an operation reports on a tree, and the tree after it. -/
def apply (operation : Operation) (tree : Tree) : Except ParseError Report × Tree :=
  operation.perform.run.run tree

/-- The keys at the top that an operation lets come up, in its order. -/
def named : Operation → List String
  | resolve scope raw =>
    match Header.parse raw with
    | .error _ => []
    | .ok header => (header.key? scope).toList
  | insert key _ => [key]
  | replace _ _ => []
  | merge separator values =>
    values.flatMap fun binding => (segments separator binding.1).head?.toList
  | overlay layer => layer.keys
  | overlayText context text =>
    match context.parse text with
    | .error _ => []
    | .ok layer => layer.keys

theorem apply_resolve (scope : Scope) (raw : String) (tree : Tree) :
    (resolve scope raw).apply tree =
      match tree.resolve scope raw with
      | .error error => (.error (.invalidHeader error), tree)
      | .ok (resolution, after) => (.ok (.resolved resolution), after) := by
  rw [Tree.resolve, apply, perform]
  cases Header.parse raw <;> rfl

theorem apply_replace (key : String) (node : Node) (tree : Tree) :
    (replace key node).apply tree =
      match tree.replace? key node with
      | none => (.ok (.replaced false), tree)
      | some after => (.ok (.replaced true), after) := by
  have hrun : (replace key node).apply tree =
      (match tree.replace? key node with
        | none => return .replaced false
        | some after => do
          set after
          return .replaced true : ExceptT ParseError (StateM Tree) Report).run.run tree := rfl
  rw [hrun]
  cases tree.replace? key node <;> rfl

theorem apply_overlayText (context : Context) (text : String) (tree : Tree) :
    (overlayText context text).apply tree =
      match context.parse text with
      | .error error => (.error error, tree)
      | .ok layer => (.ok .done, tree.overlay layer) := by
  rw [apply, perform]
  cases context.parse text <;> rfl

/-- A header lets its key come up if it counts. -/
theorem keys_resolve_of_keys_eq {tree : Tree} {keys : List String}
    (h : tree.keys = keys.eraseDups) (scope : Scope) (header : Header) :
    (header.resolve scope tree).2.keys = (keys ++ (header.key? scope).toList).eraseDups := by
  cases hkey : header.key? scope with
  | none =>
    rw [Header.resolve_of_key?_eq_none hkey]
    simpa using h
  | some key =>
    obtain ⟨_, -, hresolve⟩ := Header.resolve_of_key?_eq_some hkey tree
    rw [hresolve]
    exact Tree.keys_insert_of_keys_eq h key _

theorem keys_eq_of_replace? {tree after : Tree} {key : String} {node : Node}
    (h : tree.replace? key node = some after) : after.keys = tree.keys := by
  unfold Tree.replace? at h
  split at h
  · next hkey =>
    cases h
    rw [Tree.keys_insert, if_pos hkey]
  · cases h

/-- What an operation does to the order of the keys. The keys it lets come up
are behind those that were there, wherever they are new. -/
theorem keys_apply_of_keys_eq (operation : Operation) {tree : Tree} {keys : List String}
    (h : tree.keys = keys.eraseDups) :
    (operation.apply tree).2.keys = (keys ++ operation.named).eraseDups := by
  cases operation with
  | resolve scope raw =>
    rw [apply_resolve, named]
    cases hparse : Header.parse raw with
    | error error =>
      rw [Tree.resolve_of_parse_error hparse]
      simpa using h
    | ok header =>
      rw [Tree.resolve_of_parse hparse]
      exact keys_resolve_of_keys_eq h scope header
  | insert key node => exact Tree.keys_insert_of_keys_eq h key node
  | replace key node =>
    rw [apply_replace, named, List.append_nil]
    cases hreplace : tree.replace? key node with
    | none => exact h
    | some after => exact (keys_eq_of_replace? hreplace).trans h
  | merge separator values => exact Tree.keys_writeAll_of_keys_eq h separator values
  | overlay layer => exact Tree.keys_overlay_of_keys_eq h layer
  | overlayText context text =>
    rw [apply_overlayText, named]
    cases context.parse text with
    | error error => simpa using h
    | ok layer => exact Tree.keys_overlay_of_keys_eq h layer

theorem eq_of_resolve_eq_skip {scope : Scope} {tree after : Tree} {raw : String}
    (h : tree.resolve scope raw = .ok (.skip, after)) : after = tree := by
  cases hparse : Header.parse raw with
  | error error =>
    rw [Tree.resolve_of_parse_error hparse] at h
    cases h
  | ok header =>
    rw [Tree.resolve_of_parse hparse] at h
    have hresolve := Except.ok.inj h
    cases hkey : header.key? scope with
    | none =>
      rw [Header.resolve_of_key?_eq_none hkey] at hresolve
      exact (congrArg Prod.snd hresolve).symm
    | some key =>
      obtain ⟨resolution, hresolution, hinsert⟩ := Header.resolve_of_key?_eq_some hkey tree
      rw [hinsert] at hresolve
      cases hresolve
      cases hresolution

/-- An operation that says that it has done nothing has done nothing. -/
theorem apply_of_refused (operation : Operation) {tree : Tree}
    (h : Refused (operation.apply tree).1) : (operation.apply tree).2 = tree := by
  cases operation with
  | resolve scope raw =>
    rw [apply_resolve] at h ⊢
    cases hresolve : tree.resolve scope raw with
    | error error => rfl
    | ok result =>
      obtain ⟨resolution, after⟩ := result
      rw [hresolve] at h
      cases resolution with
      | skip => exact eq_of_resolve_eq_skip hresolve
      | inherit key => cases h
      | accept key => cases h
  | insert key node => cases h
  | replace key node =>
    rw [apply_replace] at h ⊢
    cases hreplace : tree.replace? key node with
    | none => rfl
    | some after =>
      rw [hreplace] at h
      cases h
  | merge separator values => cases h
  | overlay layer => cases h
  | overlayText context text =>
    rw [apply_overlayText] at h ⊢
    cases hparse : context.parse text with
    | error error => rfl
    | ok layer =>
      rw [hparse] at h
      cases h

end Operation

/-- The tree after a session that starts with the empty tree. -/
def treeAfter (operations : List Operation) : Tree :=
  operations.foldl (fun tree operation => (operation.apply tree).2) .empty

theorem treeAfter_concat (operations : List Operation) (operation : Operation) :
    treeAfter (operations ++ [operation]) = (operation.apply (treeAfter operations)).2 :=
  List.foldl_append

/-- The keys after a session stand in the order in which its operations first
let them come up. -/
theorem keys_treeAfter (operations : List Operation) :
    (treeAfter operations).keys = (operations.flatMap Operation.named).eraseDups := by
  have hstart : Tree.empty.keys = [].eraseDups := rfl
  exact Tree.keys_foldl_of_keys_eq Tree.keys
    (fun operation _ _ _ => operation.keys_apply_of_keys_eq) hstart

/-- What every session keeps. At no level of its tree does a key come up
twice, and the keys at the top stand in the order in which they first came up.
Any further operation leaves them in front, in their order, and puts behind them
what is new; and if it fails, skips or finds nothing to replace, it leaves the
whole tree as it was. -/
theorem session_keeps (operations : List Operation) :
    (∀ path found, (treeAfter operations).at? path = some (.tree found) → found.keys.Nodup) ∧
      (treeAfter operations).keys = (operations.flatMap Operation.named).eraseDups ∧
      ∀ operation : Operation,
        (treeAfter operations).keys <+: (treeAfter (operations ++ [operation])).keys ∧
        (treeAfter (operations ++ [operation])).keys =
          ((treeAfter operations).keys ++ operation.named).eraseDups ∧
        (Refused (operation.apply (treeAfter operations)).1 →
          treeAfter (operations ++ [operation]) = treeAfter operations) := by
  refine ⟨fun _ found _ => found.nodup_keys, keys_treeAfter operations, ?_⟩
  intro operation
  have hkeys : (treeAfter (operations ++ [operation])).keys =
      ((treeAfter operations).keys ++ operation.named).eraseDups := by
    rw [treeAfter_concat]
    exact operation.keys_apply_of_keys_eq (treeAfter operations).eraseDups_keys.symm
  refine ⟨?_, hkeys, ?_⟩
  · rw [hkeys]
    exact prefix_eraseDups_append (treeAfter operations).nodup_keys
  · intro hrefused
    rw [treeAfter_concat]
    exact operation.apply_of_refused hrefused

/-- A session that copies a parent into a key that is there already. Neither a
header that is skipped nor a text whose second line is bad adds a key to it, and
a key below an older one comes in behind it. -/
theorem session_keeps_refusals :
    let operations : List Operation := [.insert "b" (.scalar "0"),
      .merge "." [("a.x", "1"), ("b", "2")], .resolve Scope.empty "b : a"]
    let skipped : Operation := .resolve Scope.empty "d (off)"
    let failed : Operation := .overlayText {} "[d]\n[e"
    (treeAfter operations).keys = ["b", "a"] ∧ (treeAfter operations).keys.Nodup ∧
      Refused (skipped.apply (treeAfter operations)).1 ∧
      treeAfter (operations ++ [skipped]) = treeAfter operations ∧
      Refused (failed.apply (treeAfter operations)).1 ∧
      treeAfter (operations ++ [failed]) = treeAfter operations ∧
      (treeAfter (operations ++ [.merge "/" [("d/y", "4"), ("a", "5")]])).keys =
        ["b", "a", "d"] := by
  intro operations skipped failed
  have hoff : Header.parse "d (off)" = .ok (.conditional "d" (.truthy (.literal "off"))) := by
    decide +kernel
  have hfalse : (Condition.truthy (.literal "off")).eval Scope.empty = false := by decide +kernel
  have hskipped : Refused (skipped.apply (treeAfter operations)).1 := by
    rw [Operation.apply_resolve, Tree.resolve_of_parse hoff]
    simp [Header.resolve, hfalse, Refused]
  have hbad : Context.parse {} "[d]\n[e" =
      .error (.malformed ⟨2, .unterminatedHeader⟩) := by decide +kernel
  have hfailed : Refused (failed.apply (treeAfter operations)).1 := by
    rw [Operation.apply_overlayText, hbad]
    trivial
  obtain ⟨hnodup, hkeys, hstep⟩ := session_keeps operations
  have hnames : (treeAfter operations).keys = ["b", "a"] := by
    rw [hkeys]
    decide +kernel
  refine ⟨hnames, hnodup [] _ rfl, hskipped, (hstep skipped).2.2 hskipped, hfailed,
    (hstep failed).2.2 hfailed, ?_⟩
  rw [(hstep _).2.1, hnames]
  decide +kernel

end LayeredIni
