/-
# The names that a document sees

A document asks its scope for the names in the conditions of its headers and for
nothing else. Two scopes that give these names the same texts make every
condition come out the same, so that the same sections count and every step of
reading is the same. A name without a text counts as the empty text all the way.
-/

import LayeredIni.Context
import LayeredIni.Proofs.Fallible
import Mathlib.Logic.Function.Basic

namespace LayeredIni

open LayeredIni.Fallible

/-- The names that a header refers to. -/
def Header.names : Header → List String
  | conditional _ condition => condition.names
  | _ => []

namespace Document

/-- The names that the header of a section refers to, none if it cannot be read. -/
def Section.names (part : Section) : List String :=
  match Header.parse part.header with
  | .error _ => []
  | .ok header => header.names

/-- The names that the headers of a document refer to, none if one of its lines
cannot be read. -/
def names (text : String) : List String :=
  match sections text with
  | .error _ => []
  | .ok parts => parts.flatMap Section.names

end Document

variable {first second : Scope}

theorem Operand.text_congr {operand : Operand}
    (h : ∀ name ∈ operand.names, first.text name = second.text name) :
    operand.text first = operand.text second := by
  cases operand with
  | reference name => exact h name (List.mem_singleton_self name)
  | literal text => rfl

theorem Condition.eval_congr {condition : Condition}
    (h : ∀ name ∈ condition.names, first.text name = second.text name) :
    condition.eval first = condition.eval second := by
  induction condition with
  | truthy operand => rw [eval, eval, Operand.text_congr h]
  | compare left comparison right =>
    obtain ⟨hleft, hright⟩ := List.forall_mem_append.mp h
    rw [eval, eval, Operand.text_congr hleft, Operand.text_congr hright]
  | not condition ih => rw [eval, eval, ih h]
  | and left right ihLeft ihRight =>
    obtain ⟨hleft, hright⟩ := List.forall_mem_append.mp h
    rw [eval, eval, ihLeft hleft, ihRight hright]
  | or left right ihLeft ihRight =>
    obtain ⟨hleft, hright⟩ := List.forall_mem_append.mp h
    rw [eval, eval, ihLeft hleft, ihRight hright]

theorem Header.resolve_congr {header : Header}
    (h : ∀ name ∈ header.names, first.text name = second.text name) (tree : Tree) :
    header.resolve first tree = header.resolve second tree := by
  cases header with
  | plain name => rfl
  | inherit child parent => rfl
  | conditional name condition => rw [resolve, resolve, Condition.eval_congr h]

/-- An environment is asked for a name with its leader in front. -/
theorem Scope.environment_eq_append (leader : String) (bindings : Bindings String)
    (name : String) :
    environment leader bindings name = environment "" bindings (leader ++ name) := by
  have hsought : (leader ++ name).toList = leader.toList ++ name.toList := String.toList_append
  unfold environment
  rw [hsought]
  rfl

/-- A name without a text and a name with the empty text are the same to every
condition. -/
theorem Scope.text_update_empty {scope : Scope} {name : String} (h : scope name = none)
    (other : String) : text (Function.update scope name (some "")) other = scope.text other := by
  by_cases hother : other = name
  · subst hother
    simp [text, h]
  · simp [text, hother]

namespace Context

variable {separator text : String}

theorem place_congr {part : Document.Section}
    (h : ∀ name ∈ part.names, first.text name = second.text name) (tree : Tree) :
    place ⟨separator, first⟩ tree part = place ⟨separator, second⟩ tree part := by
  unfold Document.Section.names at h
  cases hparse : Header.parse part.header with
  | error error => rw [place_of_parse_error hparse, place_of_parse_error hparse]
  | ok header =>
    rw [hparse] at h
    rw [place, place, Tree.resolve_of_parse hparse, Tree.resolve_of_parse hparse,
      Header.resolve_congr h tree]
    rfl

theorem parse_congr (h : ∀ name ∈ Document.names text, first.text name = second.text name) :
    parse ⟨separator, first⟩ text = parse ⟨separator, second⟩ text := by
  unfold Document.names at h
  cases hsections : Document.sections text with
  | error error => rw [parse_of_sections_error hsections, parse_of_sections_error hsections]
  | ok parts =>
    rw [hsections] at h
    have hrun : treeOfSections ⟨separator, first⟩ parts =
        treeOfSections ⟨separator, second⟩ parts := by
      apply foldlM_congr
      intro part hpart tree
      exact place_congr (fun name hname => h name (List.mem_flatMap_of_mem hpart hname)) tree
    rw [parse_of_sections hsections, parse_of_sections hsections, hrun]

/-- A document sees only the names in the conditions of its headers. Scopes
that give these names the same texts give the same outcome, be it a tree with its
order of keys or an error. An environment is asked for the names with its leader
in front. Whether a name has no text or the empty one makes no difference. -/
theorem outcome_of_named_texts (separator text : String) :
    (∀ first second : Scope,
      (∀ name ∈ Document.names text, first.text name = second.text name) →
      parse ⟨separator, first⟩ text = parse ⟨separator, second⟩ text) ∧
    (∀ (scope : Scope) (leader : String) (bindings : Bindings String),
      (∀ name ∈ Document.names text,
        scope.text name = (Scope.environment "" bindings).text (leader ++ name)) →
      parse ⟨separator, scope⟩ text =
        parse ⟨separator, Scope.environment leader bindings⟩ text) ∧
    ∀ (scope : Scope) (name : String), scope name = none →
      parse ⟨separator, Function.update scope name (some "")⟩ text =
        parse ⟨separator, scope⟩ text := by
  refine ⟨fun _ _ => parse_congr, ?_, ?_⟩
  · intro scope leader bindings h
    apply parse_congr
    intro name hname
    rw [h name hname, Scope.text, Scope.text, Scope.environment_eq_append leader]
  · intro scope name h
    exact parse_congr fun other _ => Scope.text_update_empty h other

/-- A name that has the empty text in one scope and none in another one, where a
variable of the same name without the leader does not count. With the text of that
variable the section would not count. -/
theorem outcome_of_named_texts_under_leader :
    let text := "[a (!$X)]\nk = 1\n"
    let scope : Scope := Scope.ofBindings [("X", ""), ("Y", "1")]
    let bindings : Bindings String := [("X", "9"), ("P_Y", "2")]
    let other : Scope := Scope.environment "P_" bindings
    Document.names text = ["X"] ∧
      (∀ name ∈ Document.names text, scope.text name = other.text name) ∧
      parse ⟨".", scope⟩ text = parse ⟨".", other⟩ text ∧
      (∀ name ∈ Document.names text,
        scope.text name = (Scope.environment "" bindings).text ("P_" ++ name)) ∧
      parse ⟨".", scope⟩ text = parse ⟨".", Scope.environment "P_" bindings⟩ text ∧
      other "X" = none ∧
      parse ⟨".", Function.update other "X" (some "")⟩ text = parse ⟨".", other⟩ text ∧
      parse ⟨".", scope⟩ text = .ok ⟨.branch "a" (.scalar "k" "1" .nil) .nil, by decide⟩ ∧
      parse ⟨".", Scope.ofBindings bindings⟩ text = .ok .empty := by
  intro text scope bindings other
  obtain ⟨hscopes, henvironment, hempty⟩ := outcome_of_named_texts "." text
  have hnames : Document.names text = ["X"] := by decide +kernel
  have hsame : ∀ name ∈ Document.names text, scope.text name = other.text name := by
    rw [hnames]
    decide +kernel
  have hleader : ∀ name ∈ Document.names text,
      scope.text name = (Scope.environment "" bindings).text ("P_" ++ name) := by
    rw [hnames]
    decide +kernel
  have hunknown : other "X" = none := by decide +kernel
  exact ⟨hnames, hsame, hscopes scope other hsame, hleader,
    henvironment scope "P_" bindings hleader, hunknown, hempty other "X" hunknown,
    by decide +kernel, by decide +kernel⟩

end Context

end LayeredIni
