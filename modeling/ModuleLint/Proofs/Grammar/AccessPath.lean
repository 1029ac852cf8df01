import ModuleLint.Proofs.Check.BoundNames
import ModuleLint.Proofs.Grammar.ScriptTrace
import ModuleLint.Proofs.Grammar.StatementWording
import ModuleLint.Proofs.Token.Names

/-!
Dotted names and access paths.

A dotted name says which access path a node is: no name and no property has a dot in it, and no name
is spelled `this` or `super`. Both hold of tokens, and every word in a tree comes from one.
-/

namespace ModuleLint

/-- What an access path starts from. -/
inductive PathRoot
  | name (identifier : Bytes)
  | this
  | super
  deriving DecidableEq, Repr

namespace PathRoot

/-- How the root is written. -/
def text : PathRoot → Bytes
  | name identifier => identifier
  | this => ascii "this"
  | super => ascii "super"

/-- The words of a path: there is no dot in them, and a name is written like no other root. -/
structure Distinct (root : PathRoot) (properties : List Bytes) : Prop where
  noDot : ∀ word ∈ root.text :: properties, Byte.dot ∉ word
  noKeyword : ∀ identifier, root = name identifier →
    identifier ≠ ascii "this" ∧ identifier ≠ ascii "super"

section Words

variable {root root' : PathRoot} {properties properties' : List Bytes}

lemma Distinct.eq_of_text (h : root.Distinct properties) (h' : root'.Distinct properties')
    (same : root.text = root'.text) : root = root' := by
  cases root with
  | name identifier =>
    obtain ⟨notThis, notSuper⟩ := h.noKeyword identifier rfl
    cases root' with
    | name _ => exact congrArg name same
    | this => exact absurd same notThis
    | super => exact absurd same notSuper
  | this =>
    cases root' with
    | name identifier => exact absurd same.symm (h'.noKeyword identifier rfl).1
    | this => rfl
    | super => cases same
  | super =>
    cases root' with
    | name identifier => exact absurd same.symm (h'.noKeyword identifier rfl).2
    | this => cases same
    | super => rfl

/-- Words without dots are told from what they are joined to. -/
lemma Distinct.eq_of_join (h : root.Distinct properties) (h' : root'.Distinct properties')
    (same : Bytes.join [Byte.dot] (root.text :: properties) =
      Bytes.join [Byte.dot] (root'.text :: properties')) :
    root = root' ∧ properties = properties' := by
  have words := congrArg (List.splitOn Byte.dot) same
  rw [Bytes.join, Bytes.join, List.splitOn_intercalate _ h.noDot (List.cons_ne_nil _ _),
    List.splitOn_intercalate _ h'.noDot (List.cons_ne_nil _ _)] at words
  obtain ⟨text, rest⟩ := List.cons.inj words
  exact ⟨h.eq_of_text h' text, rest⟩

end Words

end PathRoot

namespace Node

/-- The node is an access path: a root, and the properties that are read from it in order. -/
inductive IsPath : Node → PathRoot → List Bytes → Prop
  | name {value : Bytes} {span : Span} {flags : NodeFlags} {l : List Node} :
    IsPath ⟨.name, value, span, flags, l⟩ (.name value) []
  | this {value : Bytes} {span : Span} {flags : NodeFlags} {l : List Node} :
    IsPath ⟨.thisExpr, value, span, flags, l⟩ .this []
  | super {value : Bytes} {span : Span} {flags : NodeFlags} {l : List Node} :
    IsPath ⟨.superExpr, value, span, flags, l⟩ .super []
  | property {value : Bytes} {span : Span} {flags : NodeFlags} {object : Node} {l : List Node}
    {root : PathRoot} {properties : List Bytes} (h : IsPath object root properties) :
    IsPath ⟨.getProp, value, span, flags, object :: l⟩ root (properties ++ [value])

variable {n : Node} {root root' : PathRoot} {properties properties' path : List Bytes}

lemma IsPath.path? (h : n.IsPath root properties) : n.path? = some (root.text :: properties) := by
  induction h with
  | name | this | super => rfl
  | property _ ih =>
    rw [Node.path?, ih]
    rfl

/-- Every path is one from a root. -/
lemma exists_isPath (h : n.path? = some path) :
    ∃ root properties, n.IsPath root properties ∧ path = root.text :: properties := by
  fun_induction Node.path? n generalizing path
  case case1 value span flags l =>
    cases h
    exact ⟨_, _, .name, rfl⟩
  case case2 =>
    cases h
    exact ⟨_, _, .this, rfl⟩
  case case3 =>
    cases h
    exact ⟨_, _, .super, rfl⟩
  case case4 object _ ih =>
    obtain ⟨inner, found, rfl⟩ := Option.map_eq_some_iff.mp h
    obtain ⟨root, properties, isPath, rfl⟩ := ih found
    exact ⟨root, _, .property isPath, rfl⟩
  case case5 => cases h

lemma isPath_name_iff {identifier : Bytes} :
    n.IsPath (.name identifier) [] ↔ n.kind = .name ∧ n.value = identifier := by
  obtain ⟨kind, value, span, flags, l⟩ := n
  constructor
  · intro h
    generalize whole : ([] : List Bytes) = path at h
    cases h with
    | name => exact ⟨rfl, rfl⟩
    | property => exact absurd whole.symm (List.append_ne_nil_of_right_ne_nil _ nofun)
  · rintro ⟨rfl, rfl⟩
    exact .name

/-- The last property of a path is that of the node. -/
lemma isPath_concat_iff {property : Bytes} : n.IsPath root (properties ++ [property]) ↔
    n.kind = .getProp ∧ n.value = property ∧
      ∃ object l, n.children = object :: l ∧ object.IsPath root properties := by
  obtain ⟨kind, value, span, flags, l⟩ := n
  constructor
  · intro h
    generalize whole : properties ++ [property] = path at h
    cases h with
    | name | this | super => exact absurd whole (List.append_ne_nil_of_right_ne_nil _ nofun)
    | property inner =>
      obtain ⟨rfl, last⟩ := List.append_inj' whole rfl
      exact ⟨rfl, (List.singleton_inj.mp last).symm, _, _, rfl, inner⟩
  · rintro ⟨rfl, rfl, object, l, rfl, inner⟩
    exact .property inner

/-- The words of a path are told apart if they are tokens. -/
lemma IsPath.distinct (h : n.IsPath root properties) (worded : n.WordedBy Token.IsProper) :
    root.Distinct properties := by
  induction h with
  | @name value _ _ _ =>
    rcases worded.name rfl with none | ⟨t, proper, kind, spelled⟩
    · obtain rfl : value = [] := none
      refine ⟨List.forall_mem_singleton.mpr List.not_mem_nil, ?_⟩
      rintro identifier ⟨⟩
      exact ⟨by decide, by decide⟩
    · obtain rfl : value = t.value := spelled
      have isName : t.kind.isName := by
        rw [kind]
        rfl
      have name := proper isName
      refine ⟨List.forall_mem_singleton.mpr name.noDot, ?_⟩
      rintro identifier ⟨⟩
      exact ⟨name.ne_keyword kind (by decide), name.ne_keyword kind (by decide)⟩
  | this => exact ⟨List.forall_mem_singleton.mpr (by decide), nofun⟩
  | super => exact ⟨List.forall_mem_singleton.mpr (by decide), nofun⟩
  | @property value _ _ _ _ _ _ _ ih =>
    obtain ⟨noDot, noKeyword⟩ := ih (worded.child List.mem_cons_self)
    obtain ⟨t, proper, isName, spelled⟩ := worded.property rfl
    obtain rfl : value = t.value := spelled
    have last : ∀ word ∈ [t.value], Byte.dot ∉ word :=
      List.forall_mem_singleton.mpr (proper isName).noDot
    exact ⟨List.forall_mem_append.mpr ⟨noDot, last⟩, noKeyword⟩

lemma IsPath.dottedName? (h : n.IsPath root properties) :
    n.dottedName? = some (Bytes.join [Byte.dot] (root.text :: properties)) := by
  rw [Node.dottedName?, h.path?]
  rfl

lemma exists_isPath_of_dottedName? {name : Bytes} (h : n.dottedName? = some name) :
    ∃ root properties, n.IsPath root properties ∧
      name = Bytes.join [Byte.dot] (root.text :: properties) := by
  obtain ⟨path, found, rfl⟩ := Option.map_eq_some_iff.mp h
  obtain ⟨root, properties, isPath, rfl⟩ := exists_isPath found
  exact ⟨root, properties, isPath, rfl⟩

/-- A node whose words are tokens spells the path that it is, and no other. -/
lemma spells_iff (worded : n.WordedBy Token.IsProper)
    (h : root.Distinct properties) :
    n.spells (Bytes.join [Byte.dot] (root.text :: properties)) ↔ n.IsPath root properties := by
  rw [spells, beq_iff_eq]
  constructor
  · intro spelled
    obtain ⟨root', properties', isPath, same⟩ := exists_isPath_of_dottedName? spelled
    obtain ⟨rfl, rfl⟩ := h.eq_of_join (isPath.distinct worded) same
    exact isPath
  · exact IsPath.dottedName?

end Node

/-- The names and properties of a script are tokens of its source. -/
lemma Source.wordedBy {s : Source} {script : Node} (h : s.script = .ok script) {path : List Nat}
    {spot : Spot} (hs : (Spot.root script).at? path = some spot) :
    spot.node.WordedBy Token.IsProper := by
  have whole : script.WordedBy Token.IsProper :=
    Grammar.script_words (s.script_eq_ok h) s.tokens_isProper
  refine Spot.at?_keeps (P := (·.node.WordedBy Token.IsProper)) (fun s i t worded ht => ?_) whole hs
  exact worded.child (Spot.child?_eq_some ht).1

/-- Only the property `module` of the name `goog` spells `goog.module`. -/
lemma Node.spells_module_iff {n : Node} (worded : n.WordedBy Token.IsProper)
    (wf : n.WellFormed) : n.spells (ascii "goog.module") ↔
      n.kind = .getProp ∧ n.value = ascii "module" ∧
        ∃ object, n.children = [object] ∧ object.kind = .name ∧ object.value = ascii "goog" := by
  have distinct : (PathRoot.name (ascii "goog")).Distinct [ascii "module"] := by
    refine ⟨by decide, ?_⟩
    rintro identifier ⟨⟩
    exact ⟨by decide, by decide⟩
  refine (spells_iff worded distinct).trans ?_
  refine (@isPath_concat_iff n _ [] (ascii "module")).trans ?_
  refine and_congr_right fun kind => and_congr_right fun _ => ?_
  constructor
  · rintro ⟨object, l, children, name⟩
    have fit : InOrder [IsExpression] (object :: l) := by
      have fit := wf.fit
      rw [kind, children] at fit
      exact fit
    obtain rfl : l = [] := List.length_eq_zero_iff.mp (Nat.succ.inj fit.length_eq)
    exact ⟨object, children, isPath_name_iff.mp name⟩
  · rintro ⟨object, children, name⟩
    exact ⟨object, [], children, isPath_name_iff.mpr name⟩

/-- **Dotted names identify access paths.** Two nodes of scripts have the same dotted name exactly
if they are the same path: the same root, and the same properties in the same order. So a node
spells `goog.module` exactly if it reads the property `module` of the name `goog`. -/
theorem Source.dottedName_identifies {s s' : Source} {script script' : Node}
    (h : s.script = .ok script) (h' : s'.script = .ok script') {path path' : List Nat}
    {a b : Spot} (ha : (Spot.root script).at? path = some a)
    (hb : (Spot.root script').at? path' = some b) :
    (∀ x y, a.node.dottedName? = some x → b.node.dottedName? = some y →
      (x = y ↔ ∃ root properties, a.node.IsPath root properties ∧
        b.node.IsPath root properties)) ∧
    (a.node.spells (ascii "goog.module") ↔
      a.node.kind = .getProp ∧ a.node.value = ascii "module" ∧
        ∃ object, a.node.children = [object] ∧ object.kind = .name ∧
          object.value = ascii "goog") := by
  have wordedA := s.wordedBy h ha
  have wordedB := s'.wordedBy h' hb
  have wf : a.node.WellFormed :=
    Node.WellFormed.at? (s := .root script) (Grammar.script_as (s.script_eq_ok h)).2 ha
  refine ⟨fun x y hx hy => ⟨fun same => ?_, ?_⟩, Node.spells_module_iff wordedA wf⟩
  · obtain ⟨root, properties, isPath, rfl⟩ := Node.exists_isPath_of_dottedName? hx
    obtain ⟨root', properties', isPath', rfl⟩ := Node.exists_isPath_of_dottedName? hy
    obtain ⟨rfl, rfl⟩ := (isPath.distinct wordedA).eq_of_join (isPath'.distinct wordedB) same
    exact ⟨root, properties, isPath, isPath'⟩
  · rintro ⟨root, properties, isPath, isPath'⟩
    have first := hx.symm.trans isPath.dottedName?
    have second := hy.symm.trans isPath'.dottedName?
    exact Option.some.inj (first.trans second.symm)

/-- The callee in `goog.module('m');` is the same path as the object in
`f(goog . /**/ module.this)`. -/
theorem Source.dottedName_identifies_module :
    let s : Source := ⟨[], ascii "goog.module('m');"⟩
    let s' : Source := ⟨[], ascii "f(goog . /**/ module.this)"⟩
    ∃ script script' a b object root properties, s.script = .ok script ∧
      s'.script = .ok script' ∧ (Spot.root script).at? [0, 0, 0] = some a ∧
      (Spot.root script').at? [0, 0, 1, 0] = some b ∧
      a.node.IsPath root properties ∧ b.node.IsPath root properties ∧
      a.node.children = [object] ∧ object.value = ascii "goog" := by
  intro s s'
  have named : (s.spotAt? [0, 0, 0]).map (·.node.dottedName?) =
      some (some (ascii "goog.module")) := by decide +kernel
  have named' : (s'.spotAt? [0, 0, 1, 0]).map (·.node.dottedName?) =
      some (some (ascii "goog.module")) := by decide +kernel
  obtain ⟨a, found, hx⟩ := Option.map_eq_some_iff.mp named
  obtain ⟨b, found', hy⟩ := Option.map_eq_some_iff.mp named'
  obtain ⟨script, reads, ha⟩ := exists_of_spotAt? found
  obtain ⟨script', reads', hb⟩ := exists_of_spotAt? found'
  obtain ⟨same, spells⟩ := Source.dottedName_identifies reads reads' ha hb
  obtain ⟨root, properties, isPath, isPath'⟩ := (same _ _ hx hy).mp rfl
  obtain ⟨-, -, object, children, -, goog⟩ := spells.mp (beq_iff_eq.mpr hx)
  exact ⟨script, script', a, b, object, root, properties, reads, reads', ha, hb, isPath, isPath',
    children, goog⟩

end ModuleLint
