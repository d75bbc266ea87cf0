import Libdef.Proofs.Declarators
import Libdef.Proofs.Listing
import Libdef.Proofs.Stripping

/-!
Dotted names in trees. A type reference and a query hold one as nested qualified names, a heritage
clause as nested property accesses. Main statement: whatever reads such a name, as a text, as a
node to be printed or as the type of a variable, comes to the same parts in the same order.
-/

set_option autoImplicit false

namespace Libdef

theorem Text.split_join_dot {parts : List Text} (hne : parts ≠ [])
    (h : ∀ p ∈ parts, CodePoint.char '.' ∉ p.toList) : split '.' (join "." parts) = parts :=
  (split_join '.' hne).trans (flatMap_split_of_not_mem h)

theorem Kind.ofName?_name (kind : Kind) : ofName? kind.name = some kind := by
  cases kind <;> decide

/-- The two forms in which dotted names stand in a tree. -/
inductive NameForm where
  | qualifiedName
  | propertyAccess

namespace NameForm

def kind : NameForm → Kind
  | .qualifiedName => .qualifiedName
  | .propertyAccess => .propertyAccessExpression

def left : NameForm → Text
  | .qualifiedName => "left"
  | .propertyAccess => "expression"

def right : NameForm → Text
  | .qualifiedName => "right"
  | .propertyAccess => "name"

/-- A field that is read too, and that names do not have. -/
def extra : NameForm → Text
  | .qualifiedName => "typeArguments"
  | .propertyAccess => "modifiers"

def separator : NameForm → Text
  | .qualifiedName => "."
  | .propertyAccess => "$"

end NameForm

namespace Json

structure IsIdentifier (j : Json) (text : Text) : Prop where
  kind : j.get "kind" = .str "Identifier"
  ownText : j.ownText = some text

/-- A name of these parts: an identifier, or a shorter name and an identifier behind it. -/
inductive Spells (form : NameForm) : List Text → Json → Prop where
  | identifier {p : Text} {j : Json} (h : j.IsIdentifier p) : Spells form [p] j
  | dotted {parts : List Text} {p : Text} {j : Json}
      (hkind : j.get "kind" = .str form.kind.name)
      (hleft : Spells form parts (j.get form.left)) (hright : (j.get form.right).IsIdentifier p)
      (hextra : j.get form.extra = .null) : Spells form (parts ++ [p]) j

variable {j : Json} {p : Text} {parts : List Text} {form : NameForm}

theorem Spells.ne_nil (h : Spells form parts j) : parts ≠ [] := by
  cases h <;> simp

theorem side_eq (j : Json) (key : Text) :
    ((j.field? key).map nameText).getD (.ok none) = (j.get key).nameText := by
  cases h : j.field? key with
  | none => simp only [get, h]; rfl
  | some i => simp [get, h]

theorem nameText_of_isObj (h : j.isObj = true) :
    j.nameText =
      if (j.get "kind").isStr "QualifiedName" then
        dotted (j.get "left").nameText (j.get "right").nameText
      else if (j.get "kind").isStr "PropertyAccessExpression" then
        dotted (j.get "expression").nameText (j.get "name").nameText
      else if (j.get "kind").isStr "ComputedPropertyName" then
        (j.get "expression").nameText.map fun inner => inner.map fun s => "[" ++ s ++ "]"
      else .ok j.ownText := by
  rw [nameText_eq, nameStep_of_isObj h]
  simp only [side_eq]

theorem IsIdentifier.nameText_eq (h : j.IsIdentifier p) : j.nameText = .ok (some p) := by
  rw [nameText_of_isObj (isObj_of_get h.kind rfl)]
  simp [h.kind, isStr, h.ownText]

theorem Spells.nameText_eq (h : Spells form parts j) :
    j.nameText = .ok (some (Text.join "." parts)) := by
  induction h with
  | identifier h => exact h.nameText_eq
  | @dotted parts p j hkind hleft hright _ ih =>
    have hdotted : j.nameText =
        Json.dotted (j.get form.left).nameText (j.get form.right).nameText := by
      rw [nameText_of_isObj (isObj_of_get hkind rfl)]
      cases form <;> simp [hkind, NameForm.kind, Kind.name, isStr, NameForm.left, NameForm.right]
    rw [hdotted, ih, hright.nameText_eq, Text.join_append hleft.ne_nil (by simp)]
    rfl

theorem reading_of_visitor {kind : Text} {v : Visitor} (h : j.get "kind" = .str kind)
    (hv : Visitor.table.lookup kind = some v) :
    j.reading.node = (v.read j fun key => (j.get key).reading).map fun s => some (.mk s) := by
  have hraw : j.rawKind = .str kind := by
    rw [rawKind, field?_of_get h rfl]
    rfl
  have hobj := isObj_of_get h rfl
  rw [reading_eq]
  simp only [Reading.step, Reading.part_eq]
  cases j with
  | obj fields =>
    simp only [Reading.nodeOf, Node.readObject, Node.readShape, hraw, Visitor.ofJson?, hv]
    cases v.read (.obj fields) fun key => ((Json.obj fields).get key).reading <;> rfl
  | _ => cases hobj

end Json

/-! Sheets of names, with or without type arguments. -/

namespace Sheet

/-- The sheet is this text at every width, without a report. -/
def Prints (sheet : Sheet) (t : Text) : Prop :=
  ∃ l : Layout, sheet = pure l ∧ ∀ width, l.render width = t

variable {s : Shape Printed} {p q : Printed} {t u : Text}

theorem ofText_prints (t : Text) : (ofText t).Prints t := ⟨.text t, rfl, fun _ => rfl⟩

theorem Prints.append {a b : Sheet} (ha : a.Prints t) (hb : b.Prints u) :
    (append a b).Prints (t ++ u) := by
  obtain ⟨l, rfl, hl⟩ := ha
  obtain ⟨r, rfl, hr⟩ := hb
  refine ⟨.append l r, rfl, fun width => ?_⟩
  rw [Layout.render, hl, hr]

theorem qualifiedName_prints (hleft : s.left = some p) (hright : s.right = some q)
    (harguments : s.typeArguments = []) (ht : p.sheet.Prints t) (hu : q.sheet.Prints u) :
    (qualifiedName s).Prints (t ++ "." ++ u) := by
  have hrow := ht.append ((ofText_prints ".").append (hu.append (ofText_prints "")))
  rw [Text.append_empty, ← Text.append_assoc] at hrow
  simp only [qualifiedName, hleft, hright, harguments]
  exact hrow

theorem propertyAccess_prints (hexpression : s.expression = some p) (hname : s.name = some u)
    (ht : p.sheet.Prints t) : (propertyAccess s).Prints (t ++ "$" ++ u) := by
  have hrow := ht.append ((ofText_prints "$").append (ofText_prints u))
  rw [← Text.append_assoc] at hrow
  simp only [propertyAccess, hexpression, hname]
  exact hrow

theorem typeQuery_prints (hname : s.typeName = some p) (ht : p.sheet.Prints t) :
    (typeQuery s).Prints ("typeof " ++ t) := by
  simp only [typeQuery, hname]
  exact (ofText_prints "typeof ").append ht

theorem Prints.map_eq {sheet : Sheet} (h : sheet.Prints t) (width : Int) :
    Layout.render width <$> sheet = pure t := by
  obtain ⟨l, rfl, htext⟩ := h
  rw [map_pure, htext]

theorem Prints.render_append {sheet : Sheet} (h : sheet.Prints t) (arguments : Sheet)
    (width : Int) : Layout.render width <$> Sheet.append sheet arguments =
      (t ++ ·) <$> (Layout.render width <$> arguments) := by
  obtain ⟨l, rfl, htext⟩ := h
  simp [Sheet.append, Layout.render, htext]

theorem typeReference_render (htype : s.typeName = some p) (hname : s.name = some t)
    (ht : p.sheet.Prints t) (width : Int) :
    Layout.render width <$> typeReference s =
      (t ++ ·) <$> (Layout.render width <$> generics s.typeArguments) := by
  simp only [typeReference, htype, hname, Option.getD_some]
  split
  · exact ht.render_append _ width
  · exact (ofText_prints t).render_append _ width

theorem withArguments_render (hexpression : s.expression = some p) (ht : p.sheet.Prints t)
    (width : Int) :
    Layout.render width <$> withArguments s =
      (t ++ ·) <$> (Layout.render width <$> generics s.typeArguments) := by
  simp only [withArguments, hexpression]
  exact ht.render_append _ width

end Sheet

def Node.identifier (text : Text) : Node :=
  .mk { kind := .identifier, name := some text, rawKind := .str "Identifier",
        text := some (.str text) }

theorem Node.identifier_prints (text : Text) (vocabulary : Vocabulary) :
    ((identifier text).printed vocabulary).sheet.Prints text := by
  refine ⟨.text text, ?_, fun _ => rfl⟩
  rw [printed_eq]
  show Sheet.ofText (if text = "" then text else text) = _
  rw [ite_self]
  rfl

theorem Node.readHead_eq {j : Json} {name : Option Text} (hname : j.ownName = .ok name)
    (hmodifiers : j.get "modifiers" = .null) (kind : Kind) :
    readHead j kind = .ok { kind := kind, name := name, rawKind := j.rawKind } := by
  simp only [readHead, hname, Json.modifiers, hmodifiers]
  rfl

namespace Json

variable {j : Json} {p : Text} {parts : List Text} {form : NameForm}

theorem IsIdentifier.reading_eq (h : j.IsIdentifier p) :
    j.reading.node = .ok (some (Node.identifier p)) := by
  rw [reading_of_visitor h.kind (v := .word .identifier) (by decide), Visitor.read, Node.readText,
    h.nameText_eq]
  rfl

theorem IsIdentifier.ownName_eq (h : (j.get "name").IsIdentifier p) : j.ownName = .ok (some p) := by
  have hnull : (j.get "name").isNull = false := isNull_of_isObj (isObj_of_get h.kind rfl)
  have hpattern : (j.get "name").isBindingPattern = false := by
    simp [isBindingPattern, h.kind, isStr]
  simp [ownName, hnull, hpattern, h.nameText_eq]

theorem Spells.reads (h : Spells form parts j) :
    ∃ n, j.reading.node = .ok (some n) ∧
      ∀ vocabulary, (n.printed vocabulary).sheet.Prints (Text.join form.separator parts) := by
  induction h with
  | identifier h => exact ⟨_, h.reading_eq, Node.identifier_prints _⟩
  | @dotted parts p j hkind hleft hright hextra ih =>
    obtain ⟨n, hn, hprints⟩ := ih
    have hname := (Spells.dotted hkind hleft hright hextra).nameText_eq
    have hjoin : Text.join form.separator (parts ++ [p]) =
        Text.join form.separator parts ++ form.separator ++ p :=
      Text.join_append hleft.ne_nil (List.cons_ne_nil p [])
    rw [hjoin]
    cases form with
    | qualifiedName =>
      rw [reading_of_visitor hkind (v := .qualifiedName) (by decide)]
      simp only [NameForm.left, NameForm.right, NameForm.extra] at hn hright hextra
      simp only [Visitor.read, hname, hn, hright.reading_eq, hextra]
      refine ⟨_, rfl, fun vocabulary => ?_⟩
      rw [Node.printed_eq]
      exact Sheet.qualifiedName_prints rfl rfl rfl (hprints vocabulary)
        (Node.identifier_prints p vocabulary)
    | propertyAccess =>
      rw [reading_of_visitor hkind (v := .propertyAccess) (by decide)]
      simp only [NameForm.left, NameForm.right, NameForm.extra] at hn hright hextra
      simp only [Visitor.read, Node.readHead_eq hright.ownName_eq hextra, hn,
        hright.nameText_eq]
      refine ⟨_, rfl, fun vocabulary => ?_⟩
      rw [Node.printed_eq]
      exact Sheet.propertyAccess_prints rfl rfl (hprints vocabulary)

structure IsUnnamed (j : Json) (kind : Kind) : Prop where
  kind : j.get "kind" = .str kind.name
  name : j.get "name" = .null
  modifiers : j.get "modifiers" = .null

structure IsTypeReference (j q arguments : Json) : Prop extends
    IsUnnamed j .typeReference where
  typeName : j.get "typeName" = q
  typeArguments : j.get "typeArguments" = arguments

structure IsTypeQuery (j q : Json) : Prop extends IsUnnamed j .typeQuery where
  typeName : j.get "typeName" = .null
  exprName : j.get "exprName" = q

structure IsHeritageType (j q arguments : Json) : Prop extends
    IsUnnamed j .expressionWithTypeArguments where
  typeName : j.get "typeName" = .null
  expression : j.get "expression" = q
  typeArguments : j.get "typeArguments" = arguments

/-- The value as a node, printed at a line width. -/
def printedType (j : Json) (vocabulary : Vocabulary) (width : Int) : Traced Diagnostic Text := do
  let node ← Traced.lift (Node.ofJson j)
  Layout.render width <$> Sheet.typeOrAny (node.map (Node.printed vocabulary))

def printedGenerics (j : Json) (vocabulary : Vocabulary) (width : Int) :
    Traced Diagnostic Text := do
  let nodes ← Traced.lift (Node.listOfJson j)
  Layout.render width <$> Sheet.generics (nodes.map (Node.printed vocabulary))

variable {q arguments : Json}

theorem IsUnnamed.readHead_eq {kind : Kind} {name : Option Text} (h : j.IsUnnamed kind)
    (htype : j.get "typeName" = q) (hname : q.nameText = .ok name) :
    Node.readHead j kind = .ok { kind := kind, name := name, rawKind := j.rawKind } := by
  refine Node.readHead_eq ?_ h.modifiers kind
  simp [ownName, h.name, isNull, htype, hname]

theorem IsTypeReference.printedType_eq (h : j.IsTypeReference q arguments)
    (hq : Spells .qualifiedName parts q) (vocabulary : Vocabulary) (width : Int) :
    j.printedType vocabulary width =
      (Text.join "." parts ++ ·) <$> arguments.printedGenerics vocabulary width := by
  obtain ⟨n, hn, hprints⟩ := hq.reads
  have hhead := h.readHead_eq h.typeName hq.nameText_eq
  simp only [printedType, printedGenerics, Node.ofJson, Node.listOfJson,
    reading_of_visitor h.kind (v := .typeReference) (by decide), Visitor.read, hhead, h.typeName,
    hn,
    h.typeArguments]
  cases arguments.reading.nodes with
  | error e => rfl
  | ok nodes =>
    show Layout.render width <$> ((Node.mk _).printed vocabulary).sheet =
      _ <$> (Layout.render width <$> Sheet.generics _)
    rw [Node.printed_eq]
    exact Sheet.typeReference_render rfl rfl (hprints vocabulary) width

theorem IsTypeQuery.printedType_eq (h : j.IsTypeQuery q) (hq : Spells .qualifiedName parts q)
    (vocabulary : Vocabulary) (width : Int) :
    j.printedType vocabulary width = pure ("typeof " ++ Text.join "." parts) := by
  obtain ⟨n, hn, hprints⟩ := hq.reads
  have hhead := h.readHead_eq h.typeName rfl
  simp only [printedType, Node.ofJson, reading_of_visitor h.kind (v := .typeQuery) (by decide),
    Visitor.read, hhead, h.exprName, hn, hq.nameText_eq]
  show Layout.render width <$> ((Node.mk _).printed vocabulary).sheet = _
  rw [Node.printed_eq]
  exact (Sheet.typeQuery_prints rfl (hprints vocabulary)).map_eq width

theorem IsHeritageType.printedType_eq (h : j.IsHeritageType q arguments)
    (hq : Spells .propertyAccess parts q) (vocabulary : Vocabulary) (width : Int) :
    j.printedType vocabulary width =
      (Text.join "$" parts ++ ·) <$> arguments.printedGenerics vocabulary width := by
  obtain ⟨n, hn, hprints⟩ := hq.reads
  have hhead := h.readHead_eq h.typeName rfl
  simp only [printedType, printedGenerics, Node.ofJson, Node.listOfJson,
    reading_of_visitor h.kind (v := .expression) (by decide), Visitor.read, hhead, h.expression, hn,
    hq.nameText_eq, h.typeArguments]
  cases arguments.reading.nodes with
  | error e => rfl
  | ok nodes =>
    show Layout.render width <$> ((Node.mk _).printed vocabulary).sheet =
      _ <$> (Layout.render width <$> Sheet.generics _)
    rw [Node.printed_eq]
    exact Sheet.withArguments_render rfl (hprints vocabulary) width

theorem Spells.nameParts_eq (h : Spells form parts j)
    (hparts : ∀ p ∈ parts, p ≠ "" ∧ CodePoint.char '.' ∉ p.toList) :
    j.nameParts = .ok (some parts) := by
  have hsplit := Text.split_join_dot h.ne_nil fun p hp => (hparts p hp).2
  have hne : Text.join "." parts ≠ "" := by
    intro hempty
    -- The empty text has the empty part only.
    rw [hempty] at hsplit
    have hmem : ("" : Text) ∈ parts := by
      rw [← hsplit]
      decide
    exact (hparts "" hmem).1 rfl
  rw [nameParts, h.nameText_eq]
  show Except.ok (if Text.join "." parts = "" then none else _) = _
  rw [if_neg hne, hsplit]

theorem truthy_of_kind {s : Text} (h : j.get "kind" = .str s) : j.truthy = true := by
  cases j with
  | obj fields =>
    cases fields with
    | nil => cases h
    | cons f rest => rfl
  | _ => cases h

theorem IsTypeReference.referencedName_eq (h : j.IsTypeReference q arguments) :
    j.referencedName = .ok q := by
  simp [referencedName, truthy_of_kind h.kind, isObj_of_get h.kind rfl, h.kind, Kind.name, isStr,
    h.typeName]

theorem IsTypeQuery.referencedName_eq (h : j.IsTypeQuery q) : j.referencedName = .ok q := by
  simp [referencedName, truthy_of_kind h.kind, isObj_of_get h.kind rfl, h.kind, Kind.name, isStr,
    h.exprName]

end Json

theorem Filing.variableOf_append (name last : Text) (front : List Text) :
    variableOf name (front ++ [last]) =
      { name, value := last,
        qualifier := if front = [] then ModuleName.root else Text.join "." front } := by
  cases front with
  | nil => rfl
  | cons p rest =>
    rw [variableOf, List.getLastD_eq_getLast?, List.getLast?_concat, List.dropLast_concat,
      if_neg (by simp), if_neg (by simp)]
    rfl

theorem Filing.variableDeclaration_eq {j q : Json} {name : Text} {parts : List Text}
    (hname : (j.get "name").nameText = .ok (some name)) (hne : name ≠ "")
    (htype : (j.get "type").referencedName = .ok q) (hparts : q.nameParts = .ok (some parts))
    (context : Text) :
    variableDeclaration context j =
      Traced.tell (.item (.variable (variableOf name parts)) context .variables) := by
  have hobj : j.isObj = true := by
    cases j with
    | obj fields => rfl
    | _ => cases hname
  simp only [variableDeclaration, hobj, hname, htype]
  show (do
    let parts ← Traced.lift q.nameParts
    _) = _
  rw [hparts]
  show (if name = "" then _ else _) = _
  rw [if_neg hne]
  rfl

namespace NameForm

def node (form : NameForm) (left : Json) (p : Text) : Json :=
  .obj [("kind", .str form.kind.name), (form.left, left), (form.right, Json.identifier p)]

/-- The name of a first part and these further ones, nested to the left. -/
def chain (form : NameForm) (first : Text) (rest : List Text) : Json :=
  rest.foldl form.node (Json.identifier first)

theorem spells_foldl {form : NameForm} {parts : List Text} {j : Json}
    (h : Json.Spells form parts j) (rest : List Text) :
    Json.Spells form (parts ++ rest) (rest.foldl form.node j) := by
  induction rest generalizing parts j with
  | nil => simpa using h
  | cons p rest ih =>
    have hnext : Json.Spells form (parts ++ [p]) (form.node j p) := by
      cases form <;> exact .dotted rfl h ⟨rfl, rfl⟩ rfl
    simpa using ih hnext

theorem spells_chain (form : NameForm) (first : Text) (rest : List Text) :
    Json.Spells form (first :: rest) (form.chain first rest) :=
  spells_foldl (.identifier ⟨rfl, rfl⟩) rest

end NameForm

namespace Json

/-- Whatever holds a dotted name comes to the same parts of it. It is read as the parts with dots
between them. References and queries print it so, heritage clauses with dollar signs, and what is
printed or reported beyond is that of the type arguments alone. If the parts can be told apart, a
variable of such a type is filed with the last part as its type and the others as the qualifier. -/
theorem dottedName_read_alike {q access arguments reference query heir : Json}
    {parts : List Text} (hq : Spells .qualifiedName parts q)
    (haccess : Spells .propertyAccess parts access)
    (hreference : reference.IsTypeReference q arguments) (hquery : query.IsTypeQuery q)
    (hheir : heir.IsHeritageType access arguments) (vocabulary : Vocabulary) (width : Int) :
    q.nameText = .ok (some (Text.join "." parts)) ∧
      reference.printedType vocabulary width =
        (Text.join "." parts ++ ·) <$> arguments.printedGenerics vocabulary width ∧
      query.printedType vocabulary width = pure ("typeof " ++ Text.join "." parts) ∧
      heir.printedType vocabulary width =
        (Text.join "$" parts ++ ·) <$> arguments.printedGenerics vocabulary width ∧
      ((∀ p ∈ parts, p ≠ "" ∧ CodePoint.char '.' ∉ p.toList) →
        q.nameParts = .ok (some parts) ∧
          ∀ (j : Json) (name context : Text) (front : List Text) (last : Text),
            (j.get "name").nameText = .ok (some name) → name ≠ "" →
            j.get "type" ∈ [reference, query] → parts = front ++ [last] →
              Filing.variableDeclaration context j =
                Traced.tell (.item (.variable
                  { name, value := last,
                    qualifier := if front = [] then ModuleName.root else Text.join "." front })
                  context .variables)) := by
  refine ⟨hq.nameText_eq, hreference.printedType_eq hq vocabulary width,
    hquery.printedType_eq hq vocabulary width, hheir.printedType_eq haccess vocabulary width,
    fun hparts => ⟨hq.nameParts_eq hparts, ?_⟩⟩
  intro j name context front last hname hne htype hsplit
  have hreferenced : (j.get "type").referencedName = .ok q := by
    simp only [List.mem_cons, List.not_mem_nil, or_false] at htype
    rcases htype with htype | htype
    · rw [htype, hreference.referencedName_eq]
    · rw [htype, hquery.referencedName_eq]
  rw [Filing.variableDeclaration_eq hname hne hreferenced (hq.nameParts_eq hparts), hsplit,
    Filing.variableOf_append]

/-- A name of three parts with two type arguments, one of which has no printed form. -/
theorem dottedName_read_alike_three :
    let q := NameForm.qualifiedName.chain "A" ["B", "C"]
    let access := NameForm.propertyAccess.chain "A" ["B", "C"]
    let arguments := Json.arr [.obj [("kind", .str "NumberKeyword")],
      .obj [("kind", .str "MappedType")]]
    let reference := Json.obj [("kind", .str "TypeReference"), ("typeName", q),
      ("typeArguments", arguments)]
    let query := Json.obj [("kind", .str "TypeQuery"), ("exprName", q)]
    let heir := Json.obj [("kind", .str "ExpressionWithTypeArguments"), ("expression", access),
      ("typeArguments", arguments)]
    let declarator := Json.obj [("kind", .str "VariableDeclaration"), ("name", identifier "x"),
      ("type", query)]
    q.nameText = .ok (some "A.B.C") ∧
      (reference.printedType .types 80).result =
        .ok "A.B.C<number, NO PRINT IMPLEMENTED: MappedType>" ∧
      (reference.printedType .types 80).log.length = 1 ∧
      query.printedType .types 80 = pure "typeof A.B.C" ∧
      (heir.printedType .types 80).result = .ok "A$B$C<number, NO PRINT IMPLEMENTED: MappedType>" ∧
      q.nameParts = .ok (some ["A", "B", "C"]) ∧
      Filing.variableDeclaration "M" declarator =
        Traced.tell (.item (.variable { name := "x", value := "C", qualifier := "A.B" }) "M"
          .variables) := by
  intro q access arguments reference query heir declarator
  obtain ⟨htext, hreference, hquery, hheir, hparts⟩ :=
    dottedName_read_alike (NameForm.spells_chain .qualifiedName "A" ["B", "C"])
      (NameForm.spells_chain .propertyAccess "A" ["B", "C"])
      (show reference.IsTypeReference q arguments from ⟨⟨rfl, rfl, rfl⟩, rfl, rfl⟩)
      (show query.IsTypeQuery q from ⟨⟨rfl, rfl, rfl⟩, rfl, rfl⟩)
      (show heir.IsHeritageType access arguments from ⟨⟨rfl, rfl, rfl⟩, rfl, rfl, rfl⟩) .types 80
  obtain ⟨hparts, hvariable⟩ := hparts (by decide)
  refine ⟨htext, ?_, ?_, hquery, ?_, hparts,
    hvariable declarator "x" "M" ["A", "B"] "C" rfl (by decide) (.tail _ (.head _)) rfl⟩
  · rw [hreference]; rfl
  · rw [hreference]; rfl
  · rw [hheir]; rfl

end Json
end Libdef
