import Libdef.Conversion.Output
import Libdef.Proofs.Outcome

/-!
Printing in one pass, at a given line width: each node is written as a text at once, and a signature
is measured when it is written. Main statement: a node and a file are written as the texts that
their layouts have at that width, with the same reports and the same faults.
-/

set_option autoImplicit false

namespace Libdef

abbrev Writing := Traced Diagnostic Text

/-- The texts of a node that the node around it may ask for. -/
structure Written where
  kind : Kind
  token : Option Text
  text : Writing
  parameter : Writing
  types : List Writing

namespace Writing

def joined (sep : Text) (parts : List Writing) : Writing := do
  let texts ← parts.mapM id
  return Text.join sep texts

def typeOrAny : Option Written → Writing
  | none => pure "any"
  | some w => w.text

def generics (parts : List Written) : Writing := do
  if parts.isEmpty then return ""
  else
    let inner ← joined ", " (parts.map Written.text)
    return "<" ++ inner ++ ">"

def parameterName (s : Shape Written) : Writing :=
  match s.binding with
  | some pattern => pattern.text
  | none => pure (s.name.getD "")

def parameter (s : Shape Written) : Writing := do
  let left ← parameterName s
  let type ← typeOrAny s.type
  return (if s.rest then ("..." : Text) else "") ++ left ++
    (if s.optional then ("?" : Text) else "") ++ ": " ++ type

def parameters (s : Shape Written) : Writing :=
  joined ", " (s.parameters.map Written.parameter)

def signature (width : Int) (s : Shape Written) (asDeclaration : Bool) : Writing := do
  let parameters ← parameters s
  let generics ← generics s.typeParameters
  let returns ← typeOrAny s.type
  let arrow := Sheet.arrow asDeclaration
  let line := generics ++ "(" ++ parameters ++ ")" ++ arrow ++ " " ++ returns
  if width < line.length then
    return generics ++ "(" ++ ("\n\t\t" ++ parameters ++ "\n\t") ++ ")" ++ arrow ++ " " ++ returns
  else return line

def bodyText (withSemicolons : Bool) (members : List Text) : Text :=
  let shown := members.filter fun t => !t.toList.isEmpty
  if shown.isEmpty then "\x7b\x7d"
  else
    let sep : Text := if withSemicolons then ";\n\t\t" else ",\n\t\t"
    "\x7b\n\t\t" ++ Text.join sep shown ++ "\n\t\x7d"

def body (s : Shape Written) (withSemicolons : Bool) : Writing := do
  let members ← (s.members.map Written.text).mapM id
  return bodyText withSemicolons members

def unsupported (h : Head) : Writing := do
  let kind := if h.rawKind.truthy then h.rawKind.label else h.kind.name
  Traced.tell { kind := .unsupportedKind, subject := h.name, message := "No printer for " ++ kind }
  return "NO PRINT IMPLEMENTED: " ++ kind

def ownText (h : Head) : Writing :=
  match h.text with
  | some (.str t) => pure (if t = "" then h.name.getD "" else t)
  | some j => if j.truthy then Traced.fail .textNotString else pure (h.name.getD "")
  | none => pure (h.name.getD "")

def literal (h : Head) : Writing :=
  match h.text with
  | none => unsupported h
  | some (.str t) =>
    match h.token with
    | none => pure (Text.literal t)
    | some token =>
      if token = "StringLiteral" ∨ token = "NoSubstitutionTemplateLiteral" then
        pure (Text.literal t)
      else pure t
  | some _ => Traced.fail .textNotString

def qualifiedName (s : Shape Written) : Writing := do
  let left ← typeOrAny s.left
  let right ← typeOrAny s.right
  let arguments ← generics s.typeArguments
  return left ++ "." ++ right ++ arguments

def typeReference (s : Shape Written) : Writing := do
  let name ← match s.typeName with
    | some w => if w.kind = .qualifiedName then w.text else pure (s.name.getD "")
    | none => pure (s.name.getD "")
  let arguments ← generics s.typeArguments
  return name ++ arguments

def withArguments (s : Shape Written) : Writing := do
  let expression ← typeOrAny s.expression
  let arguments ← generics s.typeArguments
  return expression ++ arguments

def propertyAccess (s : Shape Written) : Writing := do
  let expression ← typeOrAny s.expression
  return ModuleName.access expression (s.name.getD "")

def labelled (label : Text) : Option Written → Writing
  | none => pure ""
  | some w => do
    let text ← w.text
    return label ++ text

def typeParameter (s : Shape Written) : Writing := do
  let constraint ← labelled ": " s.constraint
  let fallback ← labelled " = " s.fallback
  return s.name.getD "" ++ constraint ++ fallback

def typeQuery (s : Shape Written) : Writing := do
  let name ← match s.typeName with
    | some w => w.text
    | none => pure (s.name.getD "")
  return "typeof " ++ name

def property (s : Shape Written) : Writing := do
  let text ← parameter s
  return Sheet.memberMarks s.modifiers ++ text

def method (width : Int) (s : Shape Written) : Writing := do
  let start := Sheet.memberMarks s.modifiers ++ Sheet.nameText s.name
  if s.optional then
    let signature ← signature width s false
    return start ++ "?: " ++ signature
  else
    let signature ← signature width s true
    return start ++ signature

def indexSignature (s : Shape Written) : Writing := do
  let parameters ← parameters s
  let type ← typeOrAny s.type
  return Sheet.memberMarks s.modifiers ++ "[" ++ parameters ++ "]: " ++ type

def heritagePart (word : Text) (texts : List Text) : Text :=
  if texts.isEmpty then "" else word ++ Text.join ", " texts

def heritageText (types : List (Bool × Text)) : Text :=
  heritagePart " extends " ((types.filter fun t => !t.1).map Prod.snd) ++
    heritagePart " implements " ((types.filter fun t => t.1).map Prod.snd)

def clauseTypes (clause : Written) : Traced Diagnostic (List (Bool × Text)) := do
  let texts ← clause.types.mapM id
  return texts.map fun t => (clause.token == some "implements", t)

def heritage (s : Shape Written) : Writing := do
  let groups ← s.heritageClauses.mapM clauseTypes
  return heritageText groups.flatten

def functionDeclaration (width : Int) (s : Shape Written) : Writing := do
  let signature ← signature width s true
  return "declare function " ++ Sheet.nameText s.name ++ signature

def container (word : Text) (withSemicolons : Bool) (s : Shape Written) : Writing := do
  let generics ← generics s.typeParameters
  let heritage ← heritage s
  let body ← body s withSemicolons
  return "declare " ++ Sheet.exportMarks s.modifiers ++ word ++ " " ++ Sheet.nameText s.name ++
    generics ++ heritage ++ " " ++ body

def typeAlias (s : Shape Written) : Writing := do
  let generics ← generics s.typeParameters
  let type ← typeOrAny s.type
  return "declare " ++ Sheet.exportMarks s.modifiers ++ "type " ++ Sheet.nameText s.name ++
    generics ++ " = " ++ type ++ ";"

def enclosed (before after : Text) (inner : Writing) : Writing := do
  let text ← inner
  return before ++ text ++ after

def ofShape (vocabulary : Vocabulary) (width : Int) (s : Shape Written) : Writing :=
  match s.kind with
  | .anyKeyword => pure "any"
  | .stringKeyword => pure "string"
  | .numberKeyword => pure "number"
  | .booleanKeyword => pure "boolean"
  | .voidKeyword | .undefinedKeyword => pure "void"
  | .nullKeyword => pure "null"
  | .neverKeyword => pure "empty"
  | .objectKeyword => pure "Object"
  | .symbolKeyword => pure "Symbol"
  | .unknownKeyword => pure "mixed"
  | .thisType => pure "this"
  | .functionDeclaration =>
    if vocabulary.handles s.kind then functionDeclaration width s else unsupported s.toHead
  | .interfaceDeclaration =>
    if vocabulary.handles s.kind then container "interface" false s else unsupported s.toHead
  | .classDeclaration =>
    if vocabulary.handles s.kind then container "class" true s else unsupported s.toHead
  | .typeAliasDeclaration =>
    if vocabulary.handles s.kind then typeAlias s else unsupported s.toHead
  | .heritageClause => joined ", " (s.types.map Written.text)
  | .parameter => parameter s
  | .typeParameter => typeParameter s
  | .propertySignature => property s
  | .propertyDeclaration =>
    if s.modifiers.contains .privateKeyword then pure "" else property s
  | .methodSignature => method width s
  | .methodDeclaration =>
    if s.modifiers.contains .privateKeyword then pure "" else method width s
  | .callSignature => signature width s true
  | .constructSignature => enclosed "new " "" (signature width s true)
  | .constructor => enclosed "constructor(" "): void" (parameters s)
  | .indexSignature => indexSignature s
  | .functionType => signature width s false
  | .typeLiteral => body s false
  | .typeReference => typeReference s
  | .literalType => literal s.toHead
  | .tupleType => enclosed "[" "]" (joined ", " (s.elementTypes.map Written.text))
  | .unionType => joined " | " (s.types.map Written.text)
  | .intersectionType => joined " & " (s.types.map Written.text)
  | .arrayType => enclosed "" "[]" (typeOrAny s.elementType)
  | .parenthesizedType => enclosed "(" ")" (typeOrAny s.type)
  | .typeQuery => typeQuery s
  | .typePredicate | .bindingElement => pure (s.name.getD "")
  | .identifier | .stringLiteral => ownText s.toHead
  | .qualifiedName => qualifiedName s
  | .expressionWithTypeArguments => withArguments s
  | .propertyAccessExpression => propertyAccess s
  | .objectBindingPattern => enclosed "\x7b" "\x7d" (joined ", " (s.elements.map Written.text))
  | .unsupported => unsupported s.toHead

def print (vocabulary : Vocabulary) (width : Int) (s : Shape Written) : Written where
  kind := s.kind
  token := s.token
  text := ofShape vocabulary width s
  parameter := parameter s
  types := s.types.map Written.text

end Writing

def Node.written (vocabulary : Vocabulary) (width : Int) (n : Node) : Written :=
  n.fold (Writing.print vocabulary width)

def Printed.atWidth (width : Int) (p : Printed) : Written where
  kind := p.kind
  token := p.token
  text := Layout.render width <$> p.sheet
  parameter := Layout.render width <$> p.parameter
  types := p.types.map (Layout.render width <$> ·)

namespace Sheet

variable (width : Int)

theorem render_ofText (t : Text) : Layout.render width <$> ofText t = pure t := map_pure ..

theorem render_append (a b : Sheet) : Layout.render width <$> append a b = (do
    let s ← Layout.render width <$> a
    let t ← Layout.render width <$> b
    return s ++ t) := by
  simp only [append, map_bind, bind_map_left, map_pure]
  rfl

theorem render_row_cons (a b : Sheet) (more : List Sheet) :
    Layout.render width <$> row (a :: b :: more) = (do
      let s ← Layout.render width <$> a
      let t ← Layout.render width <$> row (b :: more)
      return s ++ t) :=
  render_append width a (row (b :: more))

theorem render_row_singleton (a : Sheet) :
    Layout.render width <$> row [a] = Layout.render width <$> a := rfl

theorem render_mapM (sheets : List Sheet) :
    List.map (Layout.render width) <$> sheets.mapM id =
      (sheets.map (Layout.render width <$> ·)).mapM id := by
  rw [List.mapM_map, ← mapM_map_eq]
  rfl

theorem render_list (sep : Text) (sheets : List Sheet) : Layout.render width <$> list sep sheets =
    Writing.joined sep (sheets.map (Layout.render width <$> ·)) := by
  induction sheets with
  | nil => rfl
  | cons a rest ih =>
    cases rest with
    | nil => simp [list, Writing.joined, Text.join]
    | cons b more =>
      rw [list, render_append, render_append, ih]
      simp [render_ofText, Writing.joined, Text.join, Text.append_assoc]

theorem map_sheet_atWidth (parts : List Printed) :
    (parts.map Printed.sheet).map (Layout.render width <$> ·) =
      (parts.map (Printed.atWidth width)).map Written.text := by
  rw [List.map_map, List.map_map]
  rfl

theorem render_sheets (sep : Text) (parts : List Printed) :
    Layout.render width <$> list sep (parts.map Printed.sheet) =
      Writing.joined sep ((parts.map (Printed.atWidth width)).map Written.text) := by
  rw [render_list, map_sheet_atWidth]

theorem render_typeOrAny (o : Option Printed) : Layout.render width <$> typeOrAny o =
    Writing.typeOrAny (o.map (Printed.atWidth width)) := by
  cases o with
  | none => exact render_ofText width "any"
  | some p => rfl

theorem render_generics (parts : List Printed) : Layout.render width <$> generics parts =
    Writing.generics (parts.map (Printed.atWidth width)) := by
  simp only [generics, Writing.generics, List.isEmpty_map]
  split
  · exact render_ofText width ""
  · simp only [render_row_cons, render_row_singleton, render_ofText, render_sheets, pure_bind,
      bind_assoc, Text.append_assoc]

theorem render_labelled (label : Text) (o : Option Printed) :
    Layout.render width <$> labelled label o =
      Writing.labelled label (o.map (Printed.atWidth width)) := by
  cases o with
  | none => exact render_ofText width ""
  | some p =>
    simp only [labelled, render_row_cons, render_row_singleton, render_ofText, pure_bind]
    rfl

variable (s : Shape Printed)

theorem render_unsupported :
    Layout.render width <$> unsupported s = Writing.unsupported s.toHead := by
  simp only [unsupported, map_bind, render_ofText]
  rfl

theorem render_parameter : Layout.render width <$> parameter s =
    Writing.parameter (s.map (Printed.atWidth width)) := by
  have hname : Layout.render width <$> parameterName s =
      Writing.parameterName (s.map (Printed.atWidth width)) := by
    simp only [parameterName, Writing.parameterName, Shape.map]
    cases s.binding with
    | none => exact render_ofText ..
    | some pattern => rfl
  simp only [parameter, Writing.parameter, ← hname, render_row_cons, render_row_singleton,
    render_ofText, render_typeOrAny, pure_bind, bind_assoc, Text.append_assoc]
  rfl

theorem render_parameters : Layout.render width <$> parameters s =
    Writing.parameters (s.map (Printed.atWidth width)) := by
  have hparameters : (s.parameters.map Printed.parameter).map (Layout.render width <$> ·) =
      (s.parameters.map (Printed.atWidth width)).map Written.parameter := by
    rw [List.map_map, List.map_map]
    rfl
  rw [parameters, render_list, hparameters]
  rfl

/-- The layout of a signature is measured as the line that is written. -/
theorem render_signature (asDeclaration : Bool) :
    Layout.render width <$> signature s asDeclaration =
      Writing.signature width (s.map (Printed.atWidth width)) asDeclaration := by
  have hline (g p r : Text) : (pure (Layout.signatureText width g p (arrow asDeclaration) r) :
      Writing) = (do
        let line := g ++ "(" ++ p ++ ")" ++ arrow asDeclaration ++ " " ++ r
        if width < line.length then
          return g ++ "(" ++ ("\n\t\t" ++ p ++ "\n\t") ++ ")" ++ arrow asDeclaration ++ " " ++ r
        else return line) := apply_ite pure ..
  simp only [Writing.signature, ← hline, ← render_parameters]
  simp only [Shape.map, ← render_generics, ← render_typeOrAny, signature, map_bind, map_pure,
    bind_map_left, Layout.render]

theorem render_bodyLayout (withSemicolons : Bool) (members : List Layout) :
    (bodyLayout withSemicolons members).render width =
      Writing.bodyText withSemicolons (members.map (Layout.render width)) := by
  have hshown : ((fun t : Text => !t.toList.isEmpty) ∘ Layout.render width) =
      fun l => !l.isEmpty := by
    funext l
    have hempty : l.isEmpty = (l.render width).toList.isEmpty := by
      rw [Bool.eq_iff_iff, Layout.isEmpty_iff width, List.isEmpty_iff, ← Text.toList_inj]
      rfl
    rw [hempty]
    rfl
  simp only [bodyLayout, Writing.bodyText, List.filter_map, hshown, List.isEmpty_map]
  split
  · rfl
  · simp only [Layout.row, Layout.render, Layout.render_joined, Text.append_assoc]

theorem render_body (withSemicolons : Bool) : Layout.render width <$> body s withSemicolons =
    Writing.body (s.map (Printed.atWidth width)) withSemicolons := by
  have htexts := render_mapM width (s.members.map Printed.sheet)
  rw [map_sheet_atWidth] at htexts
  simp only [body, Writing.body, Shape.map, ← htexts, map_bind, map_pure, bind_map_left,
    render_bodyLayout]

theorem render_heritageLayout (types : List (Bool × Layout)) :
    (heritageLayout types).render width =
      Writing.heritageText (types.map (Prod.map id (Layout.render width))) := by
  have hpart (word : Text) (layouts : List Layout) : (heritagePart word layouts).render width =
      Writing.heritagePart word (layouts.map (Layout.render width)) := by
    simp only [heritagePart, Writing.heritagePart, List.isEmpty_map]
    split
    · rfl
    · simp only [Layout.render, Layout.render_joined]
  have hgroup (p : Bool → Bool) :
      ((types.map (Prod.map id (Layout.render width))).filter fun t => p t.1).map Prod.snd =
        ((types.filter fun t => p t.1).map Prod.snd).map (Layout.render width) := by
    rw [List.filter_map, List.map_map, List.map_map]
    rfl
  have hextended := hgroup not
  have himplemented := hgroup id
  simp only [id] at himplemented
  simp only [heritageLayout, Layout.render, hpart, Writing.heritageText, hextended, himplemented]

theorem render_heritage : Layout.render width <$> heritage s =
    Writing.heritage (s.map (Printed.atWidth width)) := by
  have hclause (clause : Printed) : Writing.clauseTypes (clause.atWidth width) =
      List.map (Prod.map id (Layout.render width)) <$> (do
        let layouts ← clause.types.mapM id
        return layouts.map fun l => (clause.token == some "implements", l)) := by
    have htexts := render_mapM width clause.types
    simp only [Writing.clauseTypes, Printed.atWidth, ← htexts, map_bind, map_pure, bind_map_left,
      List.map_map]
    rfl
  have hgroups : (s.heritageClauses.map (Printed.atWidth width)).mapM Writing.clauseTypes =
      List.map (List.map (Prod.map id (Layout.render width))) <$>
        s.heritageClauses.mapM fun clause => do
          let layouts ← clause.types.mapM id
          return layouts.map fun l => (clause.token == some "implements", l) := by
    rw [List.mapM_map, ← mapM_map_eq]
    exact congrArg (List.mapM · s.heritageClauses) (funext hclause)
  simp only [heritage, heritageTypes, Writing.heritage, Shape.map, hgroups, map_bind, map_pure,
    bind_map_left, bind_assoc, pure_bind, render_heritageLayout, List.map_flatten]

section Kinds

theorem render_qualifiedName : Layout.render width <$> qualifiedName s =
    Writing.qualifiedName (s.map (Printed.atWidth width)) := by
  simp only [qualifiedName, Writing.qualifiedName, Shape.map, render_row_cons,
    render_row_singleton, render_ofText, render_typeOrAny, render_generics, pure_bind, bind_assoc,
    Text.append_assoc]

theorem render_typeReference : Layout.render width <$> typeReference s =
    Writing.typeReference (s.map (Printed.atWidth width)) := by
  simp only [typeReference, Writing.typeReference, Shape.map, render_row_cons,
    render_row_singleton, render_generics]
  cases s.typeName with
  | none => simp only [Option.map_none, render_ofText]
  | some p =>
    simp only [Option.map_some]
    show (Layout.render width <$> (if p.kind = .qualifiedName then _ else _) >>= _) = _
    split <;> simp [*, Printed.atWidth, render_ofText]

theorem render_withArguments : Layout.render width <$> withArguments s =
    Writing.withArguments (s.map (Printed.atWidth width)) := by
  simp only [withArguments, Writing.withArguments, Shape.map, render_row_cons,
    render_row_singleton, render_typeOrAny, render_generics]

theorem render_propertyAccess : Layout.render width <$> propertyAccess s =
    Writing.propertyAccess (s.map (Printed.atWidth width)) := by
  simp only [propertyAccess, Writing.propertyAccess, ModuleName.access, Shape.map,
    render_row_cons, render_row_singleton, render_ofText, render_typeOrAny, pure_bind,
    Text.append_assoc]

theorem render_typeParameter : Layout.render width <$> typeParameter s =
    Writing.typeParameter (s.map (Printed.atWidth width)) := by
  simp only [typeParameter, Writing.typeParameter, Shape.map, render_row_cons,
    render_row_singleton, render_ofText, render_labelled, pure_bind, bind_assoc, Text.append_assoc]

theorem render_typeQuery : Layout.render width <$> typeQuery s =
    Writing.typeQuery (s.map (Printed.atWidth width)) := by
  simp only [typeQuery, Writing.typeQuery, Shape.map]
  cases s.typeName with
  | none => simp only [Option.map_none, render_row_cons, render_row_singleton, render_ofText,
      pure_bind]
  | some p =>
    simp only [render_row_cons, render_row_singleton, render_ofText, pure_bind]
    rfl

theorem render_property : Layout.render width <$> property s =
    Writing.property (s.map (Printed.atWidth width)) := by
  simp only [property, Writing.property, render_row_cons, render_row_singleton, render_ofText,
    render_parameter, pure_bind]
  rfl

theorem render_method : Layout.render width <$> method s =
    Writing.method width (s.map (Printed.atWidth width)) := by
  simp only [method, Writing.method]
  show Layout.render width <$> (if s.optional then _ else _) = if s.optional then _ else _
  split
  · simp only [render_row_cons, render_row_singleton, render_ofText, render_signature, pure_bind,
      bind_assoc, Text.append_assoc]
    rfl
  · simp only [render_row_cons, render_row_singleton, render_ofText, render_signature, pure_bind,
      bind_assoc, Text.append_assoc]
    rfl

theorem render_indexSignature : Layout.render width <$> indexSignature s =
    Writing.indexSignature (s.map (Printed.atWidth width)) := by
  simp only [indexSignature, Writing.indexSignature, render_row_cons, render_row_singleton,
    render_ofText, render_parameters, render_typeOrAny, pure_bind, bind_assoc, Text.append_assoc]
  rfl

theorem render_functionDeclaration : Layout.render width <$> functionDeclaration s =
    Writing.functionDeclaration width (s.map (Printed.atWidth width)) := by
  simp only [functionDeclaration, Writing.functionDeclaration, render_row_cons,
    render_row_singleton, render_ofText, render_signature, pure_bind, bind_assoc,
    Text.append_assoc]
  rfl

theorem render_container (word : Text) (withSemicolons : Bool) :
    Layout.render width <$> container s word withSemicolons =
      Writing.container word withSemicolons (s.map (Printed.atWidth width)) := by
  simp only [container, Writing.container, render_row_cons, render_row_singleton, render_ofText,
    render_generics, render_heritage, render_body, pure_bind, bind_assoc, Text.append_assoc]
  rfl

theorem render_typeAlias : Layout.render width <$> typeAlias s =
    Writing.typeAlias (s.map (Printed.atWidth width)) := by
  simp only [typeAlias, Writing.typeAlias, render_row_cons, render_row_singleton, render_ofText,
    render_generics, render_typeOrAny, pure_bind, bind_assoc, Text.append_assoc]
  rfl

theorem render_ownText : Layout.render width <$> ownText s = Writing.ownText s.toHead := by
  simp only [ownText, Writing.ownText]
  cases s.text with
  | none => exact render_ofText ..
  | some j =>
    cases j with
    | str t => exact render_ofText ..
    | _ =>
      dsimp only
      split <;> rfl

theorem render_literal : Layout.render width <$> literal s = Writing.literal s.toHead := by
  simp only [literal, Writing.literal]
  cases s.text with
  | none => exact render_unsupported width s
  | some j =>
    cases j with
    | str t =>
      cases s.token with
      | none => exact render_ofText ..
      | some token =>
        dsimp only
        split <;> exact render_ofText ..
    | _ => rfl

theorem render_enclosed (before after : Text) (inner : Sheet) :
    Layout.render width <$> row [before, inner, after] =
      Writing.enclosed before after (Layout.render width <$> inner) := by
  simp only [Writing.enclosed, render_row_cons, render_row_singleton, render_ofText, pure_bind,
    bind_assoc, Text.append_assoc]

theorem render_ofShape (vocabulary : Vocabulary) : Layout.render width <$> ofShape vocabulary s =
    Writing.ofShape vocabulary width (s.map (Printed.atWidth width)) := by
  have hdeclared {sheet : Sheet} {writing : Writing} {k : Kind} (hk : k.isDeclaration = true)
      (h : Layout.render width <$> sheet = writing) :
      Layout.render width <$> (if vocabulary = .declarations then sheet else unsupported s) =
        if vocabulary.handles k then writing else Writing.unsupported s.toHead := by
    cases vocabulary with
    | types =>
      simp only [Vocabulary.handles, hk]
      exact render_unsupported width s
    | declarations => exact h
  have hunless {sheet : Sheet} {writing : Writing} (h : Layout.render width <$> sheet = writing) :
      Layout.render width <$> (if isPrivate s then ofText "" else sheet) =
        if s.modifiers.contains .privateKeyword then pure ("" : Text) else writing := by
    show Layout.render width <$> (if isPrivate s then _ else _) = if isPrivate s then _ else _
    split
    · exact render_ofText ..
    · exact h
  have hkind : (s.map (Printed.atWidth width)).kind = s.kind := rfl
  simp only [ofShape, Writing.ofShape]
  rw [hkind]
  cases s.kind with
  | functionDeclaration => exact hdeclared rfl (render_functionDeclaration width s)
  | interfaceDeclaration => exact hdeclared rfl (render_container width s "interface" false)
  | classDeclaration => exact hdeclared rfl (render_container width s "class" true)
  | typeAliasDeclaration => exact hdeclared rfl (render_typeAlias width s)
  | heritageClause | unionType | intersectionType => exact render_sheets ..
  | parameter => exact render_parameter width s
  | typeParameter => exact render_typeParameter width s
  | propertySignature => exact render_property width s
  | propertyDeclaration => exact hunless (render_property width s)
  | methodSignature => exact render_method width s
  | methodDeclaration => exact hunless (render_method width s)
  | callSignature | functionType => exact render_signature ..
  | constructSignature =>
    dsimp only
    rw [render_row_cons, render_row_singleton, render_signature, render_ofText, pure_bind]
    simp only [Writing.enclosed, Text.append_empty]
  | constructor =>
    dsimp only
    rw [render_enclosed, render_parameters]
  | indexSignature => exact render_indexSignature width s
  | typeLiteral => exact render_body ..
  | typeReference => exact render_typeReference width s
  | literalType => exact render_literal width s
  | tupleType | objectBindingPattern =>
    dsimp only
    rw [render_enclosed, render_sheets]
    rfl
  | arrayType =>
    dsimp only
    rw [render_row_cons, render_row_singleton, render_typeOrAny, render_ofText]
    simp only [Writing.enclosed, Text.empty_append, pure_bind]
    rfl
  | parenthesizedType =>
    dsimp only
    rw [render_enclosed, render_typeOrAny]
    rfl
  | typeQuery => exact render_typeQuery width s
  | identifier | stringLiteral => exact render_ownText width s
  | qualifiedName => exact render_qualifiedName width s
  | expressionWithTypeArguments => exact render_withArguments width s
  | propertyAccessExpression => exact render_propertyAccess width s
  | unsupported => exact render_unsupported width s
  | _ => exact render_ofText ..

end Kinds

theorem print_atWidth (vocabulary : Vocabulary) : (print vocabulary s).atWidth width =
    Writing.print vocabulary width (s.map (Printed.atWidth width)) := by
  simp only [print, Printed.atWidth, Writing.print, render_ofShape, render_parameter,
    map_sheet_atWidth]
  rfl

end Sheet

namespace Node

variable (vocabulary : Vocabulary) (width : Int)

theorem written_eq (n : Node) : n.written vocabulary width =
    Writing.print vocabulary width (n.shape.map (written vocabulary width)) :=
  fold_eq _ n

theorem parts_atWidth {n : Node}
    (h : ∀ m ∈ n.shape.parts, (m.printed vocabulary).atWidth width = m.written vocabulary width) :
    (n.parts vocabulary).map (Printed.atWidth width) = n.shape.map (written vocabulary width) := by
  rw [parts, Shape.map_map]
  exact Shape.map_congr h

/-- At every width, a node is printed as it is written in one pass. -/
theorem printed_atWidth (n : Node) :
    (n.printed vocabulary).atWidth width = n.written vocabulary width := by
  induction n using Node.induct with
  | h n ih => rw [printed_eq, Sheet.print_atWidth, parts_atWidth vocabulary width ih, written_eq]

/-- What is reported does not depend on the width. -/
theorem log_written (n : Node) :
    (n.written vocabulary width).text.log = (n.printed vocabulary).sheet.log := by
  rw [← printed_atWidth]
  exact Traced.log_map ..

end Node

namespace Writing

def declarationItem (width : Int) (write : Shape Written → Writing) (item : Item) : Writing := do
  let node ← Traced.lift item.asDeclaration
  write (node.shape.map (Node.written .declarations width))

def exportItem (item : Item) : Writing := do
  let isDefault ← Traced.lift item.isDefault
  return Sheet.exportLine item.name isDefault

def group (write : Item → Writing) (items : List Item) : Traced Diagnostic (List Text) := do
  if items.isEmpty then return []
  else
    let texts ← items.mapM write
    return ["\t" ++ Text.join "\n\n\t" texts]

def block (width : Int) (rootName : Text) (m : Module) : Writing := do
  let types ← group (declarationItem width typeAlias) m.types
  let interfaces ← group (declarationItem width (container "interface" false)) m.interfaces
  let functions ← group (declarationItem width (functionDeclaration width)) m.functions
  let classes ← group (declarationItem width (container "class" true)) m.classes
  let exports ← group exportItem m.exports
  let groups := types ++ interfaces ++ functions ++ classes ++ exports
  return "declare module '" ++ ModuleName.printed rootName m.name ++ "' \x7b\n" ++
    Text.join "\n\n" groups ++ "\n\x7d"

def file (width : Int) (rootName : Text) (imports : List Import) (modules : List Module) :
    Writing := do
  let blocks ← (modules.filter Module.isPrinted).mapM (block width rootName)
  let lines := Import.lines imports
  if lines = "" then return Text.join "\n\n" blocks ++ "\n"
  else return lines ++ "\n\n" ++ Text.join "\n\n" blocks ++ "\n"

end Writing

namespace Sheet

variable (width : Int)

theorem declarationItem_atWidth {print : Shape Printed → Sheet} {write : Shape Written → Writing}
    (h : ∀ s, Layout.render width <$> print s = write (s.map (Printed.atWidth width)))
    (item : Item) : Layout.render width <$> declarationItem print item =
      Writing.declarationItem width write item := by
  have hparts (n : Node) : (n.parts .declarations).map (Printed.atWidth width) =
      n.shape.map (Node.written .declarations width) :=
    Node.parts_atWidth _ _ fun m _ => m.printed_atWidth .declarations width
  simp only [declarationItem, Writing.declarationItem, map_bind, h, hparts]

theorem exportItem_atWidth (item : Item) :
    Layout.render width <$> exportItem item = Writing.exportItem item := by
  simp only [exportItem, Writing.exportItem, map_bind, render_ofText]

theorem group_atWidth {print : Item → Sheet} {write : Item → Writing}
    (h : ∀ item, Layout.render width <$> print item = write item) (items : List Item) :
    List.map (Layout.render width) <$> group print items = Writing.group write items := by
  obtain rfl : (fun item => Layout.render width <$> print item) = write := funext h
  simp only [group, Writing.group]
  split
  · rfl
  · simp only [mapM_map_eq, map_bind, map_pure, bind_map_left, List.map_cons, List.map_nil,
      Layout.render, Layout.render_joined]

theorem block_atWidth (rootName : Text) (m : Module) : Layout.render width <$> block rootName m =
    Writing.block width rootName m := by
  have htypes := group_atWidth width (declarationItem_atWidth width (render_typeAlias width))
  have hinterfaces := group_atWidth width
    (declarationItem_atWidth width (render_container width · "interface" false))
  have hfunctions := group_atWidth width
    (declarationItem_atWidth width (render_functionDeclaration width))
  have hclasses := group_atWidth width
    (declarationItem_atWidth width (render_container width · "class" true))
  have hexports := group_atWidth width (exportItem_atWidth width)
  simp only [block, Writing.block, ← htypes, ← hinterfaces, ← hfunctions, ← hclasses, ← hexports,
    map_bind, map_pure, bind_map_left, Layout.row, Layout.render, Layout.render_joined,
    List.map_append, Text.append_assoc]
  rfl

theorem file_atWidth (rootName : Text) (imports : List Import) (modules : List Module) :
    Layout.render width <$> file rootName imports modules =
      Writing.file width rootName imports modules := by
  have hblocks := mapM_map_eq (Layout.render width) (block rootName)
    (modules.filter Module.isPrinted)
  simp only [block_atWidth] at hblocks
  simp only [file, Writing.file, hblocks, map_bind, map_pure, bind_map_left, Layout.row,
    Layout.render, Layout.render_joined]
  split
  · simp only [Text.empty_append]
  · simp only [Text.append_assoc]

end Sheet

namespace Conversion

def writing (c : Conversion) : Writing := do
  let modules ← Traced.lift c.modules
  Writing.file c.options.lineWidth c.options.rootModule c.imports.records modules

theorem render_eq_writing (c : Conversion) :
    c.render = (c.reportAll c.writing.log, c.writing.result) := by
  have hwriting : c.writing = Layout.render c.options.lineWidth <$> c.fileSheet := by
    simp only [writing, fileSheet, map_bind, Sheet.file_atWidth]
  rw [render, printed, hwriting, Traced.log_map, Traced.result_map]

end Conversion
end Libdef
