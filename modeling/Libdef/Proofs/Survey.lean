import Libdef.Proofs.Outcome
import Libdef.Sheet.Node

/-!
How sheets are put together. A survey is a property of printed nodes: of the computation, of its
layout, and of what the nodes that reach the text bear, in the order in which they are visited. Main
statement: a property that is handed on by the few ways in which layouts are put together, and that
the texts of a node have by themselves, holds of every printed node.
-/

set_option autoImplicit false

namespace Libdef

/-- As what a node is printed by the node around it. -/
inductive Role where
  | whole
  | parameter
  /-- As a heritage clause, of which only the types are printed. -/
  | clause
  /-- As the name of a type reference, which is printed only if it is qualified. -/
  | reference
  deriving Repr, DecidableEq

def inRole {α : Type} (role : Role) (parts : List α) : List (Role × α) := parts.map (role, ·)

theorem inRole_map {α β : Type} (f : α → β) (role : Role) (parts : List α) :
    inRole role (parts.map f) = (inRole role parts).map (Prod.map id f) := by
  simp [inRole, Function.comp_def]

namespace Shape

variable {α β : Type}

def visitedAsParameter (s : Shape α) : List (Role × α) :=
  inRole .whole s.binding.toList ++ inRole .whole s.type.toList

/-- Parameters come before type parameters, although they are printed behind them. -/
def visitedAsSignature (s : Shape α) : List (Role × α) :=
  inRole .parameter s.parameters ++ inRole .whole s.typeParameters ++ inRole .whole s.type.toList

def visitedAsContainer (s : Shape α) : List (Role × α) :=
  inRole .whole s.typeParameters ++ inRole .clause s.heritageClauses ++ inRole .whole s.members

/-- The parts that reach the text, in the order in which they are visited. -/
def visitedWhole (s : Shape α) : List (Role × α) :=
  match s.kind with
  | .functionDeclaration | .methodSignature | .callSignature | .constructSignature
  | .functionType => s.visitedAsSignature
  | .methodDeclaration =>
    if s.modifiers.contains .privateKeyword then [] else s.visitedAsSignature
  | .parameter | .propertySignature => s.visitedAsParameter
  | .propertyDeclaration =>
    if s.modifiers.contains .privateKeyword then [] else s.visitedAsParameter
  | .interfaceDeclaration | .classDeclaration => s.visitedAsContainer
  | .typeAliasDeclaration => inRole .whole s.typeParameters ++ inRole .whole s.type.toList
  | .heritageClause | .unionType | .intersectionType => inRole .whole s.types
  | .typeParameter => inRole .whole s.constraint.toList ++ inRole .whole s.fallback.toList
  | .constructor => inRole .parameter s.parameters
  | .indexSignature => inRole .parameter s.parameters ++ inRole .whole s.type.toList
  | .typeLiteral => inRole .whole s.members
  | .typeReference => inRole .reference s.typeName.toList ++ inRole .whole s.typeArguments
  | .tupleType => inRole .whole s.elementTypes
  | .arrayType => inRole .whole s.elementType.toList
  | .parenthesizedType => inRole .whole s.type.toList
  | .typeQuery => inRole .whole s.typeName.toList
  | .qualifiedName =>
    inRole .whole s.left.toList ++ inRole .whole s.right.toList ++ inRole .whole s.typeArguments
  | .expressionWithTypeArguments =>
    inRole .whole s.expression.toList ++ inRole .whole s.typeArguments
  | .propertyAccessExpression => inRole .whole s.expression.toList
  | .objectBindingPattern => inRole .whole s.elements
  | _ => []

def visited (s : Shape α) : Role → List (Role × α)
  | .whole => s.visitedWhole
  | .parameter => s.visitedAsParameter
  | .clause => inRole .whole s.types
  | .reference => if s.kind = .qualifiedName then s.visitedWhole else []

def visitedIn (vocabulary : Vocabulary) (s : Shape α) : Role → List (Role × α)
  | .whole => if vocabulary.handles s.kind then s.visitedWhole else []
  | role => s.visited role

theorem visitedWhole_map (f : α → β) (s : Shape α) :
    (s.map f).visitedWhole = s.visitedWhole.map (Prod.map id f) := by
  simp only [visitedWhole, visitedAsParameter, visitedAsSignature, visitedAsContainer, map,
    Option.toList_map, inRole_map]
  cases s.kind with
  | methodDeclaration | propertyDeclaration =>
    dsimp only
    split <;> simp
  | _ => simp

theorem visitedIn_map (vocabulary : Vocabulary) (f : α → β) (s : Shape α) (role : Role) :
    (s.map f).visitedIn vocabulary role = (s.visitedIn vocabulary role).map (Prod.map id f) := by
  cases role with
  | whole =>
    simp only [visitedIn, visitedWhole_map]
    show (if vocabulary.handles s.kind then _ else _) = _
    split <;> simp
  | parameter =>
    simp [visitedIn, visited, visitedAsParameter, map, Option.toList_map, inRole_map]
  | clause => exact inRole_map f .whole s.types
  | reference =>
    simp only [visitedIn, visited, visitedWhole_map]
    show (if s.kind = .qualifiedName then _ else _) = _
    split <;> simp

end Shape

namespace Node

variable {γ : Type} (vocabulary : Vocabulary) (own : Head → List γ)

/-- What a node bears: its own if it is printed as a whole, then what its parts bear. -/
def borne (n : Node) : Role → List γ :=
  n.fold fun s role =>
    (if role = .whole then own s.toHead else []) ++
      (s.visitedIn vocabulary role).flatMap fun v => v.2 v.1

def borneBy (visits : List (Role × Node)) : List γ :=
  visits.flatMap fun v => v.2.borne vocabulary own v.1

@[simp] theorem borneBy_nil : borneBy vocabulary own [] = [] := rfl

theorem borneBy_append (vs ws : List (Role × Node)) :
    borneBy vocabulary own (vs ++ ws) = borneBy vocabulary own vs ++ borneBy vocabulary own ws :=
  List.flatMap_append

theorem borneBy_inRole (role : Role) (l : List Node) :
    borneBy vocabulary own (inRole role l) = l.flatMap fun m => m.borne vocabulary own role := by
  simp [borneBy, inRole, List.flatMap_map]

theorem borneBy_some (role : Role) (m : Node) :
    borneBy vocabulary own (inRole role (some m).toList) = m.borne vocabulary own role := by
  rw [borneBy_inRole, Option.toList_some, List.flatMap_singleton]

theorem borne_eq (n : Node) (role : Role) :
    n.borne vocabulary own role = (if role = .whole then own n.head else []) ++
      borneBy vocabulary own (n.shape.visitedIn vocabulary role) := by
  rw [borne, fold_eq, Shape.visitedIn_map, List.flatMap_map]
  rfl

def heads (n : Node) : List Head := n.fold fun s => s.toHead :: s.parts.flatten

theorem heads_eq (n : Node) : n.heads = n.head :: n.shape.parts.flatMap heads := by
  rw [heads, fold_eq, Shape.parts_map, List.flatten_eq_flatMap, List.flatMap_map]
  rfl

theorem head_mem_heads (n : Node) : n.head ∈ n.heads := by
  rw [heads_eq]
  exact List.mem_cons_self

end Node

theorem Vocabulary.isDeclaration_of_handles_eq_false {vocabulary : Vocabulary} {kind : Kind}
    (h : vocabulary.handles kind = false) : kind.isDeclaration = true := by
  cases vocabulary with
  | declarations => cases h
  | types => simpa [handles] using h

namespace Sheet

/-! The texts that are put around the parts of a node. -/

def keywords : List Text :=
  ["any", "string", "number", "boolean", "void", "null", "empty", "Object", "Symbol", "mixed",
    "this", ""]

def leads : List Text :=
  ["", "...", "new ", "typeof ", "declare ", "declare function ", "type ", "interface", "class",
    " ", "static ", "+", "static +", "export ", "default ", "export default "]

def seams : List Text := [", ", " | ", " & ", ": ", "?: ", " = ", ".", ModuleName.accessMark]

def tails : List Text := ["", "?", " ", "[]"]

def ends : List (Text × Text) :=
  [("<", ">"), ("(", ")"), ("[", "]"), ("\x7b", "\x7d"), ("constructor(", "): void"), (" = ", ";")]

theorem memberMarks_mem (modifiers : List Modifier) : memberMarks modifiers ∈ leads := by
  rw [memberMarks]
  cases modifiers.contains .staticKeyword <;> cases modifiers.contains .readonlyKeyword <;> decide

theorem exportMarks_mem (modifiers : List Modifier) : exportMarks modifiers ∈ leads := by
  rw [exportMarks]
  cases modifiers.contains .exportKeyword <;> cases modifiers.contains .defaultKeyword <;> decide

theorem ofShape_eq_unsupported {vocabulary : Vocabulary} {s : Shape Printed}
    (h : vocabulary.handles s.kind = false) : ofShape vocabulary s = unsupported s := by
  have hd := Vocabulary.isDeclaration_of_handles_eq_false h
  cases vocabulary with
  | declarations => cases h
  | types =>
    simp only [ofShape]
    cases hk : s.kind <;> simp_all [Kind.isDeclaration]

theorem ownText_cases (s : Shape Printed) :
    (∀ t, s.text = some (.str t) → t = "") ∧ ownText s = ofText (s.name.getD "") ∨
      (∃ t, s.text = some (.str t) ∧ t ≠ "" ∧ ownText s = ofText t) ∨
      ∃ j, s.text = some j ∧ (∀ t, j ≠ .str t) ∧ ownText s = Traced.fail .textNotString := by
  simp only [ownText]
  split
  · rename_i t ht
    by_cases hempty : t = ""
    · exact .inl ⟨by simp_all, by rw [if_pos hempty]⟩
    · exact .inr (.inl ⟨t, ht, hempty, by rw [if_neg hempty]⟩)
  · rename_i j hstr hj
    split
    · exact .inr (.inr ⟨j, hj, hstr, rfl⟩)
    · exact .inl ⟨fun t ht => absurd (Option.some.inj (hj.symm.trans ht)) (hstr t), rfl⟩
  · rename_i hnone
    exact .inl ⟨by simp [hnone], rfl⟩

theorem literal_cases (s : Shape Printed) :
    s.text = none ∧ literal s = unsupported s ∨
      (∃ t, s.text = some (.str t) ∧
        (s.token ∈ [none, some ("StringLiteral" : Text), some "NoSubstitutionTemplateLiteral"] ∧
            literal s = ofText (Text.literal t) ∨
          s.token ∉ [none, some ("StringLiteral" : Text), some "NoSubstitutionTemplateLiteral"] ∧
            literal s = ofText t)) ∨
      ∃ j, s.text = some j ∧ (∀ t, j ≠ .str t) ∧ literal s = Traced.fail .textNotString := by
  simp only [literal]
  split
  · rename_i hnone
    exact .inl ⟨hnone, rfl⟩
  · rename_i t ht
    refine .inr (.inl ⟨t, ht, ?_⟩)
    cases htoken : s.token with
    | none => exact .inl ⟨by simp, rfl⟩
    | some token =>
      dsimp only
      split
      · rename_i hstring
        exact .inl ⟨by simpa using hstring, rfl⟩
      · rename_i hother
        exact .inr ⟨by simpa using hother, rfl⟩
  · rename_i j hstr hj
    exact .inr (.inr ⟨j, hj, hstr, rfl⟩)

end Sheet

structure Survey (vocabulary : Vocabulary) (γ : Type) where
  /-- What the computation bears, and a property of the value that it gives. -/
  runs {α : Type} : Traced Diagnostic α → List γ → (α → Prop) → Prop
  holds : Layout → List γ → Prop
  /-- The layout may stand right behind any other one. -/
  opens : Layout → List γ → Prop
  own : Head → List γ
  /-- The texts of the node are as they should be. -/
  fine : Head → Prop

namespace Survey

open Sheet

variable {vocabulary : Vocabulary} {γ : Type} (V : Survey vocabulary γ)

/-- Layouts that bear so much together. -/
inductive All : List Layout → List γ → Prop
  | nil : All [] []
  | cons {l : Layout} {ls : List Layout} {g g' : List γ} (head : V.holds l g) (tail : All ls g') :
    All (l :: ls) (g ++ g')

def sheet (sheet : Sheet) (g : List γ) : Prop := V.runs sheet g (V.holds · g)

def opening (sheet : Sheet) (g : List γ) : Prop := V.runs sheet g (V.opens · g)

structure Lawful : Prop where
  pure {α : Type} {P : α → Prop} {a : α} : P a → V.runs (Pure.pure a) [] P
  bind {α β : Type} {P : α → Prop} {R : β → Prop} {t : Traced Diagnostic α}
    {f : α → Traced Diagnostic β} {g g' : List γ} :
    V.runs t g P → (∀ a, P a → V.runs (f a) g' R) → V.runs (t >>= f) (g ++ g') R
  holds_of_opens {l : Layout} {g : List γ} : V.opens l g → V.holds l g
  append {a b : Layout} {g g' : List γ} :
    V.holds a g → V.opens b g' → V.holds (a.append b) (g ++ g')
  opens_append {a b : Layout} {g g' : List γ} :
    V.opens a g → V.opens b g' → V.opens (a.append b) (g ++ g')
  keyword : ∀ t ∈ keywords, V.holds (.text t) []
  lead {l : Layout} {g : List γ} : ∀ t ∈ leads, V.holds l g → V.holds (.append (.text t) l) g
  seam {l : Layout} {g : List γ} : ∀ t ∈ seams, V.holds l g → V.opens (.append (.text t) l) g
  tail : ∀ t ∈ tails, V.opens (.text t) []
  enclosed {l : Layout} {g : List γ} : ∀ e ∈ ends,
    V.holds l g → V.opens (.append (.text e.1) (.append l (.text e.2))) g
  indexed {p t : Layout} {g g' : List γ} : V.holds p g → V.holds t g' →
    V.holds (.append (.text "[") (.append p (.append (.text "]: ") t))) (g ++ g')
  signature {p q r : Layout} {g g' g'' : List γ} (asDeclaration : Bool) :
    V.holds p g → V.opens q g' → V.holds r g'' →
      V.opens (.signature q p (arrow asDeclaration) r) (g ++ (g' ++ g''))
  body {ls : List Layout} {g : List γ} (withSemicolons : Bool) :
    V.All ls g → V.opens (bodyLayout withSemicolons ls) g
  heritage {types : List (Bool × Layout)} {g : List γ} :
    V.All (types.map Prod.snd) g → V.opens (heritageLayout types) g
  name {h : Head} : V.fine h → V.holds (.text (h.name.getD "")) []
  nameText {h : Head} : V.fine h → V.holds (.text (nameText h.name)) []
  unsupported {s : Shape Printed} : V.fine s.toHead →
    s.kind = .unsupported ∨ vocabulary.handles s.kind = false →
      V.sheet (unsupported s) (V.own s.toHead)
  literal {s : Shape Printed} : V.fine s.toHead → s.kind = .literalType →
    V.sheet (literal s) (V.own s.toHead)
  ownText {s : Shape Printed} : V.fine s.toHead → s.kind = .identifier ∨ s.kind = .stringLiteral →
    V.sheet (ownText s) (V.own s.toHead)
  own_eq_nil {h : Head} :
    h.kind ∉ [.unsupported, .literalType, .identifier, .stringLiteral] → V.own h = []

variable {V}

theorem All.singleton {l : Layout} {g : List γ} (h : V.holds l g) : V.All [l] g := by
  simpa using All.cons h .nil

theorem All.append {ls ms : List Layout} {g g' : List γ} (hl : V.All ls g) (hm : V.All ms g') :
    V.All (ls ++ ms) (g ++ g') := by
  induction hl with
  | nil => exact hm
  | cons head _ ih =>
    rw [List.append_assoc]
    exact .cons head ih

namespace Lawful

variable (hV : V.Lawful)
include hV

theorem map {α β : Type} {P : α → Prop} {R : β → Prop} {t : Traced Diagnostic α} {f : α → β}
    {g : List γ} (ht : V.runs t g P) (hf : ∀ a, P a → R (f a)) :
    V.runs (t >>= fun a => Pure.pure (f a)) g R := by
  have h := hV.bind ht fun a ha => hV.pure (hf a ha)
  rwa [List.append_nil] at h

theorem imp {α : Type} {P R : α → Prop} {t : Traced Diagnostic α} {g : List γ}
    (ht : V.runs t g P) (h : ∀ a, P a → R a) : V.runs t g R := by
  have hmap : V.runs (t >>= Pure.pure) g R := hV.map (f := id) ht h
  rwa [bind_pure] at hmap

theorem sheet_of_opening {sheet : Sheet} {g : List γ} (h : V.opening sheet g) :
    V.sheet sheet g :=
  hV.imp h fun _ => hV.holds_of_opens

theorem append_sheet {a b : Sheet} {g g' : List γ} (ha : V.sheet a g) (hb : V.opening b g') :
    V.sheet (Sheet.append a b) (g ++ g') :=
  hV.bind ha fun _ hx => hV.map hb fun _ hy => hV.append hx hy

theorem append_opening {a b : Sheet} {g g' : List γ} (ha : V.opening a g) (hb : V.opening b g') :
    V.opening (Sheet.append a b) (g ++ g') :=
  hV.bind ha fun _ hx => hV.map hb fun _ hy => hV.opens_append hx hy

theorem text_sheet {t : Text} (h : V.holds (.text t) []) : V.sheet (ofText t) [] := hV.pure h

theorem tail_opening {t : Text} (h : t ∈ tails) : V.opening (ofText t) [] := hV.pure (hV.tail t h)

theorem lead_sheet {t : Text} (ht : t ∈ leads) {sheet : Sheet} {g : List γ} (h : V.sheet sheet g) :
    V.sheet (Sheet.append (ofText t) sheet) g := by
  rw [Sheet.append, ofText, pure_bind]
  exact hV.map h fun _ hl => hV.lead t ht hl

theorem seam_opening {t : Text} (ht : t ∈ seams) {sheet : Sheet} {g : List γ}
    (h : V.sheet sheet g) : V.opening (Sheet.append (ofText t) sheet) g := by
  rw [Sheet.append, ofText, pure_bind]
  exact hV.map h fun _ hl => hV.seam t ht hl

theorem enclosed_opening {before after : Text} (he : (before, after) ∈ ends) {sheet : Sheet}
    {g : List γ} (h : V.sheet sheet g) : V.opening (row [before, sheet, after]) g := by
  simp only [row, Sheet.append, ofText, pure_bind, bind_assoc]
  exact hV.map h fun _ hl => hV.enclosed _ he hl

theorem name_sheet {h : Head} (hfine : V.fine h) : V.sheet (ofText (h.name.getD "")) [] :=
  hV.text_sheet (hV.name hfine)

theorem nameText_sheet {h : Head} (hfine : V.fine h) :
    V.sheet (ofText (Sheet.nameText h.name)) [] :=
  hV.text_sheet (hV.nameText hfine)

theorem list_sheet {α : Type} {sep : Text} (hsep : sep ∈ seams) {print : α → Sheet}
    {borne : α → List γ} {l : List α} (h : ∀ a ∈ l, V.sheet (print a) (borne a)) :
    V.sheet (list sep (l.map print)) (l.flatMap borne) := by
  induction l with
  | nil => exact hV.text_sheet (hV.keyword "" (by decide))
  | cons a rest ih =>
    have hrest := ih fun x hx => h x (by simp [hx])
    cases rest with
    | nil =>
      rw [List.flatMap_singleton]
      exact h a (by simp)
    | cons b more => exact hV.append_sheet (h a (by simp)) (hV.seam_opening hsep hrest)

theorem mapM {α β : Type} {f : α → Traced Diagnostic β} (borne : α → List γ)
    (layouts : β → List Layout) {l : List α}
    (h : ∀ a ∈ l, V.runs (f a) (borne a) fun b => V.All (layouts b) (borne a)) :
    V.runs (l.mapM f) (l.flatMap borne) fun bs =>
      V.All (bs.flatMap layouts) (l.flatMap borne) := by
  induction l with
  | nil => exact hV.pure .nil
  | cons a rest ih =>
    rw [List.mapM_cons, List.flatMap_cons]
    refine hV.bind (h a (by simp)) fun b hb => ?_
    refine hV.map (ih fun x hx => h x (by simp [hx])) fun bs hbs => ?_
    rw [List.flatMap_cons]
    exact hb.append hbs

theorem mapM_sheets {α : Type} {print : α → Sheet} {borne : α → List γ} {l : List α}
    (h : ∀ a ∈ l, V.sheet (print a) (borne a)) :
    V.runs (l.mapM print) (l.flatMap borne) fun ls => V.All ls (l.flatMap borne) := by
  simpa only [List.flatMap_singleton'] using
    hV.mapM borne (fun l => [l]) fun a ha => hV.imp (h a ha) fun _ => .singleton

end Lawful

/-- The printed forms of a node are as the survey says. -/
structure Surveyed (V : Survey vocabulary γ) (n : Node) : Prop where
  sheet : V.sheet (n.printed vocabulary).sheet (n.borne vocabulary V.own .whole)
  parameter : V.sheet (n.printed vocabulary).parameter (n.borne vocabulary V.own .parameter)
  types : V.runs ((n.printed vocabulary).types.mapM id) (n.borne vocabulary V.own .clause)
    fun ls => V.All ls (n.borne vocabulary V.own .clause)

namespace Lawful

variable (hV : V.Lawful)
include hV

section Parts

variable {l : List Node} {o : Option Node}

theorem wholes (h : ∀ m ∈ l, V.Surveyed m) :
    V.runs (((l.map (Node.printed vocabulary)).map Printed.sheet).mapM id)
      (Node.borneBy vocabulary V.own (inRole .whole l))
      fun ls => V.All ls (Node.borneBy vocabulary V.own (inRole .whole l)) := by
  rw [Node.borneBy_inRole, List.map_map, List.mapM_map]
  exact hV.mapM_sheets fun m hm => (h m hm).sheet

theorem wholes_list {sep : Text} (hsep : sep ∈ seams) (h : ∀ m ∈ l, V.Surveyed m) :
    V.sheet (list sep ((l.map (Node.printed vocabulary)).map Printed.sheet))
      (Node.borneBy vocabulary V.own (inRole .whole l)) := by
  rw [Node.borneBy_inRole, List.map_map]
  exact hV.list_sheet hsep fun m hm => (h m hm).sheet

theorem generics_opening (h : ∀ m ∈ l, V.Surveyed m) :
    V.opening (generics (l.map (Node.printed vocabulary)))
      (Node.borneBy vocabulary V.own (inRole .whole l)) := by
  simp only [generics, List.isEmpty_map]
  split
  · rename_i hl
    rw [List.isEmpty_iff.mp hl]
    exact hV.tail_opening (by decide)
  · exact hV.enclosed_opening (by decide) (hV.wholes_list (by decide) h)

theorem typeOrAny_sheet (h : ∀ m ∈ o, V.Surveyed m) :
    V.sheet (typeOrAny (o.map (Node.printed vocabulary)))
      (Node.borneBy vocabulary V.own (inRole .whole o.toList)) := by
  cases o with
  | none => exact hV.text_sheet (hV.keyword _ (by decide))
  | some m =>
    rw [Node.borneBy_some]
    exact (h m rfl).sheet

theorem labelled_opening {label : Text} (hlabel : label ∈ seams) (h : ∀ m ∈ o, V.Surveyed m) :
    V.opening (labelled label (o.map (Node.printed vocabulary)))
      (Node.borneBy vocabulary V.own (inRole .whole o.toList)) := by
  cases o with
  | none => exact hV.tail_opening (by decide)
  | some m =>
    rw [Node.borneBy_some]
    exact hV.seam_opening hlabel (h m rfl).sheet

end Parts

section Pieces

variable {s : Shape Node} (hs : ∀ m ∈ s.parts, V.Surveyed m)
include hs

theorem type_sheet : V.sheet (typeOrAny (s.map (Node.printed vocabulary)).type)
    (Node.borneBy vocabulary V.own (inRole .whole s.type.toList)) :=
  hV.typeOrAny_sheet fun m hm => hs m (by simp_all [Shape.parts])

theorem parameters_sheet : V.sheet (parameters (s.map (Node.printed vocabulary)))
    (Node.borneBy vocabulary V.own (inRole .parameter s.parameters)) := by
  have hparameters : (s.map (Node.printed vocabulary)).parameters.map Printed.parameter =
      s.parameters.map fun m => (m.printed vocabulary).parameter := List.map_map
  rw [parameters, hparameters, Node.borneBy_inRole]
  exact hV.list_sheet (by decide) fun m hm => (hs m (by simp [Shape.parts, hm])).parameter

theorem typeParameters_opening :
    V.opening (generics (s.map (Node.printed vocabulary)).typeParameters)
      (Node.borneBy vocabulary V.own (inRole .whole s.typeParameters)) :=
  hV.generics_opening fun m hm => hs m (by simp [Shape.parts, hm])

theorem typeArguments_opening :
    V.opening (generics (s.map (Node.printed vocabulary)).typeArguments)
      (Node.borneBy vocabulary V.own (inRole .whole s.typeArguments)) :=
  hV.generics_opening fun m hm => hs m (by simp [Shape.parts, hm])

theorem signature_opening (asDeclaration : Bool) :
    V.opening (Sheet.signature (s.map (Node.printed vocabulary)) asDeclaration)
      (Node.borneBy vocabulary V.own s.visitedAsSignature) := by
  simp only [Shape.visitedAsSignature, Node.borneBy_append, List.append_assoc]
  refine hV.bind (hV.parameters_sheet hs) fun _ hp => ?_
  refine hV.bind (hV.typeParameters_opening hs) fun _ hg => ?_
  exact hV.map (hV.type_sheet hs) fun _ hr => hV.signature asDeclaration hp hg hr

theorem body_opening (withSemicolons : Bool) :
    V.opening (Sheet.body (s.map (Node.printed vocabulary)) withSemicolons)
      (Node.borneBy vocabulary V.own (inRole .whole s.members)) :=
  hV.map (hV.wholes fun m hm => hs m (by simp [Shape.parts, hm])) fun _ hm =>
    hV.body withSemicolons hm

theorem heritage_opening : V.opening (Sheet.heritage (s.map (Node.printed vocabulary)))
    (Node.borneBy vocabulary V.own (inRole .clause s.heritageClauses)) := by
  rw [Node.borneBy_inRole]
  have htypes : V.runs (heritageTypes (s.heritageClauses.map (Node.printed vocabulary)))
      (s.heritageClauses.flatMap fun m => m.borne vocabulary V.own .clause) fun types =>
        V.All (types.map Prod.snd)
          (s.heritageClauses.flatMap fun m => m.borne vocabulary V.own .clause) := by
    rw [heritageTypes, List.mapM_map]
    refine hV.map (hV.mapM (Node.borne vocabulary V.own · .clause) (List.map Prod.snd)
      fun m hm => ?_) fun groups hg => ?_
    · refine hV.map (hs m (by simp [Shape.parts, hm])).types fun layouts hl => ?_
      rw [List.map_map]
      simpa [Function.comp_def] using hl
    · rw [List.map_flatten, ← List.flatMap_def]
      exact hg
  exact hV.map htypes fun _ ht => hV.heritage ht

theorem qualifiedName_sheet : V.sheet (qualifiedName (s.map (Node.printed vocabulary)))
    (Node.borneBy vocabulary V.own (inRole .whole s.left.toList ++ inRole .whole s.right.toList ++
      inRole .whole s.typeArguments)) := by
  simp only [Node.borneBy_append, List.append_assoc]
  have hleft := hV.typeOrAny_sheet fun m (hm : m ∈ s.left) => hs m (by simp_all [Shape.parts])
  have hright := hV.typeOrAny_sheet fun m (hm : m ∈ s.right) => hs m (by simp_all [Shape.parts])
  have hrest := hV.append_sheet hright (hV.typeArguments_opening hs)
  exact hV.append_sheet hleft (hV.seam_opening (by decide) hrest)

theorem expression_sheet : V.sheet (typeOrAny (s.map (Node.printed vocabulary)).expression)
    (Node.borneBy vocabulary V.own (inRole .whole s.expression.toList)) :=
  hV.typeOrAny_sheet fun m hm => hs m (by simp_all [Shape.parts])

theorem withArguments_sheet : V.sheet (withArguments (s.map (Node.printed vocabulary)))
    (Node.borneBy vocabulary V.own
      (inRole .whole s.expression.toList ++ inRole .whole s.typeArguments)) := by
  rw [Node.borneBy_append]
  exact hV.append_sheet (hV.expression_sheet hs) (hV.typeArguments_opening hs)

theorem indexSignature_sheet : V.sheet (indexSignature (s.map (Node.printed vocabulary)))
    (Node.borneBy vocabulary V.own
      (inRole .parameter s.parameters ++ inRole .whole s.type.toList)) := by
  rw [Node.borneBy_append]
  refine hV.lead_sheet (memberMarks_mem s.modifiers) ?_
  simp only [row, Sheet.append, ofText, pure_bind, bind_assoc]
  refine hV.bind (hV.parameters_sheet hs) fun _ hp => ?_
  exact hV.map (hV.type_sheet hs) fun _ ht => hV.indexed hp ht

/-! The name of the node is printed as well. -/

variable (hfine : V.fine s.toHead)
include hfine

theorem parameter_sheet : V.sheet (Sheet.parameter (s.map (Node.printed vocabulary)))
    (Node.borneBy vocabulary V.own s.visitedAsParameter) := by
  have hquestion : V.opening (ofText (if s.optional then "?" else "")) [] := by
    split <;> exact hV.tail_opening (by decide)
  have hdots : (if s.rest then "..." else "" : Text) ∈ leads := by
    split <;> decide
  have htype := hV.append_opening hquestion (hV.seam_opening (t := ": ") (by decide)
    (hV.type_sheet hs))
  have hname : V.sheet (parameterName (s.map (Node.printed vocabulary)))
      (Node.borneBy vocabulary V.own (inRole .whole s.binding.toList)) := by
    have hbinding : (s.map (Node.printed vocabulary)).binding =
        s.binding.map (Node.printed vocabulary) := rfl
    simp only [parameterName, hbinding]
    cases hb : s.binding with
    | none => exact hV.name_sheet hfine
    | some pattern =>
      rw [Node.borneBy_some]
      exact (hs pattern (by simp [Shape.parts, hb])).sheet
  rw [Shape.visitedAsParameter, Node.borneBy_append]
  exact hV.lead_sheet hdots (hV.append_sheet hname htype)

theorem functionDeclaration_sheet :
    V.sheet (functionDeclaration (s.map (Node.printed vocabulary)))
      (Node.borneBy vocabulary V.own s.visitedAsSignature) :=
  hV.lead_sheet (by decide)
    (hV.append_sheet (hV.nameText_sheet hfine) (hV.signature_opening hs true))

theorem container_sheet {word : Text} (hword : word ∈ leads) (withSemicolons : Bool) :
    V.sheet (container (s.map (Node.printed vocabulary)) word withSemicolons)
      (Node.borneBy vocabulary V.own s.visitedAsContainer) := by
  simp only [Shape.visitedAsContainer, Node.borneBy_append, List.append_assoc]
  have hbody := hV.append_opening (hV.tail_opening (t := " ") (by decide))
    (hV.body_opening hs withSemicolons)
  have hrest := hV.append_opening (hV.typeParameters_opening hs)
    (hV.append_opening (hV.heritage_opening hs) hbody)
  have hnamed := hV.append_sheet (hV.nameText_sheet hfine) hrest
  have hword := hV.lead_sheet hword (hV.lead_sheet (t := " ") (by decide) hnamed)
  exact hV.lead_sheet (by decide) (hV.lead_sheet (exportMarks_mem s.modifiers) hword)

theorem typeAlias_sheet : V.sheet (typeAlias (s.map (Node.printed vocabulary)))
    (Node.borneBy vocabulary V.own
      (inRole .whole s.typeParameters ++ inRole .whole s.type.toList)) := by
  rw [Node.borneBy_append]
  have hmarks : ((" = ", ";") : Text × Text) ∈ ends := by decide
  have hend := hV.enclosed_opening hmarks (hV.type_sheet hs)
  have hnamed := hV.append_sheet (hV.nameText_sheet hfine)
    (hV.append_opening (hV.typeParameters_opening hs) hend)
  have hword := hV.lead_sheet (t := "type ") (by decide) hnamed
  exact hV.lead_sheet (by decide) (hV.lead_sheet (exportMarks_mem s.modifiers) hword)

theorem typeReference_sheet : V.sheet (typeReference (s.map (Node.printed vocabulary)))
    (Node.borneBy vocabulary V.own
      (inRole .reference s.typeName.toList ++ inRole .whole s.typeArguments)) := by
  have hname {name : Sheet} {g : List γ} (h : V.sheet name g) :=
    hV.append_sheet h (hV.typeArguments_opening hs)
  have htypeName : (s.map (Node.printed vocabulary)).typeName =
      s.typeName.map (Node.printed vocabulary) := rfl
  rw [Node.borneBy_append]
  simp only [typeReference, htypeName]
  cases hn : s.typeName with
  | none => exact hname (hV.name_sheet hfine)
  | some m =>
    have hkind : (m.printed vocabulary).kind = m.head.kind := by
      rw [Node.printed_eq]
      rfl
    have hshape : m.shape.kind = m.head.kind := rfl
    rw [Node.borneBy_some]
    simp only [Option.map_some, hkind]
    by_cases hk : m.head.kind = .qualifiedName
    · have hwhole : m.borne vocabulary V.own .reference = m.borne vocabulary V.own .whole := by
        have hhandles : vocabulary.handles .qualifiedName = true := by cases vocabulary <;> rfl
        have hown : V.own m.head = [] := hV.own_eq_nil (by simp [hk])
        rw [Node.borne_eq, Node.borne_eq, hown]
        simp [Shape.visitedIn, Shape.visited, hshape, hk, hhandles]
      rw [hwhole, if_pos hk]
      exact hname (hs m (by simp [Shape.parts, hn])).sheet
    · have hnone : m.borne vocabulary V.own .reference = [] := by
        rw [Node.borne_eq]
        simp [Shape.visitedIn, Shape.visited, hshape, hk, Node.borneBy]
      rw [hnone, if_neg hk]
      exact hname (hV.name_sheet hfine)

theorem propertyAccess_sheet : V.sheet (propertyAccess (s.map (Node.printed vocabulary)))
    (Node.borneBy vocabulary V.own (inRole .whole s.expression.toList)) := by
  have hname := hV.seam_opening (t := ModuleName.accessMark) (by decide) (hV.name_sheet hfine)
  rw [← List.append_nil (Node.borneBy vocabulary V.own _)]
  exact hV.append_sheet (hV.expression_sheet hs) hname

theorem typeParameter_sheet : V.sheet (typeParameter (s.map (Node.printed vocabulary)))
    (Node.borneBy vocabulary V.own
      (inRole .whole s.constraint.toList ++ inRole .whole s.fallback.toList)) := by
  rw [Node.borneBy_append]
  have hconstraint := hV.labelled_opening (show (": " : Text) ∈ seams by decide)
    fun m (hm : m ∈ s.constraint) => hs m (by simp_all [Shape.parts])
  have hfallback := hV.labelled_opening (show (" = " : Text) ∈ seams by decide)
    fun m (hm : m ∈ s.fallback) => hs m (by simp_all [Shape.parts])
  have hlabels := hV.append_opening hconstraint hfallback
  exact hV.append_sheet (g := []) (hV.name_sheet hfine) hlabels

theorem typeQuery_sheet : V.sheet (typeQuery (s.map (Node.printed vocabulary)))
    (Node.borneBy vocabulary V.own (inRole .whole s.typeName.toList)) := by
  have htypeName : (s.map (Node.printed vocabulary)).typeName =
      s.typeName.map (Node.printed vocabulary) := rfl
  simp only [typeQuery, htypeName]
  cases hn : s.typeName with
  | none => exact hV.lead_sheet (by decide) (hV.name_sheet hfine)
  | some m =>
    rw [Node.borneBy_some]
    exact hV.lead_sheet (by decide) (hs m (by simp [Shape.parts, hn])).sheet

theorem property_sheet : V.sheet (property (s.map (Node.printed vocabulary)))
    (Node.borneBy vocabulary V.own s.visitedAsParameter) :=
  hV.lead_sheet (memberMarks_mem s.modifiers) (hV.parameter_sheet hs hfine)

theorem method_sheet : V.sheet (method (s.map (Node.printed vocabulary)))
    (Node.borneBy vocabulary V.own s.visitedAsSignature) := by
  have hname {rest : Sheet} {g : List γ} (h : V.opening rest g) :=
    hV.lead_sheet (memberMarks_mem s.modifiers) (hV.append_sheet (hV.nameText_sheet hfine) h)
  simp only [method]
  split
  · have hsignature := hV.sheet_of_opening (hV.signature_opening hs false)
    exact hname (hV.seam_opening (t := "?: ") (by decide) hsignature)
  · exact hname (hV.signature_opening hs true)

theorem ofShape_sheet_parts (hhandles : vocabulary.handles s.kind = true)
    (hown : s.kind ∉ [.unsupported, .literalType, .identifier, .stringLiteral]) :
    V.sheet (ofShape vocabulary (s.map (Node.printed vocabulary)))
      (Node.borneBy vocabulary V.own s.visitedWhole) := by
  have hkeyword {t : Text} (ht : t ∈ keywords) : V.sheet (ofText t) [] :=
    hV.text_sheet (hV.keyword t ht)
  have hunless {sheet : Sheet} {visits : List (Role × Node)}
      (h : V.sheet sheet (Node.borneBy vocabulary V.own visits)) :
      V.sheet (if s.modifiers.contains .privateKeyword then ofText "" else sheet)
        (Node.borneBy vocabulary V.own
          (if s.modifiers.contains .privateKeyword then [] else visits)) := by
    split
    · exact hkeyword (by decide)
    · exact h
  have hdeclared {sheet other : Sheet} {g : List γ} {k : Kind} (hk : s.kind = k)
      (hd : k.isDeclaration = true) (h : V.sheet sheet g) :
      V.sheet (if vocabulary = .declarations then sheet else other) g := by
    cases vocabulary with
    | types => simp [Vocabulary.handles, hk, hd] at hhandles
    | declarations => exact h
  have henclosed {before after : Text} (he : (before, after) ∈ ends) {sheet : Sheet} {g : List γ}
      (h : V.sheet sheet g) : V.sheet (row [before, sheet, after]) g :=
    hV.sheet_of_opening (hV.enclosed_opening he h)
  have hsignature (asDeclaration : Bool) :=
    hV.sheet_of_opening (hV.signature_opening hs asDeclaration)
  have hkind : (s.map (Node.printed vocabulary)).kind = s.kind := rfl
  simp only [Shape.visitedWhole, ofShape]
  rw [hkind]
  cases hk : s.kind with
  | functionDeclaration => exact hdeclared hk rfl (hV.functionDeclaration_sheet hs hfine)
  | interfaceDeclaration => exact hdeclared hk rfl (hV.container_sheet hs hfine (by decide) false)
  | classDeclaration => exact hdeclared hk rfl (hV.container_sheet hs hfine (by decide) true)
  | typeAliasDeclaration => exact hdeclared hk rfl (hV.typeAlias_sheet hs hfine)
  | heritageClause | unionType | intersectionType =>
    exact hV.wholes_list (by decide) fun m hm => hs m (by simp [Shape.parts, hm])
  | parameter => exact hV.parameter_sheet hs hfine
  | typeParameter => exact hV.typeParameter_sheet hs hfine
  | propertySignature => exact hV.property_sheet hs hfine
  | propertyDeclaration => exact hunless (hV.property_sheet hs hfine)
  | methodSignature => exact hV.method_sheet hs hfine
  | methodDeclaration => exact hunless (hV.method_sheet hs hfine)
  | callSignature => exact hsignature true
  | constructSignature => exact hV.lead_sheet (by decide) (hsignature true)
  | constructor => exact henclosed (by decide) (hV.parameters_sheet hs)
  | indexSignature => exact hV.indexSignature_sheet hs
  | functionType => exact hsignature false
  | typeLiteral => exact hV.sheet_of_opening (hV.body_opening hs false)
  | typeReference => exact hV.typeReference_sheet hs hfine
  | tupleType | objectBindingPattern =>
    refine henclosed (by decide) (hV.wholes_list (by decide) fun m hm => hs m ?_)
    simp [Shape.parts, hm]
  | arrayType =>
    have htype := hV.typeOrAny_sheet fun m (hm : m ∈ s.elementType) =>
      hs m (by simp_all [Shape.parts])
    rw [← List.append_nil (Node.borneBy vocabulary V.own _)]
    exact hV.append_sheet htype (hV.tail_opening (by decide))
  | parenthesizedType => exact henclosed (by decide) (hV.type_sheet hs)
  | typeQuery => exact hV.typeQuery_sheet hs hfine
  | typePredicate | bindingElement => exact hV.name_sheet hfine
  | qualifiedName => exact hV.qualifiedName_sheet hs
  | expressionWithTypeArguments => exact hV.withArguments_sheet hs
  | propertyAccessExpression => exact hV.propertyAccess_sheet hs hfine
  | unsupported | literalType | identifier | stringLiteral => simp [hk] at hown
  | _ => exact hkeyword (by decide)

theorem ofShape_sheet : V.sheet (ofShape vocabulary (s.map (Node.printed vocabulary)))
    ((Node.mk s).borne vocabulary V.own .whole) := by
  have hborne : (Node.mk s).borne vocabulary V.own .whole = V.own s.toHead ++
      Node.borneBy vocabulary V.own (if vocabulary.handles s.kind then s.visitedWhole else []) :=
    Node.borne_eq vocabulary V.own (.mk s) .whole
  have hkind : (s.map (Node.printed vocabulary)).kind = s.kind := rfl
  have hleaf {sheet : Sheet} (hv : s.visitedWhole = []) (h : V.sheet sheet (V.own s.toHead)) :
      V.sheet sheet (V.own s.toHead ++ Node.borneBy vocabulary V.own s.visitedWhole) := by
    rwa [hv, Node.borneBy_nil, List.append_nil]
  rw [hborne]
  cases hh : vocabulary.handles s.kind with
  | false =>
    rw [ofShape_eq_unsupported hh, if_neg (by simp), Node.borneBy_nil, List.append_nil]
    exact hV.unsupported (s := s.map (Node.printed vocabulary)) hfine (.inr hh)
  | true =>
    rw [if_pos rfl]
    by_cases hown : s.kind ∈ [.unsupported, .literalType, .identifier, .stringLiteral]
    · have hvisited : s.visitedWhole = [] := by
        simp only [List.mem_cons, List.not_mem_nil, or_false] at hown
        rcases hown with hk | hk | hk | hk <;> simp [Shape.visitedWhole, hk]
      refine hleaf hvisited ?_
      simp only [List.mem_cons, List.not_mem_nil, or_false] at hown
      rcases hown with hk | hk | hk | hk <;> simp only [ofShape, hkind, hk]
      · exact hV.unsupported (s := s.map (Node.printed vocabulary)) hfine (.inl hk)
      · exact hV.literal (s := s.map (Node.printed vocabulary)) hfine hk
      · exact hV.ownText (s := s.map (Node.printed vocabulary)) hfine (.inl hk)
      · exact hV.ownText (s := s.map (Node.printed vocabulary)) hfine (.inr hk)
    · have hnone : V.own s.toHead = [] := hV.own_eq_nil hown
      rw [hnone, List.nil_append]
      exact hV.ofShape_sheet_parts hs hfine hh hown

end Pieces

/-- Whatever a node is printed as, it is as the survey says. -/
theorem surveyed (n : Node) : (∀ h ∈ n.heads, V.fine h) → V.Surveyed n := by
  induction n using Node.induct with
  | h n ih =>
    intro hfine
    obtain ⟨s⟩ := n
    rw [Node.heads_eq, List.forall_mem_cons] at hfine
    obtain ⟨hhead, hrest⟩ := hfine
    have hs : ∀ m ∈ s.parts, V.Surveyed m :=
      fun m hm => ih m hm fun h hh => hrest h (List.mem_flatMap.mpr ⟨m, hm, hh⟩)
    have hprinted := Node.printed_eq vocabulary (.mk s)
    refine ⟨?_, ?_, ?_⟩
    · rw [hprinted]
      exact hV.ofShape_sheet hs hhead
    · rw [hprinted, Node.borne_eq]
      exact hV.parameter_sheet hs hhead
    · rw [hprinted, Node.borne_eq]
      exact hV.wholes fun m (hm : m ∈ s.types) => hs m (by simp [Shape.parts, hm])

theorem parts_surveyed {n : Node} (h : ∀ h ∈ n.heads, V.fine h) :
    ∀ m ∈ n.shape.parts, V.Surveyed m := by
  rw [Node.heads_eq, List.forall_mem_cons] at h
  exact fun m hm => hV.surveyed m fun g hg => h.2 g (List.mem_flatMap.mpr ⟨m, hm, hg⟩)

end Lawful
end Survey
end Libdef
