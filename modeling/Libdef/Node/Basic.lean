import Libdef.Node.Kind
import Libdef.Node.Modifier

set_option autoImplicit false

namespace Libdef

structure Head where
  kind : Kind
  name : Option Text := none
  /-- The kind as the tree writes it, which is never a list or an object. -/
  rawKind : Json := .str ""
  modifiers : List Modifier := []
  /-- The text of a literal or a name. Only a string can be printed. -/
  text : Option Json := none
  token : Option Text := none
  optional : Bool := false
  rest : Bool := false
  deriving Repr, Inhabited

structure Shape (α : Type) extends Head where
  type : Option α := none
  typeName : Option α := none
  elementType : Option α := none
  left : Option α := none
  right : Option α := none
  expression : Option α := none
  binding : Option α := none
  constraint : Option α := none
  fallback : Option α := none
  parameters : List α := []
  typeParameters : List α := []
  typeArguments : List α := []
  members : List α := []
  heritageClauses : List α := []
  types : List α := []
  elementTypes : List α := []
  elements : List α := []
  deriving Repr, Inhabited

inductive Node where
  | mk (shape : Shape Node)
  deriving Inhabited

def Shape.map {α β : Type} (f : α → β) (s : Shape α) : Shape β where
  toHead := s.toHead
  type := s.type.map f
  typeName := s.typeName.map f
  elementType := s.elementType.map f
  left := s.left.map f
  right := s.right.map f
  expression := s.expression.map f
  binding := s.binding.map f
  constraint := s.constraint.map f
  fallback := s.fallback.map f
  parameters := s.parameters.map f
  typeParameters := s.typeParameters.map f
  typeArguments := s.typeArguments.map f
  members := s.members.map f
  heritageClauses := s.heritageClauses.map f
  types := s.types.map f
  elementTypes := s.elementTypes.map f
  elements := s.elements.map f

def Shape.parts {α : Type} (s : Shape α) : List α :=
  s.type.toList ++ s.typeName.toList ++ s.elementType.toList ++ s.left.toList ++ s.right.toList ++
    s.expression.toList ++ s.binding.toList ++ s.constraint.toList ++ s.fallback.toList ++
    s.parameters ++ s.typeParameters ++ s.typeArguments ++ s.members ++ s.heritageClauses ++
    s.types ++ s.elementTypes ++ s.elements

theorem Shape.parts_map {α β : Type} (f : α → β) (s : Shape α) :
    (s.map f).parts = s.parts.map f := by
  have hoption (o : Option α) : (o.map f).toList = o.toList.map f := by cases o <;> rfl
  simp [Shape.parts, Shape.map, hoption]

theorem Shape.map_map {α β γ : Type} (f : α → β) (g : β → γ) (s : Shape α) :
    (s.map f).map g = s.map fun a => g (f a) := by
  simp [Shape.map, Function.comp_def]

theorem Shape.map_congr {α β : Type} {f g : α → β} {s : Shape α} (h : ∀ a ∈ s.parts, f a = g a) :
    s.map f = s.map g := by
  have hoption (o : Option α) (ho : ∀ a ∈ o.toList, a ∈ s.parts) : o.map f = o.map g := by
    cases o with
    | none => rfl
    | some a => simp [h a (ho a (by simp))]
  have hlist (l : List α) (hl : ∀ a ∈ l, a ∈ s.parts) : l.map f = l.map g :=
    List.map_congr_left fun a ha => h a (hl a ha)
  simp only [Shape.map, Shape.mk.injEq, true_and]
  refine ⟨hoption _ ?_, hoption _ ?_, hoption _ ?_, hoption _ ?_, hoption _ ?_, hoption _ ?_,
    hoption _ ?_, hoption _ ?_, hoption _ ?_, hlist _ ?_, hlist _ ?_, hlist _ ?_, hlist _ ?_,
    hlist _ ?_, hlist _ ?_, hlist _ ?_, hlist _ ?_⟩
  all_goals
    intro a ha
    simp only [Shape.parts, List.mem_append]
    simp only [ha, true_or, or_true]

namespace Node

def shape : Node → Shape Node
  | .mk s => s

def head (n : Node) : Head := n.shape.toHead

def name (n : Node) : Option Text := n.shape.name

def rename (n : Node) (name : Option Text) : Node :=
  .mk { n.shape with name := name }

variable {α : Type}

mutual

def fold (step : Shape α → α) : Node → α
  | .mk s => step (foldShape step s)

def foldShape (step : Shape α → α) : Shape Node → Shape α
  | ⟨head, type, typeName, elementType, left, right, expression, binding, constraint, fallback,
      parameters, typeParameters, typeArguments, members, heritageClauses, types, elementTypes,
      elements⟩ =>
    { toHead := head
      type := foldPart step type
      typeName := foldPart step typeName
      elementType := foldPart step elementType
      left := foldPart step left
      right := foldPart step right
      expression := foldPart step expression
      binding := foldPart step binding
      constraint := foldPart step constraint
      fallback := foldPart step fallback
      parameters := foldAll step parameters
      typeParameters := foldAll step typeParameters
      typeArguments := foldAll step typeArguments
      members := foldAll step members
      heritageClauses := foldAll step heritageClauses
      types := foldAll step types
      elementTypes := foldAll step elementTypes
      elements := foldAll step elements }

def foldPart (step : Shape α → α) : Option Node → Option α
  | none => none
  | some n => some (fold step n)

def foldAll (step : Shape α → α) : List Node → List α
  | [] => []
  | n :: rest => fold step n :: foldAll step rest

end

section Induction

variable {P : Node → Prop}

mutual

theorem induct (h : ∀ n : Node, (∀ m ∈ n.shape.parts, P m) → P n) : ∀ n : Node, P n
  | .mk s => h _ (inductShape h s)

theorem inductShape (h : ∀ n : Node, (∀ m ∈ n.shape.parts, P m) → P n) :
    ∀ s : Shape Node, ∀ m ∈ s.parts, P m
  | ⟨_, type, typeName, elementType, left, right, expression, binding, constraint, fallback,
      parameters, typeParameters, typeArguments, members, heritageClauses, types, elementTypes,
      elements⟩ => by
    intro m hm
    simp only [Shape.parts, List.mem_append, Option.mem_toList, or_assoc] at hm
    rcases hm with hm | hm | hm | hm | hm | hm | hm | hm | hm | hm | hm | hm | hm | hm | hm | hm |
      hm
    · exact inductPart h type m hm
    · exact inductPart h typeName m hm
    · exact inductPart h elementType m hm
    · exact inductPart h left m hm
    · exact inductPart h right m hm
    · exact inductPart h expression m hm
    · exact inductPart h binding m hm
    · exact inductPart h constraint m hm
    · exact inductPart h fallback m hm
    · exact inductAll h parameters m hm
    · exact inductAll h typeParameters m hm
    · exact inductAll h typeArguments m hm
    · exact inductAll h members m hm
    · exact inductAll h heritageClauses m hm
    · exact inductAll h types m hm
    · exact inductAll h elementTypes m hm
    · exact inductAll h elements m hm

theorem inductPart (h : ∀ n : Node, (∀ m ∈ n.shape.parts, P m) → P n) :
    ∀ o : Option Node, ∀ m ∈ o, P m
  | none => by simp
  | some n => by
    intro m hm
    have he : n = m := by simpa using hm
    rw [← he]
    exact induct h n

theorem inductAll (h : ∀ n : Node, (∀ m ∈ n.shape.parts, P m) → P n) :
    ∀ l : List Node, ∀ m ∈ l, P m
  | [] => by simp
  | n :: rest => by
    intro m hm
    rcases List.mem_cons.mp hm with he | hr
    · rw [he]
      exact induct h n
    · exact inductAll h rest m hr

end

end Induction

theorem foldPart_eq (step : Shape α → α) (n : Option Node) :
    foldPart step n = n.map (fold step) := by
  cases n <;> rfl

theorem foldAll_eq (step : Shape α → α) (l : List Node) : foldAll step l = l.map (fold step) := by
  induction l with
  | nil => rfl
  | cons n rest ih => simp [foldAll, ih]

theorem foldShape_eq (step : Shape α → α) (s : Shape Node) :
    foldShape step s = s.map (fold step) := by
  cases s
  simp [foldShape, Shape.map, foldPart_eq, foldAll_eq]

theorem fold_eq (step : Shape α → α) (n : Node) : n.fold step = step (n.shape.map (fold step)) := by
  cases n
  simp [fold, shape, foldShape_eq]

end Node
end Libdef
