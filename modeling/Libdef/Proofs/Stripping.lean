import Libdef.Proofs.Outcome
import Libdef.Node.Reading
import Libdef.Sheet.Node

/-!
Bookkeeping in trees. Beside what it declares, a node of a tree says where it stands in its file and
carries flags, and only the flags of modules mean anything here. A value is stripped by leaving all
of this out, at every depth. Main statements: a stripped value has the same names and is read as the
same node, and a stripped node is printed alike.
-/

set_option autoImplicit false

namespace Libdef

namespace Json

def bookkeepingKeys : List Text := ["pos", "end", "parent", "flags"]

/-- Whether the entry of a value is bookkeeping. A value is a node if it has a kind, and the flags
of a module are not bookkeeping. -/
def isBookkeeping (j : Json) (key : Text) : Bool :=
  (j.field? "kind").isSome && bookkeepingKeys.contains key &&
    !(key == "flags" && (j.get "kind").isStr "ModuleDeclaration")

mutual

/-- The value without bookkeeping, in itself and in everything inside. -/
def stripped : Json → Json
  | .arr items => .arr (strippedItems items)
  | .obj fields => .obj (strippedFields (isBookkeeping (.obj fields)) fields)
  | j => j

def strippedItems : List Json → List Json
  | [] => []
  | j :: rest => stripped j :: strippedItems rest

def strippedFields (drops : Text → Bool) : List (Text × Json) → List (Text × Json)
  | [] => []
  | (key, j) :: rest =>
    if drops key then strippedFields drops rest
    else (key, stripped j) :: strippedFields drops rest

end

variable {j : Json} {key : Text}

theorem strippedItems_eq (items : List Json) : strippedItems items = items.map stripped := by
  induction items with
  | nil => rfl
  | cons j rest ih => simp [strippedItems, ih]

theorem lookup_strippedFields (drops : Text → Bool) (fields : List (Text × Json))
    (key : Text) : (strippedFields drops fields).lookup key =
      if drops key then none else (fields.lookup key).map stripped := by
  induction fields with
  | nil => simp [strippedFields]
  | cons p rest ih =>
    obtain ⟨k, j⟩ := p
    simp only [strippedFields]
    by_cases hk : key = k
    · subst hk
      by_cases hd : drops key = true
      · simp [hd, ih]
      · simp [hd]
    · by_cases hd : drops k = true
      · simp [hd, ih, List.lookup_cons, beq_false_of_ne hk]
      · simp [hd, ih, List.lookup_cons, beq_false_of_ne hk]

theorem field?_stripped_eq (j : Json) (key : Text) : j.stripped.field? key =
    if j.isBookkeeping key then none else (j.field? key).map stripped := by
  cases j with
  | obj fields => exact lookup_strippedFields _ _ _
  | _ => simp [stripped, field?]

theorem isBookkeeping_eq_false (j : Json) {key : Text} (h : key ∉ bookkeepingKeys) :
    j.isBookkeeping key = false := by
  simp [isBookkeeping, h]

theorem field?_stripped (j : Json) (key : Text) (h : key ∉ bookkeepingKeys) :
    j.stripped.field? key = (j.field? key).map stripped := by
  simp [field?_stripped_eq, isBookkeeping_eq_false j h]

theorem get_of_field?_stripped (h : j.stripped.field? key = (j.field? key).map stripped) :
    j.stripped.get key = (j.get key).stripped := by
  rw [get, h, get]
  cases j.field? key <;> rfl

theorem get_stripped (j : Json) (key : Text) (h : key ∉ bookkeepingKeys) :
    j.stripped.get key = (j.get key).stripped :=
  get_of_field?_stripped (field?_stripped j key h)

theorem flags_stripped (h : (j.get "kind").isStr "ModuleDeclaration" = true) :
    j.stripped.get "flags" = (j.get "flags").stripped := by
  apply get_of_field?_stripped
  simp [field?_stripped_eq, isBookkeeping, h]

/-- A value that is left out of an object leaves the kind of the object behind. -/
theorem isEmpty_strippedFields (fields : List (Text × Json)) :
    (strippedFields (isBookkeeping (.obj fields)) fields).isEmpty = fields.isEmpty := by
  cases hkind : fields.lookup (.ofString "kind") with
  | some kind =>
    have hleft := field?_stripped (.obj fields) "kind" (by decide)
    simp only [stripped, field?, hkind, Option.map_some] at hleft
    cases fields with
    | nil => cases hkind
    | cons p rest =>
      cases hfields : strippedFields (isBookkeeping (.obj (p :: rest))) (p :: rest) with
      | nil =>
        rw [hfields] at hleft
        cases hleft
      | cons q more => rfl
  | none =>
    cases fields with
    | nil => rfl
    | cons p rest =>
      have hkept : isBookkeeping (.obj (p :: rest)) p.1 = false := by
        simp [isBookkeeping, field?, hkind]
      simp [strippedFields, hkept]

@[simp] theorem isObj_stripped (j : Json) : j.stripped.isObj = j.isObj := by
  cases j <;> rfl

@[simp] theorem isNull_stripped (j : Json) : j.stripped.isNull = j.isNull := by
  cases j <;> rfl

@[simp] theorem isContainer_stripped (j : Json) : j.stripped.isContainer = j.isContainer := by
  cases j <;> rfl

@[simp] theorem str?_stripped (j : Json) : j.stripped.str? = j.str? := by
  cases j <;> rfl

@[simp] theorem isStr_stripped (j : Json) (s : Text) : j.stripped.isStr s = j.isStr s := by
  cases j <;> rfl

@[simp] theorem truthy_stripped (j : Json) : j.stripped.truthy = j.truthy := by
  cases j with
  | arr items => simp [stripped, truthy, strippedItems_eq]
  | obj fields => simp [stripped, truthy, isEmpty_strippedFields]
  | _ => rfl

theorem stripped_of_not_isContainer (h : j.isContainer = false) : j.stripped = j := by
  cases j with
  | arr _ | obj _ => cases h
  | _ => rfl

theorem items_stripped (j : Json) : j.stripped.items = j.items.map stripped := by
  cases j with
  | arr items => exact strippedItems_eq items
  | _ => rfl

theorem map_field?_stripped {α : Type} {f : Json → α} (j : Json)
    (hf : ∀ i ∈ j.children, f i.stripped = f i) (h : key ∉ bookkeepingKeys) :
    (j.stripped.field? key).map f = (j.field? key).map f := by
  rw [field?_stripped j key h, Option.map_map]
  cases hi : j.field? key with
  | none => rfl
  | some i => simp [hf i (mem_children_of_field? hi)]

theorem ownText_stripped (j : Json) : j.stripped.ownText = j.ownText := by
  simp (disch := decide) only [ownText, get_stripped, str?_stripped]

theorem nameStep_of_isObj (h : j.isObj = true) (items : List (Except Fault (Option Text)))
    (part : Text → Option (Except Fault (Option Text))) :
    nameStep j items part =
      if (j.get "kind").isStr "QualifiedName" then
        dotted ((part "left").getD (.ok none)) ((part "right").getD (.ok none))
      else if (j.get "kind").isStr "PropertyAccessExpression" then
        dotted ((part "expression").getD (.ok none)) ((part "name").getD (.ok none))
      else if (j.get "kind").isStr "ComputedPropertyName" then
        ((part "expression").getD (.ok none)).map fun inner => inner.map fun s => "[" ++ s ++ "]"
      else .ok j.ownText := by
  cases j with
  | obj fields => rfl
  | _ => cases h

@[simp] theorem nameText_stripped (j : Json) : j.stripped.nameText = j.nameText := by
  induction j using Json.induct with
  | h j ih =>
    cases hobj : j.isObj with
    | false =>
      cases j with
      | obj _ => cases hobj
      | _ => rfl
    | true =>
      rw [nameText_eq, nameText_eq j, nameStep_of_isObj (by simpa using hobj),
        nameStep_of_isObj hobj]
      simp (disch := decide) only [map_field?_stripped j ih, get_stripped, isStr_stripped,
        ownText_stripped]

theorem nameParts_stripped (j : Json) : j.stripped.nameParts = j.nameParts := by
  simp only [nameParts, nameText_stripped]

theorem referencedName_stripped (j : Json) :
    j.stripped.referencedName = j.referencedName.map stripped := by
  simp (disch := decide) only [referencedName, get_stripped, truthy_stripped, isObj_stripped,
    isStr_stripped]
  repeat' split
  all_goals rfl

theorem isBindingPattern_stripped (j : Json) :
    j.stripped.isBindingPattern = j.isBindingPattern := by
  simp (disch := decide) only [isBindingPattern, get_stripped, isStr_stripped]

theorem ownName_stripped (j : Json) : j.stripped.ownName = j.ownName := by
  simp (disch := decide) only [ownName, get_stripped, isNull_stripped, isBindingPattern_stripped,
    nameText_stripped]

theorem rawKind_stripped (j : Json) : j.stripped.rawKind = j.rawKind.stripped := by
  rw [rawKind, field?_stripped j "kind" (by decide), rawKind]
  cases j.field? "kind" <;> rfl

theorem modifier_stripped (j : Json) : j.stripped.modifier = j.modifier := by
  cases hobj : j.isObj with
  | true =>
    simp only [modifier, isObj_stripped, hobj, if_true, get_stripped j "kind" (by decide)]
    cases j.get "kind" <;> rfl
  | false =>
    cases j with
    | obj _ => cases hobj
    | _ => rfl

/-- No modifier is called like a piece of bookkeeping. -/
theorem filterMap_strippedFields (fields : List (Text × Json)) :
    (strippedFields (isBookkeeping (.obj fields)) fields).filterMap
        (fun field => Modifier.ofName? field.1) =
      fields.filterMap fun field => Modifier.ofName? field.1 := by
  have hdrops (key : Text) (h : isBookkeeping (.obj fields) key = true) :
      Modifier.ofName? key = none := by
    have hkey : ∀ k ∈ bookkeepingKeys, Modifier.ofName? k = none := by decide
    simp only [isBookkeeping, Bool.and_eq_true, List.contains_eq_mem, decide_eq_true_eq] at h
    exact hkey key h.1.2
  generalize isBookkeeping (.obj fields) = drops at hdrops ⊢
  induction fields with
  | nil => rfl
  | cons p rest ih =>
    obtain ⟨key, j⟩ := p
    by_cases hd : drops key = true
    · simp [strippedFields, hd, hdrops key hd, ih]
    · simp [strippedFields, hd, List.filterMap_cons, ih]

theorem modifiers_stripped (j : Json) : j.stripped.modifiers = j.modifiers := by
  simp only [modifiers, get_stripped j "modifiers" (by decide)]
  cases j.get "modifiers" with
  | arr items =>
    have hmodifier : modifier ∘ stripped = modifier := funext modifier_stripped
    simp only [stripped, strippedItems_eq, List.mapM_map, hmodifier]
  | obj fields => simp only [stripped, filterMap_strippedFields]
  | _ => rfl

theorem signedText_stripped (literal : Json) :
    literal.stripped.signedText = literal.signedText := by
  simp (disch := decide) only [signedText, get_stripped, truthy_stripped, isObj_stripped,
    isStr_stripped, nameText_stripped]

theorem literalText_stripped (literal kind : Json) :
    literal.stripped.literalText kind.stripped = literal.literalText kind := by
  cases kind with
  | str s =>
    simp only [stripped, literalText, signedText_stripped, nameText_stripped]
  | _ => rfl

end Json

/-- The head with the text of a literal stripped, which is printed only if it is a string. -/
def Head.stripped (head : Head) : Head := { head with text := head.text.map Json.stripped }

namespace Node

def stripped (n : Node) : Node := n.fold fun s => .mk { s with text := s.text.map Json.stripped }

end Node

def Shape.stripped (s : Shape Node) : Shape Node :=
  { s.map Node.stripped with toHead := s.toHead.stripped }

theorem Node.stripped_mk (s : Shape Node) : (Node.mk s).stripped = .mk s.stripped := by
  rw [stripped, fold_eq]
  rfl

theorem Kind.ofJson?_of_isContainer {j : Json} (h : j.isContainer = true) : ofJson? j = none := by
  cases j with
  | arr _ | obj _ => rfl
  | _ => cases h

namespace Reading

def stripped (r : Reading) : Reading where
  node := Option.map Node.stripped <$> r.node
  nodes := List.map Node.stripped <$> r.nodes

@[simp] theorem node_stripped (r : Reading) :
    r.stripped.node = Option.map Node.stripped <$> r.node := rfl

@[simp] theorem nodes_stripped (r : Reading) :
    r.stripped.nodes = List.map Node.stripped <$> r.nodes := rfl

end Reading

namespace Node

variable {j : Json} {kind : Kind}

theorem readHead_stripped (hraw : j.rawKind.isContainer = false) :
    readHead j.stripped kind = Head.stripped <$> readHead j kind := by
  simp only [readHead, Json.ownName_stripped, Json.modifiers_stripped, Json.rawKind_stripped,
    Json.stripped_of_not_isContainer hraw, map_bind, map_pure]
  rfl

theorem readBare_stripped (rawKind : Json) :
    readBare j.stripped kind rawKind = Shape.stripped <$> readBare j kind rawKind := by
  simp only [readBare, Json.ownName_stripped, map_bind, map_pure]
  rfl

theorem readText_stripped :
    readText j.stripped kind = Shape.stripped <$> readText j kind := by
  simp only [readText, Json.nameText_stripped, map_bind, map_pure]
  congr 1
  funext name
  cases name <;> rfl

theorem readLiteral_stripped (hraw : j.rawKind.isContainer = false) :
    readLiteral j.stripped = Shape.stripped <$> readLiteral j := by
  have hkind : ((j.get "literal").stripped.field? "kind").getD (.str "StringLiteral") =
      (((j.get "literal").field? "kind").getD (.str "StringLiteral")).stripped := by
    rw [Json.field?_stripped _ "kind" (by decide)]
    cases (j.get "literal").field? "kind" <;> rfl
  simp (disch := decide) only [readLiteral, Json.get_stripped, Json.isObj_stripped, hkind,
    Json.literalText_stripped, Json.isNull_stripped, Json.str?_stripped, Json.rawKind_stripped,
    Json.stripped_of_not_isContainer hraw, readBare_stripped, readHead_stripped hraw]
  split
  · generalize ((j.get "literal").field? "kind").getD (.str "StringLiteral") = kind
    cases htext : (j.get "literal").literalText kind with
    | error e => rfl
    | ok text =>
      cases text with
      | none =>
        have hplain : kind.isContainer = false := by
          cases kind with
          | arr _ | obj _ => cases htext
          | _ => rfl
        rw [Json.stripped_of_not_isContainer hplain]
        rfl
      | some text =>
        have hok (f : Option Text → Except Fault (Shape Node)) :
            (.ok (some text) >>= f : Except Fault (Shape Node)) = f (some text) := rfl
        simp only [hok, map_bind, map_pure, bind_map_left]
        rfl
  · split
    · rfl
    · simp only [map_bind, map_pure, bind_map_left]
      rfl

section

variable {part part' : Text → Reading}
  (hpart : ∀ key, key ∉ Json.bookkeepingKeys → part' key = (part key).stripped)

include hpart

theorem readSignature_stripped (hraw : j.rawKind.isContainer = false) :
    readSignature j.stripped part' kind =
      Shape.stripped <$> readSignature j part kind := by
  simp (disch := decide) only [readSignature, readHead_stripped hraw, hpart, Reading.node_stripped,
    Reading.nodes_stripped,
    Json.get_stripped, Json.truthy_stripped, map_bind, map_pure, bind_map_left]
  rfl

theorem readContainer_stripped (hraw : j.rawKind.isContainer = false) :
    readContainer j.stripped part' kind =
      Shape.stripped <$> readContainer j part kind := by
  simp (disch := decide) only [readContainer, readHead_stripped hraw, hpart,
    Reading.nodes_stripped, map_bind, map_pure, bind_map_left]
  rfl

theorem readProperty_stripped (hraw : j.rawKind.isContainer = false) :
    readProperty j.stripped part' kind =
      Shape.stripped <$> readProperty j part kind := by
  simp (disch := decide) only [readProperty, readHead_stripped hraw, hpart, Reading.node_stripped,
    Json.get_stripped, Json.truthy_stripped, map_bind, map_pure, bind_map_left]
  rfl

theorem visitor_stripped (hraw : j.rawKind.isContainer = false) (v : Visitor) :
    v.read j.stripped part' = Shape.stripped <$> v.read j part := by
  cases v with
  | signature kind => exact readSignature_stripped hpart hraw
  | container kind => exact readContainer_stripped hpart hraw
  | property kind => exact readProperty_stripped hpart hraw
  | literal => exact readLiteral_stripped hraw
  | word kind => exact readText_stripped
  | parameter =>
    simp (disch := decide) only [Visitor.read, readProperty_stripped hpart hraw, hpart,
      Reading.node_stripped, Json.get_stripped, Json.isStr_stripped, Json.truthy_stripped, map_bind,
      bind_map_left]
    split
    · simp only [map_bind, map_pure]
      rfl
    · rfl
  | tuple =>
    simp (disch := decide) only [Visitor.read, readHead_stripped hraw, Json.get_stripped,
      Json.truthy_stripped, map_bind, map_pure, bind_map_left]
    split
    · simp (disch := decide) only [hpart, Reading.nodes_stripped, bind_map_left]
      rfl
    · simp (disch := decide) only [hpart, Reading.nodes_stripped, bind_map_left]
      rfl
  | _ =>
    simp (disch := decide) only [Visitor.read, readHead_stripped hraw, hpart, Reading.node_stripped,
      Reading.nodes_stripped, Json.get_stripped, Json.isStr_stripped, Json.nameText_stripped,
      map_bind, map_pure, bind_map_left]
    rfl

omit hpart in
theorem readGeneric_stripped (hraw : j.rawKind.isContainer = false) :
    readGeneric j.stripped = Shape.stripped <$> readGeneric j := by
  simp only [readGeneric, Json.rawKind_stripped, Json.stripped_of_not_isContainer hraw]
  cases Kind.ofJson? j.rawKind with
  | none => rfl
  | some kind => exact readBare_stripped _

theorem readShape_stripped : readShape j.stripped part' = Shape.stripped <$> readShape j part := by
  cases hraw : j.rawKind.isContainer with
  | true =>
    have hfails {i : Json} {part : Text → Reading} (hi : i.rawKind.isContainer = true) :
        readShape i part = .error .notLookedUp := by
      rw [readShape, readGeneric, Kind.ofJson?_of_isContainer hi]
      cases hk : i.rawKind with
      | str s => simp [hk, Json.isContainer] at hi
      | _ => rfl
    rw [hfails hraw, hfails (by simpa [Json.rawKind_stripped] using hraw)]
    rfl
  | false =>
    simp only [readShape, Json.rawKind_stripped, Json.stripped_of_not_isContainer hraw]
    cases Visitor.ofJson? j.rawKind with
    | none => exact readGeneric_stripped hraw
    | some v => exact visitor_stripped hpart hraw v

theorem readObject_stripped :
    readObject j.stripped part' = Node.stripped <$> readObject j part := by
  rw [readObject, readShape_stripped hpart, readObject]
  cases readShape j part with
  | error e => rfl
  | ok s => exact congrArg Except.ok (stripped_mk s).symm

end

end Node

namespace Reading

theorem nodeOf_stripped (j : Json) {part part' : Text → Reading}
    (hpart : ∀ key, key ∉ Json.bookkeepingKeys → part' key = (part key).stripped) :
    nodeOf j.stripped part' = Option.map Node.stripped <$> nodeOf j part := by
  cases j with
  | obj fields =>
    show (Node.readObject (Json.stripped (.obj fields)) part').map some = _
    rw [Node.readObject_stripped hpart, nodeOf]
    cases Node.readObject (.obj fields) part <;> rfl
  | _ => rfl

theorem nodesOf_stripped (j : Json) (items : List Reading) :
    nodesOf j.stripped (items.map stripped) = List.map Node.stripped <$> nodesOf j items := by
  cases j with
  | arr _ =>
    show Except.map _ _ = _
    simp only [List.mapM_map, Function.comp_def, node_stripped, mapM_map_eq, nodesOf]
    cases items.mapM node with
    | error e => rfl
    | ok found =>
      have hfound : (found.map (Option.map Node.stripped)).filterMap id =
          (found.filterMap id).map Node.stripped := by
        rw [List.filterMap_map, List.map_filterMap]
        rfl
      exact congrArg Except.ok hfound
  | obj fields =>
    simp only [Json.stripped, nodesOf, Json.isEmpty_strippedFields]
    split <;> rfl
  | null => rfl
  | _ =>
    simp only [Json.stripped, nodesOf]
    split <;> rfl

end Reading

namespace Json

theorem reading_stripped (j : Json) : j.stripped.reading = j.reading.stripped := by
  induction j using Json.induct with
  | h j ih =>
    have hitems : j.stripped.items.map reading = (j.items.map reading).map Reading.stripped := by
      rw [items_stripped, List.map_map, List.map_map]
      exact List.map_congr_left fun i hi => ih i (mem_children_of_mem_items hi)
    have hpart (key : Text) (hkey : key ∉ bookkeepingKeys) :
        ((j.stripped.field? key).map reading).getD .absent =
          (((j.field? key).map reading).getD .absent).stripped := by
      rw [field?_stripped j key hkey]
      cases hi : j.field? key with
      | none => rfl
      | some i => exact ih i (mem_children_of_field? hi)
    rw [reading_eq, reading_eq j, hitems]
    simp only [Reading.step, Reading.stripped, Reading.nodeOf_stripped j hpart,
      Reading.nodesOf_stripped]

end Json

namespace Node

theorem name_stripped (n : Node) : n.stripped.name = n.name := by
  cases n
  rw [stripped_mk]
  rfl

theorem ofJson_stripped (j : Json) : ofJson j.stripped = Option.map stripped <$> ofJson j := by
  rw [ofJson, Json.reading_stripped]
  rfl

end Node

namespace Sheet

variable (s : Shape Printed)

theorem ownText_stripped :
    ownText { s with text := s.text.map Json.stripped } = ownText s := by
  cases htext : s.text with
  | none => simp only [ownText, htext, Option.map_none]
  | some j =>
    have htruthy := j.truthy_stripped
    cases j with
    | arr _ | obj _ =>
      simp only [Json.stripped] at htruthy
      simp only [ownText, htext, Option.map_some, Json.stripped, htruthy]
    | _ => simp only [ownText, htext, Option.map_some, Json.stripped]

theorem literal_stripped :
    literal { s with text := s.text.map Json.stripped } = literal s := by
  cases htext : s.text with
  | none =>
    simp only [literal, htext, Option.map_none]
    rfl
  | some j => cases j <;> simp only [literal, htext, Option.map_some, Json.stripped]

/-- Only names and literals are printed by their texts. -/
theorem print_stripped (vocabulary : Vocabulary) :
    print vocabulary { s with text := s.text.map Json.stripped } = print vocabulary s := by
  have hsheet : ofShape vocabulary { s with text := s.text.map Json.stripped } =
      ofShape vocabulary s := by
    obtain ⟨⟨kind⟩⟩ := s
    cases kind with
    | identifier | stringLiteral => exact ownText_stripped _
    | literalType => exact literal_stripped _
    | _ => rfl
  simp only [print, hsheet]
  rfl

end Sheet

namespace Node

variable (vocabulary : Vocabulary)

theorem parts_stripped_of {n : Node}
    (h : ∀ m ∈ n.shape.parts, m.stripped.printed vocabulary = m.printed vocabulary) :
    n.stripped.parts vocabulary =
      { n.parts vocabulary with text := n.shape.text.map Json.stripped } := by
  obtain ⟨s⟩ := n
  have hmap : (s.map stripped).map (printed vocabulary) = s.map (printed vocabulary) := by
    have hcomp : (s.map stripped).map (printed vocabulary) =
        s.map fun m => m.stripped.printed vocabulary := by
      simp [Shape.map, Function.comp_def]
    exact hcomp.trans (Shape.map_congr h)
  rw [stripped_mk]
  show ({ (s.map stripped).map (printed vocabulary) with toHead := s.toHead.stripped }) = _
  rw [hmap]
  rfl

theorem printed_stripped (n : Node) : n.stripped.printed vocabulary = n.printed vocabulary := by
  induction n using Node.induct with
  | h n ih =>
    rw [printed_eq, printed_eq, parts_stripped_of vocabulary ih]
    exact Sheet.print_stripped _ vocabulary

theorem parts_stripped (n : Node) : n.stripped.parts vocabulary =
    { n.parts vocabulary with text := n.shape.text.map Json.stripped } :=
  parts_stripped_of vocabulary fun m _ => printed_stripped vocabulary m

end Node
end Libdef
