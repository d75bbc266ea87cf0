import Libdef.Node.Reading
import Libdef.Proofs.Outcome
import Libdef.Proofs.WellTyped

set_option autoImplicit false

namespace Libdef

variable {Q : Fault → Prop}

structure FitFields (Q : Fault → Prop) (j : Json) : Prop where
  attributes : Allows Q (Form.attributes j)
  name : Allows Q (j.get "name").fitsName
  part : ∀ key ∈ Form.partKeys, Allows Q (j.get key).form.part
  nodes : ∀ key ∈ Form.listKeys, Allows Q (j.get key).form.nodes
  statements : ∀ key ∈ Form.statementKeys, Allows Q (j.get key).form.statements

theorem Allows.fields {j : Json} (h : Allows Q j.wellTyped) : FitFields Q j := by
  rw [Json.wellTyped_eq] at h
  simp only [Allows.and_iff, Allows.all_iff] at h
  obtain ⟨-, ⟨⟨⟨hattributes, hname⟩, hpart⟩, hnodes⟩, hstatements⟩ := h
  exact ⟨hattributes, hname, hpart, hnodes, hstatements⟩

namespace Json

theorem fitsName_of_part {j : Json} (h : Allows Q j.form.part) : Allows Q j.fitsName :=
  h.imp fun hp => by simp [fitsName, hp]

theorem fitsName_obj (fields : List (Text × Json)) :
    (Json.obj fields).fitsName = (Json.obj fields).wellTyped := by
  simp [fitsName, form_part, str?, isNull]

theorem get_of_field? {j i : Json} {key : Text} (h : j.field? key = some i) : j.get key = i := by
  simp [get, h]

/-- Kind, text and the like are absent or texts, so that a lookup finds null or a text. -/
theorem get_of_absentOrText {j : Json} {key : Text}
    (h : Form.absentOrText (j.field? key) = true) :
    j.get key = .null ∨ ∃ s, j.get key = .str s := by
  cases hf : j.field? key with
  | none => exact .inl (by simp [get, hf])
  | some i =>
    rw [hf] at h
    cases i with
    | str s => exact .inr ⟨s, get_of_field? hf⟩
    | _ => cases h

end Json

namespace FitFields

variable {j : Json}

theorem kind (h : FitFields Q j) : Allows Q (Form.absentOrText (j.field? "kind")) := by
  have ha := h.attributes
  simp only [Form.attributes, Allows.and_iff] at ha
  exact ha.1.1.1.1

theorem text (h : FitFields Q j) : Allows Q (Form.absentOrText (j.field? "text")) := by
  have ha := h.attributes
  simp only [Form.attributes, Allows.and_iff] at ha
  exact ha.1.1.1.2

theorem flags (h : FitFields Q j) : Allows Q (Form.absentOrInteger (j.field? "flags")) := by
  have ha := h.attributes
  simp only [Form.attributes, Allows.and_iff] at ha
  exact ha.1.2

theorem modifiers (h : FitFields Q j) : Allows Q (Form.modifiers (j.get "modifiers")) := by
  have ha := h.attributes
  simp only [Form.attributes, Allows.and_iff] at ha
  exact ha.2

theorem fitsName (h : FitFields Q j) {key : Text} (hk : key ∈ .ofString "name" :: Form.partKeys) :
    Allows Q (j.get key).fitsName := by
  rcases List.mem_cons.mp hk with rfl | hk
  · exact h.name
  · exact Json.fitsName_of_part (h.part key hk)

end FitFields

namespace Json

theorem dotted_ends {l r : Except Fault (Option Text)} (hl : Ends (fun _ => True) Q l)
    (hr : Ends (fun _ => True) Q r) : Ends (fun _ => True) Q (dotted l r) := by
  refine hl.bind fun a _ => hr.bind fun b _ => ?_
  cases a <;> cases b <;> trivial

theorem nameText_ends (j : Json) : Allows Q j.fitsName → Ends (fun _ => True) Q j.nameText := by
  induction j using Json.induct with
  | h j ih =>
    intro h
    rw [nameText_eq]
    cases j with
    | null => trivial
    | str s => trivial
    | obj fields =>
      rw [fitsName_obj] at h
      have side (key : Text) (hk : key ∈ .ofString "name" :: Form.partKeys) :
          Ends (fun _ => True) Q
            ((((Json.obj fields).field? key).map nameText).getD (.ok none)) := by
        cases hf : (Json.obj fields).field? key with
        | none => trivial
        | some i =>
          have hfit := h.fields.fitsName hk
          rw [get_of_field? hf] at hfit
          exact ih i (mem_children_of_field? hf) hfit
      simp only [nameStep]
      split
      · exact dotted_ends (side _ (by decide)) (side _ (by decide))
      split
      · exact dotted_ends (side _ (by decide)) (side _ (by decide))
      split
      · exact (side _ (by decide)).map fun _ _ => trivial
      · trivial
    | bool b => exact h.fault rfl
    | int n => exact h.fault rfl
    | real x => exact h.fault rfl
    | arr items => exact h.fault rfl

theorem ownName_ends {j : Json} (h : FitFields Q j) : Ends (fun _ => True) Q j.ownName := by
  simp only [ownName]
  split
  · exact nameText_ends _ (h.fitsName (by decide))
  · exact nameText_ends _ (h.fitsName (by decide))

theorem not_container_of_absentOrText {j : Json} {key : Text}
    (h : Form.absentOrText (j.field? key) = true) : (j.get key).isContainer = false := by
  rcases get_of_absentOrText h with hn | ⟨s, hs⟩
  · rw [hn]
    rfl
  · rw [hs]
    rfl

theorem modifier_ends {j : Json} (h : Allows Q (Form.modifier j)) :
    Ends (fun _ => True) Q j.modifier := by
  cases j with
  | obj fields =>
    simp only [modifier, isObj, if_true]
    cases hk : (Json.obj fields).get "kind" with
    | arr items =>
      refine h.fault_of_ne (fun hm => ?_) rfl
      have := not_container_of_absentOrText hm
      simp [hk, isContainer] at this
    | obj inner =>
      refine h.fault_of_ne (fun hm => ?_) rfl
      have := not_container_of_absentOrText hm
      simp [hk, isContainer] at this
    | _ => trivial
  | arr items => exact h.fault rfl
  | _ => trivial

theorem modifiers_ends {j : Json} (h : FitFields Q j) : Ends (fun _ => True) Q j.modifiers := by
  have hm := h.modifiers
  simp only [modifiers]
  split
  · rename_i items hitems
    rw [hitems] at hm
    refine (Ends.mapM (P := fun _ => True) fun i hi => ?_).bind fun _ _ => trivial
    exact modifier_ends (Allows.all_iff.mp hm i hi)
  · trivial
  · trivial
  · split
    · rename_i ht
      refine hm.fault_of_ne (fun hf => ?_) rfl
      cases hv : j.get "modifiers" <;> simp_all [Form.modifiers, truthy]
    · trivial

theorem isObj_of_part {j : Json} (h : j.form.part = true) (ht : j.truthy = true) :
    j.isObj = true := by
  rw [form_part] at h
  cases j <;> simp_all [truthy, isNull, isObj, wellTyped_eq]

theorem signedText_ends {literal : Json} (h : Allows Q literal.wellTyped) :
    Ends (fun _ => True) Q literal.signedText := by
  have hoperand := h.fields.part "operand" (by decide)
  simp only [signedText]
  split
  · rename_i ht
    split
    · split
      · exact (nameText_ends _ (fitsName_of_part hoperand)).map fun _ _ => trivial
      · trivial
    · rename_i ho
      exact hoperand.fault_of_ne (fun hp => ho (isObj_of_part hp ht)) rfl
  · trivial

theorem literalText_ends {literal : Json} (h : Allows Q literal.wellTyped) :
    Ends (fun _ => True) Q
      (literal.literalText ((literal.field? "kind").getD (.str "StringLiteral"))) := by
  simp only [literalText]
  split
  · split
    · trivial
    split
    · exact signedText_ends h
    split
    · refine nameText_ends literal (h.imp fun hw => ?_)
      simp [fitsName, form_part, hw]
    · trivial
  · split
    · rename_i hk
      refine h.fields.kind.fault_of_ne (fun hf => ?_) rfl
      cases hf' : literal.field? "kind" with
      | none => simp [hf', isContainer] at hk
      | some kind => cases kind <;> simp_all [isContainer, Form.absentOrText]
    · trivial

end Json

def Shape.Fit (Q : Fault → Prop) (s : Shape Node) : Prop :=
  Allows Q (Form.absentOrText s.text) ∧ ∀ m ∈ s.parts, Allows Q m.printable

theorem Shape.Fit.of_text_eq_none {s : Shape Node} (ht : s.text = none)
    (hs : ∀ m ∈ s.parts, Allows Q m.printable) : s.Fit Q :=
  ⟨.of_eq_true (by simp [ht, Form.absentOrText]), hs⟩

theorem Shape.Fit.withBinding {s : Shape Node} {binding : Option Node} (h : s.Fit Q)
    (hb : ∀ n ∈ binding, Allows Q n.printable) (rest : Bool) :
    Shape.Fit Q { s with binding := binding, rest := rest } := by
  refine ⟨h.1, ?_⟩
  have hparts := h.2
  simp only [Shape.parts, List.mem_append, Option.mem_toList] at hparts ⊢
  grind

theorem Shape.Fit.printable {s : Shape Node} (h : s.Fit Q) : Allows Q (Node.mk s).printable := by
  rw [Node.printable_eq, Allows.and_iff, Allows.all_iff]
  exact h

/-- Readings of the fields of an object, as far as they are of the right sort. -/
structure FitParts (Q : Fault → Prop) (j : Json) (part : Text → Reading) : Prop where
  node : ∀ key ∈ Form.partKeys,
    Ends (fun o => ∀ n ∈ o, Allows Q n.printable) Q (part key).node
  pattern : (j.get "name").isObj = true →
    Ends (fun o => ∀ n ∈ o, Allows Q n.printable) Q (part "name").node
  nodes : ∀ key ∈ Form.listKeys,
    Ends (fun l => ∀ n ∈ l, Allows Q n.printable) Q (part key).nodes

namespace Node

variable {j : Json} {part : Text → Reading}

theorem readHead_ends (h : FitFields Q j) (kind : Kind) :
    Ends (fun head => head.text = none) Q (readHead j kind) := by
  refine (Json.ownName_ends h).bind fun name _ => ?_
  refine (Json.modifiers_ends h).bind fun modifiers _ => ?_
  exact rfl

theorem readBare_ends (h : FitFields Q j) (kind : Kind) (rawKind : Json) :
    Ends (Shape.Fit Q) Q (readBare j kind rawKind) := by
  refine (Json.ownName_ends h).bind fun name _ => ?_
  exact ⟨.of_eq_true rfl, by simp [Shape.parts]⟩

theorem readText_ends (h : Allows Q j.wellTyped) (kind : Kind) :
    Ends (Shape.Fit Q) Q (readText j kind) := by
  have hn : Allows Q j.fitsName := h.imp fun hw => by simp [Json.fitsName, Json.form_part, hw]
  refine (Json.nameText_ends j hn).bind fun name _ => ⟨.of_eq_true ?_, by simp [Shape.parts]⟩
  cases name <;> rfl

theorem readLiteral_ends (h : FitFields Q j) : Ends (Shape.Fit Q) Q (readLiteral j) := by
  simp only [readLiteral]
  split
  · rename_i ho
    have hl : Allows Q (j.get "literal").wellTyped := by
      refine (h.part "literal" (by decide)).imp fun hp => ?_
      rw [Json.form_part] at hp
      cases hj : j.get "literal" <;> simp_all [Json.isObj, Json.isNull]
    refine (Json.literalText_ends hl).bind fun text _ => ?_
    cases text with
    | none => exact readBare_ends h _ _
    | some text =>
      refine (readHead_ends h _).bind fun head _ => ?_
      exact ⟨.of_eq_true rfl, by simp [Shape.parts]⟩
  · split
    · exact readBare_ends h _ _
    · rename_i hn
      refine (readHead_ends h _).bind fun head _ => ⟨?_, by simp [Shape.parts]⟩
      refine h.text.imp fun ht => ?_
      rcases Json.get_of_absentOrText ht with he | ⟨s, he⟩
      · simp [he, Json.isNull] at hn
      · simp [he, Form.absentOrText]

theorem readSignature_ends (h : FitFields Q j) (hp : FitParts Q j part) (kind : Kind) :
    Ends (Shape.Fit Q) Q (readSignature j part kind) := by
  refine (readHead_ends h kind).bind fun head hh => ?_
  refine (hp.nodes "parameters" (by decide)).bind fun parameters hps => ?_
  refine (hp.nodes "typeParameters" (by decide)).bind fun typeParameters hts => ?_
  refine (hp.node "type" (by decide)).bind fun type ht => ?_
  refine .of_text_eq_none hh ?_
  simp [Shape.parts]
  grind

theorem readContainer_ends (h : FitFields Q j) (hp : FitParts Q j part) (kind : Kind) :
    Ends (Shape.Fit Q) Q (readContainer j part kind) := by
  refine (readHead_ends h kind).bind fun head hh => ?_
  refine (hp.nodes "typeParameters" (by decide)).bind fun typeParameters hts => ?_
  refine (hp.nodes "heritageClauses" (by decide)).bind fun heritageClauses hcs => ?_
  refine (hp.nodes "members" (by decide)).bind fun members hms => ?_
  refine .of_text_eq_none hh ?_
  simp [Shape.parts]
  grind

theorem readProperty_ends (h : FitFields Q j) (hp : FitParts Q j part) (kind : Kind) :
    Ends (Shape.Fit Q) Q (readProperty j part kind) := by
  refine (readHead_ends h kind).bind fun head hh => ?_
  refine (hp.node "type" (by decide)).bind fun type ht => ?_
  exact .of_text_eq_none hh (by simpa [Shape.parts] using ht)

theorem visitor_ends (hj : Allows Q j.wellTyped) (hp : FitParts Q j part) (v : Visitor) :
    Ends (Shape.Fit Q) Q (v.read j part) := by
  have h := hj.fields
  cases v with
  | signature kind => exact readSignature_ends h hp kind
  | container kind => exact readContainer_ends h hp kind
  | property kind => exact readProperty_ends h hp kind
  | typeAlias =>
    refine (readHead_ends h _).bind fun head hh => ?_
    refine (hp.nodes "typeParameters" (by decide)).bind fun typeParameters hts => ?_
    refine (hp.node "type" (by decide)).bind fun type ht => ?_
    refine .of_text_eq_none hh ?_
    simp [Shape.parts]
    grind
  | heritageClause | typeLiteral | typeList =>
    refine (readHead_ends h _).bind fun head hh => ?_
    refine (hp.nodes _ (by decide)).bind fun list hl => ?_
    exact .of_text_eq_none hh (by simpa [Shape.parts] using hl)
  | parameter =>
    refine (readProperty_ends h hp _).bind fun shape hs => ?_
    dsimp only
    split
    · rename_i hpattern
      refine (hp.pattern ?_).bind fun binding hb => hs.withBinding hb _
      cases hn : j.get "name" <;> simp_all [Json.get, Json.field?, Json.isStr, Json.isObj]
    · exact hs.withBinding (by simp) _
  | typeParameter =>
    refine (readHead_ends h _).bind fun head hh => ?_
    refine (hp.node "constraint" (by decide)).bind fun constraint hc => ?_
    refine (hp.node "default" (by decide)).bind fun fallback hf => ?_
    refine .of_text_eq_none hh ?_
    simp [Shape.parts]
    grind
  | typeReference =>
    refine (readHead_ends h _).bind fun head hh => ?_
    refine (hp.node "typeName" (by decide)).bind fun typeName hn => ?_
    refine (hp.nodes "typeArguments" (by decide)).bind fun typeArguments ha => ?_
    refine .of_text_eq_none hh ?_
    simp [Shape.parts]
    grind
  | literal => exact readLiteral_ends h
  | tuple =>
    refine (readHead_ends h _).bind fun head hh => ?_
    refine (hp.nodes _ ?_).bind fun elementTypes he => ?_
    · split <;> decide
    · exact .of_text_eq_none hh (by simpa [Shape.parts] using he)
  | array | parenthesized =>
    refine (readHead_ends h _).bind fun head hh => ?_
    refine (hp.node _ (by decide)).bind fun type ht => ?_
    exact .of_text_eq_none hh (by simpa [Shape.parts] using ht)
  | typeQuery =>
    refine (readHead_ends h _).bind fun head hh => ?_
    refine (hp.node "exprName" (by decide)).bind fun typeName hn => ?_
    refine (Json.nameText_ends _ (h.fitsName (by decide))).bind fun name _ => ?_
    exact .of_text_eq_none hh (by simpa [Shape.parts] using hn)
  | typePredicate =>
    refine (readHead_ends h _).bind fun head hh => ?_
    refine (Json.nameText_ends _ (h.fitsName (by decide))).bind fun subject _ => ?_
    refine (hp.node "type" (by decide)).bind fun type ht => ?_
    exact .of_text_eq_none hh (by simpa [Shape.parts] using ht)
  | word kind => exact readText_ends hj kind
  | qualifiedName =>
    have hn : Allows Q j.fitsName := hj.imp fun hw => by simp [Json.fitsName, Json.form_part, hw]
    refine (Json.nameText_ends _ hn).bind fun name _ => ?_
    refine (hp.node "left" (by decide)).bind fun left hl => ?_
    refine (hp.node "right" (by decide)).bind fun right hr => ?_
    refine (hp.nodes "typeArguments" (by decide)).bind fun typeArguments ha => ?_
    refine .of_text_eq_none rfl ?_
    simp [Shape.parts]
    grind
  | expression =>
    refine (readHead_ends h _).bind fun head hh => ?_
    refine (hp.node "expression" (by decide)).bind fun expression he => ?_
    refine (Json.nameText_ends _ (h.fitsName (by decide))).bind fun name _ => ?_
    refine (hp.nodes "typeArguments" (by decide)).bind fun typeArguments ha => ?_
    refine .of_text_eq_none hh ?_
    simp [Shape.parts]
    grind
  | propertyAccess =>
    refine (readHead_ends h _).bind fun head hh => ?_
    refine (hp.node "expression" (by decide)).bind fun expression he => ?_
    refine (Json.nameText_ends _ (h.fitsName (by decide))).bind fun name _ => ?_
    exact .of_text_eq_none hh (by simpa [Shape.parts] using he)
  | bindingPattern =>
    refine (hp.nodes "elements" (by decide)).bind fun elements he => ?_
    exact .of_text_eq_none rfl (by simpa [Shape.parts] using he)
  | bindingElement =>
    refine (readHead_ends h _).bind fun head hh => ?_
    exact .of_text_eq_none hh (by simp [Shape.parts])

theorem readGeneric_ends (hj : Allows Q j.wellTyped) : Ends (Shape.Fit Q) Q (readGeneric j) := by
  simp only [readGeneric]
  cases hk : Kind.ofJson? j.rawKind with
  | none =>
    refine hj.fields.kind.fault_of_ne (fun ht => ?_) rfl
    cases hf : j.field? "kind" with
    | none => simp [Json.rawKind, hf, Kind.ofJson?] at hk
    | some kind => cases kind <;> simp_all [Form.absentOrText, Json.rawKind, Kind.ofJson?]
  | some kind => exact readBare_ends hj.fields _ _

theorem readObject_ends (hj : Allows Q j.wellTyped) (hp : FitParts Q j part) :
    Ends (fun n => Allows Q n.printable) Q (readObject j part) := by
  refine Ends.map (P := Shape.Fit Q) ?_ fun s hs => hs.printable
  rw [readShape]
  split
  · exact visitor_ends hj hp _
  · exact readGeneric_ends hj

end Node

theorem Reading.part_eq (j : Json) (key : Text) :
    ((j.field? key).map Json.reading).getD Reading.absent = (j.get key).reading := by
  cases h : j.field? key with
  | none => simp only [Json.get, h]; rfl
  | some i => simp [Json.get, h]

namespace Json

theorem reading_ends (j : Json) :
    (Allows Q j.form.part → Ends (fun o => ∀ n ∈ o, Allows Q n.printable) Q j.reading.node) ∧
      (Allows Q j.form.nodes →
        Ends (fun l => ∀ n ∈ l, Allows Q n.printable) Q j.reading.nodes) := by
  induction j using Json.induct with
  | h j ih =>
    -- A field that is absent reads as null does, which the induction hypothesis does not cover.
    have hfield (key : Text) :
        (Allows Q (j.get key).form.part →
          Ends (fun o => ∀ n ∈ o, Allows Q n.printable) Q (j.get key).reading.node) ∧
        (Allows Q (j.get key).form.nodes →
          Ends (fun l => ∀ n ∈ l, Allows Q n.printable) Q (j.get key).reading.nodes) := by
      cases hf : j.field? key with
      | none => simp [get, hf, reading, visit, Reading.step, Reading.nodeOf, Reading.nodesOf, Ends]
      | some i =>
        rw [get_of_field? hf]
        exact ih i (mem_children_of_field? hf)
    rw [reading_eq]
    simp only [Reading.step, Reading.part_eq]
    refine ⟨fun h => ?_, fun h => ?_⟩
    · cases j with
      | null => simp [Reading.nodeOf, Ends]
      | obj fields =>
        have hj : Allows Q (Json.obj fields).wellTyped := by simpa [form_part, isNull] using h
        refine (Node.readObject_ends hj ⟨?_, ?_, ?_⟩).map fun n hn => by simpa using hn
        · exact fun key hk => (hfield key).1 (hj.fields.part key hk)
        · intro ho
          refine (hfield "name").1 (hj.fields.name.imp fun hn => ?_)
          cases hv : (Json.obj fields).get "name" <;> simp_all [fitsName, isObj, str?]
        · exact fun key hk => (hfield key).2 (hj.fields.nodes key hk)
      | _ => exact h.fault rfl
    · rw [form_nodes] at h
      cases j with
      | null => simp [Reading.nodesOf, Ends]
      | arr items =>
        refine Ends.map (P := fun found : List (Option Node) =>
          ∀ o ∈ found, ∀ n ∈ o, Allows Q n.printable) (Ends.mapM fun r hr => ?_) fun found hf => ?_
        · obtain ⟨i, hi, rfl⟩ := List.mem_map.mp hr
          exact (ih i hi).1 (Allows.all_iff.mp h i hi)
        · intro n hn
          obtain ⟨o, ho, hon⟩ := List.mem_filterMap.mp hn
          exact hf o ho n hon
      | str _ | obj _ =>
        simp only [Reading.nodesOf]
        split
        · simp [Ends]
        · exact h.fault rfl
      | bool _ | int _ | real _ =>
        simp only [Reading.nodesOf]
        split
        · exact h.fault rfl
        · simp [Ends]

end Json

theorem Node.ofJson_ends {j : Json} (h : Allows Q j.form.part) :
    Ends (fun o => ∀ n ∈ o, Allows Q n.printable) Q (Node.ofJson j) :=
  (Json.reading_ends j).1 h

end Libdef
