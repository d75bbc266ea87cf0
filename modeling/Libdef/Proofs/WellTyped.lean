import Libdef.Node.Basic
import Libdef.Fault

/-!
Well-typed trees: objects whose fields, where they are there, hold values of the sort that is
expected of them, at every depth. Fields under other names may hold anything.
-/

set_option autoImplicit false

namespace Libdef

/-- What a value is fit for. -/
structure Form where
  node : Bool
  part : Bool
  /-- Null or a list of nulls and such objects. -/
  nodes : Bool
  /-- Null or a list of such objects. -/
  statements : Bool

namespace Form

/-- The fields that hold a node. A name is one too, or a text. -/
def partKeys : List Text := [
  "type", "typeName", "elementType", "left", "right", "expression", "constraint", "default",
  "literal", "operand", "exprName", "parameterName", "body", "declarationList"]

def listKeys : List Text := [
  "parameters", "typeParameters", "typeArguments", "members", "heritageClauses", "types",
  "elementTypes", "elements"]

def statementKeys : List Text := ["statements", "declarations"]

def absentOrText : Option Json → Bool
  | none | some (.str _) => true
  | _ => false

def absentOrInteger : Option Json → Bool
  | none | some (.int _) => true
  | _ => false

def modifier (j : Json) : Bool :=
  match j with
  | .str _ => true
  | .obj _ => absentOrText (j.field? "kind")
  | _ => false

def modifiers : Json → Bool
  | .null => true
  | .arr items => items.all modifier
  | _ => false

def attributes (j : Json) : Bool :=
  absentOrText (j.field? "kind") && absentOrText (j.field? "text") &&
    absentOrText (j.field? "escapedText") && absentOrInteger (j.field? "flags") &&
    modifiers (j.get "modifiers")

def object (j : Json) (field : Text → Option Form) : Bool :=
  attributes j && ((j.get "name").str?.isSome || (field "name").all part) &&
    (partKeys.all fun key => (field key).all part) &&
    (listKeys.all fun key => (field key).all nodes) &&
    statementKeys.all fun key => (field key).all statements

def step (j : Json) (items : List Form) (field : Text → Option Form) : Form where
  node := j.isObj && object j field
  part := j.isNull || (j.isObj && object j field)
  nodes := match j with
    | .arr _ => items.all part
    | j => j.isNull
  statements := match j with
    | .arr _ => items.all node
    | j => j.isNull

end Form

namespace Json

def form (j : Json) : Form := j.visit Form.step

def wellTyped (j : Json) : Bool := j.form.node

def fitsName (j : Json) : Bool := j.str?.isSome || j.form.part

theorem form_eq (j : Json) :
    j.form = Form.step j (j.items.map form) fun key => (j.field? key).map form :=
  visit_eq Form.step j

theorem all_form {test : Form → Bool} (h : test Json.null.form = true) (j : Json) (key : Text) :
    ((j.field? key).map form).all test = test (j.get key).form := by
  cases hf : j.field? key <;> simp [get, hf, h]

theorem form_part (j : Json) : j.form.part = (j.isNull || j.wellTyped) := by
  rw [wellTyped, form_eq]
  rfl

theorem wellTyped_eq (j : Json) :
    j.wellTyped = (j.isObj && (Form.attributes j && (j.get "name").fitsName &&
      (Form.partKeys.all fun key => (j.get key).form.part) &&
      (Form.listKeys.all fun key => (j.get key).form.nodes) &&
      Form.statementKeys.all fun key => (j.get key).form.statements)) := by
  have hpart : Json.null.form.part = true := rfl
  have hnodes : Json.null.form.nodes = true := rfl
  have hstatements : Json.null.form.statements = true := rfl
  rw [wellTyped, form_eq]
  simp only [Form.step, Form.object, fitsName, all_form hpart, all_form hnodes,
    all_form hstatements]

theorem form_nodes (j : Json) :
    j.form.nodes = match j with
      | .arr items => items.all fun i => i.form.part
      | j => j.isNull := by
  rw [form_eq]
  cases j <;> simp [Form.step, items, Function.comp_def]

theorem form_statements (j : Json) :
    j.form.statements = match j with
      | .arr items => items.all fun i => i.wellTyped
      | j => j.isNull := by
  rw [form_eq]
  cases j <;> simp [Form.step, items, Function.comp_def, wellTyped]

end Json

def Node.printable (n : Node) : Bool :=
  n.fold fun s => Form.absentOrText s.text && s.parts.all id

theorem Node.printable_eq (n : Node) :
    n.printable = (Form.absentOrText n.shape.text && n.shape.parts.all Node.printable) := by
  rw [printable, fold_eq, Shape.parts_map]
  simp only [List.all_map]
  rfl

/-! A fault that is put down to a value of the wrong sort is excluded by the form of the value, or
it is let pass. Both are followed through the same steps. -/

/-- The faults of values of the wrong sort. -/
def Fault.isMalformed : Fault → Bool
  | .noFields | .notSequence | .notLookedUp | .flagsNotInteger | .textNotString => true
  | _ => false

/-- Either malformed values are let pass or `b` holds. -/
def Allows (Q : Fault → Prop) (b : Bool) : Prop := (∀ e, e.isMalformed = true → Q e) ∨ b = true

namespace Allows

variable {Q : Fault → Prop} {a b : Bool}

theorem of_eq_true (h : b = true) : Allows Q b := .inr h

theorem fault_of_ne {e : Fault} (h : Allows Q b) (hb : b ≠ true) (he : e.isMalformed = true) :
    Q e := by
  rcases h with h | h
  · exact h e he
  · exact absurd h hb

theorem fault {e : Fault} (h : Allows Q false) (he : e.isMalformed = true) : Q e :=
  h.fault_of_ne (by decide) he

theorem imp (h : Allows Q a) (hab : a = true → b = true) : Allows Q b := Or.imp_right hab h

@[simp] theorem and_iff : Allows Q (a && b) ↔ Allows Q a ∧ Allows Q b := by
  simp only [Allows, Bool.and_eq_true, or_and_left]

theorem all_iff {α : Type} {f : α → Bool} {l : List α} :
    Allows Q (l.all f) ↔ ∀ x ∈ l, Allows Q (f x) := by
  simp only [Allows, List.all_eq_true]
  by_cases h : ∀ e, e.isMalformed = true → Q e
  · exact ⟨fun _ _ _ => .inl h, fun _ => .inl h⟩
  · simp only [h, false_or]

end Allows
end Libdef
