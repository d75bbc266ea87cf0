import Libdef.Text.Basic

set_option autoImplicit false

namespace Libdef

inductive Json where
  | null
  | bool (value : Bool)
  | int (value : Int)
  | real (value : Float)
  | str (value : Text)
  | arr (items : List Json)
  | obj (fields : List (Text × Json))
  deriving Repr, Inhabited

namespace Json

def field? (key : Text) : Json → Option Json
  | .obj fields => fields.lookup key
  | _ => none

/-- A missing field reads as null. -/
def get (j : Json) (key : Text) : Json :=
  (j.field? key).getD .null

/-- Null, false, zero and the empty text, list and object are the values that count as absent. -/
def truthy : Json → Bool
  | .null => false
  | .bool b => b
  | .int n => n != 0
  | .real x => x != 0
  | .str s => s != ""
  | .arr items => !items.isEmpty
  | .obj fields => !fields.isEmpty

def isNull : Json → Bool
  | .null => true
  | _ => false

def str? : Json → Option Text
  | .str s => some s
  | _ => none

def isStr (j : Json) (s : Text) : Bool :=
  match j with
  | .str t => t == s
  | _ => false

def isObj : Json → Bool
  | .obj _ => true
  | _ => false

/-- Lists and objects are the values that cannot be looked up in a table. -/
def isContainer : Json → Bool
  | .arr _ => true
  | .obj _ => true
  | _ => false

variable {α : Type}

mutual

def visit (step : Json → List α → (Text → Option α) → α) : Json → α
  | .arr items => step (.arr items) (visitItems step items) fun _ => none
  | .obj fields =>
    let results := visitFields step fields
    step (.obj fields) [] fun key => results.lookup key
  | .null => step .null [] fun _ => none
  | .bool b => step (.bool b) [] fun _ => none
  | .int n => step (.int n) [] fun _ => none
  | .real x => step (.real x) [] fun _ => none
  | .str s => step (.str s) [] fun _ => none

def visitItems (step : Json → List α → (Text → Option α) → α) : List Json → List α
  | [] => []
  | j :: rest => visit step j :: visitItems step rest

def visitFields (step : Json → List α → (Text → Option α) → α) :
    List (Text × Json) → List (Text × α)
  | [] => []
  | (key, j) :: rest => (key, visit step j) :: visitFields step rest

end

def items : Json → List Json
  | .arr items => items
  | _ => []

def children : Json → List Json
  | .arr items => items
  | .obj fields => fields.map Prod.snd
  | _ => []

theorem mem_children_of_mem_items {i j : Json} (h : i ∈ j.items) : i ∈ j.children := by
  cases j <;> simp_all [items, children]

theorem mem_of_lookup {key : Text} {i : Json} {fields : List (Text × Json)}
    (h : fields.lookup key = some i) : i ∈ fields.map Prod.snd := by
  induction fields with
  | nil => simp at h
  | cons p rest ih =>
    obtain ⟨k, j⟩ := p
    by_cases hk : key == k
    · simp [List.lookup_cons, hk] at h
      simp [h]
    · simp [List.lookup_cons, hk] at h
      exact List.mem_cons_of_mem _ (ih h)

theorem mem_children_of_field? {key : Text} {i j : Json} (h : j.field? key = some i) :
    i ∈ j.children := by
  cases j with
  | obj fields => exact mem_of_lookup h
  | _ => simp [field?] at h

section Induction

variable {P : Json → Prop}

mutual

theorem induct (h : ∀ j : Json, (∀ i ∈ j.children, P i) → P j) : ∀ j : Json, P j
  | .arr items => h _ (inductItems h items)
  | .obj fields => h _ (inductFields h fields)
  | .null => h _ (by simp [children])
  | .bool _ => h _ (by simp [children])
  | .int _ => h _ (by simp [children])
  | .real _ => h _ (by simp [children])
  | .str _ => h _ (by simp [children])

theorem inductItems (h : ∀ j : Json, (∀ i ∈ j.children, P i) → P j) :
    ∀ l : List Json, ∀ i ∈ l, P i
  | [] => by simp
  | j :: rest => by
    intro i hi
    rcases List.mem_cons.mp hi with he | hr
    · rw [he]
      exact induct h j
    · exact inductItems h rest i hr

theorem inductFields (h : ∀ j : Json, (∀ i ∈ j.children, P i) → P j) :
    ∀ l : List (Text × Json), ∀ i ∈ l.map Prod.snd, P i
  | [] => by simp
  | (_, j) :: rest => by
    intro i hi
    rcases List.mem_cons.mp hi with he | hr
    · rw [he]
      exact induct h j
    · exact inductFields h rest i hr

end

end Induction

theorem visitItems_eq (step : Json → List α → (Text → Option α) → α) (l : List Json) :
    visitItems step l = l.map (visit step) := by
  induction l with
  | nil => rfl
  | cons j rest ih => simp [visitItems, ih]

theorem lookup_visitFields (step : Json → List α → (Text → Option α) → α)
    (l : List (Text × Json)) (key : Text) :
    (visitFields step l).lookup key = (l.lookup key).map (visit step) := by
  induction l with
  | nil => rfl
  | cons p rest ih =>
    obtain ⟨k, j⟩ := p
    by_cases h : key == k <;> simp [visitFields, List.lookup_cons, h, ih]

theorem visit_eq (step : Json → List α → (Text → Option α) → α) (j : Json) :
    j.visit step =
      step j (j.items.map (visit step)) fun key => (j.field? key).map (visit step) := by
  cases j <;> simp [visit, items, field?, visitItems_eq, lookup_visitFields]

end Json
end Libdef
