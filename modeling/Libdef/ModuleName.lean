import Libdef.Text.Basic

set_option autoImplicit false

namespace Libdef.ModuleName

/-- The context of declarations outside every module, which always exists. -/
def root : Text := "root"

/-- A context that is never printed. -/
def scratch : Text := "__scratch__"

def contextMark : Text := "namespace-module:"

def moduleMark : Text := "npm$namespace$"

def ofNamespace (ns : Text) : Text := moduleMark ++ ns

def contextOf (ns : Text) : Text := contextMark ++ ns

def after? : List CodePoint → List CodePoint → Option (List CodePoint)
  | [], cs => some cs
  | m :: mark, c :: cs => if m = c then after? mark cs else none
  | _ :: _, [] => none

theorem after?_append (mark cs : List CodePoint) : after? mark (mark ++ cs) = some cs := by
  induction mark with
  | nil => rfl
  | cons m mark ih => simp [after?, ih]

theorem eq_append_of_after? {mark cs rest : List CodePoint} (h : after? mark cs = some rest) :
    cs = mark ++ rest := by
  induction mark generalizing cs with
  | nil => simpa [after?] using h
  | cons m mark ih =>
    cases cs with
    | nil => simp [after?] at h
    | cons c cs =>
      by_cases hm : m = c
      · simp only [after?, hm, if_true] at h
        simp [hm, ih h]
      · simp [after?, hm] at h

def namespaceOf? (context : Text) : Option Text :=
  (after? contextMark.toList context.toList).map Text.ofList

def isNamespace (context : Text) : Bool := (namespaceOf? context).isSome

/-- The name under which a context is printed, where `rootName` is that of the root. -/
def printed (rootName context : Text) : Text :=
  if context = root then rootName
  else
    match namespaceOf? context with
    | some ns => ofNamespace ns
    | none => context

def qualified (qualifier : Option Text) (name : Text) : Text :=
  match qualifier with
  | none => name
  | some q => if q = "" then name else q ++ "." ++ name

def accessMark : Text := "$"

def access (left right : Text) : Text := left ++ accessMark ++ right

end Libdef.ModuleName
