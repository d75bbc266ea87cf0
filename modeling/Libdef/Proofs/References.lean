import Mathlib.Order.Bounds.Basic
import Libdef.Proofs.ImportTable
import Libdef.Proofs.Linking

set_option autoImplicit false

namespace Libdef

namespace Text

def firstPart (s : Text) : Text := Text.ofList (s.toList.takeWhile (· ≠ '.'))

theorem headD_pieces (sep : CodePoint) (cs : List CodePoint) :
    (pieces sep cs).headD [] = cs.takeWhile (· ≠ sep) := by
  induction cs with
  | nil => rfl
  | cons c cs ih =>
    obtain ⟨piece, more, hp⟩ := List.exists_cons_of_ne_nil (pieces_ne_nil sep cs)
    rw [hp] at ih
    by_cases h : c = sep
    · simp [pieces, h]
    · simpa [pieces, h, hp] using ih

theorem headD_split (s : Text) : (split '.' s).headD "" = firstPart s := by
  have h := headD_pieces '.' s.toList
  obtain ⟨piece, more, hp⟩ := List.exists_cons_of_ne_nil (pieces_ne_nil '.' s.toList)
  rw [hp] at h
  rw [split, hp, firstPart, ← h]
  rfl

end Text

def Request.report? : Request → Option Diagnostic
  | .report d => some d
  | .name .. | .binding .. => none

namespace Linking

variable {isNamespace : Text → Bool}

/-- The variable refers to something inside of a namespace that is no namespace itself. -/
def isDeep (isNamespace : Text → Bool) (v : Variable) : Bool :=
  !isNamespace v.qualifier && !isNamespace v.value && v.qualifier.toList.contains '.' &&
    isNamespace (Text.firstPart v.qualifier)

theorem reports_ofVariable (context : Text) (v : Variable) :
    (ofVariable isNamespace context v).filterMap Request.report? =
      if isDeep isNamespace v then [deepReport context v] else [] := by
  simp only [ofVariable, isDeep, Text.headD_split]
  by_cases hq : isNamespace v.qualifier
  · simp [hq, Request.report?]
  by_cases hv : isNamespace v.value
  · simp [hq, hv, Request.report?]
  by_cases hdot : CodePoint.char '.' ∈ v.qualifier.toList
  · by_cases hfirst : isNamespace (Text.firstPart v.qualifier)
    · simp only [hq, hv, hdot, hfirst, Bool.false_eq_true, if_true, if_false,
        List.contains_iff_mem.mpr, Bool.not_false, Bool.and_self]
      rfl
    · simp [hq, hv, hdot, hfirst]
  · simp [hq, hv, hdot]

end Linking

namespace Conversion

variable {c : Conversion} {held : Text → List Variable}

theorem grants_eq (requests : List Request) (c : Conversion) :
    requests.foldl grant c =
      { c with
        imports := requests.foldl Imports.grant c.imports
        log := c.log.addAll (requests.filterMap Request.report?) } := by
  induction requests generalizing c with
  | nil => rfl
  | cons request rest ih =>
    rw [List.foldl_cons, ih]
    cases request <;> rfl

def deepReports (c : Conversion) (held : Text → List Variable) : List Diagnostic :=
  c.contexts.names.flatMap fun context =>
    ((held context).filter (Linking.isDeep c.isNamespace)).map (Linking.deepReport context)

theorem reports_asked (c : Conversion) (held : Text → List Variable) :
    (c.asked held).filterMap Request.report? = c.deepReports held := by
  have hcontext (context : Text) (vs : List Variable) :
      (vs.flatMap (Linking.ofVariable c.isNamespace context)).filterMap Request.report? =
        (vs.filter (Linking.isDeep c.isNamespace)).map (Linking.deepReport context) := by
    induction vs with
    | nil => rfl
    | cons v rest ih =>
      rw [List.flatMap_cons, List.filterMap_append, Linking.reports_ofVariable, ih]
      by_cases hv : Linking.isDeep c.isNamespace v <;> simp [hv]
  simp only [asked, deepReports, List.filterMap_flatMap, hcontext]

def Occurs (c : Conversion) (held : Text → List Variable) (v : Variable) : Prop :=
  ∃ context ∈ c.contexts.names, v ∈ held context

end Conversion

section Serves

variable (isNamespace : Text → Bool) (occurs : Variable → Prop)

end Serves

namespace Conversion

variable {c : Conversion} {held : Text → List Variable}

theorem resolveVariables_eq (h : c.Holds held) :
    c.resolveVariables =
      ⟨{ c with
          imports := (c.asked held).foldl Imports.grant c.imports
          log := c.log.addAll (c.deepReports held) }, .ok ()⟩ := by
  simp only [resolveVariables, link_of_holds h, grants_eq, reports_asked]

end Conversion
end Libdef
