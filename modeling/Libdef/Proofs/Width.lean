import Libdef.Proofs.Collection

set_option autoImplicit false

namespace Libdef

/-- The text without its line breaks and tabs. -/
def Text.unbroken (s : Text) : Text :=
  Text.ofList (s.toList.filter fun c => c != '\n' && c != '\t')

theorem Text.unbroken_append (s t : Text) : unbroken (s ++ t) = unbroken s ++ unbroken t := by
  apply Text.toList_inj.mp
  simp [unbroken]

namespace Layout

open Text

/-- Wrapping puts in nothing but line breaks and tabs. -/
theorem unbroken_signatureText (width : Int) (generics parameters arrow returns : Text) :
    unbroken (signatureText width generics parameters arrow returns) =
      unbroken (signatureLine generics parameters arrow returns) := by
  have hopen : unbroken "\n\t\t" = "" := by decide
  have hclose : unbroken "\n\t" = "" := by decide
  simp only [signatureText]
  split
  · simp [signatureLine, unbroken_append, hopen, hclose]
  · rfl

theorem unbroken_render (v w : Int) (l : Layout) :
    unbroken (l.render v) = unbroken (l.render w) := by
  induction l with
  | text s => rfl
  | append a b iha ihb => simp only [render, unbroken_append, iha, ihb]
  | signature generics parameters arrow returns ihg ihp ihr =>
    -- The parts may be wrapped at one width only, which the length of the line depends on.
    simp only [render, unbroken_signatureText, signatureLine, unbroken_append, ihg, ihp, ihr]

end Layout

namespace Conversion

def withWidth (w : Int) (c : Conversion) : Conversion :=
  { c with options := { c.options with lineWidth := w } }

def Step.withWidth (w : Int) (s : Step) : Step := { s with state := s.state.withWidth w }

variable (w : Int)

theorem enter_withWidth (c : Conversion) (entry : Entry) :
    (c.withWidth w).enter entry = (c.enter entry).withWidth w := by
  cases entry with
  | knownNamespace name =>
    have hknown : (c.withWidth w).isNamespace name = c.isNamespace name := rfl
    simp only [enter, pushNamespace, hknown]
    split <;> rfl
  | _ => rfl

theorem enterAll_withWidth (c : Conversion) (entries : List Entry) :
    (c.withWidth w).enterAll entries = (c.enterAll entries).withWidth w := by
  induction entries generalizing c with
  | nil => rfl
  | cons entry rest ih =>
    simp only [enterAll, List.foldl_cons, enter_withWidth] at ih ⊢
    exact ih _

theorem grants_withWidth (c : Conversion) (requests : List Request) :
    requests.foldl grant (c.withWidth w) = (requests.foldl grant c).withWidth w := by
  induction requests generalizing c with
  | nil => rfl
  | cons request rest ih =>
    have hgrant : (c.withWidth w).grant request = (c.grant request).withWidth w := by
      cases request <;> rfl
    simp only [List.foldl_cons, hgrant]
    exact ih _

theorem andThen_withWidth {s : Step} {next : Conversion → Step}
    (h : ∀ c, next (c.withWidth w) = (next c).withWidth w) :
    (s.withWidth w).andThen next = (s.andThen next).withWidth w := by
  cases hr : s.result with
  | ok u => simp [Step.andThen, Step.withWidth, hr, h]
  | error e => simp [Step.andThen, Step.withWidth, hr]

theorem forEach_withWidth {α : Type} {step : α → Conversion → Step}
    (h : ∀ a c, step a (c.withWidth w) = (step a c).withWidth w) (l : List α) (c : Conversion) :
    forEach step l (c.withWidth w) = (forEach step l c).withWidth w := by
  induction l generalizing c with
  | nil => rfl
  | cons a rest ih =>
    rw [forEach, h, andThen_withWidth w ih]
    rfl

theorem resolveExport_withWidth (context : Text) (g : Handle) (c : Conversion) :
    resolveExport context g (c.withWidth w) = (resolveExport context g c).withWidth w := by
  have hname (name : Option Text) :
      (c.withWidth w).exportName context name = c.exportName context name := rfl
  have hstore : (c.withWidth w).store = c.store := rfl
  simp only [resolveExport, hname, hstore]
  cases c.store.fetch g with
  | error e => rfl
  | ok item =>
    dsimp only
    cases c.exportName context item.name with
    | error e => rfl
    | ok o => cases o <;> rfl

theorem resolveExports_withWidth (c : Conversion) :
    (c.withWidth w).resolveExports = c.resolveExports.withWidth w := by
  refine forEach_withWidth w (fun context d => ?_) c.contexts.names c
  have hcontexts : (d.withWidth w).contexts = d.contexts := rfl
  have hstore : (d.withWidth w).store = d.store := rfl
  simp only [resolveContextExports, hcontexts, hstore]
  cases d.store.fetchAll (d.contexts.bucket context .exports) with
  | error e => rfl
  | ok items => exact forEach_withWidth w (resolveExport_withWidth w context) _ d

theorem resolve_withWidth (c : Conversion) : (c.withWidth w).resolve = c.resolve.withWidth w := by
  have hvariables : (c.withWidth w).resolveVariables = c.resolveVariables.withWidth w := by
    have hlink : (c.withWidth w).link = c.link := rfl
    simp only [resolveVariables, hlink, grants_withWidth]
    rfl
  rw [resolve, hvariables, andThen_withWidth w (resolveExports_withWidth w)]
  rfl

theorem collected_withWidth (options : Options) (trees : List Json) :
    collected { options with lineWidth := w } trees = (collected options trees).withWidth w :=
  enterAll_withWidth w { options := options } _

/-- A conversion up to the layout of its text, which is yet to be rendered. -/
def laidOut (options : Options) (trees : List Json) : Except Fault (Conversion × Layout) := do
  ((sitesOf trees).forM Site.filing).result
  let linked := (collected options trees).resolve
  linked.result
  let layout ← linked.state.fileSheet.result
  return (linked.state.reportAll linked.state.fileSheet.log, layout)

theorem laidOut_withWidth (options : Options) (trees : List Json) :
    laidOut { options with lineWidth := w } trees =
      (laidOut options trees).map fun out => (out.1.withWidth w, out.2) := by
  simp only [laidOut, collected_withWidth, resolve_withWidth]
  cases ((sitesOf trees).forM Site.filing).result with
  | error e => rfl
  | ok u =>
    have hsheet (c : Conversion) : (c.withWidth w).fileSheet = c.fileSheet := rfl
    simp only [Step.withWidth, hsheet]
    cases (collected options trees).resolve.result with
    | error e => rfl
    | ok u => cases (collected options trees).resolve.state.fileSheet.result <;> rfl

theorem options_resolve_collected (options : Options) (trees : List Json) :
    (collected options trees).resolve.state.options = options := by
  have hkeeps := resolve_keeps (wellFiled_collected options trees)
    (fits_of_tolerant (Q := fun _ => True) _ (fun _ _ => trivial) trivial)
  rw [hkeeps.state.1.options, (grants_frame _ _).1.options, collected, (enterAll_frame _ _).1]

theorem convert_eq_laidOut (options : Options) (trees : List Json) :
    convert options trees =
      (laidOut options trees).map fun out => (out.1, out.2.render options.lineWidth) := by
  simp only [laidOut]
  cases hfiled : ((sitesOf trees).forM Site.filing).result with
  | error e =>
    rw [convert_of_error options hfiled]
    rfl
  | ok u =>
    rw [convert_of_ok options hfiled]
    simp only [render, printed, options_resolve_collected]
    cases (collected options trees).resolve.result with
    | error e => rfl
    | ok u => cases (collected options trees).resolve.state.fileSheet.result <;> rfl

/-- All that a conversion leaves behind besides its text. -/
structure SameRecord (c d : Conversion) : Prop where
  log : d.log = c.log
  imports : d.imports = c.imports
  namespaces : d.namespaces = c.namespaces
  contexts : d.contexts = c.contexts
  store : d.store = c.store
  listing : d.listing = c.listing

/-- Two line widths, whatever they are, make the same conversion fail for the same fault or give
texts that differ in line breaks and tabs only, with the same reports, imports, namespaces,
contexts, stored items and listing. -/
theorem convert_alike_at_widths (options : Options) (v w : Int) (trees : List Json) :
    Alike (fun c d => Text.unbroken c.2 = Text.unbroken d.2 ∧ SameRecord c.1 d.1) (· = ·)
      (convert { options with lineWidth := v } trees)
      (convert { options with lineWidth := w } trees) := by
  rw [convert_eq_laidOut, convert_eq_laidOut, laidOut_withWidth v options,
    laidOut_withWidth w options]
  cases laidOut options trees with
  | error e => exact rfl
  | ok out => exact ⟨Layout.unbroken_render v w out.2, rfl, rfl, rfl, rfl, rfl, rfl⟩

end Conversion
end Libdef
