import Libdef.Proofs.Printing

set_option autoImplicit false

namespace Libdef

namespace Layout

/-- The text with every signature on one line, however long. -/
def flat : Layout → Text
  | .text s => s
  | .append a b => a.flat ++ b.flat
  | .signature generics parameters arrow returns =>
    signatureLine generics.flat parameters.flat arrow returns.flat

/-- The line that is measured: the signature on one line, with its parts as they are printed. -/
def lineAt (width : Int) (generics parameters : Layout) (arrow : Text) (returns : Layout) :
    Text :=
  signatureLine (generics.render width) (parameters.render width) arrow (returns.render width)

theorem render_signature (width : Int) (generics parameters : Layout) (arrow : Text)
    (returns : Layout) : (signature generics parameters arrow returns).render width =
      if width < (lineAt width generics parameters arrow returns).length then
        signatureLine (generics.render width) ("\n\t\t" ++ parameters.render width ++ "\n\t") arrow
          (returns.render width)
      else lineAt width generics parameters arrow returns := rfl

def wraps (width : Int) : Layout → Nat
  | .text _ => 0
  | .append a b => a.wraps width + b.wraps width
  | .signature generics parameters arrow returns =>
    generics.wraps width + parameters.wraps width + returns.wraps width +
      if width < (lineAt width generics parameters arrow returns).length then 1 else 0

theorem length_signatureLine (g p a r : Text) :
    (signatureLine g p a r).length = g.length + p.length + a.length + r.length + 3 := by
  have hopen : Text.length "(" = 1 := rfl
  have hclose : Text.length ")" = 1 := rfl
  have hspace : Text.length " " = 1 := rfl
  simp only [signatureLine, Text.length_append]; omega

/-- Each wrapped signature makes the text longer by two line breaks and three tabs. -/
theorem length_render (width : Int) (l : Layout) :
    (l.render width).length = l.flat.length + 5 * l.wraps width := by
  induction l with
  | text s => simp [render, flat, wraps]
  | append a b iha ihb => simp [render, flat, wraps] at *; omega
  | signature g p arrow r ihg ihp ihr =>
    have hopen : Text.length "\n\t\t" = 3 := rfl
    have hclose : Text.length "\n\t" = 2 := rfl
    by_cases hline : width < (lineAt width g p arrow r).length
    · rw [render_signature, wraps, if_pos hline, if_pos hline]
      simp only [flat, length_signatureLine, Text.length_append]
      omega
    · rw [render_signature, wraps, if_neg hline, if_neg hline]
      simp only [flat, lineAt, length_signatureLine]
      omega

theorem length_lineAt (width : Int) (g p : Layout) (arrow : Text) (r : Layout) :
    (lineAt width g p arrow r).length =
      (signature g p arrow r).flat.length +
        5 * (g.wraps width + p.wraps width + r.wraps width) := by
  simp only [lineAt, flat, length_signatureLine, length_render]; omega

theorem render_eq_flat_of_wraps {width : Int} {l : Layout} (h : l.wraps width = 0) :
    l.render width = l.flat := by
  induction l with
  | text s => rfl
  | append a b iha ihb =>
    simp only [wraps] at h
    rw [render, flat, iha (by omega), ihb (by omega)]
  | signature g p arrow r ihg ihp ihr =>
    rw [wraps] at h
    split at h
    · omega
    · rename_i hline
      rw [render_signature, if_neg hline, lineAt, flat, ihg (by omega), ihp (by omega),
        ihr (by omega)]

theorem wraps_eq_zero {width : Int} {l : Layout} (h : l.flat.length ≤ width) :
    l.wraps width = 0 := by
  induction l with
  | text s => rfl
  | append a b iha ihb =>
    simp only [flat, Text.length_append] at h
    have ha := iha (by omega)
    have hb := ihb (by omega)
    simp only [wraps]; omega
  | signature g p arrow r ihg ihp ihr =>
    -- The parts are shorter than the whole, so none of them makes the measured line longer.
    have hline := length_lineAt width g p arrow r
    simp only [flat, length_signatureLine] at h hline
    have hg := ihg (by omega)
    have hp := ihp (by omega)
    have hr := ihr (by omega)
    simp only [wraps]
    split <;> omega

theorem render_eq_flat {width : Int} {l : Layout} (h : l.flat.length ≤ width) :
    l.render width = l.flat :=
  render_eq_flat_of_wraps (wraps_eq_zero h)

theorem wraps_anti {v w : Int} (h : v ≤ w) (l : Layout) : l.wraps w ≤ l.wraps v := by
  induction l with
  | text s => exact Nat.le_refl _
  | append a b iha ihb => simp only [wraps]; omega
  | signature g p arrow r ihg ihp ihr =>
    have hv := length_lineAt v g p arrow r
    have hw := length_lineAt w g p arrow r
    simp only [wraps]
    split <;> split <;> omega

/-- The measured line may be longer than the flat text, but then neither fits. -/
theorem lt_length_lineAt_iff {width : Int} {g p : Layout} {arrow : Text} {r : Layout} :
    width < (lineAt width g p arrow r).length ↔ width < (signature g p arrow r).flat.length := by
  have hlength := length_lineAt width g p arrow r
  constructor
  · intro hline
    apply Int.lt_of_not_ge
    intro hfits
    have hwraps := wraps_eq_zero hfits
    simp only [wraps] at hwraps
    omega
  · omega

theorem render_signature_iff (width : Int) (generics parameters : Layout) (arrow : Text)
    (returns : Layout) :
    let l := signature generics parameters arrow returns
    let line (inner : Text) :=
      signatureLine (generics.render width) inner arrow (returns.render width)
    (l.render width = line (parameters.render width) ↔ l.flat.length ≤ width) ∧
      (l.render width = line ("\n\t\t" ++ parameters.render width ++ "\n\t") ↔
        width < l.flat.length) := by
  intro l line
  have hdiffer : line (parameters.render width) ≠
      line ("\n\t\t" ++ parameters.render width ++ "\n\t") := by
    intro heq
    have hlength := congrArg Text.length heq
    have hopen : Text.length "\n\t\t" = 3 := rfl
    simp only [line, length_signatureLine, Text.length_append] at hlength
    omega
  by_cases hlong : width < l.flat.length
  · rw [render_signature, if_pos (lt_length_lineAt_iff.mpr hlong)]
    exact ⟨iff_of_false hdiffer.symm (by omega), iff_of_true rfl hlong⟩
  · rw [render_signature, if_neg (mt lt_length_lineAt_iff.mp hlong)]
    exact ⟨iff_of_true rfl (by omega), iff_of_false hdiffer hlong⟩

end Layout

namespace Sheet

open Traced

theorem signature_eq_ok_iff {s : Shape Printed} {asDeclaration : Bool} {l : Layout} :
    (signature s asDeclaration).result = .ok l ↔ ∃ generics parameters returns,
      (Sheet.generics s.typeParameters).result = .ok generics ∧
        (Sheet.parameters s).result = .ok parameters ∧ (typeOrAny s.type).result = .ok returns ∧
        l = .signature generics parameters (arrow asDeclaration) returns := by
  simp only [signature, result_bind]
  cases (Sheet.parameters s).result with
  | error e => simp [Bind.bind, Except.bind]
  | ok p =>
    cases (Sheet.generics s.typeParameters).result with
    | error e => simp [Bind.bind, Except.bind]
    | ok g =>
      cases (typeOrAny s.type).result with
      | error e => simp [Bind.bind, Except.bind]
      | ok r => simp [Bind.bind, Except.bind, eq_comm]

end Sheet

namespace Node

open Layout

/-- Signatures are wrapped exactly where they do not fit. The signature of a node has its own
parameters on a line of their own if its flat text is wider than the width, and else it is its
flat text, with nothing wrapped inside either. A wider limit makes no printed node longer, and one
that is no longer than the width is its flat text, which is what every width prints that is great
enough. Nodes that are printable have a text. -/
theorem wrapped_iff_flat_too_long (vocabulary : Vocabulary) {w w' : Int} (hle : w ≤ w') :
    (∀ (f : Node) (asDeclaration : Bool) (l : Layout),
      (Sheet.signature (f.parts vocabulary) asDeclaration).result = .ok l →
      ∃ generics parameters returns,
        (Sheet.generics (f.parts vocabulary).typeParameters).result = .ok generics ∧
        (Sheet.parameters (f.parts vocabulary)).result = .ok parameters ∧
        (Sheet.typeOrAny (f.parts vocabulary).type).result = .ok returns ∧
        let line (inner : Text) := signatureLine (generics.render w) inner
          (Sheet.arrow asDeclaration) (returns.render w)
        (l.render w = line (parameters.render w) ↔ l.flat.length ≤ w) ∧
        (l.render w = line ("\n\t\t" ++ parameters.render w ++ "\n\t") ↔ w < l.flat.length) ∧
        (l.flat.length ≤ w → l.render w = l.flat ∧ l.wraps w = 0)) ∧
    (∀ (n : Node) (l : Layout), (n.printed vocabulary).sheet.result = .ok l →
      (∀ v : Int, l.flat.length ≤ v → l.render v = l.flat) ∧
      (l.render w').length ≤ (l.render w).length ∧
      ((l.render w).length ≤ w → l.render w = l.flat)) ∧
    ∀ n : Node, n.printable = true →
      (∃ l, (n.printed vocabulary).sheet.result = .ok l) ∧
      ∀ asDeclaration,
        ∃ l, (Sheet.signature (n.parts vocabulary) asDeclaration).result = .ok l := by
  refine ⟨fun f asDeclaration l hl => ?_, fun n l _ => ⟨fun v => render_eq_flat, ?_, ?_⟩, ?_⟩
  · obtain ⟨generics, parameters, returns, hg, hp, hr, rfl⟩ := Sheet.signature_eq_ok_iff.mp hl
    obtain ⟨hline, hwrapped⟩ :=
      render_signature_iff w generics parameters (Sheet.arrow asDeclaration) returns
    exact ⟨generics, parameters, returns, hg, hp, hr, hline, hwrapped,
      fun hfits => ⟨render_eq_flat hfits, wraps_eq_zero hfits⟩⟩
  · have hwraps := wraps_anti hle l
    simp only [length_render]
    omega
  · intro hfits
    apply render_eq_flat
    rw [length_render] at hfits
    omega
  · intro n hn
    have hends : Allows (fun _ => False) n.printable := .of_eq_true hn
    obtain ⟨l, hl, -⟩ := (printed_endsIn vocabulary hends).exists_ok
    refine ⟨⟨l, hl⟩, fun asDeclaration => ?_⟩
    have hparts := Survey.faults_lawful.parts_surveyed (fine_of_printable vocabulary hends)
    obtain ⟨l, hl, -⟩ :=
      Ends.exists_ok (Survey.faults_lawful.signature_opening hparts asDeclaration)
    exact ⟨l, hl⟩

/-- A function type that takes a callback, at the length of its flat text and at one less, where
the callback still fits. -/
theorem wrapped_iff_flat_too_long_callback :
    let parameter (name : Text) (type : Node) :=
      Node.mk { kind := .parameter, name := some name, type := some type }
    let callback := Node.mk { kind := .functionType, type := some (.mk { kind := .voidKeyword }),
                              parameters := [parameter "x" (.mk { kind := .numberKeyword })] }
    let f := Node.mk { kind := .functionType, parameters := [parameter "cb" callback] }
    f.printable = true ∧
      ∃ l, (Sheet.signature (f.parts .types) false).result = .ok l ∧
        l.flat = "(cb: (x: number) => void) => any" ∧ l.flat.length = 32 ∧
        l.render 32 = l.flat ∧ l.wraps 32 = 0 ∧
        l.render 31 ≠ l.flat ∧ l.render 31 = "(\n\t\tcb: (x: number) => void\n\t) => any" ∧
        (l.render 32).length ≤ (l.render 31).length := by
  intro parameter callback f
  obtain ⟨-, hnodes, hprintable⟩ :=
    wrapped_iff_flat_too_long .types (show (31 : Int) ≤ 32 by decide)
  obtain ⟨hsignature, -, -⟩ :=
    wrapped_iff_flat_too_long .types (Int.le_refl 32)
  have hf : f.printable = true := by decide +kernel
  obtain ⟨l, hl⟩ := (hprintable f hf).2 false
  have hflat : l.flat = "(cb: (x: number) => void) => any" := by
    have heval : ((Sheet.signature (f.parts .types) false).result.map Layout.flat).toOption =
        some "(cb: (x: number) => void) => any" := by decide +kernel
    rw [hl] at heval
    exact Option.some.inj heval
  have hwrapped : l.render 31 = "(\n\t\tcb: (x: number) => void\n\t) => any" := by
    have heval : ((Sheet.signature (f.parts .types) false).result.map (render 31)).toOption =
        some "(\n\t\tcb: (x: number) => void\n\t) => any" := by decide +kernel
    rw [hl] at heval
    exact Option.some.inj heval
  have hlength : l.flat.length = 32 := by rw [hflat]; rfl
  obtain ⟨-, -, -, -, -, -, -, -, hfits⟩ := hsignature f false l hl
  obtain ⟨hrender, hwraps⟩ := hfits (by omega)
  refine ⟨hf, l, hl, hflat, hlength, hrender, hwraps, ?_, hwrapped, (hnodes f l hl).2.1⟩
  rw [hwrapped, hflat]
  decide +kernel

end Node
end Libdef
