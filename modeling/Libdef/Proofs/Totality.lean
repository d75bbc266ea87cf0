import Libdef.Proofs.Collection

set_option autoImplicit false

namespace Libdef

/-- Nothing but its offence makes a sound site fail. -/
theorem Site.result_filing {site : Site} (h : site.Sound fun _ => False) :
    site.filing.result = match site.offence with | none => .ok () | some e => .error e := by
  have hends := h.settled.ends
  cases hr : site.filing.result with
  | ok u =>
    rw [hr] at hends
    rw [show site.offence = none from hends]
  | error e =>
    rw [hr] at hends
    rw [show site.offence = some e from hends.resolve_left id]

theorem sitesOf_sound {trees : List Json} (h : ∀ tree ∈ trees, tree.wellTyped = true) :
    ∀ site ∈ sitesOf trees, site.Sound fun _ => False :=
  Conversion.sitesOf_sound_of_allows fun tree ht => .of_eq_true (h tree ht)

namespace Conversion

theorem fits_collected (options : Options) {trees : List Json}
    (h : ∀ tree ∈ trees, tree.wellTyped = true) :
    (collected options trees).Fits fun _ => False :=
  fits_collected_of_allows options fun tree ht => .of_eq_true (h tree ht)

theorem convert_of_collected (options : Options) {trees : List Json}
    (h : ∀ tree ∈ trees, tree.wellTyped = true)
    (hc : ((sitesOf trees).forM Site.filing).result = .ok ()) :
    ∃ c text, convert options trees = .ok (c, text) := by
  have hw := wellFiled_collected options trees
  have hlinked := resolve_keeps hw (fits_collected options h)
  obtain ⟨hsame, -, hfits⟩ := hlinked.state
  obtain ⟨_, hresult, -⟩ := hlinked.ends.exists_ok
  have hw' := hsame.wellFiled ((grants_frame _ _).1.wellFiled hw)
  obtain ⟨text, htext, -⟩ := (render_ends hw' hfits).exists_ok
  refine ⟨(collected options trees).resolve.state.render.1, text, ?_⟩
  rw [convert_of_ok options hc]
  simp only [hresult, htext]
  rfl

/-- A conversion of well-typed trees goes through, unless it comes to a declaration without a name
or to a block without statements; then the first of these in document order is what it fails for. -/
theorem convert_error_iff_first_offence (options : Options) (trees : List Json)
    (h : ∀ tree ∈ trees, tree.wellTyped = true) :
    ((∃ c text, convert options trees = .ok (c, text)) ↔
      ∀ site ∈ sitesOf trees, site.offence = none) ∧
    (∀ e, convert options trees = .error e ↔ (sitesOf trees).findSome? Site.offence = some e) ∧
    ∀ e, convert options trees = .error e →
      (∃ kind, e = .unnamed kind) ∨ ∃ kind, e = .noStatements kind := by
  -- For well-typed trees a site fails by its offence alone, and nothing after filing can fail.
  have hresult := Traced.result_forM_eq_findSome? fun site hs =>
    Site.result_filing (sitesOf_sound h site hs)
  cases hf : (sitesOf trees).findSome? Site.offence with
  | none =>
    rw [hf] at hresult
    obtain ⟨c, text, hok⟩ := convert_of_collected options h hresult
    simp only [List.findSome?_eq_none_iff] at hf
    simpa [hok] using hf
  | some e =>
    rw [hf] at hresult
    have herror := convert_of_error options hresult
    obtain ⟨site, hs, ho⟩ := List.exists_of_findSome?_eq_some hf
    refine ⟨⟨fun ⟨c, text, hok⟩ => ?_, fun hall => ?_⟩, fun e' => ?_, fun e' he' => ?_⟩
    · rw [herror] at hok
      cases hok
    · rw [hall site hs] at ho
      cases ho
    · simp [herror]
    · rw [herror] at he'
      cases he'
      exact Site.offence_cases ho

theorem convert_fails_for_first_unnamed :
    let block := Json.obj [("kind", .str "ModuleBlock"),
      ("statements", .arr [.obj [("kind", .str "ClassDeclaration")]])]
    let inner := Json.obj [("kind", .str "ModuleDeclaration"), ("name", .str "Inner"),
      ("flags", .int 4), ("body", block)]
    let outer := Json.obj [("kind", .str "ModuleDeclaration"), ("name", .str "Outer"),
      ("flags", .int 16), ("body", inner)]
    let tree := Json.obj [("kind", .str "SourceFile"),
      ("statements", .arr [outer, .obj [("kind", .str "FunctionDeclaration")]])]
    (∀ t ∈ [tree, .obj []], t.wellTyped = true) ∧
      convert {} [tree, .obj []] = .error (.unnamed (some (.str "ClassDeclaration"))) := by
  intro block inner outer tree
  have h : ∀ t ∈ [tree, .obj []], t.wellTyped = true := by decide
  exact ⟨h, ((convert_error_iff_first_offence {} _ h).2.1 _).mpr rfl⟩

end Conversion
end Libdef
