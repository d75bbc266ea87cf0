import Libdef.Proofs.Declarators

/-!
Where imports come from. A reference is kept as its last part and what stands before it, where the
root stands for nothing; so a namespace called like the root attracts references without a
qualifier, and a qualifier that is no namespace is passed over. Main statement: apart from these
two readings, every import goes back to a declarator whose type names what is imported.
-/

set_option autoImplicit false

namespace Libdef

/-- A declarator has the type `ns.v` for each name `v` imported from the namespace `ns`, and the
binding is the name of a declarator of type `ns`. -/
def Import.Sourced (trees : List Json) (i : Import) : Prop :=
  ∃ ns ∈ namespacesOf trees, i.module = ModuleName.ofNamespace ns ∧
    (∀ v ∈ i.names, ∃ name, (name, ns ++ "." ++ v) ∈ declaredOf trees) ∧
    ∀ d ∈ i.binding, (d, ns) ∈ declaredOf trees

namespace Conversion

variable {options : Options} {trees : List Json} {c : Conversion} {text : Text}

theorem mem_names_iff (h : convert options trees = .ok (c, text)) {i : Import}
    (hi : i ∈ c.imports.records) {ns v : Text} (hm : i.module = ModuleName.ofNamespace ns) :
    v ∈ i.names ↔ AsksName trees ns v := by
  obtain ⟨-, -, -, hanswers⟩ := of_convert_eq_ok h
  rw [(hanswers.records i hi).mem_names, hm, name_mem_link_collected h]

theorem binding_eq_some_iff (h : convert options trees = .ok (c, text)) {i : Import}
    (hi : i ∈ c.imports.records) {ns d : Text} (hm : i.module = ModuleName.ofNamespace ns) :
    i.binding = some d ↔
      AsksBinding trees ns d ∧ ∀ other, AsksBinding trees ns other → d ≤ other := by
  obtain ⟨-, -, -, hanswers⟩ := of_convert_eq_ok h
  simp only [(hanswers.records i hi).binding_iff, hm, binding_mem_link_collected h]

/-- Imports have sources exactly if two sorts of references do no harm: those without a qualifier
where the root is a namespace, and those that bind a namespace after a qualifier. -/
theorem imports_sourced_iff (h : convert options trees = .ok (c, text)) :
    (∀ i ∈ c.imports.records, i.Sourced trees) ↔
      (ModuleName.root ∈ namespacesOf trees → ∀ name type, (name, type) ∈ declaredOf trees →
        CodePoint.char '.' ∉ type.toList →
          ∃ other, (other, ModuleName.root ++ "." ++ type) ∈ declaredOf trees) ∧
      ∀ ns d, AsksBinding trees ns d → (∀ other, AsksBinding trees ns other → d ≤ other) →
        (d, ns) ∈ declaredOf trees := by
  refine ⟨fun hall => ⟨fun hroot name type hd ht => ?_, fun ns d hd hle => ?_⟩, ?_⟩
  · have hasks : AsksName trees ModuleName.root type :=
      ⟨hroot, ht, name, type, hd, .inr ⟨rfl, rfl⟩⟩
    obtain ⟨i, hi, hm⟩ := exists_record h (.inl ⟨type, hasks⟩)
    -- A module name determines its namespace, so the source found is one for the root.
    obtain ⟨ns, -, hns, hnames, -⟩ := hall i hi
    cases ModuleName.ofNamespace_inj (hm.symm.trans hns)
    exact hnames type ((mem_names_iff h hi hm).mpr hasks)
  · obtain ⟨i, hi, hm⟩ := exists_record h (.inr ⟨d, hd⟩)
    obtain ⟨ns', -, hns, -, hbinding⟩ := hall i hi
    cases ModuleName.ofNamespace_inj (hm.symm.trans hns)
    exact hbinding d ((binding_eq_some_iff h hi hm).mpr ⟨hd, hle⟩)
  · rintro ⟨hplain, hleast⟩ i hi
    obtain ⟨ns, hm, hasked⟩ := namespace_of_mem_records h hi
    refine ⟨ns, hasked.mem_namespacesOf, hm, fun v hv => ?_, fun d hd => ?_⟩
    · obtain ⟨-, hdot, name, type, hd, rfl | ⟨rfl, rfl⟩⟩ := (mem_names_iff h hi hm).mp hv
      · exact ⟨name, hd⟩
      · exact hplain hasked.mem_namespacesOf name type hd hdot
    · obtain ⟨hb, hle⟩ := (binding_eq_some_iff h hi hm).mp hd
      exact hleast ns d hb hle

/-- Of the two declarators that bind the namespace, the one without a qualifier has the lesser
name. -/
theorem imports_sourced_lesser_binding :
    let trees := [Json.sourceFile [.namespaceNode "NS" [], .variableNode "a" (.identifier "NS"),
      .variableNode "b" (.qualifiedName "Q" "NS"),
      .variableNode "m" (.qualifiedName "NS" "Member")]]
    ∃ c text, convert {} trees = .ok (c, text) ∧ ∀ i ∈ c.imports.records, i.Sourced trees := by
  intro trees
  have hmodules :
      (convert {} trees).toOption.map (fun result => result.1.imports.size) = some 1 := by
    decide +kernel
  obtain ⟨⟨c, text⟩, h, -⟩ := exists_ok_of_map hmodules
  have hns : namespacesOf trees = ["NS"] := by decide +kernel
  have hd : declaredOf trees =
      ([("a", "NS"), ("b", "Q.NS"), ("m", "NS.Member")] : List (Text × Text)) := by
    decide +kernel
  refine ⟨c, text, h, (imports_sourced_iff h).mpr ⟨fun hroot => ?_, fun ns d hasks hle => ?_⟩⟩
  · exact absurd hroot (by rw [hns]; decide)
  · obtain ⟨hmem, hdot, type, hdeclared, htype⟩ := hasks
    obtain rfl : ns = "NS" := by simpa [hns] using hmem
    rw [hd] at hdeclared ⊢
    simp only [List.mem_cons, Prod.mk.injEq, List.not_mem_nil, or_false] at hdeclared
    rcases hdeclared with ⟨rfl, rfl⟩ | ⟨rfl, rfl⟩ | ⟨rfl, rfl⟩
    · simp
    · have hlesser : AsksBinding trees "NS" "a" :=
        ⟨hmem, hdot, "NS", by simp [hd], .inl ⟨rfl, by rw [hns]; decide⟩⟩
      exact absurd (hle "a" hlesser) (by decide)
    · rcases htype with ⟨he, -⟩ | ⟨q, he, -⟩
      · exact absurd he (by decide)
      · have hlast := congrArg (fun s => s.toList.getLast?) he
        simp at hlast

/-- A name is imported from a namespace called like the root though no type has this qualifier, and
a namespace is bound though the only type that ends in its name has another qualifier. -/
theorem imports_without_source :
    let plain := [Json.sourceFile [.namespaceNode "root" [], .variableNode "x" (.identifier "Foo")]]
    let qualified := [Json.sourceFile [.namespaceNode "NS" [],
      .variableNode "x" (.qualifiedName "Q" "NS")]]
    (∃ c text, convert {} plain = .ok (c, text) ∧ ∃ i ∈ c.imports.records, ¬i.Sourced plain) ∧
      ∃ c text, convert {} qualified = .ok (c, text) ∧
        ∃ i ∈ c.imports.records, ¬i.Sourced qualified := by
  intro plain qualified
  refine ⟨?_, ?_⟩
  · have hrecords : (convert {} plain).toOption.map (fun result => result.1.imports.records) =
        some [{ module := "npm$namespace$root", names := ["Foo"] }] := by decide +kernel
    have hd : declaredOf plain = ([("x", "Foo")] : List (Text × Text)) := by decide +kernel
    obtain ⟨⟨c, text⟩, h, hrecords⟩ := exists_ok_of_map hrecords
    refine ⟨c, text, h, _, hrecords ▸ List.mem_singleton_self _, ?_⟩
    rintro ⟨ns, -, -, hnames, -⟩
    obtain ⟨name, hname⟩ := hnames "Foo" (by simp)
    -- The namespace is not known to be the root here, but no qualified type is this short.
    have hlength : (ns ++ "." ++ "Foo").length = Text.length "Foo" := by
      rw [hd] at hname
      simp only [List.mem_singleton, Prod.mk.injEq] at hname
      rw [hname.2]
    simp at hlength
  · have hrecords : (convert {} qualified).toOption.map (fun result => result.1.imports.records) =
        some [{ module := "npm$namespace$NS", binding := some "x" }] := by decide +kernel
    have hd : declaredOf qualified = ([("x", "Q.NS")] : List (Text × Text)) := by decide +kernel
    obtain ⟨⟨c, text⟩, h, hrecords⟩ := exists_ok_of_map hrecords
    refine ⟨c, text, h, _, hrecords ▸ List.mem_singleton_self _, ?_⟩
    rintro ⟨ns, -, hns, -, hbinding⟩
    obtain rfl : ns = "Q.NS" := by simpa [hd] using hbinding "x" rfl
    exact absurd hns (by decide)

end Conversion
end Libdef
