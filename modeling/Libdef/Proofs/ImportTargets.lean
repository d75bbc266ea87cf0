import Libdef.Proofs.Declarators

/-!
Where imports lead. A namespace is imported from as soon as a declarator refers to it, but its
module is printed only if it has something to declare besides variables. Main statement: imports
lead to printed modules exactly if each namespace that is referred to has something to declare.
-/

set_option autoImplicit false

namespace Libdef

/-- The module that is imported from is among those that are printed. -/
def Import.Declared (c : Conversion) (i : Import) : Prop :=
  ∃ modules, c.modules = .ok modules ∧ ∃ m ∈ modules, m.isPrinted = true ∧
    ModuleName.printed c.options.rootModule m.name = i.module

namespace Conversion

variable {options : Options} {trees : List Json} {c d : Conversion} {text : Text}

theorem exists_mem_itemsAt {context : Text} {b : Bucket} :
    (∃ item, item ∈ c.store.itemsAt context b) ↔
      ∃ h ∈ c.store.handles, h.context = context ∧ h.bucket = b := by
  simp only [Store.mem_itemsAt, Store.handles, List.mem_map]
  constructor
  · rintro ⟨item, h, hm, hx, hb⟩
    exact ⟨h, ⟨_, hm, rfl⟩, hx, hb⟩
  · rintro ⟨h, ⟨e, hm, rfl⟩, hx, hb⟩
    exact ⟨e.2, e.1, hm, hx, hb⟩

theorem exists_printed_iff (h : c.WellFiled) {x : Text} :
    (∃ modules, c.modules = .ok modules ∧ ∃ m ∈ modules, m.isPrinted = true ∧ m.name = x) ↔
      x ≠ ModuleName.scratch ∧ ∃ b, b ≠ .variables ∧ ∃ item, item ∈ c.store.itemsAt x b := by
  have hprinted : (c.store.moduleAt x).isPrinted = true ↔
      x ≠ ModuleName.scratch ∧ ∃ b, b ≠ .variables ∧ ∃ item, item ∈ c.store.itemsAt x b := by
    simp only [Module.isPrinted, Bool.and_eq_true, Bool.not_eq_true', Module.isEmpty_eq_false_iff,
      Store.mem_items_moduleAt, bne_iff_ne, exists_and_left]
    rfl
  rw [← hprinted, modules_eq h]
  constructor
  · rintro ⟨modules, hmodules, m, hm, hp, rfl⟩
    cases hmodules
    obtain ⟨x, -, rfl⟩ := List.mem_map.mp hm
    exact hp
  · intro hp
    obtain ⟨-, b, -, hi⟩ := hprinted.mp hp
    obtain ⟨g, hg, rfl, -⟩ := exists_mem_itemsAt.mp hi
    exact ⟨_, rfl, _, List.mem_map.mpr ⟨_, h.lists.context_mem g hg, rfl⟩, hp, rfl⟩

/-- The printed modules are those of the contexts in which the trees have something to print. -/
theorem exists_printed_of_convert (h : convert options trees = .ok (c, text)) {x : Text} :
    (∃ modules, c.modules = .ok modules ∧ ∃ m ∈ modules, m.isPrinted = true ∧ m.name = x) ↔
      x ≠ ModuleName.scratch ∧ x ∈ printedContexts trees := by
  obtain ⟨hfiled, -, hsame, -⟩ := of_convert_eq_ok h
  have hw := hsame.wellFiled (wellFiled_collected options trees)
  rw [exists_printed_iff hw, ← prints_collected hfiled options]
  simp only [exists_mem_itemsAt, hsame.handles]

/-- Imports lead to printed modules exactly if each namespace that a declarator refers to has
something to print, or shares its name with a context that has. -/
theorem imports_declared_iff (h : convert options trees = .ok (c, text)) :
    (∀ i ∈ c.imports.records, i.Declared c) ↔
      ∀ ns, AskedFor trees ns → ∃ x ∈ printedContexts trees, x ≠ ModuleName.scratch ∧
        ModuleName.printed options.rootModule x = ModuleName.ofNamespace ns := by
  obtain ⟨-, -, hsame, -⟩ := of_convert_eq_ok h
  have hoptions : c.options = options := hsame.options.trans (enterAll_frame _ _).1
  constructor
  · intro hall ns hasked
    obtain ⟨i, hi, hm⟩ := exists_record h hasked
    obtain ⟨modules, hmodules, m, hmem, hp, hname⟩ := hall i hi
    obtain ⟨hs, hx⟩ := (exists_printed_of_convert h).mp ⟨modules, hmodules, m, hmem, hp, rfl⟩
    rw [hoptions, hm] at hname
    exact ⟨m.name, hx, hs, hname⟩
  · intro hall i hi
    obtain ⟨ns, hm, hasked⟩ := namespace_of_mem_records h hi
    obtain ⟨x, hx, hs, hname⟩ := hall ns hasked
    obtain ⟨modules, hmodules, m, hmem, hp, rfl⟩ := (exists_printed_of_convert h).mpr ⟨hs, hx⟩
    refine ⟨modules, hmodules, m, hmem, hp, ?_⟩
    rw [hoptions, hm]
    exact hname

theorem imports_declared_interface :
    let bar := Json.obj [("kind", .str "InterfaceDeclaration"), ("name", .identifier "Bar")]
    let trees := [Json.sourceFile [.namespaceNode "Foo" [bar],
      .variableNode "x" (.qualifiedName "Foo" "Bar")]]
    ∃ c text, convert {} trees = .ok (c, text) ∧ ∀ i ∈ c.imports.records, i.Declared c := by
  intro bar trees
  have hsize : (convert {} trees).toOption.map (fun result => result.1.imports.size) = some 1 := by
    decide +kernel
  have hns : namespacesOf trees = ["Foo"] := by decide +kernel
  have hprinted : ModuleName.contextOf "Foo" ∈ printedContexts trees := by decide +kernel
  obtain ⟨⟨c, text⟩, h, -⟩ := exists_ok_of_map hsize
  refine ⟨c, text, h, (imports_declared_iff h).mpr fun ns hasked => ?_⟩
  obtain rfl : ns = "Foo" := by simpa [hns] using hasked.mem_namespacesOf
  exact ⟨_, hprinted, by decide, by decide⟩

/-- A namespace without declarations is imported from, and no module at all is printed. -/
theorem import_without_module :
    let trees := [Json.sourceFile [.namespaceNode "Foo" [],
      .variableNode "x" (.qualifiedName "Foo" "Bar")]]
    ∃ c text, convert {} trees = .ok (c, text) ∧ ∃ i ∈ c.imports.records, ¬i.Declared c := by
  intro trees
  have hrecords : (convert {} trees).toOption.map (fun result => result.1.imports.records) =
      some [{ module := "npm$namespace$Foo", names := ["Bar"] }] := by decide +kernel
  have hnone : printedContexts trees = [] := by decide +kernel
  obtain ⟨⟨c, text⟩, h, hrecords⟩ := exists_ok_of_map hrecords
  refine ⟨c, text, h, _, hrecords ▸ List.mem_singleton_self _, ?_⟩
  rintro ⟨modules, hm, m, hmem, hp, -⟩
  obtain ⟨-, hx⟩ := (exists_printed_of_convert h).mp ⟨modules, hm, m, hmem, hp, rfl⟩
  rw [hnone] at hx
  cases hx

end Conversion
end Libdef
