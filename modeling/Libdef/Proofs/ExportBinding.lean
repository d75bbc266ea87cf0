import Libdef.Proofs.Content
import Libdef.Proofs.ImportSources

/-!
Exports and the imports that serve them. An export takes on the value of the variable it names. A
value that lies in a namespace is imported by just this name, but a value that is a namespace is
imported under the name of a variable. Main statement: every export whose variable an import serves
has a name that this import binds, exactly if each namespace that is exported itself is also the
name of one of its members or the least name of the variables that bind it.
-/

set_option autoImplicit false

namespace Libdef

def Json.exportNode (name : Text) : Json :=
  .obj [("kind", .str "ExportAssignment"), ("expression", identifier name)]

def Item.toExport? : Item → Option Export
  | .export e => some e
  | _ => none

theorem Item.eq_of_toExport? {item : Item} {e : Export} (h : item.toExport? = some e) :
    item = .export e := by
  cases item with
  | «export» x =>
    cases h
    rfl
  | _ => cases h

def Import.Binds (i : Import) (name : Text) : Prop := name ∈ i.names ∨ i.binding = some name

namespace Conversion

variable {c : Conversion} {context : Text} {name : Option Text} {v : Variable}

/-- The namespace from which linking imports for a variable. -/
def servedBy? (c : Conversion) (v : Variable) : Option Text :=
  if c.isNamespace v.qualifier then some v.qualifier
  else if c.isNamespace v.value then some v.value
  else none

structure ExportOf (c : Conversion) (g : Handle) (e : Export) (v : Variable) : Prop where
  mem : (g, .export e) ∈ c.store.entries.toList
  bucket : g.bucket = .exports
  target : c.findExportTarget g.context (some e.name) = .ok (some (.variable v))

/-- What names a variable that an import serves is, once it is resolved, a name that the import
binds. -/
def ExportsBound (before after : Conversion) : Prop :=
  ∀ g e v ns, before.ExportOf g e v → before.servedBy? v = some ns →
    ∃ e', after.store.fetch g = .ok (.export e') ∧
      ∃ i ∈ after.imports.records, i.module = ModuleName.ofNamespace ns ∧ i.Binds e'.name

theorem hasVariable_of_exportTarget? (h : c.exportTarget? context name = some v) :
    c.HasVariable v := by
  have hmem {x : Text} (hlast : lastNamed (c.store.variablesAt x) name = some v) :
      c.HasVariable v := by
    have hv := (List.mem_filter.mp (List.mem_of_getLast? hlast)).1
    obtain ⟨item, hi, hitem⟩ := List.mem_filterMap.mp hv
    cases item with
    | «variable» w =>
      cases hitem
      exact ⟨x, hi⟩
    | _ => cases hitem
  rcases Option.or_eq_some_iff.mp h with hown | ⟨-, hroot⟩
  · exact hmem hown
  · exact hmem hroot

namespace ExportOf

variable {g : Handle} {e : Export}

theorem exportTarget?_eq (hx : c.ExportOf g e v) (h : c.WellFiled) (hv : c.HoldsVariables) :
    c.exportTarget? g.context (some e.name) = some v := by
  have htarget := hx.target
  rw [findExportTarget_eq h hv, Except.ok.injEq, Option.map_eq_some_iff] at htarget
  obtain ⟨w, hw, heq⟩ := htarget
  cases heq
  exact hw

theorem fetch_relinked (hx : c.ExportOf g e v) (h : c.WellFiled) (hv : c.HoldsVariables) :
    c.granted.relinked.store.fetch g = .ok (.export { e with name := v.value }) := by
  obtain ⟨hs, hstore⟩ := c.grants_frame c.requests
  have hw : c.granted.WellFiled := hs.wellFiled h
  have hvalue : c.granted.exportValue? g.context (Item.export e).name = some v.value := by
    have hsame : c.granted.exportValue? g.context (some e.name) =
        (c.exportTarget? g.context (some e.name)).map Variable.value := by
      rw [exportValue?, exportTarget?, granted, hstore]
      rfl
    rw [Item.name, hsame, hx.exportTarget?_eq h hv]
    rfl
  have hentry : (g, Item.export e) ∈ c.granted.store.entriesAt g.context .exports := by
    rw [granted, hstore]
    exact Store.mem_entriesAt.mpr ⟨hx.mem, rfl, hx.bucket⟩
  have hrenamed : (g, Item.export { e with name := v.value }) ∈
      c.granted.relinked.store.entriesAt g.context .exports := by
    rw [entriesAt_relinked hw]
    refine List.mem_map.mpr ⟨_, hentry, ?_⟩
    simp [relink, hvalue, Item.rename]
  exact Store.fetch_of_mem (hw.relinkedAt _).numbered (Store.mem_entriesAt.mp hrenamed).1

end ExportOf

variable {options : Options} {trees : List Json} {text : Text}

theorem state_collectTrees (options : Options) (trees : List Json) :
    (collectTrees trees { options := options }).state = collected options trees := by
  rw [collectTrees_eq]
  rfl

theorem fetch_export_of_convert (h : convert options trees = .ok (c, text)) {g : Handle}
    {e : Export} (hx : (collectTrees trees { options := options }).state.ExportOf g e v) :
    c.store.fetch g = .ok (.export { e with name := v.value }) := by
  obtain ⟨-, -, rfl⟩ := convert_inv h
  have hw := wellFiled_collected options trees
  have hv := holdsVariables_collected options trees
  rw [state_collectTrees] at hx
  rw [resolve_eq hw hv]
  exact hx.fetch_relinked hw hv

theorem hasVariable_of_exportOf {g : Handle} {e : Export}
    (hx : (collectTrees trees { options := options }).state.ExportOf g e v) :
    (collected options trees).HasVariable v := by
  rw [state_collectTrees] at hx
  exact hasVariable_of_exportTarget? (hx.exportTarget?_eq (wellFiled_collected options trees)
    (holdsVariables_collected options trees))

/-- Of the names of declarators that bind a namespace, the least is bound. -/
theorem exists_binds_iff (h : convert options trees = .ok (c, text)) {ns n : Text} :
    (∃ i ∈ c.imports.records, i.module = ModuleName.ofNamespace ns ∧ i.Binds n) ↔
      AsksName trees ns n ∨
        AsksBinding trees ns n ∧ ∀ other, AsksBinding trees ns other → n ≤ other := by
  constructor
  · rintro ⟨i, hi, hm, hb⟩
    exact hb.imp (mem_names_iff h hi hm).mp (binding_eq_some_iff h hi hm).mp
  · intro hasks
    have hasked : AskedFor trees ns := hasks.imp (fun hn => ⟨n, hn⟩) fun hb => ⟨n, hb.1⟩
    obtain ⟨i, hi, hm⟩ := exists_record h hasked
    exact ⟨i, hi, hm, hasks.imp (mem_names_iff h hi hm).mpr (binding_eq_some_iff h hi hm).mpr⟩

theorem asksName_of_hasVariable (h : convert options trees = .ok (c, text))
    (hv : (collected options trees).HasVariable v) (hq : v.qualifier ∈ namespacesOf trees) :
    AsksName trees v.qualifier v.value := by
  obtain ⟨hfiled, hlinked, -⟩ := of_convert_eq_ok h
  rw [← name_mem_link_collected h, name_mem_link (wellFiled_collected options trees) hlinked]
  exact ⟨(isNamespace_collected hfiled options).mpr hq, v, hv, rfl, rfl⟩

/-- Exports are bound by the imports that serve them exactly if each namespace that is exported
itself, and not as a member of another one, has a member of its own name or is the least name among
those that it is bound to. -/
theorem exports_bound_iff (h : convert options trees = .ok (c, text)) :
    ExportsBound (collectTrees trees { options := options }).state c ↔
      ∀ g e v, (collectTrees trees { options := options }).state.ExportOf g e v →
        v.qualifier ∉ namespacesOf trees → v.value ∈ namespacesOf trees →
        AsksName trees v.value v.value ∨ AsksBinding trees v.value v.value ∧
          ∀ other, AsksBinding trees v.value other → v.value ≤ other := by
  obtain ⟨hfiled, -⟩ := of_convert_eq_ok h
  have hns (ns : Text) : (collectTrees trees { options := options }).state.isNamespace ns = true ↔
      ns ∈ namespacesOf trees := by
    rw [state_collectTrees, isNamespace_collected hfiled]
  constructor
  · intro hbound g e v hx hq hvalue
    have hserved : (collectTrees trees { options := options }).state.servedBy? v =
        some v.value := by
      rw [← hns] at hq hvalue
      simp [servedBy?, hq, hvalue]
    obtain ⟨e', he', hbinds⟩ := hbound g e v v.value hx hserved
    cases (fetch_export_of_convert h hx).symm.trans he'
    exact (exists_binds_iff h).mp hbinds
  · intro hall g e v ns hx hserved
    refine ⟨_, fetch_export_of_convert h hx, (exists_binds_iff h).mpr ?_⟩
    simp only [servedBy?, hns] at hserved
    split at hserved
    · rename_i hq
      cases hserved
      -- The import is by the name that the export takes on.
      exact .inl (asksName_of_hasVariable h (hasVariable_of_exportOf hx) hq)
    · rename_i hq
      split at hserved
      · rename_i hvalue
        cases hserved
        exact hall g e v hx hq hvalue
      · cases hserved

/-- One export of a member of a namespace, and one of the namespace by a variable of its name. -/
theorem exports_bound_own_name :
    let trees := [Json.sourceFile [.namespaceNode "NS" [], .variableNode "NS" (.identifier "NS"),
      .variableNode "m" (.qualifiedName "NS" "Member"), .exportNode "NS", .exportNode "m"]]
    ∃ c text, convert {} trees = .ok (c, text) ∧
      c.imports.records =
        [{ module := "npm$namespace$NS", binding := some "NS", names := ["Member"] }] ∧
      ExportsBound (collectTrees trees { options := {} }).state c := by
  intro trees
  have hrecords : (convert {} trees).toOption.map (fun result => result.1.imports.records) =
      some [{ module := "npm$namespace$NS", binding := some "NS", names := ["Member"] }] := by
    decide +kernel
  obtain ⟨⟨c, text⟩, h, hrecords⟩ := exists_ok_of_map hrecords
  have hns : namespacesOf trees = ["NS"] := by decide +kernel
  have hd : declaredOf trees = ([("NS", "NS"), ("m", "NS.Member")] : List (Text × Text)) := by
    decide +kernel
  refine ⟨c, text, h, hrecords, (exports_bound_iff h).mpr fun g e v _ _ hvalue => .inr ?_⟩
  obtain hv : v.value = "NS" := by simpa [hns] using hvalue
  rw [hv]
  refine ⟨⟨by simp [hns], by decide, "NS", by simp [hd], .inl ⟨rfl, by rw [hns]; decide⟩⟩, ?_⟩
  rintro other ⟨-, -, type, hdeclared, htype⟩
  rw [hd] at hdeclared
  simp only [List.mem_cons, Prod.mk.injEq, List.not_mem_nil, or_false] at hdeclared
  rcases hdeclared with ⟨rfl, rfl⟩ | ⟨rfl, rfl⟩
  · exact le_rfl
  · rcases htype with ⟨he, -⟩ | ⟨q, he, -⟩
    · exact absurd he (by decide)
    · have hlast := congrArg (fun s => s.toList.getLast?) he
      simp at hlast

/-- A variable is bound to the namespace by its own name, and exported by that of the namespace. -/
theorem export_unbound :
    let inner := Json.obj [("kind", .str "InterfaceDeclaration"), ("name", .identifier "I")]
    let trees := [Json.sourceFile [.namespaceNode "NS" [inner],
      .variableNode "x" (.identifier "NS"), .exportNode "x"]]
    ∃ c text, convert {} trees = .ok (c, text) ∧
      ¬ExportsBound (collectTrees trees { options := {} }).state c := by
  intro inner trees
  have hrecords : (convert {} trees).toOption.map (fun result => result.1.imports.records) =
      some [{ module := "npm$namespace$NS", binding := some "x" }] := by decide +kernel
  obtain ⟨⟨c, text⟩, h, hrecords⟩ := exists_ok_of_map hrecords
  have hentry : ((collected {} trees).store.entriesAt "root" .exports).map
      (fun e => e.2.toExport?) = [some { name := "x", isDefault := true }] := by decide +kernel
  have htarget : (collected {} trees).exportTarget? "root" (some "x") =
      some { name := "x", value := "NS", qualifier := "root" } := by decide +kernel
  have hserved : (collected {} trees).servedBy?
      { name := "x", value := "NS", qualifier := "root" } = some "NS" := by decide +kernel
  obtain ⟨⟨g, item⟩, hmem, hitem⟩ := List.mem_map.mp (hentry ▸ List.mem_singleton_self _)
  obtain ⟨hmem, hcontext, hbucket⟩ := Store.mem_entriesAt.mp hmem
  cases Item.eq_of_toExport? hitem
  have hx : (collectTrees trees { options := {} }).state.ExportOf g
      { name := "x", isDefault := true } { name := "x", value := "NS", qualifier := "root" } := by
    rw [state_collectTrees]
    refine ⟨hmem, hbucket, ?_⟩
    rw [findExportTarget_eq (wellFiled_collected {} trees) (holdsVariables_collected {} trees),
      hcontext, htarget]
    rfl
  refine ⟨c, text, h, fun hbound => ?_⟩
  obtain ⟨e', he', i, hi, -, hbinds⟩ :=
    hbound _ _ _ "NS" hx (by rw [state_collectTrees]; exact hserved)
  cases (fetch_export_of_convert h hx).symm.trans he'
  rw [show c.imports.records = _ from hrecords, List.mem_singleton] at hi
  subst hi
  exact absurd hbinds (by simp [Import.Binds])

end Conversion
end Libdef
