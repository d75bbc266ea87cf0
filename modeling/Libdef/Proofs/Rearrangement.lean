import Libdef.Command.Input
import Libdef.Proofs.Content
import Libdef.Proofs.ImportTargets

/-!
Rearranged statements. How the statements are spread over files is not seen at all. If they come in
another order, items and reports come in another order, too, but what is collected is the same as a
set. Main statement: neither success nor imports, namespaces and contexts depend on more than that.
-/

set_option autoImplicit false

namespace Libdef

/-! When printing succeeds. -/

namespace Sheet

open Traced

theorem group_succeeds {print : Item → Sheet} {items : List Item} :
    (group print items).Succeeds ↔ ∀ item ∈ items, (print item).Succeeds := by
  cases items with
  | nil => simp [group, succeeds_pure]
  | cons item rest =>
    simp only [group, List.isEmpty_cons, Bool.false_eq_true, if_false]
    rw [succeeds_bind_pure, succeeds_mapM]

theorem block_succeeds {rootName : Text} {m : Module} :
    (block rootName m).Succeeds ↔ ∀ b, ∀ item ∈ m.items b, (itemOf b item).Succeeds := by
  have hblock : (block rootName m).Succeeds ↔
      (∀ item ∈ m.types, (itemOf .types item).Succeeds) ∧
      (∀ item ∈ m.interfaces, (itemOf .interfaces item).Succeeds) ∧
      (∀ item ∈ m.functions, (itemOf .functions item).Succeeds) ∧
      (∀ item ∈ m.classes, (itemOf .classes item).Succeeds) ∧
      ∀ item ∈ m.exports, (itemOf .exports item).Succeeds := by
    rw [block]
    refine (succeeds_bind_and fun types => ?_).trans (and_congr_left' group_succeeds)
    refine (succeeds_bind_and fun interfaces => ?_).trans (and_congr_left' group_succeeds)
    refine (succeeds_bind_and fun functions => ?_).trans (and_congr_left' group_succeeds)
    refine (succeeds_bind_and fun classes => ?_).trans (and_congr_left' group_succeeds)
    exact succeeds_bind_pure.trans group_succeeds
  rw [hblock]
  constructor
  · intro h b
    obtain ⟨htypes, hinterfaces, hfunctions, hclasses, hexports⟩ := h
    cases b with
    | functions => exact hfunctions
    | classes => exact hclasses
    | types => exact htypes
    | interfaces => exact hinterfaces
    | «variables» => simp [Module.items]
    | exports => exact hexports
  · intro h
    exact ⟨h .types, h .interfaces, h .functions, h .classes, h .exports⟩

theorem file_succeeds {rootName : Text} {imports : List Import} {modules : List Module} :
    (file rootName imports modules).Succeeds ↔ ∀ m ∈ modules, m.name ≠ ModuleName.scratch →
      ∀ b, ∀ item ∈ m.items b, (itemOf b item).Succeeds := by
  -- A module with an item is not empty, so only the name decides whether it is printed.
  have hprinted {m : Module} {b : Bucket} {item : Item} (hi : item ∈ m.items b) :
      m.isPrinted = true ↔ m.name ≠ ModuleName.scratch := by
    have hempty := Module.isEmpty_eq_false_iff.mpr ⟨b, item, hi⟩
    simp [Module.isPrinted, hempty]
  rw [file, succeeds_bind_pure, succeeds_mapM]
  simp only [List.mem_filter, block_succeeds, and_imp]
  constructor
  · intro h m hm hname b item hi
    exact h m hm ((hprinted hi).mpr hname) b item hi
  · intro h m hm hp b item hi
    exact h m hm ((hprinted hi).mp hp) b item hi

end Sheet

theorem Item.isDefault_rename (item : Item) (name : Text) :
    (∃ b, (item.rename name).isDefault = .ok b) ↔ ∃ b, item.isDefault = .ok b := by
  cases item with
  | declaration node =>
    exact ⟨fun _ => ⟨_, rfl⟩, fun _ => ⟨_, rfl⟩⟩
  | «variable» v => exact Iff.rfl
  | «export» e => exact Iff.rfl

theorem Sheet.exportItem_succeeds {item : Item} :
    (exportItem item).Succeeds ↔ ∃ b, item.isDefault = .ok b :=
  Traced.succeeds_bind_pure

namespace Conversion

variable {c d : Conversion}

/-- Everything that is filed outside the scratch context can be printed. -/
def Printable (c : Conversion) : Prop :=
  ∀ x b, x ≠ ModuleName.scratch → b ≠ .variables →
    ∀ item ∈ c.store.itemsAt x b, (Sheet.itemOf b item).Succeeds

theorem fileSheet_succeeds (h : c.WellFiled) : c.fileSheet.Succeeds ↔ c.Printable := by
  rw [fileSheet, modules_eq h, Traced.bind_of_ok (Traced.result_lift _)]
  show (Sheet.file _ _ _).Succeeds ↔ _
  rw [Sheet.file_succeeds]
  constructor
  · intro hfile x b hx hb item hi
    obtain ⟨g, hg, rfl, -⟩ := Store.mem_itemsAt.mp hi
    have hcontext := h.lists.context_mem g (List.mem_map_of_mem hg)
    have hmem := Store.mem_items_moduleAt.mpr ⟨hb, hi⟩
    exact hfile _ (List.mem_map_of_mem hcontext) hx b item hmem
  · intro hprint m hm hx b item hi
    obtain ⟨x, -, rfl⟩ := List.mem_map.mp hm
    obtain ⟨hb, hi⟩ := Store.mem_items_moduleAt.mp hi
    exact hprint x b hx hb item hi

theorem render_succeeds (h : c.WellFiled) : (∃ text, c.render.2 = .ok text) ↔ c.Printable := by
  rw [← fileSheet_succeeds h, Traced.Succeeds]
  simp only [render, printed]
  cases c.fileSheet.result <;> simp [Except.map]

theorem itemsAt_relinked (h : c.WellFiled) (x : Text) (b : Bucket) :
    c.relinked.store.itemsAt x b =
      (c.store.itemsAt x b).map fun item => if b = .exports then c.relink x item else item := by
  simp only [Store.itemsAt_eq, entriesAt_relinked h, List.map_map, Function.comp_def]

/-- Resolving changes the names of exports, and these can be printed whatever their names are. -/
theorem printable_relinked (h : c.WellFiled) : c.relinked.Printable ↔ c.Printable := by
  have hexport (x : Text) (item : Item) :
      (Sheet.exportItem (c.relink x item)).Succeeds ↔ (Sheet.exportItem item).Succeeds := by
    rw [relink]
    cases c.exportValue? x item.name with
    | none => exact Iff.rfl
    | some value =>
      rw [Sheet.exportItem_succeeds, Sheet.exportItem_succeeds]
      exact item.isDefault_rename value
  have hitem (x : Text) (b : Bucket) (item : Item) :
      (Sheet.itemOf b (if b = .exports then c.relink x item else item)).Succeeds ↔
        (Sheet.itemOf b item).Succeeds := by
    by_cases hb : b = .exports
    · subst hb
      exact hexport x item
    · rw [if_neg hb]
  simp only [Printable, itemsAt_relinked h, List.forall_mem_map, hitem]

end Conversion

/-! The head of a file. -/

theorem Sheet.file_render (width : Int) (rootName : Text) (imports : List Import)
    (modules : List Module) :
    (file rootName imports modules).result.map (Layout.render width) =
      (file rootName [] modules).result.map fun layout =>
        Import.head imports ++ layout.render width := by
  have hnone : Import.lines [] = "" := rfl
  simp only [file, Traced.result_bind, hnone, if_true]
  cases ((modules.filter Module.isPrinted).mapM (block rootName)).result with
  | error e => rfl
  | ok blocks =>
    simp [Bind.bind, Except.bind, Except.map, Layout.row, Layout.render, Import.head]

namespace Conversion

variable {c d : Conversion}

def bodyText (c : Conversion) : Except Fault Text := ({ c with imports := {} }).render.2

theorem bodyText_render (c : Conversion) : c.render.1.bodyText = c.bodyText := rfl

theorem imports_render (c : Conversion) : c.render.1.imports = c.imports := rfl

theorem render_eq_head (c : Conversion) :
    c.render.2 = c.bodyText.map fun body => Import.head c.imports.records ++ body := by
  have hmodules : ({ c with imports := {} } : Conversion).modules = c.modules := rfl
  simp only [bodyText, render, printed, fileSheet, Traced.result_bind, Traced.result_lift, hmodules]
  cases c.modules with
  | error e => rfl
  | ok modules =>
    simp only [Bind.bind, Except.bind]
    rw [Sheet.file_render]
    cases (Sheet.file c.options.rootModule [] modules).result <;> rfl

/-! What is collected, as a set. -/

structure SameMembers (c d : Conversion) : Prop where
  namespaces : ∀ ns, ns ∈ c.namespaces ↔ ns ∈ d.namespaces
  contexts : ∀ x, x ∈ c.contexts.names ↔ x ∈ d.contexts.names
  items : ∀ x b item, item ∈ c.store.itemsAt x b ↔ item ∈ d.store.itemsAt x b

theorem SameMembers.printable (h : SameMembers c d) : c.Printable ↔ d.Printable := by
  simp only [Printable, h.items]

theorem SameMembers.mem_link (h : SameMembers c d) (hc : c.WellFiled) (hd : d.WellFiled)
    (hcl : c.link.result = .ok ()) (hdl : d.link.result = .ok ()) (request : Request) :
    request ∈ c.link.log ↔ request ∈ d.link.log := by
  have hknown : c.isNamespace = d.isNamespace := by
    funext ns
    simp only [isNamespace, List.contains_eq_mem, h.namespaces]
  simp only [mem_log_link hc hcl, mem_log_link hd hdl, h.items, hknown]

end Conversion

def Entry.context? : Entry → Option Text
  | .item _ context _ => some context
  | .knownContext name => some name
  | _ => none

namespace Conversion

variable {c d : Conversion} {es fs : List Entry}

theorem mem_names_enter {entry : Entry} {x : Text} :
    x ∈ (c.enter entry).contexts.names ↔ x ∈ c.contexts.names ∨ entry.context? = some x := by
  cases entry with
  | item item context b =>
    simp only [enter, names_insert, Contexts.mem_names_request, Entry.context?, Option.some.injEq,
      eq_comm]
  | knownNamespace name =>
    have hcontexts : (c.enter (.knownNamespace name)).contexts = c.contexts := by
      simp only [enter, pushNamespace]
      split <;> rfl
    simp [hcontexts, Entry.context?]
  | knownContext name =>
    simp only [enter, requestContext, Contexts.mem_names_request, Entry.context?,
      Option.some.injEq, eq_comm]
  | report r => simp [enter, report, Entry.context?]

theorem mem_names_enterAll {x : Text} :
    x ∈ (c.enterAll es).contexts.names ↔
      x ∈ c.contexts.names ∨ ∃ entry ∈ es, entry.context? = some x := by
  induction es generalizing c with
  | nil => simp [enterAll]
  | cons entry rest ih =>
    rw [enterAll, List.foldl_cons, ← enterAll, ih, mem_names_enter]
    simp only [List.mem_cons, exists_eq_or_imp, or_assoc]

theorem SameMembers.of_perm (c : Conversion) (h : es.Perm fs) :
    SameMembers (c.enterAll es) (c.enterAll fs) where
  namespaces ns := by simp only [mem_namespaces_enterAll, h.mem_iff]
  contexts x := by simp only [mem_names_enterAll, h.mem_iff]
  items x b item := by simp only [mem_itemsAt_enterAll, h.mem_iff]

end Conversion

/-! Trees of the same statements. -/

def topStatements (trees : List Json) : List Json :=
  trees.flatMap fun tree => (tree.get "statements").items

theorem sitesOf_eq {trees : List Json} (h : ∀ tree ∈ trees, Command.isSource tree = true) :
    sitesOf trees = (topStatements trees).flatMap fun s => s.tour.statement ModuleName.root := by
  rw [sitesOf, topStatements, List.flatMap_assoc]
  apply List.flatMap_congr
  intro tree ht
  have hsource := h tree ht
  cases hs : tree.get "statements" with
  | arr statements => exact Json.tour_block hs ModuleName.root
  | _ => simp [Command.isSource, hs] at hsource

namespace Conversion

variable {trees trees' : List Json}

/-- What the order of the statements leaves as it is: the imports, the import lines at the head of
the text, and the namespaces and contexts as sets. -/
structure SameOutline (c d : Conversion × Text) : Prop where
  imports : c.1.imports = d.1.imports
  head : ∃ body body', c.1.bodyText = .ok body ∧ d.1.bodyText = .ok body' ∧
    c.2 = Import.head c.1.imports.records ++ body ∧ d.2 = Import.head c.1.imports.records ++ body'
  namespaces : ∀ ns, ns ∈ c.1.namespaces ↔ ns ∈ d.1.namespaces
  contexts : ∀ x, x ∈ c.1.contexts.names ↔ x ∈ d.1.contexts.names

theorem sameMembers_of_perm (options : Options) (h : (sitesOf trees).Perm (sitesOf trees'))
    (hpass : Site.Pass (sitesOf trees)) (hpass' : Site.Pass (sitesOf trees')) :
    SameMembers (collected options trees) (collected options trees') := by
  rw [collected_of_pass options hpass, collected_of_pass options hpass']
  exact .of_perm _ (h.flatMap_right _)

/-- A conversion goes through exactly if everything can be filed and then printed. -/
theorem convert_succeeds_iff (options : Options) (trees : List Json) :
    (∃ out, convert options trees = .ok out) ↔
      Site.Pass (sitesOf trees) ∧ (collected options trees).Printable := by
  by_cases hpass : Site.Pass (sitesOf trees)
  · have hstore : (collected options trees).granted.Printable ↔
        (collected options trees).Printable := by
      simp only [Printable, granted, (grants_frame _ _).2]
    rw [← hstore, ← printable_relinked (wellFiled_granted options trees), ← resolved,
      ← render_succeeds (wellFiled_resolved options trees), convert_of_pass options hpass]
    cases (resolved options trees).render.2 <;> simp [Except.map, hpass]
  · obtain ⟨e, he⟩ := convert_of_not_pass options hpass
    simp [he, hpass]

theorem bodyText_of_convert {options : Options} {out : Conversion × Text}
    (h : convert options trees = .ok out) :
    ∃ body, out.1.bodyText = .ok body ∧ out.2 = Import.head out.1.imports.records ++ body := by
  have hpass := ((convert_succeeds_iff options trees).mp ⟨out, h⟩).1
  rw [convert_of_pass options hpass, render_eq_head] at h
  cases hbody : (resolved options trees).bodyText with
  | error e =>
    rw [hbody] at h
    cases h
  | ok body =>
    rw [hbody] at h
    cases h
    refine ⟨body, ?_, ?_⟩
    · rw [bodyText_render, hbody]
    · rw [imports_render]

theorem sameOutline_of_perm {options : Options} {out out' : Conversion × Text}
    (hperm : (sitesOf trees).Perm (sitesOf trees')) (h : convert options trees = .ok out)
    (h' : convert options trees' = .ok out') : SameOutline out out' := by
  obtain ⟨hfiled, hlink, hsame, hanswers⟩ := of_convert_eq_ok h
  obtain ⟨hfiled', hlink', hsame', hanswers'⟩ := of_convert_eq_ok h'
  have hmembers := sameMembers_of_perm options hperm (Site.pass_iff.mp hfiled)
    (Site.pass_iff.mp hfiled')
  have hrequests := hmembers.mem_link (wellFiled_collected options trees)
    (wellFiled_collected options trees') hlink hlink'
  have himports := hanswers.unique hrequests hanswers'
  obtain ⟨body, hbody, htext⟩ := bodyText_of_convert h
  obtain ⟨body', hbody', htext'⟩ := bodyText_of_convert h'
  rw [← himports] at htext'
  refine ⟨himports, ⟨body, body', hbody, hbody', htext, htext'⟩, fun ns => ?_, fun x => ?_⟩
  · rw [hsame.namespaces, hsame'.namespaces, hmembers.namespaces]
  · rw [hsame.contexts, hsame'.contexts, hmembers.contexts]

theorem exists_ok_of_perm (options : Options) (h : (sitesOf trees).Perm (sitesOf trees'))
    (hok : ∃ out, convert options trees = .ok out) : ∃ out, convert options trees' = .ok out := by
  rw [convert_succeeds_iff] at hok ⊢
  obtain ⟨hpass, hprint⟩ := hok
  have hpass' : Site.Pass (sitesOf trees') := fun site hs => hpass site (h.mem_iff.mpr hs)
  exact ⟨hpass', (sameMembers_of_perm options h hpass hpass').printable.mp hprint⟩

/-- Where the same statements are spread over files in another way, everything is the same, faults
included. Where they also come in another order, the conversion goes through in the one order
exactly if it does in the other, and then the imports, the import lines at the head of the text,
the namespaces and the contexts are the same. -/
theorem convert_of_rearranged (options : Options) (trees trees' : List Json)
    (h : ∀ tree ∈ trees, Command.isSource tree = true)
    (h' : ∀ tree ∈ trees', Command.isSource tree = true) :
    (topStatements trees = topStatements trees' →
      convert options trees = convert options trees') ∧
    ((topStatements trees).Perm (topStatements trees') →
      Alike SameOutline (fun _ _ => True) (convert options trees) (convert options trees')) := by
  constructor
  · intro hsame
    have hsites : sitesOf trees = sitesOf trees' := by
      rw [sitesOf_eq h, sitesOf_eq h', hsame]
    simp only [convert, collectTrees_eq, hsites]
  · intro hperm
    have hsites : (sitesOf trees).Perm (sitesOf trees') := by
      rw [sitesOf_eq h, sitesOf_eq h']
      exact hperm.flatMap_right _
    cases hr : convert options trees with
    | ok out =>
      obtain ⟨out', hr'⟩ := exists_ok_of_perm options hsites ⟨out, hr⟩
      rw [hr']
      exact sameOutline_of_perm hsites hr hr'
    | error e =>
      cases hr' : convert options trees' with
      | error f => trivial
      | ok out' =>
        obtain ⟨out, hok⟩ := exists_ok_of_perm options hsites.symm ⟨out', hr'⟩
        rw [hr] at hok
        cases hok

/-- Two variables compete for the binding, and the namespace comes first or last. -/
theorem convert_of_rearranged_bindings :
    let bar := Json.obj [("kind", .str "InterfaceDeclaration"), ("name", .identifier "Bar")]
    let foo := Json.namespaceNode "Foo" [bar]
    let a := Json.variableNode "a" (.identifier "Foo")
    let b := Json.variableNode "b" (.identifier "Foo")
    let x := Json.variableNode "x" (.qualifiedName "Foo" "Bar")
    let trees := [Json.sourceFile [foo, b, a, x]]
    let trees' := [Json.sourceFile [x, a], .sourceFile [], .sourceFile [b, foo]]
    let records := [{ module := "npm$namespace$Foo", binding := some "a", names := ["Bar"] }]
    (topStatements trees).Perm (topStatements trees') ∧
      (∃ c text, convert {} trees = .ok (c, text) ∧ c.imports.records = records) ∧
      ∃ d text, convert {} trees' = .ok (d, text) ∧ d.imports.records = records := by
  -- For any trees, so that nothing is evaluated here.
  have hsame (ts ts' : List Json) (h : ts.all Command.isSource = true)
      (h' : ts'.all Command.isSource = true) (hp : (topStatements ts).Perm (topStatements ts'))
      (c : Conversion × Text) (hc : convert {} ts = .ok c) :
      ∃ d, convert {} ts' = .ok d ∧ c.1.imports = d.1.imports := by
    have halike := (convert_of_rearranged {} ts ts' (List.all_eq_true.mp h)
      (List.all_eq_true.mp h')).2 hp
    obtain ⟨d, hd, hout⟩ := halike.exists_ok hc
    exact ⟨d, hd, hout.imports⟩
  intro bar foo a b x trees trees' records
  have hperm : (topStatements trees).Perm (topStatements trees') :=
    (List.reverse_perm [foo, b, a, x]).symm
  have hrecords : (convert {} trees).toOption.map (fun out => out.1.imports.records) =
      some records := by decide +kernel
  obtain ⟨⟨c, text⟩, hc, hrecords⟩ := exists_ok_of_map hrecords
  obtain ⟨⟨d, text'⟩, hd, himports⟩ := hsame trees trees' (by decide) (by decide) hperm _ hc
  have hrecords' : d.imports.records = records := by
    rw [← hrecords, himports]
  exact ⟨hperm, ⟨c, text, hc, hrecords⟩, d, text', hd, hrecords'⟩

end Conversion

end Libdef
